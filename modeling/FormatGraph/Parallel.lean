/-! Things done at once. -/

namespace FormatGraph

class Parallel (m : Type → Type) where
  /-- The results are in the order of the items, whichever is done first. -/
  map {α β : Type} (act : α → m β) (items : List α) : m (List β)

instance {σ : Type} : Parallel (StateM σ) where
  map act items := items.mapM act

end FormatGraph

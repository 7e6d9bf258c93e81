import FormatGraph.Json.Fault
import FormatGraph.Text.Bytes

/-! Readers of JSON text. A reader takes the characters that are left, and gives a value with the
characters after it, or a fault. It never gives back anything but an end of what it was given, and
no fault lies outside of that. -/

namespace FormatGraph

def Within {α : Type} (s : List Char) : Except Fault (α × List Char) → Prop
  | .ok (_, rest) => rest <:+ s
  | .error fault => fault.left ≤ Text.byteSize s

theorem Within.of_suffix {α : Type} {r s : List Char} {x : Except Fault (α × List Char)}
    (h : r <:+ s) (hx : Within r x) : Within s x := by
  match x, hx with
  | .ok (_, rest), hx => exact List.IsSuffix.trans hx h
  | .error fault, hx => exact Nat.le_trans hx (Text.byteSize_le_of_suffix h)

structure Reader (α : Type) where
  run : List Char → Except Fault (α × List Char)
  within : ∀ s, Within s (run s)

namespace Reader

variable {α β σ : Type}

def pure (a : α) : Reader α where
  run s := .ok (a, s)
  within s := List.suffix_refl s

def andThen (f : α → Reader β) : Except Fault (α × List Char) → Except Fault (β × List Char)
  | .ok (a, rest) => (f a).run rest
  | .error fault => .error fault

theorem within_andThen (f : α → Reader β) {s : List Char} {x : Except Fault (α × List Char)}
    (h : Within s x) : Within s (andThen f x) := by
  match x, h with
  | .ok (a, rest), h => exact ((f a).within rest).of_suffix h
  | .error _, h => exact h

def bind (r : Reader α) (f : α → Reader β) : Reader β where
  run s := andThen f (r.run s)
  within s := within_andThen f (r.within s)

instance : Monad Reader where
  pure := Reader.pure
  bind := Reader.bind

def failAfter (n : Nat) (cause : Cause) : Reader α where
  run s := .error ⟨cause, Text.byteSize s - n⟩
  within _ := Nat.sub_le _ _

def fail (cause : Cause) : Reader α := failAfter 0 cause

def failNext (cause : Cause) : Reader α := failAfter 1 cause

def peek : Reader (Option Char) where
  run s := .ok (s.head?, s)
  within s := List.suffix_refl s

def eat : Reader Unit where
  run s := .ok ((), s.tail)
  within s := List.tail_suffix s

def takeWhile (p : Char → Bool) : Reader (List Char) where
  run s := .ok (s.takeWhile p, s.dropWhile p)
  within _ := List.dropWhile_suffix p

def peekWhile (p : Char → Bool) : Reader (List Char) where
  run s := .ok (s.takeWhile p, s)
  within s := List.suffix_refl s

def peekMany (n : Nat) : Reader (List Char) where
  run s := .ok (s.take n, s)
  within s := List.suffix_refl s

def eatMany (n : Nat) : Reader Unit where
  run s := .ok ((), s.drop n)
  within s := List.drop_suffix n s

def bytesLeft : Reader Nat where
  run s := .ok (Text.byteSize s, s)
  within s := List.suffix_refl s

/-- Take steps until one answers with a result. Every step but the last has to pass over
something. -/
def iterateRun (step : σ → Reader (σ ⊕ β)) (x : σ) (s : List Char) : Except Fault (β × List Char) :=
  match (step x).run s with
  | .error fault => .error fault
  | .ok (.inr b, rest) => .ok (b, rest)
  | .ok (.inl y, rest) =>
    if rest.length < s.length then iterateRun step y rest
    else .error ⟨.expectedValue, Text.byteSize s⟩
termination_by s.length

theorem within_iterateRun (step : σ → Reader (σ ⊕ β)) (x : σ) (s : List Char) :
    Within s (iterateRun step x s) := by
  fun_induction iterateRun step x s with
  | case1 x s fault h => simpa [h, Within] using (step x).within s
  | case2 x s b rest h => simpa [h, Within] using (step x).within s
  | case3 x s y rest h _ ih => exact ih.of_suffix (by simpa [h, Within] using (step x).within s)
  | case4 => simp [Within]

def iterate (step : σ → Reader (σ ⊕ β)) (x : σ) : Reader β where
  run := iterateRun step x
  within := within_iterateRun step x

def blank : Reader Unit := do
  let _ ← takeWhile fun c => c = ' ' || c = '\n' || c = '\r' || c = '\t'

def peekSolid : Reader (Option Char) := do
  blank
  peek

def whole (r : Reader α) : Reader α := do
  let a ← r
  match ← peekSolid with
  | none => return a
  | some _ => failNext .trailingCharacters

end Reader

end FormatGraph

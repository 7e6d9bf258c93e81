/-! JSON values. Integers are kept exactly within the range of 64-bit words, every other number is a
double, and the members of an object that was read stand in the order of their keys, the last of
equal keys winning. -/

namespace FormatGraph

/-- A JSON number: an integer, or a double given by its 64 bits. -/
inductive Number where
  | int (value : Int)
  | double (bits : UInt64)
  deriving DecidableEq, Repr

inductive Json where
  | null
  | bool (value : Bool)
  | num (value : Number)
  | str (value : String)
  | arr (items : List Json)
  | obj (members : List (String × Json))
  deriving Inhabited, Repr

namespace Json

abbrev Object := List (String × Json)

/-- Put a member at the place of its key, instead of a member with the same key. -/
def insert (key : String) (value : Json) : Object → Object
  | [] => [(key, value)]
  | (k, v) :: rest =>
    if key < k then (key, value) :: (k, v) :: rest
    else if key = k then (key, value) :: rest
    else (k, v) :: insert key value rest

def nat (n : Nat) : Json := .num (.int n)

def word? : Json → Option UInt64
  | .num (.int i) => if 0 ≤ i ∧ i.toNat < UInt64.size then some (UInt64.ofNat i.toNat) else none
  | _ => none

theorem word?_eq_some_iff {json : Json} {n : UInt64} : json.word? = some n ↔ json = nat n.toNat := by
  constructor
  · intro h
    unfold word? at h
    split at h
    · split at h
      next hrange =>
        cases h
        rw [UInt64.toNat_ofNat_of_lt' hrange.2, nat, Int.toNat_of_nonneg hrange.1]
      · cases h
    · cases h
  · rintro rfl
    have hrange : 0 ≤ (n.toNat : Int) ∧ (n.toNat : Int).toNat < UInt64.size :=
      ⟨Int.natCast_nonneg _, by simpa using n.toNat_lt⟩
    rw [nat, word?, if_pos hrange, Int.toNat_natCast, UInt64.ofNat_toNat]

end Json

end FormatGraph

/-!
# Values by recency

A bounded map that keeps the values that were used last. It is a list with the value that was used
last in front, so the one to give up stands at the end.
-/

set_option autoImplicit false

namespace DesignSystem

/-- Values by key, the one used last in front. -/
abbrev ByRecency (κ α : Type) := List (κ × α)

namespace ByRecency

variable {κ α : Type} [DecidableEq κ]

/-- The value of a key. -/
def get? (k : κ) : ByRecency κ α → Option α
  | [] => none
  | (key, v) :: rest => if key = k then some v else get? k rest

/-- Whether there is a value for a key. -/
def has (k : κ) (l : ByRecency κ α) : Bool := (l.get? k).isSome

/-- The values of other keys. -/
def without (k : κ) (l : ByRecency κ α) : ByRecency κ α := l.filter (·.1 ≠ k)

/-- Moves the value of a key to the front. -/
def touch (k : κ) (l : ByRecency κ α) : ByRecency κ α :=
  match l.get? k with
  | some v => (k, v) :: l.without k
  | none => l

/-- Puts a value in front. Of more than `capacity` values the last one is given up. -/
def put (capacity : Nat) (k : κ) (v : α) (l : ByRecency κ α) : ByRecency κ α :=
  ((k, v) :: l.without k).take capacity

/-- Whether putting a value under a key gives up another one. -/
def overflows (capacity : Nat) (k : κ) (l : ByRecency κ α) : Bool :=
  capacity ≤ (l.without k).length

end ByRecency

end DesignSystem

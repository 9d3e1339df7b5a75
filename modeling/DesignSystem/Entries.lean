/-!
# Entries in order of insertion

A map from names to values as the list of its entries. Inserting under a name that is present
replaces the value and keeps the place; a new name comes last. Entries that are built this way have
distinct names.
-/

set_option autoImplicit false

namespace DesignSystem

/-- Named values in order of insertion. -/
abbrev Entries (α : Type) := List (String × α)

namespace Entries

variable {α β : Type}

/-- The names, in order. -/
def names (e : Entries α) : List String := e.map (·.1)

/-- The values, in order. -/
def values (e : Entries α) : List α := e.map (·.2)

/-- The value under a name. -/
def get? (name : String) : Entries α → Option α
  | [] => none
  | (n, v) :: rest => if n = name then some v else get? name rest

/-- Whether there is a value under a name. -/
def has (name : String) (e : Entries α) : Bool := (e.get? name).isSome

/-- Puts a value under a name: in the place of the value there, or at the end. -/
def insert (name : String) (value : α) : Entries α → Entries α
  | [] => [(name, value)]
  | (n, v) :: rest => if n = name then (n, value) :: rest else (n, v) :: insert name value rest

/-- The entries of a list in which later values replace earlier ones of the same name. -/
def ofList (items : List (String × α)) : Entries α :=
  items.foldl (fun e item => e.insert item.1 item.2) []

/-- The same names with other values. -/
def mapValues (f : α → β) (e : Entries α) : Entries β := e.map fun item => (item.1, f item.2)

/-- No two entries have one name. -/
def Distinct (e : Entries α) : Prop := e.names.Nodup

/-- Entries in ascending order of their names, by code points. -/
def sortByName (e : Entries α) : Entries α := e.mergeSort fun a b => a.1 ≤ b.1

end Entries

end DesignSystem

import DesignSystem.Json.Draft
import DesignSystem.Token.Encoding
import DesignSystem.Descriptor.Encoding

/-!
# Reading records

A decoder reads a draft as a value of some type. A record is an object with known fields, or the
list of these fields in order; of all its problems the one that stands leftmost counts. A problem
that shows only at the end of the record, such as a missing field, stands after all its fields.
-/

set_option autoImplicit false

namespace DesignSystem

/-- Why a draft cannot be read. -/
inductive DecodeError
  | json (fault : Json.Fault)
  | leaf (error : Token.LeafError)
  deriving DecidableEq

/-- Reads a draft. -/
abbrev Decoder (α : Type) := Json.Draft → Except DecodeError α

namespace Decoder

variable {α β : Type}

/-- The value has another shape. -/
def unexpected : Except DecodeError α := .error (.json .unexpected)

/-- The fault where the text was cut, if it was. -/
def uncut (cut : Option Json.Fault) (a : α) : Except DecodeError α :=
  match cut with
  | none => .ok a
  | some fault => .error (.json fault)

/-- Reads text. -/
def text : Decoder String
  | .string s => .ok s
  | .valueless read _ => .error (.json read)
  | _ => unexpected

/-- Reads a truth value. -/
def bool : Decoder Bool
  | .bool b => .ok b
  | .valueless read _ => .error (.json read)
  | _ => unexpected

/-- Reads any value, keeping fields of one name apart. -/
def rawValue : Decoder Json.Value := fun d => d.value.mapError .json

/-- Reads any value. -/
def value : Decoder Json.Value := fun d => (rawValue d).map Json.Value.merged

/-- Reads null as nothing. -/
def nullable (read : Decoder α) : Decoder (Option α)
  | .null => .ok none
  | d => (read d).map some

/-- Reads the items of an array. -/
def list (read : Decoder α) : Decoder (List α)
  | .array items cut => do
    let all ← items.mapM read
    uncut cut all
  | .valueless read _ => .error (.json read)
  | _ => unexpected

/-- Reads the fields of an object. Of fields with one name the last value counts. -/
def entries (read : Decoder α) : Decoder (Entries α)
  | .object fields cut => do
    let all ← fields.mapM fun field => (read field.2).map fun a => (field.1, a)
    uncut cut (Entries.ofList all)
  | .valueless read _ => .error (.json read)
  | _ => unexpected

/-- Reads one of several names, or an object whose only field has that name and is null. -/
def choice (all : List α) (name : α → String) : Decoder α
  | .string s =>
    match all.find? (name · = s) with
    | some a => .ok a
    | none => unexpected
  | .object ((s, content) :: rest) cut =>
    match all.find? (name · = s), content with
    | none, _ => unexpected
    | some a, .null =>
      match rest with
      | [] => uncut cut a
      | _ :: _ => .error (.json .malformed)
    | some _, .valueless read _ => .error (.json read)
    | some _, _ => unexpected
  | .object [] cut => .error (.json (cut.getD .malformed))
  | .valueless read _ => .error (.json read)
  | _ => unexpected

/-- Reads a type descriptor. -/
def descriptor : Decoder TypeDescriptor := fun d => do
  match TypeDescriptor.ofJson? (← rawValue d) with
  | some t => .ok t
  | none => unexpected

/-- Reads a token tree. -/
def group : Decoder Token.Group
  | .object fields cut => do
    match ← value (.object fields cut) with
    | .object fields => (Token.Group.ofFields fields).mapError .leaf
    | _ => unexpected
  | .valueless read _ => .error (.json read)
  | _ => unexpected

/-! ## Records -/

/-- What reading part of a record gives: a value, or the leftmost problem with its place. -/
inductive Placed (α : Type)
  | ok (a : α)
  | problem (place : Nat) (error : DecodeError)

/-- The results of two parts together: the leftmost problem counts. -/
def Placed.apply (f : Placed (α → β)) (x : Placed α) : Placed β :=
  match f, x with
  | .ok f, .ok a => .ok (f a)
  | .problem p e, .ok _ => .problem p e
  | .ok _, .problem p e => .problem p e
  | .problem p e, .problem q e' => if p ≤ q then .problem p e else .problem q e'

instance : Applicative Placed where
  pure := .ok
  seq f x := f.apply (x ())

/-- A result at a place. -/
def Placed.ofExcept (place : Nat) : Except DecodeError α → Placed α
  | .ok a => .ok a
  | .error e => .problem place e

/-- The fields of a record, numbered by their places, and the place of its end. -/
structure Record where
  fields : List (Nat × String × Json.Draft)
  last : Nat

/-- Numbers fields from `place` on. -/
def numbered (place : Nat) : List (String × Json.Draft) → List (Nat × String × Json.Draft)
  | [] => []
  | field :: rest => (place, field) :: numbered (place + 1) rest

namespace Record

/-- The first field of a name. -/
def find? (r : Record) (name : String) : Option (Nat × Json.Draft) :=
  r.fields.findSome? fun field => if field.2.1 = name then some (field.1, field.2.2) else none

/-- A field that must be there. -/
def required (r : Record) (name : String) (read : Decoder α) : Placed α :=
  match r.find? name with
  | some (place, d) => .ofExcept place (read d)
  | none => .problem (r.last + 1) (.json .unexpected)

/-- A field that has a default. -/
def withDefault (r : Record) (name : String) (default : α) (read : Decoder α) : Placed α :=
  match r.find? name with
  | some (place, d) => .ofExcept place (read d)
  | none => .ok default

/-- A field that may be missing or null. -/
def optional (r : Record) (name : String) (read : Decoder α) : Placed (Option α) :=
  r.withDefault name none (nullable read)

/-- No field of the given names stands twice. -/
def noRepeats (names : List String) : List String → List (Nat × String × Json.Draft) → Placed Unit
  | _, [] => .ok ()
  | seen, (place, name, _) :: rest =>
    if name ∈ seen then .problem place (.json .unexpected)
    else noRepeats names (if name ∈ names then name :: seen else seen) rest

/-- The fields of other names can be skipped. -/
def skipOthers (names : List String) : List (Nat × String × Json.Draft) → Placed Unit
  | [] => .ok ()
  | (place, name, d) :: rest =>
    if name ∈ names then skipOthers names rest
    else
      match d.skipFault with
      | some fault => .problem place (.json fault)
      | none => skipOthers names rest

/-- The fields of other names as values. -/
def others (names : List String) (r : Record) : Placed (List (String × Json.Value)) :=
  (r.fields.filter fun field => field.2.1 ∉ names).foldr
    (fun field rest =>
      (fun v vs => (field.2.1, v) :: vs) <$> Placed.ofExcept field.1 (rawValue field.2.2) <*> rest)
    (.ok [])

end Record

/-- The cut of a text at a place. -/
def cutAt (place : Nat) : Option Json.Fault → Placed Unit
  | none => .ok ()
  | some fault => .problem place (.json fault)

/-- The result of a record, after the checks that concern its form. -/
def finish (checks : List (Placed Unit)) (a : Placed α) : Except DecodeError α :=
  match checks.foldr (fun check a => (fun _ a => a) <$> check <*> a) a with
  | .ok a => .ok a
  | .problem _ e => .error e

/-- Reads a record with the given field names. A name may have another spelling. -/
def record (names : List String) (read : Record → Placed α)
    (spelling : String → String := fun name => name) : Decoder α
  | .object fields cut =>
    let numbered := numbered 0 (fields.map fun field => (spelling field.1, field.2))
    let last := fields.length
    finish [Record.noRepeats names [] numbered, Record.skipOthers names numbered, cutAt last cut]
      (read ⟨numbered, last⟩)
  | .array items cut =>
    let numbered := numbered 0 (names.zip items)
    let surplus := if items.length ≤ names.length then Placed.ok () else
      .problem names.length (.json .malformed)
    finish [surplus, cutAt items.length cut] (read ⟨numbered, items.length⟩)
  | .valueless read _ => .error (.json read)
  | _ => unexpected

/-- Reads an object with the given fields and others besides, which all count. -/
def openRecord (names : List String) (read : Record → Placed α) : Decoder α
  | .object fields cut =>
    let numbered := numbered 0 fields
    let last := fields.length
    finish [Record.noRepeats names [] numbered, cutAt last cut] (read ⟨numbered, last⟩)
  | .valueless read _ => .error (.json read)
  | _ => unexpected

end Decoder

end DesignSystem

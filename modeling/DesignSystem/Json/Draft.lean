import DesignSystem.Json.Lexeme

/-!
# Drafts

A draft is a JSON value read as far as its text goes. Where the text breaks, the draft says so in
that place, so a reader that goes through a draft from left to right meets the faults of the text
and those of its shape in the order in which they stand.
-/

set_option autoImplicit false

namespace DesignSystem.Json

/-- A value read as far as its text goes. -/
inductive Draft
  | null
  | bool (b : Bool)
  | number (n : Number)
  | string (s : String)
  /-- Items; after the last of them the text may break. -/
  | array (items : List Draft) (cut : Option Fault)
  /-- Fields; after the last of them the text may break. -/
  | object (fields : List (String × Draft)) (cut : Option Fault)
  /-- No value can be had: reading meets `read`, and skipping meets `skip`, if that is a fault. -/
  | valueless (read : Fault) (skip : Option Fault)

/-- A container that is being read, its parts last first. -/
inductive OpenPart
  | array (items : List Draft)
  | object (fields : List (String × Draft))
  | field (fields : List (String × Draft)) (name : String)

/-- What may come next. -/
inductive Expected
  | value
  | firstItem
  | firstField
  | fieldName
  | colon
  | separator

namespace Draft

/-- A container, ended by its bracket or cut off. -/
def ofOpenPart (cut : Option Fault) : OpenPart → Draft
  | .array items => .array items.reverse cut
  | .object fields => .object fields.reverse cut
  | .field fields _ => .object fields.reverse cut

/-- A value put into the container around it. -/
def putInto (d : Draft) : OpenPart → OpenPart
  | .array items => .array (d :: items)
  | .object fields => .object fields
  | .field fields name => .object ((name, d) :: fields)

/-- A value put into all the containers around it, which end there. -/
def putOut (d : Draft) : List OpenPart → Draft
  | [] => d
  | part :: outer => putOut (ofOpenPart none (d.putInto part)) outer

/-- The draft of a text that breaks with `fault`. -/
def breakOff (fault : Fault) : Expected → List OpenPart → Draft
  | .value, outer => putOut (.valueless fault (some fault)) outer
  | .colon, outer => putOut (.valueless fault (some fault)) outer
  | _, [] => .valueless fault (some fault)
  | _, part :: outer => putOut (ofOpenPart (some fault) part) outer

/-- The value that a lexeme is on its own. -/
def ofScalar? : Lexeme → Option Draft
  | .null => some .null
  | .bool b => some (.bool b)
  | .number n => some (.number n)
  | .string s => some (.string s)
  | .valueless read skip => some (.valueless read skip)
  | _ => none

/-- What to do after a lexeme. -/
inductive Step
  /-- Go on, with what may come next and the containers that are open. -/
  | next (expected : Expected) (outer : List OpenPart)
  /-- A value has been read, inside the containers that are open. -/
  | complete (d : Draft) (outer : List OpenPart)
  /-- The text breaks. -/
  | stop (fault : Fault)

/-- A lexeme where a value may come. -/
def stepValue (outer : List OpenPart) (l : Lexeme) : Step :=
  match l with
  | .openArray => .next .firstItem (.array [] :: outer)
  | .openObject => .next .firstField (.object [] :: outer)
  | .broken fault => .stop fault
  | l => match ofScalar? l with
    | some d => .complete d outer
    | none => .stop .malformed

/-- A lexeme where the name of a field may come. -/
def stepName (outer : List OpenPart) : Lexeme → Step
  | .string name =>
    match outer with
    | .object fields :: outer => .next .colon (.field fields name :: outer)
    | _ => .stop .malformed
  | .valueless read _ => .stop read
  | .broken fault => .stop fault
  | _ => .stop .malformed

/-- A lexeme after a value inside a container. -/
def stepSeparator (outer : List OpenPart) (l : Lexeme) : Step :=
  match outer, l with
  | _, .broken fault => .stop fault
  | .array _ :: _, .comma => .next .value outer
  | .object _ :: _, .comma => .next .fieldName outer
  | .array items :: outer, .closeArray => .complete (.array items.reverse none) outer
  | .object fields :: outer, .closeObject => .complete (.object fields.reverse none) outer
  | _, _ => .stop .malformed

/-- What a lexeme does. -/
def step : Expected → List OpenPart → Lexeme → Step
  | .firstItem, .array _ :: outer, .closeArray => .complete (.array [] none) outer
  | .firstField, .object _ :: outer, .closeObject => .complete (.object [] none) outer
  | .value, outer, l => stepValue outer l
  | .firstItem, outer, l => stepValue outer l
  | .firstField, outer, l => stepName outer l
  | .fieldName, outer, l => stepName outer l
  | .colon, outer, .colon => .next .value outer
  | .colon, _, .broken fault => .stop fault
  | .colon, _, _ => .stop .malformed
  | .separator, outer, l => stepSeparator outer l

/-- The draft that lexemes are read as, and the fault of the text after it, if any. -/
def ofLexemes (expected : Expected) (outer : List OpenPart) : List Lexeme → Draft × Option Fault
  | [] => (breakOff .ended expected outer, none)
  | l :: rest =>
    match step expected outer l with
    | .next expected outer => ofLexemes expected outer rest
    | .complete d [] => (d, if rest.isEmpty then none else some .malformed)
    | .complete d (part :: outer) => ofLexemes .separator (d.putInto part :: outer) rest
    | .stop fault => (breakOff fault expected outer, none)

/-! ## Nesting -/

/-- The greatest depth of nesting in a value that is read. -/
def maxDepth : Nat := 127

mutual

/-- The fault met by skipping a draft. -/
def skipFault : Draft → Option Fault
  | array items cut => (skipItems items).or cut
  | object fields cut => (skipFields fields).or cut
  | valueless _ skip => skip
  | _ => none

/-- The fault met by skipping items. -/
def skipItems : List Draft → Option Fault
  | [] => none
  | d :: ds => (skipFault d).or (skipItems ds)

/-- The fault met by skipping fields. -/
def skipFields : List (String × Draft) → Option Fault
  | [] => none
  | (_, d) :: rest => (skipFault d).or (skipFields rest)

end

mutual

/-- A draft in which containers below `depth` further levels have no value, and can be skipped. -/
def limited (depth : Nat) : Draft → Draft
  | array items cut =>
    match depth with
    | 0 => valueless .malformed ((skipItems items).or cut)
    | depth + 1 => array (limitedItems depth items) cut
  | object fields cut =>
    match depth with
    | 0 => valueless .malformed ((skipFields fields).or cut)
    | depth + 1 => object (limitedFields depth fields) cut
  | null => null
  | bool b => bool b
  | number n => number n
  | string s => string s
  | valueless read skip => valueless read skip

/-- Items, limited. -/
def limitedItems (depth : Nat) : List Draft → List Draft
  | [] => []
  | d :: ds => limited depth d :: limitedItems depth ds

/-- Fields, limited. -/
def limitedFields (depth : Nat) : List (String × Draft) → List (String × Draft)
  | [] => []
  | (name, d) :: rest => (name, limited depth d) :: limitedFields depth rest

end

/-- The draft of a text, and the fault of what follows the value. -/
def ofText (s : String) : Draft × Option Fault :=
  let (d, trailing) := ofLexemes .value [] (lexemes s.toList)
  (d.limited maxDepth, trailing)

/-! ## Whole values -/

mutual

/-- The value of a draft; an object keeps fields of one name apart. -/
def value : Draft → Except Fault Value
  | null => .ok .null
  | bool b => .ok (.bool b)
  | number n => .ok (.number n)
  | string s => .ok (.string s)
  | array items cut => do
    let items ← valueItems items
    match cut with
    | some fault => .error fault
    | none => .ok (.array items)
  | object fields cut => do
    let fields ← valueFields fields
    match cut with
    | some fault => .error fault
    | none => .ok (.object fields)
  | valueless read _ => .error read

/-- The values of items. -/
def valueItems : List Draft → Except Fault (List Value)
  | [] => .ok []
  | d :: ds => do
    let v ← value d
    let vs ← valueItems ds
    .ok (v :: vs)

/-- The values of fields. -/
def valueFields : List (String × Draft) → Except Fault (List (String × Value))
  | [] => .ok []
  | (name, d) :: rest => do
    let v ← value d
    let vs ← valueFields rest
    .ok ((name, v) :: vs)

end

end Draft

namespace Value

mutual

/-- The draft of a value that is there as a whole. -/
def draft : Value → Draft
  | null => .null
  | bool b => .bool b
  | number n => .number n
  | string s => .string s
  | array items => .array (draftItems items) none
  | object fields => .object (draftFields fields) none

/-- The drafts of items. -/
def draftItems : List Value → List Draft
  | [] => []
  | v :: vs => draft v :: draftItems vs

/-- The drafts of fields. -/
def draftFields : List (String × Value) → List (String × Draft)
  | [] => []
  | (name, v) :: rest => (name, draft v) :: draftFields rest

end

/-- Reads a text as one value. Of fields with one name the last value counts. -/
def parse (s : String) : Except Fault Value :=
  match Draft.ofText s with
  | (d, trailing) => do
    let v ← d.value
    match trailing with
    | some fault => .error fault
    | none => .ok v.merged

end Value

end DesignSystem.Json

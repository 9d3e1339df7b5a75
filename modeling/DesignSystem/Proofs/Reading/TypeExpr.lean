import DesignSystem.Proofs.Reading.Tree

/-!
# Types as they are read

Each language reads a type from bracket trees with the precedence that its grammar gives to suffixes,
alternatives and callbacks.

* `TypeScript.read`: a suffix binds tighter than `|`, and that tighter than `=>`, whose result goes
  on as far as it can.
* `Arrowed.read`: Swift and Kotlin. A suffix binds tighter than `->`, whose result goes on as far as
  it can, and an annotation is of the whole callback that it stands before.
* `Dart.read`: a callback is written behind its result, so that all marks are suffixes.

If the text goes on behind a type, it is another alternative in TypeScript, and a mark in the other
languages.

* `TypeScript.readFrom_takesUndefined`: `| undefined` is one more alternative unless the type starts
  with a callback; `readFrom_opened` says what it is then.
* `Arrowed.readFrom_question`: a question mark is of the whole type if no arrow is outside of brackets.
* `Dart.readFrom_append`: what follows on a type is always of the whole type.
-/

set_option autoImplicit false

namespace DesignSystem.Reading

/-- A type, whatever the language. -/
inductive TypeExpr
  /-- A name or a keyword. -/
  | name (name : String)
  | member (scope : TypeExpr) (name : String)
  | generic (head : TypeExpr) (args : List TypeExpr)
  /-- The type of one text. -/
  | text (content : String)
  /-- The type of one number. -/
  | number (digits : String)
  | list (item : TypeExpr)
  | dictionary (key value : TypeExpr)
  | optional (inner : TypeExpr)
  | union (alternatives : List TypeExpr)
  /-- Fields, and the types of the names and values of all other fields. -/
  | object (fields : List (String × TypeExpr)) (index : Option (TypeExpr × TypeExpr))
  /-- Parameters, which may have names, and the result. -/
  | callback (params : List (Option String × TypeExpr)) (result : TypeExpr)
  | annotated (marker : String) (inner : TypeExpr)

/-- Alternatives, of which there may be only one. -/
def TypeExpr.anyOf : List TypeExpr → TypeExpr
  | [t] => t
  | ts => .union ts

/-! ## TypeScript -/

namespace TypeScript

mutual

/-- Reads the alternative that follows on others. -/
def readFrom : List TypeExpr → List Tree → Option TypeExpr
  | [], .group .round params :: .arrow .thick :: result => do
    some (.callback (← readParams params) (← readFrom [] result))
  | before, t :: rest => do readRest before (← readOperand t) rest
  | _, [] => none

/-- Goes on behind a part of an alternative. -/
def readRest : List TypeExpr → TypeExpr → List Tree → Option TypeExpr
  | before, last, [] => some (.anyOf (before ++ [last]))
  | before, last, .mark .bar :: rest => readFrom (before ++ [last]) rest
  | before, last, .mark .dot :: .word w :: rest => readRest before (.member last w) rest
  | before, last, .group .square [[]] :: rest => readRest before (.list last) rest
  | before, last, .group .angle args :: rest => do
    readRest before (.generic last (← readArgs args)) rest
  | _, _, _ => none

def readOperand : Tree → Option TypeExpr
  | .word w => some (.name w)
  | .text _ content => some (.text content)
  | .number digits => some (.number digits)
  | .group .round [ts] => readFrom [] ts
  | .group .curly parts => do
    let (fields, index) ← readFields parts
    some (.object fields index)
  | _ => none

def readArgs : List (List Tree) → Option (List TypeExpr)
  | [] => some []
  | ts :: rest => do some ((← readFrom [] ts) :: (← readArgs rest))

def readParams : List (List Tree) → Option (List (Option String × TypeExpr))
  | [] => some []
  | [[]] => some []
  | (.word name :: .mark .colon :: ts) :: rest => do
    some ((some name, ← readFrom [] ts) :: (← readParams rest))
  | _ => none

/-- Reads fields, the last of which may be for all other names. -/
def readFields : List (List Tree) →
    Option (List (String × TypeExpr) × Option (TypeExpr × TypeExpr))
  | [] => some ([], none)
  | [[]] => some ([], none)
  | [.group .square [.word _ :: .mark .colon :: key] :: .mark .colon :: ts] => do
    some ([], some (← readFrom [] key, ← readFrom [] ts))
  | (.word name :: .mark .colon :: ts) :: rest => do
    let t ← readFrom [] ts
    let (fields, index) ← readFields rest
    some ((name, t) :: fields, index)
  | _ => none

end

/-- The type that a text says. -/
def read (text : String) : Option TypeExpr := do readFrom [] (← trees? text)

end TypeScript

/-! ## Swift and Kotlin -/

namespace Arrowed

mutual

/-- Reads a type. Annotations stand before callbacks only. -/
def readFrom : List Tree → Option TypeExpr
  | .mark .at :: .word marker :: .group .round params :: .arrow .thin :: result => do
    some (.annotated marker (.callback (← readParams params) (← readFrom result)))
  | .group .round params :: .arrow .thin :: result => do
    some (.callback (← readParams params) (← readFrom result))
  | t :: rest => do readRest (← readOperand t) rest
  | [] => none

/-- Goes on behind a part of a type. -/
def readRest : TypeExpr → List Tree → Option TypeExpr
  | last, [] => some last
  | last, .mark .question :: rest => readRest (.optional last) rest
  | last, .mark .dot :: .word w :: rest => readRest (.member last w) rest
  | last, .group .angle args :: rest => do readRest (.generic last (← readArgs args)) rest
  | _, _ => none

/-- Lists and dictionaries in brackets are Swift's only. -/
def readOperand : Tree → Option TypeExpr
  | .word w => some (.name w)
  | .group .round [ts] => readFrom ts
  | .group .square [.word key :: .mark .colon :: value] => do
    some (.dictionary (.name key) (← readFrom value))
  | .group .square [ts] => do some (.list (← readFrom ts))
  | _ => none

def readArgs : List (List Tree) → Option (List TypeExpr)
  | [] => some []
  | ts :: rest => do some ((← readFrom ts) :: (← readArgs rest))

def readParams : List (List Tree) → Option (List (Option String × TypeExpr))
  | [] => some []
  | [[]] => some []
  | ts :: rest => do some ((none, ← readFrom ts) :: (← readParams rest))

end

/-- The type that a text says. -/
def read (text : String) : Option TypeExpr := do readFrom (← trees? text)

end Arrowed

/-! ## Dart -/

namespace Dart

mutual

/-- Reads a type, and the name that is declared behind it, if there is one. -/
def readFrom : List Tree → Option (TypeExpr × Option String)
  | t :: rest => do readRest (← readOperand t) rest
  | [] => none

/-- Goes on behind a part of a type. -/
def readRest : TypeExpr → List Tree → Option (TypeExpr × Option String)
  | last, [] => some (last, none)
  | last, [.word name] => some (last, some name)
  | last, .mark .question :: rest => readRest (.optional last) rest
  | last, .group .angle args :: rest => do readRest (.generic last (← readArgs args)) rest
  | last, .word w :: .group .round params :: rest => do
    let params ← readParams params
    if w = "Function" then readRest (.callback params last) rest else none
  | _, _ => none

/-- Records are written in parentheses, and their named fields in braces besides. -/
def readOperand : Tree → Option TypeExpr
  | .word w => some (.name w)
  | .group .round [[]] => some (.object [] none)
  | .group .round [[.group .curly fields]] => do some (.object (← readFields fields) none)
  | _ => none

def readArgs : List (List Tree) → Option (List TypeExpr)
  | [] => some []
  | ts :: rest => do
    let (t, name) ← readFrom ts
    if name.isSome then none else some (t :: (← readArgs rest))

def readParams : List (List Tree) → Option (List (Option String × TypeExpr))
  | [] => some []
  | [[]] => some []
  | ts :: rest => do
    let (t, name) ← readFrom ts
    some ((name, t) :: (← readParams rest))

def readFields : List (List Tree) → Option (List (String × TypeExpr))
  | [] => some []
  | ts :: rest => do
    let (t, name) ← readFrom ts
    some ((← name, t) :: (← readFields rest))

end

/-- The type that a text says. -/
def read (text : String) : Option TypeExpr := do
  let (t, name) ← readFrom (← trees? text)
  if name.isSome then none else some t

end Dart

/-! ## Types with more behind them -/

namespace TypeExpr

/-- The second type is the first with `undefined` as one more alternative. -/
def WithUndefined (t t' : TypeExpr) : Prop :=
  ∃ alternatives, alternatives ≠ [] ∧ t = .anyOf alternatives ∧
    t' = .anyOf (alternatives ++ [.name "undefined"])

/-- Two callbacks have the same parameters, and the second has `undefined` as one more alternative of
its result, or of the result of that, and so on. -/
inductive ResultTakesUndefined : TypeExpr → TypeExpr → Prop
  | here {params : List (Option String × TypeExpr)} {r r' : TypeExpr} (h : r.WithUndefined r') :
      ResultTakesUndefined (.callback params r) (.callback params r')
  | inner {params : List (Option String × TypeExpr)} {r r' : TypeExpr}
      (h : ResultTakesUndefined r r') :
      ResultTakesUndefined (.callback params r) (.callback params r')

end TypeExpr

namespace TypeScript

/-- The trees start with a callback that is not in parentheses. -/
def OpensCallback (ts : List Tree) : Prop :=
  ∃ params result, ts = .group .round params :: .arrow .thick :: result

/-- With `| undefined` behind them, trees that are read as a type are read as the type with one more
alternative. -/
def TakesUndefined (read : List Tree → Option TypeExpr) (ts : List Tree) (t : TypeExpr) : Prop :=
  ∃ t', read (ts ++ [.mark .bar, .word "undefined"]) = some t' ∧ t.WithUndefined t'

mutual

theorem readFrom_takesUndefined (ts : List Tree) (before : List TypeExpr) {t : TypeExpr}
    (h : readFrom before ts = some t) (hclosed : before ≠ [] ∨ ¬ OpensCallback ts) :
    TakesUndefined (readFrom before) ts t := by
  unfold readFrom at h
  split at h
  · next params result =>
    rcases hclosed with hne | hnot
    · exact absurd rfl hne
    · exact absurd ⟨params, result, rfl⟩ hnot
  · next tree rest hnot =>
    obtain ⟨first, hfirst, hrest⟩ := Option.bind_eq_some_iff.1 h
    obtain ⟨t', hread, ht⟩ := readRest_takesUndefined rest before first hrest
    refine ⟨t', ?_, ht⟩
    rw [List.cons_append, readFrom, hfirst]
    · exact hread
    · rintro params result rfl rfl hresult
      cases rest with
      | nil => cases hresult
      | cons second rest =>
        cases hresult
        exact hnot _ _ rfl rfl rfl
  · cases h
termination_by (ts.length, 0)

theorem readRest_takesUndefined (ts : List Tree) (before : List TypeExpr) (last : TypeExpr)
    {t : TypeExpr} (h : readRest before last ts = some t) :
    TakesUndefined (readRest before last) ts t := by
  unfold readRest at h
  split at h
  · cases h
    refine ⟨_, ?_, before ++ [last], by simp, rfl, rfl⟩
    rw [List.nil_append, readRest, readFrom]
    · rfl
    · rintro params result _ ⟨⟩
  · next rest => exact readFrom_takesUndefined rest (before ++ [last]) h (.inl (by simp))
  · next w rest => exact readRest_takesUndefined rest before (.member last w) h
  · next rest => exact readRest_takesUndefined rest before (.list last) h
  · next args rest =>
    obtain ⟨types, hargs, h⟩ := Option.bind_eq_some_iff.1 h
    obtain ⟨t', hread, ht⟩ := readRest_takesUndefined rest before (.generic last types) h
    refine ⟨t', ?_, ht⟩
    rw [List.cons_append, readRest, hargs]
    exact hread
  · cases h
termination_by (ts.length, 1)

end

/-- Behind a callback that is not in parentheses, `| undefined` is an alternative of the result. -/
theorem readFrom_opened (ts : List Tree) {t : TypeExpr} (h : readFrom [] ts = some t)
    (hopens : OpensCallback ts) :
    ∃ t', readFrom [] (ts ++ [.mark .bar, .word "undefined"]) = some t' ∧
      t.ResultTakesUndefined t' := by
  obtain ⟨parts, result, rfl⟩ := hopens
  rw [readFrom] at h
  obtain ⟨params, hparams, h⟩ := Option.bind_eq_some_iff.1 h
  obtain ⟨r, hresult, h⟩ := Option.bind_eq_some_iff.1 h
  cases h
  -- the result may itself be such a callback
  have hmore : ∃ r', readFrom [] (result ++ [.mark .bar, .word "undefined"]) = some r' ∧
      (TypeExpr.callback params r).ResultTakesUndefined (.callback params r') := by
    by_cases hinner : OpensCallback result
    · obtain ⟨r', hread, hr⟩ := readFrom_opened result hresult hinner
      exact ⟨r', hread, .inner hr⟩
    · obtain ⟨r', hread, hr⟩ := readFrom_takesUndefined result [] hresult (.inr hinner)
      exact ⟨r', hread, .here hr⟩
  obtain ⟨r', hread, hr⟩ := hmore
  refine ⟨.callback params r', ?_, hr⟩
  rw [List.cons_append, List.cons_append, readFrom, hparams, hread]
  rfl
termination_by ts.length

/-- What starts with a callback is one. -/
theorem exists_callback_of_opens {ts : List Tree} {t : TypeExpr} (h : readFrom [] ts = some t)
    (hopens : OpensCallback ts) : ∃ params result, t = .callback params result := by
  obtain ⟨parts, result, rfl⟩ := hopens
  rw [readFrom] at h
  obtain ⟨params, -, h⟩ := Option.bind_eq_some_iff.1 h
  obtain ⟨r, -, h⟩ := Option.bind_eq_some_iff.1 h
  cases h
  exact ⟨params, r, rfl⟩

end TypeScript

namespace Arrowed

/-- What has been read as a type is the first part of what follows. -/
theorem readRest_append (ts more : List Tree) (last : TypeExpr) {t : TypeExpr}
    (h : readRest last ts = some t) : readRest last (ts ++ more) = readRest t more := by
  unfold readRest at h
  split at h
  · cases h
    rfl
  · next rest => exact readRest_append rest more (.optional last) h
  · next w rest => exact readRest_append rest more (.member last w) h
  · next args rest =>
    obtain ⟨types, hargs, h⟩ := Option.bind_eq_some_iff.1 h
    rw [List.cons_append, readRest, hargs]
    exact readRest_append rest more (.generic last types) h
  · cases h
termination_by ts.length

/-- A question mark is of the whole type if there is no arrow outside of brackets. -/
theorem readFrom_question {ts : List Tree} {t : TypeExpr} (h : readFrom ts = some t)
    (harrow : .arrow .thin ∉ ts) : readFrom (ts ++ [.mark .question]) = some (.optional t) := by
  unfold readFrom at h
  split at h
  · exact absurd (by simp) harrow
  · exact absurd (by simp) harrow
  · next tree ts _ _ =>
    obtain ⟨first, hfirst, h⟩ := Option.bind_eq_some_iff.1 h
    rw [List.cons_append, readFrom, hfirst]
    · exact readRest_append ts _ first h
    · rintro marker params result - heq
      rcases ts with _ | ⟨a, _ | ⟨b, _ | ⟨c, ts⟩⟩⟩ <;> cases heq
      simp at harrow
    · rintro params result - heq
      rcases ts with _ | ⟨a, ts⟩ <;> cases heq
      simp at harrow
  · cases h

end Arrowed

namespace Dart

theorem readRest_append (ts more : List Tree) (last : TypeExpr) {t : TypeExpr}
    (h : readRest last ts = some (t, none)) : readRest last (ts ++ more) = readRest t more := by
  unfold readRest at h
  split at h
  · cases h
    rfl
  · cases h
  · next rest => exact readRest_append rest more (.optional last) h
  · next args rest =>
    obtain ⟨types, hargs, h⟩ := Option.bind_eq_some_iff.1 h
    rw [List.cons_append, readRest, hargs]
    exact readRest_append rest more (.generic last types) h
  · next w parts rest =>
    obtain ⟨params, hparams, h⟩ := Option.bind_eq_some_iff.1 h
    split at h
    · next hw =>
      rw [List.cons_append, List.cons_append, readRest, hparams]
      change (if w = "Function" then _ else none) = _
      rw [if_pos hw]
      exact readRest_append rest more (.callback params last) h
    · cases h
  · cases h
termination_by ts.length

theorem readFrom_append {ts : List Tree} {t : TypeExpr} (h : readFrom ts = some (t, none))
    (more : List Tree) : readFrom (ts ++ more) = readRest t more := by
  unfold readFrom at h
  split at h
  · next tree ts =>
    obtain ⟨first, hfirst, h⟩ := Option.bind_eq_some_iff.1 h
    rw [List.cons_append, readFrom, hfirst]
    exact readRest_append ts more first h
  · cases h

end Dart

end DesignSystem.Reading

import DesignSystem.Proofs.Script.ObjectLiteral
import DesignSystem.Text.Quoted
import Mathlib.Tactic.SplitIfs

/-!
# Bracket trees

The types and values that generated source holds are read in two steps, whatever the language: the
text is cut into words, numbers, texts in quotes, arrows and marks, and what stands between two
brackets is made one tree. What the trees say is up to a language.

* `trees?`: the trees of a text.
* `Spells`: a text stands for given trees wherever it is written. `trees?_eq_iff` says that these are
  the trees of the text by itself.
* `mem_arrow`: an arrow outside of all brackets stands in the text.
-/

set_option autoImplicit false

namespace DesignSystem.Reading

inductive Bracket
  | round | square | curly | angle
  deriving DecidableEq

inductive Mark
  | bar | colon | dot | question | bang | at
  deriving DecidableEq

inductive Arrow
  /-- `->` -/
  | thin
  /-- `=>` -/
  | thick
  deriving DecidableEq

/-- A piece of source. Between two brackets there is always at least one part. -/
inductive Tree
  | word (name : String)
  | number (digits : String)
  | text (quote : Char) (content : String)
  | mark (m : Mark)
  | arrow (a : Arrow)
  | group (bracket : Bracket) (parts : List (List Tree))

/-! ## Characters -/

/-- The characters of names. Every character beyond the first 128 that is not white space is taken
for one. -/
def isWordChar (c : Char) : Bool :=
  (Text.isPlainAlphanumeric c || c = '_' || c = '$' || 127 < c.toNat) && !Text.isBlankChar c

/-- The characters of numbers. -/
def isNumeralChar (c : Char) : Bool := Text.isPlainAlphanumeric c || ['.', '+', '-'].contains c

def opening? : Char → Option Bracket
  | '(' => some .round
  | '[' => some .square
  | '\x7b' => some .curly
  | '<' => some .angle
  | _ => none

def closing? : Char → Option Bracket
  | ')' => some .round
  | ']' => some .square
  | '\x7d' => some .curly
  | '>' => some .angle
  | _ => none

/-- Whether a character ends a part between brackets. A semicolon does so in braces only. -/
def endsPart (b : Bracket) (c : Char) : Bool := c = ',' || c = ';' && b = .curly

def mark? : Char → Option Mark
  | '|' => some .bar
  | ':' => some .colon
  | '.' => some .dot
  | '?' => some .question
  | '!' => some .bang
  | '@' => some .at
  | _ => none

def stroke? : Char → Option Arrow
  | '-' => some .thin
  | '=' => some .thick
  | _ => none

/-! ## Scanning -/

/-- What a scanner is inside of, with the characters read so far. -/
inductive Inside
  | between
  | word (cs : List Char)
  | number (cs : List Char)
  | text (quote : Char) (cs : List Char)
  | escape (quote : Char) (cs : List Char)
  /-- The first character of an arrow. -/
  | stroke (a : Arrow)

/-- A bracket that has not been closed yet, with the trees before it and the parts that have ended. -/
structure Opened where
  bracket : Bracket
  before : List Tree
  parts : List (List Tree)

/-- The brackets that are open, the innermost first, and the trees behind the innermost. -/
structure State where
  inside : Inside
  current : List Tree
  opened : List Opened

namespace State

def start : State := ⟨.between, [], []⟩

/-- Adds a tree. -/
def push (s : State) (t : Tree) : State := { s with inside := .between, current := s.current ++ [t] }

/-- Ends a word or a number. There is no end inside of a text or an arrow. -/
def settle (s : State) : Option State :=
  match s.inside with
  | .between => some s
  | .word cs => some (s.push (.word (.ofList cs)))
  | .number cs => some (s.push (.number (.ofList cs)))
  | _ => none

def openBracket (s : State) (b : Bracket) : State := ⟨.between, [], ⟨b, s.current, []⟩ :: s.opened⟩

/-- Ends a part between brackets. -/
def endPart (s : State) (c : Char) : Option State :=
  match s.opened with
  | [] => none
  | o :: opened =>
    if endsPart o.bracket c then
      some ⟨.between, [], { o with parts := o.parts ++ [s.current] } :: opened⟩
    else none

def closeBracket (s : State) (b : Bracket) : Option State :=
  match s.opened with
  | [] => none
  | o :: opened =>
    if o.bracket = b then
      some ⟨.between, o.before ++ [.group b (o.parts ++ [s.current])], opened⟩
    else none

/-- A character where nothing is being read. -/
def first (s : State) (c : Char) : Option State :=
  if Text.isBlankChar c then some s
  else if c = '\'' ∨ c = '"' then some { s with inside := .text c [] }
  else if c.isDigit then some { s with inside := .number [c] }
  else if isWordChar c then some { s with inside := .word [c] }
  else
    match opening? c, closing? c, mark? c, stroke? c with
    | some b, _, _, _ => some (s.openBracket b)
    | _, some b, _, _ => s.closeBracket b
    | _, _, some m, _ => some (s.push (.mark m))
    | _, _, _, some a => some { s with inside := .stroke a }
    | _, _, _, _ => s.endPart c

/-- The second character of an arrow. A single stroke is the sign of a number. -/
def stroked (s : State) (a : Arrow) (c : Char) : Option State :=
  if c = '>' then some (s.push (.arrow a))
  else if a = .thin ∧ c.isDigit then some { s with inside := .number ['-', c] }
  else none

/-- A character between quotes. A backslash is read as in all the languages. -/
def quoted (s : State) (quote : Char) (cs : List Char) (c : Char) : Option State :=
  if c = quote then some (s.push (.text quote (.ofList cs)))
  else if c = '\\' then some { s with inside := .escape quote cs }
  else if c = '\n' ∨ c = '\r' then none
  else some { s with inside := .text quote (cs ++ [c]) }

def step (s : State) (c : Char) : Option State :=
  match s.inside with
  | .between => s.first c
  | .word cs =>
    if isWordChar c then some { s with inside := .word (cs ++ [c]) }
    else (s.push (.word (.ofList cs))).first c
  | .number cs =>
    if isNumeralChar c then some { s with inside := .number (cs ++ [c]) }
    else (s.push (.number (.ofList cs))).first c
  | .text quote cs => s.quoted quote cs c
  | .escape quote cs =>
    (Script.unescape? c).map fun d => { s with inside := .text quote (cs ++ [d]) }
  | .stroke a => s.stroked a c

def run : State → List Char → Option State
  | s, [] => some s
  | s, c :: cs => (s.step c).bind (run · cs)

end State

/-- The trees of a text in which nothing is left open. -/
def trees? (text : String) : Option (List Tree) := do
  let s ← (← State.start.run text.toList).settle
  if s.opened.isEmpty then some s.current else none

example : trees? "(a: 'b', -1) => void" = some [
    .group .round [[.word "a", .mark .colon, .text '\'' "b"], [.number "-1"]],
    .arrow .thick, .word "void"] := by
  rfl

/-! ## What a character leads to -/

namespace State

variable {s s' : State} {c : Char} {b : Bracket}

theorem endPart_inversion (h : s.endPart c = some s') :
    ∃ o opened, s.opened = o :: opened ∧ endsPart o.bracket c ∧
      s' = ⟨.between, [], { o with parts := o.parts ++ [s.current] } :: opened⟩ := by
  unfold endPart at h
  split at h
  · cases h
  · next o opened hopened =>
    split_ifs at h with hc
    cases h
    exact ⟨o, opened, hopened, hc, rfl⟩

theorem closeBracket_inversion (h : s.closeBracket b = some s') :
    ∃ o opened, s.opened = o :: opened ∧ o.bracket = b ∧
      s' = ⟨.between, o.before ++ [.group b (o.parts ++ [s.current])], opened⟩ := by
  unfold closeBracket at h
  split at h
  · cases h
  · next o opened hopened =>
    split_ifs at h with hb
    cases h
    exact ⟨o, opened, hopened, hb, rfl⟩

/-- What a character leads to where nothing is being read. -/
inductive LeadsFirst (s : State) (c : Char) : State → Prop
  | blank : LeadsFirst s c s
  | start {i : Inside} (hi : ∀ a, i = .stroke a → stroke? c = some a) :
      LeadsFirst s c { s with inside := i }
  | mark (m : Mark) : LeadsFirst s c (s.push (.mark m))
  | opens (b : Bracket) : LeadsFirst s c (s.openBracket b)
  | closes {b : Bracket} {o : Opened} {opened : List Opened} (h : s.opened = o :: opened) :
      LeadsFirst s c ⟨.between, o.before ++ [.group b (o.parts ++ [s.current])], opened⟩
  | part {o : Opened} {opened : List Opened} (h : s.opened = o :: opened) :
      LeadsFirst s c ⟨.between, [], { o with parts := o.parts ++ [s.current] } :: opened⟩

theorem leadsFirst_of_first (h : s.first c = some s') : s.LeadsFirst c s' := by
  unfold first at h
  split_ifs at h
  · cases h
    exact .blank
  · cases h
    exact .start (by simp)
  · cases h
    exact .start (by simp)
  · cases h
    exact .start (by simp)
  · split at h
    · cases h
      exact .opens _
    · obtain ⟨o, opened, hopened, -, rfl⟩ := closeBracket_inversion h
      exact .closes hopened
    · cases h
      exact .mark _
    · cases h
      exact .start (by rintro _ ⟨⟩; assumption)
    · obtain ⟨o, opened, hopened, -, rfl⟩ := endPart_inversion h
      exact .part hopened

/-- What a character leads to. Only behind its first character is an arrow completed. -/
inductive Leads (s : State) (c : Char) : State → Prop
  | inside {i : Inside} (hi : ∀ a, i ≠ .stroke a) : Leads s c { s with inside := i }
  | tree {t : Tree} (ht : ∀ a, t = .arrow a → s.inside = .stroke a ∧ c = '>') : Leads s c (s.push t)
  | first {s' : State} (hs : s.inside = .between) (h : s.LeadsFirst c s') : Leads s c s'
  /-- The character ends a word or a number. -/
  | behind {t : Tree} {s' : State} (ht : ∀ a, t ≠ .arrow a) (h : (s.push t).LeadsFirst c s') :
      Leads s c s'

theorem leads_of_step (h : s.step c = some s') : s.Leads c s' := by
  obtain ⟨inside, current, opened⟩ := s
  cases inside with
  | between => exact .first rfl (leadsFirst_of_first h)
  | word cs | number cs =>
    unfold step at h
    dsimp only at h
    split_ifs at h
    · cases h
      exact .inside (by simp)
    · exact .behind (by simp) (leadsFirst_of_first h)
  | text quote cs =>
    change quoted _ quote cs c = some s' at h
    unfold quoted at h
    split_ifs at h
    · cases h
      exact .tree (by simp)
    · cases h
      exact .inside (by simp)
    · cases h
      exact .inside (by simp)
  | escape quote cs =>
    obtain ⟨d, -, rfl⟩ := Option.map_eq_some_iff.1 h
    exact .inside (by simp)
  | stroke a =>
    change stroked _ a c = some s' at h
    unfold stroked at h
    split_ifs at h with hc
    · cases h
      exact .tree (by rintro _ ⟨⟩; exact ⟨rfl, hc⟩)
    · cases h
      exact .inside (by simp)

end State

/-! ## A text in its surroundings -/

namespace State

/-- The trees and open brackets of a scanner that has read something before. -/
def layOver (base : State) : List Tree → List Opened → List Tree × List Opened
  | current, [] => (base.current ++ current, base.opened)
  | current, o :: opened =>
    let outside := layOver base o.before opened
    (current, { o with before := outside.1 } :: outside.2)

/-- A state as it is behind what has been read before. -/
def after (s base : State) : State :=
  ⟨s.inside, (layOver base s.current s.opened).1, (layOver base s.current s.opened).2⟩

variable {base s s' : State}

theorem layOver_append (base : State) (current more : List Tree) (opened : List Opened) :
    layOver base (current ++ more) opened =
      ((layOver base current opened).1 ++ more, (layOver base current opened).2) := by
  cases opened <;> simp [layOver]

theorem push_after (t : Tree) : (s.push t).after base = (s.after base).push t := by
  simp [push, after, layOver_append]

theorem settle_after (h : s.settle = some s') : (s.after base).settle = some (s'.after base) := by
  obtain ⟨inside, current, opened⟩ := s
  cases inside with
  | between =>
    cases h
    rfl
  | word cs | number cs =>
    cases h
    exact congrArg some (push_after _).symm
  | text | escape | stroke => cases h

theorem endPart_after {c : Char} (h : s.endPart c = some s') :
    (s.after base).endPart c = some (s'.after base) := by
  obtain ⟨o, opened, hopened, hc, rfl⟩ := endPart_inversion h
  simp only [endPart, after, hopened, layOver, if_pos hc]

theorem closeBracket_after {b : Bracket} (h : s.closeBracket b = some s') :
    (s.after base).closeBracket b = some (s'.after base) := by
  obtain ⟨o, opened, hopened, hb, rfl⟩ := closeBracket_inversion h
  simp only [closeBracket, after, hopened, layOver, if_pos hb, layOver_append]

theorem first_after {c : Char} (h : s.first c = some s') :
    (s.after base).first c = some (s'.after base) := by
  unfold first at h ⊢
  split_ifs at h ⊢
  · cases h; rfl
  · cases h; rfl
  · cases h; rfl
  · cases h; rfl
  · split at h
    · cases h; rfl
    · exact closeBracket_after h
    · cases h
      exact congrArg some (push_after _).symm
    · cases h; rfl
    · exact endPart_after h

theorem step_after {c : Char} (h : s.step c = some s') :
    (s.after base).step c = some (s'.after base) := by
  obtain ⟨inside, current, opened⟩ := s
  cases inside with
  | between => exact first_after h
  | word cs | number cs =>
    unfold step at h ⊢
    dsimp only [after] at h ⊢
    split_ifs at h ⊢
    · cases h
      rfl
    · exact (congrArg (first · c) (push_after _).symm).trans (first_after h)
  | text quote cs =>
    change quoted _ quote cs c = some s' at h
    change quoted _ quote cs c = _
    unfold quoted at h ⊢
    split_ifs at h ⊢
    · cases h
      exact congrArg some (push_after _).symm
    · cases h; rfl
    · cases h; rfl
  | escape quote cs =>
    obtain ⟨d, hd, rfl⟩ := Option.map_eq_some_iff.1 h
    exact Option.map_eq_some_iff.2 ⟨d, hd, rfl⟩
  | stroke a =>
    change stroked _ a c = some s' at h
    change stroked _ a c = _
    unfold stroked at h ⊢
    split_ifs at h ⊢
    · cases h
      exact congrArg some (push_after _).symm
    · cases h; rfl

/-- What is read does not depend on what was read before. -/
theorem run_after {cs : List Char} (h : s.run cs = some s') :
    (s.after base).run cs = some (s'.after base) := by
  induction cs generalizing s with
  | nil =>
    cases h
    rfl
  | cons c cs ih =>
    obtain ⟨s₁, hc, hcs⟩ := Option.bind_eq_some_iff.1 h
    rw [run, step_after hc, Option.bind_some, ih hcs]

end State

/-! ## What a text stands for -/

/-- Written wherever nothing is being read, a text stands for the trees. -/
def Spells (text : String) (ts : List Tree) : Prop :=
  ∀ s : State, s.inside = .between →
    ∃ s', s.run text.toList = some s' ∧ s'.settle = some { s with current := s.current ++ ts }

theorem spells_of_trees? {text : String} {ts : List Tree} (h : trees? text = some ts) :
    Spells text ts := by
  intro base hbase
  obtain ⟨s, hrun, h⟩ := Option.bind_eq_some_iff.1 h
  obtain ⟨⟨inside, current, opened⟩, hsettle, h⟩ := Option.bind_eq_some_iff.1 h
  have hinside : inside = .between := by
    unfold State.settle at hsettle
    split at hsettle <;> cases hsettle
    · assumption
    · rfl
    · rfl
  split at h
  · next hopened =>
    cases h
    cases List.isEmpty_iff.1 hopened
    have hstart : State.start.after base = base := by
      cases base
      simp_all [State.start, State.after, State.layOver]
    have hafter : (State.start.after base).run text.toList = some (s.after base) :=
      State.run_after hrun
    rw [hstart] at hafter
    refine ⟨s.after base, hafter, ?_⟩
    rw [State.settle_after hsettle, State.after, State.layOver, hinside, hbase]
  · cases h

theorem trees?_eq_iff {text : String} {ts : List Tree} :
    trees? text = some ts ↔ Spells text ts := by
  refine ⟨spells_of_trees?, fun h => ?_⟩
  obtain ⟨s, hrun, hsettle⟩ := h .start rfl
  rw [trees?, hrun, Option.bind_eq_bind, Option.bind_some, hsettle]
  rfl

/-! ## Arrows -/

/-- The characters of an arrow. -/
def Arrow.chars : Arrow → List Char
  | .thin => ['-', '>']
  | .thick => ['=', '>']

namespace State

variable {s s' : State} {a : Arrow} {c : Char}

/-- An arrow has been read outside of all closed brackets. -/
def Shows (s : State) (a : Arrow) : Prop :=
  .arrow a ∈ s.current ∨ ∃ o ∈ s.opened, .arrow a ∈ o.before

theorem shows_push {t : Tree} : (s.push t).Shows a ↔ s.Shows a ∨ t = .arrow a := by
  simp only [Shows, push, List.mem_append, List.mem_singleton, @eq_comm _ t]
  exact or_right_comm

theorem shows_of_settle (h : s.settle = some s') (hs' : s'.Shows a) : s.Shows a := by
  unfold settle at h
  split at h
  · cases h
    exact hs'
  · cases h
    simpa [shows_push] using hs'
  · cases h
    simpa [shows_push] using hs'
  · cases h

theorem shows_of_leadsFirst (h : s.LeadsFirst c s') (hs' : s'.Shows a) : s.Shows a := by
  cases h with
  | blank | start => exact hs'
  | mark m => simpa [shows_push] using hs'
  | opens b =>
    rcases hs' with hs' | ⟨o, ho, hs'⟩
    · cases hs'
    · rcases List.mem_cons.1 ho with rfl | ho
      · exact .inl hs'
      · exact .inr ⟨o, ho, hs'⟩
  | @closes b o opened hopened =>
    rcases hs' with hs' | ⟨o', ho', hs'⟩
    · exact .inr ⟨o, hopened ▸ List.mem_cons_self, by simpa using hs'⟩
    · exact .inr ⟨o', hopened ▸ .tail _ ho', hs'⟩
  | @part o opened hopened =>
    rcases hs' with hs' | ⟨o', ho', hs'⟩
    · cases hs'
    · rcases List.mem_cons.1 ho' with rfl | ho'
      · exact .inr ⟨o, hopened ▸ List.mem_cons_self, hs'⟩
      · exact .inr ⟨o', hopened ▸ .tail _ ho', hs'⟩

/-- A step adds an arrow only if it is the second character of one. -/
theorem shows_of_leads (h : s.Leads c s') (hs' : s'.Shows a) :
    s.Shows a ∨ s.inside = .stroke a ∧ c = '>' := by
  cases h with
  | inside => exact .inl hs'
  | tree ht => exact (shows_push.1 hs').imp_right (ht a)
  | first _ h => exact .inl (shows_of_leadsFirst h hs')
  | behind ht h => exact .inl ((shows_push.1 (shows_of_leadsFirst h hs')).resolve_right (ht a))

theorem stroke_of_leadsFirst (h : s.LeadsFirst c s') (hs : s.inside = .between)
    (hs' : s'.inside = .stroke a) : stroke? c = some a := by
  cases h with
  | blank => cases hs.symm.trans hs'
  | start hi => exact hi a hs'
  | mark | opens | closes | part => cases hs'

/-- Only the first character of an arrow leads into one. -/
theorem stroke_of_leads (h : s.Leads c s') (hs' : s'.inside = .stroke a) : stroke? c = some a := by
  cases h with
  | inside hi => exact absurd hs' (hi a)
  | tree => cases hs'
  | first hs h => exact stroke_of_leadsFirst h hs hs'
  | behind _ h => exact stroke_of_leadsFirst h rfl hs'

theorem shows_of_run {cs read : List Char} (h : s.run cs = some s') (hs' : s'.Shows a)
    (hread : s.Shows a → a.chars <:+: read)
    (hstroke : s.inside = .stroke a → ∃ before c, read = before ++ [c] ∧ stroke? c = some a) :
    a.chars <:+: read ++ cs := by
  induction cs generalizing s read with
  | nil =>
    cases h
    simpa using hread hs'
  | cons c cs ih =>
    obtain ⟨s₁, hc, hcs⟩ := Option.bind_eq_some_iff.1 h
    rw [List.append_cons]
    have hleads := leads_of_step hc
    refine ih hcs (fun hs₁ => ?_) fun hs₁ => ⟨read, c, rfl, stroke_of_leads hleads hs₁⟩
    rcases shows_of_leads hleads hs₁ with hs | ⟨hs, rfl⟩
    · exact (hread hs).trans (List.infix_append' [] read [c])
    · obtain ⟨before, d, rfl, hd⟩ := hstroke hs
      have hchars : a.chars = [d, '>'] := by
        unfold stroke? at hd
        split at hd <;> cases hd <;> rfl
      exact ⟨before, [], by simp [hchars]⟩

end State

/-- An arrow outside of all brackets stands in the text. -/
theorem mem_arrow {text : String} {ts : List Tree} {a : Arrow} (h : trees? text = some ts)
    (ha : .arrow a ∈ ts) : a.chars <:+: text.toList := by
  obtain ⟨s, hrun, hsettle⟩ := spells_of_trees? h .start rfl
  have hinfix : a.chars <:+: [] ++ text.toList :=
    State.shows_of_run hrun (State.shows_of_settle hsettle (.inl ha))
      (by simp [State.Shows, State.start]) nofun
  exact hinfix

end DesignSystem.Reading

import DesignSystem.Proofs.Json.Number
import DesignSystem.Proofs.Reading.Tree
import Mathlib.Data.List.Forall2

/-!
# Texts that stand for trees

* `Spells.append`, `Spells.joined`: texts one after the other, and texts with marks between them.
* `Spells.word`, `Spells.number`, `Spells.quotedSingle`: the pieces of generated source.
* `Spells.round` and its companions: texts between brackets.
-/

set_option autoImplicit false

namespace DesignSystem.Reading

theorem State.run_append {s s' : State} {cs cs' : List Char} (h : s.run cs = some s') :
    s.run (cs ++ cs') = s'.run cs' := by
  induction cs generalizing s with
  | nil =>
    cases h
    rfl
  | cons c cs ih =>
    obtain ⟨s₁, hc, hcs⟩ := Option.bind_eq_some_iff.1 h
    rw [List.cons_append, run, hc, Option.bind_some, ih hcs]

theorem State.run_singleton (s : State) (c : Char) : s.run [c] = s.step c := by
  simp [run]

/-- A character that does not go on with a word or number is read as if that had ended before. -/
theorem State.step_settled {s s' : State} {c : Char} (hword : ¬ isWordChar c)
    (hnumeral : ¬ isNumeralChar c) (h : s.settle = some s') : s.step c = s'.step c := by
  obtain ⟨inside, current, opened⟩ := s
  cases inside with
  | between =>
    cases h
    rfl
  | word cs =>
    cases h
    rw [step]
    dsimp only
    rw [if_neg hword]
    rfl
  | number cs =>
    cases h
    rw [step]
    dsimp only
    rw [if_neg hnumeral]
    rfl
  | text | escape | stroke => cases h

/-- A text does not go on with a word or number before it. -/
def startsApart (text : String) : Bool :=
  match text.toList with
  | [] => false
  | c :: _ => !(isWordChar c || isNumeralChar c)

theorem startsApart_append {text : String} (h : startsApart text) (more : String) :
    startsApart (text ++ more) := by
  unfold startsApart at h ⊢
  rw [String.toList_append]
  cases htext : text.toList with
  | nil => simp [htext] at h
  | cons c cs => simpa [htext] using h

theorem State.run_settled {s s' : State} {text : String} (htext : startsApart text)
    (h : s.settle = some s') : s.run text.toList = s'.run text.toList := by
  unfold startsApart at htext
  split at htext
  · cases htext
  · next c cs heq =>
    simp only [Bool.not_eq_eq_eq_not, Bool.not_true, Bool.or_eq_false_iff] at htext
    rw [heq, run, run, step_settled (by simp [htext.1]) (by simp [htext.2]) h]

/-- A text that stands for trees, whatever it follows, and ends between two pieces. -/
structure Joins (text : String) (ts : List Tree) : Prop where
  apart : startsApart text
  run : ∀ current opened, State.run ⟨.between, current, opened⟩ text.toList =
    some ⟨.between, current ++ ts, opened⟩

/-- A text that has an effect on the brackets, whatever it follows. -/
structure Delimits (text : String) (effect : State → Option State) : Prop where
  apart : startsApart text
  run : ∀ current opened, State.run ⟨.between, current, opened⟩ text.toList =
    effect ⟨.between, current, opened⟩

section
variable {text text' mid : String} {ts ts' us : List Tree}

/-- Texts one after the other stand for the trees one after the other. -/
theorem Spells.append (h : Spells text ts) (h' : Spells text' ts') (hapart : startsApart text') :
    Spells (text ++ text') (ts ++ ts') := by
  rintro ⟨inside, current, opened⟩ hs
  cases hs
  obtain ⟨s₁, hrun, hsettle⟩ := h ⟨.between, current, opened⟩ rfl
  obtain ⟨s₂, hrun', hsettle'⟩ := h' ⟨.between, current ++ ts, opened⟩ rfl
  refine ⟨s₂, ?_, ?_⟩
  · rw [String.toList_append, State.run_append hrun, State.run_settled hapart hsettle, hrun']
  · rw [hsettle', List.append_assoc]

theorem Spells.joined (h : Spells text ts) (hmid : Joins mid us) (h' : Spells text' ts') :
    Spells (text ++ mid ++ text') (ts ++ us ++ ts') := by
  rintro ⟨inside, current, opened⟩ hs
  cases hs
  obtain ⟨s₁, hrun, hsettle⟩ := h ⟨.between, current, opened⟩ rfl
  obtain ⟨s₂, hrun', hsettle'⟩ := h' ⟨.between, current ++ ts ++ us, opened⟩ rfl
  have hjoin : s₁.run mid.toList = some ⟨.between, current ++ ts ++ us, opened⟩ := by
    rw [State.run_settled hmid.apart hsettle, hmid.run]
  refine ⟨s₂, ?_, ?_⟩
  · rw [String.append_assoc, String.toList_append, String.toList_append, State.run_append hrun,
      State.run_append hjoin, hrun']
  · rw [hsettle', List.append_assoc, List.append_assoc, List.append_assoc]

end

/-! ## Words, numbers and texts in quotes -/

/-- A text that is read as one word. Identifiers are such. -/
def isWord (name : String) : Bool :=
  match name.toList with
  | [] => false
  | c :: cs => !c.isDigit && (c :: cs).all isWordChar

theorem exists_of_isWord {name : String} (h : isWord name) :
    ∃ c cs, name.toList = c :: cs ∧ ¬ c.isDigit ∧ ∀ d ∈ c :: cs, isWordChar d := by
  unfold isWord at h
  split at h
  · cases h
  · next c cs heq =>
    obtain ⟨hdigit, hall⟩ := Bool.and_eq_true_iff.1 h
    exact ⟨c, cs, heq, by simpa using hdigit, List.all_eq_true.1 hall⟩

theorem State.run_wordChars {current : List Tree} {opened : List Opened} (cs before : List Char)
    (h : ∀ c ∈ cs, isWordChar c) : State.run ⟨.word before, current, opened⟩ cs =
      some ⟨.word (before ++ cs), current, opened⟩ := by
  induction cs generalizing before with
  | nil => simp [State.run]
  | cons c cs ih =>
    have hc : State.step ⟨.word before, current, opened⟩ c =
        some ⟨.word (before ++ [c]), current, opened⟩ := by
      rw [State.step]
      dsimp only
      rw [if_pos (h c List.mem_cons_self)]
    rw [State.run, hc, Option.bind_some, ih _ fun d hd => h d (.tail _ hd), List.append_assoc]
    rfl

theorem State.first_of_isWordChar {s : State} {c : Char} (h : isWordChar c) (hdigit : ¬ c.isDigit) :
    s.first c = some { s with inside := .word [c] } := by
  have hblank : ¬ Text.isBlankChar c := by
    simpa using (Bool.and_eq_true_iff.1 h).2
  have hquote : ¬ (c = '\'' ∨ c = '"') := by
    rintro (rfl | rfl) <;> revert h <;> decide
  rw [State.first, if_neg hblank, if_neg hquote, if_neg hdigit, if_pos h]

theorem State.run_word {name : String} (h : isWord name) (current : List Tree)
    (opened : List Opened) : State.run ⟨.between, current, opened⟩ name.toList =
      some ⟨.word name.toList, current, opened⟩ := by
  obtain ⟨c, cs, hname, hdigit, hall⟩ := exists_of_isWord h
  rw [hname, State.run, State.step]
  dsimp only
  rw [State.first_of_isWordChar (hall c List.mem_cons_self) hdigit, Option.bind_some]
  exact State.run_wordChars cs [c] fun d hd => hall d (.tail _ hd)

theorem Spells.word {name : String} (h : isWord name) : Spells name [.word name] := by
  rintro ⟨inside, current, opened⟩ hs
  cases hs
  exact ⟨_, State.run_word h current opened, by simp [State.settle, State.push]⟩

/-- A word behind a dot and another word. The dot ends a word, though it may go on with a number. -/
theorem Spells.qualified {name member : String} (h : isWord name) (hmember : isWord member) :
    Spells (name ++ "." ++ member) [.word name, .mark .dot, .word member] := by
  rintro ⟨inside, current, opened⟩ hs
  cases hs
  have hdot : State.run ⟨.word name.toList, current, opened⟩ ".".toList =
      some ⟨.between, current ++ [.word name, .mark .dot], opened⟩ := by
    have hstep : State.run ⟨.word name.toList, current, opened⟩ ".".toList =
        some ⟨.between, current ++ [.word (.ofList name.toList)] ++ [.mark .dot], opened⟩ := rfl
    rw [hstep, String.ofList_toList, List.append_assoc]
    rfl
  refine ⟨⟨.word member.toList, current ++ [.word name, .mark .dot], opened⟩, ?_, ?_⟩
  · rw [String.append_assoc, String.toList_append, String.toList_append,
      State.run_append (State.run_word h current opened), State.run_append hdot,
      State.run_word hmember]
  · simp [State.settle, State.push]

/-- A text that is read as one number. -/
def IsNumeral (digits : String) : Prop :=
  ∃ sign c cs, digits.toList = sign ++ c :: cs ∧ sign ∈ [[], ['-']] ∧ c.isDigit ∧
    ∀ d ∈ cs, isNumeralChar d

theorem State.run_numeralChars {current : List Tree} {opened : List Opened} (cs before : List Char)
    (h : ∀ c ∈ cs, isNumeralChar c) : State.run ⟨.number before, current, opened⟩ cs =
      some ⟨.number (before ++ cs), current, opened⟩ := by
  induction cs generalizing before with
  | nil => simp [State.run]
  | cons c cs ih =>
    have hc : State.step ⟨.number before, current, opened⟩ c =
        some ⟨.number (before ++ [c]), current, opened⟩ := by
      rw [State.step]
      dsimp only
      rw [if_pos (h c List.mem_cons_self)]
    rw [State.run, hc, Option.bind_some, ih _ fun d hd => h d (.tail _ hd), List.append_assoc]
    rfl

theorem State.first_of_isDigit {s : State} {c : Char} (h : c.isDigit) :
    s.first c = some { s with inside := .number [c] } := by
  have hrange := Text.toNat_lt_of_plain (Text.plain_of_isDigit h)
  have hblank : ¬ Text.isBlankChar c := by
    simp [Text.isBlankChar, Text.inRanges, Text.blankRanges]
    omega
  have hquote : ¬ (c = '\'' ∨ c = '"') := by
    rintro (rfl | rfl) <;> revert h <;> decide
  rw [State.first, if_neg hblank, if_neg hquote, if_pos h]

theorem Spells.number {digits : String} (h : IsNumeral digits) :
    Spells digits [.number digits] := by
  rintro ⟨inside, current, opened⟩ hs
  cases hs
  obtain ⟨sign, c, cs, hdigits, hsign, hc, hall⟩ := h
  refine ⟨⟨.number (sign ++ c :: cs), current, opened⟩, ?_, ?_⟩
  · have hstart : State.run ⟨.between, current, opened⟩ (sign ++ [c]) =
        some ⟨.number (sign ++ [c]), current, opened⟩ := by
      simp only [List.mem_cons, List.not_mem_nil, or_false] at hsign
      rcases hsign with rfl | rfl
      · exact congrArg (Option.bind · _) (State.first_of_isDigit hc)
      · have hne : c ≠ '>' := by
          rintro rfl
          cases hc
        change (State.stroked _ .thin c).bind _ = _
        rw [State.stroked, if_neg hne, if_pos ⟨rfl, hc⟩]
        rfl
    rw [hdigits, List.append_cons, State.run_append hstart, State.run_numeralChars cs _ hall,
      List.append_assoc]
  · simp [State.settle, State.push, ← hdigits]

theorem isNumeral_text (n : Json.Number) : IsNumeral n.text := by
  have hchar : ∀ c, Json.isNumberChar c → isNumeralChar c := by
    intro c hc
    simp only [Json.isNumberChar, Bool.or_eq_true, List.contains_eq_mem, decide_eq_true_eq,
      List.mem_cons, List.not_mem_nil, or_false] at hc
    rcases hc with hc | rfl | rfl | rfl | rfl
    · simp [isNumeralChar, Text.isPlainAlphanumeric, hc]
    all_goals rfl
  -- a sign, if there is one, and a text that starts with a digit
  have hsigned : ∀ negative cs, n.text.toList = Json.Number.signOf negative ++ cs →
      (∃ c ∈ cs.head?, c.isDigit) → IsNumeral n.text := by
    rintro negative (_ | ⟨c, cs⟩) htext ⟨d, hd, hdigit⟩
    · cases hd
    · cases hd
      refine ⟨_, c, cs, htext, by cases negative <;> simp [Json.Number.signOf], hdigit, ?_⟩
      intro e he
      exact hchar e (Json.Number.isNumberChar_of_mem (n := n) (by simp [htext, he]))
  cases n with
  | integer n =>
    exact hsigned _ _ (Json.Number.toList_text_integer n) (Json.Number.head?_digitsOf _)
  | real x =>
    exact hsigned _ _ (Json.Number.toList_text_real x) (Json.Number.writeDecimal_spec _).1

/-- The escapes of a style of quotes are read as what they were written for. -/
structure Readable (q : Text.QuoteStyle) : Prop where
  quote : q.quote = '\'' ∨ q.quote = '"'
  unescape : ∀ c ∈ q.quote :: q.guarded, Script.unescape? c = some c

theorem readable_single : Readable .single :=
  ⟨.inl rfl, by simp [Text.QuoteStyle.single, Script.unescape?]⟩

theorem readable_double : Readable .double :=
  ⟨.inr rfl, by simp [Text.QuoteStyle.double, Script.unescape?]⟩

theorem readable_template : Readable .template :=
  ⟨.inr rfl, by simp [Text.QuoteStyle.template, Script.unescape?]⟩

variable {q : Text.QuoteStyle}

theorem State.run_escapeChar (hq : Readable q) {current : List Tree} {opened : List Opened}
    (before : List Char) (c : Char) :
    State.run ⟨.text q.quote before, current, opened⟩ (q.escapeChar c) =
      some ⟨.text q.quote (before ++ [c]), current, opened⟩ := by
  -- a backslash and what it stands before
  have hescape : ∀ {d e : Char}, Script.unescape? d = some e →
      State.run ⟨.text q.quote before, current, opened⟩ ['\\', d] =
        some ⟨.text q.quote (before ++ [e]), current, opened⟩ := by
    intro d e hd
    have hslash : State.step ⟨.text q.quote before, current, opened⟩ '\\' =
        some ⟨.escape q.quote before, current, opened⟩ := by
      have hne : '\\' ≠ q.quote := by
        rcases hq.quote with h | h <;> rw [h] <;> decide
      change State.quoted _ _ _ _ = _
      rw [State.quoted, if_neg hne, if_pos rfl]
    rw [State.run, hslash]
    simp [State.run, State.step, hd]
  unfold Text.QuoteStyle.escapeChar
  split_ifs with hslash hfeed hreturn htab hguarded
  · subst hslash
    exact hescape rfl
  · subst hfeed
    exact hescape rfl
  · subst hreturn
    exact hescape rfl
  · subst htab
    exact hescape rfl
  · refine hescape (hq.unescape c ?_)
    simpa using hguarded
  · have hquote : c ≠ q.quote := by
      rintro rfl
      simp at hguarded
    rw [State.run]
    change (State.quoted _ _ _ _).bind _ = _
    rw [State.quoted, if_neg hquote, if_neg hslash, if_neg (not_or.2 ⟨hfeed, hreturn⟩)]
    rfl

theorem State.run_escaped (hq : Readable q) {current : List Tree} {opened : List Opened}
    (content before : List Char) :
    State.run ⟨.text q.quote before, current, opened⟩ (content.flatMap q.escapeChar) =
      some ⟨.text q.quote (before ++ content), current, opened⟩ := by
  induction content generalizing before with
  | nil => simp [State.run]
  | cons c content ih =>
    rw [List.flatMap_cons, State.run_append (State.run_escapeChar hq before c), ih, List.append_assoc]
    rfl

/-- A text in quotes. -/
theorem Spells.quoted (hq : Readable q) {content literal : String}
    (h : literal.toList = q.quote :: (content.toList.flatMap q.escapeChar ++ [q.quote])) :
    Spells literal [.text q.quote content] := by
  rintro ⟨inside, current, opened⟩ hs
  cases hs
  have hopen : State.step ⟨.between, current, opened⟩ q.quote =
      some ⟨.text q.quote [], current, opened⟩ := by
    rcases hq.quote with h | h <;> rw [h] <;> rfl
  refine ⟨⟨.between, current ++ [.text q.quote content], opened⟩, ?_, rfl⟩
  rw [h, State.run, hopen, Option.bind_some, State.run_append (State.run_escaped hq content.toList []),
    State.run_singleton]
  change State.quoted _ _ _ _ = _
  rw [State.quoted, if_pos rfl, List.nil_append, String.ofList_toList]
  rfl

theorem Spells.quotedSingle (content : String) :
    Spells (Text.quotedSingle content) [.text '\'' content] := by
  refine .quoted readable_single ?_
  simp only [Text.quotedSingle, Text.escapeSingle, Text.QuoteStyle.escape, String.toList_append,
    String.toList_ofList]
  rfl

theorem Spells.quotedDouble (content : String) :
    Spells (Text.quotedDouble content) [.text '"' content] := by
  refine .quoted readable_double ?_
  simp only [Text.quotedDouble, Text.escapeDouble, Text.QuoteStyle.escape, String.toList_append,
    String.toList_ofList]
  rfl

theorem Spells.quotedTemplate (content : String) :
    Spells (Text.quotedTemplate content) [.text '"' content] := by
  refine .quoted readable_template ?_
  simp only [Text.quotedTemplate, Text.escapeTemplate, Text.QuoteStyle.escape, String.toList_append,
    String.toList_ofList]
  rfl

/-! ## Brackets -/

/-- The parts between brackets: one that is empty if none is written. -/
def partsOf : List (List Tree) → List (List Tree)
  | [] => [[]]
  | ts :: rest => ts :: rest

theorem partsOf_of_ne_nil {parts : List (List Tree)} (h : parts ≠ []) : partsOf parts = parts := by
  cases parts with
  | nil => exact absurd rfl h
  | cons ts rest => rfl

/-- Items that are read one by one are read from parts between brackets. -/
theorem exists_parts {α : Type} (read : List Tree → Option α)
    (readAll : List (List Tree) → Option (List α)) (hnil : readAll [] = some [])
    (hempty : readAll [[]] = some [])
    (hcons : ∀ ts rest a as, read ts = some a → readAll rest = some as →
      readAll (ts :: rest) = some (a :: as)) {texts : List String} {as : List α}
    (h : List.Forall₂ (fun text a => ∃ ts, Spells text ts ∧ read ts = some a) texts as) :
    ∃ trees, List.Forall₂ Spells texts trees ∧ readAll (partsOf trees) = some as := by
  have hparts : ∃ trees, List.Forall₂ Spells texts trees ∧ readAll trees = some as := by
    induction h with
    | nil => exact ⟨[], .nil, hnil⟩
    | cons hfirst _ ih =>
      obtain ⟨ts, hspells, hread⟩ := hfirst
      obtain ⟨trees, htrees, hall⟩ := ih
      exact ⟨ts :: trees, .cons hspells htrees, hcons _ _ _ _ hread hall⟩
  obtain ⟨trees, htrees, hall⟩ := hparts
  cases htrees with
  | nil =>
    cases hnil.symm.trans hall
    exact ⟨[], .nil, hempty⟩
  | cons hfirst hrest => exact ⟨_, .cons hfirst hrest, hall⟩

section
variable {b : Bracket} {sep : Char} {pre mid post : String}

/-- Parts with separators between them and a bracket behind them. -/
theorem State.run_parts (hsep : endsPart b sep) (hmid : Delimits mid (·.endPart sep))
    (hpost : Delimits post (·.closeBracket b)) {parts : List String} {trees : List (List Tree)}
    (h : List.Forall₂ Spells parts trees) (before : List Tree)
    (opened : List Opened) (done : List (List Tree)) :
    State.run ⟨.between, [], ⟨b, before, done⟩ :: opened⟩ (Text.join mid parts ++ post).toList =
      some ⟨.between, before ++ [.group b (done ++ partsOf trees)], opened⟩ := by
  rw [String.toList_append]
  induction h generalizing done with
  | nil =>
    have hjoin : (Text.join mid []).toList = [] := rfl
    rw [hjoin, List.nil_append, hpost.run]
    simp [State.closeBracket, partsOf]
  | @cons p ts ps rest hp hps ih =>
    obtain ⟨s, hrun, hsettle⟩ := hp ⟨.between, [], ⟨b, before, done⟩ :: opened⟩ rfl
    cases hps with
    | nil =>
      have hjoin : Text.join mid [p] = p := rfl
      rw [hjoin, State.run_append hrun, State.run_settled hpost.apart hsettle, hpost.run]
      simp [State.closeBracket, partsOf]
    | @cons q us qs rest hq hqs =>
      have hmark : s.run mid.toList =
          some ⟨.between, [], ⟨b, before, done ++ [ts]⟩ :: opened⟩ := by
        rw [State.run_settled hmid.apart hsettle, hmid.run]
        exact if_pos hsep
      have hjoin : Text.join mid (p :: q :: qs) = p ++ mid ++ Text.join mid (q :: qs) :=
        String.intercalate_cons_cons
      rw [hjoin, String.toList_append, String.toList_append, List.append_assoc, List.append_assoc,
        State.run_append hrun, State.run_append hmark, ih]
      simp [partsOf]

/-- Parts between brackets. -/
theorem Spells.group (hpre : Delimits pre fun s => some (s.openBracket b))
    (hsep : endsPart b sep) (hmid : Delimits mid (·.endPart sep))
    (hpost : Delimits post (·.closeBracket b)) {parts : List String} {trees : List (List Tree)}
    (h : List.Forall₂ Spells parts trees) :
    Spells (pre ++ Text.join mid parts ++ post) [.group b (partsOf trees)] := by
  rintro ⟨inside, current, opened⟩ hs
  cases hs
  refine ⟨⟨.between, current ++ [.group b (partsOf trees)], opened⟩, ?_, rfl⟩
  have hopen : State.run ⟨.between, current, opened⟩ pre.toList =
      some ⟨.between, [], ⟨b, current, []⟩ :: opened⟩ := hpre.run _ _
  rw [String.append_assoc, String.toList_append, State.run_append hopen,
    State.run_parts hsep hmid hpost h]
  rfl

end

theorem joins_colon : Joins ": " [.mark .colon] := ⟨rfl, fun _ _ => rfl⟩

theorem joins_blank : Joins " " [] where
  apart := rfl
  run current _ := by
    rw [List.append_nil]
    rfl

theorem commas : Delimits ", " (·.endPart ',') where
  apart := rfl
  run _ opened := by cases opened <;> rfl

theorem semicolons : Delimits "; " (·.endPart ';') where
  apart := rfl
  run _ opened := by obtain _ | ⟨⟨_ | _, _, _⟩, _⟩ := opened <;> rfl

section
variable {parts : List String} {trees : List (List Tree)}

theorem Spells.round (h : List.Forall₂ Spells parts trees) :
    Spells ("(" ++ Text.join ", " parts ++ ")") [.group .round (partsOf trees)] :=
  .group ⟨rfl, fun _ _ => rfl⟩ rfl commas ⟨rfl, fun _ _ => State.run_singleton _ _⟩ h

theorem Spells.enclosed {text : String} {ts : List Tree} (h : Spells text ts) :
    Spells ("(" ++ text ++ ")") [.group .round [ts]] := by
  have hround : Spells ("(" ++ Text.join ", " [text] ++ ")") [.group .round (partsOf [ts])] :=
    .round (.cons h .nil)
  exact hround

theorem Spells.square (h : List.Forall₂ Spells parts trees) :
    Spells ("[" ++ Text.join ", " parts ++ "]") [.group .square (partsOf trees)] :=
  .group ⟨rfl, fun _ _ => rfl⟩ rfl commas ⟨rfl, fun _ _ => State.run_singleton _ _⟩ h

theorem Spells.angle (h : List.Forall₂ Spells parts trees) :
    Spells ("<" ++ Text.join ", " parts ++ ">") [.group .angle (partsOf trees)] :=
  .group ⟨rfl, fun _ _ => rfl⟩ rfl commas ⟨rfl, fun _ _ => State.run_singleton _ _⟩ h

theorem Spells.curly (h : List.Forall₂ Spells parts trees) :
    Spells ("\x7b " ++ Text.join "; " parts ++ " \x7d")
      [.group .curly (partsOf trees)] :=
  .group ⟨rfl, fun _ _ => rfl⟩ rfl semicolons
    ⟨rfl, fun _ _ => State.run_singleton ⟨.between, _, _⟩ _⟩ h

end

end DesignSystem.Reading

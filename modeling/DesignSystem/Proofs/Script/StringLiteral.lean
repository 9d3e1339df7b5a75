import DesignSystem.Json.Lexeme
import DesignSystem.Proofs.Component.Identifiers
import DesignSystem.Proofs.Script.ObjectLiteral

/-!
# Literals with all escapes

How a module reads a literal between quotes: a backslash may stand before a character, a number, or
the end of a line. What is read is a text of code units, since a number can stand for half of a
surrogate pair. What is written here escapes less: the quote, or nothing at all.

* `string?`: the text of a literal, and what follows the literal.
* `length_readString`: at most how many units are read where the literal ends as it was meant to.
* `string?_splice_iff`: the texts that are read back.

Names are put into literals in backticks. Expressions other than names, and escapes, are not read in
these.

* `template?`: the text that such a literal stands for.
* `template?_name`: a literal with one name at its end.
-/

set_option autoImplicit false

namespace DesignSystem.Script

/-! ## Reading -/

/-- The code units of the character of a number. -/
def codeUnits (n : Nat) : List Nat :=
  if n < 0x10000 then [n] else [0xd800 + (n - 0x10000) / 0x400, 0xdc00 + (n - 0x10000) % 0x400]

/-- The code units of characters. -/
def unitsOf (cs : List Char) : List Nat := cs.flatMap fun c => codeUnits c.toNat

/-- The code units of a text. -/
def utf16 (s : String) : List Nat := unitsOf s.toList

/-- What the reader of a literal is inside of. -/
inductive StringState
  | plain
  /-- Behind a backslash. -/
  | escape
  /-- Behind an escaped zero, which no digit may follow. -/
  | zero
  /-- Behind an escaped carriage return, which a line feed belongs to. -/
  | lineEnd
  /-- A number of which `left` digits are still to come. -/
  | code (n left : Nat)
  /-- Behind the letter for a number of four digits or in braces. -/
  | unicode
  /-- A number in braces, if a digit has been read. -/
  | braced (n? : Option Nat)

/-- What a character does: it ends the literal, or it gives units and the literal goes on. -/
inductive StringStep
  | stop
  | read (units : List Nat) (next : StringState)

/-- Reads a character outside of escapes. -/
def plainStep (quote c : Char) : Option StringStep :=
  if c = quote then some .stop
  else if c = '\\' then some (.read [] .escape)
  else if c = '\n' ∨ c = '\r' then none
  else some (.read (codeUnits c.toNat) .plain)

/-- Reads a character behind a backslash. -/
def escapeStep (c : Char) : Option StringStep :=
  if c = 'x' then some (.read [] (.code 0 2))
  else if c = 'u' then some (.read [] .unicode)
  else if c = '0' then some (.read [0] .zero)
  else if c = '\r' then some (.read [] .lineEnd)
  else if c = '\n' ∨ c = '\u2028' ∨ c = '\u2029' then some (.read [] .plain)
  else (unescape? c).map fun d => .read (codeUnits d.toNat) .plain

/-- Reads a character. -/
def stringStep (quote : Char) : StringState → Char → Option StringStep
  | .plain, c => plainStep quote c
  | .escape, c => escapeStep c
  | .zero, c => if c.isDigit then none else plainStep quote c
  | .lineEnd, c => if c = '\n' then some (.read [] .plain) else plainStep quote c
  | .code n left, c => (Json.hexValue? c).map fun digit =>
      if left ≤ 1 then .read [16 * n + digit] .plain
      else .read [] (.code (16 * n + digit) (left - 1))
  | .unicode, c =>
    if c = '\x7b' then some (.read [] (.braced none))
    else (Json.hexValue? c).map fun digit => .read [] (.code digit 3)
  | .braced none, c => (Json.hexValue? c).map fun digit => .read [] (.braced (some digit))
  | .braced (some n), c =>
    if c = '\x7d' then some (.read (codeUnits n) .plain)
    else do
      let digit ← Json.hexValue? c
      if 16 * n + digit ≤ 0x10ffff then some (.read [] (.braced (some (16 * n + digit)))) else none

/-- Reads a literal up to its closing quote, and what follows the quote. -/
def readString (quote : Char) : StringState → List Char → Option (List Nat × List Char)
  | _, [] => none
  | s, c :: cs =>
    match stringStep quote s c with
    | none => none
    | some .stop => some ([], cs)
    | some (.read units next) => (readString quote next cs).map fun r => (units ++ r.1, r.2)

/-- The text of the literal that a source starts with, and what follows the literal. -/
def string? (source : String) : Option (List Nat × String) :=
  match source.toList with
  | [] => none
  | c :: cs =>
    if c = '\'' ∨ c = '"' then (readString c .plain cs).map fun r => (r.1, .ofList r.2) else none

example : string? "'it\\'s \\x41\\u\x7b1f600\x7d\\\n';" = some (utf16 "it's A😀", ";") := by
  decide +kernel

section
variable {quote : Char} {s s' : StringState} {c : Char} {cs rest : List Char} {units : List Nat}

/-- What follows a literal is shorter than what the literal starts. -/
theorem length_rest (h : readString quote s cs = some (units, rest)) : rest.length < cs.length := by
  induction cs generalizing s units with
  | nil => cases h
  | cons c cs ih =>
    rw [readString] at h
    split at h
    · cases h
    · cases h
      exact Nat.lt_succ_self _
    · obtain ⟨r, hr, heq⟩ := Option.map_eq_some_iff.1 h
      cases heq
      exact Nat.lt_succ_of_lt (ih hr)

/-- So a literal that ends further on goes on. -/
theorem exists_of_readString (h : readString quote s (c :: cs) = some (units, rest))
    (hcs : rest.length < cs.length) : ∃ first next others,
      stringStep quote s c = some (.read first next) ∧
        readString quote next cs = some (others, rest) ∧ units = first ++ others := by
  rw [readString] at h
  split at h
  · cases h
  · cases h
    exact absurd hcs (Nat.lt_irrefl _)
  · next first next hstep =>
    obtain ⟨r, hr, heq⟩ := Option.map_eq_some_iff.1 h
    cases heq
    exact ⟨first, next, r.1, hstep, hr, rfl⟩

/-! ## How much is read -/

theorem unitsOf_cons (c : Char) (cs : List Char) :
    unitsOf (c :: cs) = codeUnits c.toNat ++ unitsOf cs := List.flatMap_cons

theorem length_codeUnits (n : Nat) :
    1 ≤ (codeUnits n).length ∧ (codeUnits n).length ≤ 2 := by
  unfold codeUnits
  split_ifs <;> simp

/-- A letter stands for a control character, and any other character for itself. -/
theorem unescape?_cases {d : Char} (h : unescape? c = some d) : d.toNat < 32 ∨ d = c := by
  unfold unescape? at h
  split at h
  case h_13 =>
    split_ifs at h
    cases h
    exact .inr rfl
  all_goals first | (cases h; exact .inl (by decide)) | cases h

/-- So an escape of one letter gives no more units than the letter has. -/
theorem length_codeUnits_unescape {d : Char} (h : unescape? c = some d) :
    (codeUnits d.toNat).length ≤ (codeUnits c.toNat).length := by
  rcases unescape?_cases h with hlt | rfl
  · rw [codeUnits, if_pos (by omega)]
    exact (length_codeUnits c.toNat).1
  · exact Nat.le_refl _

/-- How many units more than characters the rest of an escape can give. -/
def StringState.slack : StringState → Nat
  | .braced (some _) => 1
  | _ => 0

theorem length_plainStep (h : plainStep quote c = some (.read units s')) :
    units.length + s'.slack ≤ (codeUnits c.toNat).length := by
  unfold plainStep at h
  split_ifs at h <;> cases h
  · exact Nat.zero_le _
  · exact Nat.le_refl _

theorem length_escapeStep (h : escapeStep c = some (.read units s')) :
    units.length + s'.slack ≤ (codeUnits c.toNat).length := by
  have hc := (length_codeUnits c.toNat).1
  unfold escapeStep at h
  split_ifs at h
  case neg =>
    obtain ⟨d, hd, heq⟩ := Option.map_eq_some_iff.1 h
    cases heq
    exact length_codeUnits_unescape hd
  all_goals
    cases h
    simp only [StringState.slack, List.length_nil, List.length_singleton]
    omega

/-- A character gives no more units than it has, but for what is kept back before. -/
theorem length_stringStep (h : stringStep quote s c = some (.read units s')) :
    units.length + s'.slack ≤ s.slack + (codeUnits c.toNat).length := by
  have hc := length_codeUnits c.toNat
  cases s with
  | plain => exact (Nat.zero_add _).symm ▸ length_plainStep h
  | escape => exact (Nat.zero_add _).symm ▸ length_escapeStep h
  | zero =>
    rw [stringStep] at h
    split_ifs at h
    exact (Nat.zero_add _).symm ▸ length_plainStep h
  | lineEnd =>
    rw [stringStep] at h
    split_ifs at h
    · cases h
      exact Nat.zero_le _
    · exact (Nat.zero_add _).symm ▸ length_plainStep h
  | code n left =>
    obtain ⟨digit, -, heq⟩ := Option.map_eq_some_iff.1 h
    split_ifs at heq <;> cases heq
    · change 1 ≤ 0 + (codeUnits c.toNat).length
      omega
    · exact Nat.zero_le _
  | unicode =>
    rw [stringStep] at h
    split_ifs at h
    · cases h
      exact Nat.zero_le _
    · obtain ⟨digit, -, heq⟩ := Option.map_eq_some_iff.1 h
      cases heq
      exact Nat.zero_le _
  | braced n? =>
    cases n? with
    | none =>
      obtain ⟨digit, -, heq⟩ := Option.map_eq_some_iff.1 h
      cases heq
      change 1 ≤ 0 + (codeUnits c.toNat).length
      omega
    | some n =>
      rw [stringStep] at h
      split_ifs at h
      · cases h
        have hn := length_codeUnits n
        change (codeUnits n).length ≤ 1 + (codeUnits c.toNat).length
        omega
      · obtain ⟨digit, -, h⟩ := Option.bind_eq_some_iff.1 h
        split_ifs at h
        cases h
        exact Nat.le_add_right _ _

/-! ## Writing -/

/-- A character as it is written where at most the quote is escaped. -/
def spliceChar (escapesQuote : Bool) (c : Char) : List Char :=
  if escapesQuote ∧ c = '\'' then ['\\', c] else [c]

/-- A text between quotes, where at most the quote is escaped. -/
def splice (escapesQuote : Bool) (text : String) : String :=
  "'" ++ .ofList (text.toList.flatMap (spliceChar escapesQuote)) ++ "'"

variable {escapesQuote : Bool}

/-- A quote that is written with a backslash is read as one unit, unless the literal ends there. -/
theorem length_escapedQuote {s₁ s₂ : StringState} {first second : List Nat}
    (h : stringStep '\'' s '\\' = some (.read first s₁))
    (h' : stringStep '\'' s₁ '\'' = some (.read second s₂)) :
    first.length + second.length + s₂.slack ≤ s.slack + 1 := by
  have hopens : stringStep '\'' s '\\' = some (.read [] .escape) →
      first.length + second.length + s₂.slack ≤ s.slack + 1 := by
    intro hopens
    cases hopens.symm.trans h
    cases h'
    exact Nat.le_add_left _ _
  cases s with
  | plain => exact hopens rfl
  | zero => exact hopens rfl
  | lineEnd => exact hopens rfl
  | escape =>
    have hself : stringStep '\'' .escape '\\' = some (.read [92] .plain) := rfl
    cases hself.symm.trans h
    cases h'
  | code n left => cases h
  | unicode => cases h
  | braced n? => cases n? <;> cases h

/-- A text between quotes is read as no more units than it has, if the literal ends at the closing
quote. -/
theorem length_readString (text : List Char) (s : StringState) (units : List Nat)
    (h : readString '\'' s (text.flatMap (spliceChar escapesQuote) ++ '\'' :: rest) =
      some (units, rest)) :
    units.length ≤ s.slack + (unitsOf text).length := by
  -- the state is general, since a character that is meant for itself may go on with an escape
  induction text generalizing s units with
  | nil =>
    rw [List.flatMap_nil, List.nil_append, readString] at h
    split at h
    · cases h
    · cases h
      exact Nat.zero_le _
    · obtain ⟨r, hr, heq⟩ := Option.map_eq_some_iff.1 h
      cases heq
      exact absurd (length_rest hr) (Nat.lt_irrefl _)
  | cons c text ih =>
    have hend : ∀ more : List Char, rest.length <
        (more ++ (text.flatMap (spliceChar escapesQuote) ++ '\'' :: rest)).length := by
      intro more
      simp only [List.length_append, List.length_cons]
      omega
    rw [unitsOf_cons, List.length_append]
    rw [List.flatMap_cons, List.append_assoc, spliceChar] at h
    split_ifs at h with hquote
    · obtain ⟨-, rfl⟩ := hquote
      obtain ⟨first, s₁, units₁, hfirst, htail, rfl⟩ := exists_of_readString h (hend ['\''])
      obtain ⟨second, s₂, units₂, hsecond, hread, rfl⟩ := exists_of_readString htail (hend [])
      have hstep := length_escapedQuote hfirst hsecond
      have hrest := ih _ _ hread
      have hone := (length_codeUnits '\''.toNat).1
      simp only [List.length_append]
      omega
    · obtain ⟨first, s₁, units₁, hfirst, hread, rfl⟩ := exists_of_readString h (hend [])
      have hstep := length_stringStep hfirst
      have hrest := ih _ _ hread
      rw [List.length_append]
      omega

/-! ## Reading what is written -/

/-- Whether a character is read as it was meant. -/
def IsSpliced (escapesQuote : Bool) (c : Char) : Prop :=
  c ∉ ['\\', '\n', '\r'] ∧ (c = '\'' → escapesQuote = true)

theorem readString_spliceChar (h : IsSpliced escapesQuote c) (cs : List Char) :
    readString '\'' .plain (spliceChar escapesQuote c ++ cs) =
      (readString '\'' .plain cs).map fun r => (codeUnits c.toNat ++ r.1, r.2) := by
  unfold spliceChar
  split_ifs with hquote
  · obtain ⟨-, rfl⟩ := hquote
    change ((readString '\'' .plain cs).map fun r => ([39] ++ r.1, r.2)).map _ = _
    rw [Option.map_map]
    rfl
  · have hplain : c ≠ '\'' := fun heq => hquote ⟨h.2 heq, heq⟩
    simp only [IsSpliced, List.mem_cons, List.not_mem_nil, or_false, not_or] at h
    rw [List.singleton_append, readString, stringStep, plainStep, if_neg hplain, if_neg h.1.1,
      if_neg (not_or.2 h.1.2)]

/-- A character that is not read as it was meant spoils the literal. -/
theorem readString_spliceChar_ne (h : ¬ IsSpliced escapesQuote c) (text rest : List Char) :
    readString '\'' .plain (spliceChar escapesQuote c ++
      (text.flatMap (spliceChar escapesQuote) ++ '\'' :: rest)) ≠
        some (unitsOf (c :: text), rest) := by
  intro hread
  have hguarded : ¬ (escapesQuote = true ∧ c = '\'') := by
    rintro ⟨htrue, rfl⟩
    exact h ⟨by decide, fun _ => htrue⟩
  have hend : rest.length < (text.flatMap (spliceChar escapesQuote) ++ '\'' :: rest).length := by
    simp only [List.length_append, List.length_cons]
    omega
  rw [spliceChar, if_neg hguarded, List.singleton_append] at hread
  obtain ⟨first, s', others, hstep, hothers, hunits⟩ := exists_of_readString hread hend
  rw [stringStep, plainStep] at hstep
  split_ifs at hstep with hquote hbackslash hnewline <;> cases hstep
  · -- what is read of the rest as an escape is too short
    have hlength := length_readString _ _ _ hothers
    have hone := (length_codeUnits c.toNat).1
    have hothers : others = unitsOf (c :: text) := hunits.symm
    rw [hothers, unitsOf_cons, List.length_append] at hlength
    change _ ≤ 0 + (unitsOf text).length at hlength
    omega
  · refine h ⟨?_, fun heq => absurd heq hquote⟩
    simp only [List.mem_cons, List.not_mem_nil, or_false]
    exact not_or.2 ⟨hbackslash, hnewline⟩

theorem readString_splice_iff (text rest : List Char) :
    readString '\'' .plain (text.flatMap (spliceChar escapesQuote) ++ '\'' :: rest) =
        some (unitsOf text, rest) ↔
      ∀ c ∈ text, IsSpliced escapesQuote c := by
  induction text with
  | nil => exact ⟨fun _ => nofun, fun _ => rfl⟩
  | cons c text ih =>
    rw [List.flatMap_cons, List.append_assoc, List.forall_mem_cons]
    by_cases hc : IsSpliced escapesQuote c
    · rw [readString_spliceChar hc, and_iff_right hc, ← ih, Option.map_eq_some_iff]
      constructor
      · rintro ⟨r, hr, heq⟩
        obtain ⟨hunits, hrest⟩ := Prod.mk.inj heq
        rw [unitsOf_cons] at hunits
        rw [hr, ← List.append_cancel_left hunits, ← hrest]
      · exact fun hr => ⟨_, hr, rfl⟩
    · exact ⟨fun hread => absurd hread (readString_spliceChar_ne hc text rest),
        fun h => absurd h.1 hc⟩

end

/-- A text between quotes is read back just if it has no backslash and no line break, and no quote
that is not escaped. -/
theorem string?_splice_iff (escapesQuote : Bool) (text rest : String) :
    string? (splice escapesQuote text ++ rest) = some (utf16 text, rest) ↔
      ∀ c ∈ text.toList, IsSpliced escapesQuote c := by
  have hsource : (splice escapesQuote text ++ rest).toList =
      '\'' :: (text.toList.flatMap (spliceChar escapesQuote) ++ '\'' :: rest.toList) := by
    simp [splice]
  rw [← readString_splice_iff text.toList rest.toList, string?, hsource]
  change Option.map _ (readString _ _ _) = _ ↔ _
  rw [Option.map_eq_some_iff]
  constructor
  · rintro ⟨r, hr, heq⟩
    obtain ⟨hunits, hrest⟩ := Prod.mk.inj heq
    rw [hr, ← hrest, String.toList_ofList, ← show _ = unitsOf text.toList from hunits]
  · exact fun hr => ⟨_, hr, by rw [String.ofList_toList]; rfl⟩

/-! ## Template literals -/

/-- What the reader of a template literal is inside of: its text, behind a dollar sign, or a name
with the characters read so far, the last one first. -/
inductive TemplateState
  | text
  | dollar
  | name (cs : List Char)

/-- Reads a character of the text, which ends with a backtick at the end, and then the others. -/
def templateStep (c : Char) (isLast : Bool) (others : TemplateState → Option (List Char)) :
    Option (List Char) :=
  if c = '`' then if isLast then some [] else none
  else if c = '\\' || c = '\r' then none
  else if c = '$' then others .dollar
  else (others .text).map (c :: ·)

/-- Reads a template literal behind its first backtick, given the texts that names are bound to. -/
def readTemplate (bound : String → Option String) : TemplateState → List Char → Option (List Char)
  | _, [] => none
  | .text, c :: cs => templateStep c cs.isEmpty fun s => readTemplate bound s cs
  | .dollar, c :: cs =>
    if c = '\x7b' then readTemplate bound (.name []) cs
    else (templateStep c cs.isEmpty fun s => readTemplate bound s cs).map ('$' :: ·)
  | .name read, c :: cs =>
    if c = '\x7d' then do
      let value ← if isIdentifier (.ofList read.reverse) then bound (.ofList read.reverse) else none
      let rest ← readTemplate bound .text cs
      some (value.toList ++ rest)
    else readTemplate bound (.name (c :: read)) cs

/-- The text that a template literal stands for. -/
def template? (bound : String → Option String) (source : String) : Option String :=
  match source.toList with
  | '`' :: cs => (readTemplate bound .text cs).map .ofList
  | _ => none

variable {bound : String → Option String}

theorem readTemplate_append {cs : List Char}
    (h : ∀ c ∈ cs, c ≠ '`' ∧ c ≠ '\\' ∧ c ≠ '\r' ∧ c ≠ '$') (rest : List Char) :
    readTemplate bound .text (cs ++ rest) = (readTemplate bound .text rest).map (cs ++ ·) := by
  induction cs with
  | nil => simp
  | cons c cs ih =>
    obtain ⟨⟨htick, hbackslash, hreturn, hdollar⟩, hcs⟩ := List.forall_mem_cons.1 h
    rw [List.cons_append, readTemplate, templateStep, if_neg htick,
      if_neg (by simp [hbackslash, hreturn]), if_neg hdollar, ih hcs, Option.map_map]
    rfl

theorem readTemplate_name {cs : List Char} (h : '\x7d' ∉ cs) (read rest : List Char) :
    readTemplate bound (.name read) (cs ++ '\x7d' :: rest) =
      readTemplate bound (.name (cs.reverse ++ read)) ('\x7d' :: rest) := by
  induction cs generalizing read with
  | nil => rfl
  | cons c cs ih =>
    obtain ⟨hc, hcs⟩ := not_or.1 (List.mem_cons.not.1 h)
    rw [List.cons_append, readTemplate, if_neg (Ne.symm hc), ih hcs, List.reverse_cons,
      List.append_assoc]
    rfl

/-- A literal of plain text with a name behind it stands for the text with what the name is bound to
behind it. -/
theorem template?_name {before name value : String}
    (hbefore : ∀ c ∈ before.toList, c ≠ '`' ∧ c ≠ '\\' ∧ c ≠ '\r' ∧ c ≠ '$')
    (hname : isIdentifier name) (hvalue : bound name = some value) :
    template? bound s!"`{before}$\x7b{name}\x7d`" = some (before ++ value) := by
  have hchars : (s!"`{before}$\x7b{name}\x7d`").toList =
      '`' :: (before.toList ++ '$' :: '\x7b' :: (name.toList ++ ['\x7d', '`'])) := by
    change ("`" ++ before ++ "$\x7b" ++ name ++ "\x7d`").toList = _
    simp only [String.toList_append, List.append_assoc]
    rfl
  have hclosed : '\x7d' ∉ name.toList := by
    intro hmem
    rcases isIdentifier_chars hname _ hmem with h | h <;> revert h <;> decide
  have hread : readTemplate bound .text ('$' :: '\x7b' :: (name.toList ++ ['\x7d', '`'])) =
      some value.toList := by
    change readTemplate bound (.name []) (name.toList ++ '\x7d' :: ['`']) = _
    rw [readTemplate_name hclosed, readTemplate, if_pos rfl, List.append_nil, List.reverse_reverse,
      String.ofList_toList, if_pos hname, hvalue]
    change some (value.toList ++ []) = _
    rw [List.append_nil]
  rw [template?, hchars]
  change (readTemplate bound .text _).map String.ofList = _
  rw [readTemplate_append hbefore, hread, Option.map_some, Option.map_some, ← String.toList_append,
    String.ofList_toList]

end DesignSystem.Script

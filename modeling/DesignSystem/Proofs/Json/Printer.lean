import DesignSystem.Json.Lexeme
import DesignSystem.Json.Printer
import DesignSystem.Proofs.Json.Number

/-!
# The compact text of a value determines the value

* `lexString_quoted`: a quoted text reads back, whatever follows it.
* `compact_append`: values with one text are equal, also where other text follows that cannot go on
  a number; `compact_injective` is the case where nothing follows.
-/

set_option autoImplicit false

namespace DesignSystem.Json

/-! ## Strings -/

/-- The piece that a character of a string is read as. -/
def pieceOf (c : Char) : Piece :=
  if c.toNat < 32 ∧ c ∉ ['\n', '\r', '\t', '\x08', '\x0c'] then .unit c.toNat else .char c

theorem hexValue?_hexDigit {n : ℕ} (h : n < 16) : hexValue? (hexDigit n) = some n := by
  revert n
  decide

theorem lexPieces_escapeChar (pieces : List Piece) (c : Char) (cs : List Char) :
    lexPieces pieces .text (escapeChar c ++ cs) = lexPieces (pieceOf c :: pieces) .text cs := by
  unfold escapeChar
  split
  · next h => subst h; rfl
  split
  · next h => subst h; rfl
  split
  · next h => subst h; rfl
  split
  · next h => subst h; rfl
  split
  · next h => subst h; rfl
  split
  · next h => subst h; rfl
  split
  · next h => subst h; rfl
  next hquote hslash hn hr ht hb hf =>
  split
  · next h =>
    have hzero : hexValue? '0' = some 0 := rfl
    have hpiece : pieceOf c = .unit c.toNat := by simp [pieceOf, h, hn, hr, ht, hb, hf]
    have hvalue : c.toNat / 16 * 16 + c.toNat % 16 = c.toNat := by omega
    simp [lexPieces, hzero, hexValue?_hexDigit (show c.toNat / 16 < 16 by omega),
      hexValue?_hexDigit (show c.toNat % 16 < 16 by omega), hpiece, hvalue]
  · next h =>
    have hpiece : pieceOf c = .char c := by simp [pieceOf, h]
    simp [lexPieces, h, hpiece]

/-- A string is read to its closing quote. -/
theorem lexPieces_escape (pieces : List Piece) (s rest : List Char) :
    lexPieces pieces .text (s.flatMap escapeChar ++ '"' :: rest) =
      ((s.map pieceOf).reverse ++ pieces, .ok rest) := by
  induction s generalizing pieces with
  | nil => rfl
  | cons c s ih =>
    rw [List.flatMap_cons, List.append_assoc, lexPieces_escapeChar, ih]
    simp

theorem pieceChars_pieceOf (atEnd : Fault) (s : List Char) :
    pieceChars atEnd (s.map pieceOf) = .ok s := by
  induction s with
  | nil => rfl
  | cons c s ih =>
    rw [List.map_cons]
    by_cases h : c.toNat < 32 ∧ c ∉ ['\n', '\r', '\t', '\x08', '\x0c']
    · have hlow : c.toNat < 0xd800 ∨ 0xe000 ≤ c.toNat := .inl (by omega)
      rw [pieceOf, if_pos h, pieceChars.eq_def]
      simp only [if_pos hlow, ih, Char.ofNat_toNat]
      rfl
    · rw [pieceOf, if_neg h, pieceChars, ih]
      rfl

/-- A quoted text reads back, whatever follows it. -/
theorem lexString_quoted (s : String) (rest : List Char) :
    lexString (s.toList.flatMap escapeChar ++ '"' :: rest) = (.string s, rest) := by
  unfold lexString
  rw [lexPieces_escape, List.append_nil]
  simp only [List.reverse_reverse, pieceChars_pieceOf, String.ofList_toList]

theorem toList_quoted (s : String) :
    (quoted s).toList = '"' :: (s.toList.flatMap escapeChar ++ ['"']) := by
  rw [quoted, String.toList_ofList]
  rfl

theorem quoted_append_injective {s s' : String} {r r' : List Char}
    (h : (quoted s).toList ++ r = (quoted s').toList ++ r') : s = s' ∧ r = r' := by
  rw [toList_quoted, toList_quoted, List.cons_append, List.cons_append, List.append_assoc,
    List.append_assoc] at h
  have hread := congrArg lexString (List.cons.inj h).2
  simp only [List.cons_append, List.nil_append, lexString_quoted] at hread
  obtain ⟨hs, hr⟩ := Prod.mk.inj hread
  exact ⟨Lexeme.string.inj hs, hr⟩

/-! ## Numbers and what follows them -/

/-- What stands after a value does not go on a number. -/
def Delimited (r : List Char) : Prop := ∀ c ∈ r.head?, isNumberChar c = false

theorem delimited_cons {c : Char} (h : isNumberChar c = false) (cs : List Char) :
    Delimited (c :: cs) := by
  intro c' hc'
  rwa [Option.mem_some_iff.1 hc'] at h

theorem number_append_injective {m n : Number} {r r' : List Char} (hr : Delimited r)
    (hr' : Delimited r') (h : m.text.toList ++ r = n.text.toList ++ r') : m = n ∧ r = r' := by
  -- one text cannot be longer, as the rest of the other does not go on a number
  have hnil : ∀ {m : Number} {cs ds r : List Char}, m.text.toList = cs ++ ds →
      Delimited (ds ++ r) → ds = [] := by
    intro m cs ds r hm hr
    cases ds with
    | nil => rfl
    | cons d ds =>
      have hd : isNumberChar d := Number.isNumberChar_of_mem (n := m) (by simp [hm])
      rw [hr d rfl] at hd
      cases hd
  rcases List.append_eq_append_iff.1 h with ⟨ds, hn, hds⟩ | ⟨ds, hm, hds⟩
  · obtain rfl := hnil hn (hds ▸ hr)
    exact ⟨Number.text_injective (String.toList_injective (by simpa using hn.symm)), hds⟩
  · obtain rfl := hnil hm (hds ▸ hr')
    exact ⟨Number.text_injective (String.toList_injective (by simpa using hm)), hds.symm⟩

namespace Value

/-! ## Values -/

/-- The first character of a value's text, `0` standing for all that start a number. -/
def mark : Value → Char
  | null => 'n'
  | bool b => if b then 't' else 'f'
  | number _ => '0'
  | string _ => '"'
  | array _ => '['
  | object _ => '\x7b'

/-- The mark of a first character. -/
def markOf (c : Char) : Char := if isNumberChar c then '0' else c

/-- Two values are of one kind, and equal if they are no more than a word. -/
def SameKind : Value → Value → Prop
  | null, null => True
  | bool a, bool b => a = b
  | number _, number _ => True
  | string _, string _ => True
  | array _, array _ => True
  | object _, object _ => True
  | _, _ => False

theorem sameKind_of_mark {v w : Value} (h : v.mark = w.mark) : SameKind v w := by
  cases v <;> cases w <;> simp only [mark, SameKind] at h ⊢ <;>
    first
    | trivial
    | (split at h <;> split at h <;> simp_all)
    | (split at h <;> cases h)

theorem head_compact (v : Value) : ∃ c cs, v.compact.toList = c :: cs ∧ markOf c = v.mark := by
  cases v with
  | null => exact ⟨'n', ['u', 'l', 'l'], by simp [compact], by decide⟩
  | bool b =>
    cases b with
    | true => exact ⟨'t', ['r', 'u', 'e'], by simp [compact], by decide⟩
    | false => exact ⟨'f', ['a', 'l', 's', 'e'], by simp [compact], by decide⟩
  | number n =>
    obtain ⟨c, cs, h⟩ := List.exists_cons_of_ne_nil n.text_ne_nil
    have hc : isNumberChar c := Number.isNumberChar_of_mem (n := n) (by simp [h])
    exact ⟨c, cs, h, if_pos hc⟩
  | string s => exact ⟨'"', _, toList_quoted s, by simp only [mark]; decide⟩
  | array items =>
    refine ⟨'[', (Text.join "," (compactItems items)).toList ++ [']'], ?_, ?_⟩
    · simp [compact]
    · simp only [mark]
      decide
  | object fields =>
    refine ⟨'\x7b', (Text.join "," (compactFields fields)).toList ++ ['\x7d'], ?_, ?_⟩
    · simp [compact]
    · simp only [mark]
      decide

/-- Values with one text are of one kind. -/
theorem sameKind_of_append {v w : Value} {r r' : List Char}
    (h : v.compact.toList ++ r = w.compact.toList ++ r') : SameKind v w := by
  obtain ⟨c, cs, hv, hc⟩ := head_compact v
  obtain ⟨d, ds, hw, hd⟩ := head_compact w
  rw [hv, hw, List.cons_append, List.cons_append] at h
  rw [(List.cons.inj h).1] at hc
  exact sameKind_of_mark (hc.symm.trans hd)

/-- The texts of further items or fields, each after a comma. -/
def tail (parts : List String) : List Char := parts.flatMap fun p => ',' :: p.toList

theorem tail_cons (p : String) (ps : List String) :
    tail (p :: ps) = ',' :: (p.toList ++ tail ps) := rfl

theorem toList_join_cons (p : String) (ps : List String) :
    (Text.join "," (p :: ps)).toList = p.toList ++ tail ps := by
  change (String.intercalate "," (p :: ps)).toList = p.toList ++ tail ps
  induction ps generalizing p with
  | nil => simp [tail]
  | cons q ps ih =>
    rw [String.intercalate_cons_cons, String.toList_append, String.toList_append, ih, tail_cons,
      List.append_assoc]
    rfl

/-- The texts between two brackets are the same if what starts none of them closes both. -/
theorem tail_eq_of_join {parts parts' : List String} {c : Char} {r r' : List Char}
    (hp : ∀ p ∈ parts, ∃ d ds, p.toList = d :: ds ∧ d ≠ c)
    (hp' : ∀ p ∈ parts', ∃ d ds, p.toList = d :: ds ∧ d ≠ c)
    (h : (Text.join "," parts).toList ++ c :: r = (Text.join "," parts').toList ++ c :: r') :
    tail parts ++ c :: r = tail parts' ++ c :: r' := by
  have hnil : (Text.join "," []).toList = [] := rfl
  cases parts with
  | nil =>
    cases parts' with
    | nil => exact h
    | cons p ps =>
      obtain ⟨d, ds, hd, hne⟩ := hp' p List.mem_cons_self
      rw [hnil, toList_join_cons, hd] at h
      exact absurd (List.cons.inj h).1.symm hne
  | cons p ps =>
    cases parts' with
    | nil =>
      obtain ⟨d, ds, hd, hne⟩ := hp p List.mem_cons_self
      rw [hnil, toList_join_cons, hd] at h
      exact absurd (List.cons.inj h).1 hne
    | cons q qs =>
      rw [toList_join_cons, toList_join_cons, List.append_assoc, List.append_assoc] at h
      rw [tail_cons, tail_cons, List.cons_append, List.cons_append, List.append_assoc,
        List.append_assoc, h]

theorem compactItems_eq (vs : List Value) : compactItems vs = vs.map compact := by
  induction vs with
  | nil => rfl
  | cons v vs ih => rw [compactItems, ih, List.map_cons]

theorem compactFields_eq (fields : List (String × Value)) :
    compactFields fields = fields.map fun f => quoted f.1 ++ ":" ++ compact f.2 := by
  induction fields with
  | nil => rfl
  | cons f fields ih => rw [compactFields, ih, List.map_cons]

theorem start_of_mem_compactItems {vs : List Value} {p : String} (h : p ∈ compactItems vs) :
    ∃ d ds, p.toList = d :: ds ∧ d ≠ ']' := by
  rw [compactItems_eq] at h
  obtain ⟨v, -, rfl⟩ := List.mem_map.1 h
  obtain ⟨d, ds, hd, hmark⟩ := head_compact v
  refine ⟨d, ds, hd, ?_⟩
  rintro rfl
  -- no value has this mark
  cases v with
  | bool b => cases b <;> exact absurd hmark (by decide)
  | _ => exact absurd hmark (by simp only [mark]; decide)

theorem start_of_mem_compactFields {fields : List (String × Value)} {p : String}
    (h : p ∈ compactFields fields) : ∃ d ds, p.toList = d :: ds ∧ d ≠ '\x7d' := by
  rw [compactFields_eq] at h
  obtain ⟨f, -, rfl⟩ := List.mem_map.1 h
  rw [String.toList_append, String.toList_append, toList_quoted]
  exact ⟨'"', _, rfl, by decide⟩

/-- What follows an item or a field. -/
theorem delimited_tail {parts : List String} {c : Char} (hc : isNumberChar c = false)
    (r : List Char) : Delimited (tail parts ++ c :: r) := by
  cases parts with
  | nil => exact delimited_cons hc r
  | cons p ps => exact delimited_cons (by decide) _

mutual

/-- Values with one text are equal, and so is what follows them if it does not go on a number. -/
theorem compact_append : ∀ (v w : Value) {r r' : List Char}, Delimited r → Delimited r' →
    v.compact.toList ++ r = w.compact.toList ++ r' → v = w ∧ r = r' := by
  intro v w r r' hr hr' h
  have hkind := sameKind_of_append h
  cases v <;> cases w <;> simp only [SameKind] at hkind
  case null.null => exact ⟨rfl, List.append_cancel_left h⟩
  case bool.bool a b =>
    subst hkind
    exact ⟨rfl, List.append_cancel_left h⟩
  case number.number m n =>
    obtain ⟨rfl, rfl⟩ := number_append_injective hr hr' h
    exact ⟨rfl, rfl⟩
  case string.string s t =>
    obtain ⟨rfl, rfl⟩ := quoted_append_injective h
    exact ⟨rfl, rfl⟩
  case array.array vs ws =>
    have hopen : '[' :: ((Text.join "," (compactItems vs)).toList ++ ']' :: r) =
        '[' :: ((Text.join "," (compactItems ws)).toList ++ ']' :: r') := by
      simpa [compact] using h
    obtain ⟨rfl, hrest⟩ := items_append vs ws (tail_eq_of_join
      (fun _ => start_of_mem_compactItems) (fun _ => start_of_mem_compactItems)
      (List.cons.inj hopen).2)
    exact ⟨rfl, hrest⟩
  case object.object fields fields' =>
    have hopen : '\x7b' :: ((Text.join "," (compactFields fields)).toList ++ '\x7d' :: r) =
        '\x7b' :: ((Text.join "," (compactFields fields')).toList ++ '\x7d' :: r') := by
      simpa [compact] using h
    obtain ⟨rfl, hrest⟩ := fields_append fields fields' (tail_eq_of_join
      (fun _ => start_of_mem_compactFields) (fun _ => start_of_mem_compactFields)
      (List.cons.inj hopen).2)
    exact ⟨rfl, hrest⟩

theorem items_append : ∀ (vs ws : List Value) {r r' : List Char},
    tail (compactItems vs) ++ ']' :: r = tail (compactItems ws) ++ ']' :: r' → vs = ws ∧ r = r'
  | [], [], r, r', h => ⟨rfl, (List.cons.inj h).2⟩
  | [], _ :: _, _, _, h => nomatch (List.cons.inj h).1
  | _ :: _, [], _, _, h => nomatch (List.cons.inj h).1
  | v :: vs, w :: ws, r, r', h => by
    rw [compactItems, compactItems, tail_cons, tail_cons, List.cons_append, List.cons_append,
      List.append_assoc, List.append_assoc] at h
    obtain ⟨rfl, hrest⟩ := compact_append v w (delimited_tail (by decide) r)
      (delimited_tail (by decide) r') (List.cons.inj h).2
    obtain ⟨rfl, rfl⟩ := items_append vs ws hrest
    exact ⟨rfl, rfl⟩

theorem fields_append : ∀ (fields fields' : List (String × Value)) {r r' : List Char},
    tail (compactFields fields) ++ '\x7d' :: r = tail (compactFields fields') ++ '\x7d' :: r' →
    fields = fields' ∧ r = r'
  | [], [], r, r', h => ⟨rfl, (List.cons.inj h).2⟩
  | [], _ :: _, _, _, h => nomatch (List.cons.inj h).1
  | _ :: _, [], _, _, h => nomatch (List.cons.inj h).1
  | (name, v) :: fields, (name', w) :: fields', r, r', h => by
    simp only [compactFields, tail_cons, String.toList_append, List.cons_append,
      List.append_assoc] at h
    obtain ⟨rfl, hcolon⟩ := quoted_append_injective (List.cons.inj h).2
    obtain ⟨rfl, hrest⟩ := compact_append v w (delimited_tail (by decide) r)
      (delimited_tail (by decide) r') (List.append_cancel_left hcolon)
    obtain ⟨rfl, rfl⟩ := fields_append fields fields' hrest
    exact ⟨rfl, rfl⟩

end

theorem compact_injective {v w : Value} (h : v.compact = w.compact) : v = w := by
  have hnil : Delimited [] := nofun
  exact (compact_append v w hnil hnil (by rw [h])).1

/-! ## Characters of a text -/

theorem le_of_all {cs : List Char} (h : cs.all fun c => decide (32 ≤ c.toNat)) {c : Char}
    (hc : c ∈ cs) : 32 ≤ c.toNat := of_decide_eq_true (List.all_eq_true.1 h c hc)

theorem le_of_mem_escapeChar {c d : Char} (h : d ∈ escapeChar c) : 32 ≤ d.toNat := by
  by_cases hc : c.toNat < 128
  · have hlow : ∀ n < 128, (escapeChar (Char.ofNat n)).all fun c => decide (32 ≤ c.toNat) := by
      decide
    exact le_of_all (hlow c.toNat hc) (by rwa [Char.ofNat_toNat])
  · -- no other character is escaped
    have hne : ∀ x : Char, x.toNat < 128 → c ≠ x := by
      rintro x hx rfl
      exact hc hx
    have hself : escapeChar c = [c] := by
      simp [escapeChar, hne, show ¬ c.toNat < 32 by omega]
    rw [hself] at h
    rw [List.mem_singleton.1 h]
    omega

theorem le_of_mem_quoted {s : String} {c : Char} (h : c ∈ (quoted s).toList) : 32 ≤ c.toNat := by
  rw [toList_quoted] at h
  rcases List.mem_cons.1 h with rfl | h
  · decide
  rcases List.mem_append.1 h with h | h
  · obtain ⟨d, -, hd⟩ := List.mem_flatMap.1 h
    exact le_of_mem_escapeChar hd
  · rw [List.mem_singleton.1 h]
    decide

theorem le_of_isNumberChar {c : Char} (h : isNumberChar c) : 32 ≤ c.toNat := by
  rcases Bool.or_eq_true_iff.1 h with hd | hm
  · have hlow : '0'.val ≤ c.val := of_decide_eq_true (Bool.and_eq_true_iff.1 hd).1
    exact le_trans (by decide) (UInt32.le_iff_toNat_le.1 hlow)
  · exact le_of_all (by decide) (List.contains_iff_mem.1 hm)

/-- What stands between two brackets. -/
theorem mem_tail_of_mem_join {parts : List String} {c : Char}
    (h : c ∈ (Text.join "," parts).toList) : c ∈ tail parts := by
  cases parts with
  | nil => cases h
  | cons p ps =>
    rw [toList_join_cons] at h
    exact List.mem_cons_of_mem _ h

mutual

/-- A compact text has no control characters. -/
theorem le_of_mem_compact : ∀ (v : Value) {c : Char}, c ∈ v.compact.toList → 32 ≤ c.toNat
  | null, c, h => le_of_all (by decide) h
  | bool true, c, h => le_of_all (by decide) h
  | bool false, c, h => le_of_all (by decide) h
  | number n, c, h => le_of_isNumberChar (Number.isNumberChar_of_mem h)
  | string s, c, h => le_of_mem_quoted h
  | array items, c, h => by
    simp only [compact, String.toList_append, List.mem_append] at h
    rcases h with (h | h) | h
    · exact le_of_all (by decide) h
    · exact le_of_mem_items items (mem_tail_of_mem_join h)
    · exact le_of_all (by decide) h
  | object fields, c, h => by
    simp only [compact, String.toList_append, List.mem_append] at h
    rcases h with (h | h) | h
    · exact le_of_all (by decide) h
    · exact le_of_mem_fields fields (mem_tail_of_mem_join h)
    · exact le_of_all (by decide) h

theorem le_of_mem_items : ∀ (vs : List Value) {c : Char}, c ∈ tail (compactItems vs) →
    32 ≤ c.toNat
  | [], _, h => nomatch h
  | v :: vs, c, h => by
    rw [compactItems, tail_cons] at h
    rcases List.mem_cons.1 h with rfl | h
    · decide
    · exact (List.mem_append.1 h).elim (le_of_mem_compact v) (le_of_mem_items vs)

theorem le_of_mem_fields : ∀ (fields : List (String × Value)) {c : Char},
    c ∈ tail (compactFields fields) → 32 ≤ c.toNat
  | [], _, h => nomatch h
  | (name, v) :: fields, c, h => by
    simp only [compactFields, tail_cons, String.toList_append, List.mem_cons, List.mem_append] at h
    rcases h with rfl | ((h | h) | h) | h
    · decide
    · exact le_of_mem_quoted h
    · exact le_of_all (by decide) h
    · exact le_of_mem_compact v h
    · exact le_of_mem_fields fields h

end

end Value

end DesignSystem.Json

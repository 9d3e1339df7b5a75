import DesignSystem.Proofs.Json.Merged
import DesignSystem.Schema.Decoder

/-!
# Reading what was written

`Yields read P`: all values that are read have the property `P`. `Rereads read write a`: what `a` is
written as is read as `a`.

* `Placed.seq_eq_ok`: a record that is read is made of what its fields are read as.
* `record_draft`, `openRecord_draft`: an object is read field by field if the names of its fields
  are known, in order, and distinct.
* `required_ofFields`, `withDefault_ofFields`, `optional_ofFields`: its fields.
* `rereads_value`, `rereads_list`, `rereads_entries`: what values, lists and entries are read again.
-/

set_option autoImplicit false

namespace DesignSystem.Decoder

open Json (Value)

variable {α β : Type}

/-! ## Parts of a record -/

theorem Placed.map_eq_ok {f : α → β} {x : Placed α} {b : β} (h : f <$> x = .ok b) :
    ∃ a, x = .ok a ∧ f a = b := by
  cases x with
  | ok a => exact ⟨a, rfl, Placed.ok.inj h⟩
  | problem place error => cases h

theorem Placed.seq_eq_ok {f : Placed (α → β)} {x : Placed α} {b : β} (h : f <*> x = .ok b) :
    ∃ g a, f = .ok g ∧ x = .ok a ∧ g a = b := by
  cases f with
  | ok g =>
    cases x with
    | ok a => exact ⟨g, a, rfl, rfl, Placed.ok.inj h⟩
    | problem place error => cases h
  | problem p e =>
    cases x with
    | ok a => cases h
    | problem q e' =>
      change (if p ≤ q then Placed.problem p e else .problem q e') = .ok b at h
      split at h
      · cases h
      · cases h

theorem Placed.ofExcept_eq_ok {place : Nat} {r : Except DecodeError α} {a : α}
    (h : Placed.ofExcept place r = .ok a) : r = .ok a := by
  cases r with
  | ok a' => rw [Placed.ok.inj h]
  | error e => cases h

theorem Record.required_eq_ok {r : Record} {name : String} {a : α} {read : Decoder α}
    (h : r.required name read = .ok a) : ∃ d, read d = .ok a := by
  unfold Record.required at h
  split at h
  · next place d _ => exact ⟨d, Placed.ofExcept_eq_ok h⟩
  · cases h

/-- A field with a default is read from a draft, or missing. -/
theorem Record.withDefault_eq_ok {r : Record} {name : String} {value a : α} {read : Decoder α}
    (h : r.withDefault name value read = .ok a) : a = value ∨ ∃ d, read d = .ok a := by
  unfold Record.withDefault at h
  split at h
  · next place d _ => exact .inr ⟨d, Placed.ofExcept_eq_ok h⟩
  · exact .inl (Placed.ok.inj h).symm

/-- Checks do not change what is read. -/
theorem foldr_checks_eq_ok {checks : List (Placed Unit)} {x : Placed α} {a : α}
    (h : checks.foldr (fun check a => (fun _ a => a) <$> check <*> a) x = .ok a) : x = .ok a := by
  induction checks with
  | nil => exact h
  | cons check checks ih =>
    obtain ⟨g, a', hg, ha', rfl⟩ := Placed.seq_eq_ok h
    obtain ⟨_, -, rfl⟩ := Placed.map_eq_ok hg
    exact ih ha'

theorem finish_eq_ok {checks : List (Placed Unit)} {x : Placed α} {a : α}
    (h : finish checks x = .ok a) : x = .ok a := by
  unfold finish at h
  split at h
  · next heq =>
    cases h
    exact foldr_checks_eq_ok heq
  · cases h

theorem uncut_eq_ok {cut : Option Json.Fault} {a b : α} (h : uncut cut a = .ok b) : a = b := by
  cases cut with
  | none => exact Except.ok.inj h
  | some fault => cases h

/-! ## Values that satisfy a property -/

/-- All values that are read have a property. -/
def Yields (read : Decoder α) (P : α → Prop) : Prop := ∀ d a, read d = .ok a → P a

section

variable {read : Decoder α} {P : α → Prop}

/-- A record has the property that what is read of its fields has. -/
theorem yields_record {names : List String} {read : Record → Placed α} {spelling : String → String}
    (h : ∀ r a, read r = .ok a → P a) : Yields (record names read spelling) P := by
  intro d a hd
  unfold record at hd
  split at hd
  · exact h _ _ (finish_eq_ok hd)
  · exact h _ _ (finish_eq_ok hd)
  · cases hd
  · cases hd

theorem yields_openRecord {names : List String} {read : Record → Placed α}
    (h : ∀ r a, read r = .ok a → P a) : Yields (openRecord names read) P := by
  intro d a hd
  unfold openRecord at hd
  split at hd
  · exact h _ _ (finish_eq_ok hd)
  · cases hd
  · cases hd

theorem Yields.list (h : Yields read P) : Yields (list read) fun as => ∀ a ∈ as, P a := by
  intro d as hd a ha
  unfold Decoder.list at hd
  split at hd
  · obtain ⟨all, hall, hcut⟩ := bind_eq_ok hd
    obtain rfl := uncut_eq_ok hcut
    obtain ⟨item, -, hread⟩ := mem_of_mapM_eq_ok hall ha
    exact h item a hread
  · cases hd
  · cases hd

/-- Entries have distinct names, and the property that what is read under each name has. -/
theorem Yields.entries (h : Yields read P) :
    Yields (entries read) fun e => e.Distinct ∧ ∀ item ∈ e, P item.2 := by
  intro d e hd
  unfold Decoder.entries at hd
  split at hd
  · obtain ⟨all, hall, hcut⟩ := bind_eq_ok hd
    obtain rfl := uncut_eq_ok hcut
    refine ⟨Entries.distinct_ofList all, fun item hitem => ?_⟩
    obtain ⟨field, -, hread⟩ := mem_of_mapM_eq_ok hall (Entries.mem_ofList hitem)
    obtain ⟨a, ha, rfl⟩ := map_eq_ok hread
    exact h _ _ ha
  · cases hd
  · cases hd

theorem Yields.nullable (h : Yields read P) :
    Yields (nullable read) fun a => ∀ x, a = some x → P x := by
  rintro d a hd x rfl
  unfold Decoder.nullable at hd
  split at hd
  · cases hd
  · obtain ⟨x', hx, hsome⟩ := map_eq_ok hd
    obtain rfl := Option.some.inj hsome
    exact h d x' hx

theorem Yields.required (h : Yields read P) {r : Record} {name : String} {a : α}
    (ha : r.required name read = .ok a) : P a := by
  obtain ⟨d, hd⟩ := Record.required_eq_ok ha
  exact h d a hd

theorem Yields.withDefault (h : Yields read P) {r : Record} {name : String} {value a : α}
    (ha : r.withDefault name value read = .ok a) (hvalue : P value) : P a := by
  rcases Record.withDefault_eq_ok ha with rfl | ⟨d, hd⟩
  · exact hvalue
  · exact h d a hd

/-- A value that is read is plain. -/
theorem yields_value : Yields value Value.IsPlain := by
  intro d v hd
  obtain ⟨w, -, rfl⟩ := map_eq_ok hd
  exact Value.isPlain_merged w

/-- Null is read from null only. -/
theorem eq_null_of_value {d : Json.Draft} (h : value d = .ok .null) : d = .null := by
  obtain ⟨w, hw, hmerged⟩ := map_eq_ok h
  have hraw := mapError_eq_ok hw
  cases d with
  | null => rfl
  | array items cut =>
    rw [Json.Draft.value] at hraw
    obtain ⟨items, -, hcut⟩ := bind_eq_ok hraw
    split at hcut
    · cases hcut
    · cases hcut
      cases hmerged
  | object fields cut =>
    rw [Json.Draft.value] at hraw
    obtain ⟨fields, -, hcut⟩ := bind_eq_ok hraw
    split at hcut
    · cases hcut
    · cases hcut
      cases hmerged
  | valueless read skip => cases hraw
  | _ =>
    cases hraw
    cases hmerged

theorem yields_nullable_value :
    Yields (nullable value) fun a => ∀ v, a = some v → v ≠ .null ∧ v.IsPlain := by
  rintro d a hd v rfl
  refine ⟨?_, yields_value.nullable d _ hd v rfl⟩
  rintro rfl
  unfold Decoder.nullable at hd
  split at hd
  · cases hd
  · next hne =>
    obtain ⟨v, hv, hsome⟩ := map_eq_ok hd
    cases hsome
    exact hne (eq_null_of_value hv)

end

/-! ## Values that are read again -/

/-- What `a` is written as is read as `a`. -/
def Rereads (read : Decoder α) (write : α → Value) (a : α) : Prop := read (write a).draft = .ok a

section

variable {read : Decoder α} {write : α → Value}

/-- What is written alike is the same, if it is read again. -/
theorem Rereads.injective {a b : α} (ha : Rereads read write a) (hb : Rereads read write b)
    (h : write a = write b) : a = b := by
  rw [Rereads, h, hb] at ha
  exact (Except.ok.inj ha).symm

theorem value_draft (v : Value) : value v.draft = .ok v.merged := by
  rw [value, rawValue, Value.value_draft]
  rfl

theorem rereads_value {v : Value} (h : v.IsPlain) : Rereads value (fun v => v) v := by
  rw [Rereads, value_draft, Value.merged_of_isPlain v h]

theorem rereads_list {as : List α} (h : ∀ a ∈ as, Rereads read write a) :
    Rereads (list read) (fun as => .array (as.map write)) as := by
  have hall : (Value.draftItems (as.map write)).mapM read = .ok as := by
    rw [Value.draftItems_eq, List.map_map]
    exact mapM_map_eq_pure h
  rw [Rereads, Value.draft, list, hall]
  rfl

theorem rereads_values {vs : List Value} (h : ∀ v ∈ vs, v.IsPlain) :
    Rereads (list value) .array vs := by
  have hlist := rereads_list fun v hv => rereads_value (h v hv)
  rwa [Rereads, List.map_id'] at hlist

theorem rereads_entries {e : Entries α} (hd : e.Distinct)
    (h : ∀ item ∈ e, Rereads read write item.2) :
    Rereads (entries read) (fun e => .object (e.mapValues write)) e := by
  have hall : (Value.draftFields (e.mapValues write)).mapM
      (fun field => (read field.2).map fun a => (field.1, a)) = .ok e := by
    rw [Value.draftFields_eq, Entries.mapValues, List.map_map]
    refine mapM_map_eq_pure fun item hitem => ?_
    have hread : read (write item.2).draft = .ok item.2 := h item hitem
    simp [hread, Except.map, pure, Except.pure]
  rw [Rereads, Value.draft, entries, hall]
  exact congrArg Except.ok (Entries.ofList_of_distinct hd)

end

/-! ## Records that were written -/

/-- The fields of an object that was written as a record. -/
def Record.ofFields (fields : List (String × Value)) : Record :=
  ⟨numbered 0 (Value.draftFields fields), fields.length⟩

section

variable {fields : List (String × Value)}

theorem find?_numbered (fields : List (String × Value)) (place last : Nat) (name : String) :
    ∃ place', Record.find? ⟨numbered place (Value.draftFields fields), last⟩ name =
      (Entries.get? name fields).map fun v => (place', v.draft) := by
  induction fields generalizing place with
  | nil => exact ⟨0, rfl⟩
  | cons f rest ih =>
    obtain ⟨n, v⟩ := f
    rw [Value.draftFields, numbered, Entries.get?]
    by_cases hn : n = name
    · exact ⟨place, by simp [Record.find?, hn]⟩
    · obtain ⟨place', hrest⟩ := ih (place + 1)
      refine ⟨place', ?_⟩
      rw [if_neg hn, ← hrest]
      simp [Record.find?, hn]

theorem noRepeats_numbered {names seen : List String} (hd : Entries.Distinct fields)
    (hseen : ∀ name ∈ Entries.names fields, name ∉ seen) (place : Nat) :
    Record.noRepeats names seen (numbered place (Value.draftFields fields)) = .ok () := by
  induction fields generalizing place seen with
  | nil => rfl
  | cons f rest ih =>
    obtain ⟨n, v⟩ := f
    obtain ⟨hn, hrest⟩ := Entries.distinct_cons.1 hd
    rw [Value.draftFields, numbered, Record.noRepeats, if_neg (hseen n (.head _))]
    -- a name that was seen is not among the rest
    refine ih hrest (fun name hname => ?_) (place + 1)
    have hne : name ≠ n := fun heq => hn (heq ▸ hname)
    have hnot : name ∉ seen := hseen name (.tail _ hname)
    split
    · simp [hne, hnot]
    · exact hnot

theorem skipOthers_numbered {names : List String} (h : ∀ name ∈ Entries.names fields, name ∈ names)
    (place : Nat) :
    Record.skipOthers names (numbered place (Value.draftFields fields)) = .ok () := by
  induction fields generalizing place with
  | nil => rfl
  | cons f rest ih =>
    rw [Value.draftFields, numbered, Record.skipOthers, if_pos (h f.1 (.head _))]
    exact ih (fun name hname => h name (.tail _ hname)) (place + 1)

theorem others_numbered (names : List String) (place last : Nat) :
    Record.others names ⟨numbered place (Value.draftFields fields), last⟩ =
      .ok (fields.filter fun field => field.1 ∉ names) := by
  induction fields generalizing place with
  | nil => rfl
  | cons f rest ih =>
    obtain ⟨n, v⟩ := f
    have hrest := ih (place + 1)
    unfold Record.others at hrest ⊢
    rw [Value.draftFields, numbered]
    by_cases hn : n ∈ names
    · rw [List.filter_cons_of_neg (by simpa using hn), List.filter_cons_of_neg (by simpa using hn)]
      exact hrest
    · rw [List.filter_cons_of_pos (by simpa using hn), List.filter_cons_of_pos (by simpa using hn),
        List.foldr_cons, hrest, rawValue, Value.value_draft]
      rfl

/-- An object is read field by field if the names of its fields are known and stand in order. -/
theorem record_draft {names : List String} {read : Record → Placed α} {spelling : String → String}
    {a : α} (hfields : (Entries.names fields).Sublist names) (hnames : names.Nodup)
    (hspelling : ∀ name ∈ names, spelling name = name) (h : read (.ofFields fields) = .ok a) :
    record names read spelling (Value.object fields).draft = .ok a := by
  have hspelled : (Value.draftFields fields).map (fun field => (spelling field.1, field.2)) =
      Value.draftFields fields := by
    rw [Value.draftFields_eq, List.map_map]
    refine List.map_congr_left fun f hf => ?_
    have hname : f.1 ∈ Entries.names fields := List.mem_map_of_mem hf
    simp [hspelling f.1 (hfields.subset hname)]
  have hlength : (Value.draftFields fields).length = fields.length := by
    rw [Value.draftFields_eq, List.length_map]
  have hdistinct : Entries.Distinct fields := hfields.nodup hnames
  rw [Record.ofFields] at h
  rw [Value.draft, record, hspelled, hlength, h,
    noRepeats_numbered hdistinct (fun _ _ => List.not_mem_nil),
    skipOthers_numbered fun _ hname => hfields.subset hname]
  rfl

theorem openRecord_draft {names : List String} {read : Record → Placed α} {a : α}
    (hd : Entries.Distinct fields) (h : read (.ofFields fields) = .ok a) :
    openRecord names read (Value.object fields).draft = .ok a := by
  have hlength : (Value.draftFields fields).length = fields.length := by
    rw [Value.draftFields_eq, List.length_map]
  rw [Record.ofFields] at h
  rw [Value.draft, openRecord, hlength, h, noRepeats_numbered hd fun _ _ => List.not_mem_nil]
  rfl

variable {name : String} {v : Value} {read : Decoder α} {a : α}

theorem required_ofFields (hget : Entries.get? name fields = some v) (h : read v.draft = .ok a) :
    (Record.ofFields fields).required name read = .ok a := by
  obtain ⟨place, hfind⟩ := find?_numbered fields 0 fields.length name
  rw [Record.ofFields, Record.required, hfind, hget, Option.map_some]
  dsimp only
  rw [h]
  rfl

theorem withDefault_ofFields (value : α) (hget : Entries.get? name fields = some v)
    (h : read v.draft = .ok a) : (Record.ofFields fields).withDefault name value read = .ok a := by
  obtain ⟨place, hfind⟩ := find?_numbered fields 0 fields.length name
  rw [Record.ofFields, Record.withDefault, hfind, hget, Option.map_some]
  dsimp only
  rw [h]
  rfl

theorem withDefault_ofFields_of_missing (value : α) (hget : Entries.get? name fields = none) :
    (Record.ofFields fields).withDefault name value read = .ok value := by
  obtain ⟨place, hfind⟩ := find?_numbered fields 0 fields.length name
  rw [Record.ofFields, Record.withDefault, hfind, hget, Option.map_none]

theorem nullable_draft (hv : v ≠ .null) : nullable read v.draft = (read v.draft).map some := by
  unfold nullable
  split
  · next h =>
    cases v with
    | null => exact absurd rfl hv
    | _ => cases h
  · rfl

/-- A field that is left out if it has no value. -/
theorem optional_ofFields {f : α → Value} {a : Option α}
    (hget : Entries.get? name fields = a.map f)
    (h : ∀ x, a = some x → f x ≠ .null ∧ Rereads read f x) :
    (Record.ofFields fields).optional name read = .ok a := by
  cases a with
  | none => exact withDefault_ofFields_of_missing none hget
  | some x =>
    obtain ⟨hnull, hx⟩ := h x rfl
    refine withDefault_ofFields none hget ?_
    rw [nullable_draft hnull, hx]
    rfl

end

end DesignSystem.Decoder

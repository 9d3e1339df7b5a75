import DesignSystem.Entries
import Mathlib.Data.List.Forall2

/-!
# Where the parts of a result come from

* `bind_eq_ok`, `map_eq_ok`, `mapError_eq_ok`: a result that was not an error.
* `bind_eq_error`, `map_eq_error`, `mapError_eq_error`: an error, and which part it comes from.
* `exists_forall₂`, `exists_of_forall₂`: lists that are related item by item.
* `forall₂_of_mapM_eq_some`, `mem_of_mapM_eq_some`, `mem_of_mapM_eq_ok`: what is read from a list is
  read from its items, and by `mapM_eq_none_iff` nothing is if it is not from one of them.
* `Entries.mem_ofList`: entries come from the list that they are built from.
* `Entries.mem_of_get?`: a value that is found stands in an entry.
* `Entries.distinct_ofList`, `Entries.ofList_of_distinct`: building entries makes their names
  distinct, and changes nothing if they are.
-/

set_option autoImplicit false

namespace DesignSystem

variable {α β ε ε' : Type}

/-! ## Results -/

theorem bind_eq_ok {x : Except ε α} {f : α → Except ε β} {b : β} (h : x.bind f = .ok b) :
    ∃ a, x = .ok a ∧ f a = .ok b := by
  cases x with
  | error e => cases h
  | ok a => exact ⟨a, rfl, h⟩

theorem map_eq_ok {x : Except ε α} {f : α → β} {b : β} (h : x.map f = .ok b) :
    ∃ a, x = .ok a ∧ f a = b := by
  cases x with
  | error e => cases h
  | ok a => exact ⟨a, rfl, Except.ok.inj h⟩

theorem mapError_eq_ok {x : Except ε α} {f : ε → ε'} {a : α} (h : x.mapError f = .ok a) :
    x = .ok a := by
  cases x with
  | error e => cases h
  | ok a' => rw [Except.ok.inj h]

theorem bind_eq_error {x : Except ε α} {f : α → Except ε β} {e : ε} (h : x.bind f = .error e) :
    x = .error e ∨ ∃ a, x = .ok a ∧ f a = .error e := by
  cases x with
  | error e' => exact .inl (congrArg Except.error (Except.error.inj h))
  | ok a => exact .inr ⟨a, rfl, h⟩

theorem map_eq_error {x : Except ε α} {f : α → β} {e : ε} (h : x.map f = .error e) :
    x = .error e := by
  cases x with
  | error e' => rw [Except.error.inj h]
  | ok a => cases h

theorem mapError_eq_error {x : Except ε α} {f : ε → ε'} {e' : ε'} (h : x.mapError f = .error e') :
    ∃ e, x = .error e ∧ f e = e' := by
  cases x with
  | error e => exact ⟨e, rfl, Except.error.inj h⟩
  | ok a => cases h

theorem mem_of_mapM_eq_ok {f : α → Except ε β} {as : List α} {bs : List β}
    (h : as.mapM f = .ok bs) {b : β} (hb : b ∈ bs) : ∃ a ∈ as, f a = .ok b := by
  induction as generalizing bs with
  | nil =>
    cases h
    cases hb
  | cons a as ih =>
    rw [List.mapM_cons] at h
    obtain ⟨b', hb', h⟩ := bind_eq_ok h
    obtain ⟨bs', hbs, h⟩ := bind_eq_ok h
    cases h
    rcases List.mem_cons.1 hb with rfl | hb
    · exact ⟨a, .head _, hb'⟩
    · obtain ⟨a', ha, hfa⟩ := ih hbs hb
      exact ⟨a', .tail _ ha, hfa⟩

/-- A list that is read item by item gives back what each item gives back. -/
theorem mapM_map_eq_pure {m : Type → Type} [Monad m] [LawfulMonad m] {f : β → m α} {g : α → β}
    {as : List α} (h : ∀ a ∈ as, f (g a) = pure a) : (as.map g).mapM f = pure as := by
  induction as with
  | nil => rfl
  | cons a as ih =>
    rw [List.map_cons, List.mapM_cons, h a (.head _), ih fun b hb => h b (.tail _ hb)]
    simp

theorem exists_forall₂ {R : α → β → Prop} {as : List α} (h : ∀ a ∈ as, ∃ b, R a b) :
    ∃ bs, List.Forall₂ R as bs := by
  induction as with
  | nil => exact ⟨[], .nil⟩
  | cons a as ih =>
    obtain ⟨⟨b, hb⟩, hrest⟩ := List.forall_mem_cons.1 h
    obtain ⟨bs, hbs⟩ := ih hrest
    exact ⟨b :: bs, .cons hb hbs⟩

/-- Lists that are related item by item. -/
theorem exists_of_forall₂ {R : α → β → Prop} {as : List α} {bs : List β}
    (h : List.Forall₂ R as bs) {b : β} (hb : b ∈ bs) : ∃ a ∈ as, R a b := by
  induction h with
  | nil => cases hb
  | cons hr _ ih =>
    rcases List.mem_cons.1 hb with rfl | hb
    · exact ⟨_, List.mem_cons_self, hr⟩
    · obtain ⟨a, ha, hr⟩ := ih hb
      exact ⟨a, .tail _ ha, hr⟩

theorem forall₂_of_mapM_eq_some {f : α → Option β} {as : List α} {bs : List β}
    (h : as.mapM f = some bs) : List.Forall₂ (fun a b => f a = some b) as bs := by
  induction as generalizing bs with
  | nil =>
    cases h
    exact .nil
  | cons a as ih =>
    rw [List.mapM_cons] at h
    obtain ⟨b, hb, h⟩ := Option.bind_eq_some_iff.1 h
    obtain ⟨bs', hbs, h⟩ := Option.bind_eq_some_iff.1 h
    cases h
    exact .cons hb (ih hbs)

theorem mem_of_mapM_eq_some {f : α → Option β} {as : List α} {bs : List β}
    (h : as.mapM f = some bs) {b : β} (hb : b ∈ bs) : ∃ a ∈ as, f a = some b :=
  exists_of_forall₂ (forall₂_of_mapM_eq_some h) hb

theorem mapM_eq_none_iff {f : α → Option β} {as : List α} :
    as.mapM f = none ↔ ∃ a ∈ as, f a = none := by
  induction as with
  | nil => simp
  | cons a as ih =>
    rw [List.exists_mem_cons_iff, ← ih, List.mapM_cons]
    cases f a with
    | none => simp
    | some b => cases as.mapM f <;> simp

/-! ## Entries -/

namespace Entries

theorem mem_insert {e : Entries α} {name : String} {value : α} {item : String × α}
    (h : item ∈ e.insert name value) : item = (name, value) ∨ item ∈ e := by
  induction e with
  | nil => exact .inl (List.mem_singleton.1 h)
  | cons first rest ih =>
    obtain ⟨n, v⟩ := first
    unfold insert at h
    split at h
    · next hn =>
      rcases List.mem_cons.1 h with rfl | h
      · exact .inl (by rw [hn])
      · exact .inr (.tail _ h)
    · rcases List.mem_cons.1 h with rfl | h
      · exact .inr (.head _)
      · exact (ih h).imp_right (.tail _)

theorem mem_foldl_insert {items : List (String × α)} {e : Entries α} {item : String × α}
    (h : item ∈ items.foldl (fun e item => e.insert item.1 item.2) e) :
    item ∈ items ∨ item ∈ e := by
  induction items generalizing e with
  | nil => exact .inr h
  | cons first rest ih =>
    rcases ih h with h | h
    · exact .inl (.tail _ h)
    · rcases mem_insert h with rfl | h
      · exact .inl (.head _)
      · exact .inr h

/-- Entries come from the list that they are built from. -/
theorem mem_ofList {items : List (String × α)} {item : String × α} (h : item ∈ ofList items) :
    item ∈ items := (mem_foldl_insert h).resolve_right List.not_mem_nil

theorem mem_of_get? {e : Entries α} {name : String} {value : α} (h : e.get? name = some value) :
    (name, value) ∈ e := by
  induction e with
  | nil => cases h
  | cons first rest ih =>
    obtain ⟨n, v⟩ := first
    rw [get?] at h
    split at h
    · next hn =>
      cases h
      exact hn ▸ .head _
    · exact .tail _ (ih h)

/-! ### Distinct names -/

theorem distinct_cons {item : String × α} {e : Entries α} :
    Distinct (item :: e) ↔ item.1 ∉ names e ∧ e.Distinct := List.nodup_cons

theorem mem_names_insert {e : Entries α} {name x : String} {value : α} :
    x ∈ names (e.insert name value) ↔ x = name ∨ x ∈ names e := by
  induction e with
  | nil => simp [insert, names]
  | cons first rest ih =>
    obtain ⟨n, v⟩ := first
    rw [insert]
    split
    · next hn => simp [names, hn]
    · change x ∈ n :: names (insert name value rest) ↔ x = name ∨ x ∈ n :: names rest
      rw [List.mem_cons, List.mem_cons, ih, or_left_comm]

theorem distinct_insert {e : Entries α} (h : e.Distinct) (name : String) (value : α) :
    (e.insert name value).Distinct := by
  induction e with
  | nil => simp [insert, Distinct, names]
  | cons first rest ih =>
    obtain ⟨n, v⟩ := first
    obtain ⟨hn, hrest⟩ := distinct_cons.1 h
    rw [insert]
    split
    · exact distinct_cons.2 ⟨hn, hrest⟩
    · next hne =>
      refine distinct_cons.2 ⟨fun hmem => ?_, ih hrest⟩
      exact (mem_names_insert.1 hmem).elim hne hn

theorem distinct_ofList (items : List (String × α)) : (ofList items).Distinct := by
  have hfold : ∀ e : Entries α, e.Distinct →
      Distinct (items.foldl (fun e item => e.insert item.1 item.2) e) := by
    induction items with
    | nil => exact fun e he => he
    | cons item items ih => exact fun e he => ih _ (distinct_insert he _ _)
  exact hfold [] List.nodup_nil

theorem insert_of_notMem {e : Entries α} {name : String} (h : name ∉ names e) (value : α) :
    e.insert name value = e ++ [(name, value)] := by
  induction e with
  | nil => rfl
  | cons first rest ih =>
    obtain ⟨n, v⟩ := first
    obtain ⟨hn, hrest⟩ := not_or.1 (mt List.mem_cons.2 h)
    rw [insert, if_neg (Ne.symm hn), ih hrest, List.cons_append]

/-- Entries of distinct names are built as they are. -/
theorem ofList_of_distinct {e : Entries α} (h : e.Distinct) : ofList e = e := by
  have hfold : ∀ before items : Entries α, Distinct (before ++ items) →
      items.foldl (fun e item => e.insert item.1 item.2) before = before ++ items := by
    intro before items
    induction items generalizing before with
    | nil => simp
    | cons item items ih =>
      intro hd
      have hnew : item.1 ∉ names before := by
        rw [Distinct, names, List.map_append, List.nodup_append] at hd
        exact fun hmem => hd.2.2 _ hmem _ List.mem_cons_self rfl
      rw [List.foldl_cons, insert_of_notMem hnew, ih _ (by simpa using hd)]
      simp
  exact hfold [] e h

@[simp] theorem names_mapValues (f : α → β) (e : Entries α) : names (e.mapValues f) = names e := by
  simp [names, mapValues, Function.comp_def]

/-! ### Looking up -/

@[simp] theorem get?_nil (name : String) : get? name ([] : Entries α) = none := rfl

@[simp] theorem get?_cons (name n : String) (v : α) (rest : Entries α) :
    get? name ((n, v) :: rest) = if n = name then some v else get? name rest := rfl

@[simp] theorem get?_append (name : String) (e e' : Entries α) :
    get? name (e ++ e') = (e.get? name).or (e'.get? name) := by
  induction e with
  | nil => rfl
  | cons first rest ih =>
    obtain ⟨n, v⟩ := first
    rw [List.cons_append, get?, get?]
    split
    · rfl
    · exact ih

theorem get?_mapValues (f : α → β) (name : String) (e : Entries α) :
    get? name (e.mapValues f) = (e.get? name).map f := by
  induction e with
  | nil => rfl
  | cons first rest ih =>
    obtain ⟨n, v⟩ := first
    rw [mapValues, List.map_cons, get?, get?]
    split
    · rfl
    · exact ih

theorem get?_insert (key name : String) (value : α) : ∀ e : Entries α,
    get? key (e.insert name value) = if key = name then some value else e.get? key
  | [] => by
    by_cases h : key = name <;> simp [insert, h, Ne.symm]
  | (n, v) :: rest => by
    have ih := get?_insert key name value rest
    rw [insert]
    split
    · next hn =>
      subst hn
      by_cases h : key = n <;> simp [h, Ne.symm]
    · next hn =>
      rw [get?_cons, get?_cons, ih]
      by_cases h : n = key
      · subst h
        simp [hn]
      · simp [h]

theorem mapValues_insert (f : α → β) (name : String) (value : α) : ∀ e : Entries α,
    mapValues f (e.insert name value) = (e.mapValues f).insert name (f value)
  | [] => rfl
  | (n, v) :: rest => by
    have ih := mapValues_insert f name value rest
    unfold mapValues at ih ⊢
    rw [insert, List.map_cons, insert]
    split
    · rfl
    · rw [List.map_cons, ih]

theorem get?_eq_none {e : Entries α} {name : String} (h : name ∉ names e) : e.get? name = none := by
  cases hg : e.get? name with
  | none => rfl
  | some v => exact absurd (List.mem_map_of_mem (f := (·.1)) (mem_of_get? hg)) h

theorem get?_of_mem {e : Entries α} (h : e.Distinct) {name : String} {value : α}
    (hmem : (name, value) ∈ e) : e.get? name = some value := by
  induction e with
  | nil => cases hmem
  | cons first rest ih =>
    obtain ⟨n, v⟩ := first
    obtain ⟨hn, hrest⟩ := distinct_cons.1 h
    rcases List.mem_cons.1 hmem with he | hmem
    · cases he
      exact if_pos rfl
    · have hne : n ≠ name := fun he => hn (he ▸ List.mem_map_of_mem (f := (·.1)) hmem)
      rw [get?_cons, if_neg hne, ih hrest hmem]

theorem notMem_names {e : Entries α} {name : String} (h : e.get? name = none) : name ∉ names e := by
  induction e with
  | nil => exact List.not_mem_nil
  | cons first rest ih =>
    obtain ⟨n, v⟩ := first
    rw [get?] at h
    split at h
    · cases h
    · next hne => exact fun hmem => (List.mem_cons.1 hmem).elim (Ne.symm hne) (ih h)

end Entries

end DesignSystem

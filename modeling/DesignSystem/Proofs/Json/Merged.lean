import DesignSystem.Json.Draft
import DesignSystem.Proofs.Entries

/-!
# Values whose fields have distinct names

`v.IsPlain`: in every object inside `v` the fields have distinct names.

* `isPlain_merged`, `merged_of_isPlain`: merging makes a value plain, and keeps a plain one.
* `value_draft`: the draft of a value holds that value.
-/

set_option autoImplicit false

namespace DesignSystem.Json.Value

mutual

/-- The fields of every object have distinct names. -/
def IsPlain : Value → Prop
  | array items => ArePlain items
  | object fields => Entries.Distinct fields ∧ ArePlainFields fields
  | _ => True

/-- The items of an array are plain. -/
def ArePlain : List Value → Prop
  | [] => True
  | v :: vs => IsPlain v ∧ ArePlain vs

/-- What stands in fields is plain. -/
def ArePlainFields : List (String × Value) → Prop
  | [] => True
  | (_, v) :: rest => IsPlain v ∧ ArePlainFields rest

end

theorem arePlain_iff {vs : List Value} : ArePlain vs ↔ ∀ v ∈ vs, v.IsPlain := by
  induction vs with
  | nil => simp [ArePlain]
  | cons v vs ih => simp [ArePlain, ih]

theorem arePlainFields_iff {fields : List (String × Value)} :
    ArePlainFields fields ↔ ∀ f ∈ fields, f.2.IsPlain := by
  induction fields with
  | nil => simp [ArePlainFields]
  | cons f fields ih => simp [ArePlainFields, ih]

theorem isPlain_object {fields : List (String × Value)} :
    (object fields).IsPlain ↔ Entries.Distinct fields ∧ ∀ f ∈ fields, f.2.IsPlain := by
  rw [IsPlain, arePlainFields_iff]

theorem isPlain_array {items : List Value} : (array items).IsPlain ↔ ∀ v ∈ items, v.IsPlain := by
  rw [IsPlain, arePlain_iff]

/-! ## Merging -/

theorem mergedItems_eq (vs : List Value) : mergedItems vs = vs.map merged := by
  induction vs with
  | nil => rfl
  | cons v vs ih => rw [mergedItems, ih, List.map_cons]

theorem merged_object (fields : List (String × Value)) :
    (object fields).merged = object (Entries.ofList (Entries.mapValues merged fields)) := by
  have hfold : ∀ before, mergedFields before fields =
      (Entries.mapValues merged fields).foldl (fun e item => e.insert item.1 item.2) before := by
    induction fields with
    | nil => exact fun _ => rfl
    | cons f fields ih =>
      intro before
      rw [mergedFields, ih]
      rfl
  rw [merged, hfold, Entries.ofList]

mutual

theorem isPlain_merged : ∀ v : Value, v.merged.IsPlain
  | null => trivial
  | bool _ => trivial
  | number _ => trivial
  | string _ => trivial
  | array items => by
    rw [merged, mergedItems_eq, isPlain_array]
    intro v hv
    obtain ⟨w, hw, rfl⟩ := List.mem_map.1 hv
    exact isPlain_merged_items items w hw
  | object fields => by
    rw [merged_object, isPlain_object]
    refine ⟨Entries.distinct_ofList _, fun f hf => ?_⟩
    obtain ⟨g, hg, rfl⟩ := List.mem_map.1 (Entries.mem_ofList hf)
    exact isPlain_merged_fields fields g hg

theorem isPlain_merged_items : ∀ vs : List Value, ∀ v ∈ vs, v.merged.IsPlain
  | [], _, h => nomatch h
  | v :: vs, w, h => by
    rcases List.mem_cons.1 h with heq | h
    · rw [heq]
      exact isPlain_merged v
    · exact isPlain_merged_items vs w h

theorem isPlain_merged_fields : ∀ fields : List (String × Value),
    ∀ f ∈ fields, f.2.merged.IsPlain
  | [], _, h => nomatch h
  | (name, v) :: rest, f, h => by
    rcases List.mem_cons.1 h with rfl | h
    · exact isPlain_merged v
    · exact isPlain_merged_fields rest f h

end

mutual

theorem merged_of_isPlain : ∀ v : Value, v.IsPlain → v.merged = v
  | null, _ => rfl
  | bool _, _ => rfl
  | number _, _ => rfl
  | string _, _ => rfl
  | array items, h => by
    rw [IsPlain] at h
    rw [merged, mergedItems_of_arePlain items h]
  | object fields, h => by
    rw [IsPlain] at h
    rw [merged_object, mapValues_merged_of_arePlain fields h.2, Entries.ofList_of_distinct h.1]

theorem mergedItems_of_arePlain : ∀ vs : List Value, ArePlain vs → mergedItems vs = vs
  | [], _ => rfl
  | v :: vs, h => by
    rw [mergedItems, merged_of_isPlain v h.1, mergedItems_of_arePlain vs h.2]

theorem mapValues_merged_of_arePlain : ∀ fields : List (String × Value),
    ArePlainFields fields → Entries.mapValues merged fields = fields
  | [], _ => rfl
  | (name, v) :: rest, h => by
    have hrest := mapValues_merged_of_arePlain rest h.2
    rw [Entries.mapValues] at hrest ⊢
    rw [List.map_cons, merged_of_isPlain v h.1, hrest]

end

/-! ## Drafts -/

theorem draftItems_eq (vs : List Value) : draftItems vs = vs.map draft := by
  induction vs with
  | nil => rfl
  | cons v vs ih => rw [draftItems, ih, List.map_cons]

theorem draftFields_eq (fields : List (String × Value)) :
    draftFields fields = fields.map fun f => (f.1, f.2.draft) := by
  induction fields with
  | nil => rfl
  | cons f fields ih => rw [draftFields, ih, List.map_cons]

mutual

/-- The draft of a value holds that value. -/
theorem value_draft : ∀ v : Value, v.draft.value = .ok v
  | null => rfl
  | bool _ => rfl
  | number _ => rfl
  | string _ => rfl
  | array items => by
    rw [draft, Draft.value, valueItems_draftItems items]
    rfl
  | object fields => by
    rw [draft, Draft.value, valueFields_draftFields fields]
    rfl

theorem valueItems_draftItems : ∀ vs : List Value, Draft.valueItems (draftItems vs) = .ok vs
  | [] => rfl
  | v :: vs => by
    rw [draftItems, Draft.valueItems, value_draft v, valueItems_draftItems vs]
    rfl

theorem valueFields_draftFields : ∀ fields : List (String × Value),
    Draft.valueFields (draftFields fields) = .ok fields
  | [] => rfl
  | (name, v) :: rest => by
    rw [draftFields, Draft.valueFields, value_draft v, valueFields_draftFields rest]
    rfl

end

end DesignSystem.Json.Value

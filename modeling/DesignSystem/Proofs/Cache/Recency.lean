import DesignSystem.Cache.Recency
import Mathlib.Data.List.Nodup
import Mathlib.Data.List.Perm.Subperm

/-!
# The keys of values by recency

Using a value (`touch`) keeps the keys and their number; putting one (`put`) adds its key and keeps
at most `capacity` of them. Keys that are distinct stay distinct.
-/

set_option autoImplicit false

namespace DesignSystem.ByRecency

variable {κ α : Type} {l : ByRecency κ α} {k k' : κ}

/-- The keys, that of the value used last in front. -/
def keys (l : ByRecency κ α) : List κ := l.map (·.1)

theorem length_keys (l : ByRecency κ α) : (keys l).length = l.length := List.length_map _

theorem keys_filter (p : κ → Bool) (l : ByRecency κ α) :
    keys (l.filter fun e => p e.1) = (keys l).filter p := by
  simp [keys, List.filter_map, Function.comp_def]

variable [DecidableEq κ]

theorem get?_eq_none_iff : l.get? k = none ↔ k ∉ keys l := by
  induction l with
  | nil => simp [get?, keys]
  | cons e l ih =>
    obtain ⟨key, v⟩ := e
    by_cases hk : key = k
    · simp [get?, keys, hk]
    · simp only [get?, if_neg hk, ih]
      simp [keys, Ne.symm hk]

@[simp] theorem keys_without (k : κ) (l : ByRecency κ α) :
    keys (l.without k) = (keys l).filter (· ≠ k) := keys_filter (fun key => key ≠ k) l

theorem nodup_keys_cons_without (h : (keys l).Nodup) (k : κ) (v : α) :
    (keys ((k, v) :: l.without k)).Nodup := by
  change (k :: keys (l.without k)).Nodup
  rw [keys_without, List.nodup_cons]
  exact ⟨by simp, h.filter _⟩

theorem mem_keys_cons_without {v : α} (h : k' ∈ keys ((k, v) :: l.without k)) :
    k' = k ∨ k' ∈ keys l := by
  rcases List.mem_cons.1 h with h | h
  · exact .inl h
  · rw [← keys, keys_without] at h
    exact .inr (List.mem_of_mem_filter h)

/-- Where keys are distinct one value less is left without one of them. -/
theorem length_without_add_one (h : (keys l).Nodup) (hk : k ∈ keys l) :
    (l.without k).length + 1 = l.length := by
  have hfilter : (keys l).filter (· ≠ k) = (keys l).erase k := by
    rw [h.erase_eq_filter]
    refine List.filter_congr fun key _ => ?_
    simp [bne, beq_eq_decide]
  rw [← length_keys, keys_without, hfilter, List.length_erase_of_mem hk, ← length_keys]
  exact Nat.sub_add_cancel (List.length_pos_of_mem hk)

theorem without_of_notMem (h : k ∉ keys l) : l.without k = l := by
  refine List.filter_eq_self.2 fun e he => decide_eq_true fun hk => h ?_
  exact List.mem_map.2 ⟨e, he, hk⟩

theorem mem_keys_of_get? {v : α} (h : l.get? k = some v) : k ∈ keys l := by
  by_contra hk
  rw [get?_eq_none_iff.2 hk] at h
  cases h

/-! ## Using a value -/

theorem nodup_keys_touch (h : (keys l).Nodup) (k : κ) : (keys (l.touch k)).Nodup := by
  unfold touch
  split
  · exact nodup_keys_cons_without h k _
  · exact h

theorem mem_keys_touch (h : k' ∈ keys (l.touch k)) : k' ∈ keys l := by
  unfold touch at h
  split at h
  · next v hv =>
    rcases mem_keys_cons_without h with rfl | h
    · exact mem_keys_of_get? hv
    · exact h
  · exact h

theorem length_touch_le (h : (keys l).Nodup) (k : κ) : (l.touch k).length ≤ l.length := by
  have hsub : keys (l.touch k) ⊆ keys l := fun _ => mem_keys_touch
  have hle := (List.Nodup.subperm (nodup_keys_touch h k) hsub).length_le
  simpa [keys] using hle

theorem length_touch (h : (keys l).Nodup) {v : α} (hv : l.get? k = some v) :
    (l.touch k).length = l.length := by
  simp only [touch, hv, List.length_cons]
  exact length_without_add_one h (mem_keys_of_get? hv)

/-! ## Putting a value -/

/-- Using a value is putting it there once more. -/
theorem touch_eq_put (h : (keys l).Nodup) {v : α} (hv : l.get? k = some v) {capacity : Nat}
    (hsize : l.length ≤ capacity) : l.touch k = l.put capacity k v := by
  have hlength := length_without_add_one h (mem_keys_of_get? hv)
  rw [put, List.take_of_length_le (by simp only [List.length_cons]; omega)]
  simp only [touch, hv]

theorem nodup_keys_put (h : (keys l).Nodup) (capacity : Nat) (k : κ) (v : α) :
    (keys (l.put capacity k v)).Nodup :=
  (nodup_keys_cons_without h k v).sublist ((List.take_sublist _ _).map _)

theorem mem_keys_put {capacity : Nat} {v : α} (h : k' ∈ keys (l.put capacity k v)) :
    k' = k ∨ k' ∈ keys l := by
  unfold put keys at h
  rw [List.map_take] at h
  exact mem_keys_cons_without (List.mem_of_mem_take h)

theorem length_put_le (capacity : Nat) (k : κ) (v : α) (l : ByRecency κ α) :
    (l.put capacity k v).length ≤ capacity := List.length_take_le _ _

end DesignSystem.ByRecency

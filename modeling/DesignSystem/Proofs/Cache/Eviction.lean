import DesignSystem.Proofs.Cache.Orderly
import Mathlib.Data.Finset.Card
import Mathlib.Data.List.TakeDrop

/-!
# Which values a full cache gives up

A key is used when a request finds its value, and when a value is stored for it. The values of a
cache that nothing has invalidated are those of the keys that were used last, as many as it has
room for.

* `latest`: the keys of a list, each where it comes first.
* `Run.keys_eq`: the keys of a cache are the ones used last, the latest in front.
* `Run.leastRecentlyUsed`: a key has its value until as many other keys are used as there is room for.
-/

set_option autoImplicit false

namespace DesignSystem

namespace ByRecency

variable {κ α : Type} [DecidableEq κ] {k : κ} {l : ByRecency κ α}

/-- The keys of a list without repetitions, each where it comes first. -/
def latest : List κ → List κ
  | [] => []
  | k :: ks => k :: (latest ks).filter (· ≠ k)

theorem mem_latest {ks : List κ} : k ∈ latest ks ↔ k ∈ ks := by
  induction ks with
  | nil => simp [latest]
  | cons k' ks ih =>
    by_cases h : k = k'
    · simp [latest, h]
    · simp [latest, h, ih]

theorem nodup_latest : ∀ ks : List κ, (latest ks).Nodup
  | [] => List.nodup_nil
  | k :: ks => List.nodup_cons.2 ⟨by simp, (nodup_latest ks).filter _⟩

theorem length_latest (ks : List κ) : (latest ks).length = ks.toFinset.card := by
  rw [← List.toFinset_card_of_nodup (nodup_latest ks)]
  congr 1
  ext k
  simp [mem_latest]

theorem latest_append (ks ks' : List κ) :
    latest (ks ++ ks') = latest ks ++ (latest ks').filter (· ∉ ks) := by
  induction ks with
  | nil => simp [latest]
  | cons k ks ih =>
    simp only [List.cons_append, latest, ih, List.filter_append, List.filter_filter]
    simp

/-- A key is among the first `n` ones just if fewer than `n` others come before it. -/
theorem mem_take_latest {n : Nat} {newer older : List κ} (h : k ∉ newer) :
    k ∈ (latest (newer ++ k :: older)).take n ↔ newer.toFinset.card < n := by
  have hnew : k ∉ (latest newer).take n := fun hmem => h (mem_latest.1 (List.mem_of_mem_take hmem))
  rw [latest_append, latest, List.filter_cons_of_pos (by simpa using h), List.take_append,
    List.mem_append, or_iff_right hnew, length_latest]
  constructor
  · intro hmem
    by_contra hlt
    rw [Nat.sub_eq_zero_of_le (by omega)] at hmem
    simp at hmem
  · intro hlt
    obtain ⟨m, hm⟩ : ∃ m, n - newer.toFinset.card = m + 1 := ⟨n - newer.toFinset.card - 1, by omega⟩
    rw [hm, List.take_succ_cons]
    exact List.mem_cons_self

/-- Of distinct keys the first ones besides `k` are found among one more. -/
theorem take_filter_take (k : κ) (n : Nat) {ks : List κ} (h : ks.Nodup) :
    ((ks.take (n + 1)).filter (· ≠ k)).take n = (ks.filter (· ≠ k)).take n := by
  induction ks generalizing n with
  | nil => rfl
  | cons k' ks ih =>
    obtain ⟨hnot, hrest⟩ := List.nodup_cons.1 h
    rw [List.take_succ_cons]
    by_cases hk : k' = k
    · -- nothing else is left out
      subst hk
      have hall : ∀ x ∈ ks, decide (x ≠ k') = true :=
        fun x hx => decide_eq_true fun heq => hnot (heq ▸ hx)
      simp only [ne_eq, not_true_eq_false, decide_false, Bool.false_eq_true, not_false_eq_true,
        List.filter_cons_of_neg]
      rw [List.filter_eq_self.2 hall,
        List.filter_eq_self.2 fun x hx => hall x (List.mem_of_mem_take hx), List.take_take,
        Nat.min_self]
    · rw [List.filter_cons_of_pos (by simpa using hk), List.filter_cons_of_pos (by simpa using hk)]
      cases n with
      | zero => rfl
      | succ n => rw [List.take_succ_cons, List.take_succ_cons, ih n hrest]

/-- Putting a value makes its key the one used last. -/
theorem keys_put {n : Nat} {ks : List κ} {l : ByRecency κ α} (hl : keys l = (latest ks).take n)
    (k : κ) (v : α) : keys (l.put n k v) = (latest (k :: ks)).take n := by
  cases n with
  | zero => rfl
  | succ n =>
    have hkeys : keys (l.put (n + 1) k v) = k :: (keys (l.without k)).take n := by
      simp [put, keys, List.take_succ_cons, List.map_take]
    rw [hkeys, keys_without, hl, take_filter_take k n (nodup_latest ks), latest, List.take_succ_cons]

/-- So does using a value that is there. -/
theorem keys_touch {n : Nat} {ks : List κ} {l : ByRecency κ α} (hl : keys l = (latest ks).take n)
    {v : α} (hv : l.get? k = some v) : keys (l.touch k) = (latest (k :: ks)).take n := by
  have hdistinct : (keys l).Nodup := hl ▸ (nodup_latest ks).sublist (List.take_sublist _ _)
  have hsize : l.length ≤ n := by
    rw [← length_keys, hl]
    exact List.length_take_le _ _
  rw [touch_eq_put hdistinct hv hsize]
  exact keys_put hl k v

end ByRecency

namespace Cache

open ByRecency (latest)

variable {ε α : Type} {n : Nat} {history : List (Event ε α)} {c c' : Cache ε α} {e : Event ε α}

/-- The key whose value was found or stored. -/
def Event.used? : Event ε α → Option CacheKey
  | .hit _ key _ => some key
  | .returned _ _ key (.ok _) true => some key
  | _ => none

/-- Nothing gave up values but that there was no room for them. -/
def Undisturbed (history : List (Event ε α)) : Prop :=
  ∀ e ∈ history, ∀ schemaId, ¬ e.Invalidates schemaId

/-- An event that uses no value leaves all of them where they are, unless it invalidates some. -/
theorem valuesAfter_of_unused (c : Cache ε α) (hused : e.used? = none)
    (he : ∀ schemaId, ¬ e.Invalidates schemaId) : c.valuesAfter e = c.entries := by
  unfold valuesAfter
  split
  · cases hused
  · cases hused
  · next schemaId => exact absurd rfl (he schemaId)
  · exact absurd trivial (he "")
  · rfl

/-- An event that uses a value makes its key the one used last. -/
theorem keys_valuesAfter_of_used {ks : List CacheKey} {key : CacheKey}
    (hks : ByRecency.keys c.entries = (latest ks).take c.capacity) (hs : Step c e c')
    (hused : e.used? = some key) :
    ByRecency.keys (c.valuesAfter e) = (latest (key :: ks)).take c.capacity := by
  unfold Event.used? at hused
  split at hused
  · cases hused
    cases hs with
    | hit hget => exact ByRecency.keys_touch hks hget
  · cases hused
    exact ByRecency.keys_put hks _ _
  · cases hused

/-- The keys of a cache are the ones used last, as many as it has room for, the latest in front. -/
theorem Run.keys_eq (h : Run n history c) (hno : Undisturbed history) :
    ByRecency.keys c.entries = (latest (history.filterMap (·.used?))).take c.capacity := by
  induction h with
  | nil => exact List.take_nil.symm
  | @cons history c c' e hrun hs ih =>
    have ih := ih fun e' he' => hno e' (.tail _ he')
    obtain ⟨hentries, hcapacity⟩ := hs.values
    rw [hentries, hcapacity]
    cases hused : e.used? with
    | none => rw [valuesAfter_of_unused c hused (hno e (.head _)), List.filterMap_cons_none hused, ih]
    | some key =>
      rw [keys_valuesAfter_of_used ih hs hused, List.filterMap_cons_some hused]

theorem peek_eq_none_iff {key : CacheKey} : c.peek key = none ↔ key ∉ ByRecency.keys c.entries :=
  ByRecency.get?_eq_none_iff

/-- Eviction is least recently used. In a run without invalidation the keys that have values are the
ones used last, the latest in front: a key that was used still has its value just if fewer other keys
have been used since than there is room for, and one that was never used has none. Whatever else
happens, as when a request joins a flight, fails or is given up, leaves all values where they are. A
peek is no event: it does not change the cache. -/
theorem Run.leastRecentlyUsed (h : Run n history c) (hno : Undisturbed history) :
    ByRecency.keys c.entries = (latest (history.filterMap (·.used?))).take (max 1 n) ∧
    (∀ later e before key, history = later ++ e :: before → e.used? = some key →
      (∀ e' ∈ later, e'.used? ≠ some key) →
      ((c.peek key).isSome ↔ (later.filterMap (·.used?)).toFinset.card < max 1 n)) ∧
    (∀ key, (∀ e ∈ history, e.used? ≠ some key) → c.peek key = none) ∧
    (∀ e c', Step c e c' → e.used? = none → (∀ schemaId, ¬ e.Invalidates schemaId) →
      c'.entries = c.entries) := by
  have hkeys := h.keys_eq hno
  rw [h.orderly.capacity] at hkeys
  refine ⟨hkeys, ?_, fun key hunused => ?_, fun e c' hs hused he => ?_⟩
  · rintro later e before key rfl hused hlast
    have hnot : key ∉ later.filterMap (·.used?) := by
      intro hmem
      obtain ⟨e', he', hused'⟩ := List.mem_filterMap.1 hmem
      exact hlast e' he' hused'
    rw [List.filterMap_append, List.filterMap_cons_some hused] at hkeys
    rw [← ByRecency.mem_take_latest hnot, ← hkeys, ← Option.ne_none_iff_isSome, ne_eq,
      peek_eq_none_iff, not_not]
  · rw [peek_eq_none_iff, hkeys]
    intro hmem
    obtain ⟨e, he, hused⟩ :=
      List.mem_filterMap.1 (ByRecency.mem_latest.1 (List.mem_of_mem_take hmem))
    exact hunused e he hused
  · rw [hs.values.1, valuesAfter_of_unused c hused he]

/-- A key of a platform. -/
def keyFor (platform : String) : CacheKey := ⟨"brand", ⟨platform⟩, Blake3.start⟩

/-- A cache with as many values as it has room for. -/
def full : Cache String Nat :=
  ((Cache.ofCapacity 2).served (keyFor "css") 1).served (keyFor "vue") 2

/-- How they came there. -/
def fullHistory : List (Event String Nat) :=
  ((Cache.ofCapacity 2).served (keyFor "css") 1).servedEvents (keyFor "vue") 2 ++
    ((Cache.ofCapacity 2).servedEvents (keyFor "css") 1 ++ [])

/-- The cache after a request for the older one. -/
def reused : Cache String Nat := (full.enter (keyFor "css") (constant 7)).2

/-- When a third value comes the one that was asked for again stays, and the other one goes. -/
theorem Run.leastRecentlyUsed_reused :
    ∃ history, history = reused.servedEvents (keyFor "react") 3 ++
        .hit 2 (keyFor "css") 1 :: fullHistory ∧
      Run 2 history (reused.served (keyFor "react") 3) ∧ Undisturbed history ∧
      ((reused.served (keyFor "react") 3).peek (keyFor "css")).isSome ∧
      ¬ ((reused.served (keyFor "react") 3).peek (keyFor "vue")).isSome := by
  have hfull : Run 2 fullHistory full :=
    (Run.nil.served (keyFor "css") 1 rfl rfl).served (keyFor "vue") 2 rfl rfl
  have hhit : Run 2 (.hit 2 (keyFor "css") 1 :: fullHistory) reused := hfull.cons (.hit rfl)
  have hrun := hhit.served (keyFor "react") 3 rfl rfl
  have hno : Undisturbed (reused.servedEvents (keyFor "react") 3 ++
      .hit 2 (keyFor "css") 1 :: fullHistory) := by
    simp [Undisturbed, fullHistory, servedEvents, Event.Invalidates]
  obtain ⟨-, hlast, -⟩ := hrun.leastRecentlyUsed hno
  refine ⟨_, rfl, hrun, hno, (hlast _ _ _ (keyFor "css") rfl rfl ?_).2 ?_, ?_⟩
  · decide +kernel
  · decide +kernel
  · have hvue := hlast (reused.servedEvents (keyFor "react") 3 ++ [.hit 2 (keyFor "css") 1])
      _ _ (keyFor "vue") rfl rfl
    rw [hvue (by decide +kernel)]
    decide +kernel

end Cache

end DesignSystem

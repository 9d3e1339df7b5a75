import DesignSystem.Cache.Stats
import DesignSystem.Proofs.Cache.OneThread
import DesignSystem.Proofs.Cache.Orderly

/-!
# The counts of a cache add up

`Tallied n history t c`: a run of a cache for `n` values, with a tally `t` that somebody keeps beside
it who sees what is asked, begun and stored, and how many values each invalidation says that it gave
up. What the cache counts itself agrees with the tally.

* `Run.tallied`, `OneThread.tallied`: every run can be tallied, those on one thread included.
* `Balanced.step`: a step keeps the balance.
* `Tallied.addUp`: requests, flights and values are all accounted for.
-/

set_option autoImplicit false

namespace DesignSystem.Cache

variable {ε α : Type} {n : Nat} {history : List (Event ε α)} {c c' : Cache ε α} {e : Event ε α}

/-- What somebody counts who watches a cache. -/
structure Tally where
  requests : Nat := 0
  flights : Nat := 0
  /-- The values that were stored. -/
  stored : Nat := 0
  /-- The values that invalidations of schemas said they gave up. -/
  invalidated : Nat := 0
  /-- The values that there were when everything was given up. -/
  cleared : Nat := 0
  deriving DecidableEq

/-- The tally after an event in a cache. -/
def Tally.watch (t : Tally) (c : Cache ε α) : Event ε α → Tally
  | .hit .. | .joined .. => { t with requests := t.requests + 1 }
  | .began .. => { t with requests := t.requests + 1, flights := t.flights + 1 }
  | .returned _ _ _ (.ok _) true => { t with stored := t.stored + 1 }
  | .invalidated schemaId => { t with invalidated := t.invalidated + (c.invalidate schemaId).1 }
  | .cleared => { t with cleared := t.cleared + c.size }
  | _ => t

/-- A run of a cache for `n` values with its tally. -/
inductive Tallied (n : Nat) : List (Event ε α) → Tally → Cache ε α → Prop
  | nil : Tallied n [] {} (.ofCapacity n)
  | cons {history : List (Event ε α)} {t : Tally} {c c' : Cache ε α} {e : Event ε α} :
      Tallied n history t c → Step c e c' → Tallied n (e :: history) (t.watch c e) c'

theorem Tallied.run {t : Tally} (h : Tallied n history t c) : Run n history c := by
  induction h with
  | nil => exact .nil
  | cons _ hs ih => exact ih.cons hs

theorem Run.tallied (h : Run n history c) : ∃ t, Tallied n history t c := by
  induction h with
  | nil => exact ⟨_, .nil⟩
  | cons _ hs ih =>
    obtain ⟨t, ht⟩ := ih
    exact ⟨_, ht.cons hs⟩

/-- On one thread, too, whatever happens can be tallied: a turn is a row of steps. -/
theorem OneThread.tallied (h : OneThread n c) : ∃ history t, Tallied n history t c := by
  suffices hrun : ∃ history, Run n history c by
    obtain ⟨history, hrun⟩ := hrun
    exact ⟨history, hrun.tallied⟩
  induction h with
  | new => exact ⟨[], .nil⟩
  | turn hone ht ih =>
    obtain ⟨history, hrun⟩ := ih
    obtain ⟨later, hsteps⟩ := ht.steps hone.settled.1
    exact ⟨later ++ history, hrun.append hsteps⟩

/-! ## The balance -/

/-- What a cache counts agrees with a tally. -/
structure Balanced (t : Tally) (c : Cache ε α) : Prop where
  requests : c.hits + c.misses + c.coalesced = t.requests
  flights : c.misses = t.flights
  values : t.stored = c.entries.length + c.evictions + t.invalidated + t.cleared

/-- A value under a key that has none is one value more, or another one goes. -/
theorem Orderly.length_keep (h : Orderly n c) {key : CacheKey}
    (hkey : key ∉ ByRecency.keys c.entries) (v : α) :
    (c.keep key v).entries.length + (c.keep key v).evictions =
      c.entries.length + c.evictions + 1 := by
  have hsize := h.size
  simp only [keep, ByRecency.put, ByRecency.overflows, ByRecency.without_of_notMem hkey,
    List.length_take, List.length_cons, decide_eq_true_eq]
  split
  · omega
  · omega

theorem length_invalidate (c : Cache ε α) (schemaId : String) :
    (c.invalidate schemaId).2.entries.length + (c.invalidate schemaId).1 = c.entries.length := by
  have hparts := List.length_eq_countP_add_countP (fun v : CacheKey × α => v.1.schemaId = schemaId)
    (l := c.entries)
  simp only [invalidate, ← List.countP_eq_length_filter, ne_eq, decide_not,
    Bool.decide_eq_true] at hparts ⊢
  omega

theorem Balanced.collect {t : Tally} (h : Balanced t c) (ho : Orderly n c) {f : Flight ε α}
    (hf : f ∈ c.flights) (id : CallerId) (outcome : Except ε α) :
    Balanced (t.watch c (.returned id f.id f.key outcome (f.joinable && outcome.isOk)))
      (c.collect f id outcome) := by
  obtain ⟨hrequests, hflights, hvalues⟩ := h
  unfold Cache.collect
  cases outcome with
  | error _ => exact ⟨hrequests, hflights, hvalues⟩
  | ok v =>
    cases hj : f.joinable with
    | false => exact ⟨hrequests, hflights, hvalues⟩
    | true =>
      have hkeep := ho.length_keep (ho.apart f hf hj) v
      refine ⟨hrequests, hflights, ?_⟩
      change t.stored + 1 = (c.keep f.key v).entries.length + (c.keep f.key v).evictions +
        t.invalidated + t.cleared
      omega

theorem Balanced.step {t : Tally} (h : Balanced t c) (ho : Orderly n c) (hs : Step c e c') :
    Balanced (t.watch c e) c' := by
  have ⟨hrequests, hflights, hvalues⟩ := h
  cases hs with
  | hit hget =>
    rw [enter_hit hget]
    refine ⟨?_, hflights, ?_⟩
    · simp only [Tally.watch]
      omega
    · simp only [Tally.watch, ByRecency.length_touch ho.distinct hget]
      exact hvalues
  | begin hget hnone =>
    rw [enter_begin hget hnone]
    refine ⟨?_, congrArg (· + 1) hflights, hvalues⟩
    simp only [Tally.watch]
    omega
  | join hget hsome =>
    rw [enter_join hget hsome]
    refine ⟨?_, hflights, hvalues⟩
    simp only [Tally.watch, adjust]
    omega
  | collect hh => exact h.collect ho hh.1 _ _
  | invalidate schemaId =>
    have hlength := length_invalidate c schemaId
    refine ⟨hrequests, hflights, ?_⟩
    change t.stored = (c.invalidate schemaId).2.entries.length + c.evictions +
      (t.invalidated + (c.invalidate schemaId).1) + t.cleared
    omega
  | clear =>
    refine ⟨hrequests, hflights, ?_⟩
    simp only [Tally.watch, clear, List.length_nil, size]
    omega
  | _ => exact ⟨hrequests, hflights, hvalues⟩

theorem Tallied.balanced {t : Tally} (h : Tallied n history t c) : Balanced t c := by
  induction h with
  | nil => exact ⟨rfl, rfl, rfl⟩
  | cons ht hs ih => exact ih.step ht.run.orderly hs

/-- The counts of a cache add up, on one thread as on several: each request was a hit, a miss or
joined a flight; a miss is a flight that was begun; each value that was stored is still there, had to
make room, or was given up by an invalidation, which said so, or when all were; and the size that is
reported is the number of values. -/
theorem Tallied.addUp {t : Tally} (h : Tallied n history t c) :
    c.stats.hits + c.stats.misses + c.stats.coalesced = t.requests ∧
    c.stats.misses = t.flights ∧
    t.stored = c.entries.length + c.stats.evictions + t.invalidated + t.cleared ∧
    c.stats.size = c.entries.length :=
  ⟨h.balanced.requests, h.balanced.flights, h.balanced.values, rfl⟩

theorem Tallied.served {history : List (Event String Nat)} {c : Cache String Nat} {t : Tally}
    (h : Tallied n history t c) (key : CacheKey) (v : Nat) (hidle : c.flights = [])
    (hget : c.entries.get? key = none) :
    Tallied n (c.servedEvents key v ++ history)
      { t with requests := t.requests + 1, flights := t.flights + 1, stored := t.stored + 1 }
      (c.served key v) := by
  obtain ⟨_, hbegin, hstart, hend, hreturn⟩ := steps_served key v hidle hget
  exact (((h.cons hbegin).cons hstart).cons hend).cons hreturn

/-- A value is stored and everything given up, another one has to make room for a third, which is
found once and then given up for its schema, while two requests share a flight. -/
theorem Tallied.addUp_invalidated : ∃ (history : List (Event String Nat)) (t : Tally)
    (c : Cache String Nat), Tallied 1 history t c ∧
      t = { requests := 6, flights := 4, stored := 3, invalidated := 1, cleared := 1 } ∧
      c.stats.hits + c.stats.misses + c.stats.coalesced = 6 ∧ c.stats.misses = 4 ∧
      3 = c.entries.length + c.stats.evictions + 1 + 1 ∧ c.stats.size = c.entries.length := by
  have hcleared := ((@Tallied.nil _ _ 1).served brandKey 1 rfl rfl).cons .clear
  have hfull := (hcleared.served otherKey 2 rfl rfl).served brandKey 3 rfl rfl
  have hhit := hfull.cons (@Step.hit _ _ _ brandKey (constant 4) _ rfl)
  have hbegun := hhit.cons (@Step.begin _ _ _ otherKey (constant 5) rfl rfl)
  have hjoined := hbegun.cons (@Step.join _ _ _ otherKey (constant 6) _ rfl rfl)
  have h := hjoined.cons (Step.invalidate "brand")
  exact ⟨_, _, _, h, rfl, h.addUp⟩

end DesignSystem.Cache

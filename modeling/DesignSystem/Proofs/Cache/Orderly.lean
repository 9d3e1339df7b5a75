import DesignSystem.Proofs.Cache.Recency
import DesignSystem.Proofs.Cache.Vacancy

/-!
# Values and flights stay apart

`Orderly n c`: the values fit the capacity, each under a key of its own, no flight that can be joined
is for a key that has a value, and no two of them are for one key. Every run keeps this, on any
number of threads: a value is kept at the same go as its flight is detached.

* `Step.values`: the values after a step, by its event.
* `Orderly.apart_of_stores`: a value is stored for a key that nobody can join a flight for any more.
* `Run.orderly`: values and flights stay apart in every run.
-/

set_option autoImplicit false

namespace DesignSystem.Cache

variable {ε α : Type} {n : Nat} {history : List (Event ε α)} {c c' : Cache ε α} {e : Event ε α}

/-- The values after an event: a hit moves one to the front, a caller that returns may put one there,
and invalidation gives some up. Nothing else changes them. -/
def valuesAfter (c : Cache ε α) : Event ε α → ByRecency CacheKey α
  | .hit _ key _ => c.entries.touch key
  | .returned _ _ key (.ok v) true => c.entries.put c.capacity key v
  | .invalidated schemaId => c.entries.filter (·.1.schemaId ≠ schemaId)
  | .cleared => []
  | _ => c.entries

theorem Step.values (hs : Step c e c') :
    c'.entries = c.valuesAfter e ∧ c'.capacity = c.capacity := by
  cases hs with
  | hit hget =>
    rw [enter_hit hget]
    exact ⟨rfl, rfl⟩
  | begin hget hnone =>
    rw [enter_begin hget hnone]
    exact ⟨rfl, rfl⟩
  | join hget hsome =>
    rw [enter_join hget hsome]
    exact ⟨rfl, rfl⟩
  | @collect f a outcome =>
    unfold Cache.collect
    cases outcome with
    | error _ => exact ⟨rfl, rfl⟩
    | ok v => cases f.joinable <;> exact ⟨rfl, rfl⟩
  | _ => exact ⟨rfl, rfl⟩

/-- What holds of the values of a cache for `n` values, and of the flights that can be joined. -/
structure Orderly (n : Nat) (c : Cache ε α) : Prop where
  capacity : c.capacity = max 1 n
  size : c.entries.length ≤ c.capacity
  distinct : (ByRecency.keys c.entries).Nodup
  apart : ∀ f ∈ c.flights, f.joinable → f.key ∉ ByRecency.keys c.entries
  single : ∀ f ∈ c.flights, ∀ g ∈ c.flights, f.joinable → g.joinable → f.key = g.key → f.id = g.id

theorem mem_keys_iff {l : ByRecency CacheKey α} {key : CacheKey} :
    key ∈ ByRecency.keys l ↔ ∃ v, (key, v) ∈ l := by
  simp [ByRecency.keys]

/-- A flight that can be joined after a step could be joined before, or was begun for a key without
value or flight. -/
theorem Inv.joinable_origin (h : Inv history c) (hs : Step c e c') {g : Flight ε α}
    (hg : g ∈ c'.flights) (hj : g.joinable) :
    (∃ f ∈ c.flights, f.joinable ∧ g.id = f.id ∧ g.key = f.key) ∨
      c.Vacant g.key ∧ ∃ computation, e = .began g.id g.key computation := by
  rcases hs.flights h.ids hg with ⟨hg, -⟩ | ⟨f, hf, hch⟩ | ⟨key, computation, rfl, hnone, rfl⟩
  · exact .inl ⟨g, hg, hj, rfl, rfl⟩
  · exact .inl ⟨f, hf, hch.joinable hj, hch.continues.id, hch.continues.key⟩
  · cases hs with
    | begin hget _ => exact .inr ⟨⟨hget, hnone⟩, computation, rfl⟩

/-- Nobody joins a flight any more from which a caller has returned. -/
theorem Step.joinable_of_returned {id : CallerId} {slot : FlightId} {key : CacheKey}
    {outcome : Except ε α} {kept : Bool} (hs : Step c (.returned id slot key outcome kept) c')
    {g : Flight ε α} (hg : g ∈ c'.flights) (hid : g.id = slot) : g.joinable = false := by
  cases hs with
  | collect =>
    rw [collect_flights] at hg
    rcases mem_flights_adjust hg with ⟨-, hne⟩ | ⟨_, -, -, rfl⟩
    · exact absurd hid hne
    · rfl

namespace Orderly

theorem size_valuesAfter (h : Orderly n c) (e : Event ε α) :
    (c.valuesAfter e).length ≤ c.capacity := by
  unfold valuesAfter
  split
  · exact Nat.le_trans (ByRecency.length_touch_le h.distinct _) h.size
  · exact ByRecency.length_put_le _ _ _ _
  · exact Nat.le_trans (List.length_filter_le _ _) h.size
  · exact Nat.zero_le _
  · exact h.size

theorem distinct_valuesAfter (h : Orderly n c) (e : Event ε α) :
    (ByRecency.keys (c.valuesAfter e)).Nodup := by
  unfold valuesAfter
  split
  · exact ByRecency.nodup_keys_touch h.distinct _
  · exact ByRecency.nodup_keys_put h.distinct _ _ _
  · exact h.distinct.sublist (List.filter_sublist.map _)
  · exact List.nodup_nil
  · exact h.distinct

/-- A value that is stored belongs to no flight that can still be joined. -/
theorem apart_of_stores (h : Orderly n c) (hi : Inv history c) (hs : Step c e c') {slot : FlightId}
    {key : CacheKey} {v : α} (hst : e.Stores slot key v) {g : Flight ε α} (hg : g ∈ c'.flights)
    (hj : g.joinable) : g.key ≠ key := by
  rintro rfl
  cases hst with
  | returned =>
    obtain ⟨f, a, hh, -, rfl, hkey, -, hkept⟩ := hs.returned
    simp only [Bool.true_eq, Bool.and_eq_true] at hkept
    rcases hi.joinable_origin hs hg hj with ⟨f', hf', hj', hid, hkey'⟩ | ⟨-, computation, he⟩
    · have hsame := h.single f' hf' f hh.1 hj' hkept.1 (hkey'.symm.trans hkey.symm)
      rw [hs.joinable_of_returned hg (hid.trans hsame)] at hj
      cases hj
    · cases he

theorem step (h : Orderly n c) (hi : Inv history c) (hs : Step c e c') : Orderly n c' := by
  obtain ⟨hentries, hcapacity⟩ := hs.values
  have horigin : ∀ g ∈ c'.flights, g.joinable → _ := fun g => hi.joinable_origin hs
  refine ⟨hcapacity.trans h.capacity, ?_, ?_, fun g hg hj hmem => ?_, ?_⟩
  · rw [hentries, hcapacity]
    exact h.size_valuesAfter e
  · rw [hentries]
    exact h.distinct_valuesAfter e
  · obtain ⟨v, hv⟩ := mem_keys_iff.1 hmem
    rcases hs.entries hv with hold | ⟨slot, hst⟩
    · rcases horigin g hg hj with ⟨f, hf, hjf, -, hkey⟩ | ⟨hvacant, -⟩
      · exact h.apart f hf hjf (hkey ▸ mem_keys_iff.2 ⟨v, hold⟩)
      · exact (vacant_iff.1 hvacant).1 v hold
    · exact h.apart_of_stores hi hs hst hg hj rfl
  · intro f hf g hg hjf hjg hkey
    rcases horigin f hf hjf with ⟨f₀, hf₀, hj₀, hid₀, hkey₀⟩ | ⟨hvacant, computation, he⟩
    · rcases horigin g hg hjg with ⟨g₀, hg₀, hj₁, hid₁, hkey₁⟩ | ⟨hvacant, -⟩
      · rw [hid₀, hid₁]
        exact h.single f₀ hf₀ g₀ hg₀ hj₀ hj₁ (by rw [← hkey₀, hkey, hkey₁])
      · exact absurd (hkey₀.symm.trans hkey) ((vacant_iff.1 hvacant).2 f₀ hf₀ hj₀)
    · rcases horigin g hg hjg with ⟨g₀, hg₀, hj₁, -, hkey₁⟩ | ⟨-, computation', he'⟩
      · exact absurd (hkey₁.symm.trans hkey.symm) ((vacant_iff.1 hvacant).2 g₀ hg₀ hj₁)
      · exact (Event.began.inj (he.symm.trans he')).1

end Orderly

/-- Values and flights stay apart in every run. -/
theorem Run.orderly (h : Run n history c) : Orderly n c := by
  induction h with
  | nil => exact ⟨rfl, Nat.zero_le _, List.nodup_nil, nofun, nofun⟩
  | cons hrun hs ih => exact ih.step hrun.inv hs

/-! ## A request by itself -/

section
variable (c : Cache String Nat) (key : CacheKey) (v : Nat)

/-- The flight of a request with nobody else on board. -/
def ownFlight (stage : CallerStage) (outcome : Option (Except String Nat)) : Flight String Nat :=
  { id := c.requests, key, outcome, callers := [⟨c.requests, constant v, stage⟩] }

/-- A cache without other flights while such a request computes its value. -/
def computing (outcome : Option (Except String Nat)) : Cache String Nat :=
  { c with
    misses := c.misses + 1, started := key :: c.started
    flights := [c.ownFlight key v (.running (c.started.length + 1)) outcome] }

/-- The cache after the request has stored its value. -/
def served : Cache String Nat :=
  { c.keep key v with misses := c.misses + 1, started := key :: c.started, flights := [] }

/-- What happened until then. -/
def servedEvents : List (Event String Nat) :=
  [.returned c.requests c.requests key (.ok v) true,
    .ended c.requests c.requests (c.started.length + 1) (.ok v),
    .started c.requests c.requests (c.started.length + 1), .began c.requests key (constant v)]

variable {c}

/-- Such a request takes four steps. -/
theorem steps_served (hidle : c.flights = []) (hget : c.entries.get? key = none) : ∃ c',
    Step c (.began c.requests key (constant v)) c' ∧
    Step c' (.started c.requests c.requests (c.started.length + 1)) (c.computing key v none) ∧
    Step (c.computing key v none) (.ended c.requests c.requests (c.started.length + 1) (.ok v))
      (c.computing key v (some (.ok v))) ∧
    Step (c.computing key v (some (.ok v))) (.returned c.requests c.requests key (.ok v) true)
      (c.served key v) := by
  have hnone : c.flightFor? key = none := by simp [flightFor?, hidle]
  have hbegin : Step c (.began c.requests key (constant v)) _ := .begin hget hnone
  rw [enter_begin hget hnone, hidle] at hbegin
  refine ⟨_, hbegin, ?_, ?_, ?_⟩
  · have hstart := Step.start (f := c.newFlight key (constant v))
      (a := ⟨c.requests, constant v, .waiting⟩)
      (c := { c with misses := c.misses + 1, flights := [c.newFlight key (constant v)] })
      ⟨.head _, .head _⟩ rfl rfl rfl
    simpa [start, adjust, computing, ownFlight, newFlight, Flight.update, Flight.isKept,
      Caller.withStage] using hstart
  · have hend := Step.conclude (c := c.computing key v none)
      (a := ⟨c.requests, constant v, .running (c.started.length + 1)⟩)
      ⟨.head _, .head _⟩ rfl rfl rfl
    simpa [conclude, adjust, computing, ownFlight, constant, Flight.isKept] using hend
  · have hended : (c.ownFlight key v (.running (c.started.length + 1)) (some (.ok v))).outcome =
        some (.ok v) := rfl
    have hreturn := Step.collect (c := c.computing key v (some (.ok v)))
      (a := ⟨c.requests, constant v, .running (c.started.length + 1)⟩) ⟨.head _, .head _⟩ rfl hended
    have hempty : ((c.computing key v (some (.ok v))).adjust c.requests
        fun g => (g.leave c.requests).detach).flights = [] := by
      simp [adjust, computing, ownFlight, Flight.isKept, Flight.leave, Flight.detach]
    have hserved : (c.computing key v (some (.ok v))).collect
        (c.ownFlight key v (.running (c.started.length + 1)) (some (.ok v))) c.requests (.ok v) =
        c.served key v :=
      congrArg (fun flights => { c.keep key v with
        misses := c.misses + 1, started := key :: c.started, flights }) hempty
    rw [← hserved]
    exact hreturn

theorem Run.served {n : Nat} {history : List (Event String Nat)} (h : Run n history c)
    (hidle : c.flights = []) (hget : c.entries.get? key = none) :
    Run n (c.servedEvents key v ++ history) (c.served key v) := by
  obtain ⟨_, hbegin, hstart, hend, hreturn⟩ := steps_served key v hidle hget
  exact (((h.cons hbegin).cons hstart).cons hend).cons hreturn

end

end DesignSystem.Cache

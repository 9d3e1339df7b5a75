import DesignSystem.Proofs.Cache.Invariant

/-!
# One computation for all callers, and no stale values

* `Run.singleFlight`: two computations of one key run at a time only if the older flight was
  invalidated before the younger one was begun; what a caller is given belongs to its key; and the
  callers of a flight are all given the same.
* `Run.stores`: what is kept for a key is the value that a computation for this key ended with, and
  since its flight was begun nothing has invalidated it. In particular, a flight that was there when
  its schema was invalidated never stores anything after that.
-/

set_option autoImplicit false

namespace DesignSystem.Cache

variable {ε α : Type}

/-- A caller of a flight runs its computation of the value of a key. -/
def Runs (c : Cache ε α) (key : CacheKey) (slot : FlightId) (id : CallerId) : Prop :=
  ∃ f a, c.Holds f a ∧ f.key = key ∧ f.id = slot ∧ a.id = id ∧ a.stage.isRunning ∧ f.outcome = none

/-- The computation with which a caller came on board of a flight for a key was run to its end, as
the one with the given number. -/
def Computed (history : List (Event ε α)) (slot : FlightId) (key : CacheKey)
    (outcome : Except ε α) : Prop :=
  ∃ id number computation, (∃ e ∈ history, e.Boards id slot key computation) ∧
    .started id slot number ∈ history ∧ .ended id slot number outcome ∈ history ∧
    computation.outcome number = outcome

namespace Inv

variable {history : List (Event ε α)} {c c' : Cache ε α} {e : Event ε α}

theorem eq_of_boards (h : Inv history c) {e e' : Event ε α} (he : e ∈ history) (he' : e' ∈ history)
    {id id' : CallerId} {slot : FlightId} {key key' : CacheKey}
    {computation computation' : Computation ε α} (hb : e.Boards id slot key computation)
    (hb' : e'.Boards id' slot key' computation') : key = key' := by
  obtain ⟨_, hbegan⟩ := h.boarded e he _ _ _ _ hb
  obtain ⟨_, hbegan'⟩ := h.boarded e' he' _ _ _ _ hb'
  exact h.eq_of_began hbegan hbegan'

theorem slot_eq_of_boards (h : Inv history c) {e e' : Event ε α} (he : e ∈ history)
    (he' : e' ∈ history) {id : CallerId} {slot slot' : FlightId} {key key' : CacheKey}
    {computation computation' : Computation ε α} (hb : e.Boards id slot key computation)
    (hb' : e'.Boards id slot' key' computation') : slot = slot' := by
  obtain rfl := h.eq_of_asker he he' (Event.asker_of_boards hb) (Event.asker_of_boards hb')
  cases hb with
  | began hid =>
    cases hb' with
    | began hid' => rw [hid, hid']
  | joined =>
    cases hb'
    rfl

theorem computed (h : Inv history c) {id : CallerId} {slot : FlightId} {key : CacheKey}
    {outcome : Except ε α} (hended : ∃ id n, .ended id slot n outcome ∈ history)
    (hb : ∃ e ∈ history, ∃ computation, e.Boards id slot key computation) :
    Computed history slot key outcome := by
  obtain ⟨id', n, hmem⟩ := hended
  obtain ⟨e, he, computation, hb⟩ := hb
  obtain ⟨hst, e', he', key', computation', hb', hc⟩ := h.ended _ _ _ _ hmem
  obtain rfl := h.eq_of_boards he he' hb hb'
  exact ⟨id', n, computation', ⟨e', he', hb'⟩, hst, hmem, hc⟩

end Inv

/-! ## Single flight -/

/-- Of two computations for a key that run at a time the flight of one was invalidated before that
of the other was begun. -/
theorem Inv.alone {history : List (Event ε α)} {c : Cache ε α} (h : Inv history c) {key : CacheKey}
    {slot slot' : FlightId} {id id' : CallerId} (hr : c.Runs key slot id)
    (hr' : c.Runs key slot' id') (hle : slot ≤ slot') :
    (slot = slot' ∧ id = id') ∨ StaleBefore history slot slot' key := by
  obtain ⟨f, a, ⟨hf, ha⟩, rfl, rfl, rfl, har, hfo⟩ := hr
  obtain ⟨g, b, ⟨hg, hb⟩, hkey, rfl, rfl, hbr, -⟩ := hr'
  rcases Nat.lt_or_eq_of_le hle with hlt | heq
  · right
    rcases h.older f hf g hg hkey.symm hlt hfo with hsp | hst
    · -- the callers of the older one are gone
      rw [hsp.2 a ha] at har
      cases har
    · exact hst
  · obtain rfl := eq_of_id_eq h.ids hf hg heq
    exact .inl ⟨rfl, (h.flights f hf).runner a ha b hb har hbr⟩

/-- A caller is given what is kept for its key, or the outcome of its flight. -/
theorem Inv.answered {history : List (Event ε α)} {c c' : Cache ε α} {e : Event ε α}
    (h : Inv history c) (hs : Step c e c') {id : CallerId} {key : CacheKey}
    {outcome : Except ε α} (ha : e.Answers id key outcome) :
    (∃ v, outcome = .ok v ∧ c.peek key = some v) ∨
    ∃ slot, (∃ b ∈ history, ∃ computation, b.Boards id slot key computation) ∧
      Computed history slot key outcome := by
  cases ha with
  | hit =>
    cases hs with
    | hit hv => exact .inl ⟨_, rfl, hv⟩
  | returned =>
    cases hs with
    | collect hh _ ho =>
      have hok := h.flights _ hh.1
      obtain ⟨b, hb, computation, hboards, -⟩ := hok.boards _ hh.2
      have hon : ∃ b ∈ history, ∃ computation, b.Boards _ _ _ computation :=
        ⟨b, hb, computation, hboards⟩
      exact .inr ⟨_, hon, h.computed ((hok.ended _).1 ho) hon⟩

theorem Inv.ended_of_answers {history : List (Event ε α)} {c : Cache ε α} (h : Inv history c)
    {b e : Event ε α} (hb : b ∈ history) (he : e ∈ history) {id : CallerId} {slot : FlightId}
    {key key' : CacheKey} {computation : Computation ε α} {outcome : Except ε α}
    (hboards : b.Boards id slot key computation) (ha : e.Answers id key' outcome) :
    ∃ id' n, .ended id' slot n outcome ∈ history := by
  cases ha with
  | hit =>
    -- it asked but once, and did not find a value then
    obtain rfl := h.eq_of_asker hb he (Event.asker_of_boards hboards) rfl
    cases hboards
  | returned =>
    obtain ⟨⟨b', hb', computation', hboards'⟩, hended⟩ := h.returned _ _ _ _ _ he
    obtain rfl := h.slot_eq_of_boards hb hb' hboards hboards'
    exact hended

/-- A caller returns with an outcome for the key that it asked for. -/
theorem Inv.key_eq_of_answers {history : List (Event ε α)} {c : Cache ε α} (h : Inv history c)
    {b e : Event ε α} (hb : b ∈ history) (he : e ∈ history) {id : CallerId} {key key' : CacheKey}
    {computation : Computation ε α} {outcome : Except ε α} (hasks : b.Asks id key computation)
    (ha : e.Answers id key' outcome) : key = key' := by
  cases ha with
  | hit =>
    obtain rfl := h.eq_of_asker hb he (Event.asker_of_asks hasks) rfl
    cases hasks
    rfl
  | returned =>
    obtain ⟨⟨b', hb', computation', hboards⟩, -⟩ := h.returned _ _ _ _ _ he
    obtain rfl := h.eq_of_asker hb hb' (Event.asker_of_asks hasks) (Event.asker_of_boards hboards)
    exact (Event.eq_of_asks_of_boards hasks hboards).1

theorem Computed.append {history : List (Event ε α)} {slot : FlightId} {key : CacheKey}
    {outcome : Except ε α} (h : Computed history slot key outcome) (later : List (Event ε α)) :
    Computed (later ++ history) slot key outcome := by
  obtain ⟨id, number, computation, ⟨e, he, hb⟩, hst, hend, hc⟩ := h
  exact ⟨id, number, computation, ⟨e, List.mem_append_right _ he, hb⟩,
    List.mem_append_right _ hst, List.mem_append_right _ hend, hc⟩

/-- What a caller returned with was computed for its key. -/
theorem Run.computed_of_answers {n : Nat} {history : List (Event ε α)} {c : Cache ε α}
    (h : Run n history c) {e : Event ε α} (he : e ∈ history) {id : CallerId} {key : CacheKey}
    {outcome : Except ε α} (ha : e.Answers id key outcome) :
    ∃ slot, Computed history slot key outcome := by
  obtain ⟨later, before, rfl⟩ := List.append_of_mem he
  obtain ⟨c₀, c₁, hrun, hs⟩ := h.of_append
  suffices hbefore : ∃ slot, Computed before slot key outcome by
    obtain ⟨slot, hc⟩ := hbefore
    exact ⟨slot, (hc.append [e]).append later⟩
  rcases hrun.inv.answered hs ha with ⟨v, rfl, hv⟩ | ⟨slot, -, hc⟩
  · -- a value that is kept was stored before
    have hmem : (key, v) ∈ c₀.entries := get?_mem hv
    obtain ⟨slot, e', he', hst⟩ := hrun.inv.entries _ _ hmem
    cases hst with
    | returned =>
      obtain ⟨⟨b, hb, computation, hboards⟩, hended⟩ := hrun.inv.returned _ _ _ _ _ he'
      exact ⟨slot, hrun.inv.computed hended ⟨b, hb, computation, hboards⟩⟩
  · exact ⟨slot, hc⟩

/-- Single flight. Two computations for a key run at a time only if something invalidated the older
flight before the younger one was begun. A caller is given what is kept for its key, or the outcome
of a computation for its key. Callers of one flight are given the same. -/
theorem Run.singleFlight {n : Nat} {history : List (Event ε α)} {c : Cache ε α}
    (h : Run n history c) :
    (∀ key slot slot' id id', c.Runs key slot id → c.Runs key slot' id' → slot ≤ slot' →
      (slot = slot' ∧ id = id') ∨ StaleBefore history slot slot' key) ∧
    (∀ e c' id key outcome, Step c e c' → e.Answers id key outcome →
      (∃ v, outcome = .ok v ∧ c.peek key = some v) ∨
      ∃ slot, (∃ b ∈ history, ∃ computation, b.Boards id slot key computation) ∧
        Computed history slot key outcome) ∧
    (∀ b ∈ history, ∀ b' ∈ history, ∀ id id' slot key key' computation computation',
      b.Boards id slot key computation → b'.Boards id' slot key' computation' →
      ∀ e ∈ history, ∀ e' ∈ history, ∀ outcome outcome',
      e.Answers id key outcome → e'.Answers id' key' outcome' → outcome = outcome') := by
  refine ⟨fun _ _ _ _ _ => h.inv.alone, fun _ _ _ _ _ hs => h.inv.answered hs, ?_⟩
  intro b hb b' hb' id id' slot key key' computation computation' hboards hboards' e he e' he'
    outcome outcome' ha ha'
  obtain ⟨i, m, hmem⟩ := h.inv.ended_of_answers hb he hboards ha
  obtain ⟨i', m', hmem'⟩ := h.inv.ended_of_answers hb' he' hboards' ha'
  exact h.inv.endedOnce _ _ _ _ _ _ _ hmem hmem'

/-- A key of a schema `brand`. -/
def brandKey : CacheKey := ⟨"brand", ⟨"css"⟩, Blake3.start⟩

/-- A computation that ends at once with a value. -/
def constant (v : Nat) : Computation String Nat := ⟨0, fun _ => .ok v⟩

/-- A flight that was invalidated while its caller runs, and one that was begun after that. -/
def overtaken : Cache String Nat where
  capacity := 8
  flights := [
    { id := 0, key := brandKey, joinable := false, callers := [⟨0, constant 7, .running 1⟩] },
    { id := 1, key := brandKey, callers := [⟨1, constant 8, .running 2⟩] }]
  started := [brandKey, brandKey]
  misses := 2

/-- How the two flights come about. -/
def overtakenHistory : List (Event String Nat) :=
  [.started 1 1 2, .began 1 brandKey (constant 8), .invalidated "brand", .started 0 0 1,
    .began 0 brandKey (constant 7)]

theorem run_overtaken : Run 8 overtakenHistory overtaken := by
  have h₁ : Run 8 [.began 0 brandKey (constant 7)]
      ({ capacity := 8, misses := 1, flights := [
        { id := 0, key := brandKey, callers := [⟨0, constant 7, .waiting⟩] }] } : Cache String Nat) :=
    .cons .nil (.begin rfl rfl)
  have h₂ := h₁.cons (.start ⟨.head _, .head _⟩ rfl rfl rfl)
  have h₃ := h₂.cons (.invalidate "brand")
  have h₄ := h₃.cons (.begin rfl rfl : Step _ (.began 1 brandKey (constant 8)) _)
  have h₅ := h₄.cons (.start
    (f := { id := 1, key := brandKey, callers := [⟨1, constant 8, .waiting⟩] })
    ⟨.tail _ (.head _), .head _⟩ rfl rfl rfl)
  exact h₅

/-- Two computations of one key run, and the older flight is stale. -/
theorem Run.singleFlight_overtaken :
    Runs overtaken brandKey 0 0 ∧ Runs overtaken brandKey 1 1 ∧
      StaleBefore overtakenHistory 0 1 brandKey := by
  have hfirst : Runs overtaken brandKey 0 0 := ⟨_, _, ⟨.head _, .head _⟩, rfl, rfl, rfl, rfl, rfl⟩
  have hsecond : Runs overtaken brandKey 1 1 :=
    ⟨_, _, ⟨.tail _ (.head _), .head _⟩, rfl, rfl, rfl, rfl, rfl⟩
  have halone := run_overtaken.singleFlight.1 brandKey 0 1 0 1 hfirst hsecond (by decide)
  exact ⟨hfirst, hsecond, halone.resolve_left (by decide)⟩

/-! ## What is kept -/

theorem Inv.not_stale_of_fresh {history : List (Event ε α)} {c : Cache ε α} (h : Inv history c)
    {slot : FlightId} {key key' : CacheKey} (hf : FreshSince history slot key)
    (hs : StaleSince history slot key') : False := by
  obtain ⟨newer, older, computation, heq, hall⟩ := hf
  obtain ⟨newer', older', computation', heq', e, he, hinv⟩ := hs
  have hmem : .began slot key computation ∈ history := by
    rw [heq]
    exact List.mem_append_right _ List.mem_cons_self
  have hmem' : .began slot key' computation' ∈ history := by
    rw [heq']
    exact List.mem_append_right _ List.mem_cons_self
  obtain ⟨-, rfl, rfl⟩ := Event.began.inj (h.eq_of_asker hmem hmem' rfl rfl)
  -- the request that began the flight was one event
  have honce : slot ∉ newer.filterMap (·.asker?) ∧ slot ∉ older.filterMap (·.asker?) := by
    have hnodup : (history.filterMap (·.asker?)).Nodup := by
      rw [h.asked]
      exact List.nodup_reverse.2 List.nodup_range
    have hasker : (Event.began slot key computation).asker? = some slot := rfl
    rw [heq, List.filterMap_append, List.filterMap_cons_some hasker, List.nodup_middle,
      List.nodup_cons, List.mem_append] at hnodup
    exact not_or.1 hnodup.1
  have hnot : ∀ l : List (Event ε α), slot ∉ l.filterMap (·.asker?) →
      .began slot key computation ∉ l :=
    fun l hl hb => hl (List.mem_filterMap.2 ⟨_, hb, rfl⟩)
  obtain ⟨rfl, -, -⟩ :=
    (List.append_cons_inj_of_notMem (hnot _ honce.1) (hnot _ honce.2)).1 (heq.symm.trans heq')
  exact hall e he hinv

/-- A value that is stored was computed for its key, in a flight that nothing has invalidated. -/
theorem Inv.stored {history : List (Event ε α)} {c c' : Cache ε α} {e : Event ε α}
    (h : Inv history c) (hs : Step c e c') {slot : FlightId} {key : CacheKey} {v : α}
    (hst : e.Stores slot key v) :
    Computed history slot key (.ok v) ∧ FreshSince history slot key := by
  cases hst with
  | returned =>
    obtain ⟨f, a, hh, rfl, rfl, rfl, ho, hkept⟩ := hs.returned
    simp only [Bool.true_eq, Bool.and_eq_true] at hkept
    have hok := h.flights f hh.1
    obtain ⟨b, hb, computation, hboards, -⟩ := hok.boards a hh.2
    exact ⟨h.computed ((hok.ended _).1 ho) ⟨b, hb, computation, hboards⟩, hok.fresh hkept.1⟩

/-- Nothing stale, failed or unfinished is ever stored. What is stored for a key is the value that a
computation for this key ended with, in a flight that nothing invalidated from when it was begun to
when the value was stored; there are no other values; and a flight that was begun before something
invalidated it stores nothing afterwards. -/
theorem Run.stores {n : Nat} {history : List (Event ε α)} {c : Cache ε α} (h : Run n history c) :
    (∀ later e before slot key v, history = later ++ e :: before → e.Stores slot key v →
      Computed before slot key (.ok v) ∧ FreshSince before slot key) ∧
    (∀ e c' key v, Step c e c' → (key, v) ∈ c'.entries → (key, v) ∉ c.entries →
      ∃ slot, e.Stores slot key v) ∧
    (∀ key v, (key, v) ∈ c.entries → ∃ slot, ∃ e ∈ history, e.Stores slot key v) ∧
    (∀ later e before slot key computation, history = later ++ e :: before →
      .began slot key computation ∈ before → e.Invalidates key.schemaId →
      ∀ e' ∈ later, ∀ key' v, ¬ e'.Stores slot key' v) := by
  have hstores : ∀ later e before slot key v, history = later ++ e :: before →
      e.Stores slot key v → Computed before slot key (.ok v) ∧ FreshSince before slot key := by
    rintro later e before slot key v rfl hst
    obtain ⟨c₀, c₁, hrun, hs⟩ := h.of_append
    exact hrun.inv.stored hs hst
  refine ⟨hstores, fun e c' key v hs hv hnew => (hs.entries hv).resolve_left hnew, h.inv.entries, ?_⟩
  rintro later e before slot key computation rfl hb hinv e' he' key' v hst
  obtain ⟨newer, older, rfl⟩ := List.append_of_mem he'
  rw [List.append_assoc, List.cons_append] at h hstores
  obtain ⟨c₀, c₁, hrun, -⟩ := h.of_append
  have hstale : StaleSince (older ++ e :: before) slot key :=
    (StaleSince.of_began ⟨computation, hb⟩ hinv).append older
  exact hrun.inv.not_stale_of_fresh (hstores _ _ _ _ _ _ rfl hst).2 hstale

/-- The stale flight ends first and stores nothing; the other one then stores its value. -/
theorem Run.stores_overtaken : ∃ c : Cache String Nat,
    ∃ before, before = .returned 0 0 brandKey (.ok 7) false :: .ended 1 1 2 (.ok 8) ::
      .ended 0 0 1 (.ok 7) :: overtakenHistory ∧
    Run 8 (.returned 1 1 brandKey (.ok 8) true :: before) c ∧ c.peek brandKey = some 8 ∧
    Computed before 1 brandKey (.ok 8) ∧ FreshSince before 1 brandKey := by
  have h₁ := run_overtaken.cons (.conclude ⟨.head _, .head _⟩ rfl rfl rfl)
  have h₂ := h₁.cons (.conclude
    (f := { id := 1, key := brandKey, callers := [⟨1, constant 8, .running 2⟩] })
    ⟨.tail _ (.head _), .head _⟩ rfl rfl rfl)
  have h₃ := h₂.cons (.collect (a := ⟨0, constant 7, .running 1⟩) ⟨.head _, .head _⟩ rfl rfl)
  have h₄ := h₃.cons (.collect (a := ⟨1, constant 8, .running 2⟩) ⟨.head _, .head _⟩ rfl rfl)
  have hstored := h₄.stores.1 [] _ _ 1 brandKey 8 rfl .returned
  exact ⟨_, _, rfl, h₄, rfl, hstored⟩

end DesignSystem.Cache

import DesignSystem.Proofs.Cache.Step
import Mathlib.Data.List.Pairwise

/-!
# The invariant of a run

`FlightInv history f`: what holds of a flight `f` in the middle of a run. Its callers came on board
for its key, at most one of them runs its computation, its outcome is that of a computation that
ran to its end, and if it can still be joined nothing has invalidated it since it was begun.

`Inv history c`: this holds of all flights, requests are numbered one after the other, and of two
flights for one key the older one has ended or was given up before the younger one was begun.

* `FlightInv.changes`: a step that changes a flight keeps its invariant.
* `Run.inv`: every run keeps the invariant.
-/

set_option autoImplicit false

namespace DesignSystem.Cache

variable {ε α : Type}

/-- Since a flight was begun nothing has invalidated it. -/
def FreshSince (history : List (Event ε α)) (slot : FlightId) (key : CacheKey) : Prop :=
  ∃ newer older computation, history = newer ++ .began slot key computation :: older ∧
    ∀ e ∈ newer, ¬ e.Invalidates key.schemaId

/-- Since a flight was begun something has invalidated it. -/
def StaleSince (history : List (Event ε α)) (slot : FlightId) (key : CacheKey) : Prop :=
  ∃ newer older computation, history = newer ++ .began slot key computation :: older ∧
    ∃ e ∈ newer, e.Invalidates key.schemaId

/-- After a flight was begun, and before another one for its key was, something invalidated it. -/
def StaleBefore (history : List (Event ε α)) (slot slot' : FlightId) (key : CacheKey) : Prop :=
  ∃ newer older computation, history = newer ++ .began slot' key computation :: older ∧
    StaleSince older slot key

/-- Nobody joins a flight any more, and all its callers have given it up. -/
def IsSpent (f : Flight ε α) : Prop := f.joinable = false ∧ ∀ a ∈ f.callers, a.stage = .released

/-- What holds of a flight after a history. -/
structure FlightInv (history : List (Event ε α)) (f : Flight ε α) : Prop where
  began : ∃ computation, .began f.id f.key computation ∈ history
  boards : ∀ a ∈ f.callers, ∃ e ∈ history, ∃ computation, e.Boards a.id f.id f.key computation ∧
    computation.outcome = a.computation.outcome
  nodup : (f.callers.map (·.id)).Nodup
  runner : ∀ a ∈ f.callers, ∀ b ∈ f.callers, a.stage.isRunning → b.stage.isRunning → a.id = b.id
  number : ∀ a ∈ f.callers, ∀ n, a.stage = .running n → .started a.id f.id n ∈ history
  ended : ∀ outcome, f.outcome = some outcome ↔ ∃ id n, .ended id f.id n outcome ∈ history
  fresh : f.joinable = true → FreshSince history f.id f.key
  stale : f.joinable = false → f.outcome = none → IsSpent f ∨ StaleSince history f.id f.key

/-! ## One flight -/

section

variable {history : List (Event ε α)} {slot slot' : FlightId} {key : CacheKey} {e : Event ε α}

theorem FreshSince.cons (h : FreshSince history slot key) (he : ¬ e.Invalidates key.schemaId) :
    FreshSince (e :: history) slot key := by
  obtain ⟨newer, older, computation, rfl, hall⟩ := h
  refine ⟨e :: newer, older, computation, rfl, fun e' he' => ?_⟩
  rcases List.mem_cons.1 he' with rfl | he'
  · exact he
  · exact hall e' he'

theorem StaleSince.append (h : StaleSince history slot key) (later : List (Event ε α)) :
    StaleSince (later ++ history) slot key := by
  obtain ⟨newer, older, computation, rfl, e', he', hinv⟩ := h
  exact ⟨later ++ newer, older, computation, (List.append_assoc ..).symm, e',
    List.mem_append_right _ he', hinv⟩

theorem StaleSince.cons (h : StaleSince history slot key) : StaleSince (e :: history) slot key :=
  h.append [e]

/-- An event that invalidates a flight makes it stale. -/
theorem StaleSince.of_began (h : ∃ computation, .began slot key computation ∈ history)
    (he : e.Invalidates key.schemaId) : StaleSince (e :: history) slot key := by
  obtain ⟨computation, hb⟩ := h
  obtain ⟨newer, older, rfl⟩ := List.append_of_mem hb
  exact ⟨e :: newer, older, computation, rfl, e, List.mem_cons_self, he⟩

theorem StaleBefore.cons (h : StaleBefore history slot slot' key) :
    StaleBefore (e :: history) slot slot' key := by
  obtain ⟨newer, older, computation, rfl, hs⟩ := h
  exact ⟨e :: newer, older, computation, rfl, hs⟩

end

namespace FlightInv

variable {history : List (Event ε α)} {f : Flight ε α} {e : Event ε α}

/-- An event that does not end a flight, but may bring it to an end that further callers come. -/
theorem cons_joinable (h : FlightInv history f)
    (he : ∀ id number outcome, e ≠ .ended id f.id number outcome) (j : Bool)
    (hfresh : j = true → FreshSince (e :: history) f.id f.key)
    (hstale : j = false → f.outcome = none →
      (∀ a ∈ f.callers, a.stage = .released) ∨ StaleSince (e :: history) f.id f.key) :
    FlightInv (e :: history) { f with joinable := j } where
  began := h.began.imp fun _ hb => .tail _ hb
  boards a ha := (h.boards a ha).imp fun _ hb => ⟨.tail _ hb.1, hb.2⟩
  nodup := h.nodup
  runner := h.runner
  number a ha n hn := .tail _ (h.number a ha n hn)
  ended outcome := by
    rw [h.ended outcome]
    refine exists_congr fun id => exists_congr fun n => ?_
    rw [List.mem_cons, or_iff_right fun heq => he _ _ _ heq.symm]
  fresh := hfresh
  stale hj ho := (hstale hj ho).imp (fun h => ⟨hj, h⟩) id

theorem cons (h : FlightInv history f) (he : e.Spares f) : FlightInv (e :: history) f :=
  h.cons_joinable he.1 f.joinable (fun hj => (h.fresh hj).cons he.2)
    fun hj ho => (h.stale hj ho).imp (·.2) StaleSince.cons

theorem invalidate (h : FlightInv history f) (he : e.Invalidates f.key.schemaId) :
    FlightInv (e :: history) f.detach := by
  refine h.cons_joinable (fun _ _ _ heq => ?_) false nofun fun _ _ => .inr (.of_began h.began he)
  rw [heq] at he
  exact he

/-- Nobody comes to a flight any more because it has ended, or was given up. -/
theorem detach (h : FlightInv history f)
    (hs : f.outcome = none → ∀ a ∈ f.callers, a.stage = .released) : FlightInv history f.detach where
  began := h.began
  boards := h.boards
  nodup := h.nodup
  runner := h.runner
  number := h.number
  ended := h.ended
  fresh := nofun
  stale _ ho := .inl ⟨rfl, hs ho⟩

theorem leave (h : FlightInv history f) (id : CallerId) : FlightInv history (f.leave id) where
  began := h.began
  boards a ha := h.boards a (List.mem_filter.1 ha).1
  nodup := h.nodup.sublist (List.filter_sublist.map _)
  runner a ha b hb := h.runner a (List.mem_filter.1 ha).1 b (List.mem_filter.1 hb).1
  number a ha := h.number a (List.mem_filter.1 ha).1
  ended := h.ended
  fresh := h.fresh
  stale hj ho := (h.stale hj ho).imp
    (fun hs => ⟨hj, fun a ha => hs.2 a (List.mem_filter.1 ha).1⟩) fun hs => hs

theorem mem_update {a b : Caller ε α} (hb : b ∈ (f.update a).callers) :
    b = a ∨ b ∈ f.callers ∧ b.id ≠ a.id := by
  obtain ⟨b', hb', rfl⟩ := List.mem_map.1 hb
  by_cases hid : b'.id = a.id
  · exact .inl (if_pos hid)
  · rw [if_neg hid]
    exact .inr ⟨hb', hid⟩

/-- Other facts about a caller of a flight: it may start to run if nobody else does. -/
theorem update (h : FlightInv history f) {a b : Caller ε α} (ha : a ∈ f.callers)
    (hid : b.id = a.id) (hc : b.computation.outcome = a.computation.outcome)
    (hrun : b.stage.isRunning → a.stage.isRunning ∨ f.runner? = none)
    (hnum : ∀ n, b.stage = .running n → .started a.id f.id n ∈ history)
    (hrel : a.stage = .released → b.stage = .released) : FlightInv history (f.update b) where
  began := h.began
  boards x hx := by
    rcases mem_update hx with rfl | ⟨hx, -⟩
    · rw [hid, hc]
      exact h.boards a ha
    · exact h.boards x hx
  nodup := by
    have hmap : (f.update b).callers.map (·.id) = f.callers.map (·.id) := by
      simp only [Flight.update, List.map_map]
      refine List.map_congr_left fun x _ => ?_
      by_cases hx : x.id = b.id
      · simp [hx]
      · simp [hx]
    rw [hmap]
    exact h.nodup
  runner := by
    -- whoever else runs was running before
    have hother : ∀ x ∈ f.callers, x.id ≠ b.id → x.stage.isRunning → b.stage.isRunning →
        x.id = b.id := by
      intro x hx hne hxr hbr
      rcases hrun hbr with har | hnone
      · rw [hid]
        exact h.runner x hx a ha hxr har
      · exact absurd hxr (by simpa using List.find?_eq_none.1 hnone x hx)
    intro x hx y hy hxr hyr
    rcases mem_update hx with rfl | ⟨hxf, hxne⟩ <;> rcases mem_update hy with hyb | ⟨hyf, hyne⟩
    · rw [hyb]
    · exact (hother y hyf hyne hyr hxr).symm
    · subst hyb
      exact hother x hxf hxne hxr hyr
    · exact h.runner x hxf y hyf hxr hyr
  number x hx n hn := by
    rcases mem_update hx with rfl | ⟨hx, -⟩
    · rw [hid]
      exact hnum n hn
    · exact h.number x hx n hn
  ended := h.ended
  fresh := h.fresh
  stale hj ho := by
    refine (h.stale hj ho).imp (fun hs => ⟨hj, fun x hx => ?_⟩) fun hs => hs
    rcases mem_update hx with rfl | ⟨hx, -⟩
    · exact hrel (hs.2 a ha)
    · exact hs.2 x hx

theorem join (h : FlightInv history f) (hj : f.joinable) {a : Caller ε α}
    (hnew : a.id ∉ f.callers.map (·.id)) (hw : a.stage = .waiting)
    (hb : ∃ e ∈ history, ∃ computation, e.Boards a.id f.id f.key computation ∧
      computation.outcome = a.computation.outcome) : FlightInv history (f.join a) where
  began := h.began
  boards x hx := by
    rcases List.mem_append.1 hx with hx | hx
    · exact h.boards x hx
    · obtain rfl := List.mem_singleton.1 hx
      exact hb
  nodup := by
    simp only [Flight.join, List.map_append, List.map_singleton]
    refine List.nodup_append.2 ⟨h.nodup, by simp, fun x hx y hy => ?_⟩
    obtain rfl := List.mem_singleton.1 hy
    exact fun he => hnew (he ▸ hx)
  runner x hx y hy hxr hyr := by
    have hwr : ¬ a.stage.isRunning := by rw [hw]; decide
    rcases List.mem_append.1 hx with hx | hx <;> rcases List.mem_append.1 hy with hy | hy
    · exact h.runner x hx y hy hxr hyr
    · obtain rfl := List.mem_singleton.1 hy
      exact (hwr hyr).elim
    · obtain rfl := List.mem_singleton.1 hx
      exact (hwr hxr).elim
    · obtain rfl := List.mem_singleton.1 hx
      exact (hwr hxr).elim
  number x hx n hn := by
    rcases List.mem_append.1 hx with hx | hx
    · exact h.number x hx n hn
    · obtain rfl := List.mem_singleton.1 hx
      rw [hw] at hn
      cases hn
  ended := h.ended
  fresh := h.fresh
  stale hj' := absurd hj' (by simp [Flight.join, hj])

/-- The computation of a caller ends, and with it the flight. -/
theorem conclude (h : FlightInv history f) (ho : f.outcome = none) (id : CallerId) (number : Nat)
    (outcome : Except ε α) : FlightInv (.ended id f.id number outcome :: history)
      { f with outcome := some outcome } where
  began := h.began.imp fun _ hb => .tail _ hb
  boards a ha := (h.boards a ha).imp fun _ hb => ⟨.tail _ hb.1, hb.2⟩
  nodup := h.nodup
  runner := h.runner
  number a ha n hn := .tail _ (h.number a ha n hn)
  ended outcome' := by
    constructor
    · rintro ⟨⟩
      exact ⟨id, number, List.mem_cons_self⟩
    · rintro ⟨id', n, hmem⟩
      rcases List.mem_cons.1 hmem with heq | hmem
      · cases heq
        rfl
      · -- it had not ended before
        rw [(h.ended outcome').2 ⟨id', n, hmem⟩] at ho
        cases ho
  fresh hj := (h.fresh hj).cons nofun
  stale _ ho' := by cases ho'

theorem callers_of_isAbandoned (h : f.isAbandoned) {a : Caller ε α} (ha : a ∈ f.callers) :
    f.callers = [a] := by
  simp only [Flight.isAbandoned, Bool.and_eq_true, decide_eq_true_eq] at h
  obtain ⟨b, hb⟩ := List.length_eq_one_iff.1 h.2
  rw [hb] at ha
  rw [hb, List.mem_singleton.1 ha]

/-- A step that changes a flight keeps its invariant. A caller that joins must be a new one. -/
theorem changes {c : Cache ε α} {g : Flight ε α} (h : FlightInv history f)
    (hch : Changes c e f g) (hnew : c.requests ∉ f.callers.map (·.id)) :
    FlightInv (e :: history) g := by
  have hc : e.Spares f → FlightInv (e :: history) f := h.cons
  cases hch with
  | @joined _ computation hj =>
    refine (hc ⟨nofun, nofun⟩).join hj hnew rfl ?_
    exact ⟨_, List.mem_cons_self, computation, .joined, rfl⟩
  | started ha hs hr =>
    refine (hc ⟨nofun, nofun⟩).update ha rfl rfl (fun _ => .inr hr) (fun n hn => ?_) fun hs' => ?_
    · cases hn
      exact List.mem_cons_self
    · rw [hs] at hs'
      cases hs'
  | advanced ha hs =>
    refine (hc ⟨nofun, nofun⟩).update ha rfl rfl .inl (fun n hn => ?_) id
    exact .tail _ (h.number _ ha n hn)
  | ended ha hs ho => exact h.conclude ho _ _ _
  | returned ha ho =>
    refine ((hc ⟨nofun, nofun⟩).leave _).detach fun hnone => ?_
    rw [show f.outcome = none from hnone] at ho
    cases ho
  | abandoned ha hs =>
    refine (hc ⟨nofun, nofun⟩).update ha rfl rfl nofun nofun fun hs' => ?_
    rw [hs'] at hs
    cases hs
  | @released _ a ha hs =>
    have hup : FlightInv (.released a.id :: history) (f.update (a.withStage .released)) :=
      (hc ⟨nofun, nofun⟩).update ha rfl rfl nofun nofun fun _ => rfl
    by_cases hab : f.isAbandoned
    · rw [if_pos hab]
      refine hup.detach fun _ b hb => ?_
      -- the caller is the only one
      simp only [Flight.update, callers_of_isAbandoned hab ha, Caller.withStage, List.map_cons,
        ↓reduceIte, List.map_nil, List.mem_singleton] at hb
      rw [hb]
    · rw [if_neg hab]
      exact hup
  | forgotten ha hs => exact (hc ⟨nofun, nofun⟩).leave _
  | invalidated => exact h.invalidate rfl
  | cleared => exact h.invalidate trivial

/-- A flight that was just begun. -/
theorem new (history : List (Event ε α)) (c : Cache ε α) (key : CacheKey)
    (computation : Computation ε α) (hnew : ∀ e ∈ history, ∀ id n outcome,
      e ≠ .ended id c.requests n outcome) :
    FlightInv (.began c.requests key computation :: history) (c.newFlight key computation) where
  began := ⟨computation, List.mem_cons_self⟩
  boards a ha := by
    obtain rfl := List.mem_singleton.1 ha
    exact ⟨_, List.mem_cons_self, computation, .began rfl, rfl⟩
  nodup := List.nodup_singleton _
  runner a ha b hb _ _ := by rw [List.mem_singleton.1 ha, List.mem_singleton.1 hb]
  number a ha n hn := by
    obtain rfl := List.mem_singleton.1 ha
    cases hn
  ended outcome := by
    refine ⟨nofun, ?_⟩
    rintro ⟨id, n, hmem⟩
    rcases List.mem_cons.1 hmem with heq | hmem
    · cases heq
    · exact (hnew _ hmem id n outcome rfl).elim
  fresh _ := ⟨[], history, computation, rfl, nofun⟩
  stale := nofun

end FlightInv

/-- What stays with a flight when a step changes it. -/
structure Continues (f g : Flight ε α) : Prop where
  id : g.id = f.id
  key : g.key = f.key
  outcome : g.outcome = none → f.outcome = none
  spent : IsSpent f → IsSpent g

theorem Continues.refl (f : Flight ε α) : Continues f f := ⟨rfl, rfl, fun h => h, fun h => h⟩

theorem Changes.continues {c : Cache ε α} {e : Event ε α} {f g : Flight ε α}
    (h : Changes c e f g) : Continues f g := by
  -- callers of a spent flight are gone, but for those that are about to leave
  have hspent : ∀ {a : Caller ε α}, a ∈ f.callers → a.stage ≠ .released → ¬ IsSpent f :=
    fun ha hne hs => hne (hs.2 _ ha)
  have hleave : ∀ id, IsSpent f → IsSpent (f.leave id) :=
    fun _ hs => ⟨hs.1, fun a ha => hs.2 a (List.mem_filter.1 ha).1⟩
  cases h with
  | joined hj => exact ⟨rfl, rfl, fun h => h, fun hs => by rw [hs.1] at hj; cases hj⟩
  | started ha hw =>
    exact ⟨rfl, rfl, fun h => h, fun hs => absurd hs (hspent ha (by rw [hw]; nofun))⟩
  | advanced ha hr =>
    exact ⟨rfl, rfl, fun h => h, fun hs => absurd hs (hspent ha (by rw [hr]; nofun))⟩
  | ended ha hr => exact ⟨rfl, rfl, nofun, fun hs => absurd hs (hspent ha (by rw [hr]; nofun))⟩
  | returned => exact ⟨rfl, rfl, fun h => h, fun hs => ⟨rfl, (hleave _ hs).2⟩⟩
  | abandoned ha hact =>
    refine ⟨rfl, rfl, fun h => h, fun hs => absurd hs (hspent ha fun h => ?_)⟩
    rw [h] at hact
    cases hact
  | released ha hl =>
    have hns : ¬ IsSpent f := hspent ha (by rw [hl]; nofun)
    cases f.isAbandoned with
    | true => exact ⟨rfl, rfl, fun h => h, fun hs => absurd hs hns⟩
    | false => exact ⟨rfl, rfl, fun h => h, fun hs => absurd hs hns⟩
  | forgotten => exact ⟨rfl, rfl, fun h => h, hleave _⟩
  | invalidated => exact ⟨rfl, rfl, fun h => h, fun hs => ⟨rfl, hs.2⟩⟩
  | cleared => exact ⟨rfl, rfl, fun h => h, fun hs => ⟨rfl, hs.2⟩⟩

/-! ## All flights -/

/-- What holds of a cache after a history. -/
structure Inv (history : List (Event ε α)) (c : Cache ε α) : Prop where
  asked : history.filterMap (·.asker?) = (List.range c.requests).reverse
  ids : (c.flights.map (·.id)).Nodup
  flights : ∀ f ∈ c.flights, FlightInv history f
  older : ∀ f ∈ c.flights, ∀ g ∈ c.flights, f.key = g.key → f.id < g.id → f.outcome = none →
    IsSpent f ∨ StaleBefore history f.id g.id f.key
  boarded : ∀ e ∈ history, ∀ id slot key computation, e.Boards id slot key computation →
    ∃ computation', .began slot key computation' ∈ history
  ended : ∀ id slot n outcome, .ended id slot n outcome ∈ history →
    .started id slot n ∈ history ∧ ∃ e ∈ history, ∃ key computation,
      e.Boards id slot key computation ∧ computation.outcome n = outcome
  endedOnce : ∀ id slot n outcome id' n' outcome', .ended id slot n outcome ∈ history →
    .ended id' slot n' outcome' ∈ history → outcome = outcome'
  returned : ∀ id slot key outcome kept, .returned id slot key outcome kept ∈ history →
    (∃ e ∈ history, ∃ computation, e.Boards id slot key computation) ∧
    ∃ id' n, .ended id' slot n outcome ∈ history
  entries : ∀ key v, (key, v) ∈ c.entries → ∃ slot, ∃ e ∈ history, e.Stores slot key v

namespace Inv

variable {history : List (Event ε α)} {c c' : Cache ε α} {e : Event ε α}

/-- The numbers of callers are those of the requests so far. -/
theorem lt (h : Inv history c) (he : e ∈ history) {id : CallerId} (hid : e.asker? = some id) :
    id < c.requests := by
  have hmem : id ∈ history.filterMap (·.asker?) := List.mem_filterMap.2 ⟨e, he, hid⟩
  rw [h.asked, List.mem_reverse, List.mem_range] at hmem
  exact hmem

/-- Each caller asked once. -/
theorem eq_of_asker (h : Inv history c) {e' : Event ε α} (he : e ∈ history) (he' : e' ∈ history)
    {id : CallerId} (hid : e.asker? = some id) (hid' : e'.asker? = some id) : e = e' := by
  have hpair : (history.filterMap (·.asker?)).Nodup := by
    rw [h.asked]
    exact List.nodup_reverse.2 List.nodup_range
  have : Std.Symm fun e e' : Event ε α =>
      ∀ id, e.asker? = some id → ∀ id', e'.asker? = some id' → id ≠ id' :=
    ⟨fun _ _ h _ hid _ hid' => (h _ hid' _ hid).symm⟩
  by_contra hne
  exact (List.pairwise_filterMap.1 hpair).forall he he' hne id hid id hid' rfl

theorem eq_of_began (h : Inv history c) {slot : FlightId} {key key' : CacheKey}
    {computation computation' : Computation ε α} (hb : .began slot key computation ∈ history)
    (hb' : .began slot key' computation' ∈ history) : key = key' :=
  (Event.began.inj (h.eq_of_asker hb hb' rfl rfl)).2.1

theorem requests_notMem (h : Inv history c) {f : Flight ε α} (hf : f ∈ c.flights) :
    c.requests ∉ f.callers.map (·.id) := by
  intro hmem
  obtain ⟨a, ha, hid⟩ := List.mem_map.1 hmem
  obtain ⟨e, he, computation, hb, -⟩ := (h.flights f hf).boards a ha
  exact Nat.ne_of_lt (h.lt he (Event.asker_of_boards hb)) hid

theorem flight_lt (h : Inv history c) {f : Flight ε α} (hf : f ∈ c.flights) : f.id < c.requests := by
  obtain ⟨computation, hb⟩ := (h.flights f hf).began
  exact h.lt hb rfl

theorem slot_lt (h : Inv history c) {id : CallerId} {slot : FlightId} {n : Nat}
    {outcome : Except ε α} (he : .ended id slot n outcome ∈ history) : slot < c.requests := by
  obtain ⟨-, e, he, key, computation, hb, -⟩ := h.ended _ _ _ _ he
  obtain ⟨computation', hb'⟩ := h.boarded e he _ _ _ _ hb
  exact h.lt hb' rfl

/-- Where a flight comes from after a step: it was there before, or is a new one. -/
theorem origin (h : Inv history c) (hs : Step c e c') {g : Flight ε α} (hg : g ∈ c'.flights) :
    (∃ f ∈ c.flights, Continues f g) ∨ ∃ key computation,
      e = .began c.requests key computation ∧ c.flightFor? key = none ∧
      g = c.newFlight key computation := by
  rcases hs.flights h.ids hg with ⟨hg, -⟩ | ⟨f, hf, hch⟩ | hnew
  · exact .inl ⟨g, hg, .refl g⟩
  · exact .inl ⟨f, hf, hch.continues⟩
  · exact .inr hnew

theorem step_asked (h : Inv history c) (hs : Step c e c') :
    (e :: history).filterMap (·.asker?) = (List.range c'.requests).reverse := by
  rcases hs.asks with ⟨hid, hreq⟩ | ⟨hid, hreq⟩
  · rw [List.filterMap_cons_some hid, h.asked, hreq, List.range_succ, List.reverse_append]
    rfl
  · rw [List.filterMap_cons_none hid, h.asked, hreq]

theorem step_ids (h : Inv history c) (hs : Step c e c') : (c'.flights.map (·.id)).Nodup := by
  refine List.Nodup.sublist hs.ids (List.nodup_append.2 ⟨h.ids, List.nodup_singleton _, ?_⟩)
  intro id hid id' hid'
  obtain ⟨f, hf, rfl⟩ := List.mem_map.1 hid
  rw [List.mem_singleton.1 hid']
  exact Nat.ne_of_lt (h.flight_lt hf)

theorem step_flights (h : Inv history c) (hs : Step c e c') {g : Flight ε α} (hg : g ∈ c'.flights) :
    FlightInv (e :: history) g := by
  rcases hs.flights h.ids hg with ⟨hg, hsp⟩ | ⟨f, hf, hch⟩ | ⟨key, computation, rfl, -, rfl⟩
  · exact (h.flights g hg).cons hsp
  · exact (h.flights f hf).changes hch (h.requests_notMem hf)
  · refine .new history c key computation fun e he id n outcome heq => ?_
    subst heq
    exact Nat.lt_irrefl _ (h.slot_lt he)

/-- A flight is begun for a key only after the older ones ended, were given up or invalidated. -/
theorem step_older (h : Inv history c) (hs : Step c e c') {f g : Flight ε α} (hf : f ∈ c'.flights)
    (hg : g ∈ c'.flights) (hkey : f.key = g.key) (hlt : f.id < g.id) (ho : f.outcome = none) :
    IsSpent f ∨ StaleBefore (e :: history) f.id g.id f.key := by
  rcases h.origin hs hf with ⟨f₀, hf₀, hcf⟩ | ⟨key, computation, -, -, rfl⟩
  · have hok := h.flights f₀ hf₀
    rcases h.origin hs hg with ⟨g₀, hg₀, hcg⟩ | ⟨key, computation, rfl, hnone, rfl⟩
    · rw [hcf.id, hcg.id] at hlt
      rw [hcf.id, hcg.id, hcf.key]
      rw [hcf.key, hcg.key] at hkey
      exact (h.older f₀ hf₀ g₀ hg₀ hkey hlt (hcf.outcome ho)).imp hcf.spent StaleBefore.cons
    · -- nobody could join the older one any more
      have hj : f₀.joinable = false := by
        have hno := List.find?_eq_none.1 hnone f₀ hf₀
        simpa [hcf.key.symm.trans hkey, newFlight] using hno
      refine (hok.stale hj (hcf.outcome ho)).imp hcf.spent fun hst => ?_
      rw [hcf.id, hcf.key]
      refine ⟨[], history, computation, ?_, hst⟩
      rw [← hcf.key, hkey]
      rfl
  · rcases h.origin hs hg with ⟨g₀, hg₀, hcg⟩ | ⟨key', computation', -, -, rfl⟩
    · have hlt₀ := h.flight_lt hg₀
      rw [hcg.id] at hlt
      exact absurd hlt (Nat.lt_asymm hlt₀)
    · exact absurd hlt (Nat.lt_irrefl _)

/-- The history of a run is a record of what its flights did. -/
theorem step_boarded (h : Inv history c) (hs : Step c e c') :
    ∀ e' ∈ e :: history, ∀ id slot key computation, e'.Boards id slot key computation →
      ∃ computation', .began slot key computation' ∈ e :: history := by
  intro e' he' id slot key computation hb
  rcases List.mem_cons.1 he' with rfl | he'
  · cases hs with
    | begin =>
      cases hb with
      | began hid =>
        subst hid
        exact ⟨computation, List.mem_cons_self⟩
    | join _ hsome =>
      cases hb
      obtain ⟨hf, -, rfl⟩ := flightFor?_eq_some hsome
      obtain ⟨computation', hb'⟩ := (h.flights _ hf).began
      exact ⟨computation', .tail _ hb'⟩
    | _ => cases hb
  · obtain ⟨computation', hb'⟩ := h.boarded e' he' _ _ _ _ hb
    exact ⟨computation', .tail _ hb'⟩

theorem step_ended (h : Inv history c) (hs : Step c e c') (id : CallerId) (slot : FlightId)
    (n : Nat) (outcome : Except ε α) (he : .ended id slot n outcome ∈ e :: history) :
    .started id slot n ∈ e :: history ∧ ∃ e' ∈ e :: history, ∃ key computation,
      e'.Boards id slot key computation ∧ computation.outcome n = outcome := by
  rcases List.mem_cons.1 he with rfl | he
  · cases hs with
    | conclude ha hst =>
      have hok := h.flights _ ha.1
      obtain ⟨e', he', computation, hb, hc⟩ := hok.boards _ ha.2
      exact ⟨.tail _ (hok.number _ ha.2 n hst), e', .tail _ he', _, computation, hb, by rw [hc]⟩
  · obtain ⟨hst, e', he', key, computation, hb, hc⟩ := h.ended _ _ _ _ he
    exact ⟨.tail _ hst, e', .tail _ he', key, computation, hb, hc⟩

theorem step_endedOnce (h : Inv history c) (hs : Step c e c') (id : CallerId) (slot : FlightId)
    (n : Nat) (outcome : Except ε α) (id' : CallerId) (n' : Nat) (outcome' : Except ε α)
    (he : .ended id slot n outcome ∈ e :: history)
    (he' : .ended id' slot n' outcome' ∈ e :: history) : outcome = outcome' := by
  -- a flight ends but once
  have hfirst : ∀ {id id' n n' outcome outcome'}, e = .ended id slot n outcome →
      .ended id' slot n' outcome' ∉ history := by
    rintro id id' n n' outcome outcome' rfl hmem
    cases hs with
    | conclude ha _ ho =>
      rw [((h.flights _ ha.1).ended outcome').2 ⟨id', n', hmem⟩] at ho
      cases ho
  rcases List.mem_cons.1 he with heq | he
  · rcases List.mem_cons.1 he' with heq' | he'
    · exact (Event.ended.inj (heq.trans heq'.symm)).2.2.2
    · exact absurd he' (hfirst heq.symm)
  · rcases List.mem_cons.1 he' with heq' | he'
    · exact absurd he (hfirst heq'.symm)
    · exact h.endedOnce _ _ _ _ _ _ _ he he'

theorem step_returned (h : Inv history c) (hs : Step c e c') (id : CallerId) (slot : FlightId)
    (key : CacheKey) (outcome : Except ε α) (kept : Bool)
    (he : .returned id slot key outcome kept ∈ e :: history) :
    (∃ e' ∈ e :: history, ∃ computation, e'.Boards id slot key computation) ∧
    ∃ id' n, .ended id' slot n outcome ∈ e :: history := by
  rcases List.mem_cons.1 he with rfl | he
  · cases hs with
    | collect ha _ ho =>
      have hok := h.flights _ ha.1
      obtain ⟨e', he', computation, hb, -⟩ := hok.boards _ ha.2
      obtain ⟨id', n, hmem⟩ := (hok.ended outcome).1 ho
      exact ⟨⟨e', .tail _ he', computation, hb⟩, id', n, .tail _ hmem⟩
  · obtain ⟨⟨e', he', computation, hb⟩, id', n, hmem⟩ := h.returned _ _ _ _ _ he
    exact ⟨⟨e', .tail _ he', computation, hb⟩, id', n, .tail _ hmem⟩

theorem step_entries (h : Inv history c) (hs : Step c e c') (key : CacheKey) (v : α)
    (hv : (key, v) ∈ c'.entries) : ∃ slot, ∃ e' ∈ e :: history, e'.Stores slot key v := by
  rcases hs.entries hv with hv | ⟨slot, hst⟩
  · obtain ⟨slot, e', he', hst⟩ := h.entries key v hv
    exact ⟨slot, e', .tail _ he', hst⟩
  · exact ⟨slot, e, List.mem_cons_self, hst⟩

theorem step (h : Inv history c) (hs : Step c e c') : Inv (e :: history) c' where
  asked := h.step_asked hs
  ids := h.step_ids hs
  flights _ hg := h.step_flights hs hg
  older _ hf _ hg := h.step_older hs hf hg
  boarded := h.step_boarded hs
  ended := h.step_ended hs
  endedOnce := h.step_endedOnce hs
  returned := h.step_returned hs
  entries := h.step_entries hs

end Inv

theorem Run.inv {n : Nat} {history : List (Event ε α)} {c : Cache ε α} (h : Run n history c) :
    Inv history c := by
  induction h with
  | nil =>
    exact ⟨rfl, List.nodup_nil, nofun, nofun, nofun, nofun, nofun, nofun, nofun⟩
  | cons _ hs ih => exact ih.step hs

end DesignSystem.Cache

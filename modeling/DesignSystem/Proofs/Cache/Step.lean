import DesignSystem.Cache.Basic
import Mathlib.Data.List.Nodup

/-!
# Runs of a cache

`Step c e c'`: one caller does one thing at one go, the event `e`, and the cache goes from `c` to
`c'`. The callers may stand on any number of threads. Of the callers of a flight that has not ended
any one that waits may start its computation, so long as no other one runs; a computation takes as
many turns as it likes; a caller may be given up wherever it waits for something. What it then does
in order not to leave a flight behind takes two more steps, between which others may act.

`Run n history c`: a cache for `n` values comes to be `c` by the events of `history`, the last one
first.

* `Run.of_append`: what was before an event is a run of its own.
* `Step.flights`, `Step.asks`, `Step.entries`: what a step does to the flights, the count of
  requests and the values.
-/

set_option autoImplicit false

namespace DesignSystem.Cache

variable {ε α : Type}

/-- What happened. -/
inductive Event (ε α : Type)
  /-- A caller asked for a key and was given a value that is kept. -/
  | hit (id : CallerId) (key : CacheKey) (v : α)
  /-- A caller asked for a key and began a flight, which has the caller's number. -/
  | began (id : CallerId) (key : CacheKey) (computation : Computation ε α)
  /-- A caller asked for a key and joined a flight. -/
  | joined (id : CallerId) (slot : FlightId) (key : CacheKey) (computation : Computation ε α)
  | started (id : CallerId) (slot : FlightId) (number : Nat)
  | advanced (id : CallerId)
  /-- The computation of a caller ran to its end, and so did the flight. -/
  | ended (id : CallerId) (slot : FlightId) (number : Nat) (outcome : Except ε α)
  /-- A caller returned from a flight, and kept its value if `kept`. -/
  | returned (id : CallerId) (slot : FlightId) (key : CacheKey) (outcome : Except ε α)
      (kept : Bool)
  | abandoned (id : CallerId)
  | released (id : CallerId)
  | forgotten (id : CallerId)
  | invalidated (schemaId : String)
  | cleared

namespace Event

/-- The caller that asks for something. -/
def asker? : Event ε α → Option CallerId
  | hit id _ _ => some id
  | began id _ _ => some id
  | joined id _ _ _ => some id
  | _ => none

/-- Whether an event gives up what there is for a schema. -/
def Invalidates (schemaId : String) : Event ε α → Prop
  | invalidated s => s = schemaId
  | cleared => True
  | _ => False

/-- A caller asks for the value of a key, with a computation of it. -/
inductive Asks (id : CallerId) (key : CacheKey) (computation : Computation ε α) :
    Event ε α → Prop
  | hit {v : α} : Asks id key computation (hit id key v)
  | began : Asks id key computation (began id key computation)
  | joined {slot : FlightId} : Asks id key computation (joined id slot key computation)

/-- A caller comes on board of a flight, with a computation for its key. -/
inductive Boards (id : CallerId) (slot : FlightId) (key : CacheKey)
    (computation : Computation ε α) : Event ε α → Prop
  | began : slot = id → Boards id slot key computation (began id key computation)
  | joined : Boards id slot key computation (joined id slot key computation)

theorem asker_of_asks {e : Event ε α} {id : CallerId} {key : CacheKey}
    {computation : Computation ε α} (h : e.Asks id key computation) : e.asker? = some id := by
  cases h <;> rfl

theorem asker_of_boards {e : Event ε α} {id : CallerId} {slot : FlightId} {key : CacheKey}
    {computation : Computation ε α} (h : e.Boards id slot key computation) :
    e.asker? = some id := by
  cases h <;> rfl

theorem eq_of_asks_of_boards {e : Event ε α} {id id' : CallerId} {slot : FlightId}
    {key key' : CacheKey} {computation computation' : Computation ε α}
    (h : e.Asks id key computation) (h' : e.Boards id' slot key' computation') :
    key = key' ∧ computation = computation' := by
  cases h' <;> cases h <;> exact ⟨rfl, rfl⟩

/-- A caller that asked for a key returns with an outcome. -/
inductive Answers (id : CallerId) (key : CacheKey) : Except ε α → Event ε α → Prop
  | hit {v : α} : Answers id key (.ok v) (hit id key v)
  | returned {slot : FlightId} {outcome : Except ε α} {kept : Bool} :
      Answers id key outcome (returned id slot key outcome kept)

/-- A caller of a flight puts a value under a key. -/
inductive Stores (slot : FlightId) (key : CacheKey) (v : α) : Event ε α → Prop
  | returned {id : CallerId} : Stores slot key v (returned id slot key (.ok v) true)

end Event

/-- A flight has a caller. -/
def Holds (c : Cache ε α) (f : Flight ε α) (a : Caller ε α) : Prop :=
  f ∈ c.flights ∧ a ∈ f.callers

/-- What may happen at one go. -/
inductive Step : Cache ε α → Event ε α → Cache ε α → Prop
  | hit {c : Cache ε α} {key : CacheKey} {computation : Computation ε α} {v : α} :
      c.entries.get? key = some v → Step c (.hit c.requests key v) (c.enter key computation).2
  | begin {c : Cache ε α} {key : CacheKey} {computation : Computation ε α} :
      c.entries.get? key = none → c.flightFor? key = none →
      Step c (.began c.requests key computation) (c.enter key computation).2
  | join {c : Cache ε α} {key : CacheKey} {computation : Computation ε α} {f : Flight ε α} :
      c.entries.get? key = none → c.flightFor? key = some f →
      Step c (.joined c.requests f.id key computation) (c.enter key computation).2
  | start {c : Cache ε α} {f : Flight ε α} {a : Caller ε α} :
      c.Holds f a → a.stage = .waiting → f.outcome = none → f.runner? = none →
      Step c (.started a.id f.id (c.started.length + 1)) (c.start f a)
  | advance {c : Cache ε α} {f : Flight ε α} {a : Caller ε α} {number : Nat} :
      c.Holds f a → a.stage = .running number → f.outcome = none →
      Step c (.advanced a.id) (c.advance f a)
  | conclude {c : Cache ε α} {f : Flight ε α} {a : Caller ε α} {number : Nat} :
      c.Holds f a → a.stage = .running number → f.outcome = none → a.computation.turns = 0 →
      Step c (.ended a.id f.id number (a.computation.outcome number))
        (c.conclude f (a.computation.outcome number))
  | collect {c : Cache ε α} {f : Flight ε α} {a : Caller ε α} {outcome : Except ε α} :
      c.Holds f a → a.stage.isActive → f.outcome = some outcome →
      Step c (.returned a.id f.id f.key outcome (f.joinable && outcome.isOk))
        (c.collect f a.id outcome)
  | abandon {c : Cache ε α} {f : Flight ε α} {a : Caller ε α} :
      c.Holds f a → a.stage = .waiting ∨ a.stage.isRunning ∧ f.outcome = none →
      Step c (.abandoned a.id) (c.abandon f a)
  | release {c : Cache ε α} {f : Flight ε α} {a : Caller ε α} :
      c.Holds f a → a.stage = .leaving → Step c (.released a.id) (c.release f a)
  | forget {c : Cache ε α} {f : Flight ε α} {a : Caller ε α} :
      c.Holds f a → a.stage = .released → Step c (.forgotten a.id) (c.forget f a)
  | invalidate {c : Cache ε α} (schemaId : String) :
      Step c (.invalidated schemaId) (c.invalidate schemaId).2
  | clear {c : Cache ε α} : Step c .cleared c.clear

/-- A caller returns from a flight that has ended, and keeps its value if it can still be joined. -/
theorem Step.returned {c c' : Cache ε α} {id : CallerId} {slot : FlightId} {key : CacheKey}
    {outcome : Except ε α} {kept : Bool} (h : Step c (.returned id slot key outcome kept) c') :
    ∃ f a, c.Holds f a ∧ a.id = id ∧ f.id = slot ∧ f.key = key ∧ f.outcome = some outcome ∧
      kept = (f.joinable && outcome.isOk) := by
  cases h with
  | collect hh _ ho => exact ⟨_, _, hh, rfl, rfl, rfl, ho, rfl⟩

/-- What may happen to a cache for `n` values. -/
inductive Run (n : Nat) : List (Event ε α) → Cache ε α → Prop
  | nil : Run n [] (.ofCapacity n)
  | cons {history : List (Event ε α)} {c c' : Cache ε α} {e : Event ε α} :
      Run n history c → Step c e c' → Run n (e :: history) c'

/-- What was before an event is a run of its own. -/
theorem Run.of_append {n : Nat} {later before : List (Event ε α)} {e : Event ε α}
    {c : Cache ε α} (h : Run n (later ++ e :: before) c) :
    ∃ c₀ c₁, Run n before c₀ ∧ Step c₀ e c₁ := by
  induction later generalizing c with
  | nil =>
    cases h with
    | cons hrun hstep => exact ⟨_, _, hrun, hstep⟩
  | cons e' later ih =>
    cases h with
    | cons hrun _ => exact ih hrun

/-! ## What a step does -/

/-- The flight that a request begins. -/
def newFlight (c : Cache ε α) (key : CacheKey) (computation : Computation ε α) : Flight ε α :=
  { id := c.requests, key, callers := [⟨c.requests, computation, .waiting⟩] }

/-- What becomes of a flight that an event is about. -/
inductive Changes (c : Cache ε α) : Event ε α → Flight ε α → Flight ε α → Prop
  | joined {f : Flight ε α} {computation : Computation ε α} : f.joinable →
      Changes c (.joined c.requests f.id f.key computation) f
        (f.join ⟨c.requests, computation, .waiting⟩)
  | started {f : Flight ε α} {a : Caller ε α} {number : Nat} : a ∈ f.callers →
      a.stage = .waiting → f.runner? = none →
      Changes c (.started a.id f.id number) f (f.update (a.withStage (.running number)))
  | advanced {f : Flight ε α} {a : Caller ε α} {number : Nat} : a ∈ f.callers →
      a.stage = .running number → Changes c (.advanced a.id) f (f.update a.tick)
  | ended {f : Flight ε α} {a : Caller ε α} {number : Nat} : a ∈ f.callers →
      a.stage = .running number → f.outcome = none →
      Changes c (.ended a.id f.id number (a.computation.outcome number)) f
        { f with outcome := some (a.computation.outcome number) }
  | returned {f : Flight ε α} {a : Caller ε α} {outcome : Except ε α} {kept : Bool} :
      a ∈ f.callers → f.outcome = some outcome →
      Changes c (.returned a.id f.id f.key outcome kept) f (f.leave a.id).detach
  | abandoned {f : Flight ε α} {a : Caller ε α} : a ∈ f.callers → a.stage.isActive →
      Changes c (.abandoned a.id) f (f.update (a.withStage .leaving))
  | released {f : Flight ε α} {a : Caller ε α} : a ∈ f.callers → a.stage = .leaving →
      Changes c (.released a.id) f
        ((if f.isAbandoned then f.detach else f).update (a.withStage .released))
  | forgotten {f : Flight ε α} {a : Caller ε α} : a ∈ f.callers → a.stage = .released →
      Changes c (.forgotten a.id) f (f.leave a.id)
  | invalidated {f : Flight ε α} : Changes c (.invalidated f.key.schemaId) f f.detach
  | cleared {f : Flight ε α} : Changes c .cleared f f.detach

/-- An event neither ends nor invalidates a flight. -/
def Event.Spares (f : Flight ε α) (e : Event ε α) : Prop :=
  (∀ id number outcome, e ≠ .ended id f.id number outcome) ∧ ¬ e.Invalidates f.key.schemaId

theorem isActive_of_isRunning {s : CallerStage} (h : s.isRunning) : s.isActive := by
  cases s with
  | running => rfl
  | _ => cases h

theorem mem_flights_adjust {c : Cache ε α} {slot : FlightId}
    {change : Flight ε α → Flight ε α} {g : Flight ε α}
    (h : g ∈ (c.adjust slot change).flights) :
    (g ∈ c.flights ∧ g.id ≠ slot) ∨ ∃ f ∈ c.flights, f.id = slot ∧ g = change f := by
  obtain ⟨f, hf, rfl⟩ := List.mem_map.1 (List.mem_filter.1 h).1
  by_cases hid : f.id = slot
  · exact .inr ⟨f, hf, hid, if_pos hid⟩
  · rw [if_neg hid]
    exact .inl ⟨hf, hid⟩

theorem eq_of_id_eq {c : Cache ε α} (hids : (c.flights.map (·.id)).Nodup) {f g : Flight ε α}
    (hf : f ∈ c.flights) (hg : g ∈ c.flights) (h : f.id = g.id) : f = g :=
  List.inj_on_of_nodup_map hids hf hg h

theorem flightFor?_eq_some {c : Cache ε α} {key : CacheKey} {f : Flight ε α}
    (h : c.flightFor? key = some f) : f ∈ c.flights ∧ f.joinable ∧ f.key = key := by
  have hp := List.find?_some h
  simp only [Bool.and_eq_true, decide_eq_true_eq] at hp
  exact ⟨List.mem_of_find?_eq_some h, hp⟩

@[simp] theorem collect_flights (c : Cache ε α) (f : Flight ε α) (id : CallerId)
    (outcome : Except ε α) : (c.collect f id outcome).flights =
      (c.adjust f.id fun f => (f.leave id).detach).flights := by
  unfold collect
  cases outcome with
  | error e => rfl
  | ok v => cases f.joinable <;> rfl

theorem enter_hit {c : Cache ε α} {key : CacheKey} {computation : Computation ε α} {v : α}
    (h : c.entries.get? key = some v) : c.enter key computation =
      (.done (.ok v), { c with hits := c.hits + 1, entries := c.entries.touch key }) := by
  simp only [enter, h]

theorem enter_begin {c : Cache ε α} {key : CacheKey} {computation : Computation ε α}
    (h : c.entries.get? key = none) (hf : c.flightFor? key = none) : c.enter key computation =
      (.waiting c.requests, { c with
        misses := c.misses + 1, flights := c.flights ++ [c.newFlight key computation] }) := by
  simp only [enter, h, hf, newFlight]

theorem enter_join {c : Cache ε α} {key : CacheKey} {computation : Computation ε α}
    {f : Flight ε α} (h : c.entries.get? key = none) (hf : c.flightFor? key = some f) :
    c.enter key computation = (.waiting c.requests,
      { c with coalesced := c.coalesced + 1 }.adjust f.id
        (·.join ⟨c.requests, computation, .waiting⟩)) := by
  simp only [enter, h, hf]

/-- Where the flights after a step come from. -/
theorem Step.flights {c c' : Cache ε α} {e : Event ε α} (h : Step c e c')
    (hids : (c.flights.map (·.id)).Nodup) {g : Flight ε α} (hg : g ∈ c'.flights) :
    (g ∈ c.flights ∧ e.Spares g) ∨ (∃ f ∈ c.flights, Changes c e f g) ∨
    ∃ key computation, e = .began c.requests key computation ∧ c.flightFor? key = none ∧
      g = c.newFlight key computation := by
  -- all steps of one caller adjust its flight
  have hadjust : ∀ {f change}, f ∈ c.flights → Changes c e f (change f) →
      (∀ g ∈ c.flights, g.id ≠ f.id → e.Spares g) → g ∈ (c.adjust f.id change).flights →
      (g ∈ c.flights ∧ e.Spares g) ∨ (∃ f ∈ c.flights, Changes c e f g) ∨
      ∃ key computation, e = .began c.requests key computation ∧ c.flightFor? key = none ∧
        g = c.newFlight key computation := by
    intro f change hf hch hspare hg
    rcases mem_flights_adjust hg with ⟨hg, hne⟩ | ⟨f', hf', hid, rfl⟩
    · exact .inl ⟨hg, hspare g hg hne⟩
    · obtain rfl := eq_of_id_eq hids hf' hf hid
      exact .inr (.inl ⟨f', hf', hch⟩)
  cases h with
  | hit h =>
    rw [enter_hit h] at hg
    exact .inl ⟨hg, nofun, nofun⟩
  | begin h hnone =>
    rw [enter_begin h hnone] at hg
    rcases List.mem_append.1 hg with hg | hg
    · exact .inl ⟨hg, nofun, nofun⟩
    · exact .inr (.inr ⟨_, _, rfl, hnone, List.mem_singleton.1 hg⟩)
  | @join key computation f h hsome =>
    rw [enter_join h hsome] at hg
    obtain ⟨hf, hj, rfl⟩ := flightFor?_eq_some hsome
    exact hadjust hf (.joined hj) (fun _ _ _ => ⟨nofun, nofun⟩) hg
  | start ha hs _ hr => exact hadjust ha.1 (.started ha.2 hs hr) (fun _ _ _ => ⟨nofun, nofun⟩) hg
  | advance ha hs _ => exact hadjust ha.1 (.advanced ha.2 hs) (fun _ _ _ => ⟨nofun, nofun⟩) hg
  | conclude ha hs ho _ =>
    refine hadjust ha.1 (.ended ha.2 hs ho) (fun g _ hne => ⟨fun _ _ _ he => ?_, nofun⟩) hg
    exact hne (Event.ended.inj he).2.1.symm
  | collect ha _ ho =>
    rw [collect_flights] at hg
    exact hadjust ha.1 (.returned ha.2 ho) (fun _ _ _ => ⟨nofun, nofun⟩) hg
  | abandon ha hs =>
    refine hadjust ha.1 (.abandoned ha.2 ?_) (fun _ _ _ => ⟨nofun, nofun⟩) hg
    rcases hs with hs | ⟨hs, -⟩
    · rw [hs]; rfl
    · exact isActive_of_isRunning hs
  | release ha hs => exact hadjust ha.1 (.released ha.2 hs) (fun _ _ _ => ⟨nofun, nofun⟩) hg
  | forget ha hs => exact hadjust ha.1 (.forgotten ha.2 hs) (fun _ _ _ => ⟨nofun, nofun⟩) hg
  | invalidate schemaId =>
    obtain ⟨f, hf, rfl⟩ := List.mem_map.1 (List.mem_filter.1 hg).1
    by_cases hid : f.key.schemaId = schemaId
    · rw [if_pos hid]
      subst hid
      exact .inr (.inl ⟨f, hf, .invalidated⟩)
    · rw [if_neg hid]
      exact .inl ⟨hf, nofun, fun he => hid he.symm⟩
  | clear =>
    obtain ⟨f, hf, rfl⟩ := List.mem_map.1 (List.mem_filter.1 hg).1
    exact .inr (.inl ⟨f, hf, .cleared⟩)

theorem adjust_ids {c : Cache ε α} {slot : FlightId} {change : Flight ε α → Flight ε α}
    (h : ∀ f, (change f).id = f.id) :
    ((c.adjust slot change).flights.map (·.id)).Sublist (c.flights.map (·.id)) := by
  refine (List.filter_sublist.map _).trans ?_
  rw [List.map_map]
  refine (List.map_congr_left fun f _ => ?_) ▸ List.Sublist.refl _
  by_cases hid : f.id = slot
  · simp only [Function.comp_apply, if_pos hid, h]
  · simp only [Function.comp_apply, if_neg hid]

/-- Flights keep their numbers, and a new one has the number of the caller that began it. -/
theorem Step.ids {c c' : Cache ε α} {e : Event ε α} (h : Step c e c') :
    (c'.flights.map (·.id)).Sublist (c.flights.map (·.id) ++ [c.requests]) := by
  have hleft : (c.flights.map (·.id)).Sublist (c.flights.map (·.id) ++ [c.requests]) :=
    List.sublist_append_left _ _
  cases h with
  | hit h =>
    rw [enter_hit h]
    exact hleft
  | begin h hnone =>
    rw [enter_begin h hnone]
    simp [newFlight]
  | join h hsome =>
    rw [enter_join h hsome]
    refine .trans (adjust_ids ?_) hleft
    exact fun _ => rfl
  | collect =>
    rw [collect_flights]
    refine .trans (adjust_ids ?_) hleft
    exact fun _ => rfl
  | release =>
    refine (adjust_ids fun f => ?_).trans hleft
    cases f.isAbandoned <;> rfl
  | invalidate schemaId =>
    refine List.Sublist.trans ((List.filter_sublist.map _).trans ?_) hleft
    rw [List.map_map]
    refine (List.map_congr_left fun f _ => ?_) ▸ List.Sublist.refl _
    by_cases hid : f.key.schemaId = schemaId
    · simp only [Function.comp_apply, if_pos hid, Flight.detach]
    · simp only [Function.comp_apply, if_neg hid]
  | clear =>
    refine List.Sublist.trans ((List.filter_sublist.map _).trans ?_) hleft
    rw [List.map_map]
    exact List.Sublist.refl _
  | _ =>
    refine .trans (adjust_ids ?_) hleft
    exact fun _ => rfl

/-- A request is counted, and its caller numbered by the count before. -/
theorem Step.asks {c c' : Cache ε α} {e : Event ε α} (h : Step c e c') :
    (e.asker? = some c.requests ∧ c'.requests = c.requests + 1) ∨
    (e.asker? = none ∧ c'.requests = c.requests) := by
  cases h with
  | hit h =>
    rw [enter_hit h]
    exact .inl ⟨rfl, by simp only [requests]; omega⟩
  | begin h hnone =>
    rw [enter_begin h hnone]
    exact .inl ⟨rfl, by simp only [requests]; omega⟩
  | join h hsome =>
    rw [enter_join h hsome]
    exact .inl ⟨rfl, by simp only [requests, adjust]; omega⟩
  | @collect f a outcome =>
    refine .inr ⟨rfl, ?_⟩
    unfold Cache.collect
    cases outcome with
    | error e => rfl
    | ok v => cases f.joinable <;> rfl
  | _ => exact .inr ⟨rfl, rfl⟩

theorem get?_mem {l : ByRecency CacheKey α} {key : CacheKey} {v : α} (h : l.get? key = some v) :
    (key, v) ∈ l := by
  induction l with
  | nil => cases h
  | cons x l ih =>
    obtain ⟨k, w⟩ := x
    simp only [ByRecency.get?] at h
    split at h
    · cases h
      subst k
      exact List.mem_cons_self
    · exact .tail _ (ih h)

/-- Where the values after a step come from. -/
theorem Step.entries {c c' : Cache ε α} {e : Event ε α} (h : Step c e c') {key : CacheKey} {v : α}
    (hv : (key, v) ∈ c'.entries) :
    (key, v) ∈ c.entries ∨ ∃ slot, e.Stores slot key v := by
  cases h with
  | hit h =>
    rw [enter_hit h] at hv
    simp only [ByRecency.touch, h, List.mem_cons] at hv
    rcases hv with he | hv
    · cases he
      exact .inl (get?_mem h)
    · exact .inl (List.mem_filter.1 hv).1
  | begin h hnone =>
    rw [enter_begin h hnone] at hv
    exact .inl hv
  | join h hsome =>
    rw [enter_join h hsome] at hv
    exact .inl hv
  | @collect f a outcome =>
    unfold Cache.collect at hv
    cases outcome with
    | error e => exact .inl hv
    | ok w =>
      cases hj : f.joinable with
      | false =>
        simp only [hj] at hv
        exact .inl hv
      | true =>
        simp only [hj, ↓reduceIte] at hv
        rcases List.mem_cons.1 (List.mem_of_mem_take hv) with he | hv
        · cases he
          exact .inr ⟨f.id, .returned⟩
        · exact .inl (List.mem_filter.1 hv).1
  | invalidate => exact .inl (List.mem_filter.1 hv).1
  | clear => exact .inl (absurd hv List.not_mem_nil)
  | _ => exact .inl hv

end DesignSystem.Cache

import DesignSystem.Proofs.Cache.SingleFlight

/-!
# Callers that are asked one at a time

What a caller does when it is asked is a row of steps, so everything that holds of all runs holds of
callers that take turns.

* `Inv.goesOn_poll`: a waiting caller that asks again.
* `Inv.steps_request`: a caller that asks for the value of a key.
* `steps_leave`: a caller that leaves without an outcome.
-/

set_option autoImplicit false

namespace DesignSystem.Cache

variable {ε α : Type}

/-- A cache comes to be another one by some events, the last one first. -/
inductive Steps (c : Cache ε α) : List (Event ε α) → Cache ε α → Prop
  | refl : Steps c [] c
  | cons {later : List (Event ε α)} {c' c'' : Cache ε α} {e : Event ε α} :
      Steps c later c' → Step c' e c'' → Steps c (e :: later) c''

theorem Step.steps {c c' : Cache ε α} {e : Event ε α} (h : Step c e c') : Steps c [e] c' :=
  .cons .refl h

theorem Run.append {n : Nat} {history later : List (Event ε α)} {c c' : Cache ε α}
    (h : Run n history c) (hs : Steps c later c') : Run n (later ++ history) c' := by
  induction hs with
  | refl => exact h
  | cons _ hstep ih => exact ih.cons hstep

/-- Some events by which a caller goes on: it asks for nothing more, and what it is told is the
outcome that it returns with. -/
def GoesOn (c : Cache ε α) (id : CallerId) (key : CacheKey) (result : Reply ε α × Cache ε α) : Prop :=
  ∃ later, Steps c later result.2 ∧ (∀ e ∈ later, e.asker? = none) ∧
    ∀ outcome, result.1 = .done outcome → ∃ e ∈ later, e.Answers id key outcome

theorem Steps.of_step {c c' c'' : Cache ε α} {e : Event ε α} {later : List (Event ε α)}
    (h : Step c e c') (hs : Steps c' later c'') : Steps c (later ++ [e]) c'' := by
  induction hs with
  | refl => exact h.steps
  | cons _ hstep ih => exact ih.cons hstep

theorem GoesOn.of_step {c c' : Cache ε α} {e : Event ε α} {id : CallerId} {key : CacheKey}
    {result : Reply ε α × Cache ε α} (hg : GoesOn c' id key result) (h : Step c e c')
    (he : e.asker? = none) : GoesOn c id key result := by
  obtain ⟨later, hs, hnone, hdone⟩ := hg
  refine ⟨later ++ [e], hs.of_step h, fun e' he' => ?_, fun outcome ho => ?_⟩
  · rcases List.mem_append.1 he' with he' | he'
    · exact hnone e' he'
    · rw [List.mem_singleton.1 he', he]
  · obtain ⟨e', he', ha⟩ := hdone outcome ho
    exact ⟨e', List.mem_append_left _ he', ha⟩

section

variable {c : Cache ε α} {f : Flight ε α} {a : Caller ε α}

theorem mem_adjust (hf : f ∈ c.flights) {change : Flight ε α → Flight ε α}
    (hkept : (change f).isKept) : change f ∈ (c.adjust f.id change).flights := by
  refine List.mem_filter.2 ⟨List.mem_map.2 ⟨f, hf, if_pos rfl⟩, hkept⟩

theorem isKept_of_mem (ha : a ∈ f.callers) : f.isKept := by
  unfold Flight.isKept
  rw [Bool.or_eq_true]
  exact .inr (by simpa using List.ne_nil_of_mem ha)

theorem mem_callers_update {b : Caller ε α} (ha : a ∈ f.callers) (hid : b.id = a.id) :
    b ∈ (f.update b).callers :=
  List.mem_map.2 ⟨a, ha, if_pos hid.symm⟩

theorem Holds.update (h : c.Holds f a) {b : Caller ε α} (hid : b.id = a.id) :
    (c.adjust f.id (·.update b)).Holds (f.update b) b := by
  have hb := mem_callers_update h.2 hid
  exact ⟨mem_adjust h.1 (isKept_of_mem hb), hb⟩

theorem Holds.conclude (h : c.Holds f a) (outcome : Except ε α) :
    (c.conclude f outcome).Holds { f with outcome := some outcome } a :=
  ⟨mem_adjust h.1 (isKept_of_mem (f := { f with outcome := some outcome }) h.2), h.2⟩

/-- A caller that was given up after it has seen to its flight. -/
theorem Holds.release (h : c.Holds f a) : (c.release f a).Holds
    ((if f.isAbandoned then f.detach else f).update (a.withStage .released))
    (a.withStage .released) := by
  have ha : a ∈ (if f.isAbandoned then f.detach else f).callers := by
    split
    · exact h.2
    · exact h.2
  have hb := mem_callers_update ha (b := a.withStage .released) rfl
  exact ⟨mem_adjust h.1 (isKept_of_mem hb), hb⟩

theorem goesOn_proceed (h : c.Holds f a) {number : Nat} (hs : a.stage = .running number)
    (ho : f.outcome = none) : GoesOn c a.id f.key (c.proceed f a number) := by
  unfold proceed
  split
  · next hturns =>
    have hend := Step.conclude h hs ho hturns
    have hreturn := Step.collect (h.conclude (a.computation.outcome number))
      (by rw [hs]; rfl) rfl
    refine ⟨_, hend.steps.cons hreturn, ?_, fun outcome hdone => ?_⟩
    · simp [Event.asker?]
    · cases hdone
      exact ⟨_, .head _, .returned⟩
  · exact ⟨_, (Step.advance h hs ho).steps, by simp [Event.asker?], nofun⟩

theorem goesOn_turn (h : c.Holds f a) (hs : a.stage.isActive) (ho : f.outcome = none)
    (hrunner : a.stage = .waiting → f.runner? = none) : GoesOn c a.id f.key (c.turn f a) := by
  unfold turn
  split
  · next number hstage => exact goesOn_proceed h hstage ho
  · next hstage =>
    have hwait : a.stage = .waiting := by
      cases hst : a.stage with
      | waiting => rfl
      | running number => exact absurd hst (hstage number)
      | leaving => simp [hst, CallerStage.isActive] at hs
      | released => simp [hst, CallerStage.isActive] at hs
    have hstart := Step.start h hwait ho (hrunner hwait)
    have hrunning : (c.start f a).Holds _ _ :=
      h.update (b := a.withStage (.running (c.started.length + 1))) rfl
    exact (goesOn_proceed hrunning rfl ho).of_step hstart rfl

end

theorem holds_of_caller? {c : Cache ε α} {id : CallerId} {f : Flight ε α} {a : Caller ε α}
    (h : c.caller? id = some (f, a)) : c.Holds f a ∧ a.id = id ∧ a.stage.isActive := by
  obtain ⟨f', hf, hmap⟩ := List.exists_of_findSome?_eq_some h
  obtain ⟨a', ha, heq⟩ := Option.map_eq_some_iff.1 hmap
  obtain ⟨rfl, rfl⟩ := Prod.mk.inj heq
  have hp := List.find?_some ha
  simp only [Bool.and_eq_true, decide_eq_true_eq] at hp
  exact ⟨⟨hf, List.mem_of_find?_eq_some ha⟩, hp⟩

/-- While a caller waits and has its turn nobody else runs. -/
theorem runner?_eq_none {f : Flight ε α} {a : Caller ε α} (hnodup : (f.callers.map (·.id)).Nodup)
    (ha : a ∈ f.callers) (hwait : a.stage = .waiting) (hnext : f.next?.any (·.id = a.id)) :
    f.runner? = none := by
  -- another caller that runs would be the next one
  cases hrunner : f.runner? with
  | none => rfl
  | some b =>
    rw [Flight.next?, hrunner] at hnext
    have hid : b.id = a.id := by simpa using hnext
    have hb := List.mem_of_find?_eq_some hrunner
    obtain rfl := List.inj_on_of_nodup_map hnodup hb ha hid
    have hrun := List.find?_some hrunner
    rw [hwait] at hrun
    cases hrun

/-- A waiting caller that is asked goes on. -/
theorem Inv.goesOn_poll {history : List (Event ε α)} {c : Cache ε α} (h : Inv history c)
    {id : CallerId} {key : CacheKey} {computation : Computation ε α}
    (hasked : ∃ e ∈ history, e.Asks id key computation) : GoesOn c id key (c.poll id) := by
  unfold poll
  split
  · exact ⟨[], .refl, nofun, nofun⟩
  · next f a hcaller =>
    obtain ⟨hh, rfl, hactive⟩ := holds_of_caller? hcaller
    have hok := h.flights f hh.1
    obtain rfl : f.key = key := by
      obtain ⟨e, he, hasks⟩ := hasked
      obtain ⟨e', he', computation', hboards, -⟩ := hok.boards a hh.2
      obtain rfl := h.eq_of_asker he he' (Event.asker_of_asks hasks) (Event.asker_of_boards hboards)
      exact (Event.eq_of_asks_of_boards hasks hboards).1.symm
    split
    · next outcome ho =>
      have hreturn := Step.collect hh hactive ho
      refine ⟨_, hreturn.steps, by simp [Event.asker?], fun outcome' hdone => ?_⟩
      cases hdone
      exact ⟨_, .head _, .returned⟩
    · next ho =>
      split
      · next hnext =>
        exact goesOn_turn hh hactive ho fun hwait => runner?_eq_none hok.nodup hh.2 hwait hnext
      · exact ⟨[], .refl, nofun, nofun⟩

/-- A caller that asks does so at one go. -/
theorem step_enter (c : Cache ε α) (key : CacheKey) (computation : Computation ε α) :
    ∃ event, event.Asks c.requests key computation ∧
      Step c event (c.enter key computation).2 ∧
      ((c.enter key computation).1 = .waiting c.requests ∨
        ∃ v, (c.enter key computation).1 = .done (.ok v) ∧
          event.Answers c.requests key (.ok v)) := by
  cases hget : c.entries.get? key with
  | some v => exact ⟨_, .hit, .hit hget, .inr ⟨v, by rw [enter_hit hget], .hit⟩⟩
  | none =>
    cases hflight : c.flightFor? key with
    | none => exact ⟨_, .began, .begin hget hflight, .inl (by rw [enter_begin hget hflight])⟩
    | some f => exact ⟨_, .joined, .join hget hflight, .inl (by rw [enter_join hget hflight])⟩

/-- A caller that asks goes on when it does not find a value. -/
theorem Inv.steps_request {history : List (Event ε α)} {c : Cache ε α} (h : Inv history c)
    (key : CacheKey) (computation : Computation ε α) : ∃ event c' later,
      event.Asks c.requests key computation ∧ Step c event c' ∧
      Steps c' later (c.request key computation).2 ∧ (∀ e ∈ later, e.asker? = none) ∧
      ∀ outcome, (c.request key computation).1 = .done outcome →
        ∃ e ∈ later ++ [event], e.Answers c.requests key outcome := by
  obtain ⟨event, hasks, hs, hreply⟩ := step_enter c key computation
  refine ⟨event, (c.enter key computation).2, ?_⟩
  unfold request
  generalize c.enter key computation = entered at hs hreply
  obtain ⟨reply, c'⟩ := entered
  rcases hreply with rfl | ⟨v, rfl, hanswers⟩
  · obtain ⟨later, hsteps, hnone, hdone⟩ := (h.step hs).goesOn_poll ⟨event, .head _, hasks⟩
    refine ⟨later, hasks, hs, hsteps, hnone, fun outcome ho => ?_⟩
    obtain ⟨e, he, ha⟩ := hdone outcome ho
    exact ⟨e, List.mem_append_left _ he, ha⟩
  · refine ⟨[], hasks, hs, .refl, nofun, fun outcome ho => ?_⟩
    cases ho
    exact ⟨event, .head _, hanswers⟩

/-- A caller that is given up leaves in three steps. -/
theorem steps_dropped {c : Cache ε α} {f : Flight ε α} {a : Caller ε α} (hh : c.Holds f a)
    (hstage : a.stage = .waiting ∨ a.stage.isRunning ∧ f.outcome = none) :
    ∃ later, Steps c later (((c.abandon f a).release f a).forget f a) ∧
      ∀ e ∈ later, e.asker? = none := by
  have hleaving : (c.abandon f a).Holds _ _ := hh.update (b := a.withStage .leaving) rfl
  have habandoned := (Step.abandon hh hstage).steps.cons (.release hleaving rfl)
  have hforgotten := Step.forget hleaving.release rfl
  have hslot : ∀ (g : Flight ε α) (b : Caller ε α),
      ((if g.isAbandoned then g.detach else g).update b).id = g.id := by
    intro g b
    change (if g.isAbandoned then g.detach else g).id = g.id
    split <;> rfl
  unfold forget at hforgotten
  rw [hslot] at hforgotten
  refine ⟨_, habandoned.cons hforgotten, fun e he => ?_⟩
  simp only [List.mem_cons, List.not_mem_nil, or_false] at he
  rcases he with rfl | rfl | rfl <;> rfl

/-- A caller that leaves is given up, unless its own computation has just ended. -/
theorem steps_leave {c : Cache ε α} {id : CallerId}
    (hland : ∀ f a, c.caller? id = some (f, a) → a.stage.isRunning → f.outcome = none) :
    ∃ later, Steps c later (c.leave id) ∧ ∀ e ∈ later, e.asker? = none := by
  unfold leave
  split
  · exact ⟨[], .refl, nofun⟩
  · next f a hcaller =>
    obtain ⟨hh, rfl, hactive⟩ := holds_of_caller? hcaller
    refine steps_dropped hh ?_
    cases hst : a.stage with
    | waiting => exact .inl rfl
    | running number => exact .inr ⟨rfl, hland f a hcaller (by rw [hst]; rfl)⟩
    | leaving => simp [hst, CallerStage.isActive] at hactive
    | released => simp [hst, CallerStage.isActive] at hactive

end DesignSystem.Cache

import DesignSystem.Engine
import DesignSystem.Proofs.Cache.SingleFlight
import DesignSystem.Proofs.Cache.Turns

/-!
# Runs of an engine

`Run n history e`: an engine whose cache is for `n` values comes to be `e` by the events of
`history`, the last one first. A request finds its adapter, and asks the cache at some later time;
in between, and while it waits, anything may happen to the cache, and adapters may be registered
under new identifiers.

`OpenRun n history e` is the same where an adapter may also be registered under an identifier that
has one, and takes its place.

* `OpenRun.cache`: what happens to the cache is a run of the cache.
* `Run.get?_of_resolved`: the adapter that a request found stays registered.
* `OpenRun.computed_of_answers`: what a request gets from the cache was computed for a request with
  the same key.
* `Run.request`, `Run.poll`: what a request does when it comes in or asks again is a row of steps, by
  which the run goes on, and the reply is what the request returns with.
-/

set_option autoImplicit false

namespace DesignSystem.Engine

/-- What happens to the cache. -/
abbrev CacheEvent := Cache.Event GenerationError CachedResult

/-- What happens to an engine. -/
inductive Event
  | registered (a : Adapter)
  /-- A request found its adapter, and has yet to ask the cache. -/
  | resolved (r : Request) (a : Adapter)
  /-- A request failed before the cache was asked. -/
  | refused (r : Request) (error : EngineError)
  /-- A request whose adapter was found asked the cache. -/
  | asked (r : Request) (a : Adapter) (event : CacheEvent)
  /-- Anything else happened to the cache. -/
  | cached (event : CacheEvent)

/-- What an event does to the cache. -/
def Event.cacheEvent? : Event → Option CacheEvent
  | asked _ _ event => some event
  | cached event => some event
  | _ => none

/-- What has happened to the cache. -/
def cacheHistory (history : List Event) : List CacheEvent := history.filterMap (·.cacheEvent?)

/-- The key that a request is looked up under, once its adapter is found. -/
def keyFor (a : Adapter) (r : Request) : CacheKey := .ofRequest r.schema a.id r.options

/-- What may happen at one go, after a history. -/
inductive Step (history : List Event) : Engine → Event → Engine → Prop
  | register {e : Engine} {a : Adapter} :
      e.registry.get? a.id = none → Step history e (.registered a) (e.register a)
  | resolve {e : Engine} {r : Request} {a : Adapter} :
      e.registry.resolve r.platform = .ok a → Step history e (.resolved r a) e
  | refuse {e : Engine} {r : Request} {error : GenerationError} :
      e.registry.resolve r.platform = .error error →
      Step history e (.refused r (.own error)) (e.request r).2
  | ask {e : Engine} {r : Request} {a : Adapter} {id : CallerId} {event : CacheEvent}
      {cache : Cache GenerationError CachedResult} :
      .resolved r a ∈ history → e.cache.Step event cache →
      event.Asks id (keyFor a r) (computation a r) →
      Step history e (.asked r a event) { e with cache }
  | cache {e : Engine} {event : CacheEvent} {cache : Cache GenerationError CachedResult} :
      e.cache.Step event cache → event.asker? = none →
      Step history e (.cached event) { e with cache }

/-- What may happen to an engine with an empty cache for `n` values. -/
inductive Run (n : Nat) : List Event → Engine → Prop
  | nil {e : Engine} : e.cache = .ofCapacity n → Run n [] e
  | cons {history : List Event} {e e' : Engine} {event : Event} :
      Run n history e → Step history e event e' → Run n (event :: history) e'

/-- What may happen at one go where an adapter may also take the place of another one. -/
inductive OpenStep (history : List Event) : Engine → Event → Engine → Prop
  | step {e e' : Engine} {event : Event} : Step history e event e' → OpenStep history e event e'
  | replace {e : Engine} {a : Adapter} : OpenStep history e (.registered a) (e.register a)

/-- What may happen to an engine with an empty cache for `n` values where adapters may be replaced. -/
inductive OpenRun (n : Nat) : List Event → Engine → Prop
  | nil {e : Engine} : e.cache = .ofCapacity n → OpenRun n [] e
  | cons {history : List Event} {e e' : Engine} {event : Event} :
      OpenRun n history e → OpenStep history e event e' → OpenRun n (event :: history) e'

/-- A request returns: it was refused, or it asked the cache and got an outcome there. -/
inductive Returned (history : List Event) (r : Request) : Except EngineError CachedResult → Prop
  | refused {error : EngineError} :
      .refused r error ∈ history → Returned history r (.error error)
  | answered {a : Adapter} {event event' : CacheEvent} {id : CallerId} {key : CacheKey}
      {outcome : Except GenerationError CachedResult} :
      .asked r a event ∈ history → event.asker? = some id → event' ∈ cacheHistory history →
      event'.Answers id key outcome → Returned history r (outcome.mapError .shared)

/-! ## Registries -/

theorem get?_register {a : Adapter} {registry : Registry} {id : PlatformId} (h : a.id ≠ id) :
    (registry.register a).get? id = registry.get? id := by
  induction registry with
  | nil => simp [Registry.register, Registry.get?, h]
  | cons b rest ih =>
    unfold Registry.register
    split
    · next hb => simp [Registry.get?, h, hb]
    · unfold Registry.get? at ih ⊢
      rw [List.find?_cons, List.find?_cons, ih]

theorem resolve_eq_ok {registry : Registry} {platform : String} {a : Adapter} :
    registry.resolve platform = .ok a ↔ registry.get? (.ofText platform) = some a := by
  unfold Registry.resolve
  cases registry.get? (.ofText platform) <;> simp

theorem id_of_get? {registry : Registry} {id : PlatformId} {a : Adapter}
    (h : registry.get? id = some a) : a.id = id := by
  simpa using List.find?_some h

/-! ## What a run preserves -/

variable {n : Nat} {history : List Event} {e : Engine}

theorem request_eq_of_error {r : Request} {error : GenerationError}
    (h : e.registry.resolve r.platform = .error error) :
    e.request r = (.done (.error (.own error)), e) := by
  simp only [request, h]

theorem Run.toOpen (h : Run n history e) : OpenRun n history e := by
  induction h with
  | nil hc => exact .nil hc
  | cons _ hs ih => exact ih.cons (.step hs)

/-- An event of the cache is a step of it, and other events leave it as it is. -/
theorem OpenStep.cache {e' : Engine} {event : Event} (hs : OpenStep history e event e') :
    (event.cacheEvent? = none ∧ e'.cache = e.cache) ∨
      ∃ ce, event.cacheEvent? = some ce ∧ e.cache.Step ce e'.cache := by
  cases hs with
  | replace => exact .inl ⟨rfl, rfl⟩
  | step hs =>
    cases hs with
    | register => exact .inl ⟨rfl, rfl⟩
    | resolve => exact .inl ⟨rfl, rfl⟩
    | refuse h =>
      rw [request_eq_of_error h]
      exact .inl ⟨rfl, rfl⟩
    | ask _ hc _ => exact .inr ⟨_, rfl, hc⟩
    | cache hc _ => exact .inr ⟨_, rfl, hc⟩

theorem OpenRun.cache (h : OpenRun n history e) : Cache.Run n (cacheHistory history) e.cache := by
  induction h with
  | nil hc =>
    rw [hc]
    exact .nil
  | cons _ hs ih =>
    rcases hs.cache with ⟨hnone, hc⟩ | ⟨ce, hsome, hc⟩
    · rw [cacheHistory, List.filterMap_cons_none hnone, hc]
      exact ih
    · rw [cacheHistory, List.filterMap_cons_some hsome]
      exact ih.cons hc

theorem Run.cache (h : Run n history e) : Cache.Run n (cacheHistory history) e.cache :=
  h.toOpen.cache

/-- What was before an event is a run of its own. -/
theorem OpenRun.of_append {later before : List Event} {event : Event}
    (h : OpenRun n (later ++ event :: before) e) :
    ∃ e₀ e₁, OpenRun n before e₀ ∧ OpenStep before e₀ event e₁ := by
  induction later generalizing e with
  | nil =>
    cases h with
    | cons hrun hstep => exact ⟨_, _, hrun, hstep⟩
  | cons _ later ih =>
    cases h with
    | cons hrun _ => exact ih hrun

/-- The adapter that a request found stays registered. -/
theorem Run.get?_of_resolved (h : Run n history e) {r : Request} {a : Adapter}
    (hr : .resolved r a ∈ history) : e.registry.get? (.ofText r.platform) = some a := by
  induction h with
  | nil => cases hr
  | @cons history e e' event _ hs ih =>
    rcases List.mem_cons.1 hr with rfl | hr
    · cases hs with
      | resolve h => exact resolve_eq_ok.1 h
    · have hget := ih hr
      cases hs with
      | register hnew =>
        refine (get?_register ?_).trans hget
        rintro hid
        rw [hid, hget] at hnew
        cases hnew
      | resolve => exact hget
      | refuse h =>
        rw [request_eq_of_error h]
        exact hget
      | ask => exact hget
      | cache => exact hget

theorem OpenRun.resolved_of_asked (h : OpenRun n history e) {r : Request} {a : Adapter}
    {event : CacheEvent} (hr : .asked r a event ∈ history) :
    .resolved r a ∈ history ∧ ∃ id, event.Asks id (keyFor a r) (computation a r) := by
  obtain ⟨later, before, rfl⟩ := List.append_of_mem hr
  obtain ⟨e₀, e₁, -, hs⟩ := h.of_append
  cases hs with
  | step hs =>
    cases hs with
    | ask hres _ hasks => exact ⟨List.mem_append_right _ (.tail _ hres), _, hasks⟩

theorem Run.resolved_of_asked (h : Run n history e) {r : Request} {a : Adapter} {event : CacheEvent}
    (hr : .asked r a event ∈ history) :
    .resolved r a ∈ history ∧ ∃ id, event.Asks id (keyFor a r) (computation a r) :=
  h.toOpen.resolved_of_asked hr

/-- Who comes on board of a flight is a request, with the computation of its adapter. -/
theorem OpenRun.eq_asked_of_boards (h : OpenRun n history e) {event : Event} (he : event ∈ history)
    {ce : CacheEvent} (hce : event.cacheEvent? = some ce) {id : CallerId} {slot : FlightId}
    {key : CacheKey} {c : Computation GenerationError CachedResult}
    (hb : ce.Boards id slot key c) :
    ∃ r a, event = .asked r a ce ∧ keyFor a r = key ∧ computation a r = c := by
  obtain ⟨later, before, rfl⟩ := List.append_of_mem he
  obtain ⟨e₀, e₁, -, hs⟩ := h.of_append
  cases hs with
  | replace => cases hce
  | step hs =>
    cases hs with
    | register | resolve | refuse => cases hce
    | ask _ _ hasks =>
      cases hce
      obtain ⟨hkey, hc⟩ := Cache.Event.eq_of_asks_of_boards hasks hb
      exact ⟨_, _, rfl, hkey, hc⟩
    | cache _ hnone =>
      cases hce
      rw [Cache.Event.asker_of_boards hb] at hnone
      cases hnone

/-- A request gets an outcome for the key that it asked for. -/
theorem OpenRun.key_eq_of_answers (h : OpenRun n history e) {r : Request} {a : Adapter}
    {event event' : CacheEvent} {id : CallerId} {key : CacheKey}
    {outcome : Except GenerationError CachedResult} (hasked : .asked r a event ∈ history)
    (hid : event.asker? = some id) (he : event' ∈ cacheHistory history)
    (ha : event'.Answers id key outcome) :
    event.Asks id (keyFor a r) (computation a r) ∧ key = keyFor a r := by
  obtain ⟨-, id', hasks⟩ := h.resolved_of_asked hasked
  obtain rfl : id' = id := Option.some.inj ((Cache.Event.asker_of_asks hasks).symm.trans hid)
  have hmem : event ∈ cacheHistory history := List.mem_filterMap.2 ⟨_, hasked, rfl⟩
  exact ⟨hasks, (h.cache.inv.key_eq_of_answers hmem he hasks ha).symm⟩

/-- What a request gets from the cache was computed for a request with the same key. -/
theorem OpenRun.computed_of_answers (h : OpenRun n history e) {r : Request} {a : Adapter}
    {event event' : CacheEvent} {id : CallerId} {key : CacheKey}
    {outcome : Except GenerationError CachedResult} (hasked : .asked r a event ∈ history)
    (hid : event.asker? = some id) (he : event' ∈ cacheHistory history)
    (ha : event'.Answers id key outcome) :
    ∃ r' a' event'' number, .asked r' a' event'' ∈ history ∧ keyFor a' r' = keyFor a r ∧
      (computation a' r').outcome number = outcome := by
  obtain ⟨-, rfl⟩ := h.key_eq_of_answers hasked hid he ha
  obtain ⟨slot, _, number, c, ⟨b, hb, hboards⟩, -, -, hc⟩ := h.cache.computed_of_answers he ha
  obtain ⟨x, hx, hxb⟩ := List.mem_filterMap.1 hb
  obtain ⟨r', a', rfl, hkey, rfl⟩ := h.eq_asked_of_boards hx hxb hboards
  exact ⟨r', a', b, number, hx, hkey, hc⟩

/-! ## Requests that take turns -/

/-- What happens to the cache without anybody asking for more goes on a run. -/
theorem Run.append_cached (h : Run n history e) {later : List CacheEvent}
    {cache : Cache GenerationError CachedResult} (hs : e.cache.Steps later cache)
    (hnone : ∀ event ∈ later, event.asker? = none) :
    Run n (later.map .cached ++ history) { e with cache } := by
  induction hs with
  | refl => exact h
  | cons _ hstep ih =>
    have hrun := ih fun event hevent => hnone event (.tail _ hevent)
    exact hrun.cons (.cache hstep (hnone _ (.head _)))

theorem mem_cacheHistory_append {later : List CacheEvent} {event : CacheEvent}
    (h : event ∈ later) (history : List Event) :
    event ∈ cacheHistory (later.map .cached ++ history) :=
  List.mem_filterMap.2 ⟨.cached event, List.mem_append_left _ (List.mem_map_of_mem h), rfl⟩

theorem done_of_mapError {ε ε' α : Type} {f : ε → ε'} {reply : Reply ε α} {outcome : Except ε' α}
    (h : reply.mapError f = .done outcome) :
    ∃ outcome', reply = .done outcome' ∧ outcome = outcome'.mapError f := by
  cases reply with
  | done outcome' => exact ⟨outcome', rfl, (Reply.done.inj h).symm⟩
  | waiting id => cases h

/-- A request comes in. -/
theorem Run.request (h : Run n history e) (r : Request) :
    ∃ later, Run n (later ++ history) (e.request r).2 ∧
      ∀ outcome, (e.request r).1 = .done outcome → Returned (later ++ history) r outcome := by
  cases hresolve : e.registry.resolve r.platform with
  | error error =>
    refine ⟨[.refused r (.own error)], h.cons (.refuse hresolve), fun outcome hdone => ?_⟩
    rw [request_eq_of_error hresolve] at hdone
    cases hdone
    exact .refused (.head _)
  | ok a =>
    obtain ⟨event, cache, later, hasks, hs, hsteps, hnone, hdone⟩ :=
      h.cache.inv.steps_request (keyFor a r) (computation a r)
    have hasked := (h.cons (.resolve hresolve)).cons (.ask (.head _) hs hasks)
    have hrun := hasked.append_cached hsteps hnone
    have hresult : e.request r =
        ((e.cache.request (keyFor a r) (computation a r)).1.mapError .shared,
          { e with cache := (e.cache.request (keyFor a r) (computation a r)).2 }) := by
      simp only [Engine.request, hresolve, keyFor]
    rw [hresult]
    refine ⟨later.map .cached ++ [.asked r a event, .resolved r a], by simpa using hrun, ?_⟩
    intro outcome ho
    obtain ⟨outcome', hreply, rfl⟩ := done_of_mapError ho
    obtain ⟨event', he', ha⟩ := hdone outcome' hreply
    have hmem : event' ∈ cacheHistory
        (later.map .cached ++ [.asked r a event, .resolved r a] ++ history) := by
      rcases List.mem_append.1 he' with he' | he'
      · exact List.mem_filterMap.2 ⟨.cached event', by simp [he'], rfl⟩
      · exact List.mem_filterMap.2 ⟨.asked r a event, by simp, by rw [List.mem_singleton.1 he']; rfl⟩
    exact .answered (a := a) (by simp) (Cache.Event.asker_of_asks hasks) hmem ha

/-- A request that asked the cache asks again. -/
theorem Run.poll (h : Run n history e) {r : Request} {a : Adapter} {event : CacheEvent}
    (hasked : .asked r a event ∈ history) {id : CallerId} (hid : event.asker? = some id) :
    ∃ later, Run n (later ++ history) (e.poll id).2 ∧
      ∀ outcome, (e.poll id).1 = .done outcome → Returned (later ++ history) r outcome := by
  obtain ⟨-, id', hasks⟩ := h.resolved_of_asked hasked
  obtain rfl : id' = id := Option.some.inj ((Cache.Event.asker_of_asks hasks).symm.trans hid)
  have hmem : event ∈ cacheHistory history := List.mem_filterMap.2 ⟨_, hasked, rfl⟩
  obtain ⟨later, hsteps, hnone, hdone⟩ := h.cache.inv.goesOn_poll ⟨event, hmem, hasks⟩
  refine ⟨_, h.append_cached hsteps hnone, fun outcome ho => ?_⟩
  obtain ⟨outcome', hreply, rfl⟩ := done_of_mapError ho
  obtain ⟨event', he', ha⟩ := hdone outcome' hreply
  exact .answered (List.mem_append_right _ hasked) hid (mem_cacheHistory_append he' history) ha

end DesignSystem.Engine

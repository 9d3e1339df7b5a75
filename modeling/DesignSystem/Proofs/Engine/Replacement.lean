import DesignSystem.Proofs.Cache.Vacancy
import DesignSystem.Proofs.Engine.Transparency

/-!
# Adapters that take the place of others

Registering an adapter under an identifier that has one changes what requests find, and leaves the
cache as it is. A request may then be given what the earlier adapter computed.

* `OpenRun.get?_of_lastRegistered`: requests find the adapter that was registered last.
* `OpenSteps.computed_of_answers`: what a request gets after the cache held nothing for its key was
  computed for a request that asked after that.
* `OpenRun.answers_of_lastRegistered`: what a request returns was computed by an adapter of its
  platform for its own schema and options, and by the adapter that was registered last if nothing
  else was in the cache or came into it.
-/

set_option autoImplicit false

namespace DesignSystem.Engine

variable {n : Nat} {history older newer : List Event} {e e₀ : Engine} {r : Request} {a : Adapter}

/-! ## What requests find -/

/-- Since an adapter was registered no other one was under its identifier. -/
def LastRegistered (history : List Event) (a : Adapter) : Prop :=
  ∃ newer older, history = newer ++ .registered a :: older ∧
    ∀ b, .registered b ∈ newer → b.id ≠ a.id

theorem get?_register_self (a : Adapter) (registry : Registry) :
    (registry.register a).get? a.id = some a := by
  induction registry with
  | nil => simp [Registry.register, Registry.get?]
  | cons b rest ih =>
    unfold Registry.register
    split
    · simp [Registry.get?]
    · next hb =>
      unfold Registry.get? at ih ⊢
      rw [List.find?_cons_of_neg (by simpa using hb), ih]

/-- Nothing but a registration changes which adapters there are. -/
theorem OpenStep.registry {e' : Engine} {event : Event} (hs : OpenStep history e event e') :
    (∃ b, event = .registered b ∧ e'.registry = e.registry.register b) ∨
      (∀ b, event ≠ .registered b) ∧ e'.registry = e.registry := by
  cases hs with
  | replace => exact .inl ⟨_, rfl, rfl⟩
  | step hs =>
    cases hs with
    | register => exact .inl ⟨_, rfl, rfl⟩
    | refuse h =>
      rw [request_eq_of_error h]
      exact .inr ⟨nofun, rfl⟩
    | resolve | ask | cache => exact .inr ⟨nofun, rfl⟩

theorem OpenRun.get?_of_lastRegistered (h : OpenRun n history e) (ha : LastRegistered history a) :
    e.registry.get? a.id = some a := by
  obtain ⟨newer, older, rfl, hothers⟩ := ha
  induction newer generalizing e with
  | nil =>
    cases h with
    | cons _ hs =>
      rcases hs.registry with ⟨b, hb, hregistry⟩ | ⟨hne, -⟩
      · cases hb
        rw [hregistry, get?_register_self]
      · exact absurd rfl (hne a)
  | cons event newer ih =>
    cases h with
    | cons hrun hs =>
      have hget := ih (fun b hb => hothers b (.tail _ hb)) hrun
      rcases hs.registry with ⟨b, rfl, hregistry⟩ | ⟨-, hregistry⟩
      · rw [hregistry, get?_register (hothers b (.head _)), hget]
      · rw [hregistry, hget]

/-- A request comes in: its platform is looked up. -/
inductive Event.Begins (r : Request) : Event → Prop
  | resolved {a : Adapter} : Begins r (.resolved r a)
  | refused {error : EngineError} : Begins r (.refused r error)

theorem OpenRun.eq_resolved_of_begins (h : OpenRun n history e) {later before : List Event}
    {event : Event} (hsplit : history = later ++ event :: before) (hbegins : event.Begins r)
    (hlast : LastRegistered before a) (hplatform : PlatformId.ofText r.platform = a.id) :
    event = .resolved r a := by
  subst hsplit
  obtain ⟨e₁, e₂, hrun, hs⟩ := h.of_append
  have hget := hrun.get?_of_lastRegistered hlast
  rw [← hplatform] at hget
  cases hbegins with
  | resolved =>
    cases hs with
    | step hs =>
      cases hs with
      | resolve hresolve =>
        rw [resolve_eq_ok, hget] at hresolve
        rw [Option.some.inj hresolve]
  | refused =>
    cases hs with
    | step hs =>
      rw [hs.eq_of_refused.1] at hget
      cases hget

/-! ## What requests return -/

/-- What may happen after a history, by which the engine was at `e₀`. -/
inductive OpenSteps (older : List Event) (e₀ : Engine) : List Event → Engine → Prop
  | refl : OpenSteps older e₀ [] e₀
  | cons {newer : List Event} {e e' : Engine} {event : Event} : OpenSteps older e₀ newer e →
      OpenStep (newer ++ older) e event e' → OpenSteps older e₀ (event :: newer) e'

theorem OpenRun.append (h : OpenRun n older e₀) (hs : OpenSteps older e₀ newer e) :
    OpenRun n (newer ++ older) e := by
  induction hs with
  | refl => exact h
  | cons _ hstep ih => exact ih.cons hstep

theorem OpenSteps.cache (hs : OpenSteps older e₀ newer e) :
    e₀.cache.Steps (cacheHistory newer) e.cache := by
  induction hs with
  | refl => exact .refl
  | cons _ hstep ih =>
    rcases hstep.cache with ⟨hnone, hc⟩ | ⟨ce, hsome, hc⟩
    · rw [cacheHistory, List.filterMap_cons_none hnone, hc]
      exact ih
    · rw [cacheHistory, List.filterMap_cons_some hsome]
      exact ih.cons hc

/-- A request whose adapter was found asked the cache and returned with an outcome. -/
inductive Answered (history : List Event) (r : Request) (a : Adapter) :
    Except EngineError CachedResult → Prop
  | answered {event event' : CacheEvent} {id : CallerId} {key : CacheKey}
      {outcome : Except GenerationError CachedResult} :
      .asked r a event ∈ history → event.asker? = some id → event' ∈ cacheHistory history →
      event'.Answers id key outcome → Answered history r a (outcome.mapError .shared)

theorem Answered.returned {outcome : Except EngineError CachedResult}
    (h : Answered history r a outcome) : Returned history r outcome := by
  cases h with
  | answered hasked hid he ha => exact .answered hasked hid he ha

theorem Answered.append {outcome : Except EngineError CachedResult}
    (h : Answered newer r a outcome) (older : List Event) :
    Answered (newer ++ older) r a outcome := by
  cases h with
  | answered hasked hid he ha =>
    refine .answered (List.mem_append_left _ hasked) hid ?_ ha
    rw [cacheHistory, List.filterMap_append]
    exact List.mem_append_left _ he

/-- What a request gets after the cache held nothing for its key was computed for a request with the
same key that asked after that. -/
theorem OpenSteps.computed_of_answers (hs : OpenSteps older e₀ newer e) (h : OpenRun n older e₀)
    (hvacant : e₀.cache.Vacant (keyFor a r)) {event event' : CacheEvent} {id : CallerId}
    {key : CacheKey} {outcome : Except GenerationError CachedResult}
    (hasked : .asked r a event ∈ newer) (hid : event.asker? = some id)
    (he : event' ∈ cacheHistory newer) (ha : event'.Answers id key outcome) :
    ∃ r' a' event'' number, .asked r' a' event'' ∈ newer ∧ keyFor a' r' = keyFor a r ∧
      (computation a' r').outcome number = outcome := by
  have hrun := h.append hs
  have hmem : event ∈ cacheHistory newer := List.mem_filterMap.2 ⟨_, hasked, rfl⟩
  have he' : event' ∈ cacheHistory newer ++ cacheHistory older := List.mem_append_left _ he
  have hall : event' ∈ cacheHistory (newer ++ older) := by
    rw [cacheHistory, List.filterMap_append]
    exact he'
  obtain ⟨hasks, rfl⟩ := hrun.key_eq_of_answers (List.mem_append_left _ hasked) hid hall ha
  obtain ⟨b, hb, id', slot, number, c, hboards, hc⟩ :=
    hs.cache.boarded_of_answers h.cache hvacant hmem hasks he' ha
  obtain ⟨x, hx, hxb⟩ := List.mem_filterMap.1 hb
  obtain ⟨r', a', rfl, hkey, rfl⟩ :=
    hrun.eq_asked_of_boards (List.mem_append_left _ hx) hxb hboards
  exact ⟨r', a', b, number, hx, hkey, hc⟩

/-- An outcome of a computation for requests with one key. -/
theorem outcome_eq_of_keyFor (hread : SchemasRead history)
    (hhash : Set.InjOn Blake3.digest (hashed history)) {r' : Request} {a' : Adapter}
    {event event' : CacheEvent} (hasked : .asked r a event ∈ history)
    (hasked' : .asked r' a' event' ∈ history) (hkey : keyFor a' r' = keyFor a r) (number : Nat) :
    (((computation a' r').outcome number).mapError EngineError.shared).map (·.result) =
      (a'.transform r.schema r.options).mapError .shared := by
  obtain ⟨-, hschema, hoptions⟩ := request_eq_of_keyFor hread hhash hasked hasked' hkey
  rw [← hschema, ← hoptions, ← map_computation a' r' number]
  cases (computation a' r').outcome number <;> rfl

/-- A request that comes in after an adapter was registered, and before another one is under its
identifier, finds the adapter. It returns what an adapter that was found under that identifier
computes for its schema and options. That is the registered adapter if there was a time before the
request asked the cache when the cache held nothing for its key, and all who asked for the key since
then had found the registered adapter as well. -/
theorem OpenRun.answers_of_lastRegistered (h : OpenRun n older e₀)
    (hs : OpenSteps older e₀ newer e) (hread : SchemasRead (newer ++ older))
    (hhash : Set.InjOn Blake3.digest (hashed (newer ++ older))) {later before : List Event}
    {event : Event} (hsplit : newer ++ older = later ++ event :: before)
    (hbegins : event.Begins r) (hlast : LastRegistered before a)
    (hplatform : PlatformId.ofText r.platform = a.id) :
    event = .resolved r a ∧
    (∀ outcome, Answered later r a outcome → ∃ r' b, .resolved r' b ∈ newer ++ older ∧
      b.id = a.id ∧ outcome.map (·.result) = (b.transform r.schema r.options).mapError .shared) ∧
    (e₀.cache.Vacant (keyFor a r) →
      (∀ r' b ce, .asked r' b ce ∈ newer → keyFor b r' = keyFor a r → b = a) →
      ∀ outcome, Answered newer r a outcome →
        outcome.map (·.result) = (a.transform r.schema r.options).mapError .shared) := by
  have hrun := h.append hs
  refine ⟨hrun.eq_resolved_of_begins hsplit hbegins hlast hplatform, fun outcome ho => ?_,
    fun hvacant hall outcome ho => ?_⟩
  · have hanswered := ho.append (event :: before)
    rw [← hsplit] at hanswered
    cases hanswered with
    | answered hasked hid he ha =>
      obtain ⟨r', b, ce, number, hasked', hkey, rfl⟩ :=
        hrun.computed_of_answers hasked hid he ha
      exact ⟨r', b, (hrun.resolved_of_asked hasked').1,
        (request_eq_of_keyFor hread hhash hasked hasked' hkey).1,
        outcome_eq_of_keyFor hread hhash hasked hasked' hkey number⟩
  · cases ho with
    | answered hasked hid he ha =>
      obtain ⟨r', b, ce, number, hasked', hkey, rfl⟩ :=
        hs.computed_of_answers h hvacant hasked hid he ha
      obtain rfl := hall r' b ce hasked' hkey
      exact outcome_eq_of_keyFor hread hhash (List.mem_append_left _ hasked)
        (List.mem_append_left _ hasked') hkey number

/-! ## A replaced adapter -/

/-- An adapter for the same platform that writes a theme. -/
def themedAdapter : Adapter where
  id := ⟨"css"⟩
  transform s _ := .ok { platform := ⟨"css"⟩, schemaId := s.id, theme := ":root" }
  generate c _ := .error (.unknownPlatform c.name [])

/-- What the adapter computes for the schema, as the second computation. -/
def themedResult : CachedResult :=
  ⟨2, { platform := ⟨"css"⟩, schemaId := "brand", theme := ":root" }⟩

/-- The key of all requests here, whichever adapter they find. -/
def brandKey : CacheKey := keyFor cssAdapter (brandFor "css")

/-- A request computes a result, and then another adapter is registered. -/
def replaced : List Event :=
  [.registered themedAdapter,
    .cached (.returned 0 0 brandKey (.ok brandResult) true),
    .cached (.ended 0 0 1 (.ok brandResult)),
    .cached (.started 0 0 1),
    .asked (brandFor "css") cssAdapter (.began 0 brandKey (computation cssAdapter (brandFor "css"))),
    .resolved (brandFor "css") cssAdapter,
    .registered cssAdapter]

/-- Another request finds the new adapter, and the result of the earlier one. -/
def outdated : List Event :=
  [.asked (brandFor "css") themedAdapter (.hit 1 brandKey brandResult),
    .resolved (brandFor "css") themedAdapter]

/-- After the schema was invalidated, another request computes a result. -/
def renewed : List Event :=
  [.cached (.returned 1 1 brandKey (.ok themedResult) true),
    .cached (.ended 1 1 2 (.ok themedResult)),
    .cached (.started 1 1 2),
    .asked (brandFor "css") themedAdapter
      (.began 1 brandKey (computation themedAdapter (brandFor "css"))),
    .resolved (brandFor "css") themedAdapter]

/-- What is in the cache then. -/
def replacedCache : Cache GenerationError CachedResult where
  capacity := 8
  entries := [(brandKey, brandResult)]
  started := [brandKey]
  misses := 1

theorem resolve_css {a : Adapter} (h : a.id = ⟨"css"⟩) : Registry.resolve "css" [a] = .ok a := by
  have hid : PlatformId.ofText "css" = ⟨"css"⟩ := by decide +kernel
  rw [resolve_eq_ok, hid]
  simp [Registry.get?, h]

theorem run_replaced :
    OpenRun 8 replaced { registry := [themedAdapter], cache := replacedCache } := by
  have h₀ : OpenRun 8 [] { registry := [], cache := .ofCapacity 8 } := .nil rfl
  have h₁ := h₀.cons (.replace (a := cssAdapter))
  have h₂ := h₁.cons (.step (.resolve (r := brandFor "css") (resolve_css rfl)))
  have h₃ := h₂.cons (.step (.ask (.head _) (.begin rfl rfl) .began))
  have h₄ := h₃.cons (.step (.cache (.start ⟨.head _, .head _⟩ rfl rfl rfl) rfl))
  have h₅ := h₄.cons (.step (.cache (.conclude ⟨.head _, .head _⟩ rfl rfl rfl) rfl))
  have h₆ := h₅.cons (.step (.cache (.collect ⟨.head _, .head _⟩ rfl rfl) rfl))
  exact h₆.cons (.replace (a := themedAdapter))

theorem asked_brand {ce : CacheEvent} (h : .asked r a ce ∈ renewed ++ outdated ++ replaced) :
    r = brandFor "css" ∧ a.id = ⟨"css"⟩ := by
  simp only [renewed, outdated, replaced, List.cons_append, List.nil_append, List.mem_cons,
    Event.asked.injEq, reduceCtorEq, List.not_mem_nil, false_or, or_false] at h
  rcases h with ⟨rfl, rfl, -⟩ | ⟨rfl, rfl, -⟩ | ⟨rfl, rfl, -⟩
  all_goals exact ⟨rfl, rfl⟩

/-- The requests here are for one schema, which was read, and the same bytes are hashed for all. -/
theorem read_and_hashed (h : ∀ r b ce, .asked r b ce ∈ history →
    .asked r b ce ∈ renewed ++ outdated ++ replaced) :
    SchemasRead history ∧ Set.InjOn Blake3.digest (hashed history) := by
  constructor
  · intro r b ce hasked
    exact ⟨"\x7b\"id\":\"brand\"\x7d", by rw [(asked_brand (h r b ce hasked)).1]; cbv⟩
  · rintro _ ⟨r, b, ce, hasked, rfl⟩ _ ⟨r', b', ce', hasked', rfl⟩ -
    obtain ⟨rfl, hid⟩ := asked_brand (h r b ce hasked)
    obtain ⟨rfl, hid'⟩ := asked_brand (h r' b' ce' hasked')
    rw [hid, hid']

/-- Once the schema was invalidated the new adapter is asked. -/
theorem OpenRun.answers_of_lastRegistered_renewed : ∃ e₀ e,
    OpenRun 8 (.cached (.invalidated "brand") :: replaced) e₀ ∧
    OpenSteps (.cached (.invalidated "brand") :: replaced) e₀ renewed e ∧
    e₀.cache.Vacant (keyFor themedAdapter (brandFor "css")) ∧
    Answered renewed (brandFor "css") themedAdapter (.ok themedResult) ∧
    .ok themedResult.result = (themedAdapter.transform brand {}).mapError EngineError.shared := by
  have h := run_replaced.cons (.step (.cache (.invalidate "brand") rfl))
  have hvacant : (replacedCache.invalidate "brand").2.Vacant
      (keyFor themedAdapter (brandFor "css")) := Cache.vacant_invalidate replacedCache _
  have s₀ : OpenSteps (.cached (.invalidated "brand") :: replaced)
      { registry := [themedAdapter], cache := (replacedCache.invalidate "brand").2 } [] _ := .refl
  have s₁ := s₀.cons (.step (.resolve (r := brandFor "css") (resolve_css rfl)))
  have s₂ := s₁.cons (.step (.ask (.head _) (.begin hvacant.1 hvacant.2) .began))
  have s₃ := s₂.cons (.step (.cache (.start ⟨.head _, .head _⟩ rfl rfl rfl) rfl))
  have s₄ := s₃.cons (.step (.cache (.conclude ⟨.head _, .head _⟩ rfl rfl rfl) rfl))
  have s₅ := s₄.cons (.step (.cache (.collect ⟨.head _, .head _⟩ rfl rfl) rfl))
  have hasked : ∀ r b ce, .asked r b ce ∈ renewed ++ .cached (.invalidated "brand") :: replaced →
      .asked r b ce ∈ renewed ++ outdated ++ replaced := by
    intro r b ce hmem
    simp only [List.mem_append, List.mem_cons, reduceCtorEq, false_or] at hmem ⊢
    exact hmem.imp_left .inl
  have hlast : LastRegistered (.cached (.invalidated "brand") :: replaced) themedAdapter :=
    ⟨[.cached (.invalidated "brand")], replaced.tail, rfl, by simp⟩
  have hanswered : Answered renewed (brandFor "css") themedAdapter (.ok themedResult) :=
    @Answered.answered _ _ _ _ _ _ _ (.ok themedResult) (.tail _ (.tail _ (.tail _ (.head _)))) rfl
      (.head _) .returned
  obtain ⟨hread, hhash⟩ := read_and_hashed hasked
  have hsplit : renewed ++ .cached (.invalidated "brand") :: replaced = renewed.take 4 ++
      .resolved (brandFor "css") themedAdapter :: .cached (.invalidated "brand") :: replaced := rfl
  obtain ⟨-, -, hanswers⟩ := h.answers_of_lastRegistered s₅ hread hhash hsplit .resolved hlast
    (by decide +kernel)
  refine ⟨_, _, h, s₅, hvacant, hanswered, hanswers hvacant ?_ _ hanswered⟩
  intro r b ce hmem _
  simp only [List.mem_cons, Event.asked.injEq, reduceCtorEq, List.not_mem_nil, false_or,
    or_false] at hmem
  exact hmem.2.1

/-- Until then a request that finds the new adapter may return what the earlier one computed. -/
theorem OpenRun.answered_outdated : ∃ e, OpenRun 8 (outdated ++ replaced) e ∧
    SchemasRead (outdated ++ replaced) ∧ Set.InjOn Blake3.digest (hashed (outdated ++ replaced)) ∧
    LastRegistered replaced themedAdapter ∧
    PlatformId.ofText (brandFor "css").platform = themedAdapter.id ∧
    Answered outdated (brandFor "css") themedAdapter (.ok brandResult) ∧
    .ok brandResult.result ≠ (themedAdapter.transform brand {}).mapError EngineError.shared := by
  have hkept : replacedCache.entries.get? brandKey = some brandResult := if_pos rfl
  have h₁ := run_replaced.cons (.step (.resolve (r := brandFor "css") (resolve_css rfl)))
  have h₂ := h₁.cons (.step (.ask (.head _) (@Cache.Step.hit _ _ _ _
    (computation themedAdapter (brandFor "css")) brandResult hkept) .hit))
  have hasked : ∀ r b ce, .asked r b ce ∈ outdated ++ replaced →
      .asked r b ce ∈ renewed ++ outdated ++ replaced := by
    intro r b ce hmem
    rw [List.append_assoc]
    exact List.mem_append_right _ hmem
  obtain ⟨hread, hhash⟩ := read_and_hashed hasked
  refine ⟨_, h₂, hread, hhash, ⟨[], replaced.tail, rfl, nofun⟩, by decide +kernel, ?_, ?_⟩
  · exact @Answered.answered _ _ _ _ _ _ _ (.ok brandResult) (.head _) rfl (.head _) .hit
  · intro heq
    have htheme := congrArg (fun x : Except EngineError Transformation =>
      x.toOption.map (·.theme)) heq
    exact absurd htheme (by decide)

end DesignSystem.Engine

import DesignSystem.Proofs.Cache.Key
import DesignSystem.Proofs.Engine.Run
import Mathlib.Data.Set.Function

/-!
# What requests return does not depend on the cache

* `Run.transparent`: whatever else happens to an engine, a request returns what its adapter computes
  for its own schema and options, and a request for an unknown platform changes nothing.
-/

set_option autoImplicit false

namespace DesignSystem.Engine

/-- All schemas that were asked for were read from text. -/
def SchemasRead (history : List Event) : Prop :=
  ∀ r a event, .asked r a event ∈ history →
    ∃ text, Decoder.ofText Decoder.schema text = .ok r.schema

/-- The bytes that were hashed for keys. -/
def hashed (history : List Event) : Set (List UInt8) :=
  {bytes | ∃ r a event, .asked r a event ∈ history ∧
    bytes = CacheKey.content r.schema a.id r.options}

variable {n : Nat} {history : List Event} {e : Engine}

/-- Requests with one key ask for the same, of adapters for one platform. -/
theorem request_eq_of_keyFor (hread : SchemasRead history)
    (hhash : Set.InjOn Blake3.digest (hashed history)) {r r' : Request} {a a' : Adapter}
    {event event' : CacheEvent} (hasked : .asked r a event ∈ history)
    (hasked' : .asked r' a' event' ∈ history) (hkey : keyFor a' r' = keyFor a r) :
    a'.id = a.id ∧ r'.schema = r.schema ∧ r'.options = r.options := by
  obtain ⟨text, htext⟩ := hread r a event hasked
  obtain ⟨text', htext'⟩ := hread r' a' event' hasked'
  -- equal hashes are of equal bytes, and the bytes determine the request
  have hdigest : Blake3.digest (CacheKey.content r'.schema a'.id r'.options) =
      Blake3.digest (CacheKey.content r.schema a.id r.options) := congrArg CacheKey.digest hkey
  have hcontent := hhash ⟨r', a', event', hasked', rfl⟩ ⟨r, a, event, hasked, rfl⟩ hdigest
  obtain ⟨hschema, hid, hoptions⟩ := CacheKey.content_injective
    (Decoder.rereads_of_ofText htext') (Decoder.rereads_of_ofText htext) hcontent
  exact ⟨hid, hschema, hoptions⟩

/-- What an adapter computes for a request, as a computation of any number. -/
theorem map_computation (a : Adapter) (r : Request) (number : Nat) :
    ((computation a r).outcome number).map (·.result) = a.transform r.schema r.options := by
  unfold computation
  cases a.transform r.schema r.options <;> rfl

/-- Requests with one key ask one adapter for the same. -/
theorem Run.eq_of_keyFor (h : Run n history e) (hread : SchemasRead history)
    (hhash : Set.InjOn Blake3.digest (hashed history)) {r r' : Request} {a a' : Adapter}
    {event event' : CacheEvent} (hasked : .asked r a event ∈ history)
    (hasked' : .asked r' a' event' ∈ history) (hkey : keyFor a' r' = keyFor a r) :
    a' = a ∧ r'.schema = r.schema ∧ r'.options = r.options := by
  obtain ⟨hid, hschema, hoptions⟩ := request_eq_of_keyFor hread hhash hasked hasked' hkey
  have hget := h.get?_of_resolved (h.resolved_of_asked hasked).1
  have hget' := h.get?_of_resolved (h.resolved_of_asked hasked').1
  have hplatform : PlatformId.ofText r'.platform = .ofText r.platform := by
    rw [← id_of_get? hget, ← id_of_get? hget', hid]
  rw [hplatform, hget] at hget'
  exact ⟨(Option.some.inj hget').symm, hschema, hoptions⟩

theorem Run.result_of_answers (h : Run n history e) (hread : SchemasRead history)
    (hhash : Set.InjOn Blake3.digest (hashed history)) {r : Request} {a : Adapter}
    {event event' : CacheEvent} {id : CallerId} {key : CacheKey}
    {outcome : Except GenerationError CachedResult} (hasked : .asked r a event ∈ history)
    (hid : event.asker? = some id) (he : event' ∈ cacheHistory history)
    (ha : event'.Answers id key outcome) :
    outcome.map (·.result) = a.transform r.schema r.options := by
  obtain ⟨r', a', event'', number, hasked', hkey, hc⟩ := h.toOpen.computed_of_answers hasked hid he ha
  obtain ⟨rfl, hschema, hoptions⟩ := h.eq_of_keyFor hread hhash hasked hasked' hkey
  rw [← hc, ← hschema, ← hoptions, map_computation]

theorem resolve_eq_error {registry : Registry} {platform : String} {error : GenerationError} :
    registry.resolve platform = .error error ↔ registry.get? (.ofText platform) = none ∧
      error = .unknownPlatform platform (registry.platforms.map (·.text)) := by
  unfold Registry.resolve
  cases registry.get? (.ofText platform) <;> simp [eq_comm]

/-- A request is refused because no adapter has its platform. -/
theorem Step.eq_of_refused {e' : Engine} {r : Request} {error : EngineError}
    (h : Step history e (.refused r error) e') :
    e.registry.get? (.ofText r.platform) = none ∧ e' = e ∧
      error = .own (.unknownPlatform r.platform (e.registry.platforms.map (·.text))) := by
  cases h with
  | refuse h =>
    obtain ⟨hnone, rfl⟩ := resolve_eq_error.1 h
    exact ⟨hnone, congrArg Prod.snd (request_eq_of_error h), rfl⟩

theorem Run.error_of_refused (h : Run n history e) {r : Request} {error : EngineError}
    (hr : .refused r error ∈ history) :
    ∃ registered, error = .own (.unknownPlatform r.platform registered) := by
  induction h with
  | nil => cases hr
  | cons _ hs ih =>
    rcases List.mem_cons.1 hr with rfl | hr
    · exact ⟨_, hs.eq_of_refused.2.2⟩
    · exact ih hr

/-- What requests return does not depend on the cache. Whatever else happens, a request returns what
the adapter of its platform computes for its own schema and options, or the error of the adapter,
unless no adapter is registered for its platform; such a request fails with the platform's name and
changes nothing. -/
theorem Run.transparent (h : Run n history e) (hread : SchemasRead history)
    (hhash : Set.InjOn Blake3.digest (hashed history)) :
    (∀ r outcome, Returned history r outcome →
      (∃ a, e.registry.get? (.ofText r.platform) = some a ∧
        outcome.map (·.result) = (a.transform r.schema r.options).mapError .shared) ∨
      ∃ registered, outcome = .error (.own (.unknownPlatform r.platform registered)) ∧
        .refused r (.own (.unknownPlatform r.platform registered)) ∈ history) ∧
    (∀ r error e', Step history e (.refused r error) e' →
      e.registry.get? (.ofText r.platform) = none ∧ e' = e ∧
        error = .own (.unknownPlatform r.platform (e.registry.platforms.map (·.text)))) ∧
    (∀ r, e.registry.get? (.ofText r.platform) = none →
      e.request r = (.done (.error (.own
        (.unknownPlatform r.platform (e.registry.platforms.map (·.text))))), e) ∧
      ∀ a e', ¬ Step history e (.resolved r a) e') := by
  refine ⟨fun r outcome hreturned => ?_, fun r error e' hs => hs.eq_of_refused,
    fun r hnone => ⟨request_eq_of_error (resolve_eq_error.2 ⟨hnone, rfl⟩), fun a e' hs => ?_⟩⟩
  · cases hreturned with
    | refused hr =>
      obtain ⟨registered, rfl⟩ := h.error_of_refused hr
      exact .inr ⟨registered, rfl, hr⟩
    | @answered a event event' id key outcome hasked hid he ha =>
      have hresult := h.result_of_answers hread hhash hasked hid he ha
      refine .inl ⟨a, h.get?_of_resolved (h.resolved_of_asked hasked).1, ?_⟩
      rw [← hresult]
      cases outcome <;> rfl
  · cases hs with
    | resolve hr =>
      rw [resolve_eq_ok.1 hr] at hnone
      cases hnone

/-- A schema without tokens and components. -/
def brand : Schema := { id := "brand" }

/-- An adapter that generates nothing. -/
def cssAdapter : Adapter where
  id := ⟨"css"⟩
  transform s _ := .ok { platform := ⟨"css"⟩, schemaId := s.id }
  generate c _ := .error (.unknownPlatform c.name [])

/-- A request for the schema, with a spelling of a platform. -/
def brandFor (platform : String) : Request := ⟨brand, platform, {}⟩

/-- What the adapter computes for the schema, as the first computation. -/
def brandResult : CachedResult := ⟨1, { platform := ⟨"css"⟩, schemaId := "brand" }⟩

/-- A request computes a result, and another one with a different spelling of the platform finds it;
then a request for an unknown platform is refused. -/
def spellings : List Event :=
  let key := keyFor cssAdapter (brandFor " CSS")
  [.refused (brandFor "figma") (.own (.unknownPlatform "figma" ["css"])),
    .asked (brandFor "css") cssAdapter (.hit 1 key brandResult),
    .resolved (brandFor "css") cssAdapter,
    .cached (.returned 0 0 key (.ok brandResult) true),
    .cached (.ended 0 0 1 (.ok brandResult)),
    .cached (.started 0 0 1),
    .asked (brandFor " CSS") cssAdapter (.began 0 key (computation cssAdapter (brandFor " CSS"))),
    .resolved (brandFor " CSS") cssAdapter,
    .registered cssAdapter]

theorem run_spellings : ∃ e, Run 8 spellings e ∧ e.registry = [cssAdapter] := by
  have hresolve : ∀ {cache platform}, PlatformId.ofText platform = ⟨"css"⟩ →
      ({ registry := [cssAdapter], cache } : Engine).registry.resolve platform = .ok cssAdapter := by
    intro cache platform h
    rw [resolve_eq_ok, h]
    rfl
  have h₀ : Run 8 [] { registry := [], cache := .ofCapacity 8 } := .nil rfl
  have h₁ := h₀.cons (.register (a := cssAdapter) rfl)
  have h₂ := h₁.cons (.resolve (r := brandFor " CSS") (hresolve (by decide +kernel)))
  have h₃ := h₂.cons (.ask (.head _) (.begin rfl rfl) .began)
  have h₄ := h₃.cons (.cache (.start ⟨.head _, .head _⟩ rfl rfl rfl) rfl)
  have h₅ := h₄.cons (.cache (.conclude ⟨.head _, .head _⟩ rfl rfl rfl) rfl)
  have h₆ := h₅.cons (.cache (.collect ⟨.head _, .head _⟩ rfl rfl) rfl)
  have h₇ := h₆.cons (.resolve (r := brandFor "css") (hresolve (by decide +kernel)))
  have h₈ := h₇.cons (.ask (.head _) (@Cache.Step.hit _ _ _ _
    (computation cssAdapter (brandFor "css")) brandResult (if_pos rfl)) .hit)
  have h₉ := h₈.cons (.refuse (r := brandFor "figma") (resolve_eq_error.2 ⟨by decide +kernel, rfl⟩))
  exact ⟨_, h₉, rfl⟩

theorem eq_of_asked_spellings {r : Request} {a : Adapter} {event : CacheEvent}
    (h : .asked r a event ∈ spellings) : r.schema = brand ∧ a = cssAdapter ∧ r.options = {} := by
  simp only [spellings, List.mem_cons, Event.asked.injEq, reduceCtorEq, List.not_mem_nil,
    false_or, or_false] at h
  rcases h with ⟨rfl, rfl, -⟩ | ⟨rfl, rfl, -⟩
  · exact ⟨rfl, rfl, rfl⟩
  · exact ⟨rfl, rfl, rfl⟩

/-- The second request returns what its adapter computes, and the third one is refused. -/
theorem Run.transparent_spellings : ∃ e, Run 8 spellings e ∧
    (∃ a, e.registry.get? (.ofText "css") = some a ∧
      .ok brandResult.result = (a.transform brand {}).mapError EngineError.shared) ∧
    e.request (brandFor "figma") = (.done (.error (.own (.unknownPlatform "figma" ["css"]))), e) := by
  obtain ⟨e, hrun, hregistry⟩ := run_spellings
  have hread : SchemasRead spellings := fun r a event h =>
    ⟨"\x7b\"id\":\"brand\"\x7d", by rw [(eq_of_asked_spellings h).1]; cbv⟩
  have hhash : Set.InjOn Blake3.digest (hashed spellings) := by
    rintro _ ⟨r, a, event, h, rfl⟩ _ ⟨r', a', event', h', rfl⟩ -
    obtain ⟨hs, ha, ho⟩ := eq_of_asked_spellings h
    obtain ⟨hs', ha', ho'⟩ := eq_of_asked_spellings h'
    rw [hs, ha, ho, hs', ha', ho']
  obtain ⟨hreturns, -, hrefuses⟩ := hrun.transparent hread hhash
  have hreturned : Returned spellings (brandFor "css") (.ok brandResult) :=
    .answered (a := cssAdapter) (.tail _ (.head _)) rfl (.head _) .hit
  have hnone : e.registry.get? (.ofText "figma") = none := by
    rw [hregistry]
    decide +kernel
  refine ⟨e, hrun, (hreturns _ _ hreturned).resolve_right ?_, ?_⟩
  · rintro ⟨_, h, -⟩
    cases h
  · have hrefused := (hrefuses (brandFor "figma") hnone).1
    rw [hregistry] at hrefused
    exact hrefused

end DesignSystem.Engine

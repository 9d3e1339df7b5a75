import DesignSystem.Cache.Basic
import DesignSystem.Config.Basic
import DesignSystem.Registry

/-!
# Engines

An engine finds the adapter of a platform and keeps transformations in a cache, so that each is
made once while it is kept. Requests take turns: one that cannot be answered at once is asked again
until it is.
-/

set_option autoImplicit false

namespace DesignSystem

/-- A transformation with the number of the computation that made it. -/
structure CachedResult where
  number : Nat
  result : Transformation

/-- Why an engine does not answer with a result. -/
inductive EngineError
  /-- The request failed by itself. -/
  | own (error : GenerationError)
  /-- A computation failed, for all who waited for it. -/
  | shared (error : GenerationError)

namespace EngineError

/-- The failure of the generation. -/
def generation : EngineError → GenerationError
  | own error => error
  | shared error => error

/-- The error in words. -/
def message (e : EngineError) : String := e.generation.message

/-- Whether others may have got the same error. -/
def isShared : EngineError → Bool
  | own _ => false
  | shared _ => true

/-- Whether no adapter was found. -/
def isUnknownPlatform (e : EngineError) : Bool :=
  match e.generation with
  | .unknownPlatform _ _ => true
  | _ => false

end EngineError

/-- What an engine is asked for. -/
structure Request where
  schema : Schema
  platform : String
  options : TransformOptions

/-- The key of a request. -/
def Request.key (r : Request) : CacheKey :=
  .ofRequest r.schema (.ofText r.platform) r.options

/-- An engine. -/
structure Engine where
  registry : Registry
  cache : Cache GenerationError CachedResult
  defaultOptions : TransformOptions := {}

namespace Engine

/-- An engine with some adapters and room for some results. -/
def ofRegistry (registry : Registry) (capacity : Nat) : Engine where
  registry := registry
  cache := .ofCapacity capacity

/-- An engine with the built-in adapters, whose templates come from the folder that is configured,
which `folderAt` looks up. -/
def ofConfig (folderAt : String → Folder) (c : Config) : Engine where
  registry := .builtIn (match c.templateFolder with
    | some path => .folder (folderAt path)
    | none => .empty)
  cache := .ofCapacity c.cacheCapacity
  defaultOptions := c.defaultOptions

/-- Registers an adapter. -/
def register (a : Adapter) (e : Engine) : Engine := { e with registry := e.registry.register a }

/-- The computation that an adapter runs for a request. -/
def computation (a : Adapter) (r : Request) : Computation GenerationError CachedResult where
  turns := a.turns
  outcome := fun n => (a.transform r.schema r.options).map (⟨n, ·⟩)

/-- A request comes in. An unknown platform is found out before the cache is asked. -/
def request (r : Request) (e : Engine) : Reply EngineError CachedResult × Engine :=
  match e.registry.resolve r.platform with
  | .error error => (.done (.error (.own error)), e)
  | .ok a =>
    let (reply, cache) := e.cache.request (.ofRequest r.schema a.id r.options) (computation a r)
    (reply.mapError .shared, { e with cache })

/-- A waiting request asks again. -/
def poll (id : CallerId) (e : Engine) : Reply EngineError CachedResult × Engine :=
  let (reply, cache) := e.cache.poll id
  (reply.mapError .shared, { e with cache })

/-! ## Requests that go on together -/

/-- Requests come in one after the other. -/
def requestAll : List Request → Engine → List (Reply EngineError CachedResult) × Engine
  | [], e => ([], e)
  | r :: rs, e =>
    let (reply, e) := e.request r
    let (replies, e) := requestAll rs e
    (reply :: replies, e)

/-- All waiting requests ask again, one after the other. -/
def pollAll :
    List (Reply EngineError CachedResult) → Engine → List (Reply EngineError CachedResult) × Engine
  | [], e => ([], e)
  | .done outcome :: rest, e =>
    let (replies, e) := pollAll rest e
    (.done outcome :: replies, e)
  | .waiting id :: rest, e =>
    let (reply, e) := e.poll id
    let (replies, e) := pollAll rest e
    (reply :: replies, e)

/-- All waiting requests ask again, for a number of rounds. -/
def pollRounds : Nat → List (Reply EngineError CachedResult) → Engine →
    List (Reply EngineError CachedResult) × Engine
  | 0, replies, e => (replies, e)
  | n + 1, replies, e =>
    let (replies, e) := e.pollAll replies
    pollRounds n replies e

/-- The most turns that an adapter takes. -/
def maxTurns (e : Engine) : Nat := e.registry.foldl (fun n a => max n a.turns) 0

/-- Requests come in one after the other and ask again in turn, until all are answered. If none was
waiting before, that takes no more rounds than the slowest adapter takes turns. -/
def transformAll (requests : List Request) (e : Engine) :
    List (Reply EngineError CachedResult) × Engine :=
  let (replies, e) := e.requestAll requests
  e.pollRounds e.maxTurns replies

/-- A single request. -/
def transform (r : Request) (e : Engine) : Reply EngineError CachedResult × Engine :=
  let (reply, e) := e.request r
  match reply with
  | .done outcome => (.done outcome, e)
  | .waiting id =>
    let (reply, cache) := e.cache.pollUpTo e.maxTurns id
    (reply.mapError .shared, { e with cache })

/-- Generates a component, which is not kept. -/
def generate (c : ComponentSpec) (platform : String) (options : TransformOptions) (e : Engine) :
    Except EngineError GeneratedComponent :=
  ((e.registry.resolve platform).bind fun a => a.generate c options).mapError .own

/-- The result that is kept for a request, if there is one. -/
def peek (r : Request) (e : Engine) : Option CachedResult := e.cache.peek r.key

/-- Gives up the results of a schema. -/
def invalidate (schemaId : String) (e : Engine) : Nat × Engine :=
  let (removed, cache) := e.cache.invalidate schemaId
  (removed, { e with cache })

/-- Gives up all results. -/
def clear (e : Engine) : Engine := { e with cache := e.cache.clear }

end Engine

end DesignSystem

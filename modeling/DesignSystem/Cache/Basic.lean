import DesignSystem.Cache.Key
import DesignSystem.Cache.Recency

/-!
# Caches

A cache keeps the values that have been computed for keys, and lets several callers that ask for
one key at a time share one computation: a flight. One caller of a flight runs its computation; the
others wait for its outcome. A caller that is given up before the outcome is known makes room for
another, who runs a computation of its own. Only a value is kept; an error goes to the callers of
the flight and is forgotten.

Invalidation detaches the flights of a schema: their callers still get an outcome, but it is not
kept, and no further callers join them.

The first part says what happens at one go, without anybody else in between. Callers that are asked
one at a time (`request`, `poll`, `leave`) do several of these things in a row; callers on several
threads may do them in any order.
-/

set_option autoImplicit false

namespace DesignSystem

/-- A computation: how many turns pass before it ends, and how it ends, which may depend on its
number among all computations that the cache has seen started. -/
structure Computation (ε α : Type) where
  turns : Nat := 0
  outcome : Nat → Except ε α

/-- The number of a caller. -/
abbrev CallerId := Nat

/-- How far a caller of a flight is. -/
inductive CallerStage
  /-- It waits for the outcome, or to run its computation. -/
  | waiting
  /-- It runs its computation, or has run it to its end. -/
  | running (number : Nat)
  /-- It was given up, and runs nothing any more. -/
  | leaving
  /-- It has seen to it that a flight of its own does not stay behind. -/
  | released
  deriving DecidableEq

namespace CallerStage

/-- Whether a caller runs its computation, or has run it. -/
def isRunning : CallerStage → Bool
  | running _ => true
  | _ => false

/-- Whether a caller still wants an outcome. -/
def isActive : CallerStage → Bool
  | waiting | running _ => true
  | leaving | released => false

end CallerStage

/-- A caller of a flight. -/
structure Caller (ε α : Type) where
  id : CallerId
  computation : Computation ε α
  stage : CallerStage := .waiting

namespace Caller

variable {ε α : Type}

/-- The caller at another stage. -/
def withStage (stage : CallerStage) (a : Caller ε α) : Caller ε α := { a with stage }

/-- The caller after a turn of its computation. -/
def tick (a : Caller ε α) : Caller ε α :=
  { a with computation := { a.computation with turns := a.computation.turns - 1 } }

end Caller

/-- The number of a flight, which is that of the caller that began it. -/
abbrev FlightId := Nat

/-- A shared computation of the value of a key. -/
structure Flight (ε α : Type) where
  id : FlightId
  key : CacheKey
  /-- Whether requests for its key join it. -/
  joinable : Bool := true
  /-- How it ended, if it has. -/
  outcome : Option (Except ε α) := none
  /-- Its callers in the order in which they came. -/
  callers : List (Caller ε α)

namespace Flight

variable {ε α : Type}

/-- The caller of a number, if it still wants an outcome. -/
def caller? (id : CallerId) (f : Flight ε α) : Option (Caller ε α) :=
  f.callers.find? fun a => a.id = id && a.stage.isActive

/-- The caller that runs its computation. -/
def runner? (f : Flight ε α) : Option (Caller ε α) := f.callers.find? (·.stage.isRunning)

/-- The caller whose turn it is: the one that runs, or else the first one that waits. -/
def next? (f : Flight ε α) : Option (Caller ε α) :=
  match f.runner? with
  | some a => some a
  | none => f.callers.find? (·.stage = .waiting)

/-- The flight with one more caller. -/
def join (a : Caller ε α) (f : Flight ε α) : Flight ε α := { f with callers := f.callers ++ [a] }

/-- The flight with other facts about a caller. -/
def update (a : Caller ε α) (f : Flight ε α) : Flight ε α :=
  { f with callers := f.callers.map fun b => if b.id = a.id then a else b }

/-- The flight without a caller. -/
def leave (id : CallerId) (f : Flight ε α) : Flight ε α :=
  { f with callers := f.callers.filter (·.id ≠ id) }

/-- The flight to which no further callers come. -/
def detach (f : Flight ε α) : Flight ε α := { f with joinable := false }

/-- Whether the flight has but one caller, and has not ended. -/
def isAbandoned (f : Flight ε α) : Bool := f.outcome.isNone && f.callers.length = 1

/-- Whether anybody can still come across the flight. -/
def isKept (f : Flight ε α) : Bool := f.joinable || !f.callers.isEmpty

end Flight

/-- A cache. -/
structure Cache (ε α : Type) where
  capacity : Nat
  entries : ByRecency CacheKey α := []
  /-- The flights that can be joined or have callers. -/
  flights : List (Flight ε α) := []
  /-- The keys of all computations that were started, the last one first. -/
  started : List CacheKey := []
  /-- Requests that found a value. -/
  hits : Nat := 0
  /-- Requests that began a flight. -/
  misses : Nat := 0
  /-- Requests that joined a flight. -/
  coalesced : Nat := 0
  /-- Values that were given up for others. -/
  evictions : Nat := 0

/-- What a caller is told: the outcome, or to ask again under a number. -/
inductive Reply (ε α : Type)
  | done (outcome : Except ε α)
  | waiting (caller : CallerId)

/-- The reply with another form of error. -/
def Reply.mapError {ε ε' α : Type} (f : ε → ε') : Reply ε α → Reply ε' α
  | .done outcome => .done (outcome.mapError f)
  | .waiting id => .waiting id

namespace Cache

variable {ε α : Type}

/-- A cache for `n` values, but at least for one. -/
def ofCapacity (n : Nat) : Cache ε α := { capacity := max 1 n }

/-- The value of a key. Looking at it is not using it. -/
def peek (key : CacheKey) (c : Cache ε α) : Option α := c.entries.get? key

/-- How many values there are. -/
def size (c : Cache ε α) : Nat := c.entries.length

/-- How many flights can be joined. -/
def inFlight (c : Cache ε α) : Nat := c.flights.countP (·.joinable)

/-- How many requests there have been. -/
def requests (c : Cache ε α) : Nat := c.hits + c.misses + c.coalesced

/-- The flight that requests for a key join. -/
def flightFor? (key : CacheKey) (c : Cache ε α) : Option (Flight ε α) :=
  c.flights.find? fun f => f.joinable && f.key = key

/-- A caller that has not returned yet, with its flight. -/
def caller? (id : CallerId) (c : Cache ε α) : Option (Flight ε α × Caller ε α) :=
  c.flights.findSome? fun f => (f.caller? id).map fun a => (f, a)

/-- Changes a flight. One that nobody can come across any more is given up. -/
def adjust (slot : FlightId) (change : Flight ε α → Flight ε α) (c : Cache ε α) : Cache ε α :=
  { c with
    flights := (c.flights.map fun f => if f.id = slot then change f else f).filter (·.isKept) }

/-- Keeps a value. -/
def keep (key : CacheKey) (v : α) (c : Cache ε α) : Cache ε α :=
  { c with
    entries := c.entries.put c.capacity key v
    evictions := if c.entries.overflows c.capacity key then c.evictions + 1 else c.evictions }

/-! ## What happens at one go -/

/-- A caller asks for the value of a key, with a computation of it. The number of a caller is how
many requests there have been before. It finds a value, joins a flight, or begins one. -/
def enter (key : CacheKey) (computation : Computation ε α) (c : Cache ε α) :
    Reply ε α × Cache ε α :=
  let id := c.requests
  match c.entries.get? key with
  | some v => (.done (.ok v), { c with hits := c.hits + 1, entries := c.entries.touch key })
  | none =>
    match c.flightFor? key with
    | some f =>
      let c := { c with coalesced := c.coalesced + 1 }
      (.waiting id, c.adjust f.id (·.join ⟨id, computation, .waiting⟩))
    | none =>
      (.waiting id, { c with
        misses := c.misses + 1
        flights := c.flights ++ [{ id, key, callers := [⟨id, computation, .waiting⟩] }] })

/-- A caller starts to run its computation. -/
def start (f : Flight ε α) (a : Caller ε α) (c : Cache ε α) : Cache ε α :=
  { c.adjust f.id (·.update (a.withStage (.running (c.started.length + 1)))) with
    started := f.key :: c.started }

/-- A turn of a caller's computation passes. -/
def advance (f : Flight ε α) (a : Caller ε α) (c : Cache ε α) : Cache ε α :=
  c.adjust f.id (·.update a.tick)

/-- The computation of a flight ends. -/
def conclude (f : Flight ε α) (outcome : Except ε α) (c : Cache ε α) : Cache ε α :=
  c.adjust f.id fun f => { f with outcome := some outcome }

/-- A caller of a flight that has ended returns. The first one to do so keeps the value, if the
flight can still be joined. -/
def collect (f : Flight ε α) (id : CallerId) (outcome : Except ε α) (c : Cache ε α) : Cache ε α :=
  let c := match outcome with
    | .ok v => if f.joinable then c.keep f.key v else c
    | .error _ => c
  c.adjust f.id fun f => (f.leave id).detach

/-- A caller is given up and lets go of its computation. -/
def abandon (f : Flight ε α) (a : Caller ε α) (c : Cache ε α) : Cache ε α :=
  c.adjust f.id (·.update (a.withStage .leaving))

/-- A caller that was given up sees to it that a flight without other callers does not stay. -/
def release (f : Flight ε α) (a : Caller ε α) (c : Cache ε α) : Cache ε α :=
  c.adjust f.id fun f =>
    (if f.isAbandoned then f.detach else f).update (a.withStage .released)

/-- A caller that was given up is gone. -/
def forget (f : Flight ε α) (a : Caller ε α) (c : Cache ε α) : Cache ε α :=
  c.adjust f.id (·.leave a.id)

/-- Gives up the values of a schema and detaches its flights. The number is how many values were
given up. -/
def invalidate (schemaId : String) (c : Cache ε α) : Nat × Cache ε α :=
  (c.entries.countP (·.1.schemaId = schemaId), { c with
    entries := c.entries.filter (·.1.schemaId ≠ schemaId)
    flights := (c.flights.map fun f => if f.key.schemaId = schemaId then f.detach else f).filter
      (·.isKept) })

/-- Gives up all values and detaches all flights. -/
def clear (c : Cache ε α) : Cache ε α :=
  { c with entries := [], flights := (c.flights.map (·.detach)).filter (·.isKept) }

/-! ## Callers that are asked one at a time -/

/-- A running computation goes on or ends. -/
def proceed (f : Flight ε α) (a : Caller ε α) (number : Nat) (c : Cache ε α) :
    Reply ε α × Cache ε α :=
  match a.computation.turns with
  | 0 =>
    let outcome := a.computation.outcome number
    (.done outcome, (c.conclude f outcome).collect f a.id outcome)
  | _ + 1 => (.waiting a.id, c.advance f a)

/-- A turn of a caller, whose computation is started if it has not been. -/
def turn (f : Flight ε α) (a : Caller ε α) (c : Cache ε α) : Reply ε α × Cache ε α :=
  match a.stage with
  | .running number => c.proceed f a number
  | _ =>
    let number := c.started.length + 1
    (c.start f a).proceed f (a.withStage (.running number)) number

/-- A waiting caller asks again. -/
def poll (id : CallerId) (c : Cache ε α) : Reply ε α × Cache ε α :=
  match c.caller? id with
  | none => (.waiting id, c)
  | some (f, a) =>
    match f.outcome with
    | some outcome => (.done outcome, c.collect f id outcome)
    | none => if f.next?.any (·.id = id) then c.turn f a else (.waiting id, c)

/-- A caller leaves without an outcome. -/
def leave (id : CallerId) (c : Cache ε α) : Cache ε α :=
  match c.caller? id with
  | none => c
  | some (f, a) => ((c.abandon f a).release f a).forget f a

/-- A caller asks for the value of a key, with a computation of it. -/
def request (key : CacheKey) (computation : Computation ε α) (c : Cache ε α) :
    Reply ε α × Cache ε α :=
  match c.enter key computation with
  | (.done outcome, c) => (.done outcome, c)
  | (.waiting id, c) => c.poll id

/-- A waiting caller asks again at most `n` times. -/
def pollUpTo : Nat → CallerId → Cache ε α → Reply ε α × Cache ε α
  | 0, id, c => (.waiting id, c)
  | n + 1, id, c =>
    match c.poll id with
    | (.done outcome, c) => (.done outcome, c)
    | (.waiting _, c) => pollUpTo n id c

/-- A caller asks for the value of a key at most `n + 1` times and then leaves. -/
def requestUpTo (n : Nat) (key : CacheKey) (computation : Computation ε α) (c : Cache ε α) :
    Option (Except ε α) × Cache ε α :=
  match c.request key computation with
  | (.done outcome, c) => (some outcome, c)
  | (.waiting id, c) =>
    match c.pollUpTo n id with
    | (.done outcome, c) => (some outcome, c)
    | (.waiting id, c) => (none, c.leave id)

end Cache

end DesignSystem

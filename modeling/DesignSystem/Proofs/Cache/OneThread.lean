import DesignSystem.Proofs.Cache.Recency
import DesignSystem.Proofs.Cache.Turns

/-!
# Caches on one thread

On one thread a caller that is asked does all that it can do before anybody else has a turn: the
one whose computation ends returns at once, and one that is given up sees to its flight and is gone.
`Turn c c'` is what one such turn does, and `OneThread n c` says that a cache for `n` values comes to
be `c` by turns, in any order and with any caller of a flight taking over.

`Settled n c`: what holds between two turns. A flight that can be joined has not ended, has a caller
that wants its outcome, is the only one for its key, and there is no value for its key.

* `Settled.turn`: a turn keeps it.
* `OneThread.request`, `OneThread.poll`, `OneThread.leave`: callers that are asked one at a time take
  turns.
* `OneThread.representation`: no key is both stored and in flight, the values fit, and a flight that
  nobody waits for blocks nobody.
-/

set_option autoImplicit false

namespace DesignSystem.Cache

variable {ε α : Type} {n : Nat} {c c' : Cache ε α} {f : Flight ε α} {a : Caller ε α}

/-- A caller wants the outcome of a flight: it waits, or its computation has not ended. -/
def Wants (f : Flight ε α) (a : Caller ε α) : Prop :=
  a.stage = .waiting ∨ a.stage.isRunning ∧ f.outcome = none

/-- What happens on one thread before another caller has a turn. -/
inductive Turn : Cache ε α → Cache ε α → Prop
  | enter {c : Cache ε α} (key : CacheKey) (computation : Computation ε α) :
      Turn c (c.enter key computation).2
  | start {c : Cache ε α} {f : Flight ε α} {a : Caller ε α} : c.Holds f a →
      a.stage = .waiting → f.outcome = none → f.runner? = none → Turn c (c.start f a)
  | advance {c : Cache ε α} {f : Flight ε α} {a : Caller ε α} {number : Nat} : c.Holds f a →
      a.stage = .running number → f.outcome = none → Turn c (c.advance f a)
  /-- A computation ends, and its caller returns. -/
  | finish {c : Cache ε α} {f : Flight ε α} {a : Caller ε α} {number : Nat} : c.Holds f a →
      a.stage = .running number → f.outcome = none → a.computation.turns = 0 →
      Turn c ((c.conclude f (a.computation.outcome number)).collect f a.id
        (a.computation.outcome number))
  /-- Another caller of a flight that has ended returns. -/
  | collect {c : Cache ε α} {f : Flight ε α} {a : Caller ε α} {outcome : Except ε α} : c.Holds f a →
      f.outcome = some outcome → Turn c (c.collect f a.id outcome)
  /-- A caller is dropped. -/
  | leave {c : Cache ε α} {f : Flight ε α} {a : Caller ε α} : c.Holds f a →
      Turn c (((c.abandon f a).release f a).forget f a)
  | invalidate {c : Cache ε α} (schemaId : String) : Turn c (c.invalidate schemaId).2
  | clear {c : Cache ε α} : Turn c c.clear

/-- What may become of a cache for `n` values on one thread. -/
inductive OneThread (n : Nat) : Cache ε α → Prop
  | new : OneThread n (.ofCapacity n)
  | turn {c c' : Cache ε α} : OneThread n c → Turn c c' → OneThread n c'

/-- What holds between two turns. -/
structure Settled (n : Nat) (c : Cache ε α) : Prop where
  capacity : c.capacity = max 1 n
  size : c.size ≤ c.capacity
  stored : (ByRecency.keys c.entries).Nodup
  apart : ∀ f ∈ c.flights, f.joinable → f.key ∉ ByRecency.keys c.entries
  single : ∀ f ∈ c.flights, ∀ g ∈ c.flights, f.joinable → g.joinable → f.key = g.key → f.id = g.id
  unended : ∀ f ∈ c.flights, f.joinable → f.outcome = none
  held : ∀ f ∈ c.flights, f.callers ≠ []
  wants : ∀ f ∈ c.flights, ∀ a ∈ f.callers, Wants f a

theorem Wants.isActive (h : Wants f a) : a.stage.isActive := by
  rcases h with h | ⟨h, -⟩
  · rw [h]
    rfl
  · exact isActive_of_isRunning h

/-! ## One change after the other -/

section
variable (hids : (c.flights.map (·.id)).Nodup) (hf : f ∈ c.flights)
include hids hf

theorem adjust_congr {first second : Flight ε α → Flight ε α} (h : first f = second f) :
    c.adjust f.id first = c.adjust f.id second := by
  have hmap : (c.flights.map fun g => if g.id = f.id then first g else g) =
      c.flights.map fun g => if g.id = f.id then second g else g := by
    refine List.map_congr_left fun g hg => ?_
    by_cases hid : g.id = f.id
    · rw [eq_of_id_eq hids hg hf hid, h]
    · rw [if_neg hid, if_neg hid]
  simp only [adjust, hmap]

/-- Two changes of a flight after each other are one, unless the first makes an end of it. -/
theorem adjust_adjust {first second : Flight ε α → Flight ε α} (hid : (first f).id = f.id)
    (hkept : (first f).isKept) :
    (c.adjust f.id first).adjust f.id second = c.adjust f.id fun g => second (first g) := by
  have hlist : ∀ l : List (Flight ε α), (∀ g ∈ l, g ∈ c.flights) →
      (((l.map fun g => if g.id = f.id then first g else g).filter (·.isKept)).map
        fun g => if g.id = f.id then second g else g).filter (·.isKept) =
      (l.map fun g => if g.id = f.id then second (first g) else g).filter (·.isKept) := by
    intro l hl
    induction l with
    | nil => rfl
    | cons g l ih =>
      have ih := ih fun x hx => hl x (.tail _ hx)
      by_cases hg : g.id = f.id
      · obtain rfl := eq_of_id_eq hids (hl g (.head _)) hf hg
        simp only [List.map_cons, if_pos, List.filter_cons_of_pos hkept, hid, List.filter_cons, ih]
      · by_cases hk : g.isKept
        · simp only [List.map_cons, if_neg hg, List.filter_cons_of_pos hk, ih]
        · simp only [List.map_cons, if_neg hg, List.filter_cons_of_neg hk, ih]
  simp only [adjust, hlist c.flights fun _ hg => hg]

end

theorem update_leave (f : Flight ε α) (b : Caller ε α) : (f.update b).leave b.id = f.leave b.id := by
  have hlist : ∀ l : List (Caller ε α), (l.map fun x => if x.id = b.id then b else x).filter
      (·.id ≠ b.id) = l.filter (·.id ≠ b.id) := by
    intro l
    induction l with
    | nil => rfl
    | cons x l ih =>
      by_cases hx : x.id = b.id
      · simpa [hx] using ih
      · simpa [hx] using ih
  simp only [Flight.update, Flight.leave, hlist]

/-- A flight without a caller that was dropped. Nobody joins it any more if that was the last one. -/
def dropped (id : CallerId) (f : Flight ε α) : Flight ε α :=
  (if f.isAbandoned then f.detach else f).leave id

theorem isAbandoned_update (f : Flight ε α) (b : Caller ε α) :
    (f.update b).isAbandoned = f.isAbandoned := by
  simp [Flight.isAbandoned, Flight.update]

/-- Dropping a caller at one go is one change of its flight. -/
theorem leave_eq (hids : (c.flights.map (·.id)).Nodup) (h : c.Holds f a) :
    ((c.abandon f a).release f a).forget f a = c.adjust f.id (dropped a.id) := by
  -- the caller stays on board until it is gone
  have hleaving : (f.update (a.withStage .leaving)).isKept :=
    isKept_of_mem (mem_callers_update h.2 rfl)
  have hreleased : ∀ p : Bool, (((if p then (f.update (a.withStage .leaving)).detach
      else f.update (a.withStage .leaving)).update (a.withStage .released))).isKept := by
    intro p
    cases p with
    | true => exact isKept_of_mem (mem_callers_update (mem_callers_update h.2 rfl) rfl)
    | false => exact isKept_of_mem (mem_callers_update (mem_callers_update h.2 rfl) rfl)
  unfold abandon release forget
  rw [adjust_adjust hids h.1 rfl hleaving, adjust_adjust hids h.1 ?_ (hreleased _)]
  · refine adjust_congr hids h.1 ?_
    rw [isAbandoned_update, dropped]
    have hlast := update_leave f (a.withStage .leaving)
    cases f.isAbandoned with
    | true => exact (update_leave _ (a.withStage .released)).trans (congrArg Flight.detach hlast)
    | false => exact (update_leave _ (a.withStage .released)).trans hlast
  · cases (f.update (a.withStage .leaving)).isAbandoned with
    | true => rfl
    | false => rfl

/-- Returning keeps a value and takes the caller off its flight. -/
theorem collect_ok (hj : f.joinable) (id : CallerId) (v : α) : c.collect f id (.ok v) =
    (c.adjust f.id fun g => (g.leave id).detach).keep f.key v := by
  simp only [collect, hj, ↓reduceIte]
  rfl

theorem collect_eq_adjust {outcome : Except ε α} (h : f.joinable = false ∨ outcome.isOk = false)
    (id : CallerId) : c.collect f id outcome = c.adjust f.id fun g => (g.leave id).detach := by
  unfold collect
  cases outcome with
  | error e => rfl
  | ok v => rw [h.resolve_right nofun]; rfl

/-! ## What a turn keeps -/

namespace Settled

theorem new (n : Nat) : Settled n (.ofCapacity n : Cache ε α) where
  capacity := rfl
  size := Nat.zero_le _
  stored := List.nodup_nil
  apart := nofun
  single := nofun
  unended := nofun
  held := nofun
  wants := nofun

/-- A change of one flight that does not make it joinable again. -/
theorem adjust (h : Settled n c) (hids : (c.flights.map (·.id)).Nodup) (hf : f ∈ c.flights)
    {change : Flight ε α → Flight ε α} (hid : (change f).id = f.id) (hkey : (change f).key = f.key)
    (hj : (change f).joinable → f.joinable ∧ (change f).outcome = none ∧ (change f).callers ≠ [])
    (hw : ∀ a ∈ (change f).callers, Wants (change f) a) : Settled n (c.adjust f.id change) := by
  -- each flight is an old one, or the changed one
  have horigin : ∀ g ∈ (c.adjust f.id change).flights,
      (g ∈ c.flights ∧ g.id ≠ f.id) ∨ g = change f := by
    intro g hg
    rcases mem_flights_adjust hg with hold | ⟨f', hf', hid', rfl⟩
    · exact .inl hold
    · exact .inr (congrArg change (eq_of_id_eq hids hf' hf hid'))
  have hold : ∀ g ∈ (c.adjust f.id change).flights, g.joinable →
      ∃ g₀ ∈ c.flights, g₀.joinable ∧ g₀.key = g.key ∧ g₀.id = g.id := by
    intro g hg hgj
    rcases horigin g hg with ⟨hg, -⟩ | rfl
    · exact ⟨g, hg, hgj, rfl, rfl⟩
    · exact ⟨f, hf, (hj hgj).1, hkey.symm, hid.symm⟩
  refine ⟨h.capacity, h.size, h.stored, ?_, ?_, ?_, ?_, ?_⟩
  · intro g hg hgj
    obtain ⟨g₀, hg₀, hj₀, hkey₀, -⟩ := hold g hg hgj
    rw [← hkey₀]
    exact h.apart g₀ hg₀ hj₀
  · intro g hg g' hg' hgj hgj' hkeys
    obtain ⟨g₀, hg₀, hj₀, hkey₀, hid₀⟩ := hold g hg hgj
    obtain ⟨g₁, hg₁, hj₁, hkey₁, hid₁⟩ := hold g' hg' hgj'
    rw [← hid₀, ← hid₁]
    exact h.single g₀ hg₀ g₁ hg₁ hj₀ hj₁ (by rw [hkey₀, hkey₁, hkeys])
  · intro g hg hgj
    rcases horigin g hg with ⟨hg, -⟩ | rfl
    · exact h.unended g hg hgj
    · exact (hj hgj).2.1
  · intro g hg
    rcases horigin g hg with ⟨hg, -⟩ | rfl
    · exact h.held g hg
    · intro hnil
      have hkept : (change f).isKept := (List.mem_filter.1 hg).2
      have hjoinable : (change f).joinable := by simpa [Flight.isKept, hnil] using hkept
      exact (hj hjoinable).2.2 hnil
  · intro g hg
    rcases horigin g hg with ⟨hg, -⟩ | rfl
    · exact h.wants g hg
    · exact hw

/-- Keeping a value for a key that nobody is computing a value for. -/
theorem keep (h : Settled n c) {key : CacheKey} (hkey : ∀ f ∈ c.flights, f.joinable → f.key ≠ key)
    (v : α) : Settled n (c.keep key v) where
  capacity := h.capacity
  size := ByRecency.length_put_le _ _ _ _
  stored := ByRecency.nodup_keys_put h.stored _ _ _
  apart f hf hj hmem := (ByRecency.mem_keys_put hmem).elim (hkey f hf hj) (h.apart f hf hj)
  single := h.single
  unended := h.unended
  held := h.held
  wants := h.wants

/-- Giving up values, and nobody joining some flights any more. -/
theorem forgo (h : Settled n c) {entries : ByRecency CacheKey α} (hsub : entries.Sublist c.entries)
    {change : Flight ε α → Flight ε α} (hchange : ∀ f, change f = f ∨ change f = f.detach) :
    Settled n { c with entries, flights := (c.flights.map change).filter (·.isKept) } := by
  have horigin : ∀ g ∈ (c.flights.map change).filter (·.isKept), ∃ f ∈ c.flights,
      g.id = f.id ∧ g.key = f.key ∧ g.callers = f.callers ∧ g.outcome = f.outcome ∧
      (g.joinable → f.joinable) := by
    intro g hg
    obtain ⟨f, hf, rfl⟩ := List.mem_map.1 (List.mem_filter.1 hg).1
    refine ⟨f, hf, ?_⟩
    rcases hchange f with heq | heq
    · rw [heq]
      exact ⟨rfl, rfl, rfl, rfl, id⟩
    · rw [heq]
      exact ⟨rfl, rfl, rfl, rfl, nofun⟩
  refine ⟨h.capacity, Nat.le_trans hsub.length_le h.size, h.stored.sublist (hsub.map _),
    ?_, ?_, ?_, ?_, ?_⟩
  · intro g hg hj hmem
    obtain ⟨f, hf, -, hkey, -, -, hjoin⟩ := horigin g hg
    rw [hkey] at hmem
    exact h.apart f hf (hjoin hj) ((hsub.map _).subset hmem)
  · intro g hg g' hg' hj hj' hkeys
    obtain ⟨f, hf, hid, hkey, -, -, hjoin⟩ := horigin g hg
    obtain ⟨f', hf', hid', hkey', -, -, hjoin'⟩ := horigin g' hg'
    rw [hid, hid']
    exact h.single f hf f' hf' (hjoin hj) (hjoin' hj') (by rw [← hkey, hkeys, hkey'])
  · intro g hg hj
    obtain ⟨f, hf, -, -, -, hout, hjoin⟩ := horigin g hg
    rw [hout]
    exact h.unended f hf (hjoin hj)
  · intro g hg
    obtain ⟨f, hf, -, -, hcallers, -, -⟩ := horigin g hg
    rw [hcallers]
    exact h.held f hf
  · intro g hg a ha
    obtain ⟨f, hf, -, -, hcallers, hout, -⟩ := horigin g hg
    rw [hcallers] at ha
    rw [Wants, hout]
    exact h.wants f hf a ha

/-- Other facts about a caller. -/
theorem update (h : Settled n c) (hids : (c.flights.map (·.id)).Nodup) (ha : c.Holds f a)
    {b : Caller ε α} (hb : Wants f b) (hid : b.id = a.id) :
    Settled n (c.adjust f.id (·.update b)) := by
  refine h.adjust hids ha.1 rfl rfl (fun hj => ⟨hj, h.unended f ha.1 hj, ?_⟩) fun x hx => ?_
  · exact List.ne_nil_of_mem (mem_callers_update ha.2 hid)
  · rcases FlightInv.mem_update hx with rfl | ⟨hx, -⟩
    · exact hb
    · exact h.wants f ha.1 x hx

theorem enter (h : Settled n c) (hids : (c.flights.map (·.id)).Nodup) (key : CacheKey)
    (computation : Computation ε α) : Settled n (c.enter key computation).2 := by
  cases hget : c.entries.get? key with
  | some v =>
    rw [enter_hit hget]
    exact { h with
      size := Nat.le_trans (ByRecency.length_touch_le h.stored key) h.size
      stored := ByRecency.nodup_keys_touch h.stored key
      apart := fun f hf hj hmem => h.apart f hf hj (ByRecency.mem_keys_touch hmem) }
  | none =>
    have hcounted : Settled n { c with coalesced := c.coalesced + 1 } := { h with }
    cases hfor : c.flightFor? key with
    | some f =>
      rw [enter_join hget hfor]
      obtain ⟨hf, hj, -⟩ := flightFor?_eq_some hfor
      refine hcounted.adjust hids hf rfl rfl (fun _ => ⟨hj, h.unended f hf hj, ?_⟩) fun a ha => ?_
      · simp [Flight.join]
      · rcases List.mem_append.1 ha with ha | ha
        · exact h.wants f hf a ha
        · rw [List.mem_singleton.1 ha]
          exact .inl rfl
    | none =>
      rw [enter_begin hget hfor]
      have hother : ∀ f ∈ c.flights, f.joinable → f.key ≠ key := by
        intro f hf hj
        simpa [hj] using List.find?_eq_none.1 hfor f hf
      have horigin : ∀ g ∈ c.flights ++ [c.newFlight key computation],
          g ∈ c.flights ∨ g = c.newFlight key computation := by simp
      refine ⟨h.capacity, h.size, h.stored, ?_, ?_, ?_, ?_, ?_⟩
      · intro g hg hj
        rcases horigin g hg with hg | rfl
        · exact h.apart g hg hj
        · exact ByRecency.get?_eq_none_iff.1 hget
      · intro g hg g' hg' hj hj' hkeys
        rcases horigin g hg with hg | rfl <;> rcases horigin g' hg' with hg' | rfl
        · exact h.single g hg g' hg' hj hj' hkeys
        · exact absurd hkeys (hother g hg hj)
        · exact absurd hkeys.symm (hother g' hg' hj')
        · rfl
      · intro g hg hj
        rcases horigin g hg with hg | rfl
        · exact h.unended g hg hj
        · rfl
      · intro g hg
        rcases horigin g hg with hg | rfl
        · exact h.held g hg
        · exact List.cons_ne_nil _ _
      · intro g hg a ha
        rcases horigin g hg with hg | rfl
        · exact h.wants g hg a ha
        · rw [List.mem_singleton.1 ha]
          exact .inl rfl

/-- A caller returns from a flight that has ended. -/
theorem collect (h : Settled n c) (hids : (c.flights.map (·.id)).Nodup) (ha : c.Holds f a)
    {outcome : Except ε α} (ho : f.outcome = some outcome) :
    Settled n (c.collect f a.id outcome) := by
  have hj : f.joinable = false := by
    by_contra hj
    rw [h.unended f ha.1 (by simpa using hj)] at ho
    cases ho
  rw [collect_eq_adjust (.inl hj)]
  refine h.adjust hids ha.1 rfl rfl nofun fun x hx => ?_
  exact h.wants f ha.1 x (List.mem_filter.1 hx).1

/-- The computation of a caller ends, and the caller returns. -/
theorem finish {history : List (Event ε α)} (h : Settled n c) (hi : Inv history c)
    (ha : c.Holds f a) (hrun : a.stage.isRunning) (outcome : Except ε α) :
    Settled n ((c.conclude f outcome).collect f a.id outcome) := by
  have hkept : Flight.isKept { f with outcome := some outcome } := isKept_of_mem (a := a) ha.2
  have hended : Settled n ((c.conclude f outcome).adjust f.id fun g => (g.leave a.id).detach) := by
    unfold conclude
    rw [adjust_adjust hi.ids ha.1 rfl hkept]
    refine h.adjust hi.ids ha.1 rfl rfl nofun fun x hx => ?_
    obtain ⟨hx, hne⟩ := List.mem_filter.1 hx
    -- no other caller was running
    refine .inl ((h.wants f ha.1 x hx).resolve_right fun hxr => ?_)
    exact (of_decide_eq_true hne) ((hi.flights f ha.1).runner x hx a ha.2 hxr.1 hrun)
  cases hj : f.joinable with
  | false => rwa [collect_eq_adjust (.inl hj)]
  | true =>
    cases outcome with
    | error e => rwa [collect_eq_adjust (.inr rfl)]
    | ok v =>
      rw [collect_ok hj]
      refine hended.keep (fun g hg hgj hkey => ?_) v
      unfold conclude at hg
      rw [adjust_adjust hi.ids ha.1 rfl hkept] at hg
      rcases mem_flights_adjust hg with ⟨hg, hne⟩ | ⟨f', -, -, rfl⟩
      · exact hne (h.single g hg f ha.1 hgj hj hkey)
      · cases hgj

/-- A caller is dropped. -/
theorem leave {history : List (Event ε α)} (h : Settled n c) (hi : Inv history c)
    (ha : c.Holds f a) : Settled n (((c.abandon f a).release f a).forget f a) := by
  have hfields : ∀ p : Bool, (if p then f.detach else f).key = f.key ∧
      (if p then f.detach else f).id = f.id ∧ (if p then f.detach else f).outcome = f.outcome ∧
      (if p then f.detach else f).callers = f.callers ∧
      ((if p then f.detach else f).joinable → f.joinable ∧ p = false) := by
    intro p
    cases p with
    | true => exact ⟨rfl, rfl, rfl, rfl, nofun⟩
    | false => exact ⟨rfl, rfl, rfl, rfl, fun hj => ⟨hj, rfl⟩⟩
  obtain ⟨hkey, hid, hout, hcallers, hjoin⟩ := hfields f.isAbandoned
  have hleft : (dropped a.id f).callers = f.callers.filter (·.id ≠ a.id) := by
    rw [dropped, Flight.leave, hcallers]
  rw [leave_eq hi.ids ha]
  refine h.adjust hi.ids ha.1 hid hkey (fun hj => ?_) fun x hx => ?_
  · obtain ⟨hj, hmore⟩ := hjoin hj
    have hnone := h.unended f ha.1 hj
    refine ⟨hj, hout.trans hnone, fun hnil => ?_⟩
    -- all callers were the one that is gone
    have hall : ∀ b ∈ f.callers, b = a := by
      intro b hb
      refine List.inj_on_of_nodup_map (hi.flights f ha.1).nodup hb ha.2 ?_
      rw [hleft] at hnil
      simpa using List.filter_eq_nil_iff.1 hnil b hb
    have hone : f.callers.length = 1 := by
      have hnodup : f.callers.Nodup := (hi.flights f ha.1).nodup.of_map _
      have hle := (hnodup.subperm fun b hb => List.mem_singleton.2 (hall b hb)).length_le
      have hpos := List.length_pos_of_mem ha.2
      simp only [List.length_singleton] at hle
      omega
    simp [Flight.isAbandoned, hnone, hone] at hmore
  · rw [hleft] at hx
    rw [Wants]
    change _ ∨ _ ∧ (if f.isAbandoned then f.detach else f).outcome = none
    rw [hout]
    exact h.wants f ha.1 x (List.mem_filter.1 hx).1

/-- A turn keeps what holds between two turns. -/
theorem turn {history : List (Event ε α)} (h : Settled n c) (hi : Inv history c)
    (ht : Turn c c') : Settled n c' := by
  cases ht with
  | enter key computation => exact h.enter hi.ids key computation
  | @start f a ha _ ho _ =>
    have hup := h.update hi.ids ha (b := a.withStage (.running (c.started.length + 1)))
      (.inr ⟨rfl, ho⟩) rfl
    exact { hup with }
  | @advance f a number ha hs ho =>
    have hrunning : a.tick.stage.isRunning := by simp [Caller.tick, hs, CallerStage.isRunning]
    exact h.update hi.ids ha (.inr ⟨hrunning, ho⟩) rfl
  | finish ha hs _ _ => exact h.finish hi ha (by rw [hs]; rfl) _
  | collect ha ho => exact h.collect hi.ids ha ho
  | leave ha => exact h.leave hi ha
  | invalidate schemaId =>
    refine h.forgo List.filter_sublist fun f => ?_
    split
    · exact .inr rfl
    · exact .inl rfl
  | clear => exact h.forgo (List.nil_sublist _) fun f => .inr rfl

end Settled

/-! ## Runs on one thread -/

/-- A turn is a row of steps, so what holds of all runs holds of those on one thread. -/
theorem Turn.steps (h : Settled n c) (ht : Turn c c') : ∃ later, Steps c later c' := by
  cases ht with
  | enter key computation =>
    obtain ⟨event, -, hs, -⟩ := step_enter c key computation
    exact ⟨_, hs.steps⟩
  | start ha hs ho hr => exact ⟨_, (Step.start ha hs ho hr).steps⟩
  | advance ha hs ho => exact ⟨_, (Step.advance ha hs ho).steps⟩
  | @finish f a number ha hs ho hturns =>
    have hreturn := Step.collect (ha.conclude (a.computation.outcome number)) (by rw [hs]; rfl) rfl
    exact ⟨_, (Step.conclude ha hs ho hturns).steps.cons hreturn⟩
  | collect ha ho => exact ⟨_, (Step.collect ha (h.wants _ ha.1 _ ha.2).isActive ho).steps⟩
  | leave ha =>
    obtain ⟨later, hs, -⟩ := steps_dropped ha (h.wants _ ha.1 _ ha.2)
    exact ⟨later, hs⟩
  | invalidate schemaId => exact ⟨_, (Step.invalidate schemaId).steps⟩
  | clear => exact ⟨_, Step.clear.steps⟩

namespace OneThread

/-- Between two turns a cache is settled, and has a history. -/
theorem settled (h : OneThread n c) : Settled n c ∧ ∃ history, Inv history c := by
  suffices hrun : Settled n c ∧ ∃ history, Run n history c by
    obtain ⟨hs, history, hr⟩ := hrun
    exact ⟨hs, history, hr.inv⟩
  induction h with
  | new => exact ⟨.new n, [], .nil⟩
  | turn _ ht ih =>
    obtain ⟨hs, history, hrun⟩ := ih
    obtain ⟨later, hsteps⟩ := ht.steps hs
    exact ⟨hs.turn hrun.inv ht, later ++ history, hrun.append hsteps⟩

/-! ### Callers that are asked one at a time -/

theorem proceed (h : OneThread n c) (ha : c.Holds f a) {number : Nat}
    (hs : a.stage = .running number) (ho : f.outcome = none) :
    OneThread n (c.proceed f a number).2 := by
  unfold Cache.proceed
  split
  · next hturns => exact h.turn (.finish ha hs ho hturns)
  · exact h.turn (.advance ha hs ho)

theorem poll (h : OneThread n c) (id : CallerId) : OneThread n (c.poll id).2 := by
  obtain ⟨hsettled, history, hi⟩ := h.settled
  unfold Cache.poll
  split
  · exact h
  · next f a hcaller =>
    obtain ⟨hh, rfl, -⟩ := holds_of_caller? hcaller
    split
    · next outcome ho => exact h.turn (.collect hh ho)
    · next ho =>
      split
      · next hnext =>
        unfold Cache.turn
        split
        · next number hs => exact h.proceed hh hs ho
        · next hs =>
          have hwait : a.stage = .waiting := by
            refine (hsettled.wants f hh.1 a hh.2).resolve_right fun hrun => ?_
            cases hst : a.stage with
            | running number => exact hs number hst
            | _ => simp [hst, CallerStage.isRunning] at hrun
          have hnone := runner?_eq_none (hi.flights f hh.1).nodup hh.2 hwait hnext
          have hrunning : (c.start f a).Holds _ _ :=
            hh.update (b := a.withStage (.running (c.started.length + 1))) rfl
          exact (h.turn (.start hh hwait ho hnone)).proceed hrunning rfl ho
      · exact h

theorem request (h : OneThread n c) (key : CacheKey) (computation : Computation ε α) :
    OneThread n (c.request key computation).2 := by
  have henter := h.turn (.enter key computation)
  unfold Cache.request
  split
  · next heq =>
    rw [heq] at henter
    exact henter
  · next heq =>
    rw [heq] at henter
    exact henter.poll _

theorem leave (h : OneThread n c) (id : CallerId) : OneThread n (c.leave id) := by
  unfold Cache.leave
  split
  · exact h
  · next f a hcaller => exact h.turn (.leave (holds_of_caller? hcaller).1)

end OneThread

/-! ## No key is blocked -/

theorem proceed_started (c : Cache ε α) (f : Flight ε α) (a : Caller ε α) (number : Nat) :
    (c.proceed f a number).2.started = c.started := by
  unfold proceed
  split
  · unfold collect
    dsimp only
    split
    · split <;> rfl
    · rfl
  · rfl

/-- Without a flight to join the caller of a request starts its computation at once. -/
theorem Inv.started_request {history : List (Event ε α)} (h : Inv history c) {key : CacheKey}
    (hget : c.peek key = none) (hfor : c.flightFor? key = none) (computation : Computation ε α) :
    (c.request key computation).2.started = key :: c.started := by
  have hnew : (c.flights ++ [c.newFlight key computation]).findSome? (fun f =>
      (f.caller? c.requests).map fun a => (f, a)) =
      some (c.newFlight key computation, ⟨c.requests, computation, .waiting⟩) := by
    have hold : c.flights.findSome? (fun f => (f.caller? c.requests).map fun a => (f, a)) = none := by
      refine List.findSome?_eq_none_iff.2 fun f hf => ?_
      rw [Option.map_eq_none_iff, Flight.caller?, List.find?_eq_none]
      intro a ha hid
      refine h.requests_notMem hf (List.mem_map.2 ⟨a, ha, ?_⟩)
      simp only [Bool.and_eq_true, decide_eq_true_eq] at hid
      exact hid.1
    rw [List.findSome?_append, hold]
    simp [Flight.caller?, newFlight, CallerStage.isActive]
  unfold request
  rw [enter_begin hget hfor]
  unfold poll
  simp only [caller?, hnew]
  have hnext : (c.newFlight key computation).next?.any (·.id = c.requests) := by
    simp [newFlight, Flight.next?, Flight.runner?, CallerStage.isRunning]
  change (if _ then _ else _ : Reply ε α × Cache ε α).2.started = _
  rw [if_pos hnext]
  exact proceed_started ..

/-- On one thread, between two turns: no key is both stored and in flight; the values fit the
capacity, each under a key of its own; a flight that can be joined has not ended, and somebody wants
its outcome. So without callers there are no flights to join, and where nobody wants the outcome of
a flight for a key, a request for that key finds a value or starts its own computation at once. -/
theorem OneThread.representation (h : OneThread n c) :
    (∀ key, c.peek key = none ∨ c.flightFor? key = none) ∧
    c.size ≤ max 1 n ∧ (ByRecency.keys c.entries).Nodup ∧
    (∀ f ∈ c.flights, f.joinable → f.outcome = none ∧ ∃ a ∈ f.callers, a.stage.isActive) ∧
    ((∀ f ∈ c.flights, ∀ a ∈ f.callers, ¬ a.stage.isActive) → c.inFlight = 0) ∧
    (∀ key computation, c.peek key = none →
      (∀ f ∈ c.flights, f.joinable → f.key = key → ∀ a ∈ f.callers, ¬ a.stage.isActive) →
      (c.request key computation).2.started = key :: c.started) := by
  obtain ⟨hs, history, hi⟩ := h.settled
  have hlive : ∀ f ∈ c.flights, ∃ a ∈ f.callers, a.stage.isActive := by
    intro f hf
    obtain ⟨a, ha⟩ := List.exists_mem_of_ne_nil _ (hs.held f hf)
    exact ⟨a, ha, (hs.wants f hf a ha).isActive⟩
  refine ⟨fun key => ?_, ?_, hs.stored, fun f hf hj => ⟨hs.unended f hf hj, hlive f hf⟩,
    fun hnone => ?_, fun key computation hget hnone => ?_⟩
  · cases hfor : c.flightFor? key with
    | none => exact .inr rfl
    | some f =>
      obtain ⟨hf, hj, rfl⟩ := flightFor?_eq_some hfor
      exact .inl (ByRecency.get?_eq_none_iff.2 (hs.apart f hf hj))
  · rw [← hs.capacity]
    exact hs.size
  · refine List.countP_eq_zero.2 fun f hf => ?_
    obtain ⟨a, ha, hact⟩ := hlive f hf
    exact absurd hact (hnone f hf a ha)
  · refine hi.started_request hget ?_ computation
    cases hfor : c.flightFor? key with
    | none => rfl
    | some f =>
      obtain ⟨hf, hj, hkey⟩ := flightFor?_eq_some hfor
      obtain ⟨a, ha, hact⟩ := hlive f hf
      exact absurd hact (hnone f hf hj hkey a ha)

/-- A computation of a value that takes a turn. -/
def slow (v : Nat) : Computation String Nat := ⟨1, fun _ => .ok v⟩

/-- A key beside `brandKey`. -/
def otherKey : CacheKey := ⟨"brand", ⟨"vue"⟩, Blake3.start⟩

/-- A value is kept for one key. For another one the caller that runs is dropped, the one that waits
takes over and is dropped as well, and somebody else asks. -/
def handedOver : Cache String Nat :=
  let kept := ((Cache.ofCapacity 0).request otherKey (constant 5)).2
  let shared := ((kept.request brandKey (slow 7)).2.request brandKey (slow 8)).2
  (((shared.leave 1).poll 2).2.leave 2).request brandKey (slow 9) |>.2

/-- The one that asks last starts a computation of its own, and so would the next one if that one
were dropped, too. -/
theorem OneThread.representation_handedOver :
    OneThread 0 handedOver ∧ handedOver.peek otherKey = some 5 ∧ handedOver.inFlight = 1 ∧
      handedOver.started = [brandKey, brandKey, brandKey, otherKey] ∧
      handedOver.flightFor? otherKey = none ∧ (handedOver.leave 3).inFlight = 0 ∧
      ((handedOver.leave 3).request brandKey (slow 10)).2.started =
        brandKey :: (handedOver.leave 3).started := by
  have hkept := (OneThread.new (n := 0)).request otherKey (constant 5)
  have hshared := (hkept.request brandKey (slow 7)).request brandKey (slow 8)
  have h : OneThread 0 handedOver := (((hshared.leave 1).poll 2).leave 2).request brandKey (slow 9)
  have hleft : (handedOver.leave 3).flights = [] := by decide +kernel
  obtain ⟨-, -, -, -, hempty, hstart⟩ := (h.leave 3).representation
  refine ⟨h, rfl, rfl, rfl, (h.representation.1 otherKey).resolve_left nofun, ?_, ?_⟩
  · exact hempty (by simp [hleft])
  · exact hstart brandKey _ rfl (by simp [hleft])

end DesignSystem.Cache

import DesignSystem.Proofs.Cache.SingleFlight
import DesignSystem.Proofs.Cache.Turns

/-!
# What is computed after a cache held nothing for a key

Where there is neither a value nor a flight for a key, nothing that was computed before can reach
those who ask for the key from then on.

* `vacant_invalidate`, `vacant_clear`: invalidation leaves nothing for the keys of its schema.
* `Renewed.step`: a step keeps that all there is for the key goes back to later requests.
* `Steps.boarded_of_answers`: what somebody who asks later is given was computed by somebody who came
  on board later.
-/

set_option autoImplicit false

namespace DesignSystem.Cache

variable {ε α : Type}

/-- There is neither a value for a key nor a flight to join. -/
def Vacant (c : Cache ε α) (key : CacheKey) : Prop :=
  c.peek key = none ∧ c.flightFor? key = none

section
variable {c : Cache ε α} {key : CacheKey}

theorem get?_eq_none {l : ByRecency CacheKey α} (h : ∀ v, (key, v) ∉ l) : l.get? key = none := by
  cases hget : l.get? key with
  | none => rfl
  | some v => exact absurd (get?_mem hget) (h v)

theorem notMem_of_get?_eq_none {l : ByRecency CacheKey α} (h : l.get? key = none) (v : α) :
    (key, v) ∉ l := by
  induction l with
  | nil => exact List.not_mem_nil
  | cons x l ih =>
    obtain ⟨k, w⟩ := x
    simp only [ByRecency.get?] at h
    split at h
    · cases h
    · next hne =>
      intro hmem
      rcases List.mem_cons.1 hmem with heq | hmem
      · exact hne (congrArg Prod.fst heq).symm
      · exact ih h hmem

theorem vacant_iff : c.Vacant key ↔ (∀ v, (key, v) ∉ c.entries) ∧
    ∀ f ∈ c.flights, f.joinable → f.key ≠ key := by
  refine and_congr ⟨notMem_of_get?_eq_none, get?_eq_none⟩ ?_
  rw [flightFor?, List.find?_eq_none]
  simp

/-- Invalidating a schema leaves nothing for its keys. -/
theorem vacant_invalidate (c : Cache ε α) (key : CacheKey) :
    (c.invalidate key.schemaId).2.Vacant key := by
  refine vacant_iff.2 ⟨fun v hmem => ?_, fun g hg hj hkey => ?_⟩
  · simpa using (List.mem_filter.1 hmem).2
  · obtain ⟨f, -, rfl⟩ := List.mem_map.1 (List.mem_filter.1 hg).1
    by_cases hid : f.key.schemaId = key.schemaId
    · rw [if_pos hid] at hj
      cases hj
    · rw [if_neg hid] at hkey
      exact hid (congrArg CacheKey.schemaId hkey)

theorem vacant_clear (c : Cache ε α) (key : CacheKey) : c.clear.Vacant key := by
  refine vacant_iff.2 ⟨fun v => List.not_mem_nil, fun g hg hj => ?_⟩
  obtain ⟨f, -, rfl⟩ := List.mem_map.1 (List.mem_filter.1 hg).1
  cases hj

end

/-! ## What comes later -/

/-- What holds of a key after some events, if there was nothing for it before them: all flights, and
all values that are kept or were found, go back to requests from the one of number `n` on. -/
structure Renewed (key : CacheKey) (n : Nat) (newer : List (Event ε α)) (c : Cache ε α) : Prop where
  requests : n ≤ c.requests
  flights : ∀ f ∈ c.flights, f.joinable → f.key = key → n ≤ f.id
  boards : ∀ e ∈ newer, ∀ id slot computation, e.Boards id slot key computation → n ≤ slot
  stored : ∀ e ∈ newer, ∀ slot v, e.Stores slot key v → n ≤ slot
  entries : ∀ v, (key, v) ∈ c.entries → ∃ slot, ∃ e ∈ newer, e.Stores slot key v
  hits : ∀ id v, .hit id key v ∈ newer → ∃ slot, ∃ e ∈ newer, e.Stores slot key v

theorem Changes.joinable {c : Cache ε α} {e : Event ε α} {f g : Flight ε α} (h : Changes c e f g)
    (hg : g.joinable) : f.joinable := by
  cases h with
  | joined hj => exact hj
  | returned | invalidated | cleared => cases hg
  | released =>
    cases hab : f.isAbandoned with
    | true =>
      rw [if_pos hab] at hg
      cases hg
    | false =>
      rw [hab] at hg
      exact hg
  | _ => exact hg

namespace Renewed

variable {key : CacheKey} {n : Nat} {newer : List (Event ε α)} {c c' : Cache ε α} {e : Event ε α}

theorem of_vacant (h : c.Vacant key) : Renewed key c.requests [] c where
  requests := Nat.le_refl _
  flights f hf hj hkey := absurd hkey ((vacant_iff.1 h).2 f hf hj)
  boards := nofun
  stored := nofun
  entries v hv := absurd hv ((vacant_iff.1 h).1 v)
  hits := nofun

theorem step (h : Renewed key n newer c) (hids : (c.flights.map (·.id)).Nodup) (hs : Step c e c') :
    Renewed key n (e :: newer) c' where
  requests := by
    have := h.requests
    rcases hs.asks with ⟨-, hc⟩ | ⟨-, hc⟩ <;> omega
  flights g hg hj hkey := by
    rcases hs.flights hids hg with ⟨hg, -⟩ | ⟨f, hf, hch⟩ | ⟨_, _, -, -, rfl⟩
    · exact h.flights g hg hj hkey
    · have hcont := hch.continues
      rw [hcont.id]
      exact h.flights f hf (hch.joinable hj) (hcont.key.symm.trans hkey)
    · exact h.requests
  boards e' he' id slot computation hb := by
    rcases List.mem_cons.1 he' with rfl | he'
    · cases hs with
      | begin =>
        cases hb with
        | began hslot =>
          rw [hslot]
          exact h.requests
      | join _ hsome =>
        cases hb
        obtain ⟨hf, hj, hkey⟩ := flightFor?_eq_some hsome
        exact h.flights _ hf hj hkey
      | _ => cases hb
    · exact h.boards e' he' id slot computation hb
  stored e' he' slot v hst := by
    rcases List.mem_cons.1 he' with rfl | he'
    · cases hst with
      | returned =>
        obtain ⟨f, a, hh, -, rfl, hkey, -, hkept⟩ := hs.returned
        simp only [Bool.true_eq, Bool.and_eq_true] at hkept
        exact h.flights f hh.1 hkept.1 hkey
    · exact h.stored e' he' slot v hst
  entries v hv := by
    rcases hs.entries hv with hv | ⟨slot, hst⟩
    · obtain ⟨slot, e', he', hst⟩ := h.entries v hv
      exact ⟨slot, e', .tail _ he', hst⟩
    · exact ⟨slot, e, .head _, hst⟩
  hits id v hmem := by
    have hbefore : (∃ slot, ∃ e ∈ newer, e.Stores slot key v) →
        ∃ slot, ∃ e' ∈ e :: newer, e'.Stores slot key v :=
      Exists.imp fun slot ⟨e', he', hst⟩ => ⟨e', .tail _ he', hst⟩
    rcases List.mem_cons.1 hmem with rfl | hmem
    · cases hs with
      | hit hget => exact hbefore (h.entries v (get?_mem hget))
    · exact hbefore (h.hits id v hmem)

end Renewed

section
variable {n : Nat} {older newer : List (Event ε α)} {c₀ c : Cache ε α} {key : CacheKey}

theorem Steps.renewed (hs : Steps c₀ newer c) (h : Run n older c₀) (hvacant : c₀.Vacant key) :
    Renewed key c₀.requests newer c := by
  induction hs with
  | refl => exact .of_vacant hvacant
  | cons hs hstep ih => exact ih.step (h.append hs).inv.ids hstep

/-- Who comes on board of a flight that was begun later comes on board later. -/
theorem Inv.mem_newer (h : Inv older c₀) {e : Event ε α} (he : e ∈ newer ++ older) {id : CallerId}
    {slot : FlightId} {key : CacheKey} {computation : Computation ε α}
    (hb : e.Boards id slot key computation) (hslot : c₀.requests ≤ slot) : e ∈ newer := by
  rcases List.mem_append.1 he with he | he
  · exact he
  · obtain ⟨_, hbegan⟩ := h.boarded e he _ _ _ _ hb
    exact absurd (h.lt hbegan rfl) (Nat.not_lt.2 hslot)

/-- What somebody who asks after a cache held nothing for the key is given was computed by somebody
who came on board after that. -/
theorem Steps.boarded_of_answers (hs : Steps c₀ newer c) (h : Run n older c₀)
    (hvacant : c₀.Vacant key) {b e : Event ε α} (hb : b ∈ newer) {id : CallerId}
    {computation : Computation ε α} (hasks : b.Asks id key computation)
    (he : e ∈ newer ++ older) {outcome : Except ε α} (ha : e.Answers id key outcome) :
    ∃ b' ∈ newer, ∃ id' slot number computation, b'.Boards id' slot key computation ∧
      computation.outcome number = outcome := by
  have hinv := (h.append hs).inv
  have hrenewed := hs.renewed h hvacant
  have hmem : b ∈ newer ++ older := List.mem_append_left _ hb
  -- the flight that the outcome comes from was begun later
  suffices hslot : ∃ slot, c₀.requests ≤ slot ∧ Computed (newer ++ older) slot key outcome by
    obtain ⟨slot, hle, id', number, computation', ⟨b', hb', hboards⟩, -, -, hc⟩ := hslot
    exact ⟨b', h.inv.mem_newer hb' hboards hle, id', slot, number, computation', hboards, hc⟩
  cases ha with
  | hit =>
    obtain rfl := hinv.eq_of_asker hmem he (Event.asker_of_asks hasks) rfl
    obtain ⟨slot, e', he', hst⟩ := hrenewed.hits _ _ hb
    refine ⟨slot, hrenewed.stored e' he' slot _ hst, ?_⟩
    cases hst with
    | returned =>
      obtain ⟨⟨b', hb', computation', hboards⟩, hended⟩ :=
        hinv.returned _ _ _ _ _ (List.mem_append_left _ he')
      exact hinv.computed hended ⟨b', hb', computation', hboards⟩
  | returned =>
    obtain ⟨⟨b', hb', computation', hboards⟩, hended⟩ := hinv.returned _ _ _ _ _ he
    obtain rfl := hinv.eq_of_asker hmem hb' (Event.asker_of_asks hasks)
      (Event.asker_of_boards hboards)
    exact ⟨_, hrenewed.boards b hb _ _ _ hboards,
      hinv.computed hended ⟨b, hmem, computation', hboards⟩⟩

end

end DesignSystem.Cache

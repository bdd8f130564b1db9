import BaptistApi.Lib.SingleFlight
import BaptistApi.Tokens
import Mathlib.Algebra.Order.Ring.Rat

/-!
# Callers of one `JwksCache`

Any number of calls of `JwksCache.get` with one URL, in every order that the event loop may give their turns.
-/

namespace BaptistApi

open BaptistApi.SingleFlight

namespace JwksCache

/-! ## The cache as a store -/

/-- The check that `get` makes twice. -/
def cached (cache : JwksCache) (now : ℚ) : Option Jwks := if cache.fresh now then some cache.keys else none

/-- What `get` does when `await self._fetcher(url)` is over. -/
def afterFetch (ttlSeconds : ℕ) (cache : JwksCache) (storedAt : ℚ) :
    Except PyError Jwks → Except PyError Jwks × JwksCache
  | .error e => (.error e, cache)
  | .ok keys =>
    if keys.isEmpty then (.error .valueError, cache) else (.ok keys, { keys, expiresAt := storedAt + ttlSeconds })

/-- `JwksCache(fetcher, ttl_seconds)`, with one URL. `O` is what a fetch may meet. -/
def store {O : Type} (fetcher : O → Except PyError Jwks) (ttlSeconds : ℕ) : Store JwksCache ℚ O Jwks PyError where
  look := cached
  load cache storedAt o := cache.afterFetch ttlSeconds storedAt (fetcher o)

/-- A fetch succeeds when it gives keys. -/
def usable : Except PyError Jwks → Option Jwks
  | .ok keys => if keys.isEmpty then none else some keys
  | .error _ => none

theorem usable_eq_some {fetched : Except PyError Jwks} {keys : Jwks} :
    usable fetched = some keys ↔ fetched = .ok keys ∧ keys ≠ [] := by
  cases fetched with
  | error e => simp [usable]
  | ok found =>
    by_cases h : found = []
    · subst h
      simp only [usable, List.isEmpty_nil, if_true]
      constructor
      · intro hnone
        cases hnone
      · rintro ⟨hk, hne⟩
        cases hk
        exact absurd rfl hne
    · rw [usable, if_neg (by simpa using h)]
      constructor
      · intro hsome
        cases hsome
        exact ⟨rfl, h⟩
      · rintro ⟨hk, -⟩
        cases hk
        rfl

theorem usable_eq_none {fetched : Except PyError Jwks} :
    usable fetched = none ↔ ∀ keys, fetched = .ok keys → keys = [] := by
  rw [Option.eq_none_iff_forall_ne_some]
  constructor
  · intro h keys hk
    by_contra hne
    exact h keys (usable_eq_some.mpr ⟨hk, hne⟩)
  · intro h keys hk
    obtain ⟨hk, hne⟩ := usable_eq_some.mp hk
    exact hne (h keys hk)

section Runs

variable {O : Type} {fetcher : O → Except PyError Jwks} {ttlSeconds : ℕ}

theorem cached_empty (now : ℚ) : cached {} now = none := by
  simp [cached, fresh]

theorem expiring (fetcher : O → Except PyError Jwks) (ttlSeconds : ℕ) :
    Expiring (store fetcher ttlSeconds) (fun o => usable (fetcher o)) (· + (ttlSeconds : ℚ)) where
  mono := by
    intro a b h
    exact add_le_add_left h _
  keeps := by
    intro cache storedAt o keys hgood
    obtain ⟨hk, hne⟩ := usable_eq_some.mp hgood
    have hload : (store fetcher ttlSeconds).load cache storedAt o =
        (.ok keys, { keys, expiresAt := storedAt + ttlSeconds }) := by
      simp only [store, afterFetch, hk]
      rw [if_neg (by simpa using hne)]
    rw [hload]
    refine ⟨rfl, fun now => ?_⟩
    simp only [store, cached, fresh]
    simp [hne]
  fails := by
    intro cache storedAt o hgood
    simp only [store]
    cases hk : fetcher o with
    | error e => exact ⟨rfl, fun v h => by cases h⟩
    | ok keys =>
      have hempty := usable_eq_none.mp hgood keys hk
      subst hempty
      exact ⟨rfl, fun v h => by cases h⟩

/-! ## One call -/

theorem get_eq_course (ttlSeconds : ℕ) (cache : JwksCache) (s : Surroundings) :
    cache.get ttlSeconds s =
      (store fetchJwks ttlSeconds).course cache s.lookedAt s.locked s.lockedAt s.storedAt s.outcome := by
  unfold get Store.course
  simp only [store, cached]
  by_cases hlooked : cache.fresh s.lookedAt = true
  · simp [hlooked]
  · by_cases hlocked : s.locked.fresh s.lockedAt = true
    · simp [hlooked, hlocked]
    · simp only [hlooked, hlocked]
      cases fetchJwks s.outcome <;> rfl

theorem ended_eq_get {start : ℚ} {ls : List (Label ℚ HttpOutcome)} {w : World JwksCache ℚ Jwks PyError}
    (hrun : (store fetchJwks ttlSeconds).run { state := {}, clock := start } ls = some w) {i : ℕ}
    {outcome : Except PyError Jwks} (hi : w.callers i = .ended outcome) :
    ∃ (cache : JwksCache) (s : Surroundings), s.lookedAt ≤ s.lockedAt ∧ s.lockedAt ≤ s.storedAt ∧
      s.storedAt ≤ w.clock ∧ (cache.get ttlSeconds s).1 = outcome := by
  have hsome : Nonempty HttpOutcome := ⟨.httpError⟩
  obtain ⟨cache, t₀, locked, t₁, t₂, o, h01, h12, ht₂, hr⟩ := run_course hrun hi
  refine ⟨cache, ⟨t₀, t₁, t₂, locked, o⟩, h01, h12, ht₂, ?_⟩
  rw [get_eq_course]
  exact hr

/-! ## All calls -/

/-- What holds of the callers of one cache, after the record `h`. -/
structure Shared (fetcher : O → Except PyError Jwks) (ttlSeconds : ℕ) (w : World JwksCache ℚ Jwks PyError)
    (h : List (SingleFlight.Event ℚ O Jwks)) : Prop where
  oneFetch : ∀ i j, w.callers i = .loading → w.callers j = .loading → i = j
  /-- No fetch starts before the keys of an earlier one have expired. -/
  notEarly : ∀ p q i (t : ℚ), h = p ++ .started i t :: q → ∀ j (c : ℚ) o keys, .loaded j c o ∈ p →
    fetcher o = .ok keys → keys ≠ [] → c + ttlSeconds ≤ t
  /-- A `get` returns keys that it found before they expired, or that it has fetched itself. -/
  returned : ∀ i keys, w.callers i = .ended (.ok keys) → keys ≠ [] ∧
    ((∃ p q, ∃ t : ℚ, h = p ++ .hit i t keys :: q ∧ ∃ j c o, .loaded j c o ∈ p ∧ fetcher o = .ok keys ∧
        c ≤ t ∧ t < c + ttlSeconds) ∨
      ∃ t o, .loaded i t o ∈ h ∧ fetcher o = .ok keys)
  /-- Fetches that fail or find no keys leave the cache as it is. -/
  failed : ∀ ls w', (store fetcher ttlSeconds).run w ls = some w' →
    (∀ i t o, .loaded i t o ∈ (store fetcher ttlSeconds).record w ls → ∀ keys, fetcher o = .ok keys → keys = []) →
    w'.state = w.state

/-- **The cache is single-flight and never stale**, in every order of turns. -/
theorem single_flight (fetcher : O → Except PyError Jwks) (ttlSeconds : ℕ) {start : ℚ} {ls : List (Label ℚ O)}
    {w : World JwksCache ℚ Jwks PyError}
    (hrun : (store fetcher ttlSeconds).run { state := {}, clock := start } ls = some w) :
    Shared fetcher ttlSeconds w ((store fetcher ttlSeconds).record { state := {}, clock := start } ls) := by
  have hM := expiring fetcher ttlSeconds
  have hw := run_sound hM cached_empty hrun
  constructor
  · intro i j hi hj
    exact hw.owned.unique hi hj
  · intro p q i t hrec j c o keys hmem hk hne
    have hgood : usable (fetcher o) ≠ none := by
      rw [usable_eq_some.mpr ⟨hk, hne⟩]
      exact Option.some_ne_none _
    exact hw.backed p _ q hrec j c o hmem hgood
  · intro i keys hi
    have htold := hw.told i
    rw [hi] at htold
    rcases htold with ⟨t, hmem⟩ | ⟨t, o, hmem, hgood⟩
    · obtain ⟨p, q, hrec, j, c, o, hloaded, hgood, hle, hlt⟩ := hw.backed.of_mem hmem
      obtain ⟨hk, hne⟩ := usable_eq_some.mp hgood
      exact ⟨hne, Or.inl ⟨p, q, t, hrec, j, c, o, hloaded, hk, hle, hlt⟩⟩
    · obtain ⟨hk, hne⟩ := usable_eq_some.mp hgood
      exact ⟨hne, Or.inr ⟨t, o, hmem, hk⟩⟩
  · intro ls' w' hrun' hfails
    exact run_fails hM hrun' fun i t o hmem => usable_eq_none.mpr (hfails i t o hmem)

end Runs

/-! ### Three callers -/

/-- The first fetch fails while a second caller waits. That one fetches next, and a third finds its keys. -/
def threeCallers : List (Label ℚ HttpOutcome) :=
  [.call 0 1, .enter 0 1, .call 1 2, .finish 0 3 .httpError, .enter 1 3, .finish 1 5 ellipticDocument.outcome,
    .call 2 604]

def afterThreeCallers : World JwksCache ℚ Jwks PyError :=
  ((store fetchJwks 600).run { state := {}, clock := 0 } threeCallers).get (by decide +kernel)

theorem single_flight_of_three :
    Shared fetchJwks 600 afterThreeCallers
      ((store fetchJwks 600).record { state := {}, clock := 0 } threeCallers) :=
  single_flight fetchJwks 600 (Option.some_get _).symm

end JwksCache

end BaptistApi

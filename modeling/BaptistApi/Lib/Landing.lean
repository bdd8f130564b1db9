import BaptistApi.Lib.Progress
import BaptistApi.Lib.SingleFlight
import Mathlib.Algebra.Order.BigOperators.Group.Finset

/-!
# Flights that land

No caller waits for ever. A turn brings the caller that has it closer to its end, and somebody may always have
one: whoever loads, or whoever waits once nobody does.
-/

namespace BaptistApi.Transactions

theorem Inevitable.of_measure {S : Type} {next : S → S → Prop} {P I : S → Prop} (measure : S → ℕ)
    (hstep : ∀ s s', I s → next s s' → I s' ∧ measure s' < measure s) (hlive : ∀ s, I s → ¬ P s → ∃ s', next s s') {s : S}
    (h : I s) : Inevitable next P s := by
  induction hm : measure s using Nat.strong_induction_on generalizing s with
  | _ m ih =>
    by_cases hP : P s
    · exact .now hP
    · refine .later (hlive s h hP) fun s' hs => ?_
      obtain ⟨hI, hlt⟩ := hstep s s' h hs
      exact ih _ (hm ▸ hlt) hI rfl

end BaptistApi.Transactions

namespace BaptistApi.SingleFlight

open BaptistApi.Transactions

variable {S T O V X : Type}

/-- How many turns a caller may still need. -/
def Caller.turns : Caller V X → ℕ
  | .waiting => 2
  | .loading => 1
  | _ => 0

/-- No caller is on its way. -/
def World.Landed (w : World S T V X) : Prop := ∀ i, w.callers i ≠ .waiting ∧ w.callers i ≠ .loading

/-- Everybody who has called is among `begun`. -/
def Begun (begun : Finset ℕ) (w : World S T V X) : Prop := ∀ i, i ∉ begun → w.callers i = .absent

theorem Begun.mem {w : World S T V X} {begun : Finset ℕ} (h : Begun begun w) {i : ℕ} (hi : 0 < (w.callers i).turns) :
    i ∈ begun := by
  by_contra hnot
  rw [h i hnot] at hi
  exact absurd hi (Nat.lt_irrefl 0)

variable [LinearOrder T] {M : Store S T O V X} {w w' : World S T V X} {l : Label T O} {e : Option (Event T O V)}

/-- A turn of a caller that has called before. -/
def Store.Onward (M : Store S T O V X) (w w' : World S T V X) : Prop :=
  ∃ l, (∀ i t, l ≠ .call i t) ∧ M.step w l = some w'

/-- One that is no cancellation. -/
def Store.Unaided (M : Store S T O V X) (w w' : World S T V X) : Prop :=
  ∃ l, (∀ i t, l ≠ .call i t) ∧ (∀ i, l ≠ .cancel i) ∧ M.step w l = some w'

theorem Store.Unaided.onward (h : M.Unaided w w') : M.Onward w w' := by
  obtain ⟨l, hcall, -, hs⟩ := h
  exact ⟨l, hcall, hs⟩

theorem Store.Step.turns_lt (hs : M.Step w l w' e) (hl : ∀ i t, l ≠ .call i t) :
    (w'.callers l.caller).turns < (w.callers l.caller).turns := by
  cases hs with
  | served | queued => exact absurd rfl (hl _ _)
  | servedLate hi =>
    rw [Label.caller, hi, World.turn_self]
    exact Nat.zero_lt_two
  | started hi =>
    rw [Label.caller, hi, World.take_self]
    exact Nat.one_lt_two
  | finished hi =>
    rw [Label.caller, hi, World.give_self]
    exact Nat.zero_lt_one
  | cancelled hi =>
    rw [Label.caller, hi, World.turn_self]
    exact Nat.zero_lt_two

theorem Begun.step {begun : Finset ℕ} (h : Begun begun w) (hs : M.Step w l w' e) : Begun (insert l.caller begun) w' := by
  intro i hi
  rw [Finset.mem_insert, not_or] at hi
  rw [hs.callers_ne hi.1]
  exact h i hi.2

theorem run_begun {s : S} {t : T} {ls : List (Label T O)} (hrun : M.run { state := s, clock := t } ls = some w) :
    Owned w ∧ ∃ begun, Begun begun w := by
  refine Store.run_record (I := fun w _ => Owned w ∧ ∃ begun, Begun begun w) ?_ ?_ hrun
  · rintro w _ l w' e ⟨howned, begun, hbegun⟩ hs
    exact ⟨howned.step hs, _, hbegun.step hs⟩
  · exact ⟨⟨none, rfl, fun i => by simp⟩, ∅, fun i _ => rfl⟩

theorem onward_turns {begun : Finset ℕ} (h : Begun begun w) (hs : M.Onward w w') :
    Begun begun w' ∧ ∑ i ∈ begun, (w'.callers i).turns < ∑ i ∈ begun, (w.callers i).turns := by
  obtain ⟨l, hl, hstep⟩ := hs
  have hs := Store.step_cases hstep
  have hlt := hs.turns_lt hl
  have hmem : l.caller ∈ begun := h.mem (Nat.zero_lt_of_lt hlt)
  refine ⟨Finset.insert_eq_of_mem hmem ▸ h.step hs, Finset.sum_lt_sum (fun i _ => ?_) ⟨_, hmem, hlt⟩⟩
  by_cases hi : i = l.caller
  · exact hi ▸ hlt.le
  · rw [hs.callers_ne hi]

theorem Owned.live [Nonempty O] (h : Owned w) (hw : ¬ w.Landed) : ∃ w', M.Unaided w w' := by
  obtain ⟨o⟩ := ‹Nonempty O›
  by_cases hloading : ∃ i, w.callers i = .loading
  · obtain ⟨i, hi⟩ := hloading
    exact ⟨_, .finish i w.clock o, by simp, by simp, by simp only [Store.step, hi, le_refl, if_true]; rfl⟩
  · have hfree : w.locked = false := by
      obtain ⟨owner, hlock, howner⟩ := h
      cases owner with
      | none => exact hlock
      | some i => exact absurd ⟨i, (howner i).mpr rfl⟩ hloading
    have hwaiting : ∃ i, w.callers i = .waiting := by
      simp only [World.Landed, not_forall, not_and_or, not_not] at hw
      obtain ⟨i, hi | hi⟩ := hw
      · exact ⟨i, hi⟩
      · exact absurd ⟨i, hi⟩ hloading
    obtain ⟨i, hi⟩ := hwaiting
    have henter : ∃ w', M.step w (.enter i w.clock) = some w' := by
      simp only [Store.step, hi, le_refl, hfree, and_self, if_true]
      cases M.look w.state w.clock with
      | none => exact ⟨_, rfl⟩
      | some v => exact ⟨_, rfl⟩
    obtain ⟨w', hs⟩ := henter
    exact ⟨w', .enter i w.clock, by simp, by simp, hs⟩

/-- **Every caller lands**, after every run, on every schedule of those who have called, and also when nobody is
cancelled. -/
theorem run_lands [Nonempty O] {s : S} {t : T} {ls : List (Label T O)}
    (hrun : M.run { state := s, clock := t } ls = some w) :
    Inevitable M.Onward World.Landed w ∧ Inevitable M.Unaided World.Landed w := by
  obtain ⟨howned, begun, hbegun⟩ := run_begun hrun
  have hstep (w w' : World S T V X) (h : Owned w ∧ Begun begun w) (hs : M.Onward w w') :
      (Owned w' ∧ Begun begun w') ∧ ∑ i ∈ begun, (w'.callers i).turns < ∑ i ∈ begun, (w.callers i).turns := by
    obtain ⟨hbegun', hlt⟩ := onward_turns h.2 hs
    obtain ⟨l, -, hs⟩ := hs
    exact ⟨⟨h.1.step (Store.step_cases hs), hbegun'⟩, hlt⟩
  have hlive (w : World S T V X) (h : Owned w ∧ Begun begun w) (hw : ¬ w.Landed) : ∃ w', M.Unaided w w' := h.1.live hw
  constructor
  · refine Inevitable.of_measure _ hstep (fun w h hw => ?_) ⟨howned, hbegun⟩
    obtain ⟨w', hs⟩ := hlive w h hw
    exact ⟨w', hs.onward⟩
  · exact Inevitable.of_measure _ (fun w w' h hs => hstep w w' h hs.onward) hlive ⟨howned, hbegun⟩

end BaptistApi.SingleFlight

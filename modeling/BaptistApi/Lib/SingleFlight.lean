import BaptistApi.Lib.History
import Mathlib.Order.Lattice
import Mathlib.Order.Monotone.Defs

/-!
# Single flight

Callers share a value that is costly to load. Each looks whether it is there, and if not waits for a lock, looks
once more, and loads the value while it holds the lock.

The callers take turns: between two turns of one of them any others may have theirs. A turn reads the clock once.
-/

namespace BaptistApi.SingleFlight

/-- What is shared is `S`. `look` is the check, and `load` is what follows a load that ended with `O`. -/
structure Store (S T O V X : Type) where
  look : S → T → Option V
  load : S → T → O → Except X V × S

inductive Caller (V X : Type) where
  | absent
  | waiting
  | loading
  | ended (outcome : Except X V)
  | cancelled

structure World (S T V X : Type) where
  state : S
  clock : T
  locked : Bool := false
  callers : ℕ → Caller V X := fun _ => .absent

inductive Label (T O : Type) where
  | call (i : ℕ) (t : T)
  | enter (i : ℕ) (t : T)
  | finish (i : ℕ) (t : T) (o : O)
  | cancel (i : ℕ)

/-- Whose turn it is. -/
def Label.caller {T O : Type} : Label T O → ℕ
  | .call i _ => i
  | .enter i _ => i
  | .finish i _ _ => i
  | .cancel i => i

/-- What a turn gives to see: a look that found the value, a load that starts, and one that is over. -/
inductive Event (T O V : Type) where
  | hit (i : ℕ) (t : T) (v : V)
  | started (i : ℕ) (t : T)
  | loaded (i : ℕ) (t : T) (o : O)

def Event.time {T O V : Type} : Event T O V → T
  | .hit _ t _ => t
  | .started _ t => t
  | .loaded _ t _ => t

namespace World

variable {S T V X : Type}

/-- Caller `i` has had its turn at `t`. -/
def turn (w : World S T V X) (i : ℕ) (t : T) (c : Caller V X) : World S T V X :=
  { w with clock := t, callers := Function.update w.callers i c }

/-- Caller `i` has the lock and starts to load. -/
def take (w : World S T V X) (i : ℕ) (t : T) : World S T V X :=
  { w with clock := t, locked := true, callers := Function.update w.callers i .loading }

/-- Caller `i` ends, and frees the lock. -/
def give (w : World S T V X) (i : ℕ) (t : T) (r : Except X V × S) : World S T V X :=
  { state := r.2, clock := t, locked := false, callers := Function.update w.callers i (.ended r.1) }

variable (w : World S T V X) (i : ℕ) (t : T) (c : Caller V X) (r : Except X V × S)

@[simp] theorem turn_self : (w.turn i t c).callers i = c := Function.update_self _ _ _
@[simp] theorem take_self : (w.take i t).callers i = .loading := Function.update_self _ _ _
@[simp] theorem give_self : (w.give i t r).callers i = .ended r.1 := Function.update_self _ _ _

variable {i} {j : ℕ}

theorem turn_ne (h : j ≠ i) : (w.turn i t c).callers j = w.callers j := Function.update_of_ne h _ _
theorem take_ne (h : j ≠ i) : (w.take i t).callers j = w.callers j := Function.update_of_ne h _ _
theorem give_ne (h : j ≠ i) : (w.give i t r).callers j = w.callers j := Function.update_of_ne h _ _

end World

namespace Store

section Steps

variable {S T O V X : Type} [LinearOrder T] (M : Store S T O V X)

/-- Whoever waits may have the lock when it is free. A look under the lock that finds the value frees it in the
same turn. -/
def step (w : World S T V X) : Label T O → Option (World S T V X)
  | .call i t =>
    match w.callers i with
    | .absent =>
      if w.clock ≤ t then
        match M.look w.state t with
        | some v => some (w.turn i t (.ended (.ok v)))
        | none => some (w.turn i t .waiting)
      else none
    | _ => none
  | .enter i t =>
    match w.callers i with
    | .waiting =>
      if w.clock ≤ t ∧ w.locked = false then
        match M.look w.state t with
        | some v => some (w.turn i t (.ended (.ok v)))
        | none => some (w.take i t)
      else none
    | _ => none
  | .finish i t o =>
    match w.callers i with
    | .loading =>
      if w.clock ≤ t then some (w.give i t (M.load w.state t o)) else none
    | _ => none
  | .cancel i =>
    match w.callers i with
    | .waiting => some (w.turn i w.clock .cancelled)
    | _ => none

def run (w : World S T V X) (ls : List (Label T O)) : Option (World S T V X) := ls.foldlM M.step w

def observe (w : World S T V X) : Label T O → Option (Event T O V)
  | .call i t => (M.look w.state t).map (.hit i t)
  | .enter i t => some (((M.look w.state t).map (.hit i t)).getD (.started i t))
  | .finish i t o => some (.loaded i t o)
  | .cancel _ => none

/-- What the turns of a run give to see. -/
def record (w : World S T V X) (ls : List (Label T O)) : List (Event T O V) :=
  Transactions.history M.step M.observe w ls

/-- Everything a turn can be, with its guard. -/
inductive Step (w : World S T V X) : Label T O → World S T V X → Option (Event T O V) → Prop where
  | served {i : ℕ} {t : T} {v : V} (hi : w.callers i = .absent) (ht : w.clock ≤ t) (hv : M.look w.state t = some v) :
      Step w (.call i t) (w.turn i t (.ended (.ok v))) (some (.hit i t v))
  | queued {i : ℕ} {t : T} (hi : w.callers i = .absent) (ht : w.clock ≤ t) (hv : M.look w.state t = none) :
      Step w (.call i t) (w.turn i t .waiting) none
  | servedLate {i : ℕ} {t : T} {v : V} (hi : w.callers i = .waiting) (ht : w.clock ≤ t) (hfree : w.locked = false)
      (hv : M.look w.state t = some v) :
      Step w (.enter i t) (w.turn i t (.ended (.ok v))) (some (.hit i t v))
  | started {i : ℕ} {t : T} (hi : w.callers i = .waiting) (ht : w.clock ≤ t) (hfree : w.locked = false)
      (hv : M.look w.state t = none) :
      Step w (.enter i t) (w.take i t) (some (.started i t))
  | finished {i : ℕ} {t : T} {o : O} (hi : w.callers i = .loading) (ht : w.clock ≤ t) :
      Step w (.finish i t o) (w.give i t (M.load w.state t o)) (some (.loaded i t o))
  | cancelled {i : ℕ} (hi : w.callers i = .waiting) : Step w (.cancel i) (w.turn i w.clock .cancelled) none

variable {M} {w w' : World S T V X} {l : Label T O} {e : Option (Event T O V)}

theorem step_cases (h : M.step w l = some w') : M.Step w l w' (M.observe w l) := by
  cases l with
  | call i t =>
    simp only [step] at h
    split at h
    · rename_i hi
      split at h
      · rename_i ht
        split at h
        · rename_i v hv
          cases h
          rw [observe, hv]
          exact .served hi ht hv
        · rename_i hv
          cases h
          rw [observe, hv]
          exact .queued hi ht hv
      · cases h
    · cases h
  | enter i t =>
    simp only [step] at h
    split at h
    · rename_i hi
      split at h
      · rename_i ht
        split at h
        · rename_i v hv
          cases h
          rw [observe, hv]
          exact .servedLate hi ht.1 ht.2 hv
        · rename_i hv
          cases h
          rw [observe, hv]
          exact .started hi ht.1 ht.2 hv
      · cases h
    · cases h
  | finish i t o =>
    simp only [step] at h
    split at h
    · rename_i hi
      split at h
      · rename_i ht
        cases h
        exact .finished hi ht
      · cases h
    · cases h
  | cancel i =>
    simp only [step] at h
    split at h
    · rename_i hi
      cases h
      exact .cancelled hi
    · cases h

theorem Step.clock_le (hs : M.Step w l w' e) : w.clock ≤ w'.clock := by
  cases hs with
  | served _ ht _ | queued _ ht _ | servedLate _ ht _ _ | started _ ht _ _ | finished _ ht => exact ht
  | cancelled _ => exact le_refl _

theorem Step.time (hs : M.Step w l w' e) {x : Event T O V} (hx : x ∈ e.toList) : x.time = w'.clock := by
  cases hs with
  | queued _ _ _ | cancelled _ => cases hx
  | _ =>
    cases List.mem_singleton.mp hx
    rfl

theorem Step.callers_ne (hs : M.Step w l w' e) {j : ℕ} (hj : j ≠ l.caller) : w'.callers j = w.callers j := by
  cases hs with
  | started _ _ _ _ => exact World.take_ne _ _ hj
  | finished _ _ => exact World.give_ne _ _ _ hj
  | _ => exact World.turn_ne _ _ _ hj

theorem run_record {I : World S T V X → List (Event T O V) → Prop}
    (hstep : ∀ w h l w' e, I w h → M.Step w l w' e → I w' (h ++ e.toList)) {ls : List (Label T O)} (h0 : I w [])
    (hrun : M.run w ls = some w') : I w' (M.record w ls) :=
  Transactions.run_history M.step M.observe (fun w h l w' hI hs => hstep w h l w' _ hI (step_cases hs)) h0 hrun

end Steps

end Store

/-! ## One load at a time -/

section Owner

variable {S T V X : Type} {w : World S T V X}

/-- The lock is held just while somebody loads, and that is one caller. -/
def Owned (w : World S T V X) : Prop :=
  ∃ owner : Option ℕ, w.locked = owner.isSome ∧ ∀ i, w.callers i = .loading ↔ owner = some i

theorem Owned.unique (h : Owned w) {i j : ℕ} (hi : w.callers i = .loading) (hj : w.callers j = .loading) : i = j := by
  obtain ⟨owner, -, howner⟩ := h
  have hown := (howner i).mp hi
  rw [(howner j).mp hj] at hown
  exact (Option.some.inj hown).symm

theorem Owned.not_loading (h : Owned w) (hfree : w.locked = false) (i : ℕ) : w.callers i ≠ .loading := by
  obtain ⟨owner, hlock, howner⟩ := h
  rw [hfree] at hlock
  intro hi
  rw [(howner i).mp hi] at hlock
  cases hlock

theorem Owned.turn (h : Owned w) {i : ℕ} (hi : w.callers i ≠ .loading) (t : T) {c : Caller V X}
    (hc : c ≠ .loading) : Owned (w.turn i t c) := by
  obtain ⟨owner, hlock, howner⟩ := h
  refine ⟨owner, hlock, fun j => ?_⟩
  by_cases hji : j = i
  · subst hji
    rw [World.turn_self, ← howner j]
    exact iff_of_false hc hi
  · rw [World.turn_ne _ _ _ hji]
    exact howner j

theorem Owned.take (h : Owned w) (hfree : w.locked = false) (i : ℕ) (t : T) : Owned (w.take i t) := by
  refine ⟨some i, rfl, fun j => ?_⟩
  by_cases hji : j = i
  · subst hji
    exact iff_of_true (World.take_self _ _ _) rfl
  · rw [World.take_ne _ _ hji]
    exact iff_of_false (h.not_loading hfree j) fun hj => hji (Option.some.inj hj).symm

theorem Owned.give (h : Owned w) {i : ℕ} (hi : w.callers i = .loading) (t : T) (r : Except X V × S) :
    Owned (w.give i t r) := by
  refine ⟨none, rfl, fun j => iff_of_false (fun hj => ?_) (by simp)⟩
  by_cases hji : j = i
  · subst hji
    rw [World.give_self] at hj
    cases hj
  · rw [World.give_ne _ _ _ hji] at hj
    exact hji (h.unique hj hi)

end Owner

section Flight

variable {S T O V X : Type} [LinearOrder T] {M : Store S T O V X} {w w' : World S T V X} {l : Label T O}
  {e : Option (Event T O V)}

theorem Owned.step (h : Owned w) (hs : M.Step w l w' e) : Owned w' := by
  cases hs with
  | served hi _ _ | queued hi _ _ | servedLate hi _ _ _ | cancelled hi => exact h.turn (by simp [hi]) _ (by simp)
  | started _ _ hfree _ => exact h.take hfree _ _
  | finished hi _ => exact h.give hi _ _

theorem Owned.state_eq (h : Owned w) (hs : M.Step w l w' e) {i : ℕ} (hi : w.callers i = .loading)
    (hi' : w'.callers i = .loading) : w'.state = w.state := by
  cases hs with
  | finished hj _ =>
    obtain rfl := h.unique hi hj
    rw [World.give_self] at hi'
    cases hi'
  | _ => rfl

end Flight

/-! ## A caller alone -/

section Course

variable {S T O V X : Type} [LinearOrder T] {M : Store S T O V X} {w w' : World S T V X} {l : Label T O}
  {e : Option (Event T O V)}

/-- What a caller comes to that looks at `s₀`, has the lock at `s₁`, and whose load ends at `t₂`. -/
def Store.course (M : Store S T O V X) (s₀ : S) (t₀ : T) (s₁ : S) (t₁ t₂ : T) (o : O) : Except X V × S :=
  match M.look s₀ t₀ with
  | some v => (.ok v, s₀)
  | none =>
    match M.look s₁ t₁ with
    | some v => (.ok v, s₁)
    | none => M.load s₁ t₂ o

/-- How far a caller has come. -/
def Underway (M : Store S T O V X) (w : World S T V X) : Caller V X → Prop
  | .absent => True
  | .waiting => ∃ s₀ t₀, t₀ ≤ w.clock ∧ M.look s₀ t₀ = none
  | .loading => ∃ s₀ t₀ t₁, t₀ ≤ t₁ ∧ t₁ ≤ w.clock ∧ M.look s₀ t₀ = none ∧ M.look w.state t₁ = none
  | .ended r =>
    ∃ s₀ t₀ s₁ t₁ t₂ o, t₀ ≤ t₁ ∧ t₁ ≤ t₂ ∧ t₂ ≤ w.clock ∧ (M.course s₀ t₀ s₁ t₁ t₂ o).1 = r
  | .cancelled => True

theorem Underway.later {c : Caller V X} (h : Underway M w c) (hclock : w.clock ≤ w'.clock)
    (hstate : c = .loading → w'.state = w.state) : Underway M w' c := by
  cases c with
  | absent => trivial
  | waiting =>
    obtain ⟨s₀, t₀, ht₀, hlook⟩ := h
    exact ⟨s₀, t₀, ht₀.trans hclock, hlook⟩
  | loading =>
    obtain ⟨s₀, t₀, t₁, h01, ht₁, hlook, hlook'⟩ := h
    exact ⟨s₀, t₀, t₁, h01, ht₁.trans hclock, hlook, (hstate rfl).symm ▸ hlook'⟩
  | ended r =>
    obtain ⟨s₀, t₀, s₁, t₁, t₂, o, h01, h12, ht₂, hr⟩ := h
    exact ⟨s₀, t₀, s₁, t₁, t₂, o, h01, h12, ht₂.trans hclock, hr⟩
  | cancelled => trivial

theorem Store.Step.underway [Nonempty O] (hs : M.Step w l w' e) (h : Underway M w (w.callers l.caller)) :
    Underway M w' (w'.callers l.caller) := by
  cases hs with
  | @served i t v hi ht hv =>
    rw [Label.caller, World.turn_self]
    refine ⟨w.state, t, w.state, t, t, Classical.arbitrary O, le_refl _, le_refl _, le_refl _, ?_⟩
    unfold Store.course
    rw [hv]
  | queued hi ht hv =>
    rw [Label.caller, World.turn_self]
    exact ⟨w.state, _, le_refl _, hv⟩
  | @servedLate i t v hi ht hfree hv =>
    rw [Label.caller, hi] at h
    obtain ⟨s₀, t₀, ht₀, hlook⟩ := h
    rw [Label.caller, World.turn_self]
    refine ⟨s₀, t₀, w.state, t, t, Classical.arbitrary O, ht₀.trans ht, le_refl _, le_refl _, ?_⟩
    unfold Store.course
    rw [hlook, hv]
  | started hi ht hfree hv =>
    rw [Label.caller, hi] at h
    obtain ⟨s₀, t₀, ht₀, hlook⟩ := h
    rw [Label.caller, World.take_self]
    exact ⟨s₀, t₀, _, ht₀.trans ht, le_refl _, hlook, hv⟩
  | @finished i t o hi ht =>
    rw [Label.caller, hi] at h
    obtain ⟨s₀, t₀, t₁, h01, ht₁, hlook, hlook'⟩ := h
    rw [Label.caller, World.give_self]
    refine ⟨s₀, t₀, w.state, t₁, t, o, h01, ht₁.trans ht, le_refl _, ?_⟩
    unfold Store.course
    rw [hlook, hlook']
  | cancelled hi =>
    rw [Label.caller, World.turn_self]
    trivial

theorem underway_step [Nonempty O] (ho : Owned w) (h : ∀ i, Underway M w (w.callers i)) (hs : M.Step w l w' e)
    (j : ℕ) : Underway M w' (w'.callers j) := by
  by_cases hji : j = l.caller
  · subst hji
    exact hs.underway (h l.caller)
  · rw [hs.callers_ne hji]
    refine (h j).later hs.clock_le fun hj => ?_
    exact ho.state_eq hs hj ((hs.callers_ne hji).trans hj)

/-- **Whoever ended came to what it would come to alone**, with what it met at each of its turns. -/
theorem run_course [Nonempty O] {s : S} {t : T} {ls : List (Label T O)}
    (hrun : M.run { state := s, clock := t } ls = some w) {i : ℕ} {r : Except X V} (hi : w.callers i = .ended r) :
    ∃ s₀ t₀ s₁ t₁ t₂ o, t₀ ≤ t₁ ∧ t₁ ≤ t₂ ∧ t₂ ≤ w.clock ∧ (M.course s₀ t₀ s₁ t₁ t₂ o).1 = r := by
  have hall : Owned w ∧ ∀ j, Underway M w (w.callers j) := by
    refine Store.run_record (I := fun w _ => Owned w ∧ ∀ j, Underway M w (w.callers j)) ?_ ?_ hrun
    · intro w _ l w' e h hs
      exact ⟨h.1.step hs, underway_step h.1 h.2 hs⟩
    · exact ⟨⟨none, rfl, fun j => by simp⟩, fun j => trivial⟩
  have hway := hall.2 i
  rw [hi] at hway
  exact hway

end Course

/-! ## Values that expire -/

section Expiry

variable {S T O V X : Type} [LinearOrder T] {M : Store S T O V X} {good : O → Option V} {deadline : T → T}
  {w w' : World S T V X} {l : Label T O} {e : Option (Event T O V)} {s : S} {h : List (Event T O V)}

/-- A load that gave a value at `t` keeps it until `deadline t`. Any other leaves what is shared as it is. -/
structure Expiring (M : Store S T O V X) (good : O → Option V) (deadline : T → T) : Prop where
  mono : Monotone deadline
  keeps : ∀ s t o v, good o = some v →
    (M.load s t o).1 = .ok v ∧ ∀ u, M.look (M.load s t o).2 u = if u < deadline t then some v else none
  fails : ∀ s t o, good o = none → (M.load s t o).2 = s ∧ ∀ v, (M.load s t o).1 ≠ .ok v

/-- What is shared is the value of the last load that gave one. -/
inductive Cached (M : Store S T O V X) (good : O → Option V) (deadline : T → T) (s : S)
    (h : List (Event T O V)) : Prop where
  | empty (hlook : ∀ t, M.look s t = none) (hnone : ∀ i t o, .loaded i t o ∈ h → good o = none)
  | filled {i : ℕ} {c : T} {o : O} {v : V} (hmem : .loaded i c o ∈ h) (hgood : good o = some v)
      (hlook : ∀ t, M.look s t = if t < deadline c then some v else none)
      (hlast : ∀ j t o', .loaded j t o' ∈ h → good o' ≠ none → t ≤ c)

theorem Cached.of_hit (hc : Cached M good deadline s h) {t : T} {v : V} (hv : M.look s t = some v) :
    ∃ i c o, .loaded i c o ∈ h ∧ good o = some v ∧ t < deadline c := by
  cases hc with
  | empty hlook _ =>
    rw [hlook t] at hv
    cases hv
  | @filled i c o v' hmem hgood hlook _ =>
    rw [hlook t] at hv
    split at hv
    · rename_i ht
      cases hv
      exact ⟨i, c, o, hmem, hgood, ht⟩
    · cases hv

theorem Cached.of_miss (hc : Cached M good deadline s h) (hmono : Monotone deadline) {t : T}
    (hv : M.look s t = none) {i : ℕ} {c : T} {o : O} (hmem : .loaded i c o ∈ h) (hgood : good o ≠ none) :
    deadline c ≤ t := by
  cases hc with
  | empty _ hnone => exact absurd (hnone i c o hmem) hgood
  | filled _ _ hlook hlast =>
    rw [hlook t] at hv
    split at hv
    · cases hv
    · rename_i ht
      exact (hmono (hlast i c o hmem hgood)).trans (not_lt.mp ht)

theorem Cached.append (hc : Cached M good deadline s h) {new : List (Event T O V)}
    (hnew : ∀ i t o, .loaded i t o ∈ new → good o = none) : Cached M good deadline s (h ++ new) := by
  cases hc with
  | empty hlook hnone =>
    refine .empty hlook fun i t o hmem => ?_
    rcases List.mem_append.mp hmem with hmem | hmem
    · exact hnone i t o hmem
    · exact hnew i t o hmem
  | filled hmem hgood hlook hlast =>
    refine .filled (List.mem_append_left _ hmem) hgood hlook fun j t o' hmem' hgood' => ?_
    rcases List.mem_append.mp hmem' with hmem' | hmem'
    · exact hlast j t o' hmem' hgood'
    · exact absurd (hnew j t o' hmem') hgood'

theorem Cached.step (hM : Expiring M good deadline) (hc : Cached M good deadline w.state h)
    (htimed : ∀ x ∈ h, x.time ≤ w.clock) (hs : M.Step w l w' e) :
    Cached M good deadline w'.state (h ++ e.toList) := by
  cases hs with
  | @finished i t o hi ht =>
    cases hgood : good o with
    | none =>
      have hstate : (w.give i t (M.load w.state t o)).state = w.state := (hM.fails w.state t o hgood).1
      rw [hstate]
      refine hc.append fun j u o' hmem => ?_
      cases List.mem_singleton.mp hmem
      exact hgood
    | some v =>
      refine .filled (List.mem_append_right _ List.mem_cons_self) hgood (hM.keeps w.state t o v hgood).2 ?_
      intro j u o' hmem _
      rcases List.mem_append.mp hmem with hmem | hmem
      · exact (htimed _ hmem).trans ht
      · cases List.mem_singleton.mp hmem
        exact le_refl _
  | _ => exact hc.append (by simp)

/-! ### Runs -/

/-- What an entry rests on: the value found is that of a load that has not expired, a load starts when no other
counts any more, and ends after its caller has started it. -/
def Backed (good : O → Option V) (deadline : T → T) (p : List (Event T O V)) : Event T O V → Prop
  | .hit _ t v => ∃ j c o, .loaded j c o ∈ p ∧ good o = some v ∧ c ≤ t ∧ t < deadline c
  | .started _ t => ∀ j c o, .loaded j c o ∈ p → good o ≠ none → deadline c ≤ t
  | .loaded i t _ => ∃ t₀, .started i t₀ ∈ p ∧ t₀ ≤ t

/-- What the record says of a caller. -/
def Told (good : O → Option V) (h : List (Event T O V)) (i : ℕ) : Caller V X → Prop
  | .loading => ∃ t, .started i t ∈ h
  | .ended (.ok v) => (∃ t, .hit i t v ∈ h) ∨ ∃ t o, .loaded i t o ∈ h ∧ good o = some v
  | _ => True

omit [LinearOrder T] in
theorem Told.append {i : ℕ} {c : Caller V X} (hc : Told good h i c) (new : List (Event T O V)) :
    Told good (h ++ new) i c := by
  cases c with
  | loading =>
    obtain ⟨t, ht⟩ := hc
    exact ⟨t, List.mem_append_left _ ht⟩
  | ended r =>
    cases r with
    | error x => trivial
    | ok v =>
      rcases hc with ⟨t, ht⟩ | ⟨t, o, ht, hgood⟩
      · exact Or.inl ⟨t, List.mem_append_left _ ht⟩
      · exact Or.inr ⟨t, o, List.mem_append_left _ ht, hgood⟩
  | _ => trivial

theorem Told.step (hM : Expiring M good deadline) (hs : M.Step w l w' e) :
    Told good (h ++ e.toList) l.caller (w'.callers l.caller) := by
  cases hs with
  | served _ _ _ | servedLate _ _ _ _ =>
    rw [Label.caller, World.turn_self]
    exact Or.inl ⟨_, List.mem_append_right _ List.mem_cons_self⟩
  | started _ _ _ _ =>
    rw [Label.caller, World.take_self]
    exact ⟨_, List.mem_append_right _ List.mem_cons_self⟩
  | @finished i t o _ _ =>
    rw [Label.caller, World.give_self]
    cases hgood : good o with
    | some v =>
      rw [(hM.keeps w.state t o v hgood).1]
      exact Or.inr ⟨t, o, List.mem_append_right _ List.mem_cons_self, hgood⟩
    | none =>
      have hfails := (hM.fails w.state t o hgood).2
      cases hr : (M.load w.state t o).1 with
      | ok v => exact absurd hr (hfails v)
      | error x => trivial
  | queued _ _ _ | cancelled _ =>
    rw [Label.caller, World.turn_self]
    trivial

/-- What holds of a world and of the record so far. -/
structure Sound (M : Store S T O V X) (good : O → Option V) (deadline : T → T) (w : World S T V X)
    (h : List (Event T O V)) : Prop where
  owned : Owned w
  timed : ∀ x ∈ h, x.time ≤ w.clock
  cached : Cached M good deadline w.state h
  backed : Transactions.Justified (Backed good deadline) h
  told : ∀ i, Told good h i (w.callers i)

theorem Sound.backed_step (hM : Expiring M good deadline) (hw : Sound M good deadline w h) (hs : M.Step w l w' e) :
    Transactions.Justified (Backed good deadline) (h ++ e.toList) := by
  have hit {t : T} {v : V} (i : ℕ) (ht : w.clock ≤ t) (hv : M.look w.state t = some v) :
      Backed good deadline h (.hit i t v) := by
    obtain ⟨j, c, o, hmem, hgood, hlt⟩ := hw.cached.of_hit hv
    exact ⟨j, c, o, hmem, hgood, (hw.timed _ hmem).trans ht, hlt⟩
  cases hs with
  | served _ ht hv => exact hw.backed.append (hit _ ht hv)
  | servedLate _ ht _ hv => exact hw.backed.append (hit _ ht hv)
  | started _ _ _ hv =>
    refine hw.backed.append fun j c o hmem hgood => ?_
    exact hw.cached.of_miss hM.mono hv hmem hgood
  | @finished i _ _ hi ht =>
    have hstarted := hw.told i
    rw [hi] at hstarted
    obtain ⟨t₀, hmem⟩ := hstarted
    exact hw.backed.append ⟨t₀, hmem, (hw.timed _ hmem).trans ht⟩
  | queued _ _ _ | cancelled _ =>
    rw [Option.toList_none, List.append_nil]
    exact hw.backed

theorem Sound.step (hM : Expiring M good deadline) (hw : Sound M good deadline w h) (hs : M.Step w l w' e) :
    Sound M good deadline w' (h ++ e.toList) where
  owned := hw.owned.step hs
  timed := by
    intro x hx
    rcases List.mem_append.mp hx with hx | hx
    · exact (hw.timed x hx).trans hs.clock_le
    · exact (hs.time hx).le
  cached := hw.cached.step hM hw.timed hs
  backed := hw.backed_step hM hs
  told := by
    intro i
    by_cases hi : i = l.caller
    · subst hi
      exact Told.step hM hs
    · rw [hs.callers_ne hi]
      exact (hw.told i).append _

/-- **Single flight.** From a store that holds nothing, in every order of turns. -/
theorem run_sound (hM : Expiring M good deadline) (hs : ∀ t, M.look s t = none) {t : T} {ls : List (Label T O)}
    (hrun : M.run { state := s, clock := t } ls = some w) :
    Sound M good deadline w (M.record { state := s, clock := t } ls) := by
  refine Store.run_record (I := Sound M good deadline) (fun w h l w' e hw hs => hw.step hM hs) ?_ hrun
  exact { owned := ⟨none, rfl, fun i => by simp⟩
          timed := by simp
          cached := .empty hs (by simp)
          backed := Transactions.justified_nil
          told := fun i => trivial }

theorem run_fails (hM : Expiring M good deadline) {ls : List (Label T O)} (hrun : M.run w ls = some w')
    (hfails : ∀ i t o, .loaded i t o ∈ M.record w ls → good o = none) : w'.state = w.state := by
  refine Store.run_record (I := fun w' h => (∀ i t o, .loaded i t o ∈ h → good o = none) → w'.state = w.state)
    ?_ (fun _ => rfl) hrun hfails
  intro w₁ h l w₂ e hw hs hall
  have hbefore := hw fun i t o hmem => hall i t o (List.mem_append_left _ hmem)
  cases hs with
  | @finished i t o _ _ =>
    have hgood := hall i t o (List.mem_append_right _ List.mem_cons_self)
    exact (hM.fails w₁.state t o hgood).1.trans hbefore
  | _ => exact hbefore

end Expiry

end BaptistApi.SingleFlight

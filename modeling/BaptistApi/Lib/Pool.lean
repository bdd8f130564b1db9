import Mathlib.Logic.Function.Basic

/-!
# Pools

Connections that keep a state between uses. Each serves one owner at a time, and is clean when it
serves nobody.
-/

namespace BaptistApi.Pools

structure Pool (Conn Owner σ : Type) where
  state : Conn → σ
  owner : Conn → Option Owner

namespace Pool

variable {Conn Owner σ : Type} [DecidableEq Conn]

def take (p : Pool Conn Owner σ) (c : Conn) (i : Owner) : Option (Pool Conn Owner σ) :=
  match p.owner c with
  | none => some { p with owner := Function.update p.owner c (some i) }
  | some _ => none

def set (p : Pool Conn Owner σ) (c : Conn) (x : σ) : Pool Conn Owner σ :=
  { p with state := Function.update p.state c x }

/-- The owner is done and leaves `x` behind. -/
def give (p : Pool Conn Owner σ) (c : Conn) (x : σ) : Pool Conn Owner σ :=
  { state := Function.update p.state c x, owner := Function.update p.owner c none }

/-- Nobody left anything behind on a connection that serves nobody. -/
def Clean (clean : σ → Prop) (p : Pool Conn Owner σ) : Prop := ∀ c, p.owner c = none → clean (p.state c)

def Holds (p : Pool Conn Owner σ) (i : Owner) (c : Conn) (x : σ) : Prop := p.owner c = some i ∧ p.state c = x

variable {p p' : Pool Conn Owner σ} {c d : Conn} {i j : Owner} {x y z : σ} {clean : σ → Prop}

theorem take_eq_some (h : p.take c i = some p') :
    p.owner c = none ∧ p' = { p with owner := Function.update p.owner c (some i) } := by
  unfold take at h
  split at h
  · rename_i hfree
    exact ⟨hfree, (Option.some.inj h).symm⟩
  · cases h

/-! ## Whoever has a connection does with it what they like -/

theorem Clean.take (hp : p.Clean clean) (h : p.take c i = some p') : p'.Clean clean := by
  obtain ⟨hfree, rfl⟩ := take_eq_some h
  intro d hd
  by_cases hdc : d = c
  · exact hp d (hdc ▸ hfree)
  · exact hp d (by simpa [Function.update_of_ne hdc] using hd)

theorem Clean.set (hp : p.Clean clean) (h : p.Holds i c x) (y : σ) : (p.set c y).Clean clean := by
  intro d hd
  by_cases hdc : d = c
  · change p.owner d = none at hd
    rw [hdc, h.1] at hd
    cases hd
  · change clean (Function.update p.state c y d)
    rw [Function.update_of_ne hdc]
    exact hp d hd

theorem Clean.give (hp : p.Clean clean) (hx : clean x) : (p.give c x).Clean clean := by
  intro d hd
  by_cases hdc : d = c
  · subst hdc
    change clean (Function.update p.state d x d)
    rwa [Function.update_self]
  · change clean (Function.update p.state c x d)
    rw [Function.update_of_ne hdc]
    refine hp d ?_
    change Function.update p.owner c none d = none at hd
    rwa [Function.update_of_ne hdc] at hd

theorem holds_take (h : p.take c i = some p') : p'.Holds i c (p.state c) := by
  obtain ⟨-, rfl⟩ := take_eq_some h
  exact ⟨Function.update_self .., rfl⟩

theorem Holds.set (h : p.Holds i c x) (y : σ) : (p.set c y).Holds i c y := ⟨h.1, Function.update_self ..⟩

/-! ## And with no other -/

omit [DecidableEq Conn] in
theorem Holds.ne (hi : p.Holds i c x) (hj : p.Holds j d y) (hij : j ≠ i) : d ≠ c := by
  rintro rfl
  exact hij (Option.some.inj (hj.1.symm.trans hi.1))

theorem Holds.take_other (hj : p.Holds j d y) (h : p.take c i = some p') : p'.Holds j d y := by
  obtain ⟨hfree, rfl⟩ := take_eq_some h
  refine ⟨?_, hj.2⟩
  have hdc : d ≠ c := by
    rintro rfl
    rw [hj.1] at hfree
    cases hfree
  change Function.update p.owner c (some i) d = some j
  rw [Function.update_of_ne hdc]
  exact hj.1

theorem Holds.set_other (hj : p.Holds j d y) (hi : p.Holds i c x) (hij : j ≠ i) (z : σ) :
    (p.set c z).Holds j d y := by
  refine ⟨hj.1, ?_⟩
  change Function.update p.state c z d = y
  rw [Function.update_of_ne (hi.ne hj hij)]
  exact hj.2

theorem Holds.give_other (hj : p.Holds j d y) (hi : p.Holds i c x) (hij : j ≠ i) (z : σ) :
    (p.give c z).Holds j d y := by
  have hdc := hi.ne hj hij
  refine ⟨?_, ?_⟩
  · change Function.update p.owner c none d = some j
    rw [Function.update_of_ne hdc]
    exact hj.1
  · change Function.update p.state c z d = y
    rw [Function.update_of_ne hdc]
    exact hj.2

end Pool

end BaptistApi.Pools

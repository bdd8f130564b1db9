/-!
# Programs that issue commands

A program is a tree. It ends with a value, or with an exception, or it issues one command and goes
on with the answer. Nothing here says who answers: `Transactions.lean` runs such programs against
a database.
-/

namespace BaptistApi.Program

/-- A program over the commands `C`, where `c` is answered by an `R c`. -/
inductive Prog (C : Type) (R : C → Type) (X α : Type) where
  | ret (a : α)
  | raise (x : X)
  | call (c : C) (k : R c → Prog C R X α)

namespace Prog

variable {C : Type} {R : C → Type} {X α β : Type}

def bind : Prog C R X α → (α → Prog C R X β) → Prog C R X β
  | ret a, f => f a
  | raise x, _ => raise x
  | call c k, f => call c fun r => (k r).bind f

instance : Monad (Prog C R X) where
  pure := ret
  bind := bind

/-- Some answers make the program end with the exception `x`. -/
def Raises (x : X) : Prog C R X α → Prop
  | ret _ => False
  | raise y => y = x
  | call _ k => ∃ r, Raises x (k r)

theorem Raises.of_bind {x : X} {p : Prog C R X α} {f : α → Prog C R X β} (h : (p >>= f).Raises x) :
    p.Raises x ∨ ∃ v, (f v).Raises x := by
  induction p with
  | ret v => exact Or.inr ⟨v, h⟩
  | raise y => exact Or.inl h
  | call c k ih =>
    obtain ⟨r, hr⟩ := h
    exact (ih r hr).imp_left fun hk => ⟨r, hk⟩

end Prog

end BaptistApi.Program

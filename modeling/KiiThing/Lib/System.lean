import Mathlib.Logic.Basic

/-!
# Systems and their runs

A system makes a step for every operation that is enabled. `Reachable` are the states of its runs,
and `Reachable.invariant` the induction over runs: what holds at the beginning and is kept by every
step holds of every state that is reached. `restrict` leaves operations out.
-/

/-- States, operations, which of them may be made where, and what they do. -/
structure System (σ ο : Type*) where
  init : σ → Prop
  enabled : σ → ο → Prop
  step : σ → ο → σ

namespace System

variable {σ ο : Type*} {S : System σ ο}

/-- The states of the runs of a system. -/
inductive Reachable (S : System σ ο) : σ → Prop
  | init {s : σ} (h : S.init s) : Reachable S s
  | step {s : σ} {o : ο} (h : Reachable S s) (ho : S.enabled s o) : Reachable S (S.step s o)

/-- **Invariant rule.** -/
theorem Reachable.invariant (Inv : σ → Prop) (hinit : ∀ s, S.init s → Inv s)
    (hstep : ∀ s o, Inv s → S.enabled s o → Inv (S.step s o)) {s : σ} (h : Reachable S s) :
    Inv s := by
  induction h with
  | init h => exact hinit _ h
  | step _ ho ih => exact hstep _ _ ih ho

/-- Every operation is enabled when its turn comes. -/
def Enabled (S : System σ ο) : σ → List ο → Prop
  | _, [] => True
  | s, o :: os => S.enabled s o ∧ S.Enabled (S.step s o) os

instance decidableEnabled [∀ s o, Decidable (S.enabled s o)] :
    ∀ (s : σ) (os : List ο), Decidable (S.Enabled s os)
  | _, [] => isTrue trivial
  | s, o :: os =>
    have := decidableEnabled (S.step s o) os
    inferInstanceAs (Decidable (S.enabled s o ∧ S.Enabled (S.step s o) os))

/-- Operations that are enabled lead to a state that is reached. -/
theorem Reachable.run {s : σ} (h : S.Reachable s) {os : List ο} (hos : S.Enabled s os) :
    S.Reachable (os.foldl S.step s) := by
  induction os generalizing s with
  | nil => exact h
  | cons o os ih => exact ih (h.step hos.1) hos.2

/-- The system in which only the operations `P` are made. -/
def restrict (S : System σ ο) (P : σ → ο → Prop) : System σ ο :=
  { S with enabled := fun s o => S.enabled s o ∧ P s o }

theorem Reachable.of_restrict {P : σ → ο → Prop} {s : σ} (h : (S.restrict P).Reachable s) :
    S.Reachable s := by
  induction h with
  | init h => exact .init h
  | step _ ho ih => exact ih.step ho.1

end System

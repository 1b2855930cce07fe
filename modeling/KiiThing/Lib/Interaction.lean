import Mathlib.Logic.Basic

/-!
# Programs that interact

`Prog C R α` is a program that makes requests `c : C`, gets a reply in `R c` to each, and returns an
`α`. It is a tree: what it does next is a function of the reply, so that nothing is said about who
replies, or when.

A `Contract` is about the other side: which requests may be made, which replies may come, and what
is remembered of them in a state that the program does not see. `Prog.Meets` says that a program
makes only requests that are allowed and ends in what is claimed, whatever the replies; `Prog.Runs`
are the single runs, of which it speaks (`Prog.Meets.of_runs`), and `Prog.Meets.simulate` carries a
result over to another contract. `Prog.rounds` and `Reaches` are about a program that begins again
and again, and `Reaches.meets` is the invariant rule for it.
-/

/-- A program that makes requests. -/
inductive Prog (C : Type) (R : C → Type) (α : Type) where
  | done (a : α)
  | ask (c : C) (k : R c → Prog C R α)

namespace Prog

variable {C : Type} {R : C → Type} {α β : Type}

/-- Run the second program with what the first one returns. -/
def bind (p : Prog C R α) (f : α → Prog C R β) : Prog C R β :=
  match p with
  | done a => f a
  | ask c k => ask c fun r => (k r).bind f

instance : Monad (Prog C R) where
  pure := done
  bind := bind

@[simp] theorem done_bind (a : α) (f : α → Prog C R β) : (done a >>= f) = f a := rfl

@[simp] theorem ask_bind (c : C) (k : R c → Prog C R α) (f : α → Prog C R β) :
    (ask c k >>= f) = ask c fun r => k r >>= f := rfl

theorem bind_assoc {δ : Type} (p : Prog C R α) (f : α → Prog C R β) (h : β → Prog C R δ) :
    (p >>= f) >>= h = p >>= fun a => f a >>= h := by
  induction p with
  | done a => rfl
  | ask c k ih =>
    rw [ask_bind, ask_bind, ask_bind]
    apply congrArg (ask c)
    funext r
    exact ih r

/-- The request that a program makes next. -/
def request : Prog C R α → Option C
  | done _ => none
  | ask c _ => some c

/-- A program that makes no request is done. -/
theorem exists_done {p : Prog C R α} (h : p.request = none) : ∃ a, p = done a := by
  cases p with
  | done a => exact ⟨a, rfl⟩
  | ask c k => cases h

end Prog

/-- What is agreed on with the other side, whose state is a `γ`. -/
structure Contract (C : Type) (R : C → Type) (γ : Type) where
  allowed : γ → C → Prop
  answers : γ → (c : C) → R c → Prop
  next : γ → (c : C) → R c → γ

namespace Prog

variable {C : Type} {R : C → Type} {α β γ : Type} {K : Contract C R γ}

/-! ## What a program meets -/

/-- Every request of the program is allowed, and with every end it comes to, `Q` holds. -/
def Meets (K : Contract C R γ) (p : Prog C R α) (g : γ) (Q : α → γ → Prop) : Prop :=
  match p with
  | done a => Q a g
  | ask c k => K.allowed g c ∧ ∀ r, K.answers g c r → Meets K (k r) (K.next g c r) Q

@[simp] theorem meets_done {a : α} {g : γ} {Q : α → γ → Prop} : (done a).Meets K g Q ↔ Q a g :=
  Iff.rfl

/-- The request that comes next is allowed. -/
theorem Meets.allowed {p : Prog C R α} {g : γ} {Q : α → γ → Prop} (h : p.Meets K g Q) {c : C}
    (hc : p.request = some c) : K.allowed g c := by
  cases p with
  | done a => exact absurd hc (Option.some_ne_none c).symm
  | ask c' k =>
    obtain rfl : c' = c := Option.some.inj hc
    exact h.1

/-- **Rule of consequence.** -/
theorem Meets.mono {p : Prog C R α} {g : γ} {Q Q' : α → γ → Prop} (h : p.Meets K g Q)
    (hQ : ∀ a g, Q a g → Q' a g) : p.Meets K g Q' := by
  induction p generalizing g with
  | done a => exact hQ a g h
  | ask c k ih => exact ⟨h.1, fun r hr => ih r (h.2 r hr)⟩

/-- **Rule of composition.** -/
theorem meets_bind {p : Prog C R α} {f : α → Prog C R β} {g : γ} {Q : β → γ → Prop} :
    (p >>= f).Meets K g Q ↔ p.Meets K g fun a g => (f a).Meets K g Q := by
  induction p generalizing g with
  | done a => exact Iff.rfl
  | ask c k ih =>
    show (_ ∧ _) ↔ (_ ∧ _)
    apply and_congr_right
    intro _
    apply forall_congr'
    intro r
    exact imp_congr_right fun _ => ih r

/-- **Rule of conjunction.** -/
theorem Meets.and {p : Prog C R α} {g : γ} {Q Q' : α → γ → Prop} (h : p.Meets K g Q)
    (h' : p.Meets K g Q') : p.Meets K g fun a g => Q a g ∧ Q' a g := by
  induction p generalizing g with
  | done a => exact ⟨h, h'⟩
  | ask c k ih => exact ⟨h.1, fun r hr => ih r (h.2 r hr) (h'.2 r hr)⟩

/-! ## Requests of one kind -/

/-- Every request that the program can come to is of the kind `P`. -/
def Asks (P : C → Prop) : Prog C R α → Prop
  | done _ => True
  | ask c k => P c ∧ ∀ r, Asks P (k r)

theorem asks_bind {P : C → Prop} {p : Prog C R α} {f : α → Prog C R β} (hp : p.Asks P)
    (hf : ∀ a, (f a).Asks P) : (p >>= f).Asks P := by
  induction p with
  | done a => exact hf a
  | ask c k ih => exact ⟨hp.1, fun r => ih r (hp.2 r)⟩

/-- **Rule of simulation.** As far as the requests of the kind `P` go, the other side behaves like
another one, with which the program meets what is claimed. -/
theorem Meets.simulate {δ : Type} {K' : Contract C R δ} {P : C → Prop} {sim : γ → δ → Prop}
    (hallowed : ∀ g d c, P c → sim g d → K'.allowed d c → K.allowed g c)
    (hnext : ∀ g d c r, P c → sim g d → K.answers g c r →
      K'.answers d c r ∧ sim (K.next g c r) (K'.next d c r))
    {p : Prog C R α} (hasks : p.Asks P) {g : γ} {d : δ} {Q : α → δ → Prop} (h : p.Meets K' d Q)
    (hsim : sim g d) : p.Meets K g fun a g => ∃ d, sim g d ∧ Q a d := by
  induction p generalizing g d with
  | done a => exact ⟨d, hsim, h⟩
  | ask c k ih =>
    refine ⟨hallowed g d c hasks.1 hsim h.1, ?_⟩
    intro r hr
    obtain ⟨hanswers, hsim'⟩ := hnext g d c r hasks.1 hsim hr
    exact ih r (hasks.2 r) (h.2 r hanswers) hsim'

/-! ## Runs -/

/-- A run of a program: the replies it gets are such as may come. -/
inductive Runs (K : Contract C R γ) : Prog C R α → γ → α → γ → Prop
  | done {a : α} {g : γ} : Runs K (done a) g a g
  | ask {c : C} {k : R c → Prog C R α} {g g' : γ} {r : R c} {a : α} (hr : K.answers g c r)
      (h : Runs K (k r) (K.next g c r) a g') : Runs K (ask c k) g a g'

/-- What a program meets holds of each of its runs. -/
theorem Meets.of_runs {p : Prog C R α} {g g' : γ} {a : α} {Q : α → γ → Prop} (h : p.Meets K g Q)
    (hrun : p.Runs K g a g') : Q a g' := by
  induction hrun with
  | done => exact h
  | ask hr _ ih => exact ih (h.2 _ hr)

/-- **Where a reply may come to every request**, every program has a run. -/
theorem exists_runs (hall : ∀ g c, ∃ r, K.answers g c r) (p : Prog C R α) (g : γ) :
    ∃ a g', p.Runs K g a g' := by
  induction p generalizing g with
  | done a => exact ⟨a, g, Runs.done⟩
  | ask c k ih =>
    obtain ⟨r, hr⟩ := hall g c
    obtain ⟨a, g', hrun⟩ := ih r (K.next g c r)
    exact ⟨a, g', Runs.ask hr hrun⟩

/-- The end of the run with the replies that `env` gives. -/
def result (K : Contract C R γ) (env : γ → (c : C) → R c) : Prog C R α → γ → α × γ
  | done a, g => (a, g)
  | ask c k, g => result K env (k (env g c)) (K.next g c (env g c))

theorem runs_result {env : γ → (c : C) → R c} (henv : ∀ g c, K.answers g c (env g c))
    (p : Prog C R α) (g : γ) : p.Runs K g (result K env p g).1 (result K env p g).2 := by
  induction p generalizing g with
  | done a => exact .done
  | ask c k ih => exact .ask (henv g c) (ih _ _)

/-! ## Programs that begin again -/

/-- So many rounds, one after the other. -/
def rounds {σ : Type} (round : σ → Prog C R σ) : Nat → σ → Prog C R σ
  | 0, s => done s
  | n + 1, s => round s >>= rounds round n

theorem meets_rounds_succ {σ : Type} {round : σ → Prog C R σ} {n : Nat} {s : σ} {g : γ}
    {Q : σ → γ → Prop} : (rounds round (n + 1) s).Meets K g Q ↔
      (round s).Meets K g fun s g => (rounds round n s).Meets K g Q := meets_bind

theorem meets_rounds_add {σ : Type} {round : σ → Prog C R σ} {m n : Nat} {s : σ} {g : γ}
    {Q : σ → γ → Prop} : (rounds round (m + n) s).Meets K g Q ↔
      (rounds round m s).Meets K g fun s g => (rounds round n s).Meets K g Q := by
  induction m generalizing s g with
  | zero => rw [Nat.zero_add, rounds, meets_done]
  | succ m ih =>
    rw [Nat.add_right_comm, meets_rounds_succ, meets_rounds_succ]
    constructor
    · intro h
      exact h.mono fun _ _ h => ih.mp h
    · intro h
      exact h.mono fun _ _ h => ih.mpr h

/-- The configurations of a program that makes one round after the other: what is left of the round,
and the state of the other side. -/
inductive Reaches {σ : Type} (K : Contract C R γ) (round : σ → Prog C R σ) (s₀ : σ) (g₀ : γ) :
    Prog C R σ → γ → Prop
  | start : Reaches K round s₀ g₀ (.done s₀) g₀
  | again {s : σ} {g : γ} (h : Reaches K round s₀ g₀ (.done s) g) :
      Reaches K round s₀ g₀ (round s) g
  | answer {c : C} {k : R c → Prog C R σ} {g : γ} {r : R c}
      (h : Reaches K round s₀ g₀ (.ask c k) g) (hr : K.answers g c r) :
      Reaches K round s₀ g₀ (k r) (K.next g c r)

/-- **Invariant rule.** What every round leads from and to is met by the round that is under way. -/
theorem Reaches.meets {σ : Type} {round : σ → Prog C R σ} {s₀ : σ} {g₀ g : γ} {p : Prog C R σ}
    (Inv : σ → γ → Prop) (hround : ∀ s g, Inv s g → (round s).Meets K g Inv) (h₀ : Inv s₀ g₀)
    (h : Reaches K round s₀ g₀ p g) : p.Meets K g Inv := by
  induction h with
  | start => exact h₀
  | again _ ih => exact hround _ _ ih
  | answer _ hr ih => exact ih.2 _ hr

/-- So many steps of a program that begins again and again, with the replies that `env` gives. -/
def advance {σ : Type} (K : Contract C R γ) (round : σ → Prog C R σ) (env : γ → (c : C) → R c) :
    Nat → Prog C R σ × γ → Prog C R σ × γ
  | 0, x => x
  | n + 1, (done s, g) => advance K round env n (round s, g)
  | n + 1, (ask c k, g) => advance K round env n (k (env g c), K.next g c (env g c))

/-- Replies that may come lead to configurations that are reached. -/
theorem Reaches.advance {σ : Type} {round : σ → Prog C R σ} {s₀ : σ} {g₀ : γ}
    {env : γ → (c : C) → R c} (henv : ∀ g c, K.answers g c (env g c)) (n : Nat)
    {x : Prog C R σ × γ} (h : Reaches K round s₀ g₀ x.1 x.2) :
    Reaches K round s₀ g₀ (Prog.advance K round env n x).1 (Prog.advance K round env n x).2 := by
  induction n generalizing x with
  | zero => exact h
  | succ n ih =>
    obtain ⟨p, g⟩ := x
    cases p with
    | done s => exact ih (x := (round s, g)) h.again
    | ask c k => exact ih (x := (k (env g c), K.next g c (env g c))) (h.answer (henv g c))

end Prog

import Mathlib.Logic.Basic

/-!
# Do-while loops

`doWhile body again fuel` runs `body` on a state until `again` fails, and returns what the last
round returned. Running out of fuel is `none`, so "the loop ends" is a statement of its own
(`exists_doWhile_of_variant`) and never hidden in a default value.

The rules are those of a loop logic: an invariant for what holds when the loop ends
(`doWhile_of_invariant`), a variant for that it does, and a relation between two loops that run in
step (`doWhile_of_relation`), or of which the first one also makes rounds of its own
(`doWhile_of_stutter`). `exists_of_variant` is the variant rule for a run that is given as a sequence
of states and goes on behind its goal.
-/

namespace Loop

variable {σ τ ρ : Type*}

/-- `do { (r, s) := body s } while (again s)`, for at most `fuel` rounds. -/
def doWhile (body : σ → ρ × σ) (again : σ → Bool) : Nat → σ → Option (ρ × σ)
  | 0, _ => none
  | fuel + 1, s =>
    if again (body s).2 then doWhile body again fuel (body s).2 else some (body s)

variable {body : σ → ρ × σ} {again : σ → Bool} {fuel : Nat} {s : σ} {res : ρ × σ}

/-- More fuel does not change the result. -/
theorem doWhile_mono {fuel' : Nat} (h : doWhile body again fuel s = some res)
    (hle : fuel ≤ fuel') : doWhile body again fuel' s = some res := by
  induction fuel generalizing s fuel' with
  | zero => cases h
  | succ fuel ih =>
    obtain ⟨k, rfl⟩ : ∃ k, fuel' = k + 1 := ⟨fuel' - 1, by omega⟩
    rw [doWhile] at h ⊢
    split at h
    · next hagain => rw [if_pos hagain]; exact ih h (by omega)
    · next hagain => rw [if_neg hagain]; exact h

/-- **Invariant rule.** What every round that is followed by another one preserves holds before
the last round. -/
theorem doWhile_of_invariant (Inv : σ → Prop)
    (hstep : ∀ s, Inv s → again (body s).2 = true → Inv (body s).2)
    (hs : Inv s) (h : doWhile body again fuel s = some res) :
    ∃ s₀, Inv s₀ ∧ body s₀ = res ∧ again res.2 = false := by
  induction fuel generalizing s with
  | zero => cases h
  | succ fuel ih =>
    rw [doWhile] at h
    split at h
    · next hagain => exact ih (hstep s hs hagain) h
    · next hagain =>
      obtain rfl := Option.some.inj h
      exact ⟨s, hs, rfl, by simpa using hagain⟩

/-- **Variant rule.** A loop whose rounds decrease a number ends, and needs no more rounds than
that number and one. -/
theorem exists_doWhile_of_variant (Inv : σ → Prop) (μ : σ → Nat)
    (hstep : ∀ s, Inv s → again (body s).2 = true → Inv (body s).2 ∧ μ (body s).2 < μ s)
    (hs : Inv s) : ∃ res, doWhile body again (μ s + 1) s = some res := by
  induction hμ : μ s using Nat.strongRecOn generalizing s with
  | ind n ih =>
    subst hμ
    rw [doWhile]
    split
    · next hagain =>
      obtain ⟨hinv, hlt⟩ := hstep s hs hagain
      obtain ⟨res, hres⟩ := ih _ hlt hinv rfl
      exact ⟨res, doWhile_mono hres hlt⟩
    · exact ⟨_, rfl⟩

/-- **Relation rule.** Two loops whose rounds keep a relation between the states, and decide alike
whether to go on, end together, in rounds from related states. -/
theorem doWhile_of_relation {body' : τ → ρ × τ} {again' : τ → Bool} (R : σ → τ → Prop)
    (hagain : ∀ s t, R s t → again (body s).2 = again' (body' t).2)
    (hstep : ∀ s t, R s t → again (body s).2 = true → R (body s).2 (body' t).2)
    {t : τ} (hst : R s t) (h : doWhile body again fuel s = some res) :
    ∃ s₀ t₀, R s₀ t₀ ∧ body s₀ = res ∧ doWhile body' again' fuel t = some (body' t₀) := by
  induction fuel generalizing s t with
  | zero => cases h
  | succ fuel ih =>
    rw [doWhile] at h
    split at h
    · next hg =>
      obtain ⟨s₀, t₀, hR, hres, ht⟩ := ih (hstep s t hst hg) h
      refine ⟨s₀, t₀, hR, hres, ?_⟩
      rw [doWhile, if_pos (by rw [← hagain s t hst, hg]), ht]
    · next hg =>
      refine ⟨s, t, hst, Option.some.inj h, ?_⟩
      rw [doWhile, if_neg (by rw [← hagain s t hst]; exact hg)]

/-- **Stutter rule.** A loop of which every round either keeps the relation by itself, or is matched by
a round of another loop, ends as that loop does. -/
theorem doWhile_of_stutter {body' : τ → ρ × τ} {again' : τ → Bool} (R : σ → τ → Prop)
    (Q : ρ × σ → ρ × τ → Prop)
    (hstep : ∀ s t, R s t → again (body s).2 = true ∧ R (body s).2 t ∨ Q (body s) (body' t))
    (hagain : ∀ r r', Q r r' → again r.2 = again' r'.2)
    (hnext : ∀ r r', Q r r' → again r.2 = true → R r.2 r'.2)
    {t : τ} (hst : R s t) (h : doWhile body again fuel s = some res) :
    ∃ res', doWhile body' again' fuel t = some res' ∧ Q res res' := by
  induction fuel generalizing s t with
  | zero => cases h
  | succ fuel ih =>
    rw [doWhile] at h
    rcases hstep s t hst with ⟨hg, hstutter⟩ | hmatch
    · rw [if_pos hg] at h
      obtain ⟨res', hres', hQ⟩ := ih hstutter h
      exact ⟨res', doWhile_mono hres' (Nat.le_succ fuel), hQ⟩
    · rw [doWhile, ← hagain _ _ hmatch]
      split at h
      · next hg =>
        rw [if_pos hg]
        exact ih (hnext _ _ hmatch hg) h
      · next hg =>
        rw [if_neg hg]
        exact ⟨_, rfl, Option.some.inj h ▸ hmatch⟩

/-- **Progress rule.** A run in which a number decreases until the goal is reached reaches it. -/
theorem exists_of_variant (run : Nat → σ) (Goal : σ → Prop) (μ : σ → Nat)
    (hstep : ∀ n, Goal (run n) ∨ μ (run (n + 1)) < μ (run n)) : ∃ n, Goal (run n) := by
  suffices h : ∀ m n, μ (run n) = m → ∃ n, Goal (run n) from h _ 0 rfl
  intro m
  induction m using Nat.strongRecOn with
  | ind m ih =>
    rintro n rfl
    rcases hstep n with hgoal | hlt
    · exact ⟨n, hgoal⟩
    · exact ih _ hlt (n + 1) rfl

end Loop

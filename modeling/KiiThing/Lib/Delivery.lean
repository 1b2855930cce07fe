import Mathlib.Data.List.Basic

/-!
# Requests that may get lost

A client makes requests, each of which has an effect on the state of a server if it arrives. It may
get lost on its way, or its acknowledgement on the way back: the client knows of a request that was
acknowledged that it has arrived, and of the others nothing.

`Delivery.invariant` is the rule for what holds whatever gets lost, and `Delivery.acknowledged` is
what may be said behind an acknowledgement.
-/

/-- The requests `rs`, each with whether it was acknowledged, have taken the server from the first
state to the second one. -/
inductive Delivery {ρ σ : Type*} (effect : ρ → σ → σ) : σ → List (ρ × Bool) → σ → Prop
  | nil {s : σ} : Delivery effect s [] s
  | arrives {s s' : σ} {r : ρ} {ack : Bool} {rs : List (ρ × Bool)}
      (h : Delivery effect (effect r s) rs s') : Delivery effect s ((r, ack) :: rs) s'
  | lost {s s' : σ} {r : ρ} {rs : List (ρ × Bool)} (h : Delivery effect s rs s') :
      Delivery effect s ((r, false) :: rs) s'

namespace Delivery

variable {ρ σ : Type*} {effect : ρ → σ → σ} {s s' : σ} {rs : List (ρ × Bool)}

/-- **Rule of invariants**: what every request keeps, if it arrives, is kept. -/
theorem invariant {Inv : σ → Prop} (hstep : ∀ x ∈ rs, ∀ s, Inv s → Inv (effect x.1 s)) (hs : Inv s)
    (h : Delivery effect s rs s') : Inv s' := by
  induction h with
  | nil => exact hs
  | arrives _ ih =>
    apply ih fun x hx => hstep x (List.mem_cons_of_mem _ hx)
    exact hstep _ List.mem_cons_self _ hs
  | lost _ ih => exact ih (fun x hx => hstep x (List.mem_cons_of_mem _ hx)) hs

/-- Some requests, and then others. -/
theorem append {rs₁ rs₂ : List (ρ × Bool)} (h : Delivery effect s (rs₁ ++ rs₂) s') :
    ∃ s₁, Delivery effect s rs₁ s₁ ∧ Delivery effect s₁ rs₂ s' := by
  induction rs₁ generalizing s with
  | nil => exact ⟨s, .nil, h⟩
  | cons x rs₁ ih =>
    cases h with
    | arrives h =>
      obtain ⟨s₁, h₁, h₂⟩ := ih h
      exact ⟨s₁, .arrives h₁, h₂⟩
    | lost h =>
      obtain ⟨s₁, h₁, h₂⟩ := ih h
      exact ⟨s₁, .lost h₁, h₂⟩

/-- **Behind an acknowledgement**: what the request brings about holds, if no request keeps it from
holding afterwards. -/
theorem acknowledged (Pre Post : σ → Prop) {r : ρ} {rs₁ rs₂ : List (ρ × Bool)}
    (hpre : ∀ s₁, Delivery effect s rs₁ s₁ → Pre s₁) (heffect : ∀ s, Pre s → Post (effect r s))
    (hkeep : ∀ x ∈ rs₂, ∀ s, Post s → Post (effect x.1 s))
    (h : Delivery effect s (rs₁ ++ (r, true) :: rs₂) s') : Post s' := by
  obtain ⟨s₁, h₁, h₂⟩ := h.append
  cases h₂ with
  | arrives h₂ => exact h₂.invariant hkeep (heffect s₁ (hpre s₁ h₁))

end Delivery

import KiiThing.Lib.Interaction
import Mathlib.Data.List.Basic

/-!
# Programs that own resources

A request may use resources, give one back, and bring new ones. `Ownership.contract` keeps the list
of the resources that are there: a program that meets it uses none that was given back or never came,
and gives none back twice, as long as the other side keeps what it has promised. What the program is
shown to leave of its own resources, it leaves of them in any surroundings, with those of the others
untouched (`Ownership.frame`).
-/

/-- Which resources a request uses, which one it gives back, and which ones come with the reply. A
request may also be an error in itself, and a reply one that was promised not to come. -/
structure Ownership (C : Type) (R : C → Type) (H : Type) where
  uses : C → List H
  frees : C → Option H
  makes : (c : C) → R c → List H
  faults : C → Prop
  promised : (c : C) → R c → Prop

namespace Ownership

variable {C : Type} {R : C → Type} {H α : Type} [DecidableEq H] {o : Ownership C R H}

/-- What is left when one resource is given back. -/
def release (live : List H) : Option H → List H
  | none => live
  | some h => live.erase h

/-- The resources that are there. What comes is new. -/
def contract (o : Ownership C R H) : Contract C R (List H) where
  allowed live c := ¬ o.faults c ∧ o.uses c ⊆ live ∧ ∀ h ∈ o.frees c, h ∈ live
  answers live c r := o.promised c r ∧ ∀ h ∈ o.makes c r, h ∉ live
  next live c r := o.makes c r ++ release live (o.frees c)

theorem release_append {live rest : List H} {freed : Option H} (h : ∀ a ∈ freed, a ∈ live) :
    release (live ++ rest) freed = release live freed ++ rest := by
  cases freed with
  | none => rfl
  | some a => exact List.erase_append_left rest (h a rfl)

/-- **Rule of the frame.** -/
theorem frame {p : Prog C R α} {live : List H} {Q : α → List H → Prop}
    (h : p.Meets o.contract live Q) (rest : List H) :
    p.Meets o.contract (live ++ rest) fun a live' => ∃ mine, live' = mine ++ rest ∧ Q a mine := by
  induction p generalizing live with
  | done a => exact ⟨live, rfl, h⟩
  | ask c k ih =>
    obtain ⟨⟨hfault, huses, hfrees⟩, hall⟩ := h
    refine ⟨⟨hfault, fun a ha => List.mem_append_left rest (huses ha),
      fun a ha => List.mem_append_left rest (hfrees a ha)⟩, ?_⟩
    intro r hr
    have hnext : o.contract.next (live ++ rest) c r = o.contract.next live c r ++ rest := by
      show o.makes c r ++ release (live ++ rest) (o.frees c) = _
      rw [release_append hfrees, ← List.append_assoc]
      rfl
    rw [hnext]
    apply ih r
    -- What is new to all is new to the program.
    refine hall r ⟨hr.1, ?_⟩
    intro a ha hmem
    exact hr.2 a ha (List.mem_append_left rest hmem)

end Ownership

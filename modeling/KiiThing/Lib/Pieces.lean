import Mathlib.Data.List.Basic

/-!
# Putting pieces together

Pieces of a text come in any order, some of them more than once, some of them perhaps never. What is
known of the text is right at every moment (`Agrees.put`), and it is the whole text as soon as no
position is left out (`read_of_agrees`).
-/

namespace Pieces

variable {α : Type*} {s : Nat → Option α} {text bs : List α} {p i : Nat}

/-- Put a piece of a text to its position, over what was known. -/
def put (s : Nat → Option α) (p : Nat) (bs : List α) : Nat → Option α :=
  fun i => if p ≤ i ∧ i < p + bs.length then bs[i - p]? else s i

/-- The first `n` elements, if all of them are known. -/
def read (s : Nat → Option α) (n : Nat) : Option (List α) := (List.range n).mapM s

/-- What is known is right. -/
def Agrees (s : Nat → Option α) (text : List α) : Prop := ∀ i, ∀ a ∈ s i, text[i]? = some a

theorem agrees_none (text : List α) : Agrees (fun _ => none) text := by
  rintro i a ⟨⟩

/-- **A piece of the text** keeps what is known right. -/
theorem Agrees.put (h : Agrees s text) (hbs : bs <+: text.drop p) : Agrees (put s p bs) text := by
  intro i a ha
  rw [Pieces.put] at ha
  split at ha
  · next hi =>
    obtain ⟨t, ht⟩ := hbs
    have hpos : p + (i - p) = i := Nat.add_sub_of_le hi.1
    have hlt : i - p < bs.length := by omega
    rw [← hpos, ← List.getElem?_drop, ← ht, List.getElem?_append_left hlt]
    exact ha
  · exact h i a ha

theorem isSome_put_of_mem (h : p ≤ i ∧ i < p + bs.length) : (put s p bs i).isSome = true := by
  have hlt : i - p < bs.length := by omega
  rw [put, if_pos h, List.getElem?_eq_getElem hlt]
  rfl

/-- Nothing is forgotten. -/
theorem isSome_put (h : (s i).isSome = true) : (put s p bs i).isSome = true := by
  by_cases hi : p ≤ i ∧ i < p + bs.length
  · exact isSome_put_of_mem hi
  · rwa [put, if_neg hi]

/-- **Without a gap** it is the text. -/
theorem read_of_agrees (h : Agrees s text) (hall : ∀ i < text.length, (s i).isSome = true) :
    read s text.length = some text := by
  -- from the first `n` positions to the next one
  suffices hfirst : ∀ n ≤ text.length, read s n = some (text.take n) by
    rw [hfirst _ (Nat.le_refl _), List.take_length]
  intro n hn
  induction n with
  | zero => rfl
  | succ n ih =>
    obtain ⟨a, ha⟩ := Option.isSome_iff_exists.mp (hall n hn)
    have hread : (List.range n).mapM s = some (text.take n) := ih (Nat.le_of_succ_le hn)
    have htake := List.take_add_one (l := text) (i := n)
    rw [h n a ha] at htake
    rw [read, List.range_succ, List.mapM_append, hread, htake]
    simp [ha]

/-- What is read is known. -/
theorem isSome_of_read {n : Nat} {t : List α} (h : read s n = some t) :
    ∀ i < n, (s i).isSome = true := by
  induction n generalizing t with
  | zero => exact fun i hi => absurd hi (Nat.not_lt_zero i)
  | succ n ih =>
    rw [read, List.range_succ, List.mapM_append] at h
    obtain ⟨t₁, hread, h⟩ := Option.bind_eq_some_iff.mp h
    intro i hi
    rcases Nat.lt_succ_iff_lt_or_eq.mp hi with hlt | rfl
    · exact ih hread i hlt
    · cases hs : s i with
      | none => simp [hs] at h
      | some a => rfl

/-- **Nothing else** is read. -/
theorem eq_of_read {t : List α} (h : Agrees s text) (hread : read s text.length = some t) :
    t = text := by
  rw [read_of_agrees h (isSome_of_read hread)] at hread
  exact (Option.some.inj hread).symm

end Pieces

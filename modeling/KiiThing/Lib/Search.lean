import Mathlib.Data.List.Basic
import Mathlib.Data.Nat.Find

/-!
# First occurrence of a pattern

`find pat s` is the offset of the first occurrence of `pat` in `s`, as C's `strstr` finds it.
`find_eq_some` says what that is; everything else follows from it. The lemma that matters for a text
that arrives in pieces is `find_append`: an occurrence that is there stays where it is when more text
arrives.
-/

namespace Search

variable {α : Type*} [DecidableEq α] {pat s t : List α} {i : Nat}

/-- The offset of the first occurrence of `pat` in a text. -/
def find (pat : List α) : List α → Option Nat
  | [] => if pat = [] then some 0 else none
  | c :: s => if pat.isPrefixOf (c :: s) then some 0 else (find pat s).map (· + 1)

/-- **What `find` finds**: an occurrence, and none before it. -/
theorem find_eq_some :
    find pat s = some i ↔ pat <+: s.drop i ∧ ∀ j < i, ¬ pat <+: s.drop j := by
  induction s generalizing i with
  | nil =>
    rcases eq_or_ne pat [] with rfl | hpat
    · rcases Nat.eq_zero_or_pos i with rfl | hi
      · simp [find]
      · simp only [find, if_pos, Option.some.injEq, List.drop_nil, List.prefix_rfl, not_true,
          true_and]
        exact ⟨fun h => absurd h.symm (by omega), fun h => (h 0 hi).elim⟩
    · simp [find, hpat]
  | cons c s ih =>
    rw [find]
    split
    · next hp =>
      have hp' : pat <+: c :: s := List.isPrefixOf_iff_prefix.mp hp
      rcases i with _ | i
      · simp [hp']
      · simp only [Option.some.injEq, Nat.zero_ne_add_one, false_iff, not_and, not_forall]
        exact fun _ => ⟨0, by omega, by simpa using hp'⟩
    · next hp =>
      have hp' : ¬ pat <+: c :: s := fun h => hp (List.isPrefixOf_iff_prefix.mpr h)
      rcases i with _ | i
      · simp [hp']
      · rw [Option.map_eq_some_iff]
        constructor
        · rintro ⟨j, hj, hji⟩
          obtain rfl : j = i := by omega
          obtain ⟨hhit, hmiss⟩ := ih.mp hj
          refine ⟨by simpa using hhit, fun k hk => ?_⟩
          rcases k with _ | k
          · simpa using hp'
          · simpa using hmiss k (by omega)
        · rintro ⟨hhit, hmiss⟩
          refine ⟨i, ih.mpr ⟨by simpa using hhit, fun k hk => ?_⟩, rfl⟩
          simpa using hmiss (k + 1) (by omega)

/-- `find` fails when there is no occurrence. -/
theorem find_eq_none : find pat s = none ↔ ∀ j, ¬ pat <+: s.drop j := by
  rw [Option.eq_none_iff_forall_not_mem]
  constructor
  · intro h j hj
    classical
    have hex : ∃ j, pat <+: s.drop j := ⟨j, hj⟩
    exact h (Nat.find hex)
      (find_eq_some.mpr ⟨Nat.find_spec hex, fun k hk => Nat.find_min hex hk⟩)
  · exact fun h j hj => h j (find_eq_some.mp hj).1

/-- The occurrence that is found lies inside of the text. -/
theorem find_add_length_le (h : find pat s = some i) : i + pat.length ≤ s.length := by
  rcases eq_or_ne pat [] with rfl | hpat
  · have hi : i = 0 := by
      by_contra hi
      exact (find_eq_some.mp h).2 0 (by omega) (by simp)
    simp [hi]
  · have hlen := (find_eq_some.mp h).1.length_le
    have hpos : 0 < pat.length := List.length_pos_iff.mpr hpat
    rw [List.length_drop] at hlen
    omega

/-- An occurrence stays the first one when more text arrives behind it. -/
theorem find_append (h : find pat s = some i) (t : List α) : find pat (s ++ t) = some i := by
  have hle := find_add_length_le h
  obtain ⟨hhit, hmiss⟩ := find_eq_some.mp h
  refine find_eq_some.mpr ⟨?_, fun j hj hp => hmiss j hj ?_⟩
  · rw [List.drop_append_of_le_length (by omega)]
    exact hhit.trans (List.prefix_append ..)
  · rw [List.drop_append_of_le_length (by omega)] at hp
    apply List.prefix_of_prefix_length_le hp (List.prefix_append ..)
    rw [List.length_drop]
    omega

/-- The pattern at the very beginning is found there. -/
theorem find_eq_zero_iff : find pat s = some 0 ↔ pat <+: s := by
  simp [find_eq_some]

theorem find_eq_none_iff_not_infix : find pat s = none ↔ ¬ pat <:+: s := by
  rw [find_eq_none]
  constructor
  · rintro h ⟨u, v, rfl⟩
    apply h u.length
    rw [List.append_assoc, List.drop_left]
    exact List.prefix_append ..
  · intro h j hj
    exact h (hj.isInfix.trans (List.drop_suffix j s).isInfix)

/-- A text is cut at the occurrence that is found. -/
theorem find_eq_some_iff_append : find pat s = some i ↔
    ∃ a b, s = a ++ (pat ++ b) ∧ a.length = i ∧ ∀ j < i, ¬ pat <+: s.drop j := by
  rw [find_eq_some]
  constructor
  · rintro ⟨hhit, hmiss⟩
    have hle := find_add_length_le (find_eq_some.mpr ⟨hhit, hmiss⟩)
    obtain ⟨b, hb⟩ := hhit
    refine ⟨s.take i, b, by rw [hb, List.take_append_drop], ?_, hmiss⟩
    rw [List.length_take]
    omega
  · rintro ⟨a, b, rfl, rfl, hmiss⟩
    rw [List.drop_left]
    exact ⟨List.prefix_append pat b, hmiss⟩

/-- A single character is found where it stands first. -/
theorem find_singleton_iff {c : α} :
    find [c] s = some i ↔ ∃ a b, s = a ++ c :: b ∧ a.length = i ∧ c ∉ a := by
  rw [find_eq_some_iff_append]
  constructor
  · rintro ⟨a, b, rfl, rfl, hmiss⟩
    refine ⟨a, b, rfl, rfl, ?_⟩
    intro hmem
    obtain ⟨u, v, rfl⟩ := List.append_of_mem hmem
    apply hmiss u.length (by simp)
    simp
  · rintro ⟨a, b, rfl, rfl, hnot⟩
    refine ⟨a, b, rfl, rfl, ?_⟩
    rintro j hj ⟨t, ht⟩
    rw [List.drop_append_of_le_length (Nat.le_of_lt hj), List.drop_eq_getElem_cons hj] at ht
    obtain rfl : c = a[j] := (List.cons.inj ht).1
    exact hnot (List.getElem_mem hj)

end Search

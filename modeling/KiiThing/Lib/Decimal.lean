import Mathlib.Data.Nat.Digits.Lemmas

/-!
# Decimal text

`text n` is what `printf("%lu", n)` writes, as ASCII bytes; `read` is the way back, stopping at the
first byte that is no digit. `read_text` is the round trip. The other lemmas say what a scanner
that walks over a number has to know: every byte is a digit, the first one is not `0` unless the
number is, and `n < 10 ^ k` is written with at most `k` figures. The other way round, figures that do
not begin with `0` are the text of what they spell (`text_read`).
-/

namespace Decimal

/-- Is the byte one of the figures `0` to `9`? -/
def isDigit (c : UInt8) : Bool := decide (48 ≤ c) && decide (c ≤ 57)

/-- The value of a figure. -/
def digitOf (c : UInt8) : Nat := c.toNat - 48

/-- The figures of a number, the most significant one first. -/
def digits (n : Nat) : List Nat := if n = 0 then [0] else (Nat.digits 10 n).reverse

/-- The decimal text of a number. -/
def text (n : Nat) : List UInt8 := (digits n).map fun d => UInt8.ofNat (48 + d)

/-- The number that the figures at the beginning of `s` spell, continuing from `acc`. -/
def read (acc : Nat) : List UInt8 → Nat
  | [] => acc
  | c :: s => if isDigit c then read (acc * 10 + digitOf c) s else acc

example : text 1705 = [49, 55, 48, 53] := by decide

/-! ### Single figures -/

theorem isDigit_iff {c : UInt8} : isDigit c = true ↔ 48 ≤ c.toNat ∧ c.toNat ≤ 57 := by
  simp [isDigit, UInt8.le_iff_toNat_le]

theorem toNat_figure {d : Nat} (hd : d < 10) : (UInt8.ofNat (48 + d)).toNat = 48 + d := by
  simp only [UInt8.toNat_ofNat']
  omega

theorem isDigit_figure {d : Nat} (hd : d < 10) : isDigit (UInt8.ofNat (48 + d)) = true := by
  rw [isDigit_iff, toNat_figure hd]
  omega

theorem digitOf_figure {d : Nat} (hd : d < 10) : digitOf (UInt8.ofNat (48 + d)) = d := by
  rw [digitOf, toNat_figure hd]
  omega

/-! ### The figures of a number -/

theorem lt_of_mem_digits {n d : Nat} (h : d ∈ digits n) : d < 10 := by
  rw [digits] at h
  split at h
  · simp_all
  · exact Nat.digits_lt_base (by decide) (List.mem_reverse.mp h)

/-- Reading the figures of `n` after a number `acc` gives back `n` behind `acc`. -/
theorem foldl_digits (n : Nat) : (digits n).foldl (fun acc d => acc * 10 + d) 0 = n := by
  rw [digits]
  split
  · next hn => simp [hn]
  · have h := Nat.ofDigits_digits 10 n
    rw [Nat.ofDigits_eq_foldr] at h
    rw [List.foldl_reverse]
    calc List.foldr (fun d acc => acc * 10 + d) 0 (Nat.digits 10 n)
        = List.foldr (fun d acc => (d : Nat) + 10 * acc) 0 (Nat.digits 10 n) := by
          congr 1; funext d acc; ring
      _ = n := h

theorem digits_ne_nil (n : Nat) : digits n ≠ [] := by
  rw [digits]
  split
  · simp
  · next hn => simpa [Nat.digits_eq_nil_iff_eq_zero] using hn

/-- A positive number does not begin with the figure `0`. -/
theorem head_digits_ne_zero {n : Nat} (hn : n ≠ 0) : (digits n).head (digits_ne_nil n) ≠ 0 := by
  have h := Nat.getLast_digit_ne_zero 10 hn
  simpa [digits, hn, List.head_reverse] using h

theorem length_digits_le_iff {n k : Nat} (hk : 0 < k) : (digits n).length ≤ k ↔ n < 10 ^ k := by
  rw [digits]
  split
  · next hn => exact iff_of_true hk (by simp [hn])
  · rw [List.length_reverse]
    exact Nat.digits_length_le_iff (by decide) n

/-! ### The text of a number -/

theorem length_text_le_iff {n k : Nat} (hk : 0 < k) : (text n).length ≤ k ↔ n < 10 ^ k := by
  simpa [text] using length_digits_le_iff hk

theorem length_text_le {n k : Nat} (hk : 0 < k) (hn : n < 10 ^ k) : (text n).length ≤ k :=
  (length_text_le_iff hk).mpr hn

theorem isDigit_of_mem_text {n : Nat} {c : UInt8} (h : c ∈ text n) : isDigit c = true := by
  obtain ⟨d, hd, rfl⟩ := List.mem_map.mp h
  exact isDigit_figure (lt_of_mem_digits hd)

theorem ne_zero_of_mem_text {n : Nat} {c : UInt8} (h : c ∈ text n) : c ≠ 0 := by
  rintro rfl
  have := isDigit_of_mem_text h
  revert this
  decide

/-- A positive number is written as a figure from `1` to `9` and further figures. -/
theorem text_eq_cons {n : Nat} (hn : n ≠ 0) :
    ∃ c s, text n = c :: s ∧ isDigit c = true ∧ digitOf c ≠ 0 := by
  have hne := digits_ne_nil n
  have hhead := head_digits_ne_zero hn
  cases hds : digits n with
  | nil => exact absurd hds hne
  | cons d ds =>
    have hd : d < 10 := lt_of_mem_digits (by rw [hds]; exact List.mem_cons_self)
    have hd0 : d ≠ 0 := by simpa [hds] using hhead
    exact ⟨_, _, by rw [text, hds, List.map_cons], isDigit_figure hd,
      by rw [digitOf_figure hd]; exact hd0⟩

/-! ### Reading -/

/-- Reading over figures is the fold that accumulates them. -/
theorem read_figures {ds : List Nat} (hds : ∀ d ∈ ds, d < 10) (acc : Nat) (s : List UInt8) :
    read acc (ds.map (fun d => UInt8.ofNat (48 + d)) ++ s) =
      read (ds.foldl (fun acc d => acc * 10 + d) acc) s := by
  induction ds generalizing acc with
  | nil => rfl
  | cons d ds ih =>
    have hd : d < 10 := hds d List.mem_cons_self
    rw [List.map_cons, List.cons_append, read, if_pos (isDigit_figure hd), digitOf_figure hd,
      ih (fun e he => hds e (List.mem_cons_of_mem _ he)), List.foldl_cons]

/-- **Round trip.** The text of `n`, followed by anything that is no figure, reads as `n`. -/
theorem read_text (n : Nat) {s : List UInt8} (hs : ∀ c ∈ s.head?, isDigit c = false) :
    read 0 (text n ++ s) = n := by
  rw [text, read_figures (fun _ => lt_of_mem_digits), foldl_digits]
  cases s with
  | nil => rfl
  | cons c s => simp [read, hs c rfl]

/-- What stands behind the figures is not read. -/
theorem read_append {ds t : List UInt8} (hds : ∀ c ∈ ds, isDigit c = true)
    (ht : ∀ c ∈ t.head?, isDigit c = false) (acc : Nat) : read acc (ds ++ t) = read acc ds := by
  induction ds generalizing acc with
  | nil =>
    cases t with
    | nil => rfl
    | cons c t => simp [read, ht c rfl]
  | cons c ds ih =>
    have hc := hds c List.mem_cons_self
    rw [List.cons_append, read, read, if_pos hc, if_pos hc]
    exact ih (fun d hd => hds d (List.mem_cons_of_mem _ hd)) _

/-- The number at the beginning of a text, of one figure at least, and what stands behind it. -/
def number (s : List UInt8) : Option (Nat × List UInt8) :=
  if isDigit (s.headD 0) then some (read 0 s, s.dropWhile isDigit) else none

/-- **Round trip**, with what is left. -/
theorem number_text (n : Nat) {s : List UInt8} (hs : ∀ c ∈ s.head?, isDigit c = false) :
    number (text n ++ s) = some (n, s) := by
  have hfigures : ∀ c ∈ text n, isDigit c = true := fun c => isDigit_of_mem_text
  have hhead : isDigit ((text n ++ s).headD 0) = true := by
    cases htext : text n with
    | nil => exact absurd (List.map_eq_nil_iff.mp htext) (digits_ne_nil n)
    | cons c ds => exact hfigures c (by rw [htext]; exact List.mem_cons_self)
  have hrest : s.dropWhile isDigit = s := by
    cases s with
    | nil => rfl
    | cons c s => rw [List.dropWhile_cons, hs c rfl]; rfl
  rw [number, if_pos hhead, read_text n hs, List.dropWhile_append_of_pos hfigures, hrest]

/-! ### Writing what was read -/

/-- The byte of a figure is given back by its value. -/
theorem figure_digitOf {c : UInt8} (h : isDigit c = true) : UInt8.ofNat (48 + digitOf c) = c := by
  obtain ⟨hlow, -⟩ := isDigit_iff.mp h
  rw [digitOf, Nat.add_sub_cancel' hlow, UInt8.ofNat_toNat]

theorem digitOf_lt {c : UInt8} (h : isDigit c = true) : digitOf c < 10 := by
  have hbounds := isDigit_iff.mp h
  rw [digitOf]
  omega

theorem read_eq_foldl {s : List UInt8} (hs : ∀ c ∈ s, isDigit c = true) (acc : Nat) :
    read acc s = s.foldl (fun acc c => acc * 10 + digitOf c) acc := by
  induction s generalizing acc with
  | nil => rfl
  | cons c s ih =>
    rw [read, if_pos (hs c List.mem_cons_self), List.foldl_cons]
    exact ih (fun d hd => hs d (List.mem_cons_of_mem _ hd)) _

/-- **Figures that do not begin with `0` are the text of the number they spell.** -/
theorem text_read {c : UInt8} {s : List UInt8} (hs : ∀ d ∈ c :: s, isDigit d = true)
    (hc : digitOf c ≠ 0) : text (read 0 (c :: s)) = c :: s := by
  have hof : read 0 (c :: s) = Nat.ofDigits 10 ((c :: s).map digitOf).reverse := by
    rw [read_eq_foldl hs, Nat.ofDigits_eq_foldr, List.foldr_reverse, List.foldl_map]
    congr 1
    funext acc d
    simp only [Nat.cast_id]
    ring
  have hdigits : Nat.digits 10 (read 0 (c :: s)) = ((c :: s).map digitOf).reverse := by
    rw [hof]
    apply Nat.digits_ofDigits 10 (by decide)
    · intro d hd
      obtain ⟨b, hb, rfl⟩ := List.mem_map.mp (List.mem_reverse.mp hd)
      exact digitOf_lt (hs b hb)
    · intro hne
      rw [List.getLast_reverse]
      exact hc
  have hne : read 0 (c :: s) ≠ 0 := by
    intro h0
    rw [h0, Nat.digits_zero] at hdigits
    simp at hdigits
  rw [text, digits, if_neg hne, hdigits, List.reverse_reverse, List.map_map]
  conv_rhs => rw [← List.map_id (c :: s)]
  apply List.map_congr_left
  intro d hd
  exact figure_digitOf (hs d hd)

theorem read_lt {s : List UInt8} (hs : ∀ c ∈ s, isDigit c = true) (acc : Nat) :
    read acc s < (acc + 1) * 10 ^ s.length := by
  induction s generalizing acc with
  | nil => simp [read]
  | cons c s ih =>
    have hc := digitOf_lt (hs c List.mem_cons_self)
    rw [read, if_pos (hs c List.mem_cons_self), List.length_cons, Nat.pow_succ]
    calc read (acc * 10 + digitOf c) s
        < (acc * 10 + digitOf c + 1) * 10 ^ s.length :=
          ih (fun d hd => hs d (List.mem_cons_of_mem _ hd)) _
      _ ≤ ((acc + 1) * 10) * 10 ^ s.length := Nat.mul_le_mul_right _ (by omega)
      _ = (acc + 1) * (10 ^ s.length * 10) := by ring

end Decimal

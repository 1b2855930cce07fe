import Mathlib.Data.List.Basic

/-!
# Lists as memory

A block of memory is a `List α`; a pointer into it is an offset. `overwrite` is the one store
operation, and it never changes the size of the block: cells that fall behind its end are lost.
`memcpy`, `memset` and `memmove` are instances of it.

The lemmas are about blocks cut at the place where the store happens (`X ++ Y`), since that is how
a proof about a buffer sees it: a part before the insertion point, the part that is replaced, and
the rest.
-/

namespace Memory

variable {α : Type*}

/-- Store `bs` from offset `p` on. -/
def overwrite (mem : List α) (p : Nat) (bs : List α) : List α :=
  mem.take p ++ bs.take (mem.length - p) ++ mem.drop (p + bs.length)

/-- The `n` cells from offset `p` on. -/
def slice (mem : List α) (p n : Nat) : List α := (mem.drop p).take n

/-- Copy `n` cells from offset `src` to offset `dst`; the two ranges may overlap, since the cells
are read before the first one is stored. -/
def move (mem : List α) (dst src n : Nat) : List α := overwrite mem dst (slice mem src n)

/-- Set the whole block to `x`. -/
def fill (mem : List α) (x : α) : List α := List.replicate mem.length x

/-- `bs`, brought to size `n` with copies of `x`. -/
def pad (n : Nat) (x : α) (bs : List α) : List α := bs ++ List.replicate (n - bs.length) x

/-! ### Sizes -/

@[simp] theorem length_overwrite (mem : List α) (p : Nat) (bs : List α) :
    (overwrite mem p bs).length = mem.length := by
  simp only [overwrite, List.length_append, List.length_take, List.length_drop]
  omega

@[simp] theorem length_move (mem : List α) (dst src n : Nat) :
    (move mem dst src n).length = mem.length := length_overwrite ..

@[simp] theorem length_fill (mem : List α) (x : α) : (fill mem x).length = mem.length := by
  simp [fill]

@[simp] theorem length_pad {n : Nat} {x : α} {bs : List α} (h : bs.length ≤ n) :
    (pad n x bs).length = n := by
  simp only [pad, List.length_append, List.length_replicate]
  omega

theorem pad_nil (n : Nat) (x : α) : pad n x [] = List.replicate n x := by simp [pad]

/-! ### Stores inside of a block -/

/-- A store that stays inside of the block loses nothing. -/
theorem overwrite_of_le {mem : List α} {p : Nat} {bs : List α} (h : p + bs.length ≤ mem.length) :
    overwrite mem p bs = mem.take p ++ bs ++ mem.drop (p + bs.length) := by
  rw [overwrite, List.take_of_length_le (l := bs) (by omega)]

/-- A store behind the first part leaves it alone. -/
theorem overwrite_append_right (X Y : List α) (p : Nat) (bs : List α) :
    overwrite (X ++ Y) (X.length + p) bs = X ++ overwrite Y p bs := by
  have hsub : X.length + Y.length - (X.length + p) = Y.length - p := by omega
  simp only [overwrite, List.length_append, List.take_length_add_append, Nat.add_assoc,
    List.drop_length_add_append, hsub, List.append_assoc]

/-- A store that replaces the middle part, and only it. -/
theorem overwrite_block {J bs : List α} (h : J.length = bs.length) (X Y : List α) :
    overwrite (X ++ (J ++ Y)) X.length bs = X ++ (bs ++ Y) := by
  have hstore : overwrite (J ++ Y) 0 bs = bs ++ Y := by
    rw [overwrite_of_le (by simp [h])]
    simp [← h]
  simpa [hstore] using overwrite_append_right X (J ++ Y) 0 bs

/-- Two stores side by side are one. -/
theorem overwrite_overwrite {mem : List α} {p : Nat} {as bs : List α}
    (h : p + as.length + bs.length ≤ mem.length) :
    overwrite (overwrite mem p as) (p + as.length) bs = overwrite mem p (as ++ bs) := by
  have hp : (mem.take p).length = p := by rw [List.length_take]; omega
  have has : p + as.length ≤ mem.length := by omega
  have hall : p + (as ++ bs).length ≤ mem.length := by rw [List.length_append]; omega
  rw [overwrite_of_le has, overwrite_of_le hall]
  have hpre : (mem.take p ++ as).length = p + as.length := by rw [List.length_append, hp]
  have := overwrite_append_right (mem.take p ++ as) (mem.drop (p + as.length)) 0 bs
  rw [hpre, Nat.add_zero] at this
  rw [this, overwrite_of_le (by rw [List.length_drop]; omega)]
  simp [List.drop_drop, Nat.add_assoc]

/-- What a store inside of the block leaves in front of it. -/
theorem take_overwrite_of_le {mem : List α} {p q : Nat} {bs : List α} (hq : q ≤ p)
    (hp : p ≤ mem.length) : (overwrite mem p bs).take q = mem.take q := by
  rw [overwrite, List.append_assoc, List.take_append_of_le_length (by rw [List.length_take]; omega),
    List.take_take, Nat.min_eq_left hq]

/-- A store into the first part leaves the second one alone. -/
theorem overwrite_append_left (X Y : List α) {p : Nat} {bs : List α} (h : p + bs.length ≤ X.length) :
    overwrite (X ++ Y) p bs = overwrite X p bs ++ Y := by
  rw [overwrite_of_le h, overwrite_of_le (by rw [List.length_append]; omega),
    List.take_append_of_le_length (by omega), List.drop_append_of_le_length h]
  simp only [List.append_assoc]

/-- What a store leaves in a beginning that holds all of it. -/
theorem take_overwrite {mem : List α} {p q : Nat} {bs : List α} (h : p + bs.length ≤ q)
    (hq : q ≤ mem.length) : (overwrite mem p bs).take q = overwrite (mem.take q) p bs := by
  have hlen : (mem.take q).length = q := by rw [List.length_take]; omega
  have hcut : overwrite (mem.take q ++ mem.drop q) p bs =
      overwrite (mem.take q) p bs ++ mem.drop q := overwrite_append_left _ _ (by omega)
  rw [List.take_append_drop] at hcut
  have hover : (overwrite (mem.take q) p bs).length = q := by rw [length_overwrite, hlen]
  rw [hcut, List.take_append_of_le_length (Nat.le_of_eq hover.symm),
    List.take_of_length_le (Nat.le_of_eq hover)]

/-- A store of nothing. -/
theorem overwrite_nil (mem : List α) (p : Nat) : overwrite mem p [] = mem := by
  simp [overwrite]

/-- What a store inside of the block leaves behind it. -/
theorem drop_overwrite_of_le {mem : List α} {p q : Nat} {bs : List α} (hq : p + bs.length ≤ q)
    (hp : p + bs.length ≤ mem.length) : (overwrite mem p bs).drop q = mem.drop q := by
  obtain ⟨n, rfl⟩ : ∃ n, q = p + bs.length + n := ⟨q - (p + bs.length), by omega⟩
  have hpre : (mem.take p ++ bs).length = p + bs.length := by
    rw [List.length_append, List.length_take]
    omega
  rw [overwrite_of_le hp, ← hpre, List.drop_length_add_append, hpre, List.drop_drop]

/-- A store hides a shorter one at the same place. -/
theorem overwrite_longer {mem : List α} {p : Nat} {as bs : List α} (h : as.length ≤ bs.length)
    (hmem : p + as.length ≤ mem.length) :
    overwrite (overwrite mem p as) p bs = overwrite mem p bs := by
  have hdrop : (overwrite mem p as).drop (p + bs.length) = mem.drop (p + bs.length) :=
    drop_overwrite_of_le (Nat.add_le_add_left h p) hmem
  have htake : (overwrite mem p as).take p = mem.take p :=
    take_overwrite_of_le (Nat.le_refl p) (Nat.le_of_add_right_le hmem)
  rw [overwrite, hdrop, htake, length_overwrite, ← overwrite]

/-- A store at the end of a slice makes it longer, by as much of it as is asked for. -/
theorem slice_overwrite_append {mem : List α} {q n : Nat} {bs cs : List α}
    (h : q + n + bs.length + cs.length ≤ mem.length) :
    slice (overwrite mem (q + n) (bs ++ cs)) q (n + bs.length) = slice mem q n ++ bs := by
  have hfit : q + n + (bs ++ cs).length ≤ mem.length := by rw [List.length_append]; omega
  have hslice : (mem.take (q + n)).drop q = slice mem q n := by
    rw [List.drop_take, Nat.add_sub_cancel_left, slice]
  have hq : q ≤ (mem.take (q + n)).length := by rw [List.length_take]; omega
  have hlen : (slice mem q n ++ bs).length = n + bs.length := by
    rw [List.length_append, slice, List.length_take, List.length_drop]
    omega
  rw [overwrite_of_le hfit]
  simp only [slice, List.append_assoc] at hslice hlen ⊢
  rw [List.drop_append_of_le_length hq, hslice, ← List.append_assoc, ← hlen, List.take_left]

/-- A store makes the beginning in front of it longer. -/
theorem take_overwrite_add {mem : List α} {p n : Nat} {bs : List α} (hn : n ≤ bs.length)
    (hp : p + n ≤ mem.length) : (overwrite mem p bs).take (p + n) = mem.take p ++ bs.take n := by
  have hpre : (mem.take p).length = p := by
    rw [List.length_take]
    omega
  have hbs : n ≤ (bs.take (mem.length - p)).length := by
    rw [List.length_take]
    omega
  have hcut : ∀ ys : List α, (mem.take p ++ ys).take (p + n) = mem.take p ++ ys.take n := by
    intro ys
    rw [← List.take_length_add_append n, hpre]
  rw [overwrite, List.append_assoc, hcut, List.take_append_of_le_length hbs, List.take_take,
    Nat.min_eq_left (by omega)]

/-! ### Opening a gap

A part is put into the middle of a text that is followed by free cells: the text behind the
insertion point moves up by the size of the new part. -/

/-- Moving `B` up by the size of `bs` and storing `bs` in front of it puts `bs` between `A` and
`B`; the free cells `C` lose exactly the room it takes. -/
theorem overwrite_move (A B C bs : List α) (h : bs.length ≤ C.length) :
    overwrite (move (A ++ (B ++ C)) (A.length + bs.length) A.length B.length) A.length bs =
      A ++ (bs ++ (B ++ C.drop bs.length)) := by
  have hslice : slice (A ++ (B ++ C)) A.length B.length = B := by simp [slice]
  have hlen : ((B ++ C).take bs.length).length = bs.length := by
    rw [List.length_take, List.length_append]; omega
  have hmove : move (A ++ (B ++ C)) (A.length + bs.length) A.length B.length =
      A ++ ((B ++ C).take bs.length ++ (B ++ C.drop bs.length)) := by
    rw [move, hslice, overwrite_append_right,
      overwrite_of_le (by rw [List.length_append]; omega), Nat.add_comm bs.length,
      List.drop_length_add_append, List.append_assoc]
  rw [hmove, overwrite_block hlen]

/-- A terminator behind the longer text does not show in it. -/
theorem take_splice (A B C bs : List α) (x : α) (h : bs.length < C.length) :
    (overwrite (overwrite (move (A ++ (B ++ C)) (A.length + bs.length) A.length B.length)
      (A.length + B.length + bs.length) [x]) A.length bs).take (A.length + B.length + bs.length) =
      A ++ (bs ++ B) := by
  have hmem : (A ++ (B ++ C)).length = A.length + B.length + C.length := by
    simp only [List.length_append]
    omega
  have hnew : (A ++ (bs ++ B)).length = A.length + B.length + bs.length := by
    simp only [List.length_append]
    omega
  rw [take_overwrite (by omega) (by rw [length_overwrite, length_move]; omega),
    take_overwrite_of_le (Nat.le_refl _) (by rw [length_move]; omega),
    ← take_overwrite (by omega) (by rw [length_move]; omega),
    overwrite_move A B C bs (Nat.le_of_lt h)]
  calc (A ++ (bs ++ (B ++ C.drop bs.length))).take (A.length + B.length + bs.length)
      = (A ++ (bs ++ B) ++ C.drop bs.length).take (A.length + B.length + bs.length) := by
        simp only [List.append_assoc]
    _ = A ++ (bs ++ B) := by rw [← hnew, List.take_left]

/-- A store into the padding of `bs` extends `bs`. -/
theorem overwrite_pad {n : Nat} {x : α} {bs cs : List α} (h : bs.length + cs.length ≤ n) :
    overwrite (pad n x bs) bs.length cs = pad n x (bs ++ cs) := by
  have := overwrite_append_right bs (List.replicate (n - bs.length) x) 0 cs
  rw [Nat.add_zero] at this
  rw [pad, this, overwrite_of_le (by rw [List.length_replicate]; omega), pad]
  simp [Nat.sub_add_eq]

/-- Storing one more `x` into the padding changes nothing. -/
theorem overwrite_pad_self {n : Nat} {x : α} {bs : List α} (h : bs.length < n) :
    overwrite (pad n x bs) bs.length [x] = pad n x bs := by
  rw [overwrite_pad (by simp; omega)]
  obtain ⟨m, hm⟩ : ∃ m, n - bs.length = m + 1 := ⟨n - bs.length - 1, by omega⟩
  have hm' : n - (bs ++ [x]).length = m := by simp; omega
  rw [pad, pad, hm, hm', List.replicate_succ, List.append_assoc, List.singleton_append]

/-! ### Texts in arrays -/

/-- A text that is printed into an array whose size nobody looks at. `reached` is how many cells are
in use, those of the array first and then those behind it. -/
structure Printed (α : Type*) where
  text : List α
  reached : Nat

namespace Printed

/-- An array of which the first `n` cells have been set. -/
def fresh (n : Nat) : Printed α := ⟨[], n⟩

/-- Print from the beginning of the array, with a terminator. -/
def print (p : Printed α) (str : List α) : Printed α := ⟨str, max p.reached (str.length + 1)⟩

/-- Print behind the text, with a terminator. -/
def append (p : Printed α) (str : List α) : Printed α :=
  ⟨p.text ++ str, max p.reached (p.text.length + str.length + 1)⟩

@[simp] theorem text_print (p : Printed α) (str : List α) : (p.print str).text = str := rfl

@[simp] theorem text_append (p : Printed α) (str : List α) :
    (p.append str).text = p.text ++ str := rfl

/-- The text reaches furthest, but for the first `n` cells. -/
def Longest (n : Nat) (p : Printed α) : Prop := p.reached = max n (p.text.length + 1)

theorem longest_print (n : Nat) (str : List α) : ((fresh n).print str).Longest n := rfl

theorem Longest.append {n : Nat} {p : Printed α} (h : p.Longest n) (str : List α) :
    (p.append str).Longest n := by
  rw [Longest] at h
  simp only [Longest, Printed.append, h, List.length_append]
  omega

/-- A text that was only appended to stays in its array exactly when what it has become does. -/
theorem Longest.reached_le_iff {n size : Nat} {p : Printed α} (h : p.Longest n) (hn : n ≤ size) :
    p.reached ≤ size ↔ p.text.length < size := by
  rw [Longest] at h
  rw [h]
  omega

end Printed

end Memory

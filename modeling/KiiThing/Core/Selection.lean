import KiiThing.Core.ContentLength

/-!
# Which number is the content length

The parser takes the first line that begins with `content-length`, whatever follows in its name, and
reads the number that `Shows` describes: the first one that begins within eleven characters behind
these fourteen, in that line or behind its end. `selects_iff` says when this is the value of the first
field whose name is `content-length`.
-/

namespace KiiThing

open Http

variable {w : Nat}

/-! ## The number that is read -/

/-- A figure from 1 to 9. -/
abbrev Figure (b : Byte) : Prop := 49 ≤ b ∧ b ≤ 57

theorem not_figure_colon : ∀ b ∈ ascii ":", ¬ Figure b := by decide

theorem not_figure_crlf : ∀ b ∈ CRLF, ¬ Figure b := by decide

theorem not_figure_of_blank {b : Byte} (h : b = 32 ∨ b = 9) : ¬ Figure b := by
  rcases h with rfl | rfl <;> decide

/-- The text shows the number `digits`: it begins with a figure from 1 to 9, behind at most ten
characters that are none, and it ends with the tenth figure, or where no figure follows. -/
inductive Shows : List Byte → List Byte → Prop
  | intro {sep more behind : List Byte} {c : Byte} (hsep : ∀ b ∈ sep, ¬ Figure b)
      (hreach : sep.length ≤ 10) (hc : Figure c) (hmore : ∀ d ∈ more, Decimal.isDigit d = true)
      (hend : more.length = 9 ∨
        more.length < 9 ∧ ∀ d ∈ behind.head?, Decimal.isDigit d = false) :
      Shows (sep ++ c :: (more ++ behind)) (c :: more)

theorem figure_iff {c : Byte} : Figure c ↔ Decimal.isDigit c = true ∧ Decimal.digitOf c ≠ 0 := by
  rw [Decimal.isDigit_iff, Decimal.digitOf, Figure]
  simp only [UInt8.le_iff_toNat_le]
  show 49 ≤ c.toNat ∧ c.toNat ≤ 57 ↔ _
  omega

/-- A printed number of at most ten figures, in reach. -/
theorem shows_text {sep behind : List Byte} {n : Nat} (hsep : ∀ b ∈ sep, ¬ Figure b)
    (hreach : sep.length ≤ 10) (hpos : n ≠ 0) (hn : n < 10 ^ 10)
    (hstop : ∀ d ∈ behind.head?, Decimal.isDigit d = false) :
    Shows (sep ++ (Decimal.text n ++ behind)) (Decimal.text n) := by
  obtain ⟨c, more, htext, hc, hc0⟩ := Decimal.text_eq_cons hpos
  have hlen := Decimal.length_text_le (by decide) hn
  have hdigits : ∀ d ∈ Decimal.text n, Decimal.isDigit d = true := fun _ => Decimal.isDigit_of_mem_text
  rw [htext] at hlen hdigits ⊢
  have hmore : more.length ≤ 9 := Nat.le_of_succ_le_succ hlen
  refine Shows.intro hsep hreach (figure_iff.mpr ⟨hc, hc0⟩) (fun d hd => ?_) ?_
  · exact hdigits d (List.mem_cons_of_mem _ hd)
  · exact (Nat.eq_or_lt_of_le hmore).imp_right fun hlt => ⟨hlt, hstop⟩

/-- The loop adds up the figures in a `long`, ten of them at most. -/
theorem accumulate_eq {more behind : List Byte} (hmore : ∀ d ∈ more, Decimal.isDigit d = true)
    {n : Nat} (hend : more.length = n ∨
      more.length < n ∧ ∀ d ∈ behind.head?, Decimal.isDigit d = false) (acc : Nat) :
    accumulate w n (acc % 2 ^ w) (more ++ behind) = Decimal.read acc more % 2 ^ w := by
  induction more generalizing n acc with
  | nil =>
    rcases hend with rfl | ⟨hlt, hstop⟩
    · rfl
    · obtain ⟨n, rfl⟩ : ∃ m, n = m + 1 := ⟨n - 1, by simp at hlt; omega⟩
      cases behind with
      | nil => rfl
      | cons d behind => simp [accumulate, Decimal.read, hstop d rfl]
  | cons d more ih =>
    obtain ⟨n, rfl⟩ : ∃ m, n = m + 1 := ⟨n - 1, by simp at hend; omega⟩
    have hd := hmore d List.mem_cons_self
    have hstep : (acc % 2 ^ w * 10 + Decimal.digitOf d) % 2 ^ w =
        (acc * 10 + Decimal.digitOf d) % 2 ^ w := by
      simp [Nat.add_mod, Nat.mul_mod]
    rw [List.cons_append, accumulate, if_pos hd, hstep, Decimal.read, if_pos hd]
    exact ih (fun e he => hmore e (List.mem_cons_of_mem _ he)) (by simpa using hend) _

section

variable {name u digits : List Byte}

/-- **The number that is shown is the one that is read.** -/
theorem Shows.value (h : Shows u digits) (hname : name.length = clLength) (hw : 16 ≤ w) :
    value w (name ++ u) = Decimal.read 0 digits % 2 ^ w := by
  obtain @⟨sep, more, behind, c, hsep, hreach, hc, hmore, hend⟩ := h
  have hdigit := (figure_iff.mp hc).1
  have hten : 2 ^ 16 ≤ 2 ^ w := Nat.pow_le_pow_right (by decide) hw
  have hlt := Decimal.digitOf_lt hdigit
  have hfirst : Decimal.digitOf c = Decimal.digitOf c % 2 ^ w := (Nat.mod_eq_of_lt (by omega)).symm
  have hdrop : (name ++ (sep ++ c :: (more ++ behind))).drop clLength =
      sep ++ c :: (more ++ behind) := by
    rw [← hname, List.drop_left]
  rw [KiiThing.value, hdrop, searchFigure_skip hsep (by omega) hc]
  show accumulate w 9 (Decimal.digitOf c) (more ++ behind) = _
  rw [hfirst, accumulate_eq hmore hend, Decimal.read, if_pos hdigit, Nat.zero_mul, Nat.zero_add]

/-- A text that shows a number shows one number. -/
theorem Shows.read_eq {digits' : List Byte} (h : Shows u digits) (h' : Shows u digits') :
    Decimal.read 0 digits = Decimal.read 0 digits' := by
  obtain ⟨w, hw⟩ : ∃ w, w = 16 + Decimal.read 0 digits + Decimal.read 0 digits' := ⟨_, rfl⟩
  have hlt : w < 2 ^ w := Nat.lt_two_pow_self
  have hname : (ascii "content-length").length = clLength := by decide
  have hvalue := (h.value hname (w := w) (by omega)).symm.trans (h'.value hname (by omega))
  rwa [Nat.mod_eq_of_lt (by omega), Nat.mod_eq_of_lt (by omega)] at hvalue

theorem searchFigure_none {n : Nat} (h : ∀ b ∈ u.take n, ¬ Figure b) : searchFigure n u = none := by
  induction n generalizing u with
  | zero => rfl
  | succ n ih =>
    cases u with
    | nil => rfl
    | cons b u =>
      rw [List.take_succ_cons] at h
      rw [searchFigure, if_neg (h b List.mem_cons_self)]
      exact ih fun c hc => h c (List.mem_cons_of_mem _ hc)

theorem value_of_none (hname : name.length = clLength) (h : ∀ b ∈ u.take 11, ¬ Figure b) :
    value w (name ++ u) = 0 := by
  rw [KiiThing.value, ← hname, List.drop_left, searchFigure_none h]

theorem exists_first_figure {n : Nat} (h : ∃ b ∈ u.take n, Figure b) :
    ∃ sep c rest, u = sep ++ c :: rest ∧ (∀ b ∈ sep, ¬ Figure b) ∧ sep.length < n ∧ Figure c := by
  induction n generalizing u with
  | zero => simp at h
  | succ n ih =>
    cases u with
    | nil => simp at h
    | cons b u =>
      by_cases hb : Figure b
      · exact ⟨[], b, u, rfl, by simp, by simp, hb⟩
      · obtain ⟨d, hd, hfigure⟩ := h
        rw [List.take_succ_cons, List.mem_cons] at hd
        have hd' : d ∈ u.take n := hd.resolve_left fun heq => hb (heq ▸ hfigure)
        obtain ⟨sep, c, rest, rfl, hsep, hlt, hc⟩ := ih ⟨d, hd', hfigure⟩
        exact ⟨b :: sep, c, rest, rfl, List.forall_mem_cons.mpr ⟨hb, hsep⟩, by simpa using hlt, hc⟩

/-- A number is shown where a figure from 1 to 9 is in reach, and nowhere else. -/
theorem exists_shows_iff : (∃ digits, Shows u digits) ↔ ∃ b ∈ u.take 11, Figure b := by
  constructor
  · rintro ⟨_, @⟨sep, more, behind, c, hsep, hreach, hc, hmore, hend⟩⟩
    refine ⟨c, ?_, hc⟩
    rw [List.take_append, List.mem_append]
    right
    obtain ⟨n, hn⟩ : ∃ n, 11 - sep.length = n + 1 := ⟨10 - sep.length, by omega⟩
    rw [hn, List.take_succ_cons]
    exact List.mem_cons_self
  · intro h
    obtain ⟨sep, c, rest, rfl, hsep, hlt, hc⟩ := exists_first_figure h
    have hmore : ∀ d ∈ (rest.takeWhile Decimal.isDigit).take 9, Decimal.isDigit d = true :=
      fun d hd => List.mem_takeWhile_imp (List.mem_of_mem_take hd)
    by_cases hlong : 9 ≤ (rest.takeWhile Decimal.isDigit).length
    · have hrest : rest = (rest.takeWhile Decimal.isDigit).take 9 ++
          ((rest.takeWhile Decimal.isDigit).drop 9 ++ rest.dropWhile Decimal.isDigit) := by
        rw [← List.append_assoc, List.take_append_drop, List.takeWhile_append_dropWhile]
      rw [hrest]
      exact ⟨_, Shows.intro hsep (by omega) hc hmore (Or.inl (by rw [List.length_take]; omega))⟩
    · have hstop : ∀ d ∈ (rest.dropWhile Decimal.isDigit).head?, Decimal.isDigit d = false := by
        intro d hd
        have hnot := List.head?_dropWhile_not Decimal.isDigit rest
        rw [Option.mem_def.mp hd] at hnot
        simpa using hnot
      rw [List.take_of_length_le (by omega)] at hmore
      rw [← List.takeWhile_append_dropWhile (p := Decimal.isDigit) (l := rest)]
      exact ⟨_, Shows.intro hsep (by omega) hc hmore (Or.inr ⟨by omega, hstop⟩)⟩

theorem Shows.all_digits (h : Shows u digits) :
    ∃ c more, digits = c :: more ∧ more.length ≤ 9 ∧ Decimal.digitOf c ≠ 0 ∧
      ∀ d ∈ digits, Decimal.isDigit d = true := by
  obtain @⟨sep, more, behind, c, hsep, hreach, hc, hmore, hend⟩ := h
  have hfigure := figure_iff.mp hc
  exact ⟨c, more, rfl, by omega, hfigure.2, List.forall_mem_cons.mpr ⟨hfigure.1, hmore⟩⟩

/-- Behind a byte that is no figure, nothing is looked at. -/
theorem Shows.append {e : Byte} (h : Shows (u ++ [e]) digits) (he : Decimal.isDigit e = false)
    (t : List Byte) : Shows (u ++ [e] ++ t) digits := by
  obtain ⟨v, hv⟩ : ∃ v, v = u ++ [e] := ⟨_, rfl⟩
  rw [← hv] at h ⊢
  obtain @⟨sep, more, behind, c, hsep, hreach, hc, hmore, hend⟩ := h
  have hsplit : sep ++ c :: (more ++ behind) ++ t = sep ++ c :: (more ++ (behind ++ t)) := by simp
  rw [hsplit]
  refine Shows.intro hsep hreach hc hmore (hend.imp_right fun ⟨hlt, hstop⟩ => ⟨hlt, ?_⟩)
  cases behind with
  | cons d behind => exact hstop
  | nil =>
    -- the text would end with a figure
    have hlast : e ∈ c :: more := by
      have hne : c :: more ≠ [] := List.cons_ne_nil _ _
      have := congrArg List.getLast? hv
      rw [List.append_nil, List.getLast?_append, List.getLast?_concat,
        List.getLast?_eq_some_getLast hne, Option.some_or, Option.some.injEq] at this
      exact this ▸ List.getLast_mem hne
    have hdigits : ∀ d ∈ c :: more, Decimal.isDigit d = true :=
      List.forall_mem_cons.mpr ⟨(figure_iff.mp hc).1, hmore⟩
    rw [hdigits e hlast] at he
    cases he

end

/-! ## Fields -/

/-- A field line. -/
structure Field where
  name : List Byte
  value : List Byte
  deriving DecidableEq

namespace Field

def line (f : Field) : List Byte := f.name ++ ascii ":" ++ f.value

/-- The name ends at the first colon, and the line at the first line end. -/
structure Proper (f : Field) : Prop where
  noColon : (58 : Byte) ∉ f.name
  isLine : IsLine f.line

/-- The name is `content-length`, in any mix of letter case. -/
def Named (f : Field) : Prop := f.name.map toLower = lower

instance (f : Field) : Decidable f.Named :=
  inferInstanceAs (Decidable (f.name.map toLower = lower))

/-- The number that a value begins with, behind the blanks. -/
def number (f : Field) : Nat := Decimal.read 0 (f.value.dropWhile fun b => b = 32 ∨ b = 9)

variable {f : Field}

theorem line_ne_nil (f : Field) : f.line ≠ [] := by simp [line, ascii]

/-- The parser's look at a line is one at the name. -/
theorem startsWith_line : StartsWith lower f.line ↔ StartsWith lower f.name := by
  rw [StartsWith, StartsWith, line, List.append_assoc, List.map_append]
  refine ⟨fun h => ?_, fun h => h.trans (List.prefix_append ..)⟩
  rcases List.prefix_or_prefix_of_prefix h (List.prefix_append ..) with hp | ⟨t, ht⟩
  · exact hp
  · -- a shorter name would be followed by a character of `content-length`
    rw [← ht, List.prefix_append_right_inj] at h
    cases t with
    | nil => simp [← ht]
    | cons c t =>
      have hcolon : c = toLower 58 := (List.cons_prefix_cons.mp h).1
      have hmem : toLower 58 ∈ lower := by
        rw [← ht, ← hcolon]
        simp
      exact absurd hmem (by decide)

theorem Named.startsWith (h : f.Named) : StartsWith lower f.name := by
  rw [StartsWith, h]

theorem Named.length (h : f.Named) : f.name.length = clLength := by
  have := congrArg List.length h
  rwa [List.length_map] at this

/-- The first fourteen characters of a line that begins so, and the others. -/
theorem exists_split {l : List Byte} (h : StartsWith lower l) :
    ∃ name u, l = name ++ u ∧ name.length = clLength ∧ name.map toLower = lower := by
  have hle := h.length_le
  rw [List.length_map] at hle
  refine ⟨l.take clLength, l.drop clLength, (List.take_append_drop ..).symm,
    List.length_take_of_le hle, ?_⟩
  rw [List.map_take]
  exact (List.prefix_iff_eq_take.mp h).symm

end Field

/-- A response header: the status line and the fields. -/
structure ResponseHeader where
  statusLine : List Byte
  fields : List Field

namespace ResponseHeader

/-- The header on the wire, with its empty line. -/
def bytes (h : ResponseHeader) : List Byte := lines (h.statusLine :: h.fields.map Field.line) ++ CRLF

structure WellFormed (h : ResponseHeader) : Prop where
  statusLine : IsLine h.statusLine
  fields : ∀ f ∈ h.fields, f.Proper

/-- The content length: the value of the first field of that name, 0 where there is none. -/
def declared (h : ResponseHeader) : Nat := (h.fields.find? fun f => f.Named).elim 0 Field.number

end ResponseHeader

/-- What stands in these fields behind the first fourteen characters. -/
def behind (fs : List Field) : List Byte := (lines (fs.map Field.line)).drop clLength

theorem exists_lines_concat {ls : List (List Byte)} (h : ls ≠ []) : ∃ x, lines ls = x ++ [LF] := by
  refine ⟨lines ls.dropLast ++ ls.getLast h ++ [CR], ?_⟩
  conv_lhs => rw [← List.dropLast_concat_getLast h]
  simp [lines, CRLF]

section

variable {statusLine : List Byte} {before after : List Field} {f : Field}

theorem exists_behind (after : List Field) (hf : StartsWith lower f.name) : ∃ name u,
    lines ((f :: after).map Field.line) = name ++ (u ++ [LF]) ∧ name.length = clLength ∧
      behind (f :: after) = u ++ [LF] := by
  have hne : (f :: after).map Field.line ≠ [] := by simp
  obtain ⟨x, hx⟩ := exists_lines_concat hne
  obtain ⟨name, v, hline, hname, -⟩ := Field.exists_split (Field.startsWith_line.mpr hf)
  have hlong : clLength ≤ x.length := by
    have := congrArg List.length hx
    rw [List.map_cons, lines_cons, hline] at this
    simp only [List.length_append, hname, CRLF, List.length_cons] at this
    omega
  refine ⟨x.take clLength, x.drop clLength, ?_, List.length_take_of_le hlong, ?_⟩
  · rw [← List.append_assoc, List.take_append_drop, hx]
  · rw [behind, hx, List.drop_append_of_le_length hlong]

/-- **The parser looks behind the first line that begins with `content-length`.** -/
theorem kiiParseContentLength_behind (hstatus : IsLine statusLine)
    (hproper : ∀ g ∈ before ++ f :: after, g.Proper)
    (hno : ∀ g ∈ before, ¬ StartsWith lower g.name) (hf : StartsWith lower f.name) :
    ∃ name u, name.length = clLength ∧ behind (f :: after) = u ++ [LF] ∧ ∀ rest,
      kiiParseContentLength w (lines (statusLine :: (before ++ f :: after).map Field.line) ++ rest) =
        value w (name ++ (u ++ [LF] ++ rest)) := by
  obtain ⟨name, u, hlines, hname, hbehind⟩ := exists_behind after hf
  refine ⟨name, u, hname, hbehind, fun rest => ?_⟩
  have hls : ∀ l ∈ before.map Field.line, IsLine l ∧ l ≠ [] := by
    intro l hl
    obtain ⟨g, hg, rfl⟩ := List.mem_map.mp hl
    exact ⟨(hproper g (List.mem_append_left _ hg)).isLine, g.line_ne_nil⟩
  have hnot : ∀ l ∈ before.map Field.line, ¬ StartsWith lower l := by
    intro l hl
    obtain ⟨g, hg, rfl⟩ := List.mem_map.mp hl
    exact mt Field.startsWith_line.mp (hno g hg)
  rw [List.map_append, List.map_cons, kiiParseContentLength_field rest hstatus hls hnot
    (hproper f (by simp)).isLine (Field.startsWith_line.mpr hf)]
  rw [List.map_cons, lines_cons] at hlines
  rw [← List.append_assoc, hlines, List.append_assoc]

end

/-! ## The field that is selected -/

/-- The field declares a number from 1 to 9999999999, behind one blank at most. -/
def Field.Declares (f : Field) : Prop :=
  ∃ blank n, f.value = blank ++ Decimal.text n ∧ blank.length ≤ 1 ∧ (∀ b ∈ blank, b = 32 ∨ b = 9) ∧
    1 ≤ n ∧ n ≤ 9999999999

/-- The text reads as the number: it shows it, or no number at all where this is 0. -/
def Reads (n : Nat) (u : List Byte) : Prop :=
  if n = 0 then ∀ b ∈ u.take 11, ¬ Figure b else Shows u (Decimal.text n)

theorem read_text (n : Nat) : Decimal.read 0 (Decimal.text n) = n := by
  have := Decimal.read_text n (s := []) (by simp)
  rwa [List.append_nil] at this

/-- Ten figures fit a `long` of 64 bits, and as the first one is not 0 they are those that would be
printed. -/
theorem Shows.value_64 {name u digits : List Byte} (h : Shows u digits)
    (hname : name.length = clLength) : KiiThing.value 64 (name ++ u) = Decimal.read 0 digits ∧
      digits = Decimal.text (Decimal.read 0 digits) ∧ Decimal.read 0 digits ≠ 0 := by
  obtain ⟨c, more, rfl, hlen, hc, hdigits⟩ := h.all_digits
  have hlt := Decimal.read_lt hdigits 0
  have hpow : 10 ^ (c :: more).length ≤ 10 ^ 10 :=
    Nat.pow_le_pow_right (by decide) (by simpa using Nat.lt_succ_of_le hlen)
  have htext := Decimal.text_read hdigits hc
  rw [h.value hname (by decide), Nat.mod_eq_of_lt (by omega)]
  refine ⟨rfl, htext.symm, fun h0 => ?_⟩
  rw [Decimal.read, if_pos (hdigits c List.mem_cons_self)] at h0
  have := le_read (0 * 10 + Decimal.digitOf c) more
  omega

/-- **With a `long` of 64 bits, ten figures are read as they stand there.** -/
theorem value_eq_iff {name u : List Byte} {n : Nat} (hname : name.length = clLength) :
    value 64 (name ++ u) = n ↔ Reads n u := by
  have hnone : (∀ b ∈ u.take 11, ¬ Figure b) ∨ ∃ digits, Shows u digits := by
    by_cases h : ∃ b ∈ u.take 11, Figure b
    · exact Or.inr (exists_shows_iff.mpr h)
    · exact Or.inl fun b hb hfigure => h ⟨b, hb, hfigure⟩
  unfold Reads
  rcases hnone with hnone | ⟨digits, h⟩
  · -- no figure is in reach, and 0 is read
    rw [value_of_none hname hnone]
    split
    · next h0 => exact iff_of_true h0.symm hnone
    · next h0 =>
      refine iff_of_false (Ne.symm h0) fun hshows => ?_
      obtain ⟨b, hb, hfigure⟩ := exists_shows_iff.mp ⟨_, hshows⟩
      exact hnone b hb hfigure
  · obtain ⟨hvalue, htext, hpos⟩ := h.value_64 hname
    split
    · next h0 =>
      refine iff_of_false (by rw [hvalue, h0]; exact hpos) fun hnone => ?_
      obtain ⟨b, hb, hfigure⟩ := exists_shows_iff.mp ⟨_, h⟩
      exact hnone b hb hfigure
    · constructor
      · intro heq
        rw [← heq, hvalue, ← htext]
        exact h
      · intro hshows
        rw [(hshows.value_64 hname).1, read_text]

section

variable {f : Field} {after : List Field}

theorem behind_named (h : f.Named) :
    behind (f :: after) = ascii ":" ++ f.value ++ CRLF ++ lines (after.map Field.line) := by
  rw [behind, List.map_cons, lines_cons, Field.line, ← h.length, List.append_assoc f.name,
    List.append_assoc f.name, List.append_assoc f.name, List.drop_left]

theorem Field.number_of_value {blanks digits trail : List Byte}
    (hvalue : f.value = blanks ++ digits ++ trail) (hblanks : ∀ b ∈ blanks, b = 32 ∨ b = 9)
    (hne : digits ≠ []) (hdigits : ∀ d ∈ digits, Decimal.isDigit d = true)
    (htrail : ∀ b ∈ trail, b = 32 ∨ b = 9) : f.number = Decimal.read 0 digits := by
  have hnot : ∀ d, Decimal.isDigit d = true → ¬ (d = 32 ∨ d = 9) := by
    rintro d hd (rfl | rfl) <;> cases hd
  have hstop : ∀ b, (b = 32 ∨ b = 9) → Decimal.isDigit b = false := by
    rintro b (rfl | rfl) <;> rfl
  obtain ⟨d, ds, rfl⟩ := List.exists_cons_of_ne_nil hne
  have hd := hnot d (hdigits d List.mem_cons_self)
  rw [number, hvalue, List.append_assoc, List.dropWhile_append_of_pos (by simpa using hblanks),
    List.cons_append, List.dropWhile_cons, if_neg (by simpa using hd), ← List.cons_append]
  exact Decimal.read_append hdigits (fun b hb => hstop b (htrail b (List.mem_of_mem_head? hb))) 0

/-- The number of a field that declares one is read. -/
theorem Field.Declares.reads (h : f.Declares) (hn : f.Named) (rest : List Byte) :
    Reads f.number (behind (f :: after) ++ rest) := by
  obtain ⟨blank, n, hvalue, hlen, hblank, hpos, hle⟩ := h
  have hnumber : f.number = n := by
    have hvalue' : f.value = blank ++ Decimal.text n ++ [] := by rw [hvalue, List.append_nil]
    rw [Field.number_of_value hvalue' hblank (by simp [Decimal.text, Decimal.digits_ne_nil])
      (fun _ => Decimal.isDigit_of_mem_text) (by simp), read_text]
  have hsplit : behind (f :: after) ++ rest =
      ascii ":" ++ blank ++ (Decimal.text n ++ (CRLF ++ (lines (after.map Field.line) ++ rest))) := by
    rw [behind_named hn, hvalue]
    simp
  have hsep : ∀ b ∈ ascii ":" ++ blank, ¬ Figure b := by
    rw [List.forall_mem_append]
    exact ⟨not_figure_colon, fun b hb => not_figure_of_blank (hblank b hb)⟩
  have hreach : (ascii ":" ++ blank).length ≤ 10 := by
    rw [List.length_append, show (ascii ":").length = 1 from rfl]
    omega
  have hcr := head_trail (List.forall_mem_nil _) (lines (after.map Field.line) ++ rest)
  rw [Reads, hnumber, if_neg (by omega), hsplit]
  exact shows_text hsep hreach (by omega) (by omega) hcr

end

namespace ResponseHeader

variable {h : ResponseHeader} {body : List Byte}

/-- The first field whose name begins with `content-length` decides. -/
theorem parse_eq_iff (hh : h.WellFormed) (hcl : ∀ f ∈ h.fields, f.Named → f.Declares)
    {before after : List Field} {f : Field} (hfields : h.fields = before ++ f :: after)
    (hno : ∀ g ∈ before, ¬ StartsWith lower g.name) (hf : StartsWith lower f.name) :
    kiiParseContentLength 64 (h.bytes ++ body) = h.declared ↔
      f.Named ∨ Reads h.declared (behind (f :: after) ++ (CRLF ++ body)) := by
  obtain ⟨name, u, hname, hbehind, hparse⟩ := kiiParseContentLength_behind (w := 64) hh.statusLine
    (hfields ▸ hh.fields) hno hf
  rw [bytes, List.append_assoc, hfields, hparse, hbehind, value_eq_iff hname, or_iff_right_of_imp]
  intro hn
  have hdeclared : h.declared = f.number := by
    have hnone : before.find? (fun g => g.Named) = none := by
      rw [List.find?_eq_none]
      intro g hg
      simpa using fun hgn : g.Named => hno g hg hgn.startsWith
    rw [declared, hfields, List.find?_append, hnone, Option.none_or, List.find?_cons_of_pos (by simpa)]
    rfl
  rw [hdeclared, ← hbehind]
  exact (hcl f (by simp [hfields]) hn).reads hn _

/-- **When the parser selects the content-length field.** -/
theorem selects_iff (hh : h.WellFormed) (hcl : ∀ f ∈ h.fields, f.Named → f.Declares) :
    kiiParseContentLength 64 (h.bytes ++ body) = h.declared ↔
      ∀ before f after, h.fields = before ++ f :: after →
        (∀ g ∈ before, ¬ StartsWith lower g.name) → StartsWith lower f.name →
          f.Named ∨ Reads h.declared (behind (f :: after) ++ (CRLF ++ body)) := by
  constructor
  · intro heq before f after hfields hno hf
    exact (parse_eq_iff hh hcl hfields hno hf).mp heq
  · intro hall
    cases hfind : h.fields.find? fun f => StartsWith lower f.name with
    | some f =>
      obtain ⟨hf, before, after, hfields, hno⟩ := List.find?_eq_some_iff_append.mp hfind
      have hno' : ∀ g ∈ before, ¬ StartsWith lower g.name := fun g hg => by simpa using hno g hg
      exact (parse_eq_iff hh hcl hfields hno' (by simpa using hf)).mpr
        (hall before f after hfields hno' (by simpa using hf))
    | none =>
      -- no line begins so, and no field has the name
      have hno : ∀ f ∈ h.fields, ¬ StartsWith lower f.name := by
        simpa using List.find?_eq_none.mp hfind
      have hdeclared : h.declared = 0 := by
        have hnone : h.fields.find? (fun f => f.Named) = none := by
          rw [List.find?_eq_none]
          intro f hf
          simpa using fun hn : f.Named => hno f hf hn.startsWith
        rw [declared, hnone]
        rfl
      rw [hdeclared, bytes]
      apply kiiParseContentLength_no_field body hh.statusLine
      · intro l hl
        obtain ⟨f, hf, rfl⟩ := List.mem_map.mp hl
        exact ⟨(hh.fields f hf).isLine, f.line_ne_nil⟩
      · intro l hl
        obtain ⟨f, hf, rfl⟩ := List.mem_map.mp hl
        exact mt Field.startsWith_line.mp (hno f hf)

end ResponseHeader

/-- `Content-Length: 176`. -/
def contentLength176 : Field := ⟨ascii "Content-Length", ascii " 176"⟩

theorem contentLength176_declares : contentLength176.Declares :=
  ⟨[32], 176, by decide, by decide, by decide, by decide, by decide⟩

theorem contentLength176_proper : contentLength176.Proper := ⟨by decide, by decide⟩

/-- A field of another name in front, and one that merely begins like it behind. -/
def surrounded : ResponseHeader :=
  ⟨ascii "HTTP/1.1 200 OK", [⟨ascii "Server", ascii " x"⟩, contentLength176,
    ⟨ascii "Content-Length-Hint", ascii " 7"⟩]⟩

theorem selects_iff_of_single :
    kiiParseContentLength 64 (surrounded.bytes ++ ascii "Body") = surrounded.declared ∧
      surrounded.declared = 176 := by
  refine ⟨(ResponseHeader.selects_iff ⟨by decide, ?_⟩ ?_).mpr ?_, by decide⟩
  · simpa [surrounded] using
      ⟨⟨by decide, by decide⟩, contentLength176_proper, ⟨by decide, by decide⟩⟩
  · simpa [surrounded] using ⟨fun h => absurd h (by decide), fun _ => contentLength176_declares,
      fun h => absurd h (by decide)⟩
  · intro before f after hfields hno hf
    left
    cases before with
    | nil =>
      obtain ⟨rfl, -⟩ := List.cons.inj hfields
      exact absurd hf (by decide)
    | cons g before =>
      cases before with
      | nil =>
        obtain ⟨-, hrest⟩ := List.cons.inj hfields
        obtain ⟨rfl, -⟩ := List.cons.inj hrest
        decide
      | cons g' before =>
        -- the look-alike comes behind a field that begins so
        obtain ⟨-, hrest⟩ := List.cons.inj hfields
        obtain ⟨rfl, -⟩ := List.cons.inj hrest
        exact absurd (by decide) (hno contentLength176 (by simp))

/-- A field whose name merely begins with `content-length`, before the other one. -/
def lookAlike : ResponseHeader :=
  ⟨ascii "HTTP/1.1 200 OK", [⟨ascii "Content-Length-Hint", ascii " 7"⟩, contentLength176]⟩

/-- Its number is taken. -/
theorem selects_fails :
    lookAlike.WellFormed ∧ (∀ f ∈ lookAlike.fields, f.Named → f.Declares) ∧
      lookAlike.declared = 176 ∧
      kiiParseContentLength 64 (lookAlike.bytes ++ ascii "Body") ≠ lookAlike.declared := by
  refine ⟨⟨by decide, ?_⟩, ?_, by decide, by decide⟩
  · simpa [lookAlike] using ⟨⟨by decide, by decide⟩, contentLength176_proper⟩
  · simpa [lookAlike] using ⟨fun h => absurd h (by decide), fun _ => contentLength176_declares⟩

end KiiThing

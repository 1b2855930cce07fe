import KiiThing.Core.Selection

/-!
# What the content length depends on

A response begins with its status line and its fields up to the first content-length field
(`Opening`). The search for a number does not stop at the end of that field: a value that is 0, in
fewer than eight characters, is followed by the next line, or by the body. `local_iff` says when the
number that is read depends on the opening alone.
-/

namespace KiiThing

open Http

variable {w : Nat}

/-- The value is a decimal number, with blanks on both sides. -/
def Field.IsDecimal (f : Field) : Prop :=
  ∃ blanks digits trail, f.value = blanks ++ digits ++ trail ∧ digits ≠ [] ∧
    (∀ b ∈ blanks, b = 32 ∨ b = 9) ∧ (∀ d ∈ digits, Decimal.isDigit d = true) ∧
    ∀ b ∈ trail, b = 32 ∨ b = 9

theorem read_eq_zero_iff {ds : List Byte} (hds : ∀ d ∈ ds, Decimal.isDigit d = true) :
    Decimal.read 0 ds = 0 ↔ ∀ d ∈ ds, ¬ Figure d := by
  induction ds with
  | nil => simp [Decimal.read]
  | cons d ds ih =>
    have hd := hds d List.mem_cons_self
    have hle := le_read (0 * 10 + Decimal.digitOf d) ds
    rw [Decimal.read, if_pos hd, List.forall_mem_cons, ← ih fun e he => hds e (List.mem_cons_of_mem _ he),
      figure_iff]
    by_cases h0 : Decimal.digitOf d = 0
    · simp [h0]
    · exact iff_of_false (by omega) fun h => h.1 ⟨hd, h0⟩

/-- A value is 0 when it has no figure from 1 to 9. -/
theorem Field.IsDecimal.number_eq_zero_iff {f : Field} (h : f.IsDecimal) :
    f.number = 0 ↔ ∀ b ∈ f.value, ¬ Figure b := by
  obtain ⟨blanks, digits, trail, hvalue, hne, hblanks, hdigits, htrail⟩ := h
  rw [Field.number_of_value hvalue hblanks hne hdigits htrail, read_eq_zero_iff hdigits, hvalue]
  simp only [List.forall_mem_append]
  exact ⟨fun h => ⟨⟨fun b hb => not_figure_of_blank (hblanks b hb), h⟩,
    fun b hb => not_figure_of_blank (htrail b hb)⟩, fun h => h.1.2⟩

theorem Field.IsDecimal.not_figure_of_zero {f : Field} (h : f.IsDecimal) (h0 : f.number = 0) :
    ∀ b ∈ ascii ":" ++ f.value ++ CRLF, ¬ Figure b := by
  rw [List.forall_mem_append, List.forall_mem_append]
  exact ⟨⟨not_figure_colon, h.number_eq_zero_iff.mp h0⟩, not_figure_crlf⟩

/-- A response up to the line end of its first content-length field. -/
structure Opening where
  statusLine : List Byte
  before : List Field
  field : Field

namespace Opening

/-- The opening on the wire. -/
def bytes (o : Opening) : List Byte :=
  lines (o.statusLine :: (o.before ++ [o.field]).map Field.line)

structure WellFormed (o : Opening) : Prop where
  statusLine : IsLine o.statusLine
  proper : ∀ f ∈ o.before ++ [o.field], f.Proper
  first : ∀ f ∈ o.before, ¬ f.Named
  named : o.field.Named
  decimal : o.field.IsDecimal

/-- What the parser looks at: the text behind the first `content-length` that begins a line. -/
def shown (o : Opening) : List Byte :=
  behind ((o.before ++ [o.field]).dropWhile fun f => ¬ StartsWith lower f.name)

/-- What follows an opening: more fields, the empty line and the body. -/
def tail (after : List Field) (body : List Byte) : List Byte :=
  lines (after.map Field.line) ++ CRLF ++ body

/-- The number that is read depends on the opening alone, and it is 0 when the field says so. -/
def Local (w : Nat) (o : Opening) : Prop :=
  (∀ after body after' body', (∀ f ∈ after, f.Proper) → (∀ f ∈ after', f.Proper) →
    kiiParseContentLength w (o.bytes ++ tail after body) =
      kiiParseContentLength w (o.bytes ++ tail after' body')) ∧
  (o.field.number = 0 → ∀ after body, (∀ f ∈ after, f.Proper) →
    kiiParseContentLength w (o.bytes ++ tail after body) = 0)

variable {o : Opening}

theorem length_le_lines {l : List Byte} {ls : List (List Byte)} (h : l ∈ ls) :
    l.length + 2 ≤ (lines ls).length := by
  induction ls with
  | nil => simp at h
  | cons m ls ih =>
    rw [lines_cons, List.length_append, List.length_append, show CRLF.length = 2 from rfl]
    rcases List.mem_cons.mp h with rfl | h
    · omega
    · have := ih h
      omega

/-- Where another line comes first, the parser looks at all of that of the content-length field. -/
theorem le_length_behind {before after : List Field} {f : Field} (hn : o.field.Named)
    (hsplit : o.before ++ [o.field] = before ++ f :: after) (hf : StartsWith lower f.name)
    (hafter : after ≠ []) : 11 ≤ (behind (f :: after)).length := by
  have hmem : o.field ∈ after := by
    have hlast := congrArg List.getLast? hsplit
    rw [List.getLast?_concat, List.getLast?_append, List.getLast?_cons_of_ne_nil hafter,
      List.getLast?_eq_some_getLast hafter, Option.some_or, Option.some.injEq] at hlast
    exact hlast ▸ List.getLast_mem hafter
  have hlines := length_le_lines (List.mem_map_of_mem (f := Field.line) hmem)
  have hfield : clLength ≤ o.field.line.length := by
    rw [Field.line, List.length_append, List.length_append, hn.length]
    omega
  have hfirst := hf.length_le
  have hline : f.name.length ≤ f.line.length := by
    rw [Field.line, List.append_assoc, List.length_append]
    omega
  rw [List.length_map, show lower.length = 14 from rfl] at hfirst
  rw [behind, List.map_cons, lines_cons, List.length_drop, List.length_append, List.length_append,
    show CRLF.length = 2 from rfl, show clLength = 14 from rfl]
  rw [show clLength = 14 from rfl] at hfield
  omega

/-- **The parser on what begins with the opening.** -/
theorem WellFormed.parse (ho : o.WellFormed) : ∃ name u, name.length = clLength ∧
    o.shown = u ++ [LF] ∧ (o.shown.length < 11 → o.shown = ascii ":" ++ o.field.value ++ CRLF) ∧
    ∀ rest, kiiParseContentLength w (o.bytes ++ rest) = value w (name ++ (u ++ [LF] ++ rest)) := by
  obtain ⟨fs, hfs⟩ : ∃ fs, fs = (o.before ++ [o.field]).dropWhile
      fun f => ¬ StartsWith lower f.name := ⟨_, rfl⟩
  obtain ⟨before, hbefore⟩ : ∃ before, before = (o.before ++ [o.field]).takeWhile
      fun f => ¬ StartsWith lower f.name := ⟨_, rfl⟩
  have hsplit : o.before ++ [o.field] = before ++ fs := by
    rw [hfs, hbefore, List.takeWhile_append_dropWhile]
  have hno : ∀ g ∈ before, ¬ StartsWith lower g.name := by
    intro g hg
    rw [hbefore] at hg
    simpa using List.mem_takeWhile_imp hg
  cases fs with
  | nil =>
    -- the content-length field itself begins so
    have hmem : o.field ∈ before := by
      rw [List.append_nil] at hsplit
      exact hsplit ▸ List.mem_append_right _ List.mem_cons_self
    exact absurd ho.named.startsWith (hno _ hmem)
  | cons f after =>
    have hf : StartsWith lower f.name := by
      have hnot := List.head?_dropWhile_not (fun f => decide ¬ StartsWith lower f.name)
        (o.before ++ [o.field])
      rw [← hfs] at hnot
      simpa using hnot
    obtain ⟨name, u, hname, hbehind, hparse⟩ := kiiParseContentLength_behind (w := w) ho.statusLine
      (hsplit ▸ ho.proper) hno hf
    have hshown : o.shown = behind (f :: after) := by rw [shown, ← hfs]
    refine ⟨name, u, hname, hshown.trans hbehind, fun hshort => ?_, fun rest => ?_⟩
    · cases after with
      | nil =>
        obtain ⟨-, hlast⟩ := List.append_inj' hsplit rfl
        rw [hshown, ← List.singleton_inj.mp hlast, behind_named ho.named, List.map_nil, lines_nil,
          List.append_nil]
      | cons g after =>
        have := le_length_behind ho.named hsplit hf (List.cons_ne_nil _ _)
        rw [hshown] at hshort
        omega
    · rw [bytes, hsplit, hparse]

/-- A text in which the search ends: it shows a number, or it is long enough. -/
theorem WellFormed.settled (ho : o.WellFormed) (h : o.field.number ≠ 0 ∨ 11 ≤ o.shown.length) :
    (∃ digits, Shows o.shown digits) ∨ 11 ≤ o.shown.length := by
  by_contra hnone
  rw [not_or, exists_shows_iff] at hnone
  obtain ⟨hfigure, hshort⟩ := hnone
  obtain ⟨name, u, -, -, hfield, -⟩ := ho.parse (w := 32)
  have hshown := hfield (Nat.not_le.mp hshort)
  rcases h with hpos | hlong
  · apply hpos
    rw [ho.decimal.number_eq_zero_iff]
    intro b hb hb'
    refine hfigure ⟨b, ?_, hb'⟩
    rw [List.take_of_length_le (by omega), hshown]
    simp [hb]
  · exact hshort hlong

/-- **A number that the opening shows is read**, whatever follows. -/
theorem WellFormed.parse_of_shows (ho : o.WellFormed) (hw : 16 ≤ w) {digits : List Byte}
    (h : Shows o.shown digits) (rest : List Byte) :
    kiiParseContentLength w (o.bytes ++ rest) = Decimal.read 0 digits % 2 ^ w := by
  obtain ⟨name, u, hname, hshown, -, hparse⟩ := ho.parse (w := w)
  rw [hshown] at h
  rw [hparse, (h.append rfl rest).value hname hw]

/-- Where it shows none and is long enough, the number is 0. -/
theorem WellFormed.parse_of_long (ho : o.WellFormed) (h : ¬ ∃ digits, Shows o.shown digits)
    (hlong : 11 ≤ o.shown.length) (rest : List Byte) :
    kiiParseContentLength w (o.bytes ++ rest) = 0 := by
  obtain ⟨name, u, hname, hshown, -, hparse⟩ := ho.parse (w := w)
  rw [hshown] at h hlong
  rw [hparse]
  apply value_of_none hname
  intro b hb hfigure
  rw [List.take_append_of_le_length hlong] at hb
  exact h (exists_shows_iff.mpr ⟨b, hb, hfigure⟩)

/-- A field `1:` behind a value that is 0, in reach. -/
theorem WellFormed.parse_one (ho : o.WellFormed) (hw : 16 ≤ w) (h0 : o.field.number = 0)
    (hshort : o.shown.length < 11) :
    kiiParseContentLength w (o.bytes ++ tail [⟨ascii "1", []⟩] []) = 1 := by
  obtain ⟨name, u, hname, hshown, hfield, hparse⟩ := ho.parse (w := w)
  have hnone : ∀ b ∈ u ++ [LF], ¬ Figure b := by
    rw [← hshown, hfield hshort]
    exact ho.decimal.not_figure_of_zero h0
  have hmore : ∀ d ∈ ([] : List Byte), Decimal.isDigit d = true := by simp
  have hshows : Shows (u ++ [LF] ++ tail [⟨ascii "1", []⟩] []) [49] :=
    Shows.intro hnone (by rw [← hshown]; omega) (by decide) hmore
      (Or.inr ⟨by decide, by decide +kernel⟩)
  have hlt : 1 < 2 ^ w := Nat.one_lt_two_pow (by omega)
  rw [hparse, hshows.value hname hw]
  exact Nat.mod_eq_of_lt hlt

/-- **When the number that is read depends on the opening alone.** -/
theorem local_iff (ho : o.WellFormed) (hw : 16 ≤ w) : o.Local w ↔ o.field.number ≠ 0 ∨
    11 ≤ o.shown.length ∧ ∀ digits, Shows o.shown digits → 2 ^ w ∣ Decimal.read 0 digits := by
  constructor
  · rintro ⟨-, hzero⟩
    by_cases h0 : o.field.number = 0
    case neg => exact Or.inl h0
    case pos =>
      right
      have hlong : 11 ≤ o.shown.length := by
        by_contra hshort
        have hone := ho.parse_one hw h0 (Nat.not_le.mp hshort)
        have hproper : ∀ f ∈ [(⟨ascii "1", []⟩ : Field)], f.Proper := by
          simpa using ⟨by decide, by decide⟩
        rw [hzero h0 _ _ hproper] at hone
        cases hone
      refine ⟨hlong, fun digits hdigits => Nat.dvd_of_mod_eq_zero ?_⟩
      rw [← ho.parse_of_shows hw hdigits (tail [] [])]
      exact hzero h0 [] [] (by simp)
  · intro h
    by_cases hshows : ∃ digits, Shows o.shown digits
    · obtain ⟨digits, hdigits⟩ := hshows
      have hparse := ho.parse_of_shows hw hdigits
      refine ⟨fun _ _ _ _ _ _ => by rw [hparse, hparse], fun h0 _ _ _ => ?_⟩
      rw [hparse]
      exact Nat.mod_eq_zero_of_dvd ((h.resolve_left (not_not.mpr h0)).2 digits hdigits)
    · have hlong := (ho.settled (h.imp_right And.left)).resolve_left hshows
      have hparse := ho.parse_of_long (w := w) hshows hlong
      exact ⟨fun _ _ _ _ _ _ => by rw [hparse, hparse], fun _ _ _ _ => hparse _⟩

end Opening

/-- `Content-Length: 5`. -/
def openingFive : Opening := ⟨ascii "HTTP/1.1 200 OK", [], ⟨ascii "Content-Length", ascii " 5"⟩⟩

theorem openingFive_wellFormed : openingFive.WellFormed where
  statusLine := by decide
  proper := by simpa [openingFive] using ⟨by decide, by decide⟩
  first := by simp [openingFive]
  named := by decide
  decimal := ⟨[32], [53], [], by decide, by simp, by decide, by decide, by simp⟩

theorem openingFive_local : openingFive.Local 64 :=
  (Opening.local_iff openingFive_wellFormed (by decide)).mpr (Or.inl (by decide))

/-- `Content-Length: 0`. -/
def openingZero : Opening := ⟨ascii "HTTP/1.1 200 OK", [], ⟨ascii "Content-Length", ascii " 0"⟩⟩

theorem openingZero_wellFormed : openingZero.WellFormed where
  statusLine := by decide
  proper := by simpa [openingZero] using ⟨by decide, by decide⟩
  first := by simp [openingZero]
  named := by decide
  decimal := ⟨[32], [48], [], by decide, by simp, by decide, by decide, by simp⟩

/-- The first byte of the body is read for it. -/
theorem openingZero_not_local : openingZero.WellFormed ∧ ¬ openingZero.Local 64 := by
  refine ⟨openingZero_wellFormed, fun h => ?_⟩
  have hbody := h.2 (by decide) [] (ascii "7") (by simp)
  exact absurd hbody (by decide)

end KiiThing

import KiiThing.Core.Selection

/-!
# What the content-length parser looks at

The functions of `Core/ContentLength` once more, now for the positions of the characters that they
examine. `skip` and `check` stop at the NUL that ends the text, as the second loop of `value` does,
while its search for a figure counts characters only. `staysInside_iff` says for which texts nothing
behind the NUL is examined, and `independent_iff` that these are the texts for which nothing behind it
has an influence on the result.
-/

namespace KiiThing

open Http

/-! ## The characters that are examined -/

/-- `skip`, called with a pointer to position `p`, behind which there is the text `header`. -/
def examinedSkip : Nat → List Byte → List Nat
  | p, [] => [p]
  | p, c :: header =>
    if c = 0 then [p]
    else if c = CR then
      if header.headD 0 = LF then
        -- the last character is only looked at behind a third one that matches
        if header.tail.headD 0 = CR then [p, p + 1, p + 2, p + 3] else [p, p + 1, p + 2]
      else p :: (p + 1) :: examinedSkip (p + 1) header
    else p :: examinedSkip (p + 1) header

/-- The loop of `check`. -/
def examinedCheck : Nat → List Byte → List Byte → List Byte → List Nat
  | p, l :: lower, u :: upper, header =>
    p :: if header.headD 0 = l ∨ header.headD 0 = u then
      examinedCheck (p + 1) lower upper header.tail else []
  | _, _, _, _ => []

/-- The search loop of `value`. -/
def examinedSearch : Nat → Nat → List Byte → List Nat
  | _, 0, _ => []
  | p, n + 1, header =>
    p :: if Figure (header.headD 0) then [] else examinedSearch (p + 1) n header.tail

/-- The second loop of `value`. -/
def examinedFigures : Nat → Nat → List Byte → List Nat
  | _, 0, _ => []
  | p, n + 1, header =>
    p :: if Decimal.isDigit (header.headD 0) then examinedFigures (p + 1) n header.tail else []

/-- `value`. -/
def examinedValue (p : Nat) (header : List Byte) : List Nat :=
  let start := header.drop clLength
  examinedSearch (p + clLength) 11 start ++
    match searchFigure 11 start with
    | some (_ :: next) => examinedFigures (p + clLength + (start.length - next.length)) 9 next
    | _ => []

/-- The `while(1)` of `kii_parse_content_length`. -/
def examinedLines : Nat → Nat → List Byte → List Nat
  | 0, _, _ => []
  | fuel + 1, p, next =>
    examinedSkip p next ++
      match skip next with
      | none => []
      | some header =>
        let q := p + (next.length - header.length)
        examinedCheck q lower upper header ++
          if check header then examinedValue q header else examinedLines fuel q header

/-- `kii_parse_content_length`. -/
def examined (buffer : List Byte) : List Nat := examinedLines buffer.length 0 buffer

/-- In a buffer that holds the text, its NUL and anything behind it, no character behind the NUL is
examined. -/
def StaysInside (text beyond : List Byte) : Prop :=
  ∀ i ∈ examined (text ++ 0 :: beyond), i ≤ text.length

instance (text beyond : List Byte) : Decidable (StaysInside text beyond) :=
  inferInstanceAs (Decidable (∀ i ∈ examined (text ++ 0 :: beyond), i ≤ text.length))

/-- The first header line that begins with `content-length`, in any mix of letter case: `u` is what
stands behind these characters. -/
inductive FirstLength : List Byte → List Byte → Prop
  | here {l name u : List Byte} (hl : IsLine l) (hname : name.map toLower = lower) :
      FirstLength (l ++ CRLF ++ (name ++ u)) u
  | later {l t u : List Byte} (hl : IsLine l) (hmore : ¬ CRLF <+: t) (hno : ¬ StartsWith lower t)
      (h : FirstLength t u) : FirstLength (l ++ CRLF ++ t) u

/-- Behind the name there is a figure from 1 to 9, or as many characters as the search looks at. -/
def Settled (u : List Byte) : Prop := 10 ≤ u.length ∨ ∃ c ∈ u, Figure c

section

variable {p n i : Nat} {t u beyond name : List Byte}

/-! ## The walks -/

theorem examinedSkip_le (h0 : 0 ∉ t) (hi : i ∈ examinedSkip p (t ++ 0 :: beyond)) :
    i ≤ p + t.length := by
  induction t generalizing p with
  | nil => exact Nat.le_of_eq (by simpa [examinedSkip] using hi)
  | cons c t ih =>
    have hc : c ≠ 0 := fun h => h0 (by simp [h])
    have hrec := ih (p := p + 1) (fun h => h0 (List.mem_cons_of_mem _ h))
    rw [List.length_cons]
    rw [List.cons_append, examinedSkip, if_neg hc] at hi
    split at hi
    · split at hi
      · next hLF =>
        -- the line end, and what follows it
        cases t with
        | nil => cases hLF
        | cons d t =>
          rw [List.cons_append, List.tail_cons] at hi
          rw [List.length_cons]
          split at hi
          · next hCR =>
            cases t with
            | nil => cases hCR
            | cons e t => simp at hi ⊢; omega
          · simp at hi
            omega
      · simp at hi
        rcases hi with rfl | rfl | hi
        · omega
        · omega
        · have := hrec hi
          omega
    · rcases List.mem_cons.mp hi with rfl | hi
      · omega
      · have := hrec hi
        omega

theorem examinedCheck_le {lo up : List Byte} (hlo : 0 ∉ lo) (hup : 0 ∉ up) (h0 : 0 ∉ t)
    (hi : i ∈ examinedCheck p lo up (t ++ 0 :: beyond)) : i ≤ p + t.length := by
  induction lo generalizing up t p with
  | nil => cases hi
  | cons l lo ih =>
    cases up with
    | nil => cases hi
    | cons v up =>
      rcases List.mem_cons.mp hi with rfl | hi
      · omega
      · split at hi
        · next hmatch =>
          cases t with
          | nil =>
            -- the NUL is no character of the name
            rcases hmatch with rfl | rfl
            · exact absurd List.mem_cons_self hlo
            · exact absurd List.mem_cons_self hup
          | cons c t =>
            have hrec := ih (fun h => hlo (List.mem_cons_of_mem _ h))
              (fun h => hup (List.mem_cons_of_mem _ h)) (fun h => h0 (List.mem_cons_of_mem _ h)) hi
            rw [List.length_cons]
            omega
        · cases hi

theorem examinedFigures_le (hi : i ∈ examinedFigures p n (t ++ 0 :: beyond)) :
    i ≤ p + t.length := by
  induction t generalizing p n with
  | nil =>
    cases n with
    | zero => cases hi
    | succ n => exact Nat.le_of_eq (by simpa [examinedFigures, Decimal.isDigit] using hi)
  | cons c t ih =>
    cases n with
    | zero => cases hi
    | succ n =>
      rw [List.length_cons]
      rcases List.mem_cons.mp hi with rfl | hi
      · omega
      · split at hi
        · have hrec := ih hi
          omega
        · cases hi

/-- The search stays inside when it ends there. -/
theorem examinedSearch_le (h : n ≤ t.length + 1 ∨ ∃ c ∈ t, Figure c)
    (hi : i ∈ examinedSearch p n (t ++ 0 :: beyond)) : i ≤ p + t.length := by
  induction t generalizing p n with
  | nil =>
    have hn : n ≤ 1 := h.resolve_right (by simp)
    match n, hn with
    | 0, _ => cases hi
    | 1, _ => exact Nat.le_of_eq (by simpa [examinedSearch] using hi)
  | cons c t ih =>
    cases n with
    | zero => cases hi
    | succ n =>
      rw [List.length_cons] at h ⊢
      rcases List.mem_cons.mp hi with rfl | hi
      · omega
      · split at hi
        · cases hi
        · next hc =>
          have hrec := ih (p := p + 1) (n := n) (h.imp (by omega) ?_) hi
          · omega
          · rintro ⟨d, hd, hfigure⟩
            rcases List.mem_cons.mp hd with rfl | hd
            · exact absurd hfigure hc
            · exact ⟨d, hd, hfigure⟩

/-- It runs over the end of a shorter text without figures. -/
theorem mem_examinedSearch (hn : t.length + 1 < n) (hnone : ∀ c ∈ t, ¬ Figure c) :
    p + t.length + 1 ∈ examinedSearch p n (t ++ 0 :: beyond) := by
  induction t generalizing p n with
  | nil =>
    obtain ⟨n, rfl⟩ : ∃ m, n = m + 2 := ⟨n - 2, by simp at hn; omega⟩
    simp [examinedSearch, Figure]
  | cons c t ih =>
    rw [List.length_cons] at hn ⊢
    obtain ⟨n, rfl⟩ : ∃ m, n = m + 1 := ⟨n - 1, by omega⟩
    have hrec := ih (p := p + 1) (n := n) (by omega) fun d hd => hnone d (List.mem_cons_of_mem _ hd)
    rw [List.cons_append, examinedSearch, List.headD_cons, if_neg (hnone c List.mem_cons_self)]
    apply List.mem_cons_of_mem
    rwa [List.tail_cons, ← Nat.add_assoc, Nat.add_right_comm p t.length 1]

/-- No figure is found behind the end of a text that is long enough. -/
theorem not_figure_of_settled (hu : Settled u) (hnone : ¬ ∃ b ∈ u.take 11, Figure b) :
    ∀ b ∈ (u ++ 0 :: beyond).take 11, ¬ Figure b := by
  have hlong : 10 ≤ u.length := by
    rcases hu with hlong | ⟨c, hc, hfigure⟩
    · exact hlong
    · by_contra hshort
      rw [List.take_of_length_le (by omega)] at hnone
      exact hnone ⟨c, hc, hfigure⟩
  intro b hb hfigure
  rw [List.take_append, List.mem_append] at hb
  rcases hb with hb | hb
  · exact hnone ⟨b, hb, hfigure⟩
  · -- one more character at most, which is the NUL
    obtain hn | hn : 11 - u.length = 0 ∨ 11 - u.length = 1 := by omega
    · rw [hn] at hb
      cases hb
    · rw [hn] at hb
      obtain rfl := List.mem_singleton.mp hb
      exact absurd hfigure (by decide)

/-- **`value` stays inside** exactly when its search is settled by the text. -/
theorem examinedValue_inside_iff (hname : name.length = clLength) :
    (∀ i ∈ examinedValue p (name ++ (u ++ 0 :: beyond)), i ≤ p + clLength + u.length) ↔
      Settled u := by
  have hdrop : (name ++ (u ++ 0 :: beyond)).drop clLength = u ++ 0 :: beyond := by
    rw [← hname, List.drop_left]
  rw [examinedValue, hdrop]
  constructor
  · intro h
    by_contra hnot
    rw [Settled, not_or, Nat.not_le] at hnot
    obtain ⟨hshort, hnone⟩ := hnot
    have hbeyond : p + clLength + u.length + 1 ≤ p + clLength + u.length := by
      apply h
      apply List.mem_append_left
      apply mem_examinedSearch
      · omega
      · simpa using hnone
    omega
  · intro hu i hi
    rcases List.mem_append.mp hi with hi | hi
    · exact examinedSearch_le (hu.imp_left Nat.succ_le_succ) hi
    · by_cases hfigure : ∃ b ∈ u.take 11, Figure b
      · obtain ⟨sep, c, rest, rfl, hsep, hlt, hc⟩ := exists_first_figure hfigure
        have hfound : searchFigure 11 (sep ++ c :: rest ++ 0 :: beyond) =
            some (c :: (rest ++ 0 :: beyond)) := by
          rw [List.append_assoc, List.cons_append]
          exact searchFigure_skip hsep hlt hc _
        rw [hfound] at hi
        have hle := examinedFigures_le hi
        simp only [List.length_append, List.length_cons] at hle ⊢
        omega
      · rw [searchFigure_none (not_figure_of_settled hu hfigure)] at hi
        cases hi

/-! ## The lines -/

theorem skip_of_isLine (hl : IsLine t) : skip (t ++ 0 :: beyond) = none := by
  induction t with
  | nil => rfl
  | cons c t ih =>
    have hc : c ≠ 0 := fun h => hl.noNul (by simp [h])
    have hend : ¬ (c = CR ∧ (t ++ 0 :: beyond).headD 0 = LF) := by
      rintro ⟨rfl, hLF⟩
      cases t with
      | nil => cases hLF
      | cons d t =>
        obtain rfl : d = LF := hLF
        exact hl.noCRLF (List.prefix_append CRLF t).isInfix
    rw [List.cons_append, skip, if_neg hc, if_neg hend]
    exact ih hl.tail

theorem crlf_prefix_nul_iff : CRLF <+: t ++ 0 :: beyond ↔ CRLF <+: t :=
  ⟨prefix_of_prefix_append_cons (by decide), fun h => h.trans (List.prefix_append ..)⟩

theorem startsWith_nul_iff : StartsWith lower (t ++ 0 :: beyond) ↔ StartsWith lower t := by
  rw [StartsWith, StartsWith, List.map_append, List.map_cons]
  exact ⟨prefix_of_prefix_append_cons (by decide), fun h => h.trans (List.prefix_append ..)⟩

/-- The first line of a text is passed over. -/
theorem firstLength_iff {l : List Byte} (hl : IsLine l) : FirstLength (l ++ CRLF ++ t) u ↔
    ¬ CRLF <+: t ∧ ((∃ name, t = name ++ u ∧ name.map toLower = lower) ∨
      ¬ StartsWith lower t ∧ FirstLength t u) := by
  constructor
  · intro h
    generalize htext : l ++ CRLF ++ t = text at h
    cases h with
    | @here _ name _ hl' hname =>
      obtain ⟨-, rfl⟩ := hl.append_inj hl' htext
      refine ⟨fun hend => ?_, Or.inl ⟨name, rfl, hname⟩⟩
      cases name with
      | nil => cases hname
      | cons c name =>
        -- the name does not begin with a line end
        rw [CRLF, List.cons_append, List.cons_prefix_cons] at hend
        rw [← hend.1] at hname
        cases hname
    | later hl' hmore hno h =>
      obtain ⟨-, rfl⟩ := hl.append_inj hl' htext
      exact ⟨hmore, Or.inr ⟨hno, h⟩⟩
  · rintro ⟨hmore, ⟨name, rfl, hname⟩ | ⟨hno, h⟩⟩
    · exact FirstLength.here hl hname
    · exact FirstLength.later hl hmore hno h

/-- One round of the line loop, on a text with a first line. -/
theorem examinedLines_line {l : List Byte} {fuel : Nat} (hl : IsLine l) :
    examinedLines (fuel + 1) p (l ++ CRLF ++ t ++ 0 :: beyond) =
      examinedSkip p (l ++ CRLF ++ t ++ 0 :: beyond) ++
        if CRLF <+: t then [] else
          examinedCheck (p + l.length + 2) lower upper (t ++ 0 :: beyond) ++
            if StartsWith lower t then examinedValue (p + l.length + 2) (t ++ 0 :: beyond)
            else examinedLines fuel (p + l.length + 2) (t ++ 0 :: beyond) := by
  have hpos : p + ((l ++ CRLF ++ (t ++ 0 :: beyond)).length - (t ++ 0 :: beyond).length) =
      p + l.length + 2 := by
    rw [List.length_append, Nat.add_sub_cancel, List.length_append]
    rfl
  rw [List.append_assoc (l ++ CRLF), examinedLines, skip_line hl]
  by_cases hend : CRLF <+: t
  · have hend' : CRLF.isPrefixOf (t ++ 0 :: beyond) = true :=
      List.isPrefixOf_iff_prefix.mpr (crlf_prefix_nul_iff.mpr hend)
    simp only [if_pos hend, if_pos hend']
  · have hend' : ¬ CRLF.isPrefixOf (t ++ 0 :: beyond) = true := by
      rwa [List.isPrefixOf_iff_prefix, crlf_prefix_nul_iff]
    simp only [if_neg hend, if_neg hend', hpos, check_eq, startsWith_nul_iff]

/-- **What the line loop examines** stays inside exactly when the search behind the first
content-length does. -/
theorem examinedLines_inside_iff {fuel : Nat} (h0 : 0 ∉ t) (hfuel : t.length < fuel) :
    (∀ i ∈ examinedLines fuel p (t ++ 0 :: beyond), i ≤ p + t.length) ↔
      ∀ u, FirstLength t u → Settled u := by
  induction fuel generalizing p t with
  | zero => exact absurd hfuel (Nat.not_lt_zero _)
  | succ fuel ih =>
    have hskip : ∀ i ∈ examinedSkip p (t ++ 0 :: beyond), i ≤ p + t.length :=
      fun _ => examinedSkip_le h0
    rcases exists_line h0 with hl | ⟨l, t, rfl, hl⟩
    · -- no line end: there is no header line behind this one
      rw [examinedLines, skip_of_isLine hl, List.append_nil]
      refine iff_of_true hskip fun u h => absurd ?_ hl.noCRLF
      cases h with
      | here _ _ => exact ⟨_, _, rfl⟩
      | later _ _ _ _ => exact ⟨_, _, rfl⟩
    · have h0' : 0 ∉ t := fun h => h0 (List.mem_append_right _ h)
      have hlen : (l ++ CRLF ++ t).length = l.length + 2 + t.length := by
        rw [List.length_append, List.length_append]
        rfl
      have hcheck : ∀ i ∈ examinedCheck (p + l.length + 2) lower upper (t ++ 0 :: beyond),
          i ≤ p + (l.length + 2 + t.length) := by
        intro i hi
        have := examinedCheck_le (by decide) (by decide) h0' hi
        omega
      rw [hlen] at hskip hfuel ⊢
      simp only [examinedLines_line hl, firstLength_iff hl]
      by_cases hend : CRLF <+: t
      · simp only [if_pos hend, List.append_nil]
        exact iff_of_true hskip fun u h => absurd hend h.1
      · by_cases hname : StartsWith lower t
        · -- the search is in this line
          simp only [if_neg hend, if_pos hname, List.forall_mem_append, and_iff_right hskip,
            and_iff_right hcheck]
          obtain ⟨name, u, rfl, hlength, hlower⟩ := Field.exists_split hname
          have hvalue : (∀ i ∈ examinedValue (p + l.length + 2) (name ++ (u ++ 0 :: beyond)),
              i ≤ p + l.length + 2 + clLength + u.length) ↔ Settled u :=
            examinedValue_inside_iff hlength
          have htotal : p + l.length + 2 + clLength + u.length =
              p + (l.length + 2 + (name ++ u).length) := by
            rw [List.length_append, hlength]
            omega
          rw [htotal, ← List.append_assoc] at hvalue
          rw [hvalue]
          constructor
          · rintro hu u' ⟨-, ⟨name', heq, hlower'⟩ | ⟨hno, -⟩⟩
            · have hlength' : name'.length = name.length := by
                rw [← List.length_map, hlower', ← hlower, List.length_map]
              rwa [← (List.append_inj heq hlength'.symm).2]
            · exact absurd hname hno
          · intro h
            exact h u ⟨hend, Or.inl ⟨name, rfl, hlower⟩⟩
        · -- the lines behind it decide
          have hrec := ih (p := p + l.length + 2) h0' (by omega)
          have hnot : ∀ u, ¬ ∃ name, t = name ++ u ∧ name.map toLower = lower := by
            rintro u ⟨name, rfl, hlower⟩
            apply hname
            exact startsWith_append hlower u
          rw [show p + l.length + 2 + t.length = p + (l.length + 2 + t.length) by omega] at hrec
          simp only [if_neg hend, if_neg hname, List.forall_mem_append, and_iff_right hskip,
            and_iff_right hcheck, hrec, hnot, false_or]
          exact forall_congr' fun u => by rw [and_iff_right hend, and_iff_right hname]

/-- **Which texts the parser does not leave.** -/
theorem staysInside_iff (h0 : 0 ∉ t) (beyond : List Byte) :
    StaysInside t beyond ↔ ∀ u, FirstLength t u → Settled u := by
  have hfuel : t.length < (t ++ 0 :: beyond).length := by
    rw [List.length_append, List.length_cons]
    omega
  have h : (∀ i ∈ examined (t ++ 0 :: beyond), i ≤ 0 + t.length) ↔ _ :=
    examinedLines_inside_iff h0 hfuel
  rwa [Nat.zero_add] at h

/-- A response without a body. -/
def zeroBytes : List Byte := ascii "HTTP/1.1 200 OK\r\nContent-Length: 0\r\n\r\n"

/-- Three characters behind its NUL are examined. -/
theorem staysInside_fails : 0 ∉ zeroBytes ∧ endOfHeader <:+: zeroBytes ∧
    zeroBytes.length + 3 ∈ examined (zeroBytes ++ 0 :: []) ∧ ¬ StaysInside zeroBytes [] := by
  have hthree : zeroBytes.length + 3 ∈ examined (zeroBytes ++ 0 :: []) := by decide +kernel
  refine ⟨by decide, by decide, hthree, fun h => ?_⟩
  have hle := h _ hthree
  omega

/-- A response with five bytes. -/
def fiveBytesHeader : List Byte := ascii "HTTP/1.1 200 OK\r\nContent-Length: 5\r\n\r\n"

/-- Behind the name of this one there is a figure. -/
theorem staysInside_of_five : StaysInside fiveBytesHeader [] ∧
    ∀ u, FirstLength fiveBytesHeader u → Settled u := by
  have hinside : StaysInside fiveBytesHeader [] := by decide +kernel
  exact ⟨hinside, (staysInside_iff (by decide) []).mp hinside⟩

/-! ## What the result depends on -/

variable {w : Nat}

/-- One round of the parser, on a text with a first line. -/
theorem kiiParseContentLength_nul {l : List Byte} (hl : IsLine l) :
    kiiParseContentLength w (l ++ CRLF ++ t ++ 0 :: beyond) =
      if CRLF <+: t then 0 else if StartsWith lower t then value w (t ++ 0 :: beyond)
        else kiiParseContentLength w (t ++ 0 :: beyond) := by
  rw [List.append_assoc (l ++ CRLF), kiiParseContentLength_line hl]
  simp only [List.isPrefixOf_iff_prefix, crlf_prefix_nul_iff, check_eq, startsWith_nul_iff]

/-- Behind the first content-length, the parser takes the value. -/
theorem parse_of_firstLength (h : FirstLength t u) : ∃ name, name.length = clLength ∧ ∀ beyond,
    kiiParseContentLength w (t ++ 0 :: beyond) = value w (name ++ (u ++ 0 :: beyond)) := by
  induction h with
  | @here l name u hl hname =>
    have hstarts : StartsWith lower (name ++ u) := startsWith_append hname u
    have hmore := ((firstLength_iff hl).mp (FirstLength.here (u := u) hl hname)).1
    refine ⟨name, ?_, fun beyond => ?_⟩
    · rw [← List.length_map, hname]
      rfl
    · rw [kiiParseContentLength_nul hl, if_neg hmore, if_pos hstarts, List.append_assoc]
  | later hl hmore hno _ ih =>
    obtain ⟨name, hlength, hparse⟩ := ih
    refine ⟨name, hlength, fun beyond => ?_⟩
    rw [kiiParseContentLength_nul hl, if_neg hmore, if_neg hno, hparse]

/-- A text without such a line has the length 0. -/
theorem parse_of_no_firstLength (h0 : 0 ∉ t) (h : ∀ u, ¬ FirstLength t u) (beyond : List Byte) :
    kiiParseContentLength w (t ++ 0 :: beyond) = 0 := by
  induction hn : t.length using Nat.strongRecOn generalizing t with
  | _ n ih =>
    rcases exists_line h0 with hl | ⟨l, t, rfl, hl⟩
    · rw [kiiParseContentLength_eq, skip_of_isLine hl]
    · rw [kiiParseContentLength_nul hl]
      split
      · rfl
      · next hmore =>
        have hno : ¬ StartsWith lower t := by
          intro hstarts
          obtain ⟨name, u, rfl, -, hlower⟩ := Field.exists_split hstarts
          exact h u (FirstLength.here hl hlower)
        rw [if_neg hno]
        apply ih t.length _ (fun h => h0 (List.mem_append_right _ h)) _ rfl
        · rw [← hn, List.length_append, List.length_append]
          exact Nat.lt_add_of_pos_left (Nat.lt_of_lt_of_le (by decide) (Nat.le_add_left 2 _))
        · exact fun u hu => h u (FirstLength.later hl hmore hno hu)

/-- The accumulating loop ends at the NUL. -/
theorem accumulate_nul (n acc : Nat) :
    accumulate w n acc (t ++ 0 :: beyond) = accumulate w n acc t := by
  induction t generalizing n acc with
  | nil => cases n <;> rfl
  | cons c t ih =>
    cases n with
    | zero => rfl
    | succ n =>
      rw [List.cons_append, accumulate, accumulate]
      split
      · exact ih ..
      · rfl

/-- A settled value does not depend on what lies behind the text. -/
theorem value_of_settled (hname : name.length = clLength) (hu : Settled u)
    (beyond beyond' : List Byte) :
    value w (name ++ (u ++ 0 :: beyond)) = value w (name ++ (u ++ 0 :: beyond')) := by
  by_cases hfigure : ∃ b ∈ u.take 11, Figure b
  · obtain ⟨sep, c, rest, rfl, hsep, hlt, hc⟩ := exists_first_figure hfigure
    have hvalue : ∀ beyond, value w (name ++ (sep ++ c :: rest ++ 0 :: beyond)) =
        accumulate w 9 (Decimal.digitOf c) rest := by
      intro beyond
      rw [value, ← hname, List.drop_left, List.append_assoc, List.cons_append,
        searchFigure_skip hsep hlt hc]
      exact accumulate_nul ..
    rw [hvalue, hvalue]
  · rw [value_of_none hname (not_figure_of_settled hu hfigure),
      value_of_none hname (not_figure_of_settled hu hfigure)]

/-- One that is not settled can be read behind the end of the text. -/
theorem value_of_not_settled (hname : name.length = clLength) (hw : 16 ≤ w) (hu : ¬ Settled u) :
    value w (name ++ (u ++ 0 :: [])) = 0 ∧ value w (name ++ (u ++ 0 :: [49])) = 1 := by
  rw [Settled, not_or, Nat.not_le] at hu
  obtain ⟨hshort, hnone⟩ := hu
  have hnone' : ∀ b ∈ u ++ [0], ¬ Figure b := by
    rw [List.forall_mem_append]
    exact ⟨by simpa using hnone, by decide⟩
  constructor
  · exact value_of_none hname fun b hb => hnone' b (List.mem_of_mem_take hb)
  · have hmore : ∀ d ∈ ([] : List Byte), Decimal.isDigit d = true := by simp
    have hshows : Shows (u ++ [0] ++ 49 :: ([] ++ [])) [49] := by
      apply Shows.intro hnone' _ (by decide) hmore
      · exact Or.inr ⟨by decide, by simp⟩
      · rw [List.length_append]
        exact hshort
    have hvalue := hshows.value hname hw
    rw [List.append_assoc] at hvalue
    rw [show u ++ 0 :: [49] = u ++ ([0] ++ 49 :: ([] ++ [])) from rfl, hvalue]
    exact Nat.mod_eq_of_lt (Nat.one_lt_two_pow (by omega))

/-- **Where the parser stays inside, nothing behind the text counts**, and nowhere else. -/
theorem independent_iff (hw : 16 ≤ w) (h0 : 0 ∉ t) :
    (∀ beyond beyond', kiiParseContentLength w (t ++ 0 :: beyond) =
      kiiParseContentLength w (t ++ 0 :: beyond')) ↔ ∀ u, FirstLength t u → Settled u := by
  constructor
  · intro h u hu
    by_contra hnot
    obtain ⟨name, hname, hparse⟩ := parse_of_firstLength (w := w) hu
    obtain ⟨hzero, hone⟩ := value_of_not_settled hname hw hnot
    have hsame := h [] [49]
    rw [hparse, hparse, hzero, hone] at hsame
    cases hsame
  · intro h beyond beyond'
    by_cases hfirst : ∃ u, FirstLength t u
    · obtain ⟨u, hu⟩ := hfirst
      obtain ⟨name, hname, hparse⟩ := parse_of_firstLength (w := w) hu
      rw [hparse, hparse]
      exact value_of_settled hname (h u hu) ..
    · have hnone : ∀ u, ¬ FirstLength t u := fun u hu => hfirst ⟨u, hu⟩
      rw [parse_of_no_firstLength h0 hnone, parse_of_no_firstLength h0 hnone]

end

end KiiThing

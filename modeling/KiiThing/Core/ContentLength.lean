import KiiThing.Core.Basic

/-!
# The content-length parser

`kii_cl_parser.c`, function by function. A `const char*` that walks over the buffer is the list of
bytes from there to the end of the buffer; what lies behind the buffer reads as NUL.

The model is followed by what the parser does on a well-formed header: `skip` goes from one line to
the next (`skip_line`), `check` decides by the first fourteen characters (`check_iff`), `value`
reads back the text of a number (`value_field`), and from these `kiiParseContentLength_field` and
`kiiParseContentLength_no_field` follow by induction on the lines of the header.
-/

namespace KiiThing

open Http

/-! ## The functions of the source -/

def lower : List Byte := ascii "content-length"
def upper : List Byte := ascii "CONTENT-LENGTH"
def clLength : Nat := 14

/-- The loop of `check`, over what is left of the two spellings. -/
def checkFrom : List Byte → List Byte → List Byte → Bool
  | l :: lower, u :: upper, header =>
    if header.headD 0 = l ∨ header.headD 0 = u then checkFrom lower upper header.tail else false
  | _, _, _ => true

/-- Does a content-length header start here? -/
def check (header : List Byte) : Bool := checkFrom lower upper header

/-- The search loop of `value`: the first figure from 1 to 9, in at most `MAX_SEARCH_NUM + 1`
characters. -/
def searchFigure : Nat → List Byte → Option (List Byte)
  | 0, _ => none
  | _, [] => none
  | n + 1, c :: next => if 49 ≤ c ∧ c ≤ 57 then some (c :: next) else searchFigure n next

/-- The second loop of `value`: up to `n` more figures, accumulated in a `long`. -/
def accumulate (w : Nat) : Nat → Nat → List Byte → Nat
  | 0, ret, _ => ret
  | _ + 1, ret, [] => ret
  | n + 1, ret, c :: next =>
    if Decimal.isDigit c then accumulate w n ((ret * 10 + Decimal.digitOf c) % 2 ^ w) next else ret

/-- The value of the content-length header that starts here; 0 if there is no number in reach. -/
def value (w : Nat) (header : List Byte) : Nat :=
  match searchFigure 11 (header.drop clLength) with
  | some (c :: next) => accumulate w 9 (Decimal.digitOf c) next
  | _ => 0

/-- Skip to the line after the next line end; `none` at the end of the header or of the text. -/
def skip : List Byte → Option (List Byte)
  | [] => none
  | c :: header =>
    if c = 0 then none
    else if c = CR ∧ header.headD 0 = LF then
      -- `\r\n\r\n`: the body starts here
      if header.tail.headD 0 = CR ∧ header.tail.tail.headD 0 = LF then none else some header.tail
    else skip header

/-- The `while(1)` of `kii_parse_content_length`. Every round skips two bytes at least, so the
length of the text is fuel enough (`parseLines_fuel`). -/
def parseLines (w : Nat) : Nat → List Byte → Nat
  | 0, _ => 0
  | fuel + 1, next =>
    match skip next with
    | none => 0
    | some next => if check next then value w next else parseLines w fuel next

/-- `kii_parse_content_length`. -/
def kiiParseContentLength (w : Nat) (buffer : List Byte) : Nat := parseLines w buffer.length buffer

/-! ## Fuel -/

theorem length_skip_lt {p q : List Byte} (h : skip p = some q) : q.length < p.length := by
  induction p with
  | nil => cases h
  | cons c p ih =>
    rw [skip] at h
    split at h
    · cases h
    · split at h
      · split at h
        · cases h
        · obtain rfl := Option.some.inj h
          simp only [List.length_tail, List.length_cons]
          omega
      · exact Nat.lt_succ_of_lt (ih h)

/-- The fuel of the line loop never runs out. -/
theorem parseLines_fuel (w : Nat) {n m : Nat} {p : List Byte} (hn : p.length ≤ n)
    (hm : p.length ≤ m) : parseLines w n p = parseLines w m p := by
  induction n generalizing p m with
  | zero =>
    obtain rfl : p = [] := List.length_eq_zero_iff.mp (by omega)
    cases m <;> rfl
  | succ n ih =>
    rcases m with _ | m
    · obtain rfl : p = [] := List.length_eq_zero_iff.mp (by omega)
      rfl
    · rw [parseLines, parseLines]
      cases hskip : skip p with
      | none => rfl
      | some q =>
        have hlt := length_skip_lt hskip
        have hrec := ih (p := q) (m := m) (by omega) (by omega)
        simp only [hrec]

/-- One round of the line loop. -/
theorem kiiParseContentLength_eq (w : Nat) (p : List Byte) :
    kiiParseContentLength w p =
      match skip p with
      | none => 0
      | some next => if check next then value w next else kiiParseContentLength w next := by
  rw [kiiParseContentLength]
  cases hp : p with
  | nil => rfl
  | cons c q =>
    rw [List.length_cons, parseLines]
    cases hskip : skip (c :: q) with
    | none => rfl
    | some next =>
      have hlt := length_skip_lt hskip
      rw [List.length_cons] at hlt
      have hfuel := parseLines_fuel w (n := q.length) (m := next.length) (p := next)
        (by omega) (by omega)
      simp only [hfuel, kiiParseContentLength]

/-! ## `skip` -/

/-- **`skip` goes to the next line**, or stops where the empty line ends the header. -/
theorem skip_line {l : List Byte} (hl : IsLine l) (t : List Byte) :
    skip (l ++ CRLF ++ t) = if CRLF.isPrefixOf t then none else some t := by
  induction l with
  | nil =>
    have hpre : (t.headD 0 = CR ∧ t.tail.headD 0 = LF) ↔ CRLF.isPrefixOf t = true := by
      rcases t with _ | ⟨a, _ | ⟨b, t⟩⟩
      · decide
      · refine ⟨fun h => absurd h.2 (show ¬ (0 : Byte) = LF by decide), fun h => ?_⟩
        change (CR == a && false) = true at h
        rw [Bool.and_false] at h
        cases h
      · show (a = CR ∧ b = LF) ↔ (CR == a && (LF == b && true)) = true
        rw [Bool.and_true, Bool.and_eq_true, beq_iff_eq, beq_iff_eq]
        exact and_congr eq_comm eq_comm
    show (if CR = 0 then none else if CR = CR ∧ LF = LF then
      if t.headD 0 = CR ∧ t.tail.headD 0 = LF then none else some t else _) = _
    rw [if_neg (by decide), if_pos ⟨rfl, rfl⟩]
    by_cases hb : CRLF.isPrefixOf t = true
    · rw [if_pos hb, if_pos (hpre.mpr hb)]
    · rw [if_neg hb, if_neg fun h => hb (hpre.mp h)]
  | cons c l ih =>
    have hc0 : c ≠ 0 := fun h0 => hl.noNul (by simp [h0])
    rw [List.cons_append, List.cons_append, skip, if_neg hc0,
      if_neg fun h => hl.head_ne_LF h.1 t h.2]
    exact ih hl.tail

/-! ## `check` -/

/-- The two spellings of a character of the name are those with its lower case. -/
theorem toLower_eq_iff {l : Byte} (hl : l = 45 ∨ 97 ≤ l ∧ l ≤ 122) (c : Byte) :
    toLower c = l ↔ c = l ∨ c = (if l = 45 then 45 else l - 32) := by
  simp only [toLower, UInt8.le_iff_toNat_le, ← UInt8.toNat_inj] at *
  split <;> split <;> simp_all [UInt8.toNat_add, UInt8.toNat_sub] <;> omega

theorem checkFrom_iff {lo header : List Byte} (hlo : ∀ l ∈ lo, l = 45 ∨ 97 ≤ l ∧ l ≤ 122) :
    checkFrom lo (lo.map fun l => if l = 45 then 45 else l - 32) header = true ↔
      lo <+: header.map toLower := by
  induction lo generalizing header with
  | nil => simp [checkFrom]
  | cons l lo ih =>
    have hl := hlo l List.mem_cons_self
    have hlo' : ∀ m ∈ lo, m = 45 ∨ 97 ≤ m ∧ m ≤ 122 := fun m hm => hlo m (List.mem_cons_of_mem _ hm)
    rw [List.map_cons, checkFrom]
    cases header with
    | nil =>
      -- behind the end of the buffer: NUL is no character of the name
      have h0 : ¬ (0 = l ∨ 0 = (if l = 45 then 45 else l - 32)) := by
        rw [← toLower_eq_iff hl 0]
        rintro rfl
        revert hl
        decide
      simp [h0]
    | cons c header =>
      have hspell := toLower_eq_iff hl c
      rw [List.headD_cons, List.map_cons, List.cons_prefix_cons]
      by_cases hc : c = l ∨ c = (if l = 45 then 45 else l - 32)
      · rw [if_pos hc]
        exact (ih hlo').trans ⟨fun h => ⟨(hspell.mpr hc).symm, h⟩, And.right⟩
      · rw [if_neg hc]
        exact ⟨fun h => absurd h Bool.false_ne_true, fun h => absurd (hspell.mp h.1.symm) hc⟩

/-- `check` compares with the name, in any mix of letter case. -/
theorem check_eq (header : List Byte) : check header = true ↔ StartsWith lower header := by
  have hupper : upper = lower.map fun l => if l = 45 then 45 else l - 32 := by decide
  have hname : ∀ l ∈ lower, l = 45 ∨ 97 ≤ l ∧ l ≤ 122 := by decide
  rw [check, hupper, checkFrom_iff hname, StartsWith]

/-- **`check` looks at the line**, and at nothing behind it. -/
theorem check_iff (l t : List Byte) : check (l ++ CRLF ++ t) = true ↔ StartsWith lower l := by
  rw [check_eq, StartsWith, StartsWith, List.append_assoc, List.map_append]
  refine ⟨fun h => ?_, fun h => h.trans (List.prefix_append ..)⟩
  -- the name has no CR, so a match cannot run over the end of the line
  by_contra hshort
  have hCR : toLower CR ∉ lower := by decide
  obtain hle | hlt := Nat.le_total lower.length (l.map toLower).length
  · exact hshort (List.prefix_of_prefix_length_le h (List.prefix_append ..) hle)
  · have hl : l.map toLower <+: lower :=
      List.prefix_of_prefix_length_le (List.prefix_append ..) h hlt
    obtain ⟨u, hu⟩ := hl
    cases u with
    | nil => exact hshort (by rw [← hu, List.append_nil])
    | cons c u =>
      apply hCR
      rw [← hu] at h ⊢
      rw [List.prefix_append_right_inj, CRLF, List.cons_append, List.map_cons,
        List.cons_prefix_cons] at h
      rw [h.1]
      simp

/-! ## `value` -/

theorem searchFigure_skip {sep : List Byte} (hsep : ∀ b ∈ sep, ¬ (49 ≤ b ∧ b ≤ 57)) {n : Nat}
    (hn : sep.length < n) {c : Byte} (hc : 49 ≤ c ∧ c ≤ 57) (s : List Byte) :
    searchFigure n (sep ++ c :: s) = some (c :: s) := by
  induction sep generalizing n with
  | nil =>
    obtain ⟨m, rfl⟩ : ∃ m, n = m + 1 := ⟨n - 1, by simp at hn; omega⟩
    rw [List.nil_append, searchFigure, if_pos hc]
  | cons b sep ih =>
    obtain ⟨m, rfl⟩ : ∃ m, n = m + 1 := ⟨n - 1, by omega⟩
    rw [List.cons_append, searchFigure, if_neg (hsep b List.mem_cons_self)]
    exact ih (fun b hb => hsep b (List.mem_cons_of_mem _ hb)) (by simpa using hn)

/-- The search gives up after that many characters. -/
theorem searchFigure_eq_none {sep : List Byte} (hsep : ∀ b ∈ sep, ¬ (49 ≤ b ∧ b ≤ 57)) {n : Nat}
    (hn : n ≤ sep.length) (s : List Byte) : searchFigure n (sep ++ s) = none := by
  induction sep generalizing n with
  | nil =>
    obtain rfl : n = 0 := by simpa using hn
    rfl
  | cons b sep ih =>
    cases n with
    | zero => rfl
    | succ n =>
      rw [List.cons_append, searchFigure, if_neg (hsep b List.mem_cons_self)]
      exact ih (fun b hb => hsep b (List.mem_cons_of_mem _ hb)) (by simpa using hn)

/-- The accumulating loop does not look behind the number. -/
theorem accumulate_append {w n acc : Nat} {ds t : List Byte}
    (hds : ∀ c ∈ ds, Decimal.isDigit c = true) (ht : ∀ c ∈ t.head?, Decimal.isDigit c = false) :
    accumulate w n acc (ds ++ t) = accumulate w n acc ds := by
  induction ds generalizing n acc with
  | nil =>
    cases t with
    | nil => rfl
    | cons c t =>
      have hc : Decimal.isDigit c = false := ht c rfl
      cases n <;> simp [accumulate, hc]
  | cons d ds ih =>
    have hd : Decimal.isDigit d = true := hds d List.mem_cons_self
    cases n with
    | zero => rfl
    | succ n =>
      rw [List.cons_append, accumulate, accumulate, if_pos hd, if_pos hd]
      exact ih fun c hc => hds c (List.mem_cons_of_mem _ hc)

theorem le_read (acc : Nat) (s : List Byte) : acc ≤ Decimal.read acc s := by
  induction s generalizing acc with
  | nil => exact Nat.le_refl _
  | cons c s ih =>
    rw [Decimal.read]
    split
    · exact Nat.le_trans (by omega) (ih _)
    · exact Nat.le_refl _

/-- Within its number of figures, and below the range of `long`, it reads the number. -/
theorem accumulate_eq_read {w n acc : Nat} {ds : List Byte} (hn : ds.length ≤ n)
    (hds : ∀ c ∈ ds, Decimal.isDigit c = true) (hw : Decimal.read acc ds < 2 ^ w) :
    accumulate w n acc ds = Decimal.read acc ds := by
  induction ds generalizing n acc with
  | nil => cases n <;> rfl
  | cons d ds ih =>
    obtain ⟨m, rfl⟩ : ∃ m, n = m + 1 := ⟨n - 1, by simp at hn; omega⟩
    have hd : Decimal.isDigit d = true := hds d List.mem_cons_self
    rw [Decimal.read, if_pos hd] at hw ⊢
    have hlt : acc * 10 + Decimal.digitOf d < 2 ^ w := Nat.lt_of_le_of_lt (le_read _ _) hw
    rw [accumulate, if_pos hd, Nat.mod_eq_of_lt hlt]
    exact ih (by simpa using hn) (fun c hc => hds c (List.mem_cons_of_mem _ hc)) hw

/-- What the parser makes of the decimal text of `n`. -/
def readFigures (w n : Nat) : Nat :=
  match Decimal.text n with
  | c :: ds => accumulate w 9 (Decimal.digitOf c) ds
  | [] => 0

section

variable {w n : Nat}

/-- The text of a number, figure by figure, as the parser meets it. -/
theorem text_cases (hn : n ≠ 0) : ∃ c ds, Decimal.text n = c :: ds ∧ (49 ≤ c ∧ c ≤ 57) ∧
    (∀ d ∈ ds, Decimal.isDigit d = true) ∧ 0 < Decimal.digitOf c ∧
      Decimal.read (Decimal.digitOf c) ds = n := by
  obtain ⟨c, ds, htext, hc, hc0⟩ := Decimal.text_eq_cons hn
  refine ⟨c, ds, htext, ?_, ?_, Nat.pos_of_ne_zero hc0, ?_⟩
  · obtain ⟨h48, h57⟩ := Decimal.isDigit_iff.mp hc
    rw [Decimal.digitOf] at hc0
    simp only [UInt8.le_iff_toNat_le]
    exact ⟨by show 49 ≤ c.toNat; omega, h57⟩
  · intro d hd
    exact Decimal.isDigit_of_mem_text (n := n) (by rw [htext]; exact List.mem_cons_of_mem _ hd)
  · have h := Decimal.read_text n (s := []) (by simp)
    rw [List.append_nil, htext, Decimal.read, if_pos hc] at h
    simpa using h

theorem readFigures_eq (hn : n ≠ 0) (hfig : n < 10 ^ 10) (hw : n < 2 ^ w) :
    readFigures w n = n := by
  obtain ⟨c, ds, htext, -, hds, -, hread⟩ := text_cases hn
  have hlen : ds.length ≤ 9 := by
    have h := Decimal.length_text_le (by decide) hfig
    rw [htext, List.length_cons] at h
    omega
  rw [readFigures, htext]
  show accumulate w 9 (Decimal.digitOf c) ds = n
  rw [accumulate_eq_read hlen hds (by rw [hread]; exact hw), hread]

variable {name sep t : List Byte} (hname : name.length = clLength)
  (hsep : ∀ b ∈ sep, ¬ (49 ≤ b ∧ b ≤ 57))
include hname hsep

/-- **`value` reads the number of a field line** behind a separator of at most ten characters
without figures from 1 to 9. -/
theorem value_field (hlen : sep.length ≤ 10) (hn : n ≠ 0)
    (ht : ∀ c ∈ t.head?, Decimal.isDigit c = false) :
    value w (name ++ sep ++ Decimal.text n ++ t) = readFigures w n := by
  obtain ⟨c, ds, htext, hc, hds, -⟩ := text_cases hn
  have hdrop : (name ++ sep ++ Decimal.text n ++ t).drop clLength = sep ++ c :: (ds ++ t) := by
    rw [← hname, htext]
    simp [List.append_assoc]
  rw [value, hdrop, searchFigure_skip hsep (by omega) hc, readFigures, htext]
  exact accumulate_append hds ht

/-- Behind a longer separator the number is out of reach. -/
theorem value_far (hlen : 10 < sep.length) : value w (name ++ sep ++ t) = 0 := by
  have hdrop : (name ++ sep ++ t).drop clLength = sep ++ t := by
    rw [← hname]
    simp [List.append_assoc]
  rw [value, hdrop, searchFigure_eq_none hsep hlen]

end

/-! ## Whole headers -/

section

variable {w : Nat} {l : List Byte} {ls : List (List Byte)} (rest : List Byte)

/-- One line of a header: the next one is looked at, or there is none. -/
theorem kiiParseContentLength_line (hl : IsLine l) (t : List Byte) :
    kiiParseContentLength w (l ++ CRLF ++ t) =
      if CRLF.isPrefixOf t then 0 else if check t then value w t else kiiParseContentLength w t := by
  rw [kiiParseContentLength_eq, skip_line hl]
  by_cases h : CRLF.isPrefixOf t = true
  · simp only [if_pos h]
  · simp only [if_neg h]

/-- The line behind `l` is a field. -/
theorem kiiParseContentLength_cons {f : List Byte} (hl : IsLine l) (hf : IsLine f) (hne : f ≠ [])
    (t : List Byte) :
    kiiParseContentLength w (l ++ CRLF ++ (f ++ CRLF ++ t)) =
      if StartsWith lower f then value w (f ++ CRLF ++ t)
      else kiiParseContentLength w (f ++ CRLF ++ t) := by
  have hmiss : ¬ CRLF.isPrefixOf (f ++ CRLF ++ t) = true := fun h =>
    hf.not_CRLF_prefix hne t (List.isPrefixOf_iff_prefix.mp h)
  rw [kiiParseContentLength_line hl, if_neg hmiss]
  by_cases h : StartsWith lower f
  · rw [if_pos h, if_pos ((check_iff f t).mpr h)]
  · rw [if_neg h, if_neg fun hc => h ((check_iff f t).mp hc)]

/-- **A header without a content-length line** has the length 0. -/
theorem kiiParseContentLength_no_field (hl : IsLine l) (hls : ∀ f ∈ ls, IsLine f ∧ f ≠ [])
    (hno : ∀ f ∈ ls, ¬ StartsWith lower f) :
    kiiParseContentLength w (lines (l :: ls) ++ CRLF ++ rest) = 0 := by
  induction ls generalizing l with
  | nil =>
    have hend : CRLF.isPrefixOf (CRLF ++ rest) = true := by simp
    rw [lines_cons, lines_nil, List.append_nil, List.append_assoc (l ++ CRLF),
      kiiParseContentLength_line hl, if_pos hend]
  | cons f ls ih =>
    obtain ⟨hf, hne⟩ := hls f List.mem_cons_self
    have hrec := ih hf (fun g hg => hls g (List.mem_cons_of_mem _ hg))
      fun g hg => hno g (List.mem_cons_of_mem _ hg)
    simp only [lines_cons, List.append_assoc] at hrec ⊢
    have hcons := kiiParseContentLength_cons (w := w) hl hf hne (lines ls ++ (CRLF ++ rest))
    simp only [List.append_assoc] at hcons
    rw [hcons, if_neg (hno f List.mem_cons_self), hrec]

/-- No digit comes behind a number that blanks and the line end follow. -/
theorem head_trail {trail : List Byte} (h : ∀ b ∈ trail, b = 32 ∨ b = 9) (s : List Byte) :
    ∀ d ∈ (trail ++ CRLF ++ s).head?, Decimal.isDigit d = false := by
  rintro d hd
  cases trail with
  | nil =>
    obtain rfl := Option.some.inj hd
    rfl
  | cons b trail =>
    obtain rfl := Option.some.inj hd
    rcases h b List.mem_cons_self with rfl | rfl <;> rfl

/-- **The first content-length line decides.** The lines before it are skipped, whatever stands
behind it is not looked at. -/
theorem kiiParseContentLength_field {f : List Byte} {ls' : List (List Byte)} (hl : IsLine l)
    (hls : ∀ f ∈ ls, IsLine f ∧ f ≠ []) (hno : ∀ f ∈ ls, ¬ StartsWith lower f) (hf : IsLine f)
    (hcl : StartsWith lower f) :
    kiiParseContentLength w (lines (l :: (ls ++ f :: ls')) ++ rest) =
      value w (f ++ CRLF ++ (lines ls' ++ rest)) := by
  have hne : f ≠ [] := by
    rintro rfl
    exact absurd hcl (by decide)
  induction ls generalizing l with
  | nil =>
    have hcons := kiiParseContentLength_cons (w := w) hl hf hne (lines ls' ++ rest)
    simp only [List.nil_append, lines_cons, List.append_assoc] at hcons ⊢
    rw [hcons, if_pos hcl]
  | cons g ls ih =>
    obtain ⟨hg, hgne⟩ := hls g List.mem_cons_self
    have hrec := ih hg (fun g hg => hls g (List.mem_cons_of_mem _ hg))
      fun g hg => hno g (List.mem_cons_of_mem _ hg)
    have hcons := kiiParseContentLength_cons (w := w) hl hg hgne
      (lines (ls ++ f :: ls') ++ rest)
    simp only [List.cons_append, lines_cons, List.append_assoc] at hrec hcons ⊢
    rw [hcons, if_neg (hno g List.mem_cons_self), hrec]

end

end KiiThing

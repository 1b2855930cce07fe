import KiiThing.Lib.Http

/-!
# Reading a request

What a server makes of a stream of bytes: it cuts the request line at its blanks and slashes, the
header lines at their first colon, and takes as many bytes for the body as the one content-length
field says, none when there is no such field. `Request.WellFormed` is when a request is read back as
it is, whatever follows it in the stream (`readRequest_bytes`).
-/

namespace Http

/-! ## Cutting -/

/-- What is in front of the first occurrence of a pattern, and what is behind it. -/
def cut (pat bs : List UInt8) : Option (List UInt8 × List UInt8) :=
  (Search.find pat bs).map fun i => (bs.take i, bs.drop (i + pat.length))

/-- A pattern is not found in front of its first character. -/
theorem cut_append {c : UInt8} {l : List UInt8} (h : c ∉ l) (pat t : List UInt8) :
    cut (c :: pat) (l ++ (c :: pat ++ t)) = some (l, t) := by
  have hfind : Search.find (c :: pat) (l ++ (c :: pat ++ t)) = some l.length := by
    refine Search.find_eq_some_iff_append.mpr ⟨l, t, rfl, rfl, ?_⟩
    rintro j hj ⟨u, hu⟩
    rw [List.drop_append_of_le_length (Nat.le_of_lt hj), List.drop_eq_getElem_cons hj] at hu
    obtain rfl : c = l[j] := (List.cons.inj hu).1
    exact h (List.getElem_mem hj)
  rw [cut, hfind, Option.map_some, List.take_left, ← List.drop_drop, List.drop_left, List.drop_left]

/-- A character is found where it stands first. -/
theorem cut_singleton {c : UInt8} {l : List UInt8} (h : c ∉ l) (t : List UInt8) :
    cut [c] (l ++ c :: t) = some (l, t) := cut_append h [] t

/-- Without a CR inside, a line ends at its line end. -/
theorem cut_CRLF {l : List UInt8} (h : CR ∉ l) (t : List UInt8) :
    cut CRLF (l ++ (CRLF ++ t)) = some (l, t) := cut_append h [LF] t

/-! ## Header fields -/

def SP : UInt8 := 32
def COLON : UInt8 := 58
def SLASH : UInt8 := 47

/-- The header fields up to the empty line, each cut at its first colon. -/
def readFields : Nat → List UInt8 → Option (List (List UInt8 × List UInt8) × List UInt8)
  | 0, _ => none
  | fuel + 1, bs =>
    match cut CRLF bs with
    | none => none
    | some ([], rest) => some ([], rest)
    | some (c :: l, rest) =>
      match cut [COLON] (c :: l), readFields fuel rest with
      | some h, some (hs, rest) => some (h :: hs, rest)
      | _, _ => none

/-- Name and value can be told apart. -/
structure IsField (h : List UInt8 × List UInt8) : Prop where
  noColon : COLON ∉ h.1
  noCR₁ : CR ∉ h.1
  noCR₂ : CR ∉ h.2

theorem colon_ne_CR : CR ≠ COLON := by decide

theorem readFields_fields {hs : List (List UInt8 × List UInt8)} (h : ∀ f ∈ hs, IsField f)
    {fuel : Nat} (hfuel : hs.length < fuel) (t : List UInt8) :
    readFields fuel (Request.fields hs ++ (CRLF ++ t)) = some (hs, t) := by
  induction hs generalizing fuel with
  | nil =>
    obtain ⟨fuel, rfl⟩ := Nat.exists_eq_add_of_lt hfuel
    have hcut : cut CRLF (CRLF ++ t) = some ([], t) := cut_CRLF List.not_mem_nil t
    rw [Request.fields_nil, List.nil_append, readFields, hcut]
  | cons f hs ih =>
    obtain ⟨key, value⟩ := f
    obtain ⟨hcolon, hkey, hvalue⟩ := h _ List.mem_cons_self
    obtain ⟨fuel, rfl⟩ : ∃ n, fuel = n + 1 := Nat.exists_eq_succ_of_ne_zero (Nat.ne_of_gt
      (Nat.lt_of_le_of_lt (Nat.zero_le _) hfuel))
    have hrest := ih (fun f hf => h f (List.mem_cons_of_mem _ hf)) (Nat.lt_of_succ_lt_succ hfuel)
    have hbytes : Request.fields ((key, value) :: hs) ++ (CRLF ++ t) =
        key ++ COLON :: value ++ (CRLF ++ (Request.fields hs ++ (CRLF ++ t))) := by
      simp [field, ascii, COLON]
    have hline : CR ∉ key ++ COLON :: value := by
      simp [hkey, hvalue, colon_ne_CR]
    have hcut := cut_CRLF hline (Request.fields hs ++ (CRLF ++ t))
    have hfield : cut [COLON] (key ++ COLON :: value) = some (key, value) :=
      cut_singleton hcolon value
    rw [hbytes, readFields, hcut]
    cases hl : key ++ COLON :: value with
    | nil => exact absurd hl (by simp)
    | cons c l =>
      rw [hl] at hfield
      simp only [hfield, hrest]

/-! ## The length of the body -/

/-- The name of a header field, in any mix of letter case. -/
def Named (name : List UInt8) (h : List UInt8 × List UInt8) : Prop := h.1.map toLower = name

instance (name : List UInt8) (h : List UInt8 × List UInt8) : Decidable (Named name h) :=
  inferInstanceAs (Decidable (_ = _))

def contentLengthName : List UInt8 := ascii "content-length"

/-- The length that the header declares: 0 without a content-length field, and none when there are
several of them, or something else than a number. -/
def declaredLength (hs : List (List UInt8 × List UInt8)) : Option Nat :=
  match hs.filter fun h => Named contentLengthName h with
  | [] => some 0
  | [h] =>
    match Decimal.number (h.2.dropWhile (· = SP)) with
    | some (n, []) => some n
    | _ => none
  | _ => none

/-- No other field is there. -/
theorem declaredLength_of_forall_not {hs : List (List UInt8 × List UInt8)}
    (h : ∀ f ∈ hs, ¬ Named contentLengthName f) : declaredLength hs = some 0 := by
  have hfilter : (hs.filter fun h => Named contentLengthName h) = [] := by
    simpa [List.filter_eq_nil_iff] using h
  rw [declaredLength, hfilter]

theorem declaredLength_append {hs : List (List UInt8 × List UInt8)}
    (h : ∀ f ∈ hs, ¬ Named contentLengthName f) (n : Nat) :
    declaredLength (hs ++ [(contentLengthName, Decimal.text n)]) = some n := by
  have hname : Named contentLengthName (contentLengthName, Decimal.text n) := by
    show contentLengthName.map toLower = contentLengthName
    decide
  have hfilter : ((hs ++ [(contentLengthName, Decimal.text n)]).filter
      fun h => Named contentLengthName h) = [(contentLengthName, Decimal.text n)] := by
    have hnone : (hs.filter fun h => Named contentLengthName h) = [] := by
      simpa [List.filter_eq_nil_iff] using h
    rw [List.filter_append, hnone, List.nil_append, List.filter_singleton]
    simp [hname]
  have hblank : (Decimal.text n).dropWhile (· = SP) = Decimal.text n := by
    cases htext : Decimal.text n with
    | nil => rfl
    | cons c ds =>
      have hc : Decimal.isDigit c = true :=
        Decimal.isDigit_of_mem_text (n := n) (by rw [htext]; exact List.mem_cons_self)
      have hne : c ≠ SP := by
        rintro rfl
        revert hc
        decide
      simp [hne]
  have hnumber := Decimal.number_text n (s := []) (by simp)
  rw [List.append_nil] at hnumber
  rw [declaredLength, hfilter]
  simp only [hblank, hnumber]

/-! ## Requests -/

def scheme : List UInt8 := ascii "https://"
def version : List UInt8 := ascii "HTTP/1.0"

/-- Method, host and path of a request line. -/
def readLine (l : List UInt8) : Option (List UInt8 × List UInt8 × List UInt8) := do
  let (method, target) ← cut [SP] l
  guard (scheme <+: target)
  let (host, rest) ← cut [SLASH] (target.drop scheme.length)
  let (path, rest) ← cut [SP] rest
  guard (rest = version)
  return (method, host, path)

/-- A request at the beginning of a stream, and the rest of the stream. -/
def readRequest (bs : List UInt8) : Option (Request × List UInt8) := do
  let (line, rest) ← cut CRLF bs
  let (method, host, path) ← readLine line
  let (headers, rest) ← readFields (rest.length + 1) rest
  let n ← declaredLength headers
  guard (n ≤ rest.length)
  return (⟨method, host, path, headers, rest.take n⟩, rest.drop n)

namespace Request

/-- The parts of a request can be told apart, and the length of its body is known. -/
structure WellFormed (r : Request) : Prop where
  method : SP ∉ r.method ∧ CR ∉ r.method
  host : SLASH ∉ r.host ∧ CR ∉ r.host
  path : SP ∉ r.path ∧ CR ∉ r.path
  isField : ∀ h ∈ r.headers, IsField h
  length : declaredLength r.headers = some r.body.length

end Request

theorem readLine_line {method host path : List UInt8} (hmethod : SP ∉ method) (hhost : SLASH ∉ host)
    (hpath : SP ∉ path) :
    readLine (method ++ SP :: (scheme ++ (host ++ SLASH :: (path ++ SP :: version)))) =
      some (method, host, path) := by
  have hpre : scheme <+: scheme ++ (host ++ SLASH :: (path ++ SP :: version)) :=
    List.prefix_append ..
  simp [readLine, cut_singleton hmethod, cut_singleton hhost, cut_singleton hpath]

theorem length_le_length_fields (hs : List (List UInt8 × List UInt8)) :
    hs.length ≤ (Request.fields hs).length := by
  induction hs with
  | nil => exact Nat.zero_le _
  | cons h hs ih =>
    rw [Request.fields_cons, List.length_append, length_field, List.length_cons]
    omega

/-- **Round trip**: a well-formed request is read back, and what follows it is left. -/
theorem readRequest_bytes {r : Request} (h : r.WellFormed) (t : List UInt8) :
    readRequest (r.bytes ++ t) = some (r, t) := by
  obtain ⟨method, host, path, headers, body⟩ := r
  obtain ⟨⟨hmethod, hmethod'⟩, ⟨hhost, hhost'⟩, ⟨hpath, hpath'⟩, hfields, hlength⟩ := h
  dsimp only at *
  have hbytes : Request.bytes ⟨method, host, path, headers, body⟩ ++ t =
      method ++ SP :: (scheme ++ (host ++ SLASH :: (path ++ SP :: version))) ++
        (CRLF ++ (Request.fields headers ++ (CRLF ++ (body ++ t)))) := by
    simp [Request.bytes, Request.line, scheme, version, ascii, SP, SLASH]
  have hline : CR ∉ method ++ SP :: (scheme ++ (host ++ SLASH :: (path ++ SP :: version))) := by
    have hscheme : CR ∉ scheme := by decide
    have hversion : CR ∉ version := by decide
    have hSP : CR ≠ SP := by decide
    have hslash : CR ≠ SLASH := by decide
    simp [hmethod', hhost', hpath', hscheme, hversion, hSP, hslash]
  have hread : readFields ((Request.fields headers ++ (CRLF ++ (body ++ t))).length + 1)
      (Request.fields headers ++ (CRLF ++ (body ++ t))) = some (headers, body ++ t) := by
    apply readFields_fields hfields
    rw [List.length_append]
    exact Nat.lt_succ_of_le (Nat.le_trans (length_le_length_fields headers) (Nat.le_add_right ..))
  simp only [hbytes, readRequest, cut_CRLF hline, readLine_line hmethod hhost hpath, hread, hlength,
    Option.bind_eq_bind, Option.bind_some]
  simp

/-! ## More bytes behind -/

/-- A cut stays where it is when more comes behind. -/
theorem cut_extends {pat bs a b : List UInt8} (h : cut pat bs = some (a, b)) (t : List UInt8) :
    cut pat (bs ++ t) = some (a, b ++ t) := by
  obtain ⟨i, hi, heq⟩ := Option.map_eq_some_iff.mp h
  obtain ⟨rfl, rfl⟩ := Prod.mk.inj heq
  have hle := Search.find_add_length_le hi
  rw [cut, Search.find_append hi, Option.map_some,
    List.take_append_of_le_length (Nat.le_of_add_right_le hle), List.drop_append_of_le_length hle]

theorem readFields_extends {fuel : Nat} {bs rest : List UInt8} {hs : List (List UInt8 × List UInt8)}
    (h : readFields fuel bs = some (hs, rest)) (n : Nat) (t : List UInt8) :
    readFields (fuel + n) (bs ++ t) = some (hs, rest ++ t) := by
  induction fuel generalizing bs hs with
  | zero => cases h
  | succ fuel ih =>
    rw [readFields] at h
    rw [Nat.succ_add, readFields]
    rcases hcut : cut CRLF bs with _ | ⟨_ | ⟨c, l⟩, rest'⟩ <;> rw [hcut] at h
    · cases h
    · obtain ⟨rfl, rfl⟩ := Prod.mk.inj (Option.some.inj h)
      rw [cut_extends hcut t]
    · rw [cut_extends hcut t]
      dsimp only at h ⊢
      rcases hfield : cut [COLON] (c :: l) with _ | field <;> rw [hfield] at h
      · cases h
      · rcases hread : readFields fuel rest' with _ | ⟨hs', rest''⟩ <;> rw [hread] at h
        · cases h
        · obtain ⟨rfl, rfl⟩ := Prod.mk.inj (Option.some.inj h)
          rw [ih hread]

/-- **A request that is complete** stays what it is when more bytes arrive. -/
theorem readRequest_extends {bs rest : List UInt8} {r : Request}
    (h : readRequest bs = some (r, rest)) (t : List UInt8) :
    readRequest (bs ++ t) = some (r, rest ++ t) := by
  simp only [readRequest, Option.bind_eq_bind, Option.bind_eq_some_iff, Prod.exists,
    Option.guard_eq_some', exists_const] at h
  obtain ⟨line, rest₁, hcut, method, host, path, hline, hs, rest₂, hfields, n, hlength, hn, hr⟩ := h
  obtain ⟨rfl, rfl⟩ := Prod.mk.inj (Option.some.inj hr)
  have hfields' := readFields_extends hfields t.length t
  have hlen : (rest₁ ++ t).length + 1 = rest₁.length + 1 + t.length := by
    rw [List.length_append]
    omega
  have hn' : n ≤ (rest₂ ++ t).length := by
    rw [List.length_append]
    exact Nat.le_add_right_of_le hn
  have hguard : guard (n ≤ (rest₂ ++ t).length) = some () := (Option.guard_eq_some' _).mpr hn'
  simp only [readRequest, cut_extends hcut t, hline, hlen, hfields', hlength, hguard,
    Option.bind_eq_bind, Option.bind_some, List.take_append_of_le_length hn,
    List.drop_append_of_le_length hn]
  rfl

/-- **No request ends inside of another one**: the bytes of a request are read as a whole, or nothing
is read of them. -/
theorem readRequest_of_prefix {r r' : Request} {bs rest : List UInt8} (h : r.WellFormed)
    (hpre : bs <+: r.bytes) (hread : readRequest bs = some (r', rest)) :
    bs = r.bytes ∧ r' = r ∧ rest = [] := by
  obtain ⟨t, ht⟩ := hpre
  have hwhole := readRequest_bytes h []
  rw [List.append_nil, ← ht, readRequest_extends hread t] at hwhole
  obtain ⟨rfl, hrest⟩ := Prod.mk.inj (Option.some.inj hwhole)
  obtain ⟨rfl, rfl⟩ := List.append_eq_nil_iff.mp hrest
  exact ⟨by rw [← ht, List.append_nil], rfl, rfl⟩

end Http

import KiiThing.Core.Ready
import KiiThing.Sdk.Ranges

/-!
# The total length of a partial download

`kii_object_download_body` looks for `Content-Range: ` in the buffer, spelled in this way, for a slash
behind it, and for a number behind this. It looks at header and body alike, up to the first NUL.

`totalIsRight_iff` is when this is the total length that the response declares, and nothing where it
declares none. A number that no `int` holds is not one that `atoi` has to read: `IsAtoi` are the
functions that may stand for it. For a field that is spelled as it is looked for, with nothing that
looks like it in front, all depends on the size of the number (`tellsTotal_iff_of_field`).
-/

namespace KiiThing

open Http

variable {w : Nat}

/-! ## The function, for any `atoi` -/

/-- What C promises of `atoi`. -/
def IsAtoi (f : List Byte → Int) : Prop := ∀ s, -2 ^ 31 ≤ atoi s → atoi s < 2 ^ 31 → f s = atoi s

/-- The text behind the slash. -/
def behindSlash (text : List Byte) : Option (List Byte) :=
  (Search.find (ascii "Content-Range: ") text).bind fun i =>
    (Search.find (ascii "/") (text.drop i)).map fun j => (text.drop i).drop (j + 1)

/-- The end of `kii_object_download_body`. -/
def readContentRangeWith (f : List Byte → Int) (x : Exchange w) : Ending Int w :=
  match behindSlash (x.core.http.buffer.bytes.takeWhile (· ≠ 0)) with
  | none => .returned (-1) x []
  | some s => .returned 0 x [some (.number ((f s % 2 ^ 32).toNat : Int)),
      some (.number ((x.core.responseBodyLength % 2 ^ 32 : Nat) : Int))]

/-- `kii_object_download_body`. -/
def kiiObjectDownloadBodyWith (f : List Byte → Int) (cbs : Callbacks) (fuel : Nat) (k : Core w)
    (bucket : Bucket) (objectId : CString) (position length : Nat) : Option (Ending Int w) :=
  perform cbs fuel (kiiCoreApiCall k (downloadBodyCall k bucket objectId position length)) (-1)
    fun x => ifSuccessful x (-1) (readContentRangeWith f x)

theorem isAtoi_atoi : IsAtoi atoi := fun _ _ _ => rfl

theorem readContentRangeWith_atoi (x : Exchange w) :
    readContentRangeWith atoi x = readContentRange x := by
  unfold readContentRangeWith readContentRange behindSlash contentRangeTotal Buffer.strstr
  cases Search.find (ascii "Content-Range: ")
      (x.core.http.buffer.bytes.takeWhile (· ≠ 0)) with
  | none => rfl
  | some i =>
    dsimp only [Option.bind_some]
    cases Search.find (ascii "/")
        ((x.core.http.buffer.bytes.takeWhile (· ≠ 0)).drop i) with
    | none => rfl
    | some j => rfl

/-- With the number itself for one that no `int` holds, it is the function of before. -/
theorem kiiObjectDownloadBodyWith_atoi (cbs : Callbacks) (fuel : Nat) (k : Core w) (bucket : Bucket)
    (objectId : CString) (position length : Nat) :
    kiiObjectDownloadBodyWith atoi cbs fuel k bucket objectId position length =
      kiiObjectDownloadBody cbs fuel k bucket objectId position length := by
  simp only [kiiObjectDownloadBodyWith, kiiObjectDownloadBody, readContentRangeWith_atoi]

/-! ## What a response declares -/

/-- A field `Content-Range` with the value `bytes a-b/T`: its name in any mix of letter case, and
blanks around the value. -/
def TotalLine (T : Nat) (l : List Byte) : Prop :=
  ∃ name blanks trail a b, l = name ++ (ascii ":" ++ (blanks ++ (ascii "bytes " ++
      (Decimal.text a ++ (ascii "-" ++ (Decimal.text b ++ (ascii "/" ++
        (Decimal.text T ++ trail)))))))) ∧
    name.map toLower = ascii "content-range" ∧ ∀ c ∈ blanks ++ trail, c = 32 ∨ c = 9

/-- One field declares the total length. -/
def DeclaresTotal (r : Response) (T : Nat) : Prop :=
  ∃ before l after, r.fields = before ++ l :: after ∧ TotalLine T l ∧
    ∀ l' ∈ before ++ after, ∀ T', ¬ TotalLine T' l'

/-- No field declares it. -/
def DeclaresNoTotal (r : Response) : Prop := ∀ l ∈ r.fields, ∀ T, ¬ TotalLine T l

/-- The total length that is declared is what the caller gets, and without one the call fails and
stores nothing. -/
structure TotalIsRight (cbs : Callbacks) (fuel : Nat) (k : Core w) (bucket : Bucket)
    (objectId : CString) (position length : Nat) (r : Response) : Prop where
  told : ∀ T < 2 ^ 32, DeclaresTotal r T → ∀ f, IsAtoi f → ∃ x actual,
    kiiObjectDownloadBodyWith f cbs fuel k bucket objectId position length =
      some (.returned 0 x [some (.number (T : Int)), actual])
  silent : DeclaresNoTotal r → ∀ f, IsAtoi f → ∃ x,
    kiiObjectDownloadBodyWith f cbs fuel k bucket objectId position length =
      some (.returned (-1) x [])

/-- The text is cut at the first `Content-Range: ` and at the first slash behind it. -/
structure CutAtSlash (text before value behind : List Byte) : Prop where
  eq : text = before ++ (ascii "Content-Range: " ++ (value ++ 47 :: behind))
  first : ∀ j < before.length, ¬ ascii "Content-Range: " <+: text.drop j
  noSlash : 47 ∉ value

/-- The text begins with the number `T`, in an `int`. -/
def TellsTotal (behind : List Byte) (T : Nat) : Prop :=
  -2 ^ 31 ≤ atoi behind ∧ atoi behind < 2 ^ 31 ∧ atoi behind % 2 ^ 32 = T

/-- A total length that is declared stands behind the first slash behind the first `Content-Range: `
of the response, up to its first NUL; where none is declared there are no such two. -/
structure TotalFound (r : Response) : Prop where
  declared : ∀ T < 2 ^ 32, DeclaresTotal r T → ∃ before value behind,
    CutAtSlash (r.bytes.takeWhile (· ≠ 0)) before value behind ∧ TellsTotal behind T
  none : DeclaresNoTotal r → ∀ before value behind,
    ¬ CutAtSlash (r.bytes.takeWhile (· ≠ 0)) before value behind

/-! ## What is found -/

/-- **The two searches cut the text.** -/
theorem behindSlash_eq_some_iff {text s : List Byte} :
    behindSlash text = some s ↔ ∃ before value, CutAtSlash text before value s := by
  have hslash : (47 : Byte) ∉ ascii "Content-Range: " := by decide
  unfold behindSlash
  constructor
  · intro h
    obtain ⟨i, hi, h⟩ := Option.bind_eq_some_iff.mp h
    obtain ⟨j, hj, rfl⟩ := Option.map_eq_some_iff.mp h
    obtain ⟨before, b, rfl, rfl, hfirst⟩ := Search.find_eq_some_iff_append.mp hi
    rw [List.drop_left] at hj ⊢
    obtain ⟨a, s, heq, rfl, hnot⟩ := (Search.find_singleton_iff (c := (47 : Byte))).mp hj
    have hbehind : (ascii "Content-Range: " ++ b).drop (a.length + 1) = s := by
      rw [heq, ← List.drop_drop, List.drop_left]
      rfl
    rw [hbehind]
    -- the slash stands behind the name
    obtain ⟨value, rfl, hb⟩ | ⟨c, hname, hc⟩ := List.append_eq_append_iff.mp heq
    · refine ⟨before, value, by rw [hb], hfirst, ?_⟩
      exact fun hmem => hnot (List.mem_append_right _ hmem)
    · cases c with
      | nil =>
        have hb : b = 47 :: s := hc.symm
        exact ⟨before, [], by rw [hb]; rfl, hfirst, List.not_mem_nil⟩
      | cons x c =>
        obtain ⟨rfl, -⟩ := List.cons.inj hc
        exact absurd (hname ▸ List.mem_append_right a List.mem_cons_self) hslash
  · rintro ⟨before, value, rfl, hfirst, hnot⟩
    have hfind : Search.find (ascii "Content-Range: ")
        (before ++ (ascii "Content-Range: " ++ (value ++ 47 :: s))) = some before.length :=
      Search.find_eq_some_iff_append.mpr ⟨before, _, rfl, rfl, hfirst⟩
    have hnot' : (47 : Byte) ∉ ascii "Content-Range: " ++ value := by
      rw [List.mem_append]
      exact not_or_intro hslash hnot
    have hfind' : Search.find (ascii "/") (ascii "Content-Range: " ++ (value ++ 47 :: s)) =
        some (ascii "Content-Range: " ++ value).length := by
      rw [← List.append_assoc]
      exact Search.find_singleton_iff.mpr ⟨_, s, rfl, rfl, hnot'⟩
    rw [hfind, Option.bind_some, List.drop_left, hfind', Option.map_some, ← List.append_assoc,
      ← List.drop_drop, List.drop_left]
    rfl

theorem behindSlash_eq_none_iff {text : List Byte} : behindSlash text = none ↔
    ∀ before value behind, ¬ CutAtSlash text before value behind := by
  rw [Option.eq_none_iff_forall_ne_some]
  constructor
  · intro h before value behind hcut
    exact h behind (behindSlash_eq_some_iff.mpr ⟨before, value, hcut⟩)
  · intro h s hs
    obtain ⟨before, value, hcut⟩ := behindSlash_eq_some_iff.mp hs
    exact h before value s hcut

theorem readContentRangeWith_of_none {f : List Byte → Int} {x : Exchange w}
    (h : behindSlash (x.core.http.buffer.bytes.takeWhile (· ≠ 0)) = none) :
    readContentRangeWith f x = .returned (-1) x [] := by
  rw [readContentRangeWith, h]

theorem readContentRangeWith_of_some {f : List Byte → Int} {x : Exchange w} {s : List Byte}
    (h : behindSlash (x.core.http.buffer.bytes.takeWhile (· ≠ 0)) = some s) :
    readContentRangeWith f x = .returned 0 x [some (.number ((f s % 2 ^ 32).toNat : Int)),
      some (.number ((x.core.responseBodyLength % 2 ^ 32 : Nat) : Int))] := by
  rw [readContentRangeWith, h]

/-- **What every `atoi` reads**: a number that an `int` holds. -/
theorem forall_isAtoi_iff {s : List Byte} {T : Nat} :
    (∀ f, IsAtoi f → (f s % 2 ^ 32).toNat = T) ↔ TellsTotal s T := by
  constructor
  · intro h
    by_cases hint : -2 ^ 31 ≤ atoi s ∧ atoi s < 2 ^ 31
    · have hatoi := h atoi isAtoi_atoi
      exact ⟨hint.1, hint.2, by omega⟩
    · -- what is undefined may be another number
      have hother := h (fun s => if -2 ^ 31 ≤ atoi s ∧ atoi s < 2 ^ 31 then atoi s else (T : Int) + 1)
        fun t hlow hhigh => if_pos ⟨hlow, hhigh⟩
      rw [if_neg hint] at hother
      omega
  · rintro ⟨hlow, hhigh, hmod⟩ f hf
    rw [hf s hlow hhigh, hmod]
    exact Int.toNat_natCast T

section

variable {cbs : Callbacks} {fuel : Nat} {k : Core w} {bucket : Bucket} {objectId : CString}
  {position length : Nat} {x : Exchange w} {r : Response}

/-- Behind a successful exchange comes the search, in what was received. -/
theorem kiiObjectDownloadBodyWith_eq (hposition : position < 2 ^ 32)
    (hcode : (kiiCoreApiCall k (downloadBodyCall k bucket objectId position length)).code = .ok)
    (hrun : runToIdle cbs fuel
      (kiiCoreApiCall k (downloadBodyCall k bucket objectId position length)).core = some (.ok, x))
    (h2xx : 200 ≤ x.core.responseCode ∧ x.core.responseCode < 300) :
    (∀ f, kiiObjectDownloadBodyWith f cbs fuel k bucket objectId position length =
      some (readContentRangeWith f x)) ∧
      x.core.http.buffer.bytes.takeWhile (· ≠ 0) = (received x.trace).takeWhile (· ≠ 0) := by
  have hprep := (downloadBody_prepares k bucket objectId hposition length).prepared hcode
  obtain ⟨b, code, hx⟩ := runToIdle_ok hprep hrun
  refine ⟨?_, ?_⟩
  · intro f
    rw [kiiObjectDownloadBodyWith, perform_of_ok hcode hrun, ifSuccessful_of_2xx h2xx]
  · have hbuffer : x.core.http.buffer.bytes = b.bytes := by rw [hx.core]; rfl
    rw [hbuffer, hx.contains, takeWhile_pad]

/-- **When the total length is right.** -/
theorem totalIsRight_iff (hposition : position < 2 ^ 32)
    (hcode : (kiiCoreApiCall k (downloadBodyCall k bucket objectId position length)).code = .ok)
    (hrun : runToIdle cbs fuel
      (kiiCoreApiCall k (downloadBodyCall k bucket objectId position length)).core = some (.ok, x))
    (h2xx : 200 ≤ x.core.responseCode ∧ x.core.responseCode < 300)
    (hreceived : received x.trace = r.bytes) :
    TotalIsRight cbs fuel k bucket objectId position length r ↔ TotalFound r := by
  obtain ⟨hrest, htext⟩ := kiiObjectDownloadBodyWith_eq hposition hcode hrun h2xx
  rw [hreceived] at htext
  constructor
  · intro h
    refine ⟨?_, ?_⟩
    · intro T hT hdeclares
      have htold : ∀ f, IsAtoi f → ∃ y actual, readContentRangeWith f x =
          .returned 0 y [some (.number (T : Int)), actual] := by
        intro f hf
        obtain ⟨y, actual, hy⟩ := h.told T hT hdeclares f hf
        exact ⟨y, actual, Option.some.inj ((hrest f).symm.trans hy)⟩
      cases hs : behindSlash (x.core.http.buffer.bytes.takeWhile (· ≠ 0)) with
      | none =>
        obtain ⟨y, actual, hy⟩ := htold atoi isAtoi_atoi
        rw [readContentRangeWith_of_none hs] at hy
        cases hy
      | some s =>
        obtain ⟨before, value, hcut⟩ := behindSlash_eq_some_iff.mp hs
        rw [htext] at hcut
        refine ⟨before, value, s, hcut, forall_isAtoi_iff.mp ?_⟩
        intro f hf
        obtain ⟨y, actual, hy⟩ := htold f hf
        rw [readContentRangeWith_of_some hs] at hy
        simp only [Ending.returned.injEq, List.cons.injEq, Option.some.injEq,
          JsonValue.number.injEq, Int.natCast_inj] at hy
        exact hy.2.2.1
    · intro hnone
      rw [← htext]
      apply behindSlash_eq_none_iff.mp
      by_contra hsome
      obtain ⟨s, hs⟩ := Option.ne_none_iff_exists'.mp hsome
      obtain ⟨y, hy⟩ := h.silent hnone atoi isAtoi_atoi
      rw [hrest, readContentRangeWith_of_some hs] at hy
      cases hy
  · intro h
    refine ⟨?_, ?_⟩
    · intro T hT hdeclares f hf
      obtain ⟨before, value, s, hcut, htells⟩ := h.declared T hT hdeclares
      rw [← htext] at hcut
      have hs := behindSlash_eq_some_iff.mpr ⟨before, value, hcut⟩
      rw [hrest, readContentRangeWith_of_some hs, forall_isAtoi_iff.mpr htells f hf]
      exact ⟨x, _, rfl⟩
    · intro hnone f _
      have hs := h.none hnone
      rw [← htext] at hs
      rw [hrest, readContentRangeWith_of_none (behindSlash_eq_none_iff.mpr hs)]
      exact ⟨x, rfl⟩

end

/-! ## A field that is spelled as it is looked for -/

theorem atoi_text (n : Nat) {s : List Byte} (hs : ∀ c ∈ s.head?, Decimal.isDigit c = false) :
    atoi (Decimal.text n ++ s) = n := by
  have hread := Decimal.read_text n hs
  cases htext : Decimal.text n with
  | nil => exact absurd (List.map_eq_nil_iff.mp htext) (Decimal.digits_ne_nil n)
  | cons c ds =>
    obtain ⟨hlow, hhigh⟩ := Decimal.isDigit_iff.mp
      (Decimal.isDigit_of_mem_text (n := n) (c := c) (htext ▸ List.mem_cons_self))
    rw [htext] at hread
    have hne : ∀ d : Byte, d.toNat < 48 → c ≠ d := by
      rintro d hd rfl
      omega
    have hkeep : (c :: ds ++ s).dropWhile (fun c => c = 32 ∨ 9 ≤ c ∧ c ≤ 13) = c :: ds ++ s := by
      have hblank : ¬ (c = 32 ∨ 9 ≤ c ∧ c ≤ 13) := by
        rintro (rfl | ⟨-, hle⟩)
        · exact hne 32 (by decide) rfl
        · have hle' : c.toNat ≤ 13 := hle
          omega
      rw [List.cons_append, List.dropWhile_cons_of_neg (by simpa using hblank)]
    unfold atoi
    rw [hkeep]
    split
    · next t heq => exact absurd (List.cons.inj heq).1 (hne 45 (by decide))
    · next t heq => exact absurd (List.cons.inj heq).1 (hne 43 (by decide))
    · rw [hread]

theorem tellsTotal_text_iff {T : Nat} {s : List Byte}
    (hs : ∀ c ∈ s.head?, Decimal.isDigit c = false) :
    TellsTotal (Decimal.text T ++ s) T ↔ T < 2 ^ 31 := by
  rw [TellsTotal, atoi_text T hs]
  omega

/-- **The field that is looked for**, when nothing in front looks like it: what is left is whether
an `int` holds the number. -/
theorem tellsTotal_iff_of_field {r : Response} {before after : List (List Byte)} {trail : List Byte}
    {a b T : Nat} (hr : r.WellFormed)
    (hfields : r.fields = before ++ (ascii "Content-Range: " ++ (ascii "bytes " ++
      (Decimal.text a ++ (ascii "-" ++ (Decimal.text b ++ (ascii "/" ++
        (Decimal.text T ++ trail))))))) :: after)
    (htrail : ∀ c ∈ trail, c = 32 ∨ c = 9)
    (hclean : ∀ l ∈ r.statusLine :: before, ¬ ascii "Content-Range: " <:+: l) :
    (∃ before value behind, CutAtSlash (r.bytes.takeWhile (· ≠ 0)) before value behind ∧
      TellsTotal behind T) ↔ T < 2 ^ 31 := by
  have hhead : r.bytes.takeWhile (· ≠ 0) = r.head ++ r.body.takeWhile (· ≠ 0) := by
    rw [Response.bytes, List.takeWhile_append_of_pos]
    intro c hc
    have hne : c ≠ 0 := fun h0 => hr.isHead.noNul (h0 ▸ hc)
    simpa using hne
  have hlines : ∀ ls ls' : List (List Byte), lines (ls ++ ls') = lines ls ++ lines ls' :=
    fun ls ls' => List.flatMap_append
  obtain ⟨rest, hrest⟩ : ∃ rest, rest = trail ++ (CRLF ++ (lines after ++ (CRLF ++
    r.body.takeWhile (· ≠ 0)))) := ⟨_, rfl⟩
  obtain ⟨value, hvalue⟩ : ∃ value, value = ascii "bytes " ++ (Decimal.text a ++ (ascii "-" ++
    Decimal.text b)) := ⟨_, rfl⟩
  have htext : r.bytes.takeWhile (· ≠ 0) = lines (r.statusLine :: before) ++
      (ascii "Content-Range: " ++ (value ++ 47 :: (Decimal.text T ++ rest))) := by
    rw [hhead, Response.head, hfields, ← List.cons_append, hlines, hvalue, hrest]
    simp only [lines_cons, List.append_assoc]
    rfl
  have hcut : CutAtSlash (r.bytes.takeWhile (· ≠ 0)) (lines (r.statusLine :: before)) value
      (Decimal.text T ++ rest) := by
    refine ⟨htext, ?_, ?_⟩
    · intro j hj
      rw [htext]
      exact not_prefix_drop_lines (by decide) (by decide) (by decide) hclean _ hj
    · have hfigures : ∀ n, (47 : Byte) ∉ Decimal.text n := by
        intro n hmem
        exact absurd (Decimal.isDigit_of_mem_text hmem) (by decide)
      have hbytes : (47 : Byte) ∉ ascii "bytes " := by decide
      have hdash : (47 : Byte) ∉ ascii "-" := by decide
      simp only [hvalue, List.mem_append, hfigures, hbytes, hdash, or_self, not_false_eq_true]
  have hstop : ∀ c ∈ rest.head?, Decimal.isDigit c = false := by
    intro c hc
    rw [hrest] at hc
    cases trail with
    | nil =>
      obtain rfl : CR = c := by simpa [CRLF] using hc
      decide
    | cons d ds =>
      obtain rfl : d = c := by simpa using hc
      rcases htrail d List.mem_cons_self with rfl | rfl <;> decide
  constructor
  · rintro ⟨before', value', behind, hcut', htells⟩
    -- there is one such cut
    have hone := behindSlash_eq_some_iff.mpr ⟨_, _, hcut⟩
    rw [behindSlash_eq_some_iff.mpr ⟨_, _, hcut'⟩] at hone
    obtain rfl := Option.some.inj hone
    exact (tellsTotal_text_iff hstop).mp htells
  · intro hT
    exact ⟨_, _, _, hcut, (tellsTotal_text_iff hstop).mpr hT⟩

/-- The slash of such a field is the first one. -/
theorem TotalLine.exists_slash {T : Nat} {l : List Byte} (h : TotalLine T l) :
    ∃ front trail, l = front ++ 47 :: (Decimal.text T ++ trail) ∧ (47 : Byte) ∉ front ∧
      ∀ c ∈ trail, c = 32 ∨ c = 9 := by
  obtain ⟨name, blanks, trail, a, b, rfl, hname, hblanks⟩ := h
  have hslash : (47 : Byte) ∉ name := by
    intro hmem
    have hlower : toLower 47 ∈ name.map toLower := List.mem_map_of_mem hmem
    rw [hname] at hlower
    exact absurd hlower (by decide)
  have hblank : (47 : Byte) ∉ blanks := by
    intro hmem
    exact absurd (hblanks 47 (List.mem_append_left _ hmem)) (by decide)
  have hfigures : ∀ n, (47 : Byte) ∉ Decimal.text n := by
    intro n hmem
    exact absurd (Decimal.isDigit_of_mem_text hmem) (by decide)
  have hbytes : (47 : Byte) ∉ ascii ":" ∧ (47 : Byte) ∉ ascii "bytes " ∧ (47 : Byte) ∉ ascii "-" := by
    decide
  refine ⟨name ++ (ascii ":" ++ (blanks ++ (ascii "bytes " ++ (Decimal.text a ++ (ascii "-" ++
    Decimal.text b))))), trail, ?_, ?_, fun c hc => hblanks c (List.mem_append_right _ hc)⟩
  · simp only [List.append_assoc]
    rfl
  · simp [List.mem_append, hslash, hblank, hfigures, hbytes]

/-- A field declares one total length. -/
theorem TotalLine.unique {T T' : Nat} {l : List Byte} (h : TotalLine T l) (h' : TotalLine T' l) :
    T = T' := by
  have hstop : ∀ trail : List Byte, (∀ c ∈ trail, c = 32 ∨ c = 9) →
      ∀ c ∈ trail.head?, Decimal.isDigit c = false := by
    intro trail htrail c hc
    rcases htrail c (List.mem_of_mem_head? hc) with rfl | rfl <;> decide
  obtain ⟨front, trail, hl, hfront, htrail⟩ := h.exists_slash
  obtain ⟨front', trail', hl', hfront', htrail'⟩ := h'.exists_slash
  have hfind := Search.find_singleton_iff.mpr ⟨front, _, hl, rfl, hfront⟩
  rw [Search.find_singleton_iff.mpr ⟨front', _, hl', rfl, hfront'⟩] at hfind
  obtain ⟨-, hrest⟩ := List.append_inj (hl.symm.trans hl') (Option.some.inj hfind).symm
  have hread := congrArg (Decimal.read 0) (List.cons.inj hrest).2
  rwa [Decimal.read_text T (hstop trail htrail), Decimal.read_text T' (hstop trail' htrail')] at hread

/-! ## Three responses -/

/-- A partial response with one field and a body. -/
def partialResponse (field body : List Byte) : Response where
  d₁ := 50
  d₂ := 48
  d₃ := 54
  reason := ascii " Partial Content"
  fields := [field]
  body := body

/-- The download of the first five bytes of an object. -/
def firstFive : ApiCall :=
  downloadBodyCall (device 512 lt_word_512) ⟨.app, .lit "", .lit "b"⟩ (.lit "o") 0 5

/-- A response with a field in small letters is refused, and one that has no such field tells what
stands in its body. -/
theorem totalIsRight_fails :
    DeclaresTotal (partialResponse (ascii "content-range: bytes 0-4/1000") (ascii "hello")) 1000 ∧
    DeclaresNoTotal (partialResponse (ascii "x: y") (ascii "Content-Range: a/7")) ∧
    (∃ x, runToIdle (serving [(partialResponse (ascii "content-range: bytes 0-4/1000")
          (ascii "hello")).bytes]) 20 (kiiCoreApiCall (device 512) firstFive).core = some (.ok, x) ∧
      x.core.responseCode = 206 ∧
      ¬ TotalIsRight (serving [(partialResponse (ascii "content-range: bytes 0-4/1000")
          (ascii "hello")).bytes]) 20 (device 512) ⟨.app, .lit "", .lit "b"⟩ (.lit "o") 0 5
        (partialResponse (ascii "content-range: bytes 0-4/1000") (ascii "hello"))) ∧
    ∃ x, runToIdle (serving [(partialResponse (ascii "x: y") (ascii "Content-Range: a/7")).bytes]) 20
        (kiiCoreApiCall (device 512) firstFive).core = some (.ok, x) ∧
      x.core.responseCode = 206 ∧
      ¬ TotalIsRight (serving [(partialResponse (ascii "x: y") (ascii "Content-Range: a/7")).bytes]) 20
        (device 512) ⟨.app, .lit "", .lit "b"⟩ (.lit "o") 0 5
        (partialResponse (ascii "x: y") (ascii "Content-Range: a/7")) := by
  have hcode : (kiiCoreApiCall (device 512) firstFive).code = .ok := by decide +kernel
  have hsmall : DeclaresTotal
      (partialResponse (ascii "content-range: bytes 0-4/1000") (ascii "hello")) 1000 :=
    ⟨[], _, [], rfl, ⟨ascii "content-range", ascii " ", [], 0, 4, by decide, by decide, by decide⟩,
      by simp⟩
  have hno : DeclaresNoTotal (partialResponse (ascii "x: y") (ascii "Content-Range: a/7")) := by
    intro l hl T hT
    obtain rfl : l = ascii "x: y" := by simpa [partialResponse] using hl
    obtain ⟨name, blanks, trail, a, b, heq, hname, -⟩ := hT
    -- the name has more letters than the line
    have hlen := congrArg List.length hname
    have hline := congrArg List.length heq
    rw [List.length_map] at hlen
    rw [List.length_append, hlen] at hline
    exact absurd hline (by
      rw [show (ascii "x: y").length = 4 from rfl, show (ascii "content-range").length = 13 from rfl]
      omega)
  refine ⟨hsmall, hno, ?_, ?_⟩
  · have hrun : (runToIdle (serving [(partialResponse (ascii "content-range: bytes 0-4/1000")
        (ascii "hello")).bytes]) 20 (kiiCoreApiCall (device 512) firstFive).core).map
          (fun r => (r.1, behindSlash ((received r.2.trace).takeWhile (· ≠ 0)),
            r.2.core.responseCode)) = some (.ok, none, 206) := by
      decide +kernel
    obtain ⟨x, hx, hfields⟩ := exists_runToIdle_of_map
      (fun x => (behindSlash ((received x.trace).takeWhile (· ≠ 0)), x.core.responseCode)) hrun
    obtain ⟨hnone, h206⟩ := Prod.mk.inj hfields
    refine ⟨x, hx, h206, ?_⟩
    intro h
    obtain ⟨hrest, htext⟩ := kiiObjectDownloadBodyWith_eq (by decide) hcode hx (by rw [h206]; decide)
    obtain ⟨y, actual, hy⟩ := h.told 1000 (by decide) hsmall atoi isAtoi_atoi
    rw [← htext] at hnone
    rw [hrest, readContentRangeWith_of_none hnone] at hy
    cases hy
  · have hrun : (runToIdle (serving [(partialResponse (ascii "x: y")
        (ascii "Content-Range: a/7")).bytes]) 20 (kiiCoreApiCall (device 512) firstFive).core).map
          (fun r => (r.1, behindSlash ((received r.2.trace).takeWhile (· ≠ 0)),
            r.2.core.responseCode)) = some (.ok, some (ascii "7"), 206) := by
      decide +kernel
    obtain ⟨x, hx, hfields⟩ := exists_runToIdle_of_map
      (fun x => (behindSlash ((received x.trace).takeWhile (· ≠ 0)), x.core.responseCode)) hrun
    obtain ⟨hsome, h206⟩ := Prod.mk.inj hfields
    refine ⟨x, hx, h206, ?_⟩
    intro h
    obtain ⟨hrest, htext⟩ := kiiObjectDownloadBodyWith_eq (by decide) hcode hx (by rw [h206]; decide)
    obtain ⟨y, hy⟩ := h.silent hno atoi isAtoi_atoi
    rw [← htext] at hsome
    rw [hrest, readContentRangeWith_of_some hsome] at hy
    cases hy

/-- A response whose field is spelled as it is looked for. -/
def partialHello : Response :=
  partialResponse (ascii "Content-Range: bytes 0-4/1000") (ascii "hello")

theorem totalLine_hello : TotalLine 1000 (ascii "Content-Range: bytes 0-4/1000") :=
  ⟨ascii "Content-Range", ascii " ", [], 0, 4, by decide, by decide, by decide⟩

theorem totalFound_hello : TotalFound partialHello := by
  refine ⟨?_, ?_⟩
  · rintro T - ⟨before, l, after, hfields, hline, -⟩
    have hl : l ∈ partialHello.fields := hfields ▸ List.mem_append_right _ List.mem_cons_self
    obtain rfl := List.mem_singleton.mp hl
    obtain rfl := hline.unique totalLine_hello
    have hiff := @tellsTotal_iff_of_field partialHello [] [] [] 0 4 1000
      ⟨rfl, rfl, rfl, by decide, by decide⟩ (by decide) (by simp) (by decide)
    exact hiff.mpr (by decide)
  · intro hno
    exact absurd totalLine_hello (hno _ List.mem_cons_self 1000)

/-- The total length is right, whatever `atoi` makes of other texts. -/
theorem totalIsRight_iff_of_field :
    ∃ x, runToIdle (serving [partialHello.bytes]) 20 (kiiCoreApiCall (device 512) firstFive).core =
        some (.ok, x) ∧
      TotalIsRight (serving [partialHello.bytes]) 20 (device 512) ⟨.app, .lit "", .lit "b"⟩
        (.lit "o") 0 5 partialHello := by
  have hrun : (runToIdle (serving [partialHello.bytes]) 20
      (kiiCoreApiCall (device 512) firstFive).core).map
        (fun r => (r.1, received r.2.trace, r.2.core.responseCode)) =
      some (.ok, partialHello.bytes, 206) := by
    decide +kernel
  obtain ⟨x, hx, hfields⟩ := exists_runToIdle_of_map
    (fun x => (received x.trace, x.core.responseCode)) hrun
  obtain ⟨hreceived, h206⟩ := Prod.mk.inj hfields
  exact ⟨x, hx, (totalIsRight_iff (by decide) (by decide +kernel) hx (by rw [h206]; decide)
    hreceived).mpr totalFound_hello⟩

end KiiThing

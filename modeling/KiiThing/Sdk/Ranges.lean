import KiiThing.Core.Headers
import KiiThing.Sdk.Object

/-!
# Ranges

The header fields in which `kii_object_download_body` and `kii_object_upload_body` say what part of a
body they are about, read back from the request.

The upload prints its positions with `"%lu"` and says what it means. The download prints an
`unsigned int` with `"%d"`, so that a position from 2^31 on is printed as a negative number:
`ranges_iff`.
-/

namespace KiiThing

open Http

variable {w : Nat}

/-! ## Reading a range -/

/-- What stands behind a text. -/
def behindText (text s : List Byte) : Option (List Byte) :=
  if text <+: s then some (s.drop text.length) else none

/-- Read the first and the last position of `bytes=0-99`, and what stands behind them. -/
def readPositions (value : List Byte) : Option (Nat × Nat × List Byte) := do
  let s ← behindText (ascii " bytes=") value
  let (first, s) ← Decimal.number s
  let s ← behindText (ascii "-") s
  let (last, s) ← Decimal.number s
  some (first, last, s)

/-- Read the value of the field `Range`: the first and the last position. -/
def readRange (value : List Byte) : Option (Nat × Nat) := do
  let (first, last, s) ← readPositions value
  if s = [] then some (first, last) else none

/-- Read the value of the field `Content-Range` of an upload: the two positions and the length of the
whole body. -/
def readRangeOf (value : List Byte) : Option (Nat × Nat × Nat) := do
  let (first, last, s) ← readPositions value
  let s ← behindText (ascii "/") s
  let (total, s) ← Decimal.number s
  if s = [] then some (first, last, total) else none

theorem behindText_append (text s : List Byte) : behindText text (text ++ s) = some s := by
  rw [behindText, if_pos (List.prefix_append text s), List.drop_left]

/-- **Positions read back.** -/
theorem readPositions_text (first last : Nat) {s : List Byte}
    (hs : ∀ c ∈ s.head?, Decimal.isDigit c = false) :
    readPositions (ascii " bytes=" ++ (Decimal.text first ++ (ascii "-" ++ (Decimal.text last ++ s)))) =
      some (first, last, s) := by
  have hdash : ∀ c ∈ (ascii "-" ++ (Decimal.text last ++ s)).head?, Decimal.isDigit c = false := by
    rintro c ⟨rfl⟩
    decide
  simp only [readPositions, behindText_append, Decimal.number_text first hdash,
    Decimal.number_text last hs, Option.bind_eq_bind, Option.bind_some]

/-- No number begins with a minus. -/
theorem number_minus (s : List Byte) : Decimal.number (ascii "-" ++ s) = none :=
  if_neg (show ¬ Decimal.isDigit 45 = true by decide)

/-! ## The fields that are sent -/

/-- The value of a field in the request of a call. -/
def ApiCall.sentField (a : ApiCall) (k : Core w) (name : List Byte) : Option (List Byte) :=
  (a.message k).headers.lookup name

/-- The field `Range` of a download says what was asked for. -/
def RangeDenotes (k : Core w) (bucket : Bucket) (objectId : CString) (position length : Nat) : Prop :=
  ((downloadBodyCall k bucket objectId position length).sentField k (ascii "Range")).bind readRange =
    some (position, position + length - 1)

/-- The field `Content-Range` of an upload says what the chunk is. -/
def ContentRangeDenotes (k : Core w) (bucket : Bucket) (objectId uploadId : CString)
    (chunk : ChunkData) : Prop :=
  ((uploadBodyCall k bucket objectId uploadId chunk).sentField k (ascii "Content-Range")).bind
      readRangeOf =
    some (chunk.position, chunk.position + chunk.length - 1, chunk.totalLength)

/-! ## What is sent of an additional header -/

section

variable {strs : List CString} {str : CString} {name value : List Byte}

/-- The names of the headers in front of the additional ones. -/
def standardNames : List (List Byte) :=
  [ascii "host", ascii "x-kii-appid", ascii "x-kii-appkey", ascii "x-kii-sdk", ascii "content-type",
    ascii "authorization"]

theorem lookup_append_of_forall {hs hs' : List Header} (h : ∀ header ∈ hs, header.1 ≠ name) :
    (hs ++ hs').lookup name = hs'.lookup name := by
  induction hs with
  | nil => rfl
  | cons header hs ih =>
    have hne : (name == header.1) = false := beq_false_of_ne (h header List.mem_cons_self).symm
    rw [List.cons_append, List.lookup_cons, hne]
    exact ih fun x hx => h x (List.mem_cons_of_mem _ hx)

theorem mem_standardNames (k : Core w) (contentType accessToken : Option CString) :
    ∀ header ∈ k.defaultHeaders ++ (headerIf (.lit "content-type") contentType ++
      bearerHeader accessToken), header.1 ∈ standardNames := by
  intro header hmem
  rcases List.mem_append.mp hmem with hmem | hmem
  · simp only [Core.defaultHeaders, List.mem_cons, List.not_mem_nil, or_false] at hmem
    rcases hmem with rfl | rfl | rfl | rfl <;> simp [standardNames]
  · rcases List.mem_append.mp hmem with hmem | hmem
    · obtain ⟨v, -, rfl⟩ := by simpa [headerIf] using hmem
      exact (by decide : (CString.lit "content-type").bytes ∈ standardNames)
    · obtain ⟨v, -, rfl⟩ := by simpa [bearerHeader, headerIf] using hmem
      exact (by decide : (CString.lit "authorization").bytes ∈ standardNames)

/-- The fields of a call that are not standard are the additional headers. -/
theorem sentField_eq (a : ApiCall) (k : Core w) (hname : name ∉ standardNames) :
    a.sentField k name =
      (sentHeaders [] a.headers ++ bodyHeaders a.httpBody a.bodySize).lookup name := by
  have hfields : (a.message k).headers = (k.defaultHeaders ++
      (headerIf (.lit "content-type") a.contentType ++ bearerHeader k.accessToken)) ++
        (sentHeaders [] a.headers ++ bodyHeaders a.httpBody a.bodySize) := by
    simp only [ApiCall.message, Core.request, List.append_assoc]
  rw [ApiCall.sentField, hfields]
  apply lookup_append_of_forall
  rintro header hmem rfl
  exact hname (mem_standardNames k a.contentType k.accessToken header hmem)

/-- An additional header is cut at its first colon. -/
theorem sentHeaders_cons (hstr : str.bytes = name ++ (ascii ":" ++ value))
    (hcolon : Search.find (ascii ":") (name ++ ascii ":") = some name.length) (live : List Byte) :
    sentHeaders live (str :: strs) =
      (name ++ live.drop name.length, value) ::
        sentHeaders (name ++ live.drop name.length) strs := by
  have hfind : colon str = some name.length := by
    rw [colon, hstr, ← List.append_assoc]
    exact Search.find_append hcolon value
  have htake : str.bytes.take name.length = name := by rw [hstr, List.take_left]
  have hdrop : str.bytes.drop (name.length + 1) = value := by
    rw [hstr, ← List.drop_drop, List.drop_left]
    rfl
  rw [sentHeaders, hfind]
  dsimp only
  rw [htake, hdrop]

end

section

variable (k : Core w) (bucket : Bucket) (objectId uploadId : CString)

/-- The last position of a range. -/
theorem last_eq {position length : Nat} {size : Nat} (hlength : 1 ≤ length)
    (hlast : position + length - 1 < size) :
    (position + length + size - 1) % size = position + length - 1 := by
  have hshift : position + length + size - 1 = position + length - 1 + size := by omega
  rw [hshift, Nat.add_mod_right, Nat.mod_eq_of_lt hlast]

theorem sentField_download {position length : Nat} (hlength : 1 ≤ length)
    (hlast : position + length - 1 < 2 ^ 32) :
    (downloadBodyCall k bucket objectId position length).sentField k (ascii "Range") =
      some (ascii " bytes=" ++ ((intText position).bytes ++
        (ascii "-" ++ (intText (position + length - 1)).bytes))) := by
  rw [sentField_eq _ _ (by decide)]
  have hbytes : (CString.lit "Range: " ++ .lit "bytes=" ++ intText position ++ .lit "-" ++
      intText (position + length - 1)).bytes = ascii "Range" ++ (ascii ":" ++ (ascii " bytes=" ++
        ((intText position).bytes ++ (ascii "-" ++ (intText (position + length - 1)).bytes)))) := by
    simp only [CString.bytes_append, List.append_assoc]
    rfl
  simp only [downloadBodyCall, last_eq hlength hlast]
  rw [sentHeaders_cons hbytes (by decide)]
  rfl

theorem sentField_upload {chunk : ChunkData} (hlength : 1 ≤ chunk.length)
    (hlast : chunk.position + chunk.length - 1 < 2 ^ w) :
    (uploadBodyCall k bucket objectId uploadId chunk).sentField k (ascii "Content-Range") =
      some (ascii " bytes=" ++ (Decimal.text chunk.position ++
        (ascii "-" ++ (Decimal.text (chunk.position + chunk.length - 1) ++
          (ascii "/" ++ Decimal.text chunk.totalLength))))) := by
  rw [sentField_eq _ _ (by decide)]
  have haccept : (CString.lit "Accept: application/json, application/*+json").bytes =
      ascii "Accept" ++ (ascii ":" ++ ascii " application/json, application/*+json") := by decide
  have hbytes : (CString.lit "Content-Range: " ++ .lit "bytes=" ++ unsignedText chunk.position ++
      .lit "-" ++ unsignedText (chunk.position + chunk.length - 1) ++ .lit "/" ++
        unsignedText chunk.totalLength).bytes = ascii "Content-Range" ++ (ascii ":" ++
          (ascii " bytes=" ++ (Decimal.text chunk.position ++ (ascii "-" ++
            (Decimal.text (chunk.position + chunk.length - 1) ++
              (ascii "/" ++ Decimal.text chunk.totalLength)))))) := by
    simp only [CString.bytes_append, List.append_assoc]
    rfl
  simp only [uploadBodyCall, last_eq hlength hlast]
  rw [sentHeaders_cons haccept (by decide), sentHeaders_cons hbytes (by decide)]
  rfl

/-! ## What is prepared -/

theorem headerFits_of_lt {str : CString} (h : str.length < 128) : HeaderFits str := by
  intro n hn
  have hlt := lt_length_of_colon hn
  omega

theorem length_intText_le {n : Nat} (h : n < 2 ^ 32) : (intText n).length ≤ 11 := by
  rw [intText]
  split
  · exact Nat.le_succ_of_le (Decimal.length_text_le (k := 10) (by decide) (by omega))
  · have hlen : (unsignedText (2 ^ 32 - n)).length ≤ 10 :=
      Decimal.length_text_le (by decide) (by omega)
    have hminus : (CString.lit "-").length = 1 := rfl
    rw [CString.length_append, hminus]
    omega

/-- **The request of a download** is the one that its field `Range` is read from. -/
theorem downloadBody_prepares {position : Nat} (hposition : position < 2 ^ 32) (length : Nat) :
    let a := downloadBodyCall k bucket objectId position length
    Prepares k (kiiCoreApiCall k a)
      (k.room a.httpMethod a.resourcePath ∧ ¬ FirstWithoutColon a.headers) (a.message k) := by
  apply apiCall_prepares (by rintro _ ⟨⟩)
  have hfirst := length_intText_le hposition
  have hlast := length_intText_le (Nat.mod_lt (position + length + 2 ^ 32 - 1) (Nat.two_pow_pos 32))
  have hrange : (CString.lit "Range: ").length = 7 := rfl
  have hbytes : (CString.lit "bytes=").length = 6 := rfl
  have hdash : (CString.lit "-").length = 1 := rfl
  simp only [downloadBodyCall, List.forall_mem_cons]
  refine ⟨headerFits_of_lt ?_, headerFits_of_lt (by decide), by simp⟩
  simp only [CString.length_append, hrange, hbytes, hdash]
  omega

/-- **The request of an upload** is the one that its field `Content-Range` is read from. A word has
64 bits at most. -/
theorem uploadBody_prepares {chunk : ChunkData} (hw : w ≤ 64)
    (hread : Readable w chunk.chunk chunk.length) (hposition : chunk.position < 2 ^ w)
    (htotal : chunk.totalLength < 2 ^ w) :
    let a := uploadBodyCall k bucket objectId uploadId chunk
    Prepares k (kiiCoreApiCall k a)
      (k.room a.httpMethod a.resourcePath ∧ ¬ FirstWithoutColon a.headers) (a.message k) := by
  apply apiCall_prepares hread
  have htext : ∀ n, n < 2 ^ w → (unsignedText n).length ≤ 20 := by
    intro n hn
    have hpow : 2 ^ w ≤ 2 ^ 64 := Nat.pow_le_pow_right (by decide) hw
    exact Decimal.length_text_le (by decide) (by omega)
  have hfirst := htext _ hposition
  have hlast := htext _
    (Nat.mod_lt (chunk.position + chunk.length + 2 ^ w - 1) (Nat.two_pow_pos w))
  have hall := htext _ htotal
  have hrange : (CString.lit "Content-Range: ").length = 15 := rfl
  have hbytes : (CString.lit "bytes=").length = 6 := rfl
  have hdash : (CString.lit "-").length = 1 := rfl
  have hslash : (CString.lit "/").length = 1 := rfl
  simp only [uploadBodyCall, List.forall_mem_cons]
  refine ⟨headerFits_of_lt (by decide), headerFits_of_lt ?_, by simp⟩
  simp only [CString.length_append, hrange, hbytes, hdash, hslash]
  omega

/-! ## What is read -/

theorem bytes_intText_of_lt {n : Nat} (h : n < 2 ^ 31) : (intText n).bytes = Decimal.text n := by
  rw [intText, if_pos h]
  rfl

theorem bytes_intText_of_ge {n : Nat} (h : 2 ^ 31 ≤ n) :
    (intText n).bytes = ascii "-" ++ Decimal.text (2 ^ 32 - n) := by
  rw [intText, if_neg (Nat.not_lt.mpr h)]
  rfl

/-- No positions are read where a minus stands in front of one of them. -/
theorem readPositions_minus {first : List Byte} (s : List Byte)
    (h : ∀ n ∈ Decimal.number (first ++ (ascii "-" ++ (ascii "-" ++ s))),
      n.2 = ascii "-" ++ (ascii "-" ++ s)) :
    readPositions (ascii " bytes=" ++ (first ++ (ascii "-" ++ (ascii "-" ++ s)))) = none := by
  simp only [readPositions, behindText_append, Option.bind_eq_bind, Option.bind_some]
  cases hnumber : Decimal.number (first ++ (ascii "-" ++ (ascii "-" ++ s))) with
  | none => rfl
  | some n =>
    rw [Option.bind_some, h n hnumber, behindText_append, Option.bind_some, number_minus]
    rfl

theorem rangeDenotes_iff {position length : Nat} (hlength : 1 ≤ length)
    (hlast : position + length - 1 < 2 ^ 32) :
    RangeDenotes k bucket objectId position length ↔ position + length - 1 < 2 ^ 31 := by
  rw [RangeDenotes, sentField_download k bucket objectId hlength hlast, Option.bind_some]
  by_cases hsmall : position + length - 1 < 2 ^ 31
  · have hread := readPositions_text position (position + length - 1) (s := []) (by simp)
    rw [List.append_nil] at hread
    rw [bytes_intText_of_lt (by omega), bytes_intText_of_lt hsmall, readRange, hread]
    exact iff_of_true rfl hsmall
  · have hnone : readPositions (ascii " bytes=" ++ ((intText position).bytes ++
        (ascii "-" ++ (intText (position + length - 1)).bytes))) = none := by
      rw [bytes_intText_of_ge (n := position + length - 1) (by omega)]
      by_cases hposition : position < 2 ^ 31
      · -- the first position is read, and the second one is negative
        apply readPositions_minus
        intro n hn
        rw [bytes_intText_of_lt hposition, Decimal.number_text position (by
          rintro c ⟨rfl⟩
          decide)] at hn
        obtain rfl := Option.some.inj hn
        rfl
      · -- the first position is negative
        rw [bytes_intText_of_ge (by omega)]
        simp only [readPositions, behindText_append, Option.bind_eq_bind, Option.bind_some,
          List.append_assoc, number_minus, Option.bind_none]
    rw [readRange, hnone, Option.bind_eq_bind, Option.bind_none]
    exact iff_of_false (Option.some_ne_none _).symm hsmall

theorem contentRangeDenotes {chunk : ChunkData} (hlength : 1 ≤ chunk.length)
    (hlast : chunk.position + chunk.length - 1 < 2 ^ w) :
    ContentRangeDenotes k bucket objectId uploadId chunk := by
  have hread := readPositions_text chunk.position (chunk.position + chunk.length - 1)
    (s := ascii "/" ++ Decimal.text chunk.totalLength) (by
      rintro c ⟨rfl⟩
      decide)
  have htotal := Decimal.number_text chunk.totalLength (s := []) (by simp)
  rw [List.append_nil] at htotal
  rw [ContentRangeDenotes, sentField_upload k bucket objectId uploadId hlength hlast,
    Option.bind_some, readRangeOf, hread]
  simp only [Option.bind_eq_bind, Option.bind_some, behindText_append, htotal]
  rfl

end

/-- **When the ranges denote what was asked for**: for a download, when its last position is below
2^31; for an upload always. -/
theorem ranges_iff :
    (∀ (k : Core w) (bucket : Bucket) (objectId : CString) (position length : Nat),
      1 ≤ length → position + length - 1 < 2 ^ 32 →
      (RangeDenotes k bucket objectId position length ↔ position + length - 1 < 2 ^ 31)) ∧
    ∀ (k : Core w) (bucket : Bucket) (objectId uploadId : CString) (chunk : ChunkData),
      1 ≤ chunk.length → chunk.position + chunk.length ≤ chunk.totalLength →
      chunk.totalLength < 2 ^ w → ContentRangeDenotes k bucket objectId uploadId chunk := by
  refine ⟨?_, ?_⟩
  · intro k bucket objectId position length hlength hlast
    exact rangeDenotes_iff k bucket objectId hlength hlast
  · intro k bucket objectId uploadId chunk hlength hle htotal
    exact contentRangeDenotes k bucket objectId uploadId hlength (by omega)

/-- The first byte behind two gigabytes is asked for with a negative position. -/
theorem ranges_fail : 1 ≤ 1 ∧ 2 ^ 31 + 1 - 1 < 2 ^ 32 ∧
    ¬ RangeDenotes (device 512) ⟨.app, .lit "", .lit "b"⟩ (.lit "o") (2 ^ 31) 1 := by
  refine ⟨Nat.le_refl 1, by decide, ?_⟩
  rw [rangeDenotes_iff _ _ _ (Nat.le_refl 1) (by decide)]
  decide

theorem ranges_iff_of_small :
    (RangeDenotes (device 512) ⟨.app, .lit "", .lit "b"⟩ (.lit "o") 100 50 ↔
      100 + 50 - 1 < 2 ^ 31) ∧
    ContentRangeDenotes (device 512) ⟨.app, .lit "", .lit "b"⟩ (.lit "o") (.lit "u")
      ⟨none, 100, 50, 200, none⟩ :=
  ⟨ranges_iff.1 (device 512) ⟨.app, .lit "", .lit "b"⟩ (.lit "o") 100 50 (by decide) (by decide),
    ranges_iff.2 (device 512) ⟨.app, .lit "", .lit "b"⟩ (.lit "o") (.lit "u")
      ⟨none, 100, 50, 200, none⟩ (by decide) (by decide) (by decide)⟩

end KiiThing

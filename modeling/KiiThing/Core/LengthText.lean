import KiiThing.Core.Assembly
import KiiThing.Core.Headers
import KiiThing.Core.Incremental

/-!
# The text of the content-length

`prv_content_length_str` prints into an array of 8 bytes, and does not look at the size that it is
given. `LengthCall` are the functions that call it: most of them print before anything is compared
with the buffer, so that a length of eight figures and more leaves the array whenever the headers in
front of it have found room (`lengthTextFits_iff`).
-/

namespace KiiThing

open Http Memory

variable {w : Nat}

/-! ## Additional headers, in general -/

/-- The headers that are sent for the arguments `strs`, when the array is `key`. Where an argument
does not fit the arrays, this is what `strncpy` makes of it. -/
def copiedHeaders (key : List Byte) : List CString → List Header
  | [] => []
  | str :: strs =>
    match colon str with
    | none => []
    | some n => ((CString.ofArray (strncpyKey key str n)).bytes,
        (CString.ofArray (strncpyValue str n)).bytes) :: copiedHeaders (strncpyKey key str n) strs

theorem adds_copiedHeaders (k₀ : Core w) (key : List Byte) (strs : List CString) :
    Adds k₀ (additionalHeaders · key strs) (Request.fields (copiedHeaders key strs)) [] := by
  have hpure : Adds k₀ (fun k => (⟨.ok, k⟩ : Result HttpCode w)) [] [] := Adds.pure rfl
  induction strs generalizing key with
  | nil => exact hpure
  | cons str strs ih =>
    cases hcolon : colon str with
    | none =>
      rw [copiedHeaders, hcolon]
      apply hpure.congr
      intro k _
      simp only [additionalHeaders, hcolon]
    | some n =>
      rw [copiedHeaders, hcolon, Request.fields_cons]
      apply ((adds_setHeader k₀ _ _).next (ih (strncpyKey key str n))).congr
      intro k _
      simp only [additionalHeaders, hcolon]

/-! ## The calls -/

/-- The size of the array. -/
def contentLengthSize : Nat := 8

/-- A call of a function that prints a content-length. -/
inductive LengthCall where
  | request (a : RequestArgs)
  | assembled (c : AssembledCall)
  | apiCall (a : ApiCall)
  | apiCallEnd

/-- The object with its path, and content type and access token, of a function that puts its body
together. -/
def AssembledCall.start (k : Core w) : AssembledCall → Core w × CString × Option CString
  | registerThingWithId _ _ _ => (prvSetThingRegisterPath k,
      .lit "application/vnd.kii.ThingRegistrationAndAuthorizationRequest+json", none)
  | thingAuthentication _ _ => (prvSetAuthPath k, .lit "application/json", none)
  | installThingPush _ => (prvSetInstallationPath k,
      .lit "application/vnd.kii.InstallationCreationRequest+json", k.accessToken)

/-- The body. The length of NULL is taken before anything is printed. -/
def AssembledCall.pieces : AssembledCall → Option (List CString)
  | registerThingWithId vendorThingId password thingType =>
    thingType.map (registrationBody vendorThingId password)
  | thingAuthentication vendorThingId password => some (authenticationBody vendorThingId password)
  | installThingPush development => some (installationBody development)

namespace LengthCall

def run (k : Core w) : LengthCall → Option (Result ErrorCode w)
  | request a => some (a.run k)
  | assembled c => c.run k
  | apiCall a => some (kiiCoreApiCall k a)
  | apiCallEnd => some (kiiCoreApiCallEnd k)

/-- The length of the body, where one is to be declared. -/
def declared (k : Core w) : LengthCall → Option Nat
  | request a => a.body.map fun _ => a.bodyLength
  | assembled c => c.pieces.map totalLength
  | apiCall a => a.httpBody.map fun _ => a.bodySize
  | apiCallEnd => if 0 < k.contentLength then some k.contentLength else none

/-- The steps in front of it. -/
def head (k : Core w) : LengthCall → Result ErrorCode w
  | request a =>
    let r := prvHttpRequestLineAndHeaders k a.method a.resourcePath a.contentType a.accessToken
      a.etag
    ⟨r.code, (setHeaderIf r.core (.lit "Content-Encoding") a.contentEncoding).core⟩
  | assembled c =>
    let (k, contentType, accessToken) := c.start k
    prvHttpRequestLineAndHeaders k (.lit "POST") k.httpRequestPath (some contentType) accessToken
      none
  | apiCall a =>
    (prvKiiHttpSetRequestLine k a.httpMethod a.resourcePath).next fun k =>
    (prvSetKiiDefaultHeader k).next fun k =>
    (setHeaderIf k (.lit "content-type") a.contentType).next fun k =>
    (setHeaderIf k (.lit "authorization") (k.accessToken.map (.lit "bearer " ++ ·))).next fun k =>
    (setHeaders k (List.replicate 128 0) a.headers).next fun k =>
    ⟨.ok, k⟩
  | apiCallEnd => (prvKiiHttpAppendBodyEnd k).next fun k => ⟨.ok, k⟩

/-- The array `content_length` after `memset` and `prv_content_length_str`, where the call gets that
far. -/
def lengthText (k : Core w) (c : LengthCall) : Option (Printed Byte) :=
  if (c.head k).isOk then
    (c.declared k).map fun n =>
      (Printed.fresh contentLengthSize).print (prvContentLengthStr n).bytes
  else none

/-- Text and terminator stay in the array, and with a body that is too long for that the call
fails. -/
structure LengthTextFits (k : Core w) (c : LengthCall) : Prop where
  inside : ∀ p ∈ c.lengthText k, p.reached ≤ contentLengthSize
  refused : ∀ n ∈ c.declared k, contentLengthSize < (prvContentLengthStr n).length + 1 →
    ∀ r ∈ c.run k, r.code = .fail

/-- Request line and headers in front of the content-length pass their checks and find room. -/
def HeadFits (k : Core w) : LengthCall → Prop
  | request a => (k.room a.method a.resourcePath ∧ ¬ TokenTooLong a.accessToken) ∧
      a.sizeBefore k < k.bufferSize
  | assembled c => ((c.start k).1.room (.lit "POST") (c.start k).1.httpRequestPath ∧
        ¬ TokenTooLong (c.start k).2.2) ∧
      ((c.start k).1.draft (.lit "POST") (c.start k).1.httpRequestPath
        (headerIf (.lit "content-type") (some (c.start k).2.1) ++ bearerHeader (c.start k).2.2)
          []).size < k.bufferSize
  | apiCall a => (k.room a.httpMethod a.resourcePath ∧ ¬ FirstWithoutColon a.headers) ∧
      (k.draft a.httpMethod a.resourcePath (headerIf (.lit "content-type") a.contentType ++
        (bearerHeader k.accessToken ++ copiedHeaders (List.replicate 128 0) a.headers)) []).size <
        k.bufferSize
  | apiCallEnd => True

/-! ## Where it is printed -/

section

variable {k : Core w} {c : LengthCall}

theorem next_ready_comm {γ : Type} [ReturnCode γ] (r : Result γ w)
    (f : Core w → Result ErrorCode w) : (r.next f).ready = r.next fun k => (f k).ready := by
  rcases hok : r.isOk with _ | _
  · rw [Result.next_of_not_isOk hok, Result.next_of_not_isOk hok]
    rfl
  · rw [Result.next_of_isOk hok, Result.next_of_isOk hok]

theorem next_ok (k : Core w) (f : Core w → Result ErrorCode w) :
    (⟨.ok, k⟩ : Result ErrorCode w).next f = f k := rfl

/-- With a body its length comes first. -/
theorem exists_setBody_eq (body : List Byte) (n : Nat) :
    ∃ rest : Core w → Result ErrorCode w, ∀ k, setBody k (some body) n =
      (prvKiiHttpSetHeader k (.lit "content-length") (prvContentLengthStr n)).next rest := by
  refine ⟨fun k => (prvKiiHttpAppendBodyStart k).next fun k =>
    (prvKiiHttpAppendBody k (some body) n).next fun k =>
    (prvKiiHttpAppendBodyEnd k).next fun k => ⟨.ok, k⟩, fun k => rfl⟩

theorem request_eq (k : Core w) (a : RequestArgs) : a.run k =
    ((request a).head k).next fun k => setBody k a.body a.bodyLength := by
  obtain ⟨r, hr⟩ : ∃ r, r = prvHttpRequestLineAndHeaders k a.method a.resourcePath a.contentType
    a.accessToken a.etag := ⟨_, rfl⟩
  have hrun : a.run k = if r.isOk then
      setBody (setHeaderIf r.core (.lit "Content-Encoding") a.contentEncoding).core a.body
        a.bodyLength
      else ⟨r.code, (setHeaderIf r.core (.lit "Content-Encoding") a.contentEncoding).core⟩ := by
    rw [hr]
    rfl
  rw [hrun, head, ← hr]
  rcases hcode : r.code with _ | _
  · have hok : r.isOk = true := Result.isOk_iff.mpr hcode
    rw [if_pos hok]
    rfl
  · have hfail : ¬ r.isOk = true := by rw [Result.isOk_iff, hcode]; decide
    rw [if_neg hfail]
    rfl

theorem apiCall_eq (k : Core w) (a : ApiCall) : kiiCoreApiCall k a =
    (((apiCall a).head k).next fun k => setBody k a.httpBody a.bodySize).ready := by
  simp only [kiiCoreApiCall, head, Result.next_assoc, next_ok]

theorem AssembledCall.run_eq {c : AssembledCall} {pieces : List CString}
    (h : c.pieces = some pieces) :
    c.run k = some (assemble (c.start k).1 (c.start k).2.1 (c.start k).2.2 (totalLength pieces)
      pieces) := by
  cases c with
  | registerThingWithId vendorThingId password thingType =>
    obtain ⟨t, rfl, rfl⟩ := Option.map_eq_some_iff.mp h
    exact registerThingWithId_eq k vendorThingId password t
  | thingAuthentication vendorThingId password =>
    obtain rfl := Option.some.inj h
    exact congrArg some (thingAuthentication_eq k vendorThingId password)
  | installThingPush development =>
    obtain rfl := Option.some.inj h
    exact congrArg some (installThingPush_eq k development)

/-- **The printed text is the value of the header** that comes behind the steps in front. -/
theorem run_eq {n : Nat} (h : c.declared k = some n) : ∃ rest : Core w → Result ErrorCode w,
    c.run k = some ((c.head k).next fun k =>
      (prvKiiHttpSetHeader k (.lit "content-length") (prvContentLengthStr n)).next rest) := by
  cases c with
  | request a =>
    obtain ⟨body, hbody, rfl⟩ := Option.map_eq_some_iff.mp h
    obtain ⟨rest, hrest⟩ := exists_setBody_eq (w := w) body a.bodyLength
    refine ⟨rest, congrArg some ?_⟩
    rw [request_eq, hbody]
    exact Result.next_congr (hrest _)
  | assembled c =>
    obtain ⟨pieces, hpieces, rfl⟩ := Option.map_eq_some_iff.mp h
    exact ⟨_, AssembledCall.run_eq hpieces⟩
  | apiCall a =>
    obtain ⟨body, hbody, rfl⟩ := Option.map_eq_some_iff.mp h
    obtain ⟨rest, hrest⟩ := exists_setBody_eq (w := w) body a.bodySize
    refine ⟨fun k => (rest k).ready, congrArg some ?_⟩
    rw [apiCall_eq, next_ready_comm, hbody]
    exact Result.next_congr (by rw [hrest, next_ready_comm])
  | apiCallEnd =>
    rw [declared] at h
    split at h
    · next hpos =>
      obtain rfl := Option.some.inj h
      refine ⟨fun k => if k.state ≠ .idle then ⟨.fail, k⟩ else ⟨.ok, { k with state := .ready }⟩,
        congrArg some ?_⟩
      rw [apiCallEnd_eq, endLength, if_pos hpos, prvKiiCoreHttpSetContentLengthHeader, if_pos hpos]
      rfl
    · cases h

/-- **When it is printed.** -/
theorem head_isOk_iff : (c.head k).isOk = true ↔ c.HeadFits k := by
  cases c with
  | request a =>
    have hhead := builds_lineAndHeaders k a.method a.resourcePath a.contentType a.accessToken a.etag
    exact hhead.isOk_iff
  | assembled c =>
    have hhead := builds_lineAndHeaders (c.start k).1 (.lit "POST") (c.start k).1.httpRequestPath
      (some (c.start k).2.1) (c.start k).2.2 none
    have hsize : (c.start k).1.bufferSize = k.bufferSize := by cases c <;> rfl
    rw [show headerIf (.lit "if-match") none = [] from rfl, List.append_nil] at hhead
    rw [HeadFits, ← hsize]
    exact hhead.isOk_iff
  | apiCall a =>
    have hchain := ((((builds_requestHead k a.httpMethod a.resourcePath).next
      (adds_setHeaderIf k (.lit "content-type") a.contentType)).next
        (adds_accessToken k)).next_guard (c := FirstWithoutColon a.headers)
        (adds_copiedHeaders k (List.replicate 128 0) a.headers)).next
          (Adds.pure (c := ErrorCode.ok) rfl)
    simp only [← setHeaders_eq, Result.next_assoc, Core.draft_add, Core.draft_add_tail,
      List.nil_append, List.append_nil, List.append_assoc] at hchain
    exact hchain.isOk_iff
  | apiCallEnd => exact iff_of_true rfl trivial

/-! ## When it fits -/

/-- Seven figures and a terminator. -/
theorem length_contentLengthStr_le_iff (n : Nat) :
    (prvContentLengthStr n).length + 1 ≤ contentLengthSize ↔ n < 10 ^ 7 := by
  rw [← Decimal.length_text_le_iff (by decide)]
  exact Nat.add_le_add_iff_right (k := 7) (n := 1)

/-- A call whose headers find no room fails, whatever body it has. -/
theorem fail_of_not_headFits {n : Nat} (hn : c.declared k = some n) (hhead : ¬ c.HeadFits k) :
    ∀ r ∈ c.run k, r.code = .fail := by
  obtain ⟨rest, hrun⟩ := run_eq hn
  have hfail : (c.head k).isOk = false :=
    Bool.eq_false_iff.mpr fun hok => hhead (head_isOk_iff.mp hok)
  rw [hrun, Result.next_of_not_isOk hfail]
  rintro r ⟨⟩
  rfl

theorem reached_le_iff (n : Nat) : ((Printed.fresh contentLengthSize).print
    (prvContentLengthStr n).bytes).reached ≤ contentLengthSize ↔ n < 10 ^ 7 :=
  (Nat.max_le.trans (and_iff_right (Nat.le_refl _))).trans (length_contentLengthStr_le_iff n)

theorem lengthTextFits_of (h : c.HeadFits k → ∀ n ∈ c.declared k, n < 10 ^ 7) :
    c.LengthTextFits k where
  inside := by
    intro p hp
    rw [lengthText] at hp
    split at hp
    · next hok =>
      obtain ⟨n, hn, rfl⟩ := Option.map_eq_some_iff.mp hp
      exact (reached_le_iff n).mpr (h (head_isOk_iff.mp hok) n hn)
    · cases hp
  refused := by
    intro n hn hlong
    have hge : ¬ n < 10 ^ 7 := fun hlt =>
      absurd ((length_contentLengthStr_le_iff n).mpr hlt) (Nat.not_le.mpr hlong)
    exact fail_of_not_headFits hn fun hhead => hge (h hhead n hn)

/-- **When the text fits its array**: the headers in front of it find no room, or the body has less
than ten million bytes. -/
theorem lengthTextFits_iff (k : Core w) (c : LengthCall) :
    c.LengthTextFits k ↔ (c.HeadFits k → ∀ n ∈ c.declared k, n < 10 ^ 7) := by
  refine ⟨fun h hhead n hn => ?_, lengthTextFits_of⟩
  apply (reached_le_iff n).mp
  apply h.inside
  rw [lengthText, if_pos (head_isOk_iff.mpr hhead), Option.mem_def.mp hn]
  rfl

/-- What has been appended piece by piece has found room in the buffer: with one of at most ten
million bytes `kii_core_api_call_end` stays in its array. -/
theorem lengthTextFits_of_composed {d : Draft} {m : Nat} (h : Composed k d m)
    (hsize : k.bufferSize ≤ 10 ^ 7) : apiCallEnd.LengthTextFits k := by
  refine lengthTextFits_of fun _ n hn => ?_
  rw [Option.mem_def, declared] at hn
  split at hn
  · obtain rfl := Option.some.inj hn
    rw [h.contentLength]
    exact Nat.lt_of_lt_of_le (Nat.lt_of_le_of_lt h.le h.holds.fits) hsize
  · cases hn

end

/-- A state of ten million bytes. -/
def tenMillion : RequestCall :=
  .uploadThingState (.lit "PUT") (.lit "th") (some (List.replicate (10 ^ 7) 97)) none none
    (some (10 ^ 7))

/-- The headers find room, and the text has eight figures and a terminator. -/
theorem lengthTextFits_fails :
    ((request (tenMillion.args (device 512))).lengthText (device 512)).map Printed.reached =
        some 9 ∧
      ¬ (request (tenMillion.args (device 512))).LengthTextFits (device 512) := by
  have hreached : ((request (tenMillion.args (device 512))).lengthText (device 512)).map
      Printed.reached = some 9 := by decide +kernel
  refine ⟨hreached, fun h => ?_⟩
  obtain ⟨p, hp, hnine⟩ := Option.map_eq_some_iff.mp hreached
  have hinside := h.inside p hp
  rw [hnine] at hinside
  exact absurd hinside (by decide)

end LengthCall

end KiiThing

import KiiThing.Core.ApiCall
import KiiThing.Core.Init

/-!
# Requests that are built piece by piece

Between `kii_core_api_call_start` and `kii_core_api_call_end` an application adds headers and pieces
of the body in any order. Every header is spliced in front of all that has been written of the body,
so that the request it ends with only depends on the headers in their order and on the pieces of the
body in theirs (`apiCall_layout`).
-/

namespace KiiThing

open Http

variable {w : Nat}

/-! ## Calls between start and end -/

/-- A call of `kii_core_api_call_append_header` or `kii_core_api_call_append_body`. -/
inductive Append where
  | header (key value : CString)
  | body (data : Option (List Byte)) (size : Nat)

namespace Append

def run (k : Core w) : Append → Result ErrorCode w
  | header key value => kiiCoreApiCallAppendHeader k key value
  | body data size => kiiCoreApiCallAppendBody k data size

/-- What the caller owes: the bytes that are passed can be read. -/
def Valid (w : Nat) : Append → Prop
  | header _ _ => True
  | body data size => Readable w data size

instance (a : Append) : Decidable (a.Valid w) :=
  match a with
  | header _ _ => isTrue trivial
  | body data size => inferInstanceAs (Decidable (Readable w data size))

/-- The header that the call adds. -/
def headers : Append → List Header
  | header key value => [(key.bytes, value.bytes)]
  | body _ _ => []

/-- The bytes of the body that the call adds. -/
def bytes : Append → List Byte
  | header _ _ => []
  | body data size => bodyBytes data size

end Append

/-- Make the calls in order. The second component are those that returned `KIIE_OK`. -/
def runAll (k : Core w) : List Append → Core w × List Append
  | [] => (k, [])
  | a :: as =>
    let r := a.run k
    let (k', accepted) := runAll r.core as
    (k', if r.isOk then a :: accepted else accepted)

/-! ## The request under construction -/

theorem Holds.of_http {k k' : Core w} {d : Draft} (h : Holds k d) (hhttp : k'.http = k.http)
    (happHost : k'.appHost = k.appHost) : Holds k' d where
  bodyPosition := by rw [hhttp]; exact h.bodyPosition
  totalSendSize := by rw [hhttp]; exact h.totalSendSize
  fits := by
    rw [Core.bufferSize, hhttp]
    exact h.fits
  text := by rw [hhttp]; exact h.text
  idle := by rw [hhttp]; exact h.idle
  host := by rw [hhttp, happHost]; exact h.host

/-- The object holds the draft `d`, whose body has `n` bytes so far. -/
structure Composed (k : Core w) (d : Draft) (n : Nat) : Prop where
  holds : Holds k d
  contentLength : k.contentLength = n
  le : n ≤ d.size

/-- `k'` is `k` but for the request under construction. -/
structure Composing (k k' : Core w) : Prop where
  size : k'.bufferSize = k.bufferSize
  rest : k' = { k with
    http.buffer := k'.http.buffer
    http.totalSendSize := k'.http.totalSendSize
    http.bodyPosition := k'.http.bodyPosition
    http.nullAccess := k'.http.nullAccess
    http.host := k'.http.host
    http.socketState := k'.http.socketState
    contentLength := k'.contentLength }

namespace Composing

variable {k k' k₁ k₂ k₃ : Core w}

theorem refl (k : Core w) : Composing k k := ⟨rfl, rfl⟩

theorem trans (h : Composing k₁ k₂) (h' : Composing k₂ k₃) : Composing k₁ k₃ := by
  refine ⟨h'.size.trans h.size, ?_⟩
  rw [h'.rest, h.rest]

theorem of_frame (h : Frame k k') (n : Nat) : Composing k { k' with contentLength := n } := by
  refine ⟨h.size, ?_⟩
  rw [h.rest]

theorem state (h : Composing k k') : k'.state = k.state := by rw [h.rest]
theorem appHost (h : Composing k k') : k'.appHost = k.appHost := by rw [h.rest]
theorem normalizerHost (h : Composing k k') : k'.http.normalizerHost = k.http.normalizerHost := by
  rw [h.rest]
theorem responseBodyLength (h : Composing k k') : k'.responseBodyLength = k.responseBodyLength := by
  rw [h.rest]

end Composing

/-- The call finds something to add, and room for it behind the draft `d`. -/
def Append.Fits (k : Core w) (d : Draft) (a : Append) : Prop :=
  (match a with
    | header _ _ => True
    | body data _ => data ≠ none) ∧
  d.size + (Request.fields a.headers).length + a.bytes.length < k.bufferSize

/-- What one call does: it adds its part, or it fails and leaves everything as it was. -/
def Append.Outcome (k : Core w) (d : Draft) (n : Nat) (a : Append) : Prop :=
  (a.Fits k d ∧ (a.run k).isOk = true ∧ Composing k (a.run k).core ∧
    Composed (a.run k).core (d.add (Request.fields a.headers) a.bytes) (n + a.bytes.length)) ∨
  (¬ a.Fits k d ∧ (a.run k).isOk = false ∧ (a.run k).core = k)

theorem Append.outcome_header {k : Core w} {d : Draft} {n : Nat} (h : Composed k d n)
    (key value : CString) : (Append.header key value).Outcome k d n := by
  have hholds := h.holds
  have hle := h.le
  have hlen : (field key.bytes value.bytes).length = key.length + 1 + value.length + 2 :=
    length_field ..
  have hfields : Request.fields (Append.header key value).headers = field key.bytes value.bytes := by
    simp [Append.headers]
  unfold Outcome
  rw [hfields]
  by_cases hlt : d.size + (field key.bytes value.bytes).length < k.bufferSize
  · left
    have hadds := adds_setHeader k key value
    obtain ⟨hok, hd⟩ := hadds.adds k d (Frame.refl k) hholds (by simpa using hlt)
    have hframe := hadds.frame k (Frame.refl k)
    have hsame := Composing.of_frame hframe (prvKiiHttpSetHeader k key value).core.contentLength
    rw [Append.run, kiiCoreApiCallAppendHeader, Result.next_of_isOk hok]
    refine ⟨⟨trivial, ?_⟩, rfl, hsame, hd, ?_, ?_⟩
    · rw [hfields]
      exact hlt
    · show (prvKiiHttpSetHeader k key value).core.contentLength = n + 0
      rw [hframe.contentLength, h.contentLength, Nat.add_zero]
    · rw [Draft.size_add]
      show n + 0 ≤ _
      omega
  · right
    have hfail : prvKiiHttpSetHeader k key value = ⟨.fail, k⟩ :=
      setHeader_of_ge (by rw [hholds.totalSendSize]; omega)
    rw [Append.run, kiiCoreApiCallAppendHeader, hfail]
    refine ⟨?_, rfl, rfl⟩
    rintro ⟨_, hfit⟩
    rw [hfields] at hfit
    exact hlt hfit

theorem Append.outcome_body {k : Core w} {d : Draft} {n : Nat} (h : Composed k d n)
    {bs : List Byte} {size : Nat} (ha : Readable w (some bs) size) :
    (Append.body (some bs) size).Outcome k d n := by
  have hholds := h.holds
  have hle := h.le
  have hbytes : (Append.body (some bs) size).bytes = bs.take size := rfl
  have hlen : (bs.take size).length = size := by
    rw [List.length_take]
    have := (ha bs rfl).1
    omega
  unfold Outcome
  rw [hbytes, hlen]
  by_cases hlt : d.size + size < k.bufferSize
  · left
    have hadds := adds_appendBody k ha
    obtain ⟨hok, hd⟩ := hadds.adds k d (Frame.refl k) hholds (by simpa [hlen] using hlt)
    have hframe := hadds.frame k (Frame.refl k)
    -- the count stays below the size of the buffer, so it does not wrap
    have hfits : n + size ≤ k.http.buffer.size := by
      show _ ≤ k.bufferSize
      omega
    have hword := k.http.buffer.lt_word hfits
    rw [Append.run, kiiCoreApiCallAppendBody, Result.next_of_isOk hok]
    refine ⟨⟨Option.some_ne_none _, ?_⟩, rfl, Composing.of_frame hframe _, hd.of_http rfl rfl, ?_, ?_⟩
    · rw [hbytes, hlen]
      exact hlt
    · show ((prvKiiHttpAppendBody k (some bs) size).core.contentLength + size) % 2 ^ w = _
      rw [hframe.contentLength, h.contentLength, Nat.mod_eq_of_lt hword]
    · simp only [Append.headers, Request.fields_nil, Draft.size_add, List.length_nil, hlen]
      omega
  · right
    rw [Append.run, kiiCoreApiCallAppendBody, appendBody_of_ge ha hholds (Nat.not_lt.mp hlt)]
    refine ⟨?_, rfl, rfl⟩
    rintro ⟨_, hfit⟩
    rw [hbytes, hlen] at hfit
    exact hlt hfit

theorem Append.run_cases {k : Core w} {d : Draft} {n : Nat} {a : Append} (h : Composed k d n)
    (ha : a.Valid w) : a.Outcome k d n := by
  cases a with
  | header key value => exact outcome_header h key value
  | body data size =>
    cases data with
    | none =>
      right
      rw [Append.run, kiiCoreApiCallAppendBody, appendBody_refused (Or.inl rfl)]
      exact ⟨fun hfit => hfit.1 rfl, rfl, rfl⟩
    | some bs => exact outcome_body h ha

/-- **What a sequence of calls does**: it adds the parts of those that succeeded, headers to headers
and body to body. -/
theorem runAll_composed {k : Core w} {d : Draft} {n : Nat} {as : List Append} (h : Composed k d n)
    (has : ∀ a ∈ as, a.Valid w) :
    Composing k (runAll k as).1 ∧
      Composed (runAll k as).1
        (d.add (Request.fields ((runAll k as).2.flatMap Append.headers))
          ((runAll k as).2.flatMap Append.bytes))
        (n + ((runAll k as).2.flatMap Append.bytes).length) := by
  induction as generalizing k d n with
  | nil => exact ⟨Composing.refl k, by simpa [runAll, Draft.add] using h⟩
  | cons a as ih =>
    have has' : ∀ b ∈ as, b.Valid w := fun b hb => has b (List.mem_cons_of_mem _ hb)
    rcases Append.run_cases h (has a List.mem_cons_self) with
      ⟨_, hok, hframe, hd⟩ | ⟨_, hfail, hsame⟩
    · obtain ⟨hframe', hd'⟩ := ih hd has'
      refine ⟨hframe.trans hframe', ?_⟩
      simpa [runAll, hok, Draft.add_add, Nat.add_assoc] using hd'
    · obtain ⟨hframe', hd'⟩ := ih h has'
      simp only [runAll, hfail, hsame]
      exact ⟨hframe', hd'⟩

/-- Which calls succeed only depends on the draft and on the size of the buffer. -/
theorem runAll_congr {k k' : Core w} {d : Draft} {n : Nat} {as : List Append} (h : Composed k d n)
    (h' : Composed k' d n) (hsize : k.bufferSize = k'.bufferSize) (has : ∀ a ∈ as, a.Valid w) :
    (runAll k as).2 = (runAll k' as).2 := by
  induction as generalizing k k' d n with
  | nil => rfl
  | cons a as ih =>
    have has' : ∀ b ∈ as, b.Valid w := fun b hb => has b (List.mem_cons_of_mem _ hb)
    have ha := has a List.mem_cons_self
    have hfits : a.Fits k d ↔ a.Fits k' d := by
      unfold Append.Fits
      rw [hsize]
    rcases Append.run_cases h ha with ⟨hfit, hok, hframe, hd⟩ | ⟨hfit, hfail, hsame⟩
    · rcases Append.run_cases h' ha with ⟨_, hok', hframe', hd'⟩ | ⟨hfit', _⟩
      · have htail := ih hd hd' (by rw [hframe.size, hframe'.size, hsize]) has'
        simp only [runAll, hok, hok', htail]
      · exact absurd (hfits.mp hfit) hfit'
    · rcases Append.run_cases h' ha with ⟨hfit', _⟩ | ⟨_, hfail', hsame'⟩
      · exact absurd (hfits.mpr hfit') hfit
      · have htail := ih h h' hsize has'
        simp only [runAll, hfail, hfail', hsame, hsame', htail]

/-! ## Start -/

/-- There is no access token, or it does not fit the array its header is printed into. -/
def NoBearer (k : Core w) : Prop :=
  k.author.accessToken.str.length ≤ 0 ∨ 128 ≤ 6 + k.author.accessToken.str.length + 1

instance (k : Core w) : Decidable (NoBearer k) := inferInstanceAs (Decidable (_ ∨ _))

theorem setAuthorizationHeader_eq {k k' : Core w} (h : Frame k k') :
    prvKiiCoreSetAuthorizationHeader k' = if NoBearer k then ⟨ReturnCode.fail, k'⟩
      else setHeaderIf k' (.lit "authorization")
        (some (.lit "bearer " ++ k.author.accessToken.str)) := by
  rw [prvKiiCoreSetAuthorizationHeader, h.author]
  by_cases hempty : k.author.accessToken.str.length ≤ 0
  · have hno : NoBearer k := Or.inl hempty
    rw [if_pos hempty, if_pos hno]
    rfl
  · by_cases hlong : 128 ≤ 6 + k.author.accessToken.str.length + 1
    · have hno : NoBearer k := Or.inr hlong
      rw [if_neg hempty, if_pos hlong, if_pos hno]
      rfl
    · have hyes : ¬ NoBearer k := fun h => h.elim hempty hlong
      rw [if_neg hempty, if_neg hlong, if_neg hyes]
      rfl

/-- Behind steps that leave the token as it is, the check can be made on the token of before. -/
theorem next_setAuthorizationHeader {k : Core w} {r : Result HttpCode w} (h : Frame k r.core) :
    r.next prvKiiCoreSetAuthorizationHeader =
      r.next fun k' => if NoBearer k then ⟨ReturnCode.fail, k'⟩
        else setHeaderIf k' (.lit "authorization")
          (some (.lit "bearer " ++ k.author.accessToken.str)) :=
  Result.next_congr (setAuthorizationHeader_eq h)

/-- The content-type and authorization headers that `kii_core_api_call_start` is asked for. -/
def startHeaders (k : Core w) (contentType : Option CString) (setAuthenticationHeader : Bool) :
    List Header :=
  headerIf (.lit "content-type") contentType ++
    if setAuthenticationHeader then bearerHeader (some k.author.accessToken.str) else []

/-- What `kii_core_api_call_start` checks before it writes anything that may not fit. -/
def startRoom (k : Core w) (method path : CString) (setAuthenticationHeader : Bool) : Prop :=
  k.room method path ∧ ¬ (setAuthenticationHeader = true ∧ NoBearer k)

theorem builds_start (k : Core w) (method path : CString) (contentType : Option CString)
    (setAuthenticationHeader : Bool) :
    ∃ r : Result HttpCode w,
      kiiCoreApiCallStart k method path contentType setAuthenticationHeader =
        r.next (fun k => ⟨.ok, { k with contentLength := 0 }⟩) ∧
      Builds k r (startRoom k method path setAuthenticationHeader)
        (k.draft method path (startHeaders k contentType setAuthenticationHeader) CRLF) := by
  have hhead := (builds_requestHead k method path).next
    (adds_setHeaderIf k (.lit "content-type") contentType)
  rw [k.draft_add, List.nil_append, List.append_nil] at hhead
  cases setAuthenticationHeader with
  | false =>
    have hstart := hhead.next (adds_appendBodyStart k)
    rw [k.draft_add_tail, List.nil_append] at hstart
    refine ⟨_, ?_, by simpa [startRoom, startHeaders] using hstart⟩
    simp only [Result.next_assoc]
    rfl
  | true =>
    have hauth := hhead.next_guard (c := NoBearer k) (adds_setHeaderIf k (.lit "authorization")
      (some (.lit "bearer " ++ k.author.accessToken.str)))
    rw [← next_setAuthorizationHeader hhead.frame] at hauth
    have hstart := hauth.next (adds_appendBodyStart k)
    rw [k.draft_add, k.draft_add_tail, List.nil_append, List.nil_append] at hstart
    refine ⟨_, ?_, by simpa [startRoom, startHeaders, bearerHeader] using hstart⟩
    simp only [Result.next_assoc]
    rfl

section

variable {k : Core w} {method path : CString} {contentType : Option CString}
  {setAuthenticationHeader : Bool}

theorem start_isOk_iff :
    (kiiCoreApiCallStart k method path contentType setAuthenticationHeader).isOk = true ↔
      startRoom k method path setAuthenticationHeader ∧
      (k.draft method path (startHeaders k contentType setAuthenticationHeader) CRLF).size <
        k.bufferSize := by
  obtain ⟨r, heq, hbuilds⟩ := builds_start k method path contentType setAuthenticationHeader
  rw [heq, ← hbuilds.isOk_iff]
  constructor
  · intro h
    exact Result.isOk_of_next h
  · intro h
    rw [Result.next_of_isOk h]
    rfl

theorem start_composing :
    Composing k (kiiCoreApiCallStart k method path contentType setAuthenticationHeader).core := by
  obtain ⟨r, heq, hbuilds⟩ := builds_start k method path contentType setAuthenticationHeader
  rw [heq]
  rcases hok : r.isOk with _ | _
  · rw [Result.next_of_not_isOk hok]
    exact Composing.of_frame hbuilds.frame r.core.contentLength
  · rw [Result.next_of_isOk hok]
    exact Composing.of_frame hbuilds.frame 0

/-- **After a successful start**: the headers and the empty line, and no body. -/
theorem start_composed
    (h : (kiiCoreApiCallStart k method path contentType setAuthenticationHeader).isOk = true) :
    Composed (kiiCoreApiCallStart k method path contentType setAuthenticationHeader).core
      (k.draft method path (startHeaders k contentType setAuthenticationHeader) CRLF) 0 := by
  obtain ⟨r, heq, hbuilds⟩ := builds_start k method path contentType setAuthenticationHeader
  rw [heq] at h ⊢
  have hok : r.isOk = true := Result.isOk_of_next h
  rw [Result.next_of_isOk hok]
  exact ⟨(hbuilds.holds hok).of_http rfl rfl, rfl, Nat.zero_le _⟩

end

/-! ## End -/

/-- The content-length header of a body of `n` bytes: none without a body. -/
def lengthHeaderIf (n : Nat) : List Header := if 0 < n then [contentLengthHeader n] else []

theorem adds_lengthHeaderIf (k₀ : Core w) (n : Nat) :
    Adds k₀ (fun k => if 0 < n then prvKiiCoreHttpSetContentLengthHeader k n else ⟨.ok, k⟩)
      (Request.fields (lengthHeaderIf n)) [] := by
  unfold lengthHeaderIf prvKiiCoreHttpSetContentLengthHeader
  by_cases hn : 0 < n
  · simp only [hn, if_true, Request.fields_cons, Request.fields_nil, List.append_nil]
    exact adds_setHeader k₀ (.lit "content-length") (prvContentLengthStr n)
  · simp only [hn, if_false, Request.fields_nil]
    exact Adds.pure rfl

/-- The content-length header of `kii_core_api_call_end`. -/
def endLength (k : Core w) : Result HttpCode w :=
  if 0 < k.contentLength then prvKiiCoreHttpSetContentLengthHeader k k.contentLength else ⟨.ok, k⟩

theorem apiCallEnd_eq (k : Core w) : kiiCoreApiCallEnd k = (endLength k).next fun k =>
    if k.state ≠ .idle then ⟨.fail, k⟩ else ⟨.ok, { k with state := .ready }⟩ := rfl

/-- What the end of a request leads to, when the object holds `d` with its content-length header. -/
structure Finishes (k : Core w) (r : Result ErrorCode w) (d : Draft) : Prop where
  isOk_iff : r.isOk = true ↔ d.size < k.bufferSize ∧ k.state = .idle
  holds : r.isOk = true → Holds r.core d
  ready : r.isOk = true → r.core.state = .ready
  refused : r.isOk = false → r.core.state = k.state
  rest : ∃ state, Composing { k with state := state } r.core

/-- **What `kii_core_api_call_end` does**: it adds the content-length header, if that fits and the
object is at rest. -/
theorem end_finishes {k : Core w} {d : Draft} {n : Nat} (h : Composed k d n) :
    Finishes k (kiiCoreApiCallEnd k) (d.add (Request.fields (lengthHeaderIf n)) []) := by
  have hadds := adds_lengthHeaderIf k n
  have hsize : (d.add (Request.fields (lengthHeaderIf n)) []).size =
      d.size + (Request.fields (lengthHeaderIf n)).length + 0 := Draft.size_add ..
  have hend : kiiCoreApiCallEnd k =
      (if 0 < n then prvKiiCoreHttpSetContentLengthHeader k n else (⟨.ok, k⟩ : Result HttpCode w)).next
        fun k => if k.state ≠ .idle then ⟨.fail, k⟩ else ⟨.ok, { k with state := .ready }⟩ := by
    rw [kiiCoreApiCallEnd, prvKiiHttpAppendBodyEnd, Result.next_of_isOk rfl, h.contentLength]
  rw [hend]
  generalize hr : (if 0 < n then prvKiiCoreHttpSetContentLengthHeader k n
    else (⟨.ok, k⟩ : Result HttpCode w)) = r
  have hframe : Frame k r.core := hr ▸ hadds.frame k (Frame.refl k)
  have hrest : ∀ state, Composing { k with state := state } { r.core with state := state } := by
    intro state
    refine ⟨hframe.size, ?_⟩
    rw [hframe.rest]
  have hsame : Composing { k with state := k.state } r.core :=
    Composing.of_frame hframe r.core.contentLength
  by_cases hlt : (d.add (Request.fields (lengthHeaderIf n)) []).size < k.bufferSize
  · obtain ⟨hok, hd⟩ : r.isOk = true ∧ Holds r.core (d.add (Request.fields (lengthHeaderIf n)) []) :=
      hr ▸ hadds.adds k d (Frame.refl k) h.holds (hsize ▸ hlt)
    rw [Result.next_of_isOk hok, hframe.state]
    by_cases hidle : k.state = .idle
    · rw [if_neg (not_not.mpr hidle)]
      exact ⟨⟨fun _ => ⟨hlt, hidle⟩, fun _ => rfl⟩, fun _ => hd.of_http rfl rfl, fun _ => rfl,
        fun hfail => absurd hfail.symm Bool.false_ne_true, .ready, hrest .ready⟩
    · rw [if_pos hidle]
      exact ⟨by simp [hidle], fun hok => absurd hok Bool.false_ne_true,
        fun hok => absurd hok Bool.false_ne_true, fun _ => hframe.state, k.state, hsame⟩
  · have hfail : r.isOk = false :=
      hr ▸ hadds.refuses k d (Frame.refl k) h.holds (hsize ▸ Nat.not_lt.mp hlt)
    rw [Result.next_of_not_isOk hfail]
    exact ⟨⟨fun hok => absurd hok Bool.false_ne_true, fun hok => absurd hok.1 hlt⟩,
      fun hok => absurd hok Bool.false_ne_true, fun hok => absurd hok Bool.false_ne_true,
      fun _ => hframe.state, k.state, hsame⟩

/-- What was composed from `k` on is prepared by its end. -/
theorem Finishes.prepares {k k' : Core w} {r : Result ErrorCode w} {method path : CString}
    {headers : List Header} {body : List Byte} (hframe : Composing k k')
    (h : Finishes k' r (k.draft method path headers (CRLF ++ body))) :
    Prepares k r (k.state = .idle) (k.request method path headers body) := by
  have htext := k.text_draft method path headers body
  have hsize : (k.draft method path headers (CRLF ++ body)).size =
      (k.request method path headers body).bytes.length := by rw [← Draft.length_text, htext]
  have hiff := h.isOk_iff
  rw [hsize, hframe.size, hframe.state] at hiff
  obtain ⟨state, hrest⟩ := h.rest
  refine ⟨?_, ?_, ?_, ?_, ?_, ?_, hrest.size.trans hframe.size,
    hrest.responseBodyLength.trans hframe.responseBodyLength⟩
  · rw [← Result.isOk_iff, hiff, and_comm]
  · intro hcode
    rw [(h.holds (Result.isOk_iff.mpr hcode)).totalSendSize, hsize]
  · intro hcode
    rw [← hsize, (h.holds (Result.isOk_iff.mpr hcode)).text, htext]
  · intro hcode
    exact (h.holds (Result.isOk_iff.mpr hcode)).idle
  · intro hcode
    exact h.ready (Result.isOk_iff.mpr hcode)
  · intro hcode
    have hhost := (h.holds (Result.isOk_iff.mpr hcode)).host
    rw [Core.hostStr, Core.hostStr, hhost, hrest.appHost, hrest.normalizerHost, hframe.appHost,
      hframe.normalizerHost]

/-! ## From start to end -/

/-- The arguments of `kii_core_api_call_start`. -/
structure Start where
  httpMethod : CString
  resourcePath : CString
  contentType : Option CString
  setAuthenticationHeader : Bool

namespace Start

variable (s : Start) (k : Core w) (as : List Append)

def run : Result ErrorCode w :=
  kiiCoreApiCallStart k s.httpMethod s.resourcePath s.contentType s.setAuthenticationHeader

/-- The object after the start and the calls `as`. -/
def after : Core w := (runAll (s.run k).core as).1

/-- The end that follows them. -/
def finish : Result ErrorCode w := kiiCoreApiCallEnd (s.after k as)

/-- The headers that were added, in the order of the calls. -/
def headers : List Header := (runAll (s.run k).core as).2.flatMap Append.headers

/-- The body: the pieces that were added, in the order of the calls. -/
def body : List Byte := (runAll (s.run k).core as).2.flatMap Append.bytes

/-- The message that the calls compose. -/
def request : Request :=
  k.request s.httpMethod s.resourcePath
    (startHeaders k s.contentType s.setAuthenticationHeader ++ s.headers k as ++
      lengthHeaderIf (s.body k as).length)
    (s.body k as)

/-- The message under construction. -/
def draft : Draft :=
  k.draft s.httpMethod s.resourcePath
    (startHeaders k s.contentType s.setAuthenticationHeader ++ s.headers k as)
    (CRLF ++ s.body k as)

end Start

section

variable {k : Core w} {s : Start} {as : List Append}

theorem composed_after (has : ∀ a ∈ as, a.Valid w) (hstart : (s.run k).code = .ok) :
    Composing k (s.after k as) ∧ Composed (s.after k as) (s.draft k as) (s.body k as).length := by
  obtain ⟨hframe, hd⟩ := runAll_composed (start_composed (Result.isOk_iff.mpr hstart)) has
  refine ⟨start_composing.trans hframe, ?_⟩
  rw [k.draft_add, Nat.zero_add] at hd
  exact hd

/-- **What start, appended parts and end prepare.** -/
theorem finish_prepares (has : ∀ a ∈ as, a.Valid w) (hstart : (s.run k).code = .ok) :
    Prepares k (s.finish k as) (k.state = .idle) (s.request k as) := by
  obtain ⟨hframe, hd⟩ := composed_after has hstart
  have hend := end_finishes hd
  rw [Start.draft, k.draft_add, List.append_nil] at hend
  exact Finishes.prepares hframe hend

/-- **The request that start, headers, pieces of the body and end compose.** A call succeeds when there
is something to add and room for it, and one that fails leaves no trace; how headers and pieces of the
body were interleaved does not show. From `10 ^ 7` bytes on, the content-length is the text that
`sprintf` prints beyond its array of 8 bytes. -/
theorem apiCall_layout (has : ∀ a ∈ as, a.Valid w) (hstart : (s.run k).code = .ok)
    (hend : (s.finish k as).code = .ok) :
    (s.finish k as).core.http.buffer.bytes.take (s.finish k as).core.http.totalSendSize =
        (s.request k as).bytes ∧
      (s.finish k as).core.http.totalSendSize < k.bufferSize ∧
      (∀ as', as' <+: as → (s.after k as').http.totalSendSize < k.bufferSize) ∧
      (∀ as' a, as' ++ [a] <+: as →
        ((a.run (s.after k as')).code = .ok ↔ a.Fits (s.after k as') (s.draft k as')) ∧
        ((a.run (s.after k as')).code ≠ .ok → (a.run (s.after k as')).core = s.after k as')) ∧
      ∀ as', (∀ a ∈ as', a.Valid w) → s.headers k as' = s.headers k as →
        s.body k as' = s.body k as →
        (s.finish k as').code = .ok ∧
        (s.finish k as').core.http.totalSendSize = (s.finish k as).core.http.totalSendSize ∧
        (s.finish k as').core.http.buffer.bytes.take (s.finish k as').core.http.totalSendSize =
          (s.finish k as).core.http.buffer.bytes.take (s.finish k as).core.http.totalSendSize := by
  have hprep := finish_prepares has hstart
  obtain ⟨hidle, hfits⟩ := hprep.ok_iff.mp hend
  have hvalid : ∀ as', as' <+: as → ∀ a ∈ as', a.Valid w :=
    fun as' hpre a ha => has a (hpre.subset ha)
  refine ⟨hprep.sent hend, by rw [hprep.totalSendSize hend]; exact hfits, ?_, ?_, ?_⟩
  · intro as' hpre
    obtain ⟨hframe, hd⟩ := composed_after (hvalid as' hpre) hstart
    rw [hd.holds.totalSendSize, ← hframe.size]
    exact hd.holds.fits
  · intro as' a hpre
    obtain ⟨_, hd⟩ := composed_after (hvalid as' ((List.prefix_append ..).trans hpre)) hstart
    rw [← Result.isOk_iff]
    rcases Append.run_cases hd (hvalid _ hpre a (by simp)) with
      ⟨hfits, hok, _⟩ | ⟨hnot, hfail, hsame⟩
    · exact ⟨iff_of_true hok hfits, fun hfail => absurd (Result.isOk_iff.mp hok) hfail⟩
    · exact ⟨iff_of_false (by simp [hfail]) hnot, fun _ => hsame⟩
  · intro as' has' hheaders hbody
    have hreq : s.request k as' = s.request k as := by
      rw [Start.request, Start.request, hheaders, hbody]
    have hprep' := finish_prepares has' hstart
    rw [hreq] at hprep'
    have hend' := hprep'.ok_iff.mpr ⟨hidle, hfits⟩
    exact ⟨hend', (hprep'.totalSendSize hend').trans (hprep.totalSendSize hend).symm,
      (hprep'.sent hend').trans (hprep.sent hend).symm⟩

end

/-- A request with headers before, between and behind the pieces of its body, and with a call that
fails: there is no body where its pointer is NULL. -/
theorem apiCall_layout_of_post :
    let s : Start := ⟨.lit "POST", .lit "api/logs", some (.lit "text/plain"), false⟩
    let as : List Append := [.header (.lit "x-a") (.lit "1"), .body (some (ascii "one,")) 4,
      .header (.lit "x-b") (.lit "2"), .body none 3, .body (some (ascii "two")) 3]
    ((s.finish (device 512) as).core.http.buffer.bytes.take
        (s.finish (device 512) as).core.http.totalSendSize = (s.request (device 512) as).bytes) ∧
      (s.request (device 512) as).body = ascii "one,two" := by
  intro s as
  have has : ∀ a ∈ as, a.Valid 64 := by decide
  have h := apiCall_layout (k := device 512) (s := s) has (by decide +kernel) (by decide +kernel)
  exact ⟨h.1, by decide +kernel⟩

end KiiThing

import KiiThing.Core.Init
import KiiThing.Core.Steady

/-!
# Preparations that go through `prv_http_request`

`RequestCall` are the calls of the functions that have nothing to do but print a path and pass their
arguments on. What `prv_http_request` writes is `builds_httpRequest`: the whole request if it fits,
and an error if it does not, with two exceptions (`allOrNothing_iff`). The Content-Encoding header is
set whatever the headers in front of it returned, on a fresh object through a `_body_position` that
is NULL; and what it returned is overwritten before it is looked at, so that a header which finds no
room is left out in silence when all that comes behind it is shorter.
-/

namespace KiiThing

open Http

variable {w : Nat}

/-! ## The calls -/

/-- The arguments of `prv_http_request`. -/
structure RequestArgs where
  method : CString
  resourcePath : CString
  contentType : Option CString := none
  accessToken : Option CString
  etag : Option CString := none
  body : Option (List Byte) := none
  contentEncoding : Option CString := none
  presetContentLength : Option Nat := none

/-- A call of a function that goes through `prv_http_request`. -/
inductive RequestCall where
  | registerThing (thingData : Option CString)
  | uploadThingState (method thingId : CString) (state : Option (List Byte))
      (contentType contentEncoding : Option CString) (contentLength : Option Nat)
  | createNewObject (bucket : Bucket) (objectData objectContentType : Option CString)
  | createNewObjectWithId (bucket : Bucket) (objectId : CString)
      (objectData objectContentType : Option CString)
  | patchObject (bucket : Bucket) (objectId : CString) (patchData optEtag : Option CString)
  | replaceObject (bucket : Bucket) (objectId : CString) (replaceData optEtag : Option CString)
  | getObject (bucket : Bucket) (objectId : CString)
  | deleteObject (bucket : Bucket) (objectId : CString)
  | subscribeBucket (bucket : Bucket)
  | unsubscribeBucket (bucket : Bucket)
  | createTopic (topic : Topic)
  | deleteTopic (topic : Topic)
  | subscribeTopic (topic : Topic)
  | unsubscribeTopic (topic : Topic)
  | getMqttEndpoint (installationId : CString)

namespace RequestCall

def run (k : Core w) : RequestCall → Result ErrorCode w
  | registerThing thingData => kiiCoreRegisterThing k thingData
  | uploadThingState method thingId state contentType contentEncoding contentLength =>
    kiiCoreUploadThingState k method thingId state contentType contentEncoding contentLength
  | createNewObject bucket objectData objectContentType =>
    kiiCoreCreateNewObject k bucket objectData objectContentType
  | createNewObjectWithId bucket objectId objectData objectContentType =>
    kiiCoreCreateNewObjectWithId k bucket objectId objectData objectContentType
  | patchObject bucket objectId patchData optEtag =>
    kiiCorePatchObject k bucket objectId patchData optEtag
  | replaceObject bucket objectId replaceData optEtag =>
    kiiCoreReplaceObject k bucket objectId replaceData optEtag
  | getObject bucket objectId => kiiCoreGetObject k bucket objectId
  | deleteObject bucket objectId => kiiCoreDeleteObject k bucket objectId
  | subscribeBucket bucket => kiiCoreSubscribeBucket k bucket
  | unsubscribeBucket bucket => kiiCoreUnsubscribeBucket k bucket
  | createTopic topic => kiiCoreCreateTopic k topic
  | deleteTopic topic => kiiCoreDeleteTopic k topic
  | subscribeTopic topic => kiiCoreSubscribeTopic k topic
  | unsubscribeTopic topic => kiiCoreUnsubscribeTopic k topic
  | getMqttEndpoint installationId => kiiCoreGetMqttEndpoint k installationId

/-- What the call passes to `prv_http_request`. -/
def args (k : Core w) : RequestCall → RequestArgs
  | registerThing thingData => {
      method := .lit "POST"
      resourcePath := .lit "api/apps/" ++ k.appId ++ .lit "/things"
      contentType :=
        some (.lit "application/vnd.kii.ThingRegistrationAndAuthorizationRequest+json")
      accessToken := none
      body := thingData.map CString.bytes }
  | uploadThingState method thingId state contentType contentEncoding contentLength => {
      method := method
      resourcePath := .lit "thing-if/apps/" ++ k.appId ++ .lit "/targets/thing:" ++ thingId ++
        .lit "/states"
      contentType := some (contentType.getD contentUpdateState)
      accessToken := k.accessToken
      body := state
      contentEncoding := contentEncoding
      presetContentLength := contentLength }
  | createNewObject bucket objectData objectContentType => {
      method := .lit "POST"
      resourcePath := prvBucketPath k bucket ++ .lit "/objects"
      contentType := some (objectContentType.getD defaultObjectContentType)
      accessToken := k.accessToken
      body := objectData.map CString.bytes }
  | createNewObjectWithId bucket objectId objectData objectContentType => {
      method := .lit "PUT"
      resourcePath := objectPath k bucket objectId
      contentType := some (objectContentType.getD defaultObjectContentType)
      accessToken := k.accessToken
      body := objectData.map CString.bytes }
  | patchObject bucket objectId patchData optEtag => {
      method := .lit "PATCH"
      resourcePath := objectPath k bucket objectId
      accessToken := k.accessToken
      etag := optEtag
      body := patchData.map CString.bytes }
  | replaceObject bucket objectId replaceData optEtag => {
      method := .lit "PUT"
      resourcePath := objectPath k bucket objectId
      accessToken := k.accessToken
      etag := optEtag
      body := replaceData.map CString.bytes }
  | getObject bucket objectId => {
      method := .lit "GET"
      resourcePath := objectPath k bucket objectId
      accessToken := k.accessToken }
  | deleteObject bucket objectId => {
      method := .lit "DELETE"
      resourcePath := objectPath k bucket objectId
      accessToken := k.accessToken }
  | subscribeBucket bucket => {
      method := .lit "POST"
      resourcePath := prvBucketPath k bucket ++ .lit "/filters/all/push/subscriptions/things"
      accessToken := k.accessToken }
  | unsubscribeBucket bucket => {
      method := .lit "DELETE"
      resourcePath := prvBucketPath k bucket ++ .lit "/filters/all/push/subscriptions/things/" ++
        k.author.authorId.str
      accessToken := k.accessToken }
  | createTopic topic => {
      method := .lit "PUT"
      resourcePath := prvTopicPath k topic
      accessToken := k.accessToken }
  | deleteTopic topic => {
      method := .lit "DELETE"
      resourcePath := prvTopicPath k topic
      accessToken := k.accessToken }
  | subscribeTopic topic => {
      method := .lit "POST"
      resourcePath := prvTopicPath k topic ++ .lit "/push/subscriptions/things"
      accessToken := k.accessToken }
  | unsubscribeTopic topic => {
      method := .lit "DELETE"
      resourcePath := prvTopicPath k topic ++ .lit "/push/subscriptions/things/" ++
        k.author.authorId.str
      accessToken := k.accessToken }
  | getMqttEndpoint installationId => {
      method := .lit "GET"
      resourcePath := .lit "api/apps/" ++ k.appId ++ .lit "/installations/" ++ installationId ++
        .lit "/mqtt-endpoint"
      accessToken := k.accessToken }

end RequestCall

/-- `prv_http_request` with its arguments as a record. -/
def RequestArgs.run (k : Core w) (a : RequestArgs) : Result ErrorCode w :=
  prvHttpRequest k a.method a.resourcePath a.contentType a.accessToken a.etag a.body
    a.contentEncoding a.presetContentLength

theorem RequestCall.run_eq (k : Core w) (c : RequestCall) :
    c.run k = ((c.args k).run (k.setPath (c.args k).resourcePath)).ready := by
  cases c with
  | uploadThingState method thingId state contentType contentEncoding contentLength =>
    -- this path is printed in two steps
    have hpath := k.setPath_setPath
      (.lit "thing-if/apps/" ++ k.appId ++ .lit "/targets/thing:" ++ thingId) (.lit "/states")
    simp only [args]
    rw [← hpath]
    rfl
  | _ => rfl

/-! ## What is written -/

namespace RequestArgs

/-- The number of bytes that are sent of the body. -/
def bodyLength (a : RequestArgs) : Nat := a.presetContentLength.getD (strlen a.body)

/-- The headers of `prv_http_request_line_and_headers`. -/
def headers (a : RequestArgs) : List Header :=
  headerIf (.lit "content-type") a.contentType ++
    (bearerHeader a.accessToken ++ headerIf (.lit "if-match") a.etag)

/-- The Content-Encoding header that is asked for. -/
def encoding (a : RequestArgs) : List Header :=
  headerIf (.lit "Content-Encoding") a.contentEncoding

/-- The size of the request in front of the Content-Encoding header. -/
def sizeBefore (a : RequestArgs) (k : Core w) : Nat :=
  (k.draft a.method a.resourcePath a.headers []).size

/-- What stands behind the Content-Encoding header. -/
def behind (a : RequestArgs) : List Byte :=
  Request.fields (bodyHeaders a.body a.bodyLength) ++ (CRLF ++ bodyBytes a.body a.bodyLength)

/-- The Content-Encoding header that is sent: none when it finds no room. -/
def encodingSent (a : RequestArgs) (k : Core w) : List Header :=
  if a.sizeBefore k + (Request.fields a.encoding).length < k.bufferSize then a.encoding else []

/-- The message, with its Content-Encoding header given. -/
def message (a : RequestArgs) (k : Core w) (encoding : List Header) : Request :=
  k.request a.method a.resourcePath
    (a.headers ++ (encoding ++ bodyHeaders a.body a.bodyLength)) (bodyBytes a.body a.bodyLength)

theorem length_message (a : RequestArgs) (k : Core w) (encoding : List Header) :
    (a.message k encoding).bytes.length =
      a.sizeBefore k + (Request.fields encoding).length + a.behind.length := by
  rw [message, ← Core.text_draft, Draft.length_text, sizeBefore, behind, Core.size_draft,
    Core.size_draft]
  simp only [Request.fields_append, List.length_append, List.length_nil]
  omega

end RequestArgs

/-- A header that finds no room changes nothing. -/
theorem setHeaderIf_of_ge {k : Core w} {d : Draft} {key : CString} {value : Option CString}
    (hd : Holds k d)
    (h : k.bufferSize ≤ d.size + (Request.fields (headerIf key value)).length) :
    (setHeaderIf k key value).core = k := by
  cases value with
  | none => rfl
  | some value =>
    have hlen : (Request.fields (headerIf key (some value))).length =
        key.length + 1 + value.length + 2 := by
      simp [headerIf, CString.length]
    rw [setHeaderIf, setHeader_of_ge]
    rw [hd.totalSendSize]
    omega

/-- **What `prv_http_request` writes.** -/
theorem builds_httpRequest (k : Core w) (a : RequestArgs) (hbody : Readable w a.body a.bodyLength) :
    Builds k (a.run k) (k.room a.method a.resourcePath ∧ ¬ TokenTooLong a.accessToken)
      (k.draft a.method a.resourcePath
        (a.headers ++ (a.encodingSent k ++ bodyHeaders a.body a.bodyLength))
        (CRLF ++ bodyBytes a.body a.bodyLength)) := by
  have hhead := builds_lineAndHeaders k a.method a.resourcePath a.contentType a.accessToken a.etag
  have henc := adds_setHeaderIf k (.lit "Content-Encoding") a.contentEncoding
  have hend := adds_setBody k hbody
  obtain ⟨r, hr⟩ : ∃ r, r = prvHttpRequestLineAndHeaders k a.method a.resourcePath a.contentType
    a.accessToken a.etag := ⟨_, rfl⟩
  rw [← hr] at hhead
  have hrun : a.run k = if r.isOk then
      setBody (setHeaderIf r.core (.lit "Content-Encoding") a.contentEncoding).core a.body a.bodyLength
      else ⟨r.code, (setHeaderIf r.core (.lit "Content-Encoding") a.contentEncoding).core⟩ := by
    rw [hr]
    rfl
  rw [hrun]
  cases hok : r.isOk with
  | false =>
    have hsame : (Result.mk r.code (setHeaderIf r.core (.lit "Content-Encoding")
        a.contentEncoding).core).isOk = false := hok
    rw [if_neg Bool.false_ne_true]
    refine ⟨henc.frame _ hhead.frame, ?_, fun h => absurd h (by simp [hsame])⟩
    rw [hsame]
    constructor
    · intro h
      cases h
    · rintro ⟨hroom, hlt⟩
      have hno := hhead.isOk_iff.mpr ⟨hroom, by
        rw [Core.size_draft] at hlt ⊢
        simp only [RequestArgs.headers, Request.fields_append, List.length_append] at hlt
        simp only [Request.fields_append, List.length_append, List.length_nil]
        omega⟩
      rw [hok] at hno
      cases hno
  | true =>
    rw [if_pos rfl]
    have hd := hhead.holds hok
    by_cases hlt : a.sizeBefore k + (Request.fields a.encoding).length < k.bufferSize
    · -- the header is written
      obtain ⟨hok', _⟩ := henc.adds _ _ hhead.frame hd (by
        rw [List.length_nil, Nat.add_zero]
        exact hlt)
      have hbuilds := (hhead.next henc).next hend
      rw [Result.next_of_isOk hok, Result.next_of_isOk hok', Core.draft_add, Core.draft_add] at hbuilds
      rw [RequestArgs.encodingSent, if_pos hlt]
      simpa only [List.append_assoc, List.nil_append, RequestArgs.headers, RequestArgs.encoding]
        using hbuilds
    · -- it is left out
      have hskip : (setHeaderIf r.core (.lit "Content-Encoding") a.contentEncoding).core = r.core := by
        apply setHeaderIf_of_ge hd
        rw [hhead.frame.size]
        exact Nat.not_lt.mp hlt
      have hbuilds := hhead.next hend
      rw [Result.next_of_isOk hok, Core.draft_add] at hbuilds
      rw [hskip, RequestArgs.encodingSent, if_neg hlt]
      simpa only [List.append_assoc, List.nil_append, RequestArgs.headers] using hbuilds

/-- **What a call prepares.** -/
theorem RequestCall.prepares {k : Core w} {c : RequestCall}
    (hbody : Readable w (c.args k).body (c.args k).bodyLength) :
    Prepares k (c.run k)
      (k.room (c.args k).method (c.args k).resourcePath ∧ ¬ TokenTooLong (c.args k).accessToken)
      ((c.args k).message k ((c.args k).encodingSent k)) := by
  have h := (builds_httpRequest (k.setPath (c.args k).resourcePath) (c.args k) hbody).ready
  rw [c.run_eq]
  exact h.of_setPath

/-! ## What is left as it was -/

/-- The Content-Encoding header is set behind a request line that was refused, on an object that has
never held a request line. -/
def RequestArgs.ReachesNull (a : RequestArgs) (k : Core w) : Prop :=
  k.http.bodyPosition = 0 ∧ ¬ k.room a.method a.resourcePath ∧ a.contentEncoding.isSome = true ∧
    (Request.fields a.encoding).length + k.http.totalSendSize < k.bufferSize

/-- Where the Content-Encoding header finds room, it goes through `_body_position`. -/
theorem nullAccess_setEncoding {k : Core w} {a : RequestArgs} :
    (setHeaderIf k (.lit "Content-Encoding") a.contentEncoding).core.http.nullAccess = true ↔
      k.http.nullAccess = true ∨ (k.http.bodyPosition = 0 ∧ a.contentEncoding.isSome = true ∧
        (Request.fields a.encoding).length + k.http.totalSendSize < k.bufferSize) := by
  rw [RequestArgs.encoding]
  cases a.contentEncoding with
  | none => simp [setHeaderIf]
  | some value =>
    have hlen : (Request.fields (headerIf (.lit "Content-Encoding") (some value))).length =
        (CString.lit "Content-Encoding").length + 1 + value.length + 2 := by
      simp [headerIf, CString.length]
    rw [hlen, setHeaderIf, prvKiiHttpSetHeader]
    dsimp only
    split
    · next hge => simp [hge]
    · next hlt => simp [Nat.lt_of_not_le hlt]

/-- **When a call goes through NULL.** -/
theorem nullAccess_httpRequest {k : Core w} {a : RequestArgs} :
    (a.run k).core.http.nullAccess = true ↔ k.http.nullAccess = true ∨ a.ReachesNull k := by
  have hhead := begun_lineAndHeaders k a.method a.resourcePath a.contentType a.accessToken a.etag
  have hencoding := steady_setHeaderIf (w := w) (.lit "Content-Encoding") fun _ => a.contentEncoding
  have hend := steady_setBody (w := w) a.body (a.presetContentLength.getD (strlen a.body))
  rw [RequestArgs.run, prvHttpRequest, RequestArgs.ReachesNull]
  by_cases hroom : k.room a.method a.resourcePath
  · -- the line has set `_body_position`, and no step takes it back
    have hplaced := placed_lineAndHeaders hroom a.contentType a.accessToken a.etag
    have hplaced' := Nat.lt_of_lt_of_le hplaced (hencoding.position _)
    have hsame := (hencoding.intact _ hplaced).trans hhead.intact
    split
    · rw [hend.intact _ hplaced', hsame]
      simp [hroom]
    · rw [hsame]
      simp [hroom]
  · rw [lineAndHeaders_of_ge hroom]
    have hset := nullAccess_setEncoding (a := a)
      (k := { k with http.host := k.appHost, http.buffer := k.http.buffer.clear })
    simpa [Result.isOk, ReturnCode.isOk, hroom, Core.bufferSize] using hset

theorem begun_httpRequest {k : Core w} {a : RequestArgs} (hnull : ¬ a.ReachesNull k) :
    Begun k (a.run k) := by
  have hhead := begun_lineAndHeaders k a.method a.resourcePath a.contentType a.accessToken a.etag
  have hencoding := steady_setHeaderIf (w := w) (.lit "Content-Encoding") fun _ => a.contentEncoding
  have hbody := steady_setBody (w := w) a.body (a.presetContentLength.getD (strlen a.body))
  have hintact : (a.run k).core.http.nullAccess = k.http.nullAccess := by
    rw [Bool.eq_iff_iff, nullAccess_httpRequest]
    simp [hnull]
  rw [RequestArgs.run, prvHttpRequest] at hintact ⊢
  split at hintact
  · next hok =>
    rw [if_pos hok]
    refine ⟨?_, ?_, hintact, ?_⟩
    · rw [hbody.state, hencoding.state, hhead.state]
    · rw [hbody.normalizerHost, hencoding.normalizerHost, hhead.normalizerHost]
    · intro _
      exact hbody.fitting _ (hencoding.fitting _ (hhead.fitting hok))
  · next hnot =>
    rw [if_neg hnot]
    refine ⟨?_, ?_, hintact, ?_⟩
    · rw [hencoding.state, hhead.state]
    · rw [hencoding.normalizerHost, hhead.normalizerHost]
    · intro hok
      exact absurd hok hnot

/-- A call that goes through NULL does so whatever path it prints first. -/
theorem RequestCall.nullAccess_run {k : Core w} {c : RequestCall} :
    (c.run k).core.http.nullAccess = true ↔
      k.http.nullAccess = true ∨ (c.args k).ReachesNull k := by
  rw [c.run_eq, Result.http_ready, nullAccess_httpRequest]
  rfl

theorem runnable_request {k : Core w} {c : RequestCall}
    (hpath : (c.args k).resourcePath.length < 256) (hnull : ¬ (c.args k).ReachesNull k) :
    Runnable k (c.run k) := by
  have hbegun : Begun (k.setPath (c.args k).resourcePath) _ := begun_httpRequest hnull
  rw [c.run_eq]
  exact hbegun.ready.of_setPath hpath

/-! ## All or nothing -/

/-- The message that a call asks for. -/
def RequestCall.request (k : Core w) (c : RequestCall) : Request :=
  (c.args k).message k (c.args k).encoding

/-- What the caller owes for a call. -/
structure RequestCall.Proper (c : RequestCall) (k : Core w) : Prop where
  path_lt : (c.args k).resourcePath.length < 256
  body : Readable w (c.args k).body (c.args k).bodyLength
  bodyLength_lt : (c.args k).bodyLength < 10 ^ 7
  normalizerHost : k.http.normalizerHost = none
  intact : k.http.nullAccess = false

/-- The call returns, a successful one has prepared the whole message, and a message that does not
fit is an error. -/
structure AllOrNothing (k : Core w) (c : RequestCall) : Prop where
  returns : (c.run k).core.http.nullAccess = false
  complete : (c.run k).code = .ok →
    (c.run k).core.http.buffer.bytes.take (c.run k).core.http.totalSendSize = (c.request k).bytes
  refused : k.bufferSize ≤ (c.request k).bytes.length → (c.run k).code = .fail

/-- There is no room for the Content-Encoding header, but for all that comes behind it there is; and
the token, if there is one, fits. -/
def EncodingLost (k : Core w) (c : RequestCall) : Prop :=
  ¬ TokenTooLong (c.args k).accessToken ∧
    k.bufferSize ≤ (c.args k).sizeBefore k + (Request.fields (c.args k).encoding).length ∧
    (c.args k).sizeBefore k + (c.args k).behind.length < k.bufferSize

/-- The request line is part of what stands in front of the Content-Encoding header. -/
theorem room_of_sizeBefore {k : Core w} {a : RequestArgs} (hhost : k.http.normalizerHost = none)
    (h : a.sizeBefore k < k.bufferSize) : k.room a.method a.resourcePath := by
  rw [RequestArgs.sizeBefore, Core.size_draft, Core.hostStr, hhost, Option.getD_none] at h
  show _ + 21 < _
  omega

/-- **When a preparation is all or nothing**: always but where the Content-Encoding header alone
finds no room, or is set through NULL. -/
theorem allOrNothing_iff {k : Core w} {c : RequestCall} (hc : c.Proper k) :
    AllOrNothing k c ↔ ¬ EncodingLost k c ∧ ¬ (c.args k).ReachesNull k := by
  have hnull : (c.run k).core.http.nullAccess = false ↔ ¬ (c.args k).ReachesNull k := by
    rw [← Bool.not_eq_true, RequestCall.nullAccess_run, hc.intact]
    simp
  have hprep := RequestCall.prepares hc.body
  have hlen := (c.args k).length_message k
  obtain ⟨a, ha⟩ : ∃ a, a = c.args k := ⟨_, rfl⟩
  rw [← ha] at hprep hlen
  constructor
  · intro h
    refine ⟨?_, hnull.mp h.returns⟩
    rintro ⟨htoken, hge, hlt⟩
    rw [← ha] at htoken hge hlt
    have hsent : a.encodingSent k = [] := if_neg (Nat.not_lt.mpr hge)
    rw [hsent] at hprep
    have hshort := hlen []
    rw [Request.fields_nil, List.length_nil, Nat.add_zero] at hshort
    have hroom := room_of_sizeBefore hc.normalizerHost (a := a) (k := k) (by omega)
    have hcode := hprep.ok_iff.mpr ⟨⟨hroom, htoken⟩, by omega⟩
    -- what was sent is shorter than what was asked for
    have hsame := (hprep.sent hcode).symm.trans (h.complete hcode)
    have hwhole := hlen a.encoding
    rw [RequestCall.request, ← ha] at hsame
    rw [← hsame] at hwhole
    omega
  · rintro ⟨h, hreached⟩
    have hcomplete : (c.run k).code = .ok →
        (c.run k).core.http.buffer.bytes.take (c.run k).core.http.totalSendSize =
          (c.request k).bytes := by
      intro hcode
      rw [hprep.sent hcode, RequestCall.request, ← ha]
      by_cases hlt : a.sizeBefore k + (Request.fields a.encoding).length < k.bufferSize
      · rw [RequestArgs.encodingSent, if_pos hlt]
      · obtain ⟨⟨_, htoken⟩, hfit⟩ := hprep.ok_iff.mp hcode
        have hsent : a.encodingSent k = [] := if_neg hlt
        rw [hsent, hlen, Request.fields_nil, List.length_nil, Nat.add_zero] at hfit
        rw [EncodingLost, ← ha] at h
        exact absurd ⟨htoken, Nat.not_lt.mp hlt, hfit⟩ h
    refine ⟨hnull.mpr hreached, hcomplete, ?_⟩
    intro hge
    cases hcode : (c.run k).code with
    | fail => rfl
    | ok =>
      have hsame := hcomplete hcode
      rw [hprep.sent hcode] at hsame
      rw [← hsame] at hge
      have := (hprep.ok_iff.mp hcode).2
      omega

/-- A state that is uploaded with a Content-Encoding header. -/
def encodedState (contentEncoding : CString) : RequestCall :=
  .uploadThingState (.lit "PUT") (.lit "th") (some (ascii "ab")) none (some contentEncoding) (some 2)

def longEncoding : CString := .lit "gzip-with-a-name-that-is-rather-long-for-the-room-that-is-left"

/-- In a buffer of 256 bytes a long header is left out, and the call succeeds. In one of 64 bytes the
request line of a first call finds no room, and a short header goes through NULL. -/
theorem allOrNothing_fails :
    (encodedState longEncoding).Proper (device 256) ∧
    ((encodedState longEncoding).run (device 256)).code = .ok ∧
    ¬ AllOrNothing (device 256) (encodedState longEncoding) ∧
    (encodedState (.lit "gzip")).Proper (device 64) ∧
    ((encodedState (.lit "gzip")).run (device 64)).core.http.nullAccess = true ∧
    ¬ AllOrNothing (device 64) (encodedState (.lit "gzip")) := by
  have hlong : (encodedState longEncoding).Proper (device 256) :=
    ⟨by decide, by decide, by decide, by decide, rfl⟩
  have hshort : (encodedState (.lit "gzip")).Proper (device 64) :=
    ⟨by decide, by decide, by decide, by decide, rfl⟩
  have hnull : ((encodedState (.lit "gzip")).run (device 64)).core.http.nullAccess = true := by
    decide +kernel
  refine ⟨hlong, by decide +kernel, ?_, hshort, hnull, ?_⟩
  · intro h
    exact absurd (h.complete (by decide +kernel)) (by decide +kernel)
  · intro h
    exact Bool.false_ne_true (h.returns.symm.trans hnull)

theorem allOrNothing_iff_of_state : AllOrNothing (device 512) (encodedState longEncoding) := by
  apply (allOrNothing_iff ⟨by decide, by decide, by decide, by decide, rfl⟩).mpr
  constructor
  · rintro ⟨-, hge, -⟩
    exact absurd hge (by decide +kernel)
  · rintro ⟨-, hroom, -⟩
    exact hroom (by decide +kernel)

/-! ## The request line -/

/-- The length of the request line for a host. -/
def requestLineLength (method host path : CString) : Nat :=
  method.length + host.length + path.length + 21

/-- The request line that is printed. -/
def Core.requestLine (k : Core w) (method path : CString) : List Byte :=
  Request.line method.bytes (k.hostStr k.appHost).bytes path.bytes

theorem Core.length_requestLine (k : Core w) (method path : CString) :
    (k.requestLine method path).length =
      requestLineLength method (k.hostStr k.appHost) path := by
  rw [requestLine, Request.length_line]
  rfl

/-- A request line that was accepted fits with its terminator, stands in the buffer, and is what
the two positions say. -/
def LineFits (k : Core w) (method path : CString) : Prop :=
  let r := prvKiiHttpSetRequestLine k method path
  let line := k.requestLine method path
  r.code = .ok → line.length + 1 ≤ k.bufferSize ∧ line ++ [0] <+: r.core.http.buffer.bytes ∧
    r.core.http.totalSendSize = line.length ∧ r.core.http.bodyPosition = line.length

/-- There is room for the line with `app_host`, but not for that with `normalizer_host`. -/
def HostOutgrows (k : Core w) (method path : CString) : Prop :=
  ∃ host ∈ k.http.normalizerHost, requestLineLength method k.appHost path < k.bufferSize ∧
    k.bufferSize ≤ requestLineLength method host path

/-- What was checked is what is printed, or is not, but for another host. -/
theorem not_hostOutgrows_iff {k : Core w} {method path : CString}
    (hroom : requestLineLength method k.appHost path < k.bufferSize) :
    ¬ HostOutgrows k method path ↔
      requestLineLength method (k.hostStr k.appHost) path < k.bufferSize := by
  cases hhost : k.http.normalizerHost with
  | none => simp [HostOutgrows, Core.hostStr, hhost, hroom]
  | some host => simp [HostOutgrows, Core.hostStr, hhost, hroom]

/-- **When the request line fits**: always but where `normalizer_host` is longer than the room that
was checked for `app_host`. -/
theorem lineFits_iff (k : Core w) (method path : CString) :
    LineFits k method path ↔ ¬ HostOutgrows k method path := by
  by_cases hroom : requestLineLength method k.appHost path < k.bufferSize
  · have hlen := k.length_requestLine method path
    rw [not_hostOutgrows_iff hroom, ← hlen, LineFits, setRequestLine_of_lt hroom]
    constructor
    · intro h
      exact (h rfl).1
    · intro hfit _
      refine ⟨hfit, ?_, rfl, rfl⟩
      -- the line is the first that is written into the cleared buffer
      have hcells : 0 + (k.requestLine method path ++ [0]).length ≤
          (Memory.fill k.http.buffer.bytes 0).length := by
        rw [Memory.length_fill, Nat.zero_add, List.length_append]
        exact hfit
      show _ <+: Memory.overwrite (Memory.fill k.http.buffer.bytes 0) 0
        (k.requestLine method path ++ [0])
      rw [Memory.overwrite_of_le hcells, List.take_zero, List.nil_append]
      exact List.prefix_append ..
  · -- the line is refused, so that nothing is asked of it
    have hline := setRequestLine_of_ge (Nat.not_lt.mp hroom)
    refine ⟨?_, ?_⟩
    · rintro _ ⟨_, _, hlt, _⟩
      exact hroom hlt
    · intro _ hcode
      rw [hline] at hcode
      cases hcode

theorem lt_word_64 : 64 < 2 ^ 63 := by decide

/-- A device behind a gateway, with a buffer of 64 bytes. -/
def gatewayDevice : Core 64 :=
  { device 64 lt_word_64 with
    http.normalizerHost := some (.lit "gateway.example.com:8443") }

/-- The line with the host of the site has 54 bytes, the one that is printed has 67. -/
theorem lineFits_fails : ¬ LineFits gatewayDevice (.lit "GET") (.lit "api/apps/app/things") := by
  intro h
  exact absurd (h (by decide)).1 (by decide)

end KiiThing

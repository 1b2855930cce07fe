import KiiThing.Core.Headers
import KiiThing.Lib.System
import KiiThing.Sdk.Paths

/-!
# At rest between calls

Between the calls of an application the SDK object is IDLE and has no `normalizer_host`, whatever was
called before, and whatever the callbacks and the server answered (`idle_between_calls`); but for two
defects. A path that is too long runs over `_state`, and where the preparation then fails nothing
sets it right. And the Content-Encoding header of a first upload goes through NULL when the request
line in front of it is refused. `KiiCall.Sound` are the calls in which neither happens.

Preparations are made of steps that touch neither the state nor `normalizer_host` (`Steady`). All a
function does besides is to run the engine until the object is IDLE (`KiiCall.way`), so that a call
that returns leaves the object at rest; and it does return when the callbacks answer
`KII_SOCKETC_AGAIN` finitely often.
-/

namespace KiiThing

open Http

variable {w : Nat}

/-! ## The other preparations -/

theorem runnable_thingAuthentication (k : Core w) (vendorThingId password : CString) :
    Runnable k (kiiCoreThingAuthentication k vendorThingId password) :=
  (runnable_assemble (prvSetAuthPath k) _ _ _ _).of_setPath (by decide)

theorem runnable_registerThingWithId {k : Core w} {vendorThingId password : CString}
    {thingType : Option CString} {r : Result ErrorCode w}
    (hpath : (prvSetThingRegisterPath k).httpRequestPath.length < 256)
    (h : kiiCoreRegisterThingWithId k vendorThingId password thingType = some r) : Runnable k r := by
  cases thingType with
  | none =>
    -- the request line and the headers failed
    have hhead := begun_lineAndHeaders (prvSetThingRegisterPath k) (.lit "POST")
      (prvSetThingRegisterPath k).httpRequestPath
      (some (.lit "application/vnd.kii.ThingRegistrationAndAuthorizationRequest+json")) none none
    rw [kiiCoreRegisterThingWithId] at h
    split at h
    · cases h
    · next hok =>
      cases h
      exact (hhead.refused (Bool.eq_false_iff.mpr hok)).of_setPath hpath
  | some thingType =>
    cases h
    exact (runnable_assemble (prvSetThingRegisterPath k) _ _ _ _).of_setPath hpath

theorem steady_additionalHeaders (key : List Byte) (strs : List CString) :
    Steady (fun k : Core w => additionalHeaders k key strs) := by
  induction strs generalizing key with
  | nil => exact Steady.pure _
  | cons str strs ih =>
    cases hcolon : colon str with
    | none =>
      simp only [additionalHeaders, hcolon]
      exact Steady.pure _
    | some n =>
      simp only [additionalHeaders, hcolon]
      exact (steady_setHeader _ _).next (ih _)

theorem steady_setHeaders (key : List Byte) (strs : List CString) :
    Steady (fun k : Core w => setHeaders k key strs) := by
  simp only [setHeaders_eq]
  exact (Steady.pure _).ite (steady_additionalHeaders key strs)

theorem runnable_apiCall (k : Core w) (a : ApiCall) : Runnable k (kiiCoreApiCall k a) := by
  have hchain := ((((begun_requestHead k a.httpMethod a.resourcePath).next
    (steady_setHeaderIf (.lit "content-type") fun _ => a.contentType)).next
      (steady_setHeaderIf (.lit "authorization") fun k => k.accessToken.map (.lit "bearer " ++ ·))).next
        (steady_setHeaders (List.replicate 128 0) a.headers)).next
          (steady_setBody a.httpBody a.bodySize)
  simp only [Result.next_assoc] at hchain
  exact hchain.ready

/-- `_content_length` is not looked at when a request is run. -/
theorem Fitting.of_contentLength {k : Core w} (h : Fitting k) (n : Nat) :
    Fitting { k with contentLength := n } := ⟨h.idle, h.fits, h.placed⟩

theorem begun_start (k : Core w) (s : Start) : Begun k (s.run k) := by
  have hset : Steady (prvKiiCoreSetAuthorizationHeader (w := w)) :=
    (Steady.pure _).ite ((Steady.pure _).ite (steady_setHeader_field _ _))
  have hauth : Steady (fun k : Core w => if s.setAuthenticationHeader = true
      then prvKiiCoreSetAuthorizationHeader k else ⟨.ok, k⟩) := hset.ite (Steady.pure _)
  have hlength : Steady (fun k : Core w => (⟨.ok, { k with contentLength := 0 }⟩ :
      Result ErrorCode w)) :=
    ⟨fun _ => rfl, fun _ => rfl, fun _ => Nat.le_refl _, fun _ _ => rfl,
      fun _ h => h.of_contentLength 0⟩
  have hchain := (((begun_requestHead k s.httpMethod s.resourcePath).next
    (steady_setHeaderIf (.lit "content-type") fun _ => s.contentType)).next hauth).next
      ((steady_appendBody (some CRLF) 2).next hlength)
  simp only [Result.next_assoc] at hchain
  exact hchain

theorem steady_append (a : Append) : Steady (fun k : Core w => a.run k) := by
  cases a with
  | header key value => exact (steady_setHeader key value).next (Steady.pure _)
  | body data size =>
    have hlength : Steady (fun k : Core w => (⟨.ok, { k with
        contentLength := (k.contentLength + size) % 2 ^ w }⟩ : Result ErrorCode w)) :=
      ⟨fun _ => rfl, fun _ => rfl, fun _ => Nat.le_refl _, fun _ _ => rfl,
        fun _ h => h.of_contentLength _⟩
    exact (steady_appendBody data size).next hlength

theorem steady_endLength : Steady (endLength (w := w)) := by
  apply Steady.ite _ (Steady.pure _)
  exact ((steady_setHeader_field _ fun k => prvContentLengthStr k.contentLength).ite
    (Steady.pure _) : Steady fun k : Core w =>
      prvKiiCoreHttpSetContentLengthHeader k k.contentLength)

/-- On an object at rest only the content-length header makes `kii_core_api_call_end` fail. -/
theorem apiCallEnd_ok_iff {k : Core w} (h : k.state = .idle) :
    (kiiCoreApiCallEnd k).code = .ok ↔ (endLength k).isOk = true := by
  rw [apiCallEnd_eq]
  rcases hok : (endLength k).isOk with _ | _
  · rw [Result.next_of_not_isOk hok]
    refine ⟨?_, fun h => absurd h Bool.false_ne_true⟩
    intro hcode
    cases hcode
  · rw [Result.next_of_isOk hok, steady_endLength.state, h]
    exact ⟨fun _ => rfl, fun _ => rfl⟩

theorem runnable_apiCallEnd {k : Core w} (h : k.state = .idle) (hfit : Fitting k) :
    Runnable k (kiiCoreApiCallEnd k) := by
  have hhost := steady_endLength.normalizerHost k
  have hnull := steady_endLength.intact k hfit.placed
  have hfit' := steady_endLength.fitting k hfit
  rw [apiCallEnd_eq]
  rcases hok : (endLength k).isOk with _ | _
  · rw [Result.next_of_not_isOk hok]
    refine ⟨⟨hhost, hnull, fun _ => steady_endLength.state k⟩, ?_⟩
    intro hcode
    cases hcode
  · rw [Result.next_of_isOk hok, steady_endLength.state, h]
    exact ⟨⟨hhost, hnull, fun hcode => absurd rfl hcode⟩, fun _ => ⟨rfl, hfit'.idle, hfit'.fits⟩⟩

/-! ## The engine -/

theorem kiiCoreRun_kept (cbs : Callbacks) (x : Exchange w) :
    (kiiCoreRun cbs x).2.core.http.normalizerHost = x.core.http.normalizerHost ∧
      (kiiCoreRun cbs x).2.core.http.nullAccess = x.core.http.nullAccess := by
  cases hstate : x.core.state with
  | idle | ready | other _ =>
    rw [kiiCoreRun, hstate]
    exact ⟨rfl, rfl⟩
  | execute =>
    rw [(kiiCoreRun_execute cbs hstate).2]
    have huntouched := execute_untouched cbs x
    exact ⟨huntouched.normalizerHost, huntouched.nullAccess⟩

/-- The object is IDLE, with this `normalizer_host`, and nothing has gone through NULL. -/
structure Resting (normalizerHost : Option CString) (k : Core w) : Prop where
  state : k.state = .idle
  normalizerHost : k.http.normalizerHost = normalizerHost
  intact : k.http.nullAccess = false

/-- **A run of the engine leaves the object at rest.** -/
theorem runToIdle_resting {k : Core w} {cbs : Callbacks} {fuel : Nat} {r : ErrorCode × Exchange w}
    {host : Option CString} (hhost : k.http.normalizerHost = host)
    (hintact : k.http.nullAccess = false) (h : runToIdle cbs fuel k = some r) :
    Resting host r.2.core := by
  obtain ⟨x, ⟨hx, hx'⟩, rfl, -⟩ := Loop.doWhile_of_invariant
    (fun x => x.core.http.normalizerHost = host ∧ x.core.http.nullAccess = false)
    (fun x hx _ => ⟨(kiiCoreRun_kept cbs x).1.trans hx.1, (kiiCoreRun_kept cbs x).2.trans hx.2⟩)
    ⟨hhost, hintact⟩ h
  exact ⟨runToIdle_idle h, (kiiCoreRun_kept cbs x).1.trans hx, (kiiCoreRun_kept cbs x).2.trans hx'⟩

/-! ## The way of a function -/

/-- The exchange that a call ends with. -/
def Ending.exchange {γ : Type} : Ending γ w → Exchange w
  | .returned _ x _ => x
  | .nullAccess x => x

/-- The call leaves the object at rest. -/
def Ending.Rests {γ : Type} (normalizerHost : Option CString) (e : Ending γ w) : Prop :=
  Resting normalizerHost e.exchange.core

section

variable {γ : Type} {host : Option CString} {cbs : Callbacks} {r : Result ErrorCode w} {failure : γ}
  {rest : Exchange w → Ending γ w} {k : Core w} {x : Exchange w}

theorem perform_rests {fuel : Nat} {e : Ending γ w} (hk : Resting host k) (hr : Readied k r)
    (hrest : ∀ x, Resting host x.core → (rest x).Rests host)
    (h : perform cbs fuel r failure rest = some e) : e.Rests host := by
  have hhost : r.core.http.normalizerHost = host := hr.normalizerHost.trans hk.normalizerHost
  have hintact : r.core.http.nullAccess = false := hr.intact.trans hk.intact
  rcases perform_cases h with ⟨hnot, rfl⟩ | ⟨code, x, -, hrun, rfl⟩
  · refine ⟨?_, hhost, hintact⟩
    show r.core.state = _
    rw [hr.refused hnot, hk.state]
  · have hx : Resting host x.core := runToIdle_resting hhost hintact hrun
    split
    · exact hrest x hx
    · exact hx

/-- A request that can be run is run to its end, when the callbacks do not wait forever. -/
theorem perform_returns (hprepared : r.code = .ok → Prepared r.core) (hpatient : Patient cbs r.core) :
    ∃ fuel e, perform cbs fuel r failure rest = some e := by
  rcases hok : r.isOk with _ | _
  · exact ⟨0, .returned failure ⟨r.core, []⟩ [], perform_of_refused hok⟩
  · obtain ⟨fuel, res, hrun⟩ := exists_runToIdle_of_patient
      (hprepared (Result.isOk_iff.mp hok)) hpatient
    refine ⟨fuel, if res.1 = .ok then rest res.2 else .returned failure res.2 [], ?_⟩
    rw [perform, if_pos hok, hrun, Option.map_some]

/-- A function whose look at the response never accesses NULL returns. -/
theorem perform_returned {fuel : Nat} {e : Ending γ w}
    (hrest : ∀ x, ∃ value copied, rest x = .returned value x copied)
    (h : perform cbs fuel r failure rest = some e) : ∃ value x copied, e = .returned value x copied := by
  rcases perform_cases h with ⟨-, rfl⟩ | ⟨code, x, -, -, rfl⟩
  · exact ⟨failure, _, [], rfl⟩
  · obtain ⟨value, copied, hx⟩ := hrest x
    split
    · exact ⟨value, x, copied, hx⟩
    · exact ⟨failure, x, [], rfl⟩

theorem ifSuccessful_rests {e : Ending γ w} (hx : Resting host x.core) (he : e.Rests host) :
    (ifSuccessful x failure e).Rests host := by
  unfold ifSuccessful
  split
  · exact hx
  · exact he

theorem readResponse_rests {json : JsonReader} {success : γ} {fields : List JsonField}
    {store : List (Option JsonValue) → Core w → Core w} (hx : Resting host x.core)
    (hstore : ∀ copied k, Resting host k → Resting host (store copied k)) :
    (readResponse json x failure success fields store).Rests host := by
  unfold readResponse
  split
  · exact hx
  · dsimp only
    split
    · exact hstore _ _ hx
    · exact hstore _ _ hx

end

/-! ## The calls -/

/-- The request that a call prepares, if it gets so far. -/
def KiiCall.preparation (k : Core w) : KiiCall → Option (Result ErrorCode w)
  | thingAuthenticate vendorThingId password =>
    some (kiiCoreThingAuthentication k vendorThingId password)
  | thingRegister vendorThingId thingType password =>
    kiiCoreRegisterThingWithId k vendorThingId password thingType
  | thingUploadState thingId thingState contentLength contentType contentEncoding normalizerHost =>
    some (kiiCoreUploadThingState (k.setNormalizerHost normalizerHost) (.lit "PUT") thingId
      thingState contentType contentEncoding (some contentLength))
  | thingPatchState thingId thingState contentLength contentType contentEncoding normalizerHost =>
    some (kiiCoreUploadThingState (k.setNormalizerHost normalizerHost) (.lit "PATCH") thingId
      thingState
      (some (contentType.getD (.lit "application/vnd.kii.MultipleTraitStatePatch+json")))
      contentEncoding (some contentLength))
  | objectCreate bucket objectData objectContentType =>
    some (kiiCoreCreateNewObject k bucket objectData objectContentType)
  | objectCreateWithId bucket objectId objectData objectContentType =>
    some (kiiCoreCreateNewObjectWithId k bucket objectId objectData objectContentType)
  | objectPatch bucket objectId patchData optEtag =>
    some (kiiCorePatchObject k bucket objectId patchData optEtag)
  | objectReplace bucket objectId replacementData optEtag =>
    some (kiiCoreReplaceObject k bucket objectId replacementData optEtag)
  | objectDelete bucket objectId => some (kiiCoreDeleteObject k bucket objectId)
  | objectGet bucket objectId => some (kiiCoreGetObject k bucket objectId)
  | objectUploadBodyAtOnce bucket objectId bodyContentType data dataLength =>
    some (kiiCoreApiCall k
      (uploadBodyAtOnceCall k bucket objectId bodyContentType data dataLength))
  | objectInitUploadBody bucket objectId =>
    some (kiiCoreApiCall k (initUploadBodyCall k bucket objectId))
  | objectUploadBody bucket objectId uploadId chunk =>
    some (kiiCoreApiCall k (uploadBodyCall k bucket objectId uploadId chunk))
  | objectCommitUpload bucket objectId uploadId commit =>
    some (kiiCoreApiCall k (commitUploadCall k bucket objectId uploadId commit))
  | objectDownloadBodyAtOnce bucket objectId =>
    some (kiiCoreApiCall k (downloadBodyAtOnceCall k bucket objectId))
  | objectDownloadBody bucket objectId position length =>
    some (kiiCoreApiCall k (downloadBodyCall k bucket objectId position length))
  | pushSubscribeBucket bucket => some (kiiCoreSubscribeBucket k bucket)
  | pushUnsubscribeBucket bucket => some (kiiCoreUnsubscribeBucket k bucket)
  | pushSubscribeTopic topic => some (kiiCoreSubscribeTopic k topic)
  | pushUnsubscribeTopic topic => some (kiiCoreUnsubscribeTopic k topic)
  | pushCreateTopic topic => some (kiiCoreCreateTopic k topic)
  | pushDeleteTopic topic => some (kiiCoreDeleteTopic k topic)
  | serverCodeExecute endpointName params =>
    some (kiiCoreApiCall k (serverCodeCall k endpointName params))
  | apiCallStart _ => none
  | apiCallAppend _ => none
  | apiCallRun => some (kiiCoreApiCallEnd k)

/-- The path that a call puts together. Those of `kii_call.c` are given theirs. -/
def KiiCall.pathCall : KiiCall → Option PathCall
  | thingAuthenticate vendorThingId password =>
    some (.assembled (.thingAuthentication vendorThingId password))
  | thingRegister vendorThingId thingType password =>
    some (.assembled (.registerThingWithId vendorThingId password thingType))
  | thingUploadState thingId thingState contentLength contentType contentEncoding _ =>
    some (.request (.uploadThingState (.lit "PUT") thingId thingState contentType contentEncoding
      (some contentLength)))
  | thingPatchState thingId thingState contentLength contentType contentEncoding _ =>
    some (.request (.uploadThingState (.lit "PATCH") thingId thingState
      (some (contentType.getD (.lit "application/vnd.kii.MultipleTraitStatePatch+json")))
      contentEncoding (some contentLength)))
  | objectCreate bucket objectData objectContentType =>
    some (.request (.createNewObject bucket objectData objectContentType))
  | objectCreateWithId bucket objectId objectData objectContentType =>
    some (.request (.createNewObjectWithId bucket objectId objectData objectContentType))
  | objectPatch bucket objectId patchData optEtag =>
    some (.request (.patchObject bucket objectId patchData optEtag))
  | objectReplace bucket objectId replacementData optEtag =>
    some (.request (.replaceObject bucket objectId replacementData optEtag))
  | objectDelete bucket objectId => some (.request (.deleteObject bucket objectId))
  | objectGet bucket objectId => some (.request (.getObject bucket objectId))
  | objectUploadBodyAtOnce bucket objectId bodyContentType data dataLength =>
    some (.body bucket objectId (.uploadBodyAtOnce bodyContentType data dataLength))
  | objectInitUploadBody bucket objectId => some (.body bucket objectId .initUploadBody)
  | objectUploadBody bucket objectId uploadId chunk =>
    some (.body bucket objectId (.uploadBody uploadId chunk))
  | objectCommitUpload bucket objectId uploadId commit =>
    some (.body bucket objectId (.commitUpload uploadId commit))
  | objectDownloadBodyAtOnce bucket objectId => some (.body bucket objectId .downloadBodyAtOnce)
  | objectDownloadBody bucket objectId position length =>
    some (.body bucket objectId (.downloadBody position length))
  | pushSubscribeBucket bucket => some (.request (.subscribeBucket bucket))
  | pushUnsubscribeBucket bucket => some (.request (.unsubscribeBucket bucket))
  | pushSubscribeTopic topic => some (.request (.subscribeTopic topic))
  | pushUnsubscribeTopic topic => some (.request (.unsubscribeTopic topic))
  | pushCreateTopic topic => some (.request (.createTopic topic))
  | pushDeleteTopic topic => some (.request (.deleteTopic topic))
  | serverCodeExecute endpointName params => some (.serverCode endpointName params)
  | apiCallStart _ | apiCallAppend _ | apiCallRun => none

/-- The path of the call fits its array, and no Content-Encoding header is set behind a request line
that is refused on an object without one. -/
structure KiiCall.Sound (k : Core w) (c : KiiCall) : Prop where
  path_lt : ∀ p ∈ c.pathCall, (p.resourcePath k).length < 256
  placed : ∀ r, c.pathCall = some (.request r) → ¬ (r.args k).ReachesNull k

theorem KiiCall.Sound.runnable {k : Core w} {c : KiiCall} {r : RequestCall} (h : c.Sound k)
    (hc : c.pathCall = some (.request r)) : Runnable k (r.run k) :=
  runnable_request (h.path_lt _ hc) (h.placed r hc)

/-- `normalizer_host` has no part in it. -/
theorem KiiCall.Sound.of_setNormalizerHost {k : Core w} {c : KiiCall} (h : c.Sound k)
    (host : Option CString) : c.Sound (k.setNormalizerHost host) := by
  have hargs : ∀ r : RequestCall, r.args (k.setNormalizerHost host) = r.args k := by
    intro r
    cases host <;> cases r <;> rfl
  have hpath : ∀ p : PathCall, p.resourcePath (k.setNormalizerHost host) = p.resourcePath k := by
    intro p
    cases p with
    | request r => rw [PathCall.resourcePath, PathCall.resourcePath, hargs]
    | assembled c => cases host <;> cases c <;> rfl
    | body bucket objectId c => cases host <;> cases c <;> rfl
    | serverCode endpointName params => cases host <;> rfl
  constructor
  · intro p hp
    rw [hpath]
    exact h.path_lt p hp
  · intro r hr hnull
    rw [hargs] at hnull
    apply h.placed r hr
    cases host <;> exact hnull

/-- The calls that go on with a request that `kii_api_call_start` has begun. -/
def KiiCall.Continues : KiiCall → Prop
  | apiCallAppend _ | apiCallRun => True
  | _ => False

/-- What a call does on an object at rest: it returns at once, or it runs the request it prepares,
with `normalizer_host` set for that time or not. -/
inductive KiiCall.Way (cbs : Callbacks) (json : JsonReader) (k : Core w) (c : KiiCall) :
    Option (Result ErrorCode w) → Prop
  | returns {e : Ending Int w} (hrun : ∀ fuel, c.run cbs fuel json k = some e)
      (hrests : e.Rests none) : Way cbs json k c none
  | performs {r : Result ErrorCode w} {rest : Exchange w → Ending Int w} (hready : Runnable k r)
      (hrun : ∀ fuel, c.run cbs fuel json k = perform cbs fuel r (-1) rest)
      (hrest : ∀ x, Resting none x.core → (rest x).Rests none) : Way cbs json k c (some r)
  | hosted {r : Result ErrorCode w} {rest : Exchange w → Ending Int w} {host : Option CString}
      (hready : Runnable (k.setNormalizerHost host) r)
      (hrun : ∀ fuel, c.run cbs fuel json k =
        (perform cbs fuel r (-1) rest).map (Ending.mapCore Core.clearNormalizerHost))
      (hreturns : ∀ x, ∃ value copied, rest x = .returned value x copied) :
      Way cbs json k c (some r)

section

variable {cbs : Callbacks} {json : JsonReader} {k : Core w}

/-- The way of the functions that only look at the status code. -/
theorem KiiCall.way_of_status {c : KiiCall} {r : Result ErrorCode w} (hready : Runnable k r)
    (hrun : ∀ fuel, c.run cbs fuel json k = performStatus cbs fuel r) :
    c.Way cbs json k (some r) :=
  .performs hready hrun fun _ hx => ifSuccessful_rests hx hx

/-- The way of those that read the response body. -/
theorem KiiCall.way_of_read {c : KiiCall} {r : Result ErrorCode w} {fields : List JsonField}
    {store : List (Option JsonValue) → Core w → Core w} (hready : Runnable k r)
    (hrun : ∀ fuel, c.run cbs fuel json k = perform cbs fuel r (-1) fun x =>
      ifSuccessful x (-1) (readResponse json x (-1) 0 fields store))
    (hstore : ∀ copied k, Resting none k → Resting none (store copied k)) :
    c.Way cbs json k (some r) :=
  .performs hready hrun fun _ hx =>
    ifSuccessful_rests hx (readResponse_rests hx hstore)

/-- The way of those that take an entry that exists already for a success. -/
theorem KiiCall.way_of_entry {c : KiiCall} {r : Result ErrorCode w} (hready : Runnable k r)
    (hrun : ∀ fuel, c.run cbs fuel json k = performEntry cbs fuel r) : c.Way cbs json k (some r) :=
  .performs hready hrun fun _ hx => hx

/-- The way of the two that set `normalizer_host`. -/
theorem KiiCall.way_of_state {c : KiiCall} {r : Result ErrorCode w} (host : Option CString)
    (hready : Runnable (k.setNormalizerHost host) r)
    (hrun : ∀ fuel, c.run cbs fuel json k =
      (performStatus cbs fuel r).map (Ending.mapCore Core.clearNormalizerHost)) :
    c.Way cbs json k (some r) := by
  apply Way.hosted hready hrun
  intro x
  unfold ifSuccessful
  split
  · exact ⟨_, _, rfl⟩
  · exact ⟨_, _, rfl⟩

/-- **The way of every sound call.** -/
theorem KiiCall.way {c : KiiCall} (hk : Resting none k) (hsound : c.Sound k)
    (hfit : c.Continues → Fitting k) : c.Way cbs json k (c.preparation k) := by
  have hsame : ∀ (_ : List (Option JsonValue)) (k : Core w), Resting none k → Resting none k :=
    fun _ _ h => h
  cases c with
  | thingAuthenticate vendorThingId password =>
    exact way_of_read (runnable_thingAuthentication k _ _) (fun _ => rfl)
      fun _ _ h => ⟨h.state, h.normalizerHost, h.intact⟩
  | thingRegister vendorThingId thingType password =>
    have hrun : ∀ fuel, (thingRegister vendorThingId thingType password).run cbs fuel json k =
      kiiThingRegister cbs fuel json k vendorThingId thingType password := fun _ => rfl
    simp only [kiiThingRegister] at hrun
    cases hprep : kiiCoreRegisterThingWithId k vendorThingId password thingType with
    | none =>
      -- no thing type: `strlen` of NULL
      rw [hprep] at hrun
      rw [preparation, hprep]
      exact .returns (e := .nullAccess ⟨k, []⟩) hrun hk
    | some r =>
      rw [hprep] at hrun
      rw [preparation, hprep]
      exact way_of_read (runnable_registerThingWithId (hsound.path_lt _ rfl) hprep) hrun
        fun _ _ h => ⟨h.state, h.normalizerHost, h.intact⟩
  | thingUploadState thingId thingState contentLength contentType contentEncoding normalizerHost =>
    have hsame := hsound.of_setNormalizerHost normalizerHost
    have hready := hsame.runnable rfl
    exact way_of_state normalizerHost hready fun _ => rfl
  | thingPatchState thingId thingState contentLength contentType contentEncoding normalizerHost =>
    have hsame := hsound.of_setNormalizerHost normalizerHost
    have hready := hsame.runnable rfl
    exact way_of_state normalizerHost hready fun _ => rfl
  | objectCreate bucket objectData objectContentType =>
    have hrun : ∀ fuel, (objectCreate bucket objectData objectContentType).run cbs fuel json k =
      kiiObjectCreate cbs fuel k bucket objectData objectContentType json := fun _ => rfl
    simp only [kiiObjectCreate] at hrun
    have hready := hsound.runnable rfl
    exact way_of_read hready hrun hsame
  | objectCreateWithId bucket objectId objectData objectContentType =>
    have hready := hsound.runnable rfl
    exact way_of_status hready fun _ => rfl
  | objectPatch bucket objectId patchData optEtag =>
    have hready := hsound.runnable rfl
    exact way_of_status hready fun _ => rfl
  | objectReplace bucket objectId replacementData optEtag =>
    have hready := hsound.runnable rfl
    exact way_of_status hready fun _ => rfl
  | objectDelete bucket objectId =>
    have hready := hsound.runnable rfl
    exact way_of_status hready fun _ => rfl
  | objectGet bucket objectId =>
    have hready := hsound.runnable rfl
    exact way_of_status hready fun _ => rfl
  | objectUploadBodyAtOnce bucket objectId bodyContentType data dataLength =>
    exact way_of_status (runnable_apiCall k _) fun _ => rfl
  | objectInitUploadBody bucket objectId =>
    exact way_of_read (runnable_apiCall k _) (fun _ => rfl) hsame
  | objectUploadBody bucket objectId uploadId chunk =>
    exact way_of_status (runnable_apiCall k _) fun _ => rfl
  | objectCommitUpload bucket objectId uploadId commit =>
    exact way_of_status (runnable_apiCall k _) fun _ => rfl
  | objectDownloadBodyAtOnce bucket objectId =>
    have hrun : ∀ fuel, (objectDownloadBodyAtOnce bucket objectId).run cbs fuel json k =
      kiiObjectDownloadBodyAtOnce cbs fuel k bucket objectId := fun _ => rfl
    simp only [kiiObjectDownloadBodyAtOnce] at hrun
    have hready := runnable_apiCall k (downloadBodyAtOnceCall k bucket objectId)
    refine .performs hready hrun ?_
    intro x hx
    exact ifSuccessful_rests hx hx
  | objectDownloadBody bucket objectId position length =>
    have hrun : ∀ fuel, (objectDownloadBody bucket objectId position length).run cbs fuel json k =
      kiiObjectDownloadBody cbs fuel k bucket objectId position length := fun _ => rfl
    simp only [kiiObjectDownloadBody] at hrun
    have hready := runnable_apiCall k (downloadBodyCall k bucket objectId position length)
    refine .performs hready hrun ?_
    intro x hx
    apply ifSuccessful_rests hx
    unfold readContentRange
    split
    · exact hx
    · exact hx
  | pushSubscribeBucket bucket =>
    have hready := hsound.runnable rfl
    exact way_of_entry hready fun _ => rfl
  | pushUnsubscribeBucket bucket =>
    have hready := hsound.runnable rfl
    exact way_of_status hready fun _ => rfl
  | pushSubscribeTopic topic =>
    have hready := hsound.runnable rfl
    exact way_of_entry hready fun _ => rfl
  | pushUnsubscribeTopic topic =>
    have hready := hsound.runnable rfl
    exact way_of_status hready fun _ => rfl
  | pushCreateTopic topic =>
    have hready := hsound.runnable rfl
    exact way_of_entry hready fun _ => rfl
  | pushDeleteTopic topic =>
    have hready := hsound.runnable rfl
    exact way_of_status hready fun _ => rfl
  | serverCodeExecute endpointName params =>
    exact way_of_status (runnable_apiCall k _) fun _ => rfl
  | apiCallStart start =>
    have hbegun := begun_start k start
    exact .returns (fun _ => rfl) ⟨hbegun.state.trans hk.state,
      hbegun.normalizerHost.trans hk.normalizerHost, hbegun.intact.trans hk.intact⟩
  | apiCallAppend part =>
    have hsteady := steady_append (w := w) part
    exact .returns (fun _ => rfl) ⟨(hsteady.state k).trans hk.state,
      (hsteady.normalizerHost k).trans hk.normalizerHost,
      (hsteady.intact k (hfit trivial).placed).trans hk.intact⟩
  | apiCallRun =>
    have hrun : ∀ fuel, apiCallRun.run cbs fuel json k = kiiApiCallRun cbs fuel k := fun _ => rfl
    simp only [kiiApiCallRun] at hrun
    exact .performs (runnable_apiCallEnd hk.state (hfit trivial)) hrun fun _ hx => hx

/-- A sound call that ends leaves the object at rest. -/
theorem KiiCall.rests {c : KiiCall} {fuel : Nat} {e : Ending Int w} (hk : Resting none k)
    (hsound : c.Sound k) (hfit : c.Continues → Fitting k)
    (h : c.run cbs fuel json k = some e) : e.Rests none := by
  have hway : c.Way cbs json k (c.preparation k) := KiiCall.way hk hsound hfit
  generalize c.preparation k = preparation at hway
  cases hway with
  | returns hrun hrests =>
    rw [hrun] at h
    obtain rfl := Option.some.inj h
    exact hrests
  | performs hready hrun hrest =>
    rw [hrun] at h
    exact perform_rests hk hready.toReadied hrest h
  | @hosted r rest host hready hrun hreturns =>
    rw [hrun] at h
    obtain ⟨e', he', rfl⟩ := Option.map_eq_some_iff.mp h
    have hk' : Resting (k.setNormalizerHost host).http.normalizerHost (k.setNormalizerHost host) := by
      refine ⟨?_, rfl, ?_⟩
      · rw [← hk.state]
        cases host <;> rfl
      · rw [← hk.intact]
        cases host <;> rfl
    have hrests := perform_rests hk' hready.toReadied (by
      intro x hx
      obtain ⟨value, copied, heq⟩ := hreturns x
      rw [heq]
      exact hx) he'
    obtain ⟨value, x, copied, rfl⟩ := perform_returned hreturns he'
    exact ⟨hrests.state, rfl, hrests.intact⟩

/-- A sound call ends, when the callbacks do not wait forever. -/
theorem KiiCall.returns {c : KiiCall} (hk : Resting none k) (hsound : c.Sound k)
    (hfit : c.Continues → Fitting k)
    (hpatient : ∀ r, c.preparation k = some r → Patient cbs r.core) :
    ∃ fuel e, c.run cbs fuel json k = some e := by
  have hway : c.Way cbs json k (c.preparation k) := KiiCall.way hk hsound hfit
  generalize c.preparation k = preparation at hway hpatient
  cases hway with
  | returns hrun _ => exact ⟨0, _, hrun 0⟩
  | performs hready hrun hrest =>
    obtain ⟨fuel, e, he⟩ := perform_returns hready.prepared (hpatient _ rfl)
    exact ⟨fuel, e, (hrun fuel).trans he⟩
  | hosted hready hrun hreturns =>
    obtain ⟨fuel, e, he⟩ := perform_returns hready.prepared (hpatient _ rfl)
    refine ⟨fuel, e.mapCore Core.clearNormalizerHost, ?_⟩
    rw [hrun, he, Option.map_some]

end

/-! ## Sequences of calls -/

/-- The object of an application, and whether a request is being put together: since
`kii_api_call_start` has returned 0, nothing but the calls that append to it was made. -/
structure Client (w : Nat) where
  core : Core w
  composing : Bool

/-- A call, with the callbacks and the JSON reader as they answer during it. -/
structure ClientOp where
  call : KiiCall
  cbs : Callbacks
  json : JsonReader
  fuel : Nat

namespace Client

/-- Whether a request is being put together behind a call that has returned `value`. -/
def composingAfter (composing : Bool) (value : Int) : KiiCall → Bool
  | .apiCallStart _ => value == 0
  | .apiCallAppend _ => composing
  | _ => false

def run (s : Client w) (o : ClientOp) : Option (Ending Int w) :=
  o.call.run o.cbs o.fuel o.json s.core

/-- The object behind a call that has returned. -/
def step (s : Client w) (o : ClientOp) : Client w :=
  match s.run o with
  | some (.returned value x _) => ⟨x.core, composingAfter s.composing value o.call⟩
  | _ => s

/-- The call returns. From an access through NULL none does. -/
def Returns (s : Client w) (o : ClientOp) : Prop :=
  ∃ value x copied, s.run o = some (.returned value x copied) ∧ x.core.http.nullAccess = false

/-- `kii_api_call_append_*` and `kii_api_call_run` come behind `kii_api_call_start`. -/
def InTurn (s : Client w) (c : KiiCall) : Prop := c.Continues → s.composing = true

end Client

/-- An application after `kii_init`. It makes the calls of `kii_call.c` in their documented order, and
all others in any. -/
def client (w : Nat) : System (Client w) ClientOp where
  init s := ∃ buffer site appId appKey, s = ⟨kiiInit buffer site appId appKey, false⟩
  enabled s o := s.InTurn o.call ∧ s.Returns o
  step := Client.step

theorem Client.step_of_run {s : Client w} {o : ClientOp} {value : Int} {x : Exchange w}
    {copied : List (Option JsonValue)} (h : s.run o = some (.returned value x copied)) :
    s.step o = ⟨x.core, composingAfter s.composing value o.call⟩ := by
  rw [Client.step, h]

/-- What holds between sound calls. -/
structure Client.Inv (s : Client w) : Prop where
  resting : Resting none s.core
  fitting : s.composing = true → Fitting s.core

theorem Client.Inv.step {s : Client w} {o : ClientOp} (hs : s.Inv) (hturn : s.InTurn o.call)
    (ho : s.Returns o) (hsound : o.call.Sound s.core) : (s.step o).Inv := by
  have hfit : o.call.Continues → Fitting s.core := fun h => hs.fitting (hturn h)
  obtain ⟨value, x, copied, hrun, -⟩ := ho
  rw [Client.step_of_run hrun]
  constructor
  · exact KiiCall.rests hs.resting hsound hfit hrun
  · intro hcomposing
    obtain ⟨call, cbs, json, fuel⟩ := o
    -- behind all other calls nothing is being put together
    cases call with
    | apiCallStart start =>
      have hstart : (start.run s.core).ending = .returned value x copied := Option.some.inj hrun
      obtain ⟨rfl, rfl, -⟩ := Ending.returned.inj hstart
      apply (begun_start s.core start).fitting
      by_contra hnot
      have hminus : ((if (start.run s.core).isOk = true then 0 else -1 : Int) == 0) = true :=
        hcomposing
      rw [if_neg hnot] at hminus
      cases hminus
    | apiCallAppend part =>
      have happend : (part.run s.core).ending = .returned value x copied := Option.some.inj hrun
      obtain ⟨-, rfl, -⟩ := Ending.returned.inj happend
      exact (steady_append part).fitting _ (hs.fitting hcomposing)
    | _ => cases hcomposing

/-- **The invariant of sound runs.** -/
theorem Client.inv_reachable {s : Client w}
    (h : ((client w).restrict fun s o => o.call.Sound s.core).Reachable s) : s.Inv := by
  apply h.invariant
  · rintro s ⟨buffer, site, appId, appKey, rfl⟩
    refine ⟨⟨rfl, rfl, rfl⟩, ?_⟩
    intro hcomposing
    cases hcomposing
  · intro s o hs ho
    exact hs.step ho.1.1 ho.1.2 ho.2

/-- **Between its calls an application finds the object at rest**, in every run of sound calls: IDLE
and without `normalizer_host`. So the look at the state in `kii_core_api_call_end` never makes
`kii_api_call_run` fail. And every sound call does come back, when `KII_SOCKETC_AGAIN` is answered
finitely often in it. -/
theorem idle_between_calls {s : Client w}
    (h : ((client w).restrict fun s o => o.call.Sound s.core).Reachable s) :
    s.core.state = .idle ∧ s.core.http.normalizerHost = none ∧ s.core.http.nullAccess = false ∧
      ((kiiCoreApiCallEnd s.core).code = .ok ↔ (endLength s.core).isOk = true) ∧
      ∀ (c : KiiCall) (cbs : Callbacks) (json : JsonReader), c.Sound s.core → s.InTurn c →
        (∀ r, c.preparation s.core = some r → Patient cbs r.core) →
        ∃ fuel e, c.run cbs fuel json s.core = some e ∧ e.Rests none := by
  have hs := Client.inv_reachable h
  refine ⟨hs.resting.state, hs.resting.normalizerHost, hs.resting.intact,
    apiCallEnd_ok_iff hs.resting.state, ?_⟩
  intro c cbs json hsound hturn hpatient
  have hfit : c.Continues → Fitting s.core := fun hc => hs.fitting (hturn hc)
  obtain ⟨fuel, e, hrun⟩ : ∃ fuel e, c.run cbs fuel json s.core = some e :=
    KiiCall.returns hs.resting hsound hfit hpatient
  exact ⟨fuel, e, hrun, KiiCall.rests hs.resting hsound hfit hrun⟩

/-! ## A path that runs over the state -/

/-- An id of 228 characters. -/
def overlongId : CString :=
  ⟨List.replicate 228 97, fun _ hb => by rw [List.eq_of_mem_replicate hb]; decide⟩

theorem lt_word_200 : 200 < 2 ^ 63 := by decide

theorem sixteen_le_word : 16 ≤ 64 := by decide

/-- The device after `kii_init`, with a buffer of 200 bytes. -/
def freshDevice : Core 64 :=
  kiiInit (.static 200 lt_word_200 sixteen_le_word) (.lit "US") (.lit "app") (.lit "key")

def overlongBucket : Bucket := ⟨.app, .lit "", .lit "b"⟩

/-- The device after it was to get an object whose path has 259 characters. -/
def overrunDevice : Core 64 := (kiiCoreGetObject freshDevice overlongBucket overlongId).core

/-- To begin a short request. -/
def startingShort : Start := ⟨.lit "GET", .lit "x", none, false⟩

/-- The same device, after a request was begun. -/
def startedDevice : Core 64 := (startingShort.run overrunDevice).core

theorem overrun_refused : (kiiCoreGetObject freshDevice overlongBucket overlongId).isOk = false ∧
    (kiiCoreGetObject freshDevice overlongBucket overlongId).core.http.nullAccess = false := by
  decide +kernel

theorem overrun_started : (startingShort.run overrunDevice).isOk = true ∧
    (startingShort.run overrunDevice).core.http.nullAccess = false := by decide +kernel

/-- A call whose run is known. -/
theorem Client.reachable_of_run {s : Client w} {o : ClientOp} {value : Int} {x : Exchange w}
    {copied : List (Option JsonValue)} (h : (client w).Reachable s) (hturn : s.InTurn o.call)
    (hrun : s.run o = some (.returned value x copied)) (hintact : x.core.http.nullAccess = false) :
    (client w).Reachable ⟨x.core, composingAfter s.composing value o.call⟩ := by
  rw [← Client.step_of_run hrun]
  exact h.step ⟨hturn, _, _, _, hrun, hintact⟩

/-- A call of `kii_object_get` whose request is refused. -/
theorem Client.reachable_get {k : Core w} {composing : Bool} (bucket : Bucket) (objectId : CString)
    (h : (client w).Reachable ⟨k, composing⟩)
    (hrefused : (kiiCoreGetObject k bucket objectId).isOk = false)
    (hintact : (kiiCoreGetObject k bucket objectId).core.http.nullAccess = false) :
    (client w).Reachable ⟨(kiiCoreGetObject k bucket objectId).core, false⟩ := by
  let o : ClientOp := ⟨.objectGet bucket objectId, serving [], fun _ _ => ⟨true, []⟩, 0⟩
  have hrun : Client.run ⟨k, composing⟩ o =
      performStatus (serving []) 0 (kiiCoreGetObject k bucket objectId) := rfl
  rw [performStatus, perform_of_refused hrefused] at hrun
  have hreached := Client.reachable_of_run (o := o) h (fun hc => hc.elim) hrun hintact
  exact hreached

/-- A call of `kii_api_call_start` that succeeds. -/
theorem Client.reachable_start {k : Core w} {composing : Bool} (start : Start)
    (h : (client w).Reachable ⟨k, composing⟩) (hok : (start.run k).isOk = true)
    (hintact : (start.run k).core.http.nullAccess = false) :
    (client w).Reachable ⟨(start.run k).core, true⟩ := by
  let o : ClientOp := ⟨.apiCallStart start, serving [], fun _ _ => ⟨true, []⟩, 0⟩
  have hrun : Client.run ⟨k, composing⟩ o = some (.returned 0 ⟨(start.run k).core, []⟩ []) := by
    show some (start.run k).ending = _
    rw [Result.ending, if_pos hok]
  have hreached := Client.reachable_of_run (o := o) h (fun hc => hc.elim) hrun hintact
  exact hreached

/-- `kii_object_get` fails, and what it leaves in `_state` is three letters of the id. A request that
is begun then is refused by `kii_core_api_call_end`, which finds the object not IDLE. -/
theorem idle_between_calls_fails :
    (client 64).Reachable ⟨overrunDevice, false⟩ ∧ overrunDevice.state = .other 6381918 ∧
    (client 64).Reachable ⟨startedDevice, true⟩ ∧ (endLength startedDevice).isOk = true ∧
    (kiiCoreApiCallEnd startedDevice).code = .fail := by
  have hfirst : (client 64).Reachable ⟨freshDevice, false⟩ := .init ⟨_, _, _, _, rfl⟩
  have hsecond : (client 64).Reachable ⟨overrunDevice, false⟩ :=
    Client.reachable_get overlongBucket overlongId hfirst overrun_refused.1 overrun_refused.2
  have hthird : (client 64).Reachable ⟨startedDevice, true⟩ :=
    Client.reachable_start startingShort hsecond overrun_started.1 overrun_started.2
  exact ⟨hsecond, by decide +kernel, hthird, by decide +kernel, by decide +kernel⟩

/-- The upload of a state by way of a gateway. -/
def uploading : KiiCall :=
  .thingUploadState (.lit "th") (some (ascii "\x7b\x7d")) 2 none none (some (.lit "gateway"))

theorem idle_between_calls_of_upload : ∃ fuel e,
    uploading.run (serving [emptyObject]) fuel (fun _ _ => ⟨true, []⟩)
      (kiiInit (.static 512) (.lit "US") (.lit "app") (.lit "key") : Core 64) = some e ∧
      e.Rests none := by
  have hfirst : ((client 64).restrict fun s o => o.call.Sound s.core).Reachable
      ⟨kiiInit (.static 512) (.lit "US") (.lit "app") (.lit "key"), false⟩ :=
    .init ⟨_, _, _, _, rfl⟩
  apply (idle_between_calls hfirst).2.2.2.2 uploading
  · constructor
    · rintro p ⟨⟩
      decide
    · rintro r ⟨⟩ ⟨-, -, hsome, -⟩
      cases hsome
  · intro hc
    cases hc
  · intro r _
    apply patient_of_bound (N := 0)
    intro tr c hagain
    cases c <;> cases hagain

end KiiThing

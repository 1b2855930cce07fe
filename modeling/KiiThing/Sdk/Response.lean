import KiiThing.Core.Ready
import KiiThing.Sdk.Object

/-!
# Responses without a body

Six functions read the response body. They take its length before they compare the pointer with
NULL, so that a response whose header is not ended, which the engine accepts without a body, is an
access to the address NULL (`nullChecked_iff`).
-/

namespace KiiThing

open Http

variable {w : Nat}

/-! ## The functions -/

/-- What the JSON reader has copied into one of the arrays of `kii_author_t`. -/
def CharArray.store {n : Nat} (a : CharArray n) : Option JsonValue → CharArray n
  | some (.string s) => if h : s.length < n then ⟨s, h⟩ else a
  | _ => a

/-- Keep the id and the access token that the JSON reader has copied. -/
def Core.storeAuthor (k : Core w) (authorId accessToken : Option JsonValue) : Core w :=
  { k with author := ⟨k.author.authorId.store authorId, k.author.accessToken.store accessToken⟩ }

section

variable (cbs : Callbacks) (fuel : Nat) (json : JsonReader) (k : Core w)

/-- `kii_thing_authenticate`. -/
def kiiThingAuthenticate (vendorThingId password : CString) : Option (Ending Int w) :=
  perform cbs fuel (kiiCoreThingAuthentication k vendorThingId password) (-1) fun x =>
  ifSuccessful x (-1) (readResponse json x (-1) 0
    [⟨.lit "id", .string 128⟩, ⟨.lit "access_token", .string 128⟩]
    fun copied k => k.storeAuthor (copied.getD 0 none) (copied.getD 1 none))

/-- `kii_thing_register`. Without a thing type already the preparation accesses NULL, if it gets
that far. -/
def kiiThingRegister (vendorThingId : CString) (thingType : Option CString) (password : CString) :
    Option (Ending Int w) :=
  match kiiCoreRegisterThingWithId k vendorThingId password thingType with
  | none => some (.nullAccess ⟨k, []⟩)
  | some r =>
    perform cbs fuel r (-1) fun x =>
    ifSuccessful x (-1) (readResponse json x (-1) 0
      [⟨.lit "_accessToken", .string 128⟩, ⟨.lit "_thingID", .string 128⟩]
      fun copied k => k.storeAuthor (copied.getD 1 none) (copied.getD 0 none))

/-- `kiiPush_install`. -/
def kiiPushInstall (development : Bool) (installationIdLen : Nat) : Option (Ending Int w) :=
  perform cbs fuel (kiiCoreInstallThingPush k development) (-1) fun x =>
  ifSuccessful x (-1) (readResponse json x (-1) 0
    [⟨.lit "installationID", .string installationIdLen⟩] fun _ k => k)

/-- `kiiPush_retrieveEndpointResult`. -/
inductive RetrieveEndpointResult where
  | success | retry | error
  deriving DecidableEq

/-- The values of the enumeration. -/
def RetrieveEndpointResult.toInt : RetrieveEndpointResult → Int
  | success => 0
  | retry => 1
  | error => 2

/-- `kiiPush_retrieveEndpoint`. The arrays are those of `kii_mqtt_endpoint_t`. -/
def kiiPushRetrieveEndpoint (installationId : CString) :
    Option (Ending RetrieveEndpointResult w) :=
  perform cbs fuel (kiiCoreGetMqttEndpoint k installationId) .error fun x =>
  if x.core.responseCode = 503 then .returned .retry x []
  else ifSuccessful x .error (readResponse json x .error .success
    [⟨.lit "username", .string 64⟩, ⟨.lit "password", .string 128⟩, ⟨.lit "host", .string 64⟩,
      ⟨.lit "mqttTopic", .string 64⟩, ⟨.lit "portTCP", .integer⟩, ⟨.lit "portSSL", .integer⟩,
      ⟨.lit "X-MQTT-TTL", .long⟩]
    fun _ k => k)

end

/-! ## What they have in common -/

/-- A call of a function that reads the response body. -/
inductive ReadingCall where
  | thingAuthenticate (vendorThingId password : CString)
  | thingRegister (vendorThingId thingType password : CString)
  | objectCreate (bucket : Bucket) (objectData objectContentType : Option CString)
  | objectInitUploadBody (bucket : Bucket) (objectId : CString)
  | pushInstall (development : Bool) (installationIdLen : Nat)
  | pushRetrieveEndpoint (installationId : CString)

namespace ReadingCall

/-- The request that the call begins with. -/
def preparation (k : Core w) : ReadingCall → Preparation
  | thingAuthenticate vendorThingId password => .thingAuthentication vendorThingId password
  | thingRegister vendorThingId thingType password =>
    .registerThingWithId vendorThingId password thingType
  | objectCreate bucket objectData objectContentType =>
    .request (.createNewObject bucket objectData objectContentType)
  | objectInitUploadBody bucket objectId => .apiCall (initUploadBodyCall k bucket objectId)
  | pushInstall development _ => .installThingPush development
  | pushRetrieveEndpoint installationId => .request (.getMqttEndpoint installationId)

/-- The call; its value is that of the C function. -/
def run (cbs : Callbacks) (fuel : Nat) (json : JsonReader) (k : Core w) :
    ReadingCall → Option (Ending Int w)
  | thingAuthenticate vendorThingId password =>
    kiiThingAuthenticate cbs fuel json k vendorThingId password
  | thingRegister vendorThingId thingType password =>
    kiiThingRegister cbs fuel json k vendorThingId (some thingType) password
  | objectCreate bucket objectData objectContentType =>
    kiiObjectCreate cbs fuel k bucket objectData objectContentType json
  | objectInitUploadBody bucket objectId => kiiObjectInitUploadBody cbs fuel k bucket objectId json
  | pushInstall development installationIdLen =>
    kiiPushInstall cbs fuel json k development installationIdLen
  | pushRetrieveEndpoint installationId =>
    (kiiPushRetrieveEndpoint cbs fuel json k installationId).map
      (Ending.map RetrieveEndpointResult.toInt)

/-- The failure code. -/
def failure : ReadingCall → Int
  | pushRetrieveEndpoint _ => RetrieveEndpointResult.error.toInt
  | _ => -1

end ReadingCall

/-- The pointer is only used where there is a body, and without one the call fails. -/
structure NullChecked (cbs : Callbacks) (fuel : Nat) (json : JsonReader) (k : Core w)
    (c : ReadingCall) (x : Exchange w) : Prop where
  noAccess : ∀ y, c.run cbs fuel json k ≠ some (.nullAccess y)
  failed : x.core.responseBody = none →
    ∃ y copied, c.run cbs fuel json k = some (.returned c.failure y copied)

theorem readResponse_of_none {γ : Type} {json : JsonReader} {x : Exchange w} {failure success : γ}
    {fields : List JsonField} {store : List (Option JsonValue) → Core w → Core w}
    (h : x.core.responseBody = none) :
    readResponse json x failure success fields store = .nullAccess x := by
  rw [readResponse, h]

theorem readResponse_of_some {γ : Type} {json : JsonReader} {x : Exchange w} {failure success : γ}
    {fields : List JsonField} {store : List (Option JsonValue) → Core w → Core w} {p : Nat}
    (h : x.core.responseBody = some p) :
    ∃ value y copied, readResponse json x failure success fields store =
      .returned value y copied := by
  rw [readResponse, h]
  dsimp only
  split
  · exact ⟨_, _, _, rfl⟩
  · exact ⟨_, _, _, rfl⟩

theorem map_readResponse {γ δ : Type} (f : γ → δ) {json : JsonReader} {x : Exchange w}
    {failure success : γ} {fields : List JsonField}
    {store : List (Option JsonValue) → Core w → Core w} :
    (readResponse json x failure success fields store).map f =
      readResponse json x (f failure) (f success) fields store := by
  unfold readResponse
  split
  · rfl
  · dsimp only
    split <;> rfl

section

variable {cbs : Callbacks} {fuel : Nat} {json : JsonReader} {k : Core w} {c : ReadingCall}
  {x : Exchange w}

theorem perform_read {γ : Type} {r : Result ErrorCode w} {failure success : γ}
    {fields : List JsonField} {store : List (Option JsonValue) → Core w → Core w}
    (hok : r.code = .ok) (hrun : runToIdle cbs fuel r.core = some (.ok, x))
    (h2xx : 200 ≤ x.core.responseCode ∧ x.core.responseCode < 300) :
    perform cbs fuel r failure (fun x =>
        ifSuccessful x failure (readResponse json x failure success fields store)) =
      some (readResponse json x failure success fields store) := by
  rw [perform_of_ok hok hrun, ifSuccessful_of_2xx h2xx]

/-- Behind a successful exchange comes the look at the response. -/
theorem ReadingCall.run_eq (hprep : ((c.preparation k).run k).code = .ok)
    (hrun : runToIdle cbs fuel ((c.preparation k).run k).core = some (.ok, x))
    (h2xx : 200 ≤ x.core.responseCode ∧ x.core.responseCode < 300) :
    ∃ success fields store,
      c.run cbs fuel json k = some (readResponse json x c.failure success fields store) := by
  cases c with
  | thingAuthenticate vendorThingId password =>
    rw [run, kiiThingAuthenticate]
    exact ⟨_, _, _, perform_read hprep hrun h2xx⟩
  | thingRegister vendorThingId thingType password =>
    have hsome := registerThingWithId_eq k vendorThingId password thingType
    rw [preparation, Preparation.run, hsome, Option.getD_some] at hprep hrun
    rw [run, kiiThingRegister, hsome]
    exact ⟨_, _, _, perform_read hprep hrun h2xx⟩
  | objectCreate bucket objectData objectContentType =>
    rw [run, kiiObjectCreate]
    exact ⟨_, _, _, perform_read hprep hrun h2xx⟩
  | objectInitUploadBody bucket objectId =>
    rw [run, kiiObjectInitUploadBody]
    exact ⟨_, _, _, perform_read hprep hrun h2xx⟩
  | pushInstall development installationIdLen =>
    rw [run, kiiPushInstall]
    exact ⟨_, _, _, perform_read hprep hrun h2xx⟩
  | pushRetrieveEndpoint installationId =>
    have hcode : x.core.responseCode ≠ 503 := by
      intro h503
      rw [h503] at h2xx
      exact absurd h2xx.2 (by decide)
    have hget : (kiiCoreGetMqttEndpoint k installationId).code = .ok := hprep
    rw [run, kiiPushRetrieveEndpoint, perform_of_ok hget hrun, if_neg hcode,
      ifSuccessful_of_2xx h2xx, Option.map_some, map_readResponse]
    exact ⟨_, _, _, rfl⟩

/-- The pointer is used where it should not be if and only if it is NULL. -/
theorem nullChecked_iff_responseBody (hprep : ((c.preparation k).run k).code = .ok)
    (hrun : runToIdle cbs fuel ((c.preparation k).run k).core = some (.ok, x))
    (h2xx : 200 ≤ x.core.responseCode ∧ x.core.responseCode < 300) :
    NullChecked cbs fuel json k c x ↔ x.core.responseBody ≠ none := by
  obtain ⟨success, fields, store, hread⟩ : ∃ success fields store,
      c.run cbs fuel json k = some (readResponse json x c.failure success fields store) :=
    ReadingCall.run_eq hprep hrun h2xx
  constructor
  · intro h hnone
    rw [readResponse_of_none hnone] at hread
    exact h.noAccess x hread
  · intro hsome
    obtain ⟨p, hp⟩ := Option.ne_none_iff_exists'.mp hsome
    obtain ⟨value, y, copied, hvalue⟩ : ∃ value y copied,
        readResponse json x c.failure success fields store = .returned value y copied :=
      readResponse_of_some hp
    rw [hvalue] at hread
    constructor
    · intro z hz
      rw [hread] at hz
      cases hz
    · intro hnone
      exact absurd hnone hsome

/-- **When no NULL response body is used**: exactly when the header of the response was ended, by an
empty line in front of the first NUL that was received. -/
theorem nullChecked_iff (hvalid : (c.preparation k).Valid k)
    (hprep : ((c.preparation k).run k).code = .ok)
    (hrun : runToIdle cbs fuel ((c.preparation k).run k).core = some (.ok, x))
    (h2xx : 200 ≤ x.core.responseCode ∧ x.core.responseCode < 300) :
    NullChecked cbs fuel json k c x ↔ endOfHeader <:+: (received x.trace).takeWhile (· ≠ 0) := by
  obtain ⟨b, code, hx⟩ := runToIdle_ok ((Preparation.prepares hvalid).prepared hprep) hrun
  rw [nullChecked_iff_responseBody hprep hrun h2xx, ne_eq, hx.responseBody_eq_none_iff, not_not]

end

/-- A status line, and nothing behind it. -/
def statusLineOnly : List Byte := ascii "HTTP/1.1 200 OK\r\n"

/-- The authentication of a thing. -/
def authenticating : ReadingCall := .thingAuthenticate (.lit "th") (.lit "pw")

theorem authenticating_valid : (authenticating.preparation (device 300)).Valid (device 300) := by
  constructor <;> decide

theorem authenticating_ok :
    ((authenticating.preparation (device 300)).run (device 300)).code = .ok := by
  decide +kernel

/-- The connection is closed behind the status line: a success without a body, whose length is
taken. -/
theorem nullChecked_fails : (authenticating.preparation (device 300)).Valid (device 300) ∧
    ((authenticating.preparation (device 300)).run (device 300)).code = .ok ∧
    ∃ x, runToIdle (serving [statusLineOnly]) 20
        ((authenticating.preparation (device 300)).run (device 300)).core = some (.ok, x) ∧
      x.core.responseCode = 200 ∧
      ∀ json, ¬ NullChecked (serving [statusLineOnly]) 20 json (device 300) authenticating x := by
  refine ⟨authenticating_valid, authenticating_ok, ?_⟩
  have hrun : (runToIdle (serving [statusLineOnly]) 20
      ((authenticating.preparation (device 300)).run (device 300)).core).map
        (fun r => (r.1, r.2.core.responseCode, r.2.core.responseBody)) = some (.ok, 200, none) := by
    decide +kernel
  obtain ⟨x, hx, hfields⟩ := exists_runToIdle_of_map
    (fun x => (x.core.responseCode, x.core.responseBody)) hrun
  obtain ⟨hcode, hbody⟩ := Prod.mk.inj hfields
  refine ⟨x, hx, hcode, ?_⟩
  intro json h
  have h2xx : 200 ≤ x.core.responseCode ∧ x.core.responseCode < 300 := by
    rw [hcode]
    decide
  exact (nullChecked_iff_responseBody authenticating_ok hx h2xx).mp h hbody

/-- A response with an empty JSON object. -/
def emptyObject : List Byte := ascii "HTTP/1.1 200 OK\r\n\r\n\x7b\x7d"

theorem nullChecked_iff_of_authentication :
    ∃ x, runToIdle (serving [emptyObject]) 20
        ((authenticating.preparation (device 300)).run (device 300)).core = some (.ok, x) ∧
      ∀ json, NullChecked (serving [emptyObject]) 20 json (device 300) authenticating x := by
  have hrun : (runToIdle (serving [emptyObject]) 20
      ((authenticating.preparation (device 300)).run (device 300)).core).map
        (fun r => (r.1, received r.2.trace, r.2.core.responseCode)) = some (.ok, emptyObject, 200) := by
    decide +kernel
  obtain ⟨x, hx, hfields⟩ := exists_runToIdle_of_map
    (fun x => (received x.trace, x.core.responseCode)) hrun
  obtain ⟨hreceived, hcode⟩ := Prod.mk.inj hfields
  have h2xx : 200 ≤ x.core.responseCode ∧ x.core.responseCode < 300 := by
    rw [hcode]
    decide
  refine ⟨x, hx, fun json => ?_⟩
  rw [nullChecked_iff authenticating_valid authenticating_ok hx h2xx, hreceived]
  decide

end KiiThing

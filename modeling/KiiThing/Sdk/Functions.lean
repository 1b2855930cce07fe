import KiiThing.Sdk.Response

/-!
# The rest of the functions

The functions of `kii_thing.c`, `kii_push.c`, `kii_server_code.c` and `kii_call.c` that do not read
the response body, and `kii_init`. The background routine of `kii_push.c` is not among them.
-/

namespace KiiThing

open Http

variable {w : Nat}

/-- `kii_init`, and the buffer that the application sets. -/
def kiiInit (buffer : Buffer w) (site appId appKey : CString) : Core w :=
  kiiCoreInitWithInfo buffer none site appId appKey (.lit "sn=te;sv=1.2.6")

section

variable (cbs : Callbacks) (fuel : Nat) (k : Core w)

/-! ## States of a thing -/

/-- What is done to the object at the end of a function. -/
def Ending.mapCore {γ : Type} (f : Core w → Core w) : Ending γ w → Ending γ w
  | .returned value x copied => .returned value { x with core := f x.core } copied
  | .nullAccess x => .nullAccess x

/-- `if (normalizer_host != NULL)`: set it in the object. -/
def Core.setNormalizerHost (k : Core w) : Option CString → Core w
  | some normalizerHost => { k with http.normalizerHost := some normalizerHost }
  | none => k

/-- `normalizer_host = NULL`. -/
def Core.clearNormalizerHost (k : Core w) : Core w := { k with http.normalizerHost := none }

/-- The way of the two functions: `normalizer_host` is set for the time of the call. -/
def performState (method thingId : CString) (thingState : Option (List Byte)) (contentLength : Nat)
    (contentType contentEncoding normalizerHost : Option CString) : Option (Ending Int w) :=
  (performStatus cbs fuel (kiiCoreUploadThingState (k.setNormalizerHost normalizerHost) method
    thingId thingState contentType contentEncoding (some contentLength))).map
      (Ending.mapCore Core.clearNormalizerHost)

/-- `kii_thing_upload_state`. -/
def kiiThingUploadState (thingId : CString) (thingState : Option (List Byte)) (contentLength : Nat)
    (contentType contentEncoding normalizerHost : Option CString) : Option (Ending Int w) :=
  performState cbs fuel k (.lit "PUT") thingId thingState contentLength contentType contentEncoding
    normalizerHost

/-- `kii_thing_patch_state`. -/
def kiiThingPatchState (thingId : CString) (thingState : Option (List Byte)) (contentLength : Nat)
    (contentType contentEncoding normalizerHost : Option CString) : Option (Ending Int w) :=
  performState cbs fuel k (.lit "PATCH") thingId thingState contentLength
    (some (contentType.getD (.lit "application/vnd.kii.MultipleTraitStatePatch+json")))
    contentEncoding normalizerHost

/-! ## Subscriptions and topics -/

/-- The way of the functions that also take an entry that exists already for a success. -/
def performEntry (r : Result ErrorCode w) : Option (Ending Int w) :=
  perform cbs fuel r (-1) fun x =>
    .returned (if x.core.responseCode = 204 ∨ x.core.responseCode = 409 then 0 else -1) x []

/-- `kii_push_subscribe_bucket`. -/
def kiiPushSubscribeBucket (bucket : Bucket) : Option (Ending Int w) :=
  performEntry cbs fuel (kiiCoreSubscribeBucket k bucket)

/-- `kii_push_unsubscribe_bucket`. -/
def kiiPushUnsubscribeBucket (bucket : Bucket) : Option (Ending Int w) :=
  performStatus cbs fuel (kiiCoreUnsubscribeBucket k bucket)

/-- `kii_push_subscribe_topic`. -/
def kiiPushSubscribeTopic (topic : Topic) : Option (Ending Int w) :=
  performEntry cbs fuel (kiiCoreSubscribeTopic k topic)

/-- `kii_push_unsubscribe_topic`. -/
def kiiPushUnsubscribeTopic (topic : Topic) : Option (Ending Int w) :=
  performStatus cbs fuel (kiiCoreUnsubscribeTopic k topic)

/-- `kii_push_create_topic`. -/
def kiiPushCreateTopic (topic : Topic) : Option (Ending Int w) :=
  performEntry cbs fuel (kiiCoreCreateTopic k topic)

/-- `kii_push_delete_topic`. -/
def kiiPushDeleteTopic (topic : Topic) : Option (Ending Int w) :=
  performStatus cbs fuel (kiiCoreDeleteTopic k topic)

/-! ## Server code -/

/-- The call of `kii_core_api_call` in `kii_server_code_execute`. -/
def serverCodeCall (endpointName : CString) (params : Option CString) : ApiCall where
  httpMethod := .lit "POST"
  resourcePath := .lit "api/apps/" ++ k.appId ++ .lit "/server-code/versions/current/" ++
    endpointName
  httpBody := params.map CString.bytes
  bodySize := params.elim 0 CString.length
  contentType := some (.lit "application/json")
  headers := []

/-- `kii_server_code_execute`. -/
def kiiServerCodeExecute (endpointName : CString) (params : Option CString) :
    Option (Ending Int w) :=
  performStatus cbs fuel (kiiCoreApiCall k (serverCodeCall k endpointName params))

/-! ## Calls that are put together -/

/-- `== KIIE_OK ? 0 : -1`. -/
def Result.ending (r : Result ErrorCode w) : Ending Int w :=
  .returned (if r.isOk then 0 else -1) ⟨r.core, []⟩ []

/-- `kii_api_call_start`. -/
def kiiApiCallStart (s : Start) : Ending Int w := (s.run k).ending

/-- `kii_api_call_append_body` and `kii_api_call_append_header`. -/
def kiiApiCallAppend (a : Append) : Ending Int w := (a.run k).ending

/-- `kii_api_call_run`. It does not look at the status code. -/
def kiiApiCallRun : Option (Ending Int w) :=
  perform cbs fuel (kiiCoreApiCallEnd k) (-1) fun x => .returned 0 x []

end

/-! ## All of them -/

/-- A call of one of the functions of `kii.h`. -/
inductive KiiCall where
  | thingAuthenticate (vendorThingId password : CString)
  | thingRegister (vendorThingId : CString) (thingType : Option CString) (password : CString)
  | thingUploadState (thingId : CString) (thingState : Option (List Byte)) (contentLength : Nat)
      (contentType contentEncoding normalizerHost : Option CString)
  | thingPatchState (thingId : CString) (thingState : Option (List Byte)) (contentLength : Nat)
      (contentType contentEncoding normalizerHost : Option CString)
  | objectCreate (bucket : Bucket) (objectData objectContentType : Option CString)
  | objectCreateWithId (bucket : Bucket) (objectId : CString)
      (objectData objectContentType : Option CString)
  | objectPatch (bucket : Bucket) (objectId : CString) (patchData optEtag : Option CString)
  | objectReplace (bucket : Bucket) (objectId : CString)
      (replacementData optEtag : Option CString)
  | objectDelete (bucket : Bucket) (objectId : CString)
  | objectGet (bucket : Bucket) (objectId : CString)
  | objectUploadBodyAtOnce (bucket : Bucket) (objectId : CString)
      (bodyContentType : Option CString) (data : Option (List Byte)) (dataLength : Nat)
  | objectInitUploadBody (bucket : Bucket) (objectId : CString)
  | objectUploadBody (bucket : Bucket) (objectId uploadId : CString) (chunk : ChunkData)
  | objectCommitUpload (bucket : Bucket) (objectId uploadId : CString) (commit : Nat)
  | objectDownloadBodyAtOnce (bucket : Bucket) (objectId : CString)
  | objectDownloadBody (bucket : Bucket) (objectId : CString) (position length : Nat)
  | pushSubscribeBucket (bucket : Bucket)
  | pushUnsubscribeBucket (bucket : Bucket)
  | pushSubscribeTopic (topic : Topic)
  | pushUnsubscribeTopic (topic : Topic)
  | pushCreateTopic (topic : Topic)
  | pushDeleteTopic (topic : Topic)
  | serverCodeExecute (endpointName : CString) (params : Option CString)
  | apiCallStart (start : Start)
  | apiCallAppend (part : Append)
  | apiCallRun

/-- What a call does. `none` is a call that has not returned within `fuel` steps of the engine. -/
def KiiCall.run (cbs : Callbacks) (fuel : Nat) (json : JsonReader) (k : Core w) :
    KiiCall → Option (Ending Int w)
  | thingAuthenticate vendorThingId password =>
    kiiThingAuthenticate cbs fuel json k vendorThingId password
  | thingRegister vendorThingId thingType password =>
    kiiThingRegister cbs fuel json k vendorThingId thingType password
  | thingUploadState thingId thingState contentLength contentType contentEncoding normalizerHost =>
    kiiThingUploadState cbs fuel k thingId thingState contentLength contentType contentEncoding
      normalizerHost
  | thingPatchState thingId thingState contentLength contentType contentEncoding normalizerHost =>
    kiiThingPatchState cbs fuel k thingId thingState contentLength contentType contentEncoding
      normalizerHost
  | objectCreate bucket objectData objectContentType =>
    kiiObjectCreate cbs fuel k bucket objectData objectContentType json
  | objectCreateWithId bucket objectId objectData objectContentType =>
    kiiObjectCreateWithId cbs fuel k bucket objectId objectData objectContentType
  | objectPatch bucket objectId patchData optEtag =>
    kiiObjectPatch cbs fuel k bucket objectId patchData optEtag
  | objectReplace bucket objectId replacementData optEtag =>
    kiiObjectReplace cbs fuel k bucket objectId replacementData optEtag
  | objectDelete bucket objectId => kiiObjectDelete cbs fuel k bucket objectId
  | objectGet bucket objectId => kiiObjectGet cbs fuel k bucket objectId
  | objectUploadBodyAtOnce bucket objectId bodyContentType data dataLength =>
    kiiObjectUploadBodyAtOnce cbs fuel k bucket objectId bodyContentType data dataLength
  | objectInitUploadBody bucket objectId => kiiObjectInitUploadBody cbs fuel k bucket objectId json
  | objectUploadBody bucket objectId uploadId chunk =>
    kiiObjectUploadBody cbs fuel k bucket objectId uploadId chunk
  | objectCommitUpload bucket objectId uploadId commit =>
    kiiObjectCommitUpload cbs fuel k bucket objectId uploadId commit
  | objectDownloadBodyAtOnce bucket objectId =>
    kiiObjectDownloadBodyAtOnce cbs fuel k bucket objectId
  | objectDownloadBody bucket objectId position length =>
    kiiObjectDownloadBody cbs fuel k bucket objectId position length
  | pushSubscribeBucket bucket => kiiPushSubscribeBucket cbs fuel k bucket
  | pushUnsubscribeBucket bucket => kiiPushUnsubscribeBucket cbs fuel k bucket
  | pushSubscribeTopic topic => kiiPushSubscribeTopic cbs fuel k topic
  | pushUnsubscribeTopic topic => kiiPushUnsubscribeTopic cbs fuel k topic
  | pushCreateTopic topic => kiiPushCreateTopic cbs fuel k topic
  | pushDeleteTopic topic => kiiPushDeleteTopic cbs fuel k topic
  | serverCodeExecute endpointName params => kiiServerCodeExecute cbs fuel k endpointName params
  | apiCallStart start => some (kiiApiCallStart k start)
  | apiCallAppend part => some (kiiApiCallAppend k part)
  | apiCallRun => kiiApiCallRun cbs fuel k

end KiiThing

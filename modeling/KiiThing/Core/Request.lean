import KiiThing.Core.Builder

/-!
# The preparation functions

The functions of `kii_core.c` that prepare one request in one call: they print a path, write the
request into the buffer, and set `_state` to READY when all of it fitted. Nearly all of them go
through `prv_http_request`; three put their body together piece by piece.
-/

namespace KiiThing

open Http

variable {w : Nat}

/-! ## Headers and body -/

/-- `prv_content_length_str`: the text that is printed, also where it is longer than the array of
8 bytes. -/
def prvContentLengthStr (contentLength : Nat) : CString :=
  ⟨Decimal.text contentLength, fun _ => Decimal.ne_zero_of_mem_text⟩

/-- `prv_set_kii_default_header`. -/
def prvSetKiiDefaultHeader (k : Core w) : Result HttpCode w :=
  (prvKiiHttpSetHeader k (.lit "host") k.appHost).next fun k =>
  (prvKiiHttpSetHeader k (.lit "x-kii-appid") k.appId).next fun k =>
  (prvKiiHttpSetHeader k (.lit "x-kii-appkey") k.appKey).next fun k =>
  prvKiiHttpSetHeader k (.lit "x-kii-sdk") k.sdkInfo

/-- `if (value != NULL)`: `prv_kii_http_set_header`. -/
def setHeaderIf (k : Core w) (key : CString) : Option CString → Result HttpCode w
  | some value => prvKiiHttpSetHeader k key value
  | none => ⟨.ok, k⟩

/-- `M_ACCESS_TOKEN`. -/
def Core.accessToken (k : Core w) : Option CString :=
  if 0 < k.author.accessToken.str.length then some k.author.accessToken.str else none

/-- The authorization header of `prv_http_request_line_and_headers`, with its `bearer_buff` of
`MAX_AUTH_BUFF_SIZE` bytes. -/
def setBearer (k : Core w) : Option CString → Result HttpCode w
  | some accessToken =>
    if 128 ≤ accessToken.length + 7 then ⟨.fail, k⟩
    else prvKiiHttpSetHeader k (.lit "authorization") (.lit "bearer " ++ accessToken)
  | none => ⟨.ok, k⟩

/-- `prv_http_request_line_and_headers`. -/
def prvHttpRequestLineAndHeaders (k : Core w) (method resourcePath : CString)
    (contentType accessToken etag : Option CString) : Result ErrorCode w :=
  (prvKiiHttpSetRequestLine k method resourcePath).next fun k =>
  (prvSetKiiDefaultHeader k).next fun k =>
  (setHeaderIf k (.lit "content-type") contentType).next fun k =>
  (setBearer k accessToken).next fun k =>
  (setHeaderIf k (.lit "if-match") etag).next fun k =>
  ⟨.ok, k⟩

/-- The end of a request: with a body the content-length header, the empty line and the body;
without one the empty line. -/
def setBody (k : Core w) (body : Option (List Byte)) (bodyLen : Nat) : Result ErrorCode w :=
  match body with
  | some _ =>
    (prvKiiHttpSetHeader k (.lit "content-length") (prvContentLengthStr bodyLen)).next fun k =>
    (prvKiiHttpAppendBodyStart k).next fun k =>
    (prvKiiHttpAppendBody k body bodyLen).next fun k =>
    (prvKiiHttpAppendBodyEnd k).next fun k =>
    ⟨.ok, k⟩
  | none =>
    (prvKiiHttpAppendBodyStart k).next fun k =>
    (prvKiiHttpAppendBodyEnd k).next fun k =>
    ⟨.ok, k⟩

/-- `strlen` of the object behind a pointer that is not NULL. -/
def strlen (body : Option (List Byte)) : Nat := (CString.ofArray (body.getD [])).length

/-- `prv_http_request`. -/
def prvHttpRequest (k : Core w) (method resourcePath : CString)
    (contentType accessToken etag : Option CString) (body : Option (List Byte))
    (contentEncoding : Option CString) (presetContentLength : Option Nat) : Result ErrorCode w :=
  let r := prvHttpRequestLineAndHeaders k method resourcePath contentType accessToken etag
  -- what this header returned is overwritten before it is looked at
  let k := (setHeaderIf r.core (.lit "Content-Encoding") contentEncoding).core
  if r.isOk then setBody k body (presetContentLength.getD (strlen body)) else ⟨r.code, k⟩

/-! ## Paths -/

/-- `kii_scope_type_t`. -/
inductive Scope where
  | app | user | group | thing
  deriving DecidableEq

/-- `kii_bucket_t`. The scope id of a bucket in APP scope is not read. -/
structure Bucket where
  scope : Scope
  scopeId : CString
  bucketName : CString

/-- `kii_topic_t`. -/
structure Topic where
  scope : Scope
  scopeId : CString
  topicName : CString

/-! ### What lies behind `_http_request_path` -/

/-- The number in `_state`. -/
def State.number : State → Nat
  | .idle => 0
  | .ready => 1
  | .execute => 2
  | .other n => n + 3

def State.ofNumber : Nat → State
  | 0 => .idle
  | 1 => .ready
  | 2 => .execute
  | n + 3 => .other n

/-- The four bytes of `_state`, the lowest first. -/
def State.bytes (st : State) : List Byte :=
  (List.range 4).map fun i => .ofNat (st.number / 256 ^ i)

/-- The state that four bytes are. -/
def State.ofBytes (bs : List Byte) : State :=
  .ofNumber (bs.foldr (fun b n => b.toNat + 256 * n) 0)

/-- The bytes that `sprintf` stores into `_state`, behind the 256 of `_http_request_path`. -/
def spilled (path : CString) : List Byte := ((path.bytes ++ [0]).drop 256).take 4

/-- `_state` after `sprintf(kii->_http_request_path, ...)`: it lies directly behind the array. What a
path of more than 259 characters does to the fields behind `_state` is not followed. -/
def State.behind (st : State) (path : CString) : State :=
  match spilled path with
  | [] => st
  | spill => .ofBytes (Memory.overwrite st.bytes 0 spill)

/-- `sprintf(kii->_http_request_path, ...)`. Nothing looks at the size of the array. -/
def Core.setPath (k : Core w) (path : CString) : Core w :=
  { k with httpRequestPath := path, state := k.state.behind path }

/-- A path that fits its array leaves the state alone. -/
theorem State.behind_of_lt {st : State} {path : CString} (h : path.length < 256) :
    st.behind path = st := by
  have hnone : spilled path = [] := by
    rw [spilled, List.drop_eq_nil_of_le, List.take_nil]
    rw [List.length_append, List.length_singleton]
    exact h
  rw [State.behind, hnone]

theorem State.number_ofNumber (n : Nat) : (ofNumber n).number = n := by
  rcases n with _ | _ | _ | n <;> rfl

theorem State.length_bytes (st : State) : st.bytes.length = 4 := by simp [bytes]

theorem State.bytes_ofBytes {bs : List Byte} (h : bs.length = 4) : (ofBytes bs).bytes = bs := by
  match bs, h with
  | [a, b, c, d], _ =>
    have ha := a.toNat_lt
    have hb := b.toNat_lt
    have hc := c.toNat_lt
    have hd := d.toNat_lt
    simp only [bytes, ofBytes, number_ofNumber, List.range, List.range.loop, List.map_cons,
      List.map_nil, List.foldr_cons, List.foldr_nil, ← UInt8.toNat_inj, UInt8.toNat_ofNat',
      List.cons.injEq, Nat.reducePow]
    refine ⟨?_, ?_, ?_, ?_, trivial⟩ <;> omega

/-- A path that is printed to its own place with more behind it stores all that the first one did. -/
theorem State.behind_behind (st : State) (path more : CString) :
    (st.behind path).behind (path ++ more) = st.behind (path ++ more) := by
  have hlonger : (spilled path).length ≤ (spilled (path ++ more)).length := by
    simp [spilled]
    omega
  have hfour : (spilled path).length ≤ 4 := List.length_take_le ..
  unfold behind
  cases hfirst : spilled path with
  | nil => rfl
  | cons a as =>
    cases hlast : spilled (path ++ more) with
    | nil => simp [hfirst, hlast] at hlonger
    | cons b bs =>
      rw [hfirst, hlast] at hlonger
      have hmem : 0 + (a :: as).length ≤ st.bytes.length := by
        rw [length_bytes, Nat.zero_add, ← hfirst]
        exact hfour
      -- the bytes of the first path lie below those of the second
      dsimp only
      rw [bytes_ofBytes (by rw [Memory.length_overwrite, length_bytes]),
        Memory.overwrite_longer hlonger hmem]

theorem Core.setPath_setPath (k : Core w) (path more : CString) :
    (k.setPath path).setPath (path ++ more) = k.setPath (path ++ more) := by
  rw [setPath, setPath, setPath, State.behind_behind]

/-- `prv_set_thing_register_path`. -/
def prvSetThingRegisterPath (k : Core w) : Core w :=
  k.setPath (.lit "api/apps/" ++ k.appId ++ .lit "/things")

/-- `prv_set_thing_if_path`. -/
def prvSetThingIfPath (k : Core w) (thingId : CString) : Core w :=
  k.setPath (.lit "thing-if/apps/" ++ k.appId ++ .lit "/targets/thing:" ++ thingId)

/-- `prv_set_auth_path`. -/
def prvSetAuthPath (k : Core w) : Core w := k.setPath (.lit "api/oauth2/token")

/-- `prv_set_installation_path`. -/
def prvSetInstallationPath (k : Core w) : Core w :=
  k.setPath (.lit "api/apps/" ++ k.appId ++ .lit "/installations")

/-- `prv_set_mqtt_endpoint_path`. -/
def prvSetMqttEndpointPath (k : Core w) (installationId : CString) : Core w :=
  k.setPath (.lit "api/apps/" ++ k.appId ++ .lit "/installations/" ++ installationId ++
    .lit "/mqtt-endpoint")

/-- `prv_bucket_path`. -/
def prvBucketPath (k : Core w) (bucket : Bucket) : CString :=
  match bucket.scope with
  | .app => .lit "api/apps/" ++ k.appId ++ .lit "/buckets/" ++ bucket.bucketName
  | .user => .lit "api/apps/" ++ k.appId ++ .lit "/users/" ++ bucket.scopeId ++ .lit "/buckets/" ++
      bucket.bucketName
  | .group => .lit "api/apps/" ++ k.appId ++ .lit "/groups/" ++ bucket.scopeId ++
      .lit "/buckets/" ++ bucket.bucketName
  | .thing => .lit "api/apps/" ++ k.appId ++ .lit "/things/" ++ bucket.scopeId ++
      .lit "/buckets/" ++ bucket.bucketName

/-- `prv_topic_path`. -/
def prvTopicPath (k : Core w) (topic : Topic) : CString :=
  match topic.scope with
  | .app => .lit "api/apps/" ++ k.appId ++ .lit "/topic/" ++ topic.topicName
  | .user => .lit "api/apps/" ++ k.appId ++ .lit "/users/" ++ topic.scopeId ++ .lit "/topic/" ++
      topic.topicName
  | .group => .lit "api/apps/" ++ k.appId ++ .lit "/groups/" ++ topic.scopeId ++ .lit "/topics/" ++
      topic.topicName
  | .thing => .lit "api/apps/" ++ k.appId ++ .lit "/things/" ++ topic.scopeId ++ .lit "/topics/" ++
      topic.topicName

/-! ## Functions that go through `prv_http_request` -/

/-- `if (result == KIIE_OK) { kii->_state = KII_STATE_READY; } return result;` -/
def Result.ready (r : Result ErrorCode w) : Result ErrorCode w :=
  if r.isOk then ⟨r.code, { r.core with state := .ready }⟩ else r

/-- `kii_core_register_thing`. -/
def kiiCoreRegisterThing (k : Core w) (thingData : Option CString) : Result ErrorCode w :=
  let k := prvSetThingRegisterPath k
  (prvHttpRequest k (.lit "POST") k.httpRequestPath
    (some (.lit "application/vnd.kii.ThingRegistrationAndAuthorizationRequest+json"))
    none none (thingData.map CString.bytes) none none).ready

/-- `CONTENT_UPDATE_STATE`. -/
def contentUpdateState : CString := .lit "application/vnd.kii.MultipleTraitState+json"

/-- `DEFAULT_OBJECT_CONTENT_TYPE`. -/
def defaultObjectContentType : CString := .lit "application/json"

/-- `kii_core_upload_thing_state`. -/
def kiiCoreUploadThingState (k : Core w) (method thingId : CString) (state : Option (List Byte))
    (contentType contentEncoding : Option CString) (contentLength : Option Nat) :
    Result ErrorCode w :=
  let k := prvSetThingIfPath k thingId
  let k := k.setPath (k.httpRequestPath ++ .lit "/states")
  (prvHttpRequest k method k.httpRequestPath (some (contentType.getD contentUpdateState))
    k.accessToken none state contentEncoding contentLength).ready

/-- `kii_core_create_new_object`. -/
def kiiCoreCreateNewObject (k : Core w) (bucket : Bucket) (objectData : Option CString)
    (objectContentType : Option CString) : Result ErrorCode w :=
  let k := k.setPath (prvBucketPath k bucket ++ .lit "/objects")
  (prvHttpRequest k (.lit "POST") k.httpRequestPath
    (some (objectContentType.getD defaultObjectContentType)) k.accessToken none
    (objectData.map CString.bytes) none none).ready

/-- The path of an object, as the object functions print it. -/
def objectPath (k : Core w) (bucket : Bucket) (objectId : CString) : CString :=
  prvBucketPath k bucket ++ .lit "/objects/" ++ objectId

/-- `kii_core_create_new_object_with_id`. -/
def kiiCoreCreateNewObjectWithId (k : Core w) (bucket : Bucket) (objectId : CString)
    (objectData : Option CString) (objectContentType : Option CString) : Result ErrorCode w :=
  let k := k.setPath (objectPath k bucket objectId)
  (prvHttpRequest k (.lit "PUT") k.httpRequestPath
    (some (objectContentType.getD defaultObjectContentType)) k.accessToken none
    (objectData.map CString.bytes) none none).ready

/-- `kii_core_patch_object`. -/
def kiiCorePatchObject (k : Core w) (bucket : Bucket) (objectId : CString)
    (patchData : Option CString) (optEtag : Option CString) : Result ErrorCode w :=
  let k := k.setPath (objectPath k bucket objectId)
  (prvHttpRequest k (.lit "PATCH") k.httpRequestPath none k.accessToken optEtag
    (patchData.map CString.bytes) none none).ready

/-- `kii_core_replace_object`. -/
def kiiCoreReplaceObject (k : Core w) (bucket : Bucket) (objectId : CString)
    (replaceData : Option CString) (optEtag : Option CString) : Result ErrorCode w :=
  let k := k.setPath (objectPath k bucket objectId)
  (prvHttpRequest k (.lit "PUT") k.httpRequestPath none k.accessToken optEtag
    (replaceData.map CString.bytes) none none).ready

/-- A request without body and optional headers, to the path that was printed. -/
def bodyless (k : Core w) (method : CString) : Result ErrorCode w :=
  (prvHttpRequest k method k.httpRequestPath none k.accessToken none none none none).ready

/-- `kii_core_get_object`. -/
def kiiCoreGetObject (k : Core w) (bucket : Bucket) (objectId : CString) : Result ErrorCode w :=
  bodyless (k.setPath (objectPath k bucket objectId)) (.lit "GET")

/-- `kii_core_delete_object`. -/
def kiiCoreDeleteObject (k : Core w) (bucket : Bucket) (objectId : CString) : Result ErrorCode w :=
  bodyless (k.setPath (objectPath k bucket objectId)) (.lit "DELETE")

/-- `kii_core_subscribe_bucket`. -/
def kiiCoreSubscribeBucket (k : Core w) (bucket : Bucket) : Result ErrorCode w :=
  bodyless (k.setPath (prvBucketPath k bucket ++ .lit "/filters/all/push/subscriptions/things"))
    (.lit "POST")

/-- `kii_core_unsubscribe_bucket`. -/
def kiiCoreUnsubscribeBucket (k : Core w) (bucket : Bucket) : Result ErrorCode w :=
  bodyless (k.setPath (prvBucketPath k bucket ++ .lit "/filters/all/push/subscriptions/things/" ++
    k.author.authorId.str)) (.lit "DELETE")

/-- `kii_core_create_topic`. -/
def kiiCoreCreateTopic (k : Core w) (topic : Topic) : Result ErrorCode w :=
  bodyless (k.setPath (prvTopicPath k topic)) (.lit "PUT")

/-- `kii_core_delete_topic`. -/
def kiiCoreDeleteTopic (k : Core w) (topic : Topic) : Result ErrorCode w :=
  bodyless (k.setPath (prvTopicPath k topic)) (.lit "DELETE")

/-- `kii_core_subscribe_topic`. -/
def kiiCoreSubscribeTopic (k : Core w) (topic : Topic) : Result ErrorCode w :=
  bodyless (k.setPath (prvTopicPath k topic ++ .lit "/push/subscriptions/things")) (.lit "POST")

/-- `kii_core_unsubscribe_topic`. -/
def kiiCoreUnsubscribeTopic (k : Core w) (topic : Topic) : Result ErrorCode w :=
  bodyless (k.setPath (prvTopicPath k topic ++ .lit "/push/subscriptions/things/" ++
    k.author.authorId.str)) (.lit "DELETE")

/-- `kii_core_get_mqtt_endpoint`. -/
def kiiCoreGetMqttEndpoint (k : Core w) (installationId : CString) : Result ErrorCode w :=
  bodyless (prvSetMqttEndpointPath k installationId) (.lit "GET")

/-! ## Functions that put their body together -/

/-- `M_KII_APPEND_STR` and `M_KII_APPEND_CONSTANT_STR`. -/
def mKiiAppendStr (k : Core w) (str : CString) : Result HttpCode w :=
  prvKiiHttpAppendBody k (some str.bytes) str.length

/-- The pieces of a body, one after the other. -/
def appendStrs (k : Core w) : List CString → Result HttpCode w
  | [] => ⟨.ok, k⟩
  | str :: strs => (mKiiAppendStr k str).next fun k => appendStrs k strs

/-- The way of these functions: the headers, the content-length that was added up beforehand, the
pieces of the body. -/
def assemble (k : Core w) (contentType : CString) (accessToken : Option CString)
    (contentLength : Nat) (pieces : List CString) : Result ErrorCode w :=
  (prvHttpRequestLineAndHeaders k (.lit "POST") k.httpRequestPath (some contentType) accessToken
    none).next fun k =>
  (prvKiiHttpSetHeader k (.lit "content-length") (prvContentLengthStr contentLength)).next fun k =>
  (prvKiiHttpAppendBodyStart k).next fun k =>
  (appendStrs k pieces).next fun k =>
  (prvKiiHttpAppendBodyEnd k).next fun k =>
  ⟨.ok, { k with state := .ready }⟩

/-- `kii_core_register_thing_with_id`. Behind the headers the length of `thing_type` is taken, and
only then is it compared with NULL: `none` is that access. -/
def kiiCoreRegisterThingWithId (k : Core w) (vendorThingId password : CString)
    (thingType : Option CString) : Option (Result ErrorCode w) :=
  let k := prvSetThingRegisterPath k
  let contentType : CString :=
    .lit "application/vnd.kii.ThingRegistrationAndAuthorizationRequest+json"
  match thingType with
  | none =>
    let r := prvHttpRequestLineAndHeaders k (.lit "POST") k.httpRequestPath (some contentType)
      none none
    if r.isOk then none else some r
  | some thingType =>
    let open₁ := .lit "\x7b\"_vendorThingID\":\""
    let open₂ := .lit "\",\"_password\":\""
    let open₃ := .lit "\",\"_thingType\":\""
    let close := .lit "\"\x7d"
    let contentLength := open₁.length + vendorThingId.length + open₂.length + password.length +
      open₃.length + thingType.length + close.length
    some (assemble k contentType none contentLength
      [open₁, vendorThingId, open₂, password, open₃, thingType, close])

/-- `kii_core_thing_authentication`. -/
def kiiCoreThingAuthentication (k : Core w) (vendorThingId password : CString) :
    Result ErrorCode w :=
  let open₁ := .lit "\x7b\"username\":\"VENDOR_THING_ID:"
  let open₂ := .lit "\",\"password\":\""
  let close := .lit "\"\x7d"
  let contentLength := open₁.length + vendorThingId.length + open₂.length + password.length +
    close.length
  assemble (prvSetAuthPath k) (.lit "application/json") none contentLength
    [open₁, vendorThingId, open₂, password, close]

/-- `kii_core_install_thing_push`. -/
def kiiCoreInstallThingPush (k : Core w) (development : Bool) : Result ErrorCode w :=
  let cDevelopment : CString := if development then .lit "true" else .lit "false"
  let open₁ := .lit "\x7b\"installationType\":\"MQTT\",\"development\":"
  let close := .lit "\x7d"
  let contentLength := open₁.length + cDevelopment.length + close.length
  assemble (prvSetInstallationPath k)
    (.lit "application/vnd.kii.InstallationCreationRequest+json") k.accessToken contentLength
    [open₁, cDevelopment, close]

end KiiThing

import KiiThing.Core.Assembly
import KiiThing.Sdk.Functions

/-!
# Paths in arrays

Every path is put together in an array of 256 bytes: `_http_request_path` of the object, with
`_state` behind it, or `resource_path` on the stack. `PathCall.compose` are the stores of each
function, in the order of the source. None of them looks at the size of the array, and what comes
later cannot take them back: a path fits exactly when the strings of the caller are short enough
(`pathFits_iff`).
-/

namespace KiiThing

open Http Memory

variable {w : Nat}

/-! ## The stores -/

/-- The size of `_http_request_path` and `resource_path`. -/
def resourcePathSize : Nat := 256

/-- `sprintf` and `strcpy`. -/
def sprintf (p : Printed Byte) (str : CString) : Printed Byte := p.print str.bytes

/-- `strcat`, and the `sprintf` of a path to its own place with something behind it. -/
def strcat (p : Printed Byte) (str : CString) : Printed Byte := p.append str.bytes

/-- The stores of a function for an object, in `kii_core.c`. -/
def composeObjectPath (k : Core w) (bucket : Bucket) (objectId : CString) : Printed Byte :=
  strcat (sprintf (.fresh 0) (prvBucketPath k bucket)) (.lit "/objects/" ++ objectId)

/-- The stores of a function that goes through `prv_http_request`. -/
def RequestCall.compose (k : Core w) : RequestCall → Printed Byte
  | registerThing _ => sprintf (.fresh 0) (.lit "api/apps/" ++ k.appId ++ .lit "/things")
  | uploadThingState _ thingId _ _ _ _ =>
    strcat (sprintf (.fresh 0)
      (.lit "thing-if/apps/" ++ k.appId ++ .lit "/targets/thing:" ++ thingId)) (.lit "/states")
  | createNewObject bucket _ _ =>
    strcat (sprintf (.fresh 0) (prvBucketPath k bucket)) (.lit "/objects")
  | createNewObjectWithId bucket objectId _ _ => composeObjectPath k bucket objectId
  | patchObject bucket objectId _ _ => composeObjectPath k bucket objectId
  | replaceObject bucket objectId _ _ => composeObjectPath k bucket objectId
  | getObject bucket objectId => composeObjectPath k bucket objectId
  | deleteObject bucket objectId => composeObjectPath k bucket objectId
  | subscribeBucket bucket =>
    strcat (sprintf (.fresh 0) (prvBucketPath k bucket))
      (.lit "/filters/all/push/subscriptions/things")
  | unsubscribeBucket bucket =>
    strcat (sprintf (.fresh 0) (prvBucketPath k bucket))
      (.lit "/filters/all/push/subscriptions/things/" ++ k.author.authorId.str)
  | createTopic topic => sprintf (.fresh 0) (prvTopicPath k topic)
  | deleteTopic topic => sprintf (.fresh 0) (prvTopicPath k topic)
  | subscribeTopic topic =>
    strcat (sprintf (.fresh 0) (prvTopicPath k topic)) (.lit "/push/subscriptions/things")
  | unsubscribeTopic topic =>
    strcat (sprintf (.fresh 0) (prvTopicPath k topic))
      (.lit "/push/subscriptions/things/" ++ k.author.authorId.str)
  | getMqttEndpoint installationId =>
    sprintf (.fresh 0) (.lit "api/apps/" ++ k.appId ++ .lit "/installations/" ++ installationId ++
      .lit "/mqtt-endpoint")

/-- The stores of a function that puts its body together. -/
def AssembledCall.compose (k : Core w) : AssembledCall → Printed Byte
  | registerThingWithId _ _ _ =>
    sprintf (.fresh 0) (.lit "api/apps/" ++ k.appId ++ .lit "/things")
  | thingAuthentication _ _ => sprintf (.fresh 0) (.lit "api/oauth2/token")
  | installThingPush _ =>
    sprintf (.fresh 0) (.lit "api/apps/" ++ k.appId ++ .lit "/installations")

/-- The stores that all functions of `kii_object.c` begin with: `memset`, `strcpy`, and a `strcat`
for each part. -/
def composeBodyPath (k : Core w) (bucket : Bucket) (objectId : CString) : Printed Byte :=
  let p := strcat (sprintf (.fresh resourcePathSize) (.lit "api/apps/")) k.appId
  let p := if bucket.scope = .thing then strcat (strcat p (.lit "/things/")) bucket.scopeId else p
  let p := strcat (strcat p (.lit "/buckets/")) bucket.bucketName
  strcat (strcat p (.lit "/objects/")) objectId

/-- What a function for object bodies appends to it, piece by piece. -/
def BodyCall.suffixes : BodyCall → List CString
  | uploadBodyAtOnce _ _ _ => [.lit "/body"]
  | initUploadBody => [.lit "/body/uploads"]
  | uploadBody uploadId _ => [.lit "/body/uploads/", uploadId, .lit "/data"]
  | commitUpload uploadId commit => [.lit "/body/uploads/", uploadId, .lit "/status/",
      if commit = 0 then .lit "cancelled" else .lit "committed"]
  | downloadBodyAtOnce => [.lit "/body"]
  | downloadBody _ _ => [.lit "/body"]

/-- The stores of `kii_server_code_execute`. -/
def composeServerCodePath (k : Core w) (endpointName : CString) : Printed Byte :=
  let p := strcat (sprintf (.fresh resourcePathSize) (.lit "api/apps/")) k.appId
  strcat (strcat p (.lit "/server-code/versions/current/")) endpointName

/-! ## The calls -/

/-- A call of a function that puts a path together. -/
inductive PathCall where
  | request (c : RequestCall)
  | assembled (c : AssembledCall)
  | body (bucket : Bucket) (objectId : CString) (c : BodyCall)
  | serverCode (endpointName : CString) (params : Option CString)

/-- The function of `kii.h`. -/
def BodyCall.kiiCall (bucket : Bucket) (objectId : CString) : BodyCall → KiiCall
  | uploadBodyAtOnce bodyContentType data dataLength =>
    .objectUploadBodyAtOnce bucket objectId bodyContentType data dataLength
  | initUploadBody => .objectInitUploadBody bucket objectId
  | uploadBody uploadId chunk => .objectUploadBody bucket objectId uploadId chunk
  | commitUpload uploadId commit => .objectCommitUpload bucket objectId uploadId commit
  | downloadBodyAtOnce => .objectDownloadBodyAtOnce bucket objectId
  | downloadBody position length => .objectDownloadBody bucket objectId position length

namespace PathCall

/-- The stores of the call into its array. -/
def compose (k : Core w) : PathCall → Printed Byte
  | request c => c.compose k
  | assembled c => c.compose k
  | body bucket objectId c => c.suffixes.foldl strcat (composeBodyPath k bucket objectId)
  | serverCode endpointName _ => composeServerCodePath k endpointName

/-- The call ends with its failure code, whatever the server does. -/
def Fails (k : Core w) : PathCall → Prop
  | request c => (c.run k).code = .fail
  | assembled c => ∃ r, c.run k = some r ∧ r.code = .fail
  | body bucket objectId c => ∀ cbs fuel json e,
      (c.kiiCall bucket objectId).run cbs fuel json k = some e →
      ∃ x copied, e = .returned (-1) x copied
  | serverCode endpointName params => ∀ cbs fuel json e,
      (KiiCall.serverCodeExecute endpointName params).run cbs fuel json k = some e →
      ∃ x copied, e = .returned (-1) x copied

/-- The path has at most 255 characters, or the call fails and has stored nothing behind its
array. -/
def PathFits (k : Core w) (c : PathCall) : Prop :=
  (c.compose k).text.length ≤ 255 ∨ (c.Fails k ∧ (c.compose k).reached ≤ resourcePathSize)

/-- The path that the request is for. -/
def resourcePath (k : Core w) : PathCall → CString
  | request c => (c.args k).resourcePath
  | assembled (.registerThingWithId _ _ _) => (prvSetThingRegisterPath k).httpRequestPath
  | assembled (.thingAuthentication _ _) => (prvSetAuthPath k).httpRequestPath
  | assembled (.installThingPush _) => (prvSetInstallationPath k).httpRequestPath
  | body bucket objectId c => (c.apiCall k bucket objectId).resourcePath
  | serverCode endpointName params => (serverCodeCall k endpointName params).resourcePath

theorem text_suffixes (p : Printed Byte) (c : BodyCall) :
    (c.suffixes.foldl strcat p).text = p.text ++ c.suffix.bytes := by
  cases c <;> simp [BodyCall.suffixes, BodyCall.suffix, strcat]

theorem text_composeBodyPath (k : Core w) (bucket : Bucket) (objectId suffix : CString) :
    (composeBodyPath k bucket objectId).text ++ suffix.bytes =
      (bodyPath k bucket objectId suffix).bytes := by
  by_cases hscope : bucket.scope = .thing
  · simp [composeBodyPath, bodyPath, hscope, strcat, sprintf]
  · simp [composeBodyPath, bodyPath, hscope, strcat, sprintf]

/-- **What is put together is the path of the request.** -/
theorem text_compose (k : Core w) (c : PathCall) :
    (c.compose k).text = (c.resourcePath k).bytes := by
  cases c with
  | request c =>
    cases c <;> simp [compose, RequestCall.compose, composeObjectPath, resourcePath,
      RequestCall.args, objectPath, strcat, sprintf]
  | assembled c => cases c <;> rfl
  | body bucket objectId c =>
    rw [compose, text_suffixes, text_composeBodyPath, resourcePath, c.resourcePath_apiCall]
  | serverCode endpointName params =>
    simp [compose, composeServerCodePath, resourcePath, serverCodeCall, strcat, sprintf]

theorem longest_suffixes {n : Nat} {p : Printed Byte} (h : p.Longest n) (strs : List CString) :
    (strs.foldl strcat p).Longest n := by
  induction strs generalizing p with
  | nil => exact h
  | cons str strs ih => exact ih (h.append str.bytes)

theorem longest_composeBodyPath (k : Core w) (bucket : Bucket) (objectId : CString) :
    (composeBodyPath k bucket objectId).Longest resourcePathSize := by
  have hbase := (Printed.longest_print resourcePathSize (CString.lit "api/apps/").bytes).append
    k.appId.bytes
  rw [composeBodyPath]
  split
  · exact (((((hbase.append _).append _).append _).append _).append _).append _
  · exact (((hbase.append _).append _).append _).append _

/-- Every path is printed once and then only appended to. -/
theorem exists_longest_compose (k : Core w) (c : PathCall) :
    ∃ n ≤ resourcePathSize, (c.compose k).Longest n := by
  cases c with
  | request c =>
    refine ⟨0, Nat.zero_le _, ?_⟩
    cases c <;> first | exact Printed.longest_print 0 _ | exact (Printed.longest_print 0 _).append _
  | assembled c =>
    refine ⟨0, Nat.zero_le _, ?_⟩
    cases c <;> exact Printed.longest_print 0 _
  | body bucket objectId c =>
    exact ⟨_, Nat.le_refl _, longest_suffixes (longest_composeBodyPath k bucket objectId) _⟩
  | serverCode endpointName params =>
    have hbase := Printed.longest_print resourcePathSize (CString.lit "api/apps/").bytes
    exact ⟨_, Nat.le_refl _, ((hbase.append _).append _).append _⟩

/-! ## What goes into a path -/

/-- The fixed parts of `prv_bucket_path`. -/
def bucketLiterals : Scope → List CString
  | .app => [.lit "api/apps/", .lit "/buckets/"]
  | .user => [.lit "api/apps/", .lit "/users/", .lit "/buckets/"]
  | .group => [.lit "api/apps/", .lit "/groups/", .lit "/buckets/"]
  | .thing => [.lit "api/apps/", .lit "/things/", .lit "/buckets/"]

/-- The fixed parts of `prv_topic_path`. -/
def topicLiterals : Scope → List CString
  | .app => [.lit "api/apps/", .lit "/topic/"]
  | .user => [.lit "api/apps/", .lit "/users/", .lit "/topic/"]
  | .group => [.lit "api/apps/", .lit "/groups/", .lit "/topics/"]
  | .thing => [.lit "api/apps/", .lit "/things/", .lit "/topics/"]

/-- The strings that scope, scope id and name are. -/
def scopedStrings (k : Core w) (scope : Scope) (scopeId name : CString) : List CString :=
  if scope = .app then [k.appId, name] else [k.appId, scopeId, name]

/-- The fixed parts of a path. -/
def literals : PathCall → List CString
  | request (.registerThing _) => [.lit "api/apps/", .lit "/things"]
  | request (.uploadThingState _ _ _ _ _ _) =>
    [.lit "thing-if/apps/", .lit "/targets/thing:", .lit "/states"]
  | request (.createNewObject bucket _ _) => .lit "/objects" :: bucketLiterals bucket.scope
  | request (.createNewObjectWithId bucket _ _ _) | request (.patchObject bucket _ _ _)
  | request (.replaceObject bucket _ _ _) | request (.getObject bucket _)
  | request (.deleteObject bucket _) => .lit "/objects/" :: bucketLiterals bucket.scope
  | request (.subscribeBucket bucket) =>
    .lit "/filters/all/push/subscriptions/things" :: bucketLiterals bucket.scope
  | request (.unsubscribeBucket bucket) =>
    .lit "/filters/all/push/subscriptions/things/" :: bucketLiterals bucket.scope
  | request (.createTopic topic) | request (.deleteTopic topic) => topicLiterals topic.scope
  | request (.subscribeTopic topic) =>
    .lit "/push/subscriptions/things" :: topicLiterals topic.scope
  | request (.unsubscribeTopic topic) =>
    .lit "/push/subscriptions/things/" :: topicLiterals topic.scope
  | request (.getMqttEndpoint _) =>
    [.lit "api/apps/", .lit "/installations/", .lit "/mqtt-endpoint"]
  | assembled (.registerThingWithId _ _ _) => [.lit "api/apps/", .lit "/things"]
  | assembled (.thingAuthentication _ _) => [.lit "api/oauth2/token"]
  | assembled (.installThingPush _) => [.lit "api/apps/", .lit "/installations"]
  | body bucket _ c => (if bucket.scope = .thing then [.lit "/things/"] else []) ++
      [.lit "api/apps/", .lit "/buckets/", .lit "/objects/"] ++ match c with
        | .uploadBody _ _ => [.lit "/body/uploads/", .lit "/data"]
        | .commitUpload _ commit => [.lit "/body/uploads/", .lit "/status/",
            if commit = 0 then .lit "cancelled" else .lit "committed"]
        | c => c.suffixes
  | serverCode _ _ => [.lit "api/apps/", .lit "/server-code/versions/current/"]

/-- The strings of the application that go into a path. -/
def strings (k : Core w) : PathCall → List CString
  | request (.registerThing _) => [k.appId]
  | request (.uploadThingState _ thingId _ _ _ _) => [k.appId, thingId]
  | request (.createNewObject bucket _ _) | request (.subscribeBucket bucket) =>
    scopedStrings k bucket.scope bucket.scopeId bucket.bucketName
  | request (.createNewObjectWithId bucket objectId _ _)
  | request (.patchObject bucket objectId _ _) | request (.replaceObject bucket objectId _ _)
  | request (.getObject bucket objectId)
  | request (.deleteObject bucket objectId) =>
    objectId :: scopedStrings k bucket.scope bucket.scopeId bucket.bucketName
  | request (.unsubscribeBucket bucket) =>
    k.author.authorId.str :: scopedStrings k bucket.scope bucket.scopeId bucket.bucketName
  | request (.createTopic topic) | request (.deleteTopic topic)
  | request (.subscribeTopic topic) => scopedStrings k topic.scope topic.scopeId topic.topicName
  | request (.unsubscribeTopic topic) =>
    k.author.authorId.str :: scopedStrings k topic.scope topic.scopeId topic.topicName
  | request (.getMqttEndpoint installationId) => [k.appId, installationId]
  | assembled (.registerThingWithId _ _ _) => [k.appId]
  | assembled (.thingAuthentication _ _) => []
  | assembled (.installThingPush _) => [k.appId]
  | body bucket objectId c => (if bucket.scope = .thing then [bucket.scopeId] else []) ++
      [k.appId, bucket.bucketName, objectId] ++ match c with
        | .uploadBody uploadId _ => [uploadId]
        | .commitUpload uploadId _ => [uploadId]
        | _ => []
  | serverCode endpointName _ => [k.appId, endpointName]

theorem length_prvBucketPath (k : Core w) (bucket : Bucket) :
    (prvBucketPath k bucket).length = totalLength (bucketLiterals bucket.scope) +
      totalLength (scopedStrings k bucket.scope bucket.scopeId bucket.bucketName) := by
  cases hscope : bucket.scope <;>
    simp [prvBucketPath, hscope, bucketLiterals, scopedStrings] <;> omega

theorem length_prvTopicPath (k : Core w) (topic : Topic) :
    (prvTopicPath k topic).length = totalLength (topicLiterals topic.scope) +
      totalLength (scopedStrings k topic.scope topic.scopeId topic.topicName) := by
  cases hscope : topic.scope <;>
    simp [prvTopicPath, hscope, topicLiterals, scopedStrings] <;> omega

theorem length_bodyPath (k : Core w) (bucket : Bucket) (objectId suffix : CString) :
    (bodyPath k bucket objectId suffix).length =
      totalLength ((if bucket.scope = .thing then [.lit "/things/"] else []) ++
        [.lit "api/apps/", .lit "/buckets/", .lit "/objects/"]) +
      totalLength ((if bucket.scope = .thing then [bucket.scopeId] else []) ++
        [k.appId, bucket.bucketName, objectId]) + suffix.length := by
  by_cases hscope : bucket.scope = .thing
  · simp [bodyPath, hscope]
    omega
  · simp [bodyPath, hscope]
    omega

theorem length_resourcePath (k : Core w) (c : PathCall) :
    (c.resourcePath k).length = totalLength c.literals + totalLength (c.strings k) := by
  cases c with
  | request c =>
    cases c <;> simp [resourcePath, RequestCall.args, literals, strings, objectPath,
      length_prvBucketPath, length_prvTopicPath] <;> omega
  | assembled c =>
    cases c <;> simp [resourcePath, prvSetThingRegisterPath, prvSetAuthPath, prvSetInstallationPath,
      Core.setPath, literals, strings] <;> omega
  | body bucket objectId c =>
    rw [resourcePath, c.resourcePath_apiCall, length_bodyPath]
    cases c <;> simp [literals, strings, BodyCall.suffix, BodyCall.suffixes] <;> omega
  | serverCode endpointName params =>
    simp [resourcePath, serverCodeCall, literals, strings]
    omega

/-- **When a path fits**: the strings of the application leave room for the fixed parts. -/
theorem pathFits_iff (k : Core w) (c : PathCall) :
    c.PathFits k ↔ totalLength c.literals + totalLength (c.strings k) ≤ 255 := by
  have hlength : (c.compose k).text.length =
      totalLength c.literals + totalLength (c.strings k) := by
    rw [text_compose]
    exact length_resourcePath k c
  obtain ⟨n, hn, hlongest⟩ := c.exists_longest_compose k
  have hreached : (c.compose k).reached ≤ resourcePathSize ↔ (c.compose k).text.length ≤ 255 :=
    (hlongest.reached_le_iff hn).trans Nat.lt_succ_iff
  rw [PathFits, hreached, ← hlength]
  exact ⟨fun h => h.elim id And.right, Or.inl⟩

/-- The path of an object of a thing has 35 characters of its own. -/
example : totalLength
    (request (.getObject ⟨.thing, .lit "th", .lit "b"⟩ (.lit "o"))).literals = 35 := by decide

/-- An id of 236 characters. -/
def longId : CString :=
  ⟨List.replicate 236 97, fun _ hb => by rw [List.eq_of_mem_replicate hb]; decide⟩

/-- A call for the object with this id. -/
def gettingLong : RequestCall := .getObject ⟨.app, .lit "", .lit "b"⟩ longId

/-- It succeeds, and has stored 12 bytes behind `_http_request_path`. -/
theorem pathFits_fails : (gettingLong.run (device 1024)).code = .ok ∧
    (compose (device 1024) (request gettingLong)).reached = resourcePathSize + 12 ∧
    ¬ PathFits (device 1024) (request gettingLong) := by
  have hpath : (compose (device 1024) (request gettingLong)).text.length = 267 ∧
      (compose (device 1024) (request gettingLong)).reached = 268 := by decide +kernel
  refine ⟨by decide +kernel, hpath.2, ?_⟩
  rw [PathFits, hpath.1, hpath.2]
  rintro (hlength | ⟨-, hreached⟩)
  · exact absurd hlength (by decide)
  · exact absurd hreached (by decide)

end PathCall

end KiiThing

import KiiThing.Core.ApiCall
import KiiThing.Core.Preparation
import KiiThing.Sdk.Wrapper

/-!
# Bodies of objects

`kii_object.c` puts the path of an object body together itself, where the functions for the object
go through `prv_bucket_path`. The two agree for buckets of the application and of a thing only
(`bodyPath_iff`): for a bucket of a user or a group the scope is left out, and the body functions
address the bucket of that name in the application.
-/

namespace KiiThing

open Http

variable {w : Nat}

/-! ## The calls -/

/-- `"%lu"`. -/
def unsignedText (n : Nat) : CString := ⟨Decimal.text n, fun _ => Decimal.ne_zero_of_mem_text⟩

/-- `"%d"`, for an `unsigned int` of 32 bits. -/
def intText (n : Nat) : CString :=
  if n < 2 ^ 31 then unsignedText n else .lit "-" ++ unsignedText (2 ^ 32 - n)

/-- `resource_path`, as all the functions for object bodies put it together. It is an array of 256
bytes on the stack, which a longer path runs over: see `PathCall.compose`. -/
def bodyPath (k : Core w) (bucket : Bucket) (objectId suffix : CString) : CString :=
  let path := .lit "api/apps/" ++ k.appId
  let path := if bucket.scope = .thing then path ++ .lit "/things/" ++ bucket.scopeId else path
  path ++ .lit "/buckets/" ++ bucket.bucketName ++ .lit "/objects/" ++ objectId ++ suffix

/-- `kii_chunk_data_t`. -/
structure ChunkData where
  bodyContentType : Option CString
  position : Nat
  length : Nat
  totalLength : Nat
  chunk : Option (List Byte)

/-- The call of `kii_core_api_call` in `kii_object_upload_body_at_once`. -/
def uploadBodyAtOnceCall (k : Core w) (bucket : Bucket) (objectId : CString)
    (bodyContentType : Option CString) (data : Option (List Byte)) (dataLength : Nat) : ApiCall where
  httpMethod := .lit "PUT"
  resourcePath := bodyPath k bucket objectId (.lit "/body")
  httpBody := data
  bodySize := dataLength
  contentType := bodyContentType
  headers := []

/-- The call in `kii_object_init_upload_body`. -/
def initUploadBodyCall (k : Core w) (bucket : Bucket) (objectId : CString) : ApiCall where
  httpMethod := .lit "POST"
  resourcePath := bodyPath k bucket objectId (.lit "/body/uploads")
  httpBody := some (ascii "\x7b\x7d")
  bodySize := 2
  contentType := some (.lit "application/vnd.kii.startobjectbodyuploadrequest+json")
  headers := [.lit "accept:application/vnd.kii.startobjectbodyuploadresponse+json"]

/-- The call in `kii_object_upload_body`. -/
def uploadBodyCall (k : Core w) (bucket : Bucket) (objectId uploadId : CString)
    (chunk : ChunkData) : ApiCall where
  httpMethod := .lit "PUT"
  resourcePath := bodyPath k bucket objectId (.lit "/body/uploads/" ++ uploadId ++ .lit "/data")
  httpBody := chunk.chunk
  bodySize := chunk.length
  contentType := chunk.bodyContentType
  headers := [.lit "Accept: application/json, application/*+json",
    .lit "Content-Range: " ++ .lit "bytes=" ++ unsignedText chunk.position ++ .lit "-" ++
      unsignedText ((chunk.position + chunk.length + 2 ^ w - 1) % 2 ^ w) ++ .lit "/" ++
        unsignedText chunk.totalLength]

/-- The call in `kii_object_commit_upload`. -/
def commitUploadCall (k : Core w) (bucket : Bucket) (objectId uploadId : CString)
    (commit : Nat) : ApiCall where
  httpMethod := .lit "POST"
  resourcePath := bodyPath k bucket objectId (.lit "/body/uploads/" ++ uploadId ++ .lit "/status/" ++
    if commit = 0 then .lit "cancelled" else .lit "committed")
  httpBody := none
  bodySize := 0
  contentType := none
  headers := []

/-- The call in `kii_object_download_body_at_once`. -/
def downloadBodyAtOnceCall (k : Core w) (bucket : Bucket) (objectId : CString) : ApiCall where
  httpMethod := .lit "GET"
  resourcePath := bodyPath k bucket objectId (.lit "/body")
  httpBody := none
  bodySize := 0
  contentType := none
  headers := [.lit "Accept: */*"]

/-- The call in `kii_object_download_body`. Position and length are `unsigned int`s. -/
def downloadBodyCall (k : Core w) (bucket : Bucket) (objectId : CString)
    (position length : Nat) : ApiCall where
  httpMethod := .lit "GET"
  resourcePath := bodyPath k bucket objectId (.lit "/body")
  httpBody := none
  bodySize := 0
  contentType := none
  headers := [.lit "Range: " ++ .lit "bytes=" ++ intText position ++ .lit "-" ++
      intText ((position + length + 2 ^ 32 - 1) % 2 ^ 32), .lit "Accept: */*"]

/-! ## The functions -/

section

variable (cbs : Callbacks) (fuel : Nat) (k : Core w) (bucket : Bucket) (objectId : CString)

/-- The way of the functions that only look at the status code. -/
def performCall (a : ApiCall) : Option (Ending Int w) :=
  perform cbs fuel (kiiCoreApiCall k a) (-1) fun x => ifSuccessful x (-1) (.returned 0 x [])

/-- `kii_object_upload_body_at_once`. -/
def kiiObjectUploadBodyAtOnce (bodyContentType : Option CString) (data : Option (List Byte))
    (dataLength : Nat) : Option (Ending Int w) :=
  performCall cbs fuel k (uploadBodyAtOnceCall k bucket objectId bodyContentType data dataLength)

/-- `kii_object_init_upload_body`. -/
def kiiObjectInitUploadBody (json : JsonReader) : Option (Ending Int w) :=
  perform cbs fuel (kiiCoreApiCall k (initUploadBodyCall k bucket objectId)) (-1) fun x =>
  ifSuccessful x (-1) (readResponse json x (-1) 0 [⟨.lit "uploadID", .string 65⟩] fun _ k => k)

/-- `kii_object_upload_body`. -/
def kiiObjectUploadBody (uploadId : CString) (chunk : ChunkData) : Option (Ending Int w) :=
  performCall cbs fuel k (uploadBodyCall k bucket objectId uploadId chunk)

/-- `kii_object_commit_upload`. -/
def kiiObjectCommitUpload (uploadId : CString) (commit : Nat) : Option (Ending Int w) :=
  performCall cbs fuel k (commitUploadCall k bucket objectId uploadId commit)

/-- `kii_object_download_body_at_once`. The length is an `unsigned int`. -/
def kiiObjectDownloadBodyAtOnce : Option (Ending Int w) :=
  perform cbs fuel (kiiCoreApiCall k (downloadBodyAtOnceCall k bucket objectId)) (-1) fun x =>
  ifSuccessful x (-1)
    (.returned 0 x [some (.number ((x.core.responseBodyLength % 2 ^ 32 : Nat) : Int))])

/-- `atoi`: blanks, a sign, and the figures behind it. For a number that no `int` holds C promises
nothing; here it is the number. -/
def atoi (s : List Byte) : Int :=
  match s.dropWhile fun c => c = 32 ∨ 9 ≤ c ∧ c ≤ 13 with
  | 45 :: t => -(Decimal.read 0 t : Int)
  | 43 :: t => Decimal.read 0 t
  | t => Decimal.read 0 t

/-- The total length in a partial response: the number behind the first slash that follows
`Content-Range: ` in the buffer. -/
def contentRangeTotal (b : Buffer w) : Option Nat :=
  (b.strstr (ascii "Content-Range: ")).bind fun i =>
    let p₁ := (b.bytes.takeWhile (· ≠ 0)).drop i
    (Search.find (ascii "/") p₁).map fun j => (atoi (p₁.drop (j + 1)) % 2 ^ 32).toNat

/-- The end of `kii_object_download_body`. What is stored are the total and the actual length. -/
def readContentRange (x : Exchange w) : Ending Int w :=
  match contentRangeTotal x.core.http.buffer with
  | none => .returned (-1) x []
  | some total => .returned 0 x [some (.number total),
      some (.number ((x.core.responseBodyLength % 2 ^ 32 : Nat) : Int))]

/-- `kii_object_download_body`. -/
def kiiObjectDownloadBody (position length : Nat) : Option (Ending Int w) :=
  perform cbs fuel (kiiCoreApiCall k (downloadBodyCall k bucket objectId position length)) (-1)
    fun x => ifSuccessful x (-1) (readContentRange x)

/-- `kii_object_create_with_id`. -/
def kiiObjectCreateWithId (objectData objectContentType : Option CString) :
    Option (Ending Int w) :=
  performStatus cbs fuel
    (kiiCoreCreateNewObjectWithId k bucket objectId objectData objectContentType)

/-- `kii_object_patch`. -/
def kiiObjectPatch (patchData optEtag : Option CString) : Option (Ending Int w) :=
  performStatus cbs fuel (kiiCorePatchObject k bucket objectId patchData optEtag)

/-- `kii_object_replace`. -/
def kiiObjectReplace (replacementData optEtag : Option CString) : Option (Ending Int w) :=
  performStatus cbs fuel (kiiCoreReplaceObject k bucket objectId replacementData optEtag)

/-- `kii_object_delete`. -/
def kiiObjectDelete : Option (Ending Int w) :=
  performStatus cbs fuel (kiiCoreDeleteObject k bucket objectId)

/-- `kii_object_get`. -/
def kiiObjectGet : Option (Ending Int w) :=
  performStatus cbs fuel (kiiCoreGetObject k bucket objectId)

/-- `kii_object_create`. -/
def kiiObjectCreate (objectData objectContentType : Option CString) (json : JsonReader) :
    Option (Ending Int w) :=
  perform cbs fuel (kiiCoreCreateNewObject k bucket objectData objectContentType) (-1) fun x =>
  ifSuccessful x (-1) (readResponse json x (-1) 0 [⟨.lit "objectID", .string 37⟩] fun _ k => k)

end

/-- A call of a function for object bodies. -/
inductive BodyCall where
  | uploadBodyAtOnce (bodyContentType : Option CString) (data : Option (List Byte))
      (dataLength : Nat)
  | initUploadBody
  | uploadBody (uploadId : CString) (chunk : ChunkData)
  | commitUpload (uploadId : CString) (commit : Nat)
  | downloadBodyAtOnce
  | downloadBody (position length : Nat)

namespace BodyCall

def apiCall (k : Core w) (bucket : Bucket) (objectId : CString) : BodyCall → ApiCall
  | uploadBodyAtOnce bodyContentType data dataLength =>
    uploadBodyAtOnceCall k bucket objectId bodyContentType data dataLength
  | initUploadBody => initUploadBodyCall k bucket objectId
  | uploadBody uploadId chunk => uploadBodyCall k bucket objectId uploadId chunk
  | commitUpload uploadId commit => commitUploadCall k bucket objectId uploadId commit
  | downloadBodyAtOnce => downloadBodyAtOnceCall k bucket objectId
  | downloadBody position length => downloadBodyCall k bucket objectId position length

/-- The suffix of the body that is addressed. -/
def suffix : BodyCall → CString
  | uploadBodyAtOnce _ _ _ => .lit "/body"
  | initUploadBody => .lit "/body/uploads"
  | uploadBody uploadId _ => .lit "/body/uploads/" ++ uploadId ++ .lit "/data"
  | commitUpload uploadId commit => .lit "/body/uploads/" ++ uploadId ++ .lit "/status/" ++
      if commit = 0 then .lit "cancelled" else .lit "committed"
  | downloadBodyAtOnce => .lit "/body"
  | downloadBody _ _ => .lit "/body"

theorem resourcePath_apiCall (k : Core w) (bucket : Bucket) (objectId : CString) (c : BodyCall) :
    (c.apiCall k bucket objectId).resourcePath = bodyPath k bucket objectId c.suffix := by
  cases c <;> rfl

end BodyCall

/-! ## One address -/

/-- The path that `kii_core_get_object` prints, whether its request fits or not. -/
theorem httpRequestPath_getObject (k : Core w) (bucket : Bucket) (objectId : CString) :
    (kiiCoreGetObject k bucket objectId).core.httpRequestPath = objectPath k bucket objectId := by
  have hc := (RequestCall.getObject bucket objectId).run_eq k
  have hbody : Readable w ((RequestCall.getObject bucket objectId).args k).body
      ((RequestCall.getObject bucket objectId).args k).bodyLength := by
    rintro _ ⟨⟩
  have hframe := (builds_httpRequest (k.setPath (objectPath k bucket objectId))
    ((RequestCall.getObject bucket objectId).args k) hbody).frame
  rw [show kiiCoreGetObject k bucket objectId = (RequestCall.getObject bucket objectId).run k from rfl,
    hc, Result.httpRequestPath_ready]
  exact hframe.httpRequestPath

theorem bodyPath_eq_iff (k : Core w) (bucket : Bucket) (objectId suffix : CString) :
    bodyPath k bucket objectId suffix = objectPath k bucket objectId ++ suffix ↔
      bucket.scope = .app ∨ bucket.scope = .thing := by
  have happend : ∀ a b c : CString, a ++ b ++ c = a ++ (b ++ c) := by
    intro a b c
    apply CString.ext
    simp [List.append_assoc]
  constructor
  · intro h
    have hlen := congrArg CString.length h
    cases hscope : bucket.scope with
    | app => exact Or.inl rfl
    | thing => exact Or.inr rfl
    | user =>
      have husers : (CString.lit "/users/").length = 7 := rfl
      simp only [bodyPath, objectPath, prvBucketPath, hscope, CString.length_append, reduceCtorEq,
        if_false] at hlen
      omega
    | group =>
      have hgroups : (CString.lit "/groups/").length = 8 := rfl
      simp only [bodyPath, objectPath, prvBucketPath, hscope, CString.length_append, reduceCtorEq,
        if_false] at hlen
      omega
  · rintro (hscope | hscope)
    · simp only [bodyPath, objectPath, prvBucketPath, hscope, reduceCtorEq, if_false, happend]
    · simp only [bodyPath, objectPath, prvBucketPath, hscope, if_true, happend]

/-- **One address per object**: a function for the body of an object addresses it where
`kii_core_get_object` does if and only if its bucket is one of the application or of a thing. -/
theorem bodyPath_iff (k : Core w) (bucket : Bucket) (objectId : CString) (c : BodyCall) :
    (c.apiCall k bucket objectId).resourcePath =
        (kiiCoreGetObject k bucket objectId).core.httpRequestPath ++ c.suffix ↔
      bucket.scope = .app ∨ bucket.scope = .thing := by
  rw [c.resourcePath_apiCall, httpRequestPath_getObject, bodyPath_eq_iff]

/-- A download from a bucket of a user goes to the bucket of the application. -/
theorem bodyPath_fails :
    (BodyCall.downloadBodyAtOnce.apiCall (device 512) ⟨.user, .lit "u", .lit "b"⟩
        (.lit "o")).resourcePath = .lit "api/apps/app/buckets/b/objects/o/body" ∧
      (kiiCoreGetObject (device 512) ⟨.user, .lit "u", .lit "b"⟩ (.lit "o")).core.httpRequestPath =
        .lit "api/apps/app/users/u/buckets/b/objects/o" ∧
      (BodyCall.downloadBodyAtOnce.apiCall (device 512) ⟨.user, .lit "u", .lit "b"⟩
          (.lit "o")).resourcePath ≠
        (kiiCoreGetObject (device 512) ⟨.user, .lit "u", .lit "b"⟩ (.lit "o")).core.httpRequestPath ++
          BodyCall.downloadBodyAtOnce.suffix := by
  decide +kernel

end KiiThing

import KiiThing.Core.Layout

/-!
# The generic API calls

`kii_core_api_call`, which takes a whole request with any number of additional headers, and its
incremental counterpart: `kii_core_api_call_start`, headers and pieces of the body in any order, and
`kii_core_api_call_end`.
-/

namespace KiiThing

open Http

variable {w : Nat}

/-! ## `kii_core_api_call` -/

/-- The arguments of `kii_core_api_call`. `headers` are `header` and the variable arguments before
the NULL that ends them; it is empty when `header` is NULL. -/
structure ApiCall where
  httpMethod : CString
  resourcePath : CString
  httpBody : Option (List Byte)
  bodySize : Nat
  contentType : Option CString
  headers : List CString

/-- `strstr(str, ":")`. -/
def colon (str : CString) : Option Nat := Search.find (ascii ":") str.bytes

/-- `strncpy(key, str, ptr - str)`: no terminator is stored, so that what `key` held behind that
many characters stays. -/
def strncpyKey (key : List Byte) (str : CString) (n : Nat) : List Byte :=
  Memory.overwrite key 0 (str.bytes.take n)

/-- `strncpy(value, ptr + 1, sizeof(value))`: the whole array is set. -/
def strncpyValue (str : CString) (n : Nat) : List Byte :=
  Memory.pad 128 0 ((str.bytes.drop (n + 1)).take 128)

/-- The additional headers behind the first one, with the array `key` as it was left. -/
def additionalHeaders (k : Core w) (key : List Byte) : List CString → Result HttpCode w
  | [] => ⟨.ok, k⟩
  | str :: strs =>
    match colon str with
    | none => ⟨.ok, k⟩
    | some n =>
      (prvKiiHttpSetHeader k (.ofArray (strncpyKey key str n)) (.ofArray (strncpyValue str n))).next
        fun k => additionalHeaders k (strncpyKey key str n) strs

/-- All of them: without a colon in the first one the call fails. -/
def setHeaders (k : Core w) (key : List Byte) : List CString → Result HttpCode w
  | [] => ⟨.ok, k⟩
  | str :: strs =>
    match colon str with
    | none => ⟨.fail, k⟩
    | some _ => additionalHeaders k key (str :: strs)

/-- `kii_core_api_call`. -/
def kiiCoreApiCall (k : Core w) (a : ApiCall) : Result ErrorCode w :=
  ((prvKiiHttpSetRequestLine k a.httpMethod a.resourcePath).next fun k =>
  (prvSetKiiDefaultHeader k).next fun k =>
  (setHeaderIf k (.lit "content-type") a.contentType).next fun k =>
  (setHeaderIf k (.lit "authorization") (k.accessToken.map (.lit "bearer " ++ ·))).next fun k =>
  (setHeaders k (List.replicate 128 0) a.headers).next fun k =>
  setBody k a.httpBody a.bodySize).ready

/-! ## The incremental calls -/

/-- `prv_kii_core_set_authorization_header`. -/
def prvKiiCoreSetAuthorizationHeader (k : Core w) : Result HttpCode w :=
  if k.author.accessToken.str.length ≤ 0 then ⟨.fail, k⟩
  else if 128 ≤ 6 + k.author.accessToken.str.length + 1 then ⟨.fail, k⟩
  else prvKiiHttpSetHeader k (.lit "authorization") (.lit "bearer " ++ k.author.accessToken.str)

/-- `kii_core_api_call_start`. -/
def kiiCoreApiCallStart (k : Core w) (httpMethod resourcePath : CString)
    (contentType : Option CString) (setAuthenticationHeader : Bool) : Result ErrorCode w :=
  (prvKiiHttpSetRequestLine k httpMethod resourcePath).next fun k =>
  (prvSetKiiDefaultHeader k).next fun k =>
  (setHeaderIf k (.lit "content-type") contentType).next fun k =>
  (if setAuthenticationHeader then prvKiiCoreSetAuthorizationHeader k else ⟨.ok, k⟩).next fun k =>
  (prvKiiHttpAppendBodyStart k).next fun k =>
  ⟨.ok, { k with contentLength := 0 }⟩

/-- `prv_kii_core_http_set_content_length_header`. -/
def prvKiiCoreHttpSetContentLengthHeader (k : Core w) (contentLength : Nat) : Result HttpCode w :=
  if 0 < contentLength then
    prvKiiHttpSetHeader k (.lit "content-length") (prvContentLengthStr contentLength)
  else ⟨.fail, k⟩

/-- `kii_core_api_call_end`. -/
def kiiCoreApiCallEnd (k : Core w) : Result ErrorCode w :=
  (prvKiiHttpAppendBodyEnd k).next fun k =>
  (if 0 < k.contentLength then prvKiiCoreHttpSetContentLengthHeader k k.contentLength
    else ⟨.ok, k⟩).next fun k =>
  if k.state ≠ .idle then ⟨.fail, k⟩ else ⟨.ok, { k with state := .ready }⟩

/-- `kii_core_api_call_append_body`. -/
def kiiCoreApiCallAppendBody (k : Core w) (bodyData : Option (List Byte)) (bodySize : Nat) :
    Result ErrorCode w :=
  (prvKiiHttpAppendBody k bodyData bodySize).next fun k =>
  ⟨.ok, { k with contentLength := (k.contentLength + bodySize) % 2 ^ w }⟩

/-- `kii_core_api_call_append_header`. -/
def kiiCoreApiCallAppendHeader (k : Core w) (key value : CString) : Result ErrorCode w :=
  (prvKiiHttpSetHeader k key value).next fun k => ⟨.ok, k⟩

end KiiThing

import KiiThing.Core.Incremental

/-!
# The three authorization steps

The authorization header is put together at three places: in `prv_http_request_line_and_headers`, in
`kii_core_api_call` and, for `kii_core_api_call_start`, in `prv_kii_core_set_authorization_header`.
All of them print prefix and token into an array of 128 bytes on the stack first, and each has its
own idea of what fits. `Scratched` is what such a step comes to, with the number of bytes it prints
into the array.

`authorizationAgrees_iff` is for which tokens the three are one.
-/

namespace KiiThing

open Http

variable {w : Nat}

/-! ## The steps -/

/-- What an authorization step returns, and how many bytes it prints into its array, with the
terminator. -/
structure Scratched (w : Nat) where
  result : Result HttpCode w
  written : Nat

/-- The size of the array: `MAX_AUTH_BUFF_SIZE`, and that of `value` in `kii_core_api_call`. -/
def maxAuthBuffSize : Nat := 128

/-- `sprintf` of prefix and token into the array, and the header with what it then holds. -/
def printBearer (k : Core w) (accessToken : CString) : Scratched w :=
  ⟨prvKiiHttpSetHeader k (.lit "authorization") (.lit "bearer " ++ accessToken),
    (CString.lit "bearer " ++ accessToken).length + 1⟩

/-- The step of `prv_http_request_line_and_headers`. -/
def requestAuthorization (k : Core w) : Scratched w :=
  match k.accessToken with
  | some accessToken =>
    if maxAuthBuffSize ≤ accessToken.length + 7 then ⟨⟨.fail, k⟩, 0⟩ else printBearer k accessToken
  | none => ⟨⟨.ok, k⟩, 0⟩

/-- The step of `kii_core_api_call`, which has no check. -/
def callAuthorization (k : Core w) : Scratched w :=
  match k.accessToken with
  | some accessToken => printBearer k accessToken
  | none => ⟨⟨.ok, k⟩, 0⟩

/-- The step of `kii_core_api_call_start`. `BEARER_LEN` is not in parentheses. -/
def startAuthorization (k : Core w) : Scratched w :=
  if k.author.accessToken.str.length ≤ 0 then ⟨⟨.fail, k⟩, 0⟩
  else if maxAuthBuffSize ≤ 7 - 1 + k.author.accessToken.str.length + 1 then ⟨⟨.fail, k⟩, 0⟩
  else printBearer k k.author.accessToken.str

/-! ## Where the functions make them -/

theorem setBearer_accessToken (k : Core w) :
    setBearer k k.accessToken = (requestAuthorization k).result := by
  unfold requestAuthorization
  cases k.accessToken with
  | none => rfl
  | some accessToken =>
    show (if _ then _ else _) = Scratched.result (if _ then _ else _)
    rw [apply_ite Scratched.result]
    rfl

theorem setHeaderIf_accessToken (k : Core w) :
    setHeaderIf k (.lit "authorization") (k.accessToken.map (.lit "bearer " ++ ·)) =
      (callAuthorization k).result := by
  unfold callAuthorization
  cases k.accessToken <;> rfl

theorem setAuthorizationHeader_result (k : Core w) :
    prvKiiCoreSetAuthorizationHeader k = (startAuthorization k).result := by
  unfold startAuthorization
  rw [apply_ite Scratched.result, apply_ite Scratched.result]
  rfl

/-- Request line, default headers and content type, which all requests begin with. -/
def requestStart (k : Core w) (method resourcePath : CString) (contentType : Option CString) :
    Result HttpCode w :=
  (prvKiiHttpSetRequestLine k method resourcePath).next fun k =>
  (prvSetKiiDefaultHeader k).next fun k =>
  setHeaderIf k (.lit "content-type") contentType

theorem builds_requestStart (k : Core w) (method path : CString) (contentType : Option CString) :
    Builds k (requestStart k method path contentType) (k.room method path)
      (k.draft method path (headerIf (.lit "content-type") contentType) []) := by
  have hhead := (builds_requestHead k method path).next
    (adds_setHeaderIf k (.lit "content-type") contentType)
  rw [Result.next_assoc, k.draft_add, List.nil_append, List.append_nil] at hhead
  exact hhead

section

variable (k : Core w) (method path : CString) (contentType : Option CString)

theorem lineAndHeaders_eq (etag : Option CString) :
    prvHttpRequestLineAndHeaders k method path contentType k.accessToken etag =
      (requestStart k method path contentType).next fun k =>
        (requestAuthorization k).result.next fun k =>
          (setHeaderIf k (.lit "if-match") etag).next fun k => ⟨.ok, k⟩ := by
  have hframe := (builds_requestStart k method path contentType).frame
  have hstep : setBearer (requestStart k method path contentType).core k.accessToken =
      (requestAuthorization (requestStart k method path contentType).core).result := by
    rw [← setBearer_accessToken, Core.accessToken, Core.accessToken, hframe.author]
  have hsame := Result.next_congr (r := requestStart k method path contentType)
    (f := fun k' => (setBearer k' k.accessToken).next fun k =>
      (setHeaderIf k (.lit "if-match") etag).next fun k => (⟨.ok, k⟩ : Result ErrorCode w))
    (g := fun k' => (requestAuthorization k').result.next fun k =>
      (setHeaderIf k (.lit "if-match") etag).next fun k => ⟨.ok, k⟩) (by rw [hstep])
  rw [← hsame, requestStart, Result.next_assoc]
  simp only [Result.next_assoc]
  rfl

theorem apiCall_eq (a : ApiCall) :
    kiiCoreApiCall k a =
      ((requestStart k a.httpMethod a.resourcePath a.contentType).next fun k =>
        (callAuthorization k).result.next fun k =>
        (setHeaders k (List.replicate 128 0) a.headers).next fun k =>
          setBody k a.httpBody a.bodySize).ready := by
  simp only [← setHeaderIf_accessToken, requestStart, Result.next_assoc]
  rfl

theorem start_eq :
    kiiCoreApiCallStart k method path contentType true =
      (requestStart k method path contentType).next fun k =>
        (startAuthorization k).result.next fun k =>
        (prvKiiHttpAppendBodyStart k).next fun k => ⟨.ok, { k with contentLength := 0 }⟩ := by
  simp only [← setAuthorizationHeader_result, requestStart, Result.next_assoc]
  rfl

end

/-! ## For which tokens they are one -/

/-- The three steps. -/
def authorizations (k : Core w) : List (Scratched w) :=
  [requestAuthorization k, callAuthorization k, startAuthorization k]

/-- The line `authorization:bearer <token>`. -/
def authorizationLine (k : Core w) : List Byte :=
  field (ascii "authorization") (ascii "bearer " ++ k.author.accessToken.str.bytes)

/-- Made where the object holds the draft `d`, all three steps add the line in full or all refuse,
and none writes behind its array. -/
structure AuthorizationAgrees (k : Core w) (d : Draft) : Prop where
  same : (∀ a ∈ authorizations k, a.result.isOk = true ∧
      Holds a.result.core (d.add (authorizationLine k) [])) ∨
    ∀ a ∈ authorizations k, a.result.isOk = false
  inside : ∀ a ∈ authorizations k, a.written ≤ maxAuthBuffSize

section

variable {k : Core w} {d : Draft}

theorem accessToken_of_pos (h : 0 < k.author.accessToken.str.length) :
    k.accessToken = some k.author.accessToken.str := if_pos h

theorem callAuthorization_of_pos (h : 0 < k.author.accessToken.str.length) :
    callAuthorization k = printBearer k k.author.accessToken.str := by
  rw [callAuthorization, accessToken_of_pos h]

theorem written_printBearer (k : Core w) (accessToken : CString) :
    (printBearer k accessToken).written = accessToken.length + 8 := by
  show (CString.lit "bearer " ++ accessToken).length + 1 = _
  rw [CString.length_append, show (CString.lit "bearer ").length = 7 from rfl]
  omega

/-- A token that all three let through. -/
theorem authorizations_of_le (hpos : 0 < k.author.accessToken.str.length)
    (hle : k.author.accessToken.str.length ≤ 120) :
    ∀ a ∈ authorizations k, a = printBearer k k.author.accessToken.str := by
  have hrequest : requestAuthorization k = printBearer k k.author.accessToken.str := by
    rw [requestAuthorization, accessToken_of_pos hpos]
    apply if_neg
    rw [maxAuthBuffSize]
    omega
  have hstart : startAuthorization k = printBearer k k.author.accessToken.str := by
    rw [startAuthorization, if_neg (Nat.not_le.mpr hpos)]
    apply if_neg
    rw [maxAuthBuffSize]
    omega
  intro a ha
  rw [authorizations, hrequest, hstart, callAuthorization_of_pos hpos] at ha
  simpa using ha

/-- `kii_core_api_call` prints a longer one behind the end of its array. -/
theorem not_agrees_of_gt (hgt : 120 < k.author.accessToken.str.length) :
    ¬ AuthorizationAgrees k d := by
  intro h
  have hinside := h.inside (callAuthorization k) (by simp [authorizations])
  rw [callAuthorization_of_pos (by omega), written_printBearer, maxAuthBuffSize] at hinside
  omega

/-- **When the three authorization steps agree**: `kii_core_api_call` has no check, and the other two
refuse a token of more than 120 characters. -/
theorem authorizationAgrees_iff (hd : Holds k d) (hpos : 0 < k.author.accessToken.str.length) :
    AuthorizationAgrees k d ↔ k.author.accessToken.str.length ≤ 120 := by
  constructor
  · intro h
    by_contra hgt
    exact not_agrees_of_gt (Nat.not_le.mp hgt) h
  · intro hle
    have hall := authorizations_of_le hpos hle
    have hadds := adds_setHeader k (.lit "authorization") (.lit "bearer " ++ k.author.accessToken.str)
    constructor
    · by_cases hlt : d.size + (authorizationLine k).length + 0 < k.bufferSize
      · left
        intro a ha
        rw [hall a ha]
        exact hadds.adds k d (Frame.refl k) hd hlt
      · right
        intro a ha
        rw [hall a ha]
        exact hadds.refuses k d (Frame.refl k) hd (Nat.not_lt.mp hlt)
    · intro a ha
      rw [hall a ha, written_printBearer, maxAuthBuffSize]
      omega

end

/-- A device with a token of `n` characters. -/
def deviceWithTokenOf (n : Nat) (h : n < 128 := by decide) : Core 64 :=
  { device 512 with author := ⟨(deviceWithToken 512).author.authorId,
      ⟨⟨List.replicate n 97, fun _ hb => by rw [List.eq_of_mem_replicate hb]; decide⟩, by
        show (List.replicate n _).length < 128
        rw [List.length_replicate]
        exact h⟩⟩ }

/-- It as it stands in front of the authorization header. -/
def beforeAuthorization (n : Nat) (h : n < 128 := by decide) : Core 64 :=
  (requestStart (deviceWithTokenOf n h) (.lit "GET") (.lit "api/logs") none).core

theorem holds_beforeAuthorization {n : Nat} {h : n < 128}
    (hok : (requestStart (deviceWithTokenOf n h) (.lit "GET") (.lit "api/logs") none).isOk = true) :
    Holds (beforeAuthorization n h)
      ((deviceWithTokenOf n h).draft (.lit "GET") (.lit "api/logs") [] []) :=
  (builds_requestStart (deviceWithTokenOf n h) (.lit "GET") (.lit "api/logs") none).holds hok

/-- With 121 characters, `kii_core_api_call` writes 129 bytes where the other two refuse. -/
theorem authorizationAgrees_fails :
    Holds (beforeAuthorization 121)
        ((deviceWithTokenOf 121).draft (.lit "GET") (.lit "api/logs") [] []) ∧
      (authorizations (beforeAuthorization 121)).map (fun a => (a.result.code, a.written)) =
        [(.fail, 0), (.ok, 129), (.fail, 0)] ∧
      ¬ AuthorizationAgrees (beforeAuthorization 121)
        ((deviceWithTokenOf 121).draft (.lit "GET") (.lit "api/logs") [] []) :=
  ⟨holds_beforeAuthorization (by decide +kernel), by decide +kernel,
    not_agrees_of_gt (by decide +kernel)⟩

theorem authorizationAgrees_iff_of_get :
    AuthorizationAgrees (beforeAuthorization 120)
        ((deviceWithTokenOf 120).draft (.lit "GET") (.lit "api/logs") [] []) ↔
      (beforeAuthorization 120).author.accessToken.str.length ≤ 120 :=
  authorizationAgrees_iff (holds_beforeAuthorization (by decide +kernel)) (by decide +kernel)

end KiiThing

import KiiThing.Core.Preparation

/-!
# Preparations that put their body together

`kii_core_register_thing_with_id`, `kii_core_thing_authentication` and `kii_core_install_thing_push`
add the length of their body up beforehand and write it piece by piece. What they prepare is
`assemble_prepares`.
-/

namespace KiiThing

open Http

variable {w : Nat}

/-- The length of a body. -/
def totalLength (strs : List CString) : Nat := (strs.flatMap CString.bytes).length

@[simp] theorem totalLength_nil : totalLength [] = 0 := rfl

@[simp] theorem totalLength_cons (str : CString) (strs : List CString) :
    totalLength (str :: strs) = str.length + totalLength strs := by
  rw [totalLength, List.flatMap_cons, List.length_append]
  rfl

@[simp] theorem totalLength_append (strs strs' : List CString) :
    totalLength (strs ++ strs') = totalLength strs + totalLength strs' := by
  rw [totalLength, List.flatMap_append, List.length_append]
  rfl

/-- The message with the body `pieces`. -/
def assembled (k : Core w) (path contentType : CString) (accessToken : Option CString)
    (pieces : List CString) : Request :=
  k.request (.lit "POST") path
    (headerIf (.lit "content-type") (some contentType) ++ (bearerHeader accessToken ++
      [contentLengthHeader (totalLength pieces)]))
    (pieces.flatMap CString.bytes)

/-- The way through one of these functions is a preparation step by step, with its last statement
behind it. -/
theorem exists_builds_assemble (k : Core w) (contentType : CString) (accessToken : Option CString)
    {pieces : List CString} (hpieces : ∀ str ∈ pieces, str.length ≤ 2 ^ (w - 1)) :
    ∃ r : Result ErrorCode w,
      assemble k contentType accessToken (totalLength pieces) pieces = r.ready ∧
      Builds k r (k.room (.lit "POST") k.httpRequestPath ∧ ¬ TokenTooLong accessToken)
        (k.draft (.lit "POST") k.httpRequestPath
          (headerIf (.lit "content-type") (some contentType) ++ (bearerHeader accessToken ++
            [contentLengthHeader (totalLength pieces)]))
          (CRLF ++ pieces.flatMap CString.bytes)) := by
  have hhead := builds_lineAndHeaders k (.lit "POST") k.httpRequestPath (some contentType) accessToken
    none
  have hlength : Adds k (prvKiiHttpSetHeader · (.lit "content-length")
      (prvContentLengthStr (totalLength pieces)))
      (Request.fields [contentLengthHeader (totalLength pieces)]) [] := by
    rw [Request.fields_cons, Request.fields_nil, List.append_nil]
    exact adds_setHeader k (.lit "content-length") (prvContentLengthStr (totalLength pieces))
  have hclose : Adds k prvKiiHttpAppendBodyEnd [] [] := Adds.pure rfl
  have hchain := ((((hhead.next hlength).next (adds_appendBodyStart k)).next
    (adds_appendStrs k hpieces)).next hclose).next (Adds.pure (c := ErrorCode.ok) rfl)
  have hnone : headerIf (.lit "if-match") none = [] := rfl
  simp only [Core.draft_add, Core.draft_add_tail, hnone, List.append_nil, List.nil_append,
    List.append_assoc] at hchain
  refine ⟨_, ?_, hchain⟩
  rw [← Result.next_ready]
  simp only [Result.next_assoc]
  rfl

/-- **What is put together.** -/
theorem assemble_prepares {k : Core w} {contentType : CString} {accessToken : Option CString}
    {pieces : List CString} (hpieces : ∀ str ∈ pieces, str.length ≤ 2 ^ (w - 1)) :
    Prepares k (assemble k contentType accessToken (totalLength pieces) pieces)
      (k.room (.lit "POST") k.httpRequestPath ∧ ¬ TokenTooLong accessToken)
      (assembled k k.httpRequestPath contentType accessToken pieces) := by
  obtain ⟨r, hr, hbuilds⟩ := exists_builds_assemble k contentType accessToken hpieces
  rw [hr]
  exact hbuilds.ready

/-- A message that is put together is in the buffer, up to the empty line and behind it. -/
theorem holds_assemble {k : Core w} {contentType : CString} {accessToken : Option CString}
    {pieces : List CString} (hpieces : ∀ str ∈ pieces, str.length ≤ 2 ^ (w - 1))
    (hcode : (assemble k contentType accessToken (totalLength pieces) pieces).code = .ok) :
    ∃ r : Result ErrorCode w,
      assemble k contentType accessToken (totalLength pieces) pieces = r.ready ∧
      Holds r.core (k.draft (.lit "POST") k.httpRequestPath
        (headerIf (.lit "content-type") (some contentType) ++ (bearerHeader accessToken ++
          [contentLengthHeader (totalLength pieces)])) (CRLF ++ pieces.flatMap CString.bytes)) := by
  obtain ⟨r, hr, hbuilds⟩ := exists_builds_assemble k contentType accessToken hpieces
  rw [hr, ← Result.isOk_iff, Result.isOk_ready] at hcode
  exact ⟨r, hr, hbuilds.holds hcode⟩

/-! ## The bodies -/

/-- The body of `kii_core_register_thing_with_id`. -/
def registrationBody (vendorThingId password thingType : CString) : List CString :=
  [.lit "\x7b\"_vendorThingID\":\"", vendorThingId, .lit "\",\"_password\":\"", password,
    .lit "\",\"_thingType\":\"", thingType, .lit "\"\x7d"]

/-- The body of `kii_core_thing_authentication`. -/
def authenticationBody (vendorThingId password : CString) : List CString :=
  [.lit "\x7b\"username\":\"VENDOR_THING_ID:", vendorThingId, .lit "\",\"password\":\"", password,
    .lit "\"\x7d"]

/-- The body of `kii_core_install_thing_push`. -/
def installationBody (development : Bool) : List CString :=
  [.lit "\x7b\"installationType\":\"MQTT\",\"development\":",
    if development then .lit "true" else .lit "false", .lit "\x7d"]

section

variable (k : Core w) {vendorThingId password thingType : CString}
  (hid : vendorThingId.length ≤ 2 ^ (w - 1)) (hpassword : password.length ≤ 2 ^ (w - 1))
include k hid hpassword

theorem length_le_of_mem_registrationBody (htype : thingType.length ≤ 2 ^ (w - 1)) :
    ∀ str ∈ registrationBody vendorThingId password thingType, str.length ≤ 2 ^ (w - 1) := by
  have hlit : ∀ {n : Nat}, n ≤ 2 ^ 15 → n ≤ 2 ^ (w - 1) := k.http.buffer.le_half_word
  intro str hstr
  simp only [registrationBody, List.mem_cons, List.not_mem_nil, or_false] at hstr
  rcases hstr with rfl | rfl | rfl | rfl | rfl | rfl | rfl
  exacts [hlit (by decide), hid, hlit (by decide), hpassword, hlit (by decide), htype,
    hlit (by decide)]

theorem length_le_of_mem_authenticationBody :
    ∀ str ∈ authenticationBody vendorThingId password, str.length ≤ 2 ^ (w - 1) := by
  have hlit : ∀ {n : Nat}, n ≤ 2 ^ 15 → n ≤ 2 ^ (w - 1) := k.http.buffer.le_half_word
  intro str hstr
  simp only [authenticationBody, List.mem_cons, List.not_mem_nil, or_false] at hstr
  rcases hstr with rfl | rfl | rfl | rfl | rfl
  exacts [hlit (by decide), hid, hlit (by decide), hpassword, hlit (by decide)]

end

theorem length_le_of_mem_installationBody (k : Core w) (development : Bool) :
    ∀ str ∈ installationBody development, str.length ≤ 2 ^ (w - 1) := by
  have hlit : ∀ {n : Nat}, n ≤ 2 ^ 15 → n ≤ 2 ^ (w - 1) := k.http.buffer.le_half_word
  intro str hstr
  simp only [installationBody, List.mem_cons, List.not_mem_nil, or_false] at hstr
  rcases hstr with rfl | rfl | rfl
  · exact hlit (by decide)
  · cases development
    · exact hlit (by decide)
    · exact hlit (by decide)
  · exact hlit (by decide)

theorem registerThingWithId_eq (k : Core w) (vendorThingId password thingType : CString) :
    kiiCoreRegisterThingWithId k vendorThingId password (some thingType) =
      some (assemble (prvSetThingRegisterPath k)
        (.lit "application/vnd.kii.ThingRegistrationAndAuthorizationRequest+json") none
        (totalLength (registrationBody vendorThingId password thingType))
        (registrationBody vendorThingId password thingType)) := by
  simp only [registrationBody, totalLength_cons, totalLength_nil, Nat.add_zero, ← Nat.add_assoc]
  rfl

theorem thingAuthentication_eq (k : Core w) (vendorThingId password : CString) :
    kiiCoreThingAuthentication k vendorThingId password =
      assemble (prvSetAuthPath k) (.lit "application/json") none
        (totalLength (authenticationBody vendorThingId password))
        (authenticationBody vendorThingId password) := by
  simp only [authenticationBody, totalLength_cons, totalLength_nil, Nat.add_zero, ← Nat.add_assoc]
  rfl

theorem installThingPush_eq (k : Core w) (development : Bool) :
    kiiCoreInstallThingPush k development =
      assemble (prvSetInstallationPath k)
        (.lit "application/vnd.kii.InstallationCreationRequest+json") k.accessToken
        (totalLength (installationBody development)) (installationBody development) := by
  simp only [installationBody, totalLength_cons, totalLength_nil, Nat.add_zero, ← Nat.add_assoc]
  rfl

/-! ## The declared length -/

/-- A call of one of the three functions. -/
inductive AssembledCall where
  | registerThingWithId (vendorThingId password : CString) (thingType : Option CString)
  | thingAuthentication (vendorThingId password : CString)
  | installThingPush (development : Bool)

namespace AssembledCall

/-- `none` when the length of NULL is taken. -/
def run (k : Core w) : AssembledCall → Option (Result ErrorCode w)
  | registerThingWithId vendorThingId password thingType =>
    kiiCoreRegisterThingWithId k vendorThingId password thingType
  | thingAuthentication vendorThingId password =>
    some (kiiCoreThingAuthentication k vendorThingId password)
  | installThingPush development => some (kiiCoreInstallThingPush k development)

/-- The strings of the caller. -/
def arguments : AssembledCall → List CString
  | registerThingWithId vendorThingId password thingType =>
    vendorThingId :: password :: thingType.toList
  | thingAuthentication vendorThingId password => [vendorThingId, password]
  | installThingPush _ => []

/-- A string has at most half of the address space. -/
def InMemory (w : Nat) (c : AssembledCall) : Prop := ∀ str ∈ c.arguments, str.length ≤ 2 ^ (w - 1)

end AssembledCall

/-- The prepared message has one content-length header, the last of its headers, and as many bytes
as this says stand behind the empty line, which begins at `_body_position`. -/
def DeclaresBody (k : Core w) : Prop :=
  ∃ (req : Request) (headers : List Header),
    k.http.buffer.bytes.take k.http.totalSendSize = req.bytes ∧
    req.headers = headers ++ [contentLengthHeader req.body.length] ∧
    (∀ header ∈ headers, header.1 ≠ ascii "content-length") ∧
    k.http.bodyPosition + CRLF.length + req.body.length = k.http.totalSendSize

/-- No header in front of it is a content-length header. -/
theorem ne_contentLength_of_mem (k : Core w) (contentType : CString) (accessToken : Option CString) :
    ∀ header ∈ k.defaultHeaders ++ (headerIf (.lit "content-type") (some contentType) ++
      bearerHeader accessToken), header.1 ≠ ascii "content-length" := by
  have hdefault : ∀ header ∈ k.defaultHeaders, header.1 ≠ ascii "content-length" := by
    simp only [Core.defaultHeaders, List.forall_mem_cons]
    exact ⟨by decide, by decide, by decide, by decide, by simp⟩
  have htype : ∀ header ∈ headerIf (.lit "content-type") (some contentType),
      header.1 ≠ ascii "content-length" := by
    simp only [headerIf, Option.map_some, Option.toList_some, List.forall_mem_cons]
    exact ⟨by decide, by simp⟩
  have htoken : ∀ header ∈ bearerHeader accessToken, header.1 ≠ ascii "content-length" := by
    cases accessToken with
    | none => simp [bearerHeader, headerIf]
    | some token =>
      simp only [bearerHeader, headerIf, Option.map_some, Option.toList_some,
        List.forall_mem_cons]
      exact ⟨by decide, by simp⟩
  rw [List.forall_mem_append, List.forall_mem_append]
  exact ⟨hdefault, htype, htoken⟩

/-- **What is put together declares its body.** -/
theorem declaresBody_assemble {k : Core w} {contentType : CString} {accessToken : Option CString}
    {pieces : List CString} (hpieces : ∀ str ∈ pieces, str.length ≤ 2 ^ (w - 1))
    (hcode : (assemble k contentType accessToken (totalLength pieces) pieces).code = .ok) :
    DeclaresBody (assemble k contentType accessToken (totalLength pieces) pieces).core := by
  have hsent := (assemble_prepares hpieces).sent hcode
  obtain ⟨r, hr, hholds⟩ := holds_assemble hpieces hcode
  rw [hr] at hsent ⊢
  refine ⟨_, _, hsent, ?_, ne_contentLength_of_mem k contentType accessToken, ?_⟩
  · simp [assembled, Core.request, totalLength]
  · rw [Result.http_ready, hholds.bodyPosition, hholds.totalSendSize]
    simp only [Draft.size, Core.draft, List.length_append, assembled, Core.request]
    omega

theorem lt_word_512 : 512 < 2 ^ 63 := by decide

namespace AssembledCall

/-- The length of NULL is taken: there is no thing type, and the request line and the headers
fit. -/
def TakesNullLength (k : Core w) : AssembledCall → Prop
  | registerThingWithId _ _ none =>
    k.room (.lit "POST") (prvSetThingRegisterPath k).httpRequestPath ∧
      (k.draft (.lit "POST") (prvSetThingRegisterPath k).httpRequestPath
        [(ascii "content-type",
          ascii "application/vnd.kii.ThingRegistrationAndAuthorizationRequest+json")] []).size <
        k.bufferSize
  | _ => False

/-- The call runs through, and where it succeeds its message declares its body. -/
def LengthDeclared (k : Core w) (c : AssembledCall) : Prop :=
  ∃ r, c.run k = some r ∧ (r.code = .ok → DeclaresBody r.core)

/-- Without a thing type the call ends at the headers. -/
theorem run_of_null (k : Core w) (vendorThingId password : CString) :
    ((registerThingWithId vendorThingId password none).run k = none ↔
      (registerThingWithId vendorThingId password none).TakesNullLength k) ∧
    ∀ r, (registerThingWithId vendorThingId password none).run k = some r → r.code ≠ .ok := by
  have hhead := (builds_lineAndHeaders (prvSetThingRegisterPath k) (.lit "POST")
    (prvSetThingRegisterPath k).httpRequestPath
    (some (.lit "application/vnd.kii.ThingRegistrationAndAuthorizationRequest+json")) none
    none).isOk_iff
  obtain ⟨r, hr⟩ : ∃ r, r = prvHttpRequestLineAndHeaders (prvSetThingRegisterPath k) (.lit "POST")
    (prvSetThingRegisterPath k).httpRequestPath
    (some (.lit "application/vnd.kii.ThingRegistrationAndAuthorizationRequest+json")) none none :=
    ⟨_, rfl⟩
  have hrun : (registerThingWithId vendorThingId password none).run k =
      if r.isOk then none else some r := by
    rw [hr]
    rfl
  rw [← hr] at hhead
  have hiff : r.isOk = true ↔ (registerThingWithId vendorThingId password none).TakesNullLength k := by
    rw [hhead]
    exact ⟨fun h => ⟨h.1.1, h.2⟩, fun h => ⟨⟨h.1, by simp [TokenTooLong]⟩, h.2⟩⟩
  rw [hrun, ← hiff]
  cases hok : r.isOk with
  | true => simp
  | false =>
    -- the headers did not fit, and their failure is what is returned
    refine ⟨by simp, ?_⟩
    rintro _ ⟨⟩ hcode
    rw [Result.isOk_iff.mpr hcode] at hok
    cases hok

/-- **When the declared length is right**: always but where the length of NULL is taken. -/
theorem lengthDeclared_iff {k : Core w} {c : AssembledCall} (h : c.InMemory w) :
    c.LengthDeclared k ↔ ¬ c.TakesNullLength k := by
  cases c with
  | registerThingWithId vendorThingId password thingType =>
    have hid := h vendorThingId (by simp [arguments])
    have hpassword := h password (by simp [arguments])
    cases thingType with
    | none =>
      -- no such call succeeds, so that nothing is declared
      obtain ⟨hnone, hfail⟩ := run_of_null k vendorThingId password
      rw [← hnone, LengthDeclared]
      cases hrun : (registerThingWithId vendorThingId password none).run k with
      | none => simp
      | some r => simpa using fun hcode => absurd hcode (hfail r hrun)
    | some thingType =>
      have hpieces := length_le_of_mem_registrationBody k hid hpassword
        (h thingType (by simp [arguments]))
      refine iff_of_true ⟨_, registerThingWithId_eq k vendorThingId password thingType, ?_⟩ id
      exact declaresBody_assemble hpieces
  | thingAuthentication vendorThingId password =>
    have hpieces := length_le_of_mem_authenticationBody k
      (h vendorThingId (by simp [arguments])) (h password (by simp [arguments]))
    refine iff_of_true ⟨_, congrArg some (thingAuthentication_eq k vendorThingId password), ?_⟩ id
    exact declaresBody_assemble hpieces
  | installThingPush development =>
    refine iff_of_true ⟨_, congrArg some (installThingPush_eq k development), ?_⟩ id
    exact declaresBody_assemble (length_le_of_mem_installationBody k development)

theorem lengthDeclared_iff_of_device :
    (registerThingWithId (.lit "th") (.lit "pw") (some (.lit "lamp"))).LengthDeclared
      (device 512 lt_word_512) ↔
    ¬ (registerThingWithId (.lit "th") (.lit "pw") (some (.lit "lamp"))).TakesNullLength
      (device 512 lt_word_512) :=
  lengthDeclared_iff (by
    simp only [InMemory, arguments, Option.toList_some, List.forall_mem_cons]
    exact ⟨by decide, by decide, by decide, by simp⟩)

/-- The documented call without a thing type, in a buffer of 512 bytes. -/
theorem lengthDeclared_fails : ¬ (registerThingWithId (.lit "th") (.lit "pw") none).LengthDeclared
    (device 512 lt_word_512) := by
  rintro ⟨r, hr, _⟩
  rw [(run_of_null _ _ _).1.mpr ⟨by decide +kernel, by decide +kernel⟩] at hr
  cases hr

end AssembledCall

end KiiThing

import KiiThing.Core.Assembly
import KiiThing.Lib.Json

/-!
# Credentials in JSON

`kii_core_register_thing_with_id` and `kii_core_thing_authentication` write their arguments between
the quotes of a JSON object as they are. What a server reads there are the arguments exactly when
none of them needs an escape (`survives_iff`); where one does, it can say what it likes
(`survives_fails`).
-/

namespace KiiThing

open Http

variable {w : Nat}

/-- The body of the prepared message: what stands behind the empty line, which begins at
`_body_position`. -/
def Core.preparedBody (k : Core w) : List Byte :=
  (k.http.buffer.bytes.take k.http.totalSendSize).drop (k.http.bodyPosition + CRLF.length)

/-- What was put together is the body. -/
theorem preparedBody_assemble {k : Core w} {contentType : CString} {accessToken : Option CString}
    {pieces : List CString} (hpieces : ∀ str ∈ pieces, str.length ≤ 2 ^ (w - 1))
    (hcode : (assemble k contentType accessToken (totalLength pieces) pieces).code = .ok) :
    (assemble k contentType accessToken (totalLength pieces) pieces).core.preparedBody =
      pieces.flatMap CString.bytes := by
  obtain ⟨r, hr, hholds⟩ := holds_assemble hpieces hcode
  rw [hr, Core.preparedBody, Result.http_ready, hholds.totalSendSize, hholds.text,
    hholds.bodyPosition, Draft.text, List.drop_length_add_append]
  exact List.drop_left

/-! ## The calls -/

/-- A call that sends credentials. -/
inductive CredentialCall where
  | registerThingWithId (vendorThingId password thingType : CString)
  | thingAuthentication (vendorThingId password : CString)

namespace CredentialCall

def call : CredentialCall → AssembledCall
  | registerThingWithId vendorThingId password thingType =>
    .registerThingWithId vendorThingId password (some thingType)
  | thingAuthentication vendorThingId password => .thingAuthentication vendorThingId password

/-- What the object is to hold. -/
def members : CredentialCall → List Json.Member
  | registerThingWithId vendorThingId password thingType =>
    [(ascii "_vendorThingID", vendorThingId.bytes), (ascii "_password", password.bytes),
      (ascii "_thingType", thingType.bytes)]
  | thingAuthentication vendorThingId password =>
    [(ascii "username", ascii "VENDOR_THING_ID:" ++ vendorThingId.bytes),
      (ascii "password", password.bytes)]

/-- The pieces of the body. -/
def body : CredentialCall → List CString
  | registerThingWithId vendorThingId password thingType =>
    registrationBody vendorThingId password thingType
  | thingAuthentication vendorThingId password => authenticationBody vendorThingId password

/-- The body is the object, printed without an escape. -/
theorem bytes_body (c : CredentialCall) : c.body.flatMap CString.bytes = Json.print c.members := by
  cases c with
  | registerThingWithId vendorThingId password thingType =>
    have hid : (CString.lit "\x7b\"_vendorThingID\":\"").bytes =
      Json.openBrace :: Json.quote :: (ascii "_vendorThingID" ++ [Json.quote, Json.colon, Json.quote]) :=
        by decide
    have hpassword : (CString.lit "\",\"_password\":\"").bytes =
      Json.quote :: Json.comma :: Json.quote :: (ascii "_password" ++
        [Json.quote, Json.colon, Json.quote]) := by decide
    have htype : (CString.lit "\",\"_thingType\":\"").bytes =
      Json.quote :: Json.comma :: Json.quote :: (ascii "_thingType" ++
        [Json.quote, Json.colon, Json.quote]) := by decide
    have hclose : (CString.lit "\"\x7d").bytes = [Json.quote, Json.closeBrace] := by decide
    simp [body, registrationBody, hid, hpassword, htype, hclose, members, Json.print,
      Json.printMembers, Json.printMember, Json.printString]
  | thingAuthentication vendorThingId password =>
    have hname : (CString.lit "\x7b\"username\":\"VENDOR_THING_ID:").bytes =
      Json.openBrace :: Json.quote :: (ascii "username" ++ (Json.quote :: Json.colon :: Json.quote ::
        ascii "VENDOR_THING_ID:")) := by decide
    have hpassword : (CString.lit "\",\"password\":\"").bytes =
      Json.quote :: Json.comma :: Json.quote :: (ascii "password" ++
        [Json.quote, Json.colon, Json.quote]) := by decide
    have hclose : (CString.lit "\"\x7d").bytes = [Json.quote, Json.closeBrace] := by decide
    simp [body, authenticationBody, hname, hpassword, hclose, members, Json.print,
      Json.printMembers, Json.printMember, Json.printString]

/-- What a call prepares. -/
theorem preparedBody_eq {k : Core w} {c : CredentialCall} {r : Result ErrorCode w}
    (hmem : c.call.InMemory w) (hrun : c.call.run k = some r) (hok : r.code = .ok) :
    r.core.preparedBody = Json.print c.members := by
  rw [← c.bytes_body]
  cases c with
  | registerThingWithId vendorThingId password thingType =>
    have hpieces := length_le_of_mem_registrationBody k (hmem vendorThingId (by simp [call,
      AssembledCall.arguments])) (hmem password (by simp [call, AssembledCall.arguments]))
        (hmem thingType (by simp [call, AssembledCall.arguments]))
    rw [call, AssembledCall.run, registerThingWithId_eq] at hrun
    cases hrun
    exact preparedBody_assemble hpieces hok
  | thingAuthentication vendorThingId password =>
    have hpieces := length_le_of_mem_authenticationBody k (hmem vendorThingId (by simp [call,
      AssembledCall.arguments])) (hmem password (by simp [call, AssembledCall.arguments]))
    rw [call, AssembledCall.run, thingAuthentication_eq] at hrun
    cases hrun
    exact preparedBody_assemble hpieces hok

/-- No argument needs an escape. -/
def Unescaped (c : CredentialCall) : Prop := ∀ arg ∈ c.call.arguments, Json.Bare arg.bytes

/-- The names and the prefix need none either. -/
theorem unescaped_iff (c : CredentialCall) :
    c.Unescaped ↔ ∀ m ∈ c.members, Json.Bare m.1 ∧ Json.Bare m.2 := by
  cases c with
  | registerThingWithId vendorThingId password thingType =>
    have hid : Json.Bare (ascii "_vendorThingID") := by decide
    have hpassword : Json.Bare (ascii "_password") := by decide
    have htype : Json.Bare (ascii "_thingType") := by decide
    simp [Unescaped, call, AssembledCall.arguments, members, hid, hpassword, htype]
  | thingAuthentication vendorThingId password =>
    have hname : Json.Bare (ascii "username") := by decide
    have hpassword : Json.Bare (ascii "password") := by decide
    have hprefix : Json.Bare (ascii "VENDOR_THING_ID:" ++ vendorThingId.bytes) ↔
      Json.Bare vendorThingId.bytes := Json.bare_ascii_append (by decide)
    simp [Unescaped, call, AssembledCall.arguments, members, hname, hpassword, hprefix]

/-- **When credentials survive**: a server that reads the body finds the members, with the arguments
as their values, if and only if no argument needs an escape. -/
theorem survives_iff {k : Core w} {c : CredentialCall} {r : Result ErrorCode w}
    (hmem : c.call.InMemory w) (hrun : c.call.run k = some r) (hok : r.code = .ok) :
    Json.readObject r.core.preparedBody = some c.members ↔ c.Unescaped := by
  rw [preparedBody_eq hmem hrun hok, Json.readObject_print_iff, unescaped_iff]

/-- An authentication. -/
def login (password : String) : CredentialCall := thingAuthentication (.lit "th") (.lit password)

theorem survives_iff_of_login :
    Json.readObject (kiiCoreThingAuthentication (device 512 lt_word_512) (.lit "th")
      (.lit "pw")).core.preparedBody = some (login "pw").members ↔ (login "pw").Unescaped :=
  survives_iff (by
    simp only [AssembledCall.InMemory, login, call, AssembledCall.arguments, List.forall_mem_cons]
    exact ⟨by decide, by decide, by simp⟩) rfl (by decide +kernel)

/-- A password that names another thing. -/
theorem survives_fails :
    let r := kiiCoreThingAuthentication (device 512 lt_word_512) (.lit "th")
      (.lit "pw\",\"username\":\"VENDOR_THING_ID:other")
    r.code = .ok ∧
    Json.readObject r.core.preparedBody = some
      [(ascii "username", ascii "VENDOR_THING_ID:th"), (ascii "password", ascii "pw"),
        (ascii "username", ascii "VENDOR_THING_ID:other")] ∧
    Json.readObject r.core.preparedBody ≠
      some (login "pw\",\"username\":\"VENDOR_THING_ID:other").members := by
  decide +kernel

end CredentialCall

end KiiThing

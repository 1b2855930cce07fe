import KiiThing.Core.Credentials
import KiiThing.Sdk.Response

/-!
# Credentials, together or not at all

`kii_thing_authenticate` and `kii_thing_register` hand the arrays of the author in use to the JSON
reader. A response that holds only one of the two members is refused, and that one has been copied:
the pair is all old or all new exactly when the reader takes the response, or finds nothing in it
that is not stored already (`together_iff`).
-/

namespace KiiThing

open Http

variable {w : Nat}

/-! ## The JSON reader -/

/-- The member `name`, if it fits into `size` bytes with its terminator. -/
def fitting (member : CString → Option CString) (name : CString) (size : Nat) : Option CString :=
  (member name).filter fun s => s.length < size

/-- What is asked of the JSON reader, which finds the member `member text name` in `text`: it copies
every string that it finds and that fits, and reports no success when a string is missing or too
long. -/
structure CopiesStrings (json : JsonReader) (member : List Byte → CString → Option CString) :
    Prop where
  copied : ∀ text (fields : List (CString × Nat)),
    (json text (fields.map fun f => ⟨f.1, .string f.2⟩)).copied =
      fields.map fun f => (fitting (member text) f.1 f.2).map .string
  refused : ∀ text (fields : List (CString × Nat)),
    (∃ f ∈ fields, fitting (member text) f.1 f.2 = none) →
    (json text (fields.map fun f => ⟨f.1, .string f.2⟩)).success = false

/-! ## The author during an exchange -/

theorem Result.author_ready (r : Result ErrorCode w) : r.ready.core.author = r.core.author := by
  unfold Result.ready
  split <;> rfl

theorem author_takeRead (k : Core w) (data : List Byte) :
    (takeRead k data).2.author = k.author := by
  unfold takeRead
  dsimp only
  split <;> rfl

theorem author_takeResponse (k : Core w) : (takeResponse k).2.author = k.author := by
  unfold takeResponse
  split <;> rfl

theorem author_execute (cbs : Callbacks) (x : Exchange w) :
    (prvKiiHttpExecute cbs x).2.core.author = x.core.author := by
  unfold prvKiiHttpExecute
  split
  · rfl
  · simp only [executeConnect, Exchange.ask]
    split <;> rfl
  · simp only [executeSend, Exchange.ask]
    split <;> rfl
  · simp only [executeRecv, Exchange.ask]
    split
    · exact author_takeRead _ _
    · rfl
    · rfl
  · simp only [executeClose, Exchange.ask]
    split
    · exact author_takeResponse _
    · rfl
    · rfl

theorem kiiCoreRun_author (cbs : Callbacks) (x : Exchange w) :
    (kiiCoreRun cbs x).2.core.author = x.core.author := by
  cases hstate : x.core.state with
  | idle | other _ => rw [kiiCoreRun, hstate]
  | ready => rw [kiiCoreRun, hstate]
  | execute =>
    rw [← author_execute cbs x]
    rcases hexec : prvKiiHttpExecute cbs x with ⟨_ | _ | _, z⟩
    · rw [kiiCoreRun_ok hstate hexec]
    · rw [kiiCoreRun_fail hstate hexec]
    · rw [kiiCoreRun_again hstate hexec]

/-- **A run of the engine leaves the author alone.** -/
theorem runToIdle_author {k : Core w} {cbs : Callbacks} {fuel : Nat} {r : ErrorCode × Exchange w}
    (h : runToIdle cbs fuel k = some r) : r.2.core.author = k.author := by
  obtain ⟨x, hx, rfl, -⟩ := Loop.doWhile_of_invariant (fun x => x.core.author = k.author)
    (fun x hx _ => (kiiCoreRun_author cbs x).trans hx) rfl h
  exact (kiiCoreRun_author cbs x).trans hx

theorem Author.eq_iff {a b : Author} :
    a = b ↔ a.authorId.str = b.authorId.str ∧ a.accessToken.str = b.accessToken.str := by
  obtain ⟨⟨_, _⟩, _, _⟩ := a
  obtain ⟨⟨_, _⟩, _, _⟩ := b
  simp

/-- The value that is returned, the id and the token. -/
def Ending.credentials : Ending Int w → Option (Int × CString × CString)
  | .returned value y _ => some (value, y.core.author.authorId.str, y.core.author.accessToken.str)
  | .nullAccess _ => none

theorem Ending.credentials_eq_some {e : Ending Int w} {value : Int} {authorId accessToken : CString}
    (h : e.credentials = some (value, authorId, accessToken)) :
    ∃ y copied, e = .returned value y copied ∧ y.core.author.authorId.str = authorId ∧
      y.core.author.accessToken.str = accessToken := by
  cases e with
  | returned value y copied =>
    simp only [credentials, Option.some.injEq, Prod.mk.injEq] at h
    obtain ⟨rfl, rfl, rfl⟩ := h
    exact ⟨y, copied, rfl, rfl, rfl⟩
  | nullAccess y => cases h

namespace CredentialCall

/-! ## The calls -/

/-- The call with what it does with the response. -/
def reading : CredentialCall → ReadingCall
  | registerThingWithId vendorThingId password thingType =>
    .thingRegister vendorThingId thingType password
  | thingAuthentication vendorThingId password => .thingAuthenticate vendorThingId password

/-- The member for `author_id`. -/
def idName : CredentialCall → CString
  | registerThingWithId _ _ _ => .lit "_thingID"
  | thingAuthentication _ _ => .lit "id"

/-- The member for `access_token`. -/
def tokenName : CredentialCall → CString
  | registerThingWithId _ _ _ => .lit "_accessToken"
  | thingAuthentication _ _ => .lit "access_token"

/-- The fields, in the order of the function. -/
def fields : CredentialCall → List (CString × Nat)
  | registerThingWithId _ _ _ => [(.lit "_accessToken", 128), (.lit "_thingID", 128)]
  | thingAuthentication _ _ => [(.lit "id", 128), (.lit "access_token", 128)]

/-- What is kept of what was copied. -/
def store (copied : List (Option JsonValue)) (k : Core w) : CredentialCall → Core w
  | registerThingWithId _ _ _ => k.storeAuthor (copied.getD 1 none) (copied.getD 0 none)
  | thingAuthentication _ _ => k.storeAuthor (copied.getD 0 none) (copied.getD 1 none)

/-- The request. -/
def prepare (k : Core w) (c : CredentialCall) : Result ErrorCode w :=
  (c.reading.preparation k).run k

/-- The exchange that ends with a response that is taken. -/
structure Taken (cbs : Callbacks) (fuel : Nat) (k : Core w) (c : CredentialCall) (x : Exchange w) :
    Prop where
  prepared : (c.prepare k).code = .ok
  ran : runToIdle cbs fuel (c.prepare k).core = some (.ok, x)
  success : 200 ≤ x.core.responseCode ∧ x.core.responseCode < 300

/-- The author is the pair of the text. -/
structure TakenFrom (member : CString → Option CString) (c : CredentialCall) (author : Author) :
    Prop where
  authorId : member c.idName = some author.authorId.str
  accessToken : member c.tokenName = some author.accessToken.str

/-- The call has returned, and the pair is that of the response or the one of before. -/
def Together (member : List Byte → CString → Option CString) (c : CredentialCall) (k : Core w) :
    Ending Int w → Prop
  | .returned value y _ =>
    (value = 0 ∧ ∃ p, y.core.responseBody = some p ∧
      c.TakenFrom (member (responseText y.core p).bytes) y.core.author) ∨
    (value = -1 ∧ y.core.author = k.author)
  | .nullAccess _ => False

/-- The reader reports success. -/
def Accepts (json : JsonReader) (text : List Byte) (c : CredentialCall) : Prop :=
  (json text (c.fields.map fun f => ⟨f.1, .string f.2⟩)).success = true

/-- What could be copied is what is stored already. -/
structure Stored (member : CString → Option CString) (c : CredentialCall) (author : Author) :
    Prop where
  authorId : ∀ s ∈ fitting member c.idName 128, s = author.authorId.str
  accessToken : ∀ s ∈ fitting member c.tokenName 128, s = author.accessToken.str

/-! ## What a call is -/

section

variable {cbs : Callbacks} {fuel : Nat} {json : JsonReader}
  {member : List Byte → CString → Option CString} {k : Core w} {c : CredentialCall}

theorem run_eq : c.reading.run cbs fuel json k =
    perform cbs fuel (c.prepare k) (-1) fun x => ifSuccessful x (-1) (readResponse json x (-1) 0
      (c.fields.map fun f => ⟨f.1, .string f.2⟩) fun copied k => c.store copied k) := by
  cases c with
  | registerThingWithId vendorThingId password thingType =>
    rw [prepare, reading, ReadingCall.preparation, Preparation.run,
      registerThingWithId_eq k vendorThingId password thingType, ReadingCall.run, kiiThingRegister,
      registerThingWithId_eq k vendorThingId password thingType]
    rfl
  | thingAuthentication vendorThingId password => rfl

/-- A preparation leaves the author alone, also one that fails. -/
theorem author_prepare (hvalid : (c.reading.preparation k).Valid k) :
    (c.prepare k).core.author = k.author := by
  cases c with
  | registerThingWithId vendorThingId password thingType =>
    have hpieces := length_le_of_mem_registrationBody k hvalid.1 hvalid.2.1 hvalid.2.2
    obtain ⟨r, hr, hbuilds⟩ := exists_builds_assemble (prvSetThingRegisterPath k)
      (.lit "application/vnd.kii.ThingRegistrationAndAuthorizationRequest+json") none hpieces
    rw [prepare, reading, ReadingCall.preparation, Preparation.run, registerThingWithId_eq,
      Option.getD_some, hr, Result.author_ready, hbuilds.frame.author]
    rfl
  | thingAuthentication vendorThingId password =>
    have hpieces := length_le_of_mem_authenticationBody k hvalid.1 hvalid.2
    obtain ⟨r, hr, hbuilds⟩ := exists_builds_assemble (prvSetAuthPath k)
      (.lit "application/json") none hpieces
    rw [prepare, reading, ReadingCall.preparation, Preparation.run, thingAuthentication_eq, hr,
      Result.author_ready, hbuilds.frame.author]
    rfl

/-! ## The look at the response -/

theorem store_responseBody (copied : List (Option JsonValue)) :
    (c.store copied k).responseBody = k.responseBody := by
  cases c <;> rfl

theorem store_responseText (copied : List (Option JsonValue)) (p : Nat) :
    responseText (c.store copied k) p = responseText k p := by
  cases c <;> rfl

theorem str_store {n : Nat} (a : CharArray n) (str? : Option CString)
    (h : ∀ s ∈ str?, s.length < n) : (a.store (str?.map .string)).str = str?.getD a.str := by
  cases str? with
  | none => rfl
  | some s =>
    rw [Option.map_some, CharArray.store, dif_pos (h s rfl)]
    rfl

theorem length_lt_of_mem_fitting {find : CString → Option CString} {name s : CString} {size : Nat}
    (h : s ∈ fitting find name size) : s.length < size := by
  have hfilter := Option.filter_eq_some_iff.mp (Option.mem_def.mp h)
  simpa using hfilter.2

/-- What the reader has copied is kept, each of the two for itself. -/
theorem author_store (find : CString → Option CString) :
    ((c.store (c.fields.map fun f => (fitting find f.1 f.2).map .string) k).author.authorId.str =
      (fitting find c.idName 128).getD k.author.authorId.str) ∧
    (c.store (c.fields.map fun f => (fitting find f.1 f.2).map .string) k).author.accessToken.str =
      (fitting find c.tokenName 128).getD k.author.accessToken.str := by
  have hstr : ∀ (a : CharArray 128) name, (a.store ((fitting find name 128).map .string)).str =
      (fitting find name 128).getD a.str :=
    fun a name => str_store a _ fun s hs => length_lt_of_mem_fitting hs
  cases c with
  | registerThingWithId vendorThingId password thingType => exact ⟨hstr _ _, hstr _ _⟩
  | thingAuthentication vendorThingId password => exact ⟨hstr _ _, hstr _ _⟩

theorem mem_fields (c : CredentialCall) :
    (c.idName, 128) ∈ c.fields ∧ (c.tokenName, 128) ∈ c.fields := by
  cases c <;> simp [fields, idName, tokenName]

/-- With success both members have been found, and are the pair now. -/
theorem takenFrom_of_accepts (hread : CopiesStrings json member) {text : List Byte}
    (h : c.Accepts json text) :
    c.TakenFrom (member text) (c.store (c.fields.map fun f =>
      (fitting (member text) f.1 f.2).map .string) k).author := by
  have hfound : ∀ f ∈ c.fields, ∃ s, fitting (member text) f.1 f.2 = some s := by
    intro f hf
    refine Option.ne_none_iff_exists'.mp fun hnone => ?_
    rw [Accepts, hread.refused text c.fields ⟨f, hf, hnone⟩] at h
    cases h
  have hmember : ∀ {name s}, fitting (member text) name 128 = some s → member text name = some s :=
    fun h => (Option.filter_eq_some_iff.mp h).1
  obtain ⟨i, hi⟩ := hfound _ c.mem_fields.1
  obtain ⟨t, ht⟩ := hfound _ c.mem_fields.2
  obtain ⟨hid, htoken⟩ := c.author_store (k := k) (member text)
  rw [hi, Option.getD_some] at hid
  rw [ht, Option.getD_some] at htoken
  exact ⟨by rw [hid, hmember hi], by rw [htoken, hmember ht]⟩

/-- The pair is the one of before exactly when nothing else was copied. -/
theorem author_store_eq_iff (find : CString → Option CString) :
    (c.store (c.fields.map fun f => (fitting find f.1 f.2).map .string) k).author = k.author ↔
      c.Stored find k.author := by
  have hgetD : ∀ (o : Option CString) a, o.getD a = a ↔ ∀ s ∈ o, s = a := by
    rintro (_ | s) a <;> simp
  obtain ⟨hid, htoken⟩ := c.author_store (k := k) find
  rw [Author.eq_iff, hid, htoken, hgetD, hgetD]
  exact ⟨fun h => ⟨h.1, h.2⟩, fun h => ⟨h.1, h.2⟩⟩

/-- **The look at the response.** -/
theorem together_readResponse_iff (hread : CopiesStrings json member) {x : Exchange w}
    (hx : x.core.author = k.author) :
    c.Together member k (readResponse json x (-1) 0
      (c.fields.map fun f => ⟨f.1, .string f.2⟩) fun copied k => c.store copied k) ↔
    ∃ p, x.core.responseBody = some p ∧ (c.Accepts json (responseText x.core p).bytes ∨
      c.Stored (member (responseText x.core p).bytes) k.author) := by
  cases hbody : x.core.responseBody with
  | none =>
    rw [readResponse_of_none hbody]
    simp [Together]
  | some p =>
    obtain ⟨text, htext⟩ : ∃ text, text = (responseText x.core p).bytes := ⟨_, rfl⟩
    have hiff := author_store_eq_iff (k := x.core) (c := c) (member text)
    rw [hx] at hiff
    rw [readResponse, hbody]
    dsimp only
    rw [hread.copied, ← htext]
    cases hsuccess : (json text (c.fields.map fun f => ⟨f.1, .string f.2⟩)).success with
    | true =>
      refine iff_of_true (.inl ⟨rfl, p, ?_, ?_⟩) ⟨p, rfl, .inl ?_⟩
      · exact (c.store_responseBody _).trans hbody
      · dsimp only
        rw [store_responseText, ← htext]
        exact takenFrom_of_accepts hread hsuccess
      · rw [← htext]
        exact hsuccess
    | false =>
      have hnot : ¬ c.Accepts json text := by
        rw [Accepts, hsuccess]
        exact Bool.false_ne_true
      simp [Together, ← htext, hnot, hiff]

/-- The response that a call takes is the only one. -/
theorem Taken.unique {x y : Exchange w} (hx : c.Taken cbs fuel k x) (hy : c.Taken cbs fuel k y) :
    y = x := by
  have heq := hy.ran.symm.trans hx.ran
  simpa using heq

/-- A call fails with the author of before, or it looks at the response that it takes. -/
theorem run_cases (hvalid : (c.reading.preparation k).Valid k) {e : Ending Int w}
    (hend : c.reading.run cbs fuel json k = some e) :
    (∃ y, e = .returned (-1) y [] ∧ y.core.author = k.author ∧ ∀ x, ¬ c.Taken cbs fuel k x) ∨
    ∃ x, c.Taken cbs fuel k x ∧ x.core.author = k.author ∧
      e = readResponse json x (-1) 0 (c.fields.map fun f => ⟨f.1, .string f.2⟩)
        fun copied k => c.store copied k := by
  have hprepared := author_prepare hvalid
  rw [run_eq] at hend
  rcases perform_cases hend with ⟨hfail, rfl⟩ | ⟨code, x, hok, hrun, rfl⟩
  · exact .inl ⟨_, rfl, hprepared, fun x hx => hfail hx.prepared⟩
  · have hx : x.core.author = k.author := (runToIdle_author hrun).trans hprepared
    have hran : ∀ y, c.Taken cbs fuel k y → code = .ok ∧ y = x := by
      intro y hy
      have heq := hy.ran.symm.trans hrun
      simp only [Option.some.injEq, Prod.mk.injEq] at heq
      exact ⟨heq.1.symm, heq.2⟩
    split
    · next hcode =>
      subst hcode
      rw [ifSuccessful]
      split
      · next hstatus =>
        refine .inl ⟨x, rfl, hx, fun y hy => ?_⟩
        obtain ⟨-, rfl⟩ := hran y hy
        have := hy.success
        omega
      · next hstatus => exact .inr ⟨x, ⟨hok, hrun, by omega⟩, hx, rfl⟩
    · next hcode => exact .inl ⟨x, rfl, hx, fun y hy => hcode (hran y hy).1⟩

/-- **When the credentials are replaced together or not at all**: the reader takes the response that
was taken, or finds nothing in it that is not stored already. -/
theorem together_iff (hread : CopiesStrings json member)
    (hvalid : (c.reading.preparation k).Valid k) {e : Ending Int w}
    (hend : c.reading.run cbs fuel json k = some e) :
    c.Together member k e ↔ ∀ x, c.Taken cbs fuel k x →
      ∃ p, x.core.responseBody = some p ∧ (c.Accepts json (responseText x.core p).bytes ∨
        c.Stored (member (responseText x.core p).bytes) k.author) := by
  rcases run_cases hvalid hend with ⟨y, rfl, hy, hnone⟩ | ⟨x, hx, hauthor, rfl⟩
  · exact iff_of_true (.inr ⟨rfl, hy⟩) fun x hx => absurd hx (hnone x)
  · rw [together_readResponse_iff hread hauthor]
    constructor
    · intro h y hy
      rwa [hx.unique hy]
    · exact fun h => h x hx

end

/-! ## A reader of JSON objects -/

/-- The first member of that name in an object whose members are strings. -/
def stringMember (text : List Byte) (name : CString) : Option CString :=
  ((Json.readObject text).bind fun ms => ms.lookup name.bytes).map .ofArray

/-- The reader that finds these: it copies what fits, and reports success when nothing is left
out. -/
def readStrings : JsonReader := fun text fields =>
  let copied := fields.map fun f => match f.type with
    | .string size => (fitting (stringMember text) f.name size).map .string
    | _ => none
  ⟨copied.all Option.isSome, copied⟩

theorem copiesStrings_readStrings : CopiesStrings readStrings stringMember where
  copied := by
    intro text fields
    simp only [readStrings, List.map_map]
    rfl
  refused := by
    rintro text fields ⟨f, hf, hnone⟩
    simp only [readStrings, List.map_map, List.all_map, List.all_eq_false]
    exact ⟨f, hf, by simp [hnone]⟩

/-- A response with an id and a token. -/
def newPair : List Byte :=
  ascii "HTTP/1.1 200 OK\r\n\r\n\x7b\"id\":\"new\",\"access_token\":\"other\"\x7d"

/-- A response with an id and without a token. -/
def newId : List Byte := ascii "HTTP/1.1 200 OK\r\n\r\n\x7b\"id\":\"new\"\x7d"

/-- An authentication of a thing that has been authenticated before, and its response. -/
def authenticateAgain (response : List Byte) : Option (Ending Int 64) :=
  (login "pw").reading.run (serving [response]) 20 readStrings (deviceWithToken 300 lt_word_300)

theorem authenticateAgain_valid :
    ((login "pw").reading.preparation (deviceWithToken 300)).Valid (deviceWithToken 300) := by
  constructor <;> decide

theorem together_iff_of_authenticateAgain :
    ∃ e, authenticateAgain newPair = some e ∧
      e.credentials = some (0, .lit "new", .lit "other") ∧
      ((login "pw").Together stringMember (deviceWithToken 300) e ↔
        ∀ x, (login "pw").Taken (serving [newPair]) 20 (deviceWithToken 300) x →
          ∃ p, x.core.responseBody = some p ∧
            ((login "pw").Accepts readStrings (responseText x.core p).bytes ∨
              (login "pw").Stored (stringMember (responseText x.core p).bytes)
                (deviceWithToken 300).author)) := by
  have hrun : (authenticateAgain newPair).bind Ending.credentials =
      some (0, .lit "new", .lit "other") := by decide +kernel
  obtain ⟨e, he, hcredentials⟩ := Option.bind_eq_some_iff.mp hrun
  exact ⟨e, he, hcredentials,
    together_iff copiesStrings_readStrings authenticateAgain_valid he⟩

/-- A response with an id and without a token: the new id stands beside the old token, and the call
has failed. -/
theorem together_fails : CopiesStrings readStrings stringMember ∧
    ((login "pw").reading.preparation (deviceWithToken 300)).Valid (deviceWithToken 300) ∧
    ∃ e, authenticateAgain newId = some e ∧
      e.credentials = some (-1, .lit "new", .lit "token") ∧
      ¬ (login "pw").Together stringMember (deviceWithToken 300) e := by
  have hrun : (authenticateAgain newId).bind Ending.credentials =
      some (-1, .lit "new", .lit "token") := by decide +kernel
  obtain ⟨e, he, hcredentials⟩ := Option.bind_eq_some_iff.mp hrun
  refine ⟨copiesStrings_readStrings, authenticateAgain_valid, e, he, hcredentials, ?_⟩
  obtain ⟨y, copied, rfl, hid, -⟩ := Ending.credentials_eq_some hcredentials
  rintro (⟨hzero, -⟩ | ⟨-, hsame⟩)
  · exact absurd hzero (by decide)
  · rw [hsame] at hid
    exact absurd hid (by decide)

end CredentialCall

end KiiThing

import KiiThing.Core.Request

/-!
# What the preparations write

`Core.request` is the message that an SDK object sends, `Core.draft` the same message under
construction. For each part of the preparation functions there is one lemma: the request line with
the default headers (`builds_requestHead`), an optional header (`adds_setHeaderIf`), all headers
(`builds_lineAndHeaders`), the end of a request (`adds_setBody`). `Prepares` is what comes of it: the
message is in the buffer, or the call has failed.
-/

namespace KiiThing

open Http

variable {w : Nat}

/-- A header as a pair of texts. -/
abbrev Header := List Byte × List Byte

/-- The headers of every request. -/
def Core.defaultHeaders (k : Core w) : List Header :=
  [(ascii "host", k.appHost.bytes), (ascii "x-kii-appid", k.appId.bytes),
    (ascii "x-kii-appkey", k.appKey.bytes), (ascii "x-kii-sdk", k.sdkInfo.bytes)]

/-- The message with the default headers and further ones. -/
def Core.request (k : Core w) (method path : CString) (headers : List Header)
    (body : List Byte) : Request where
  method := method.bytes
  host := (k.hostStr k.appHost).bytes
  path := path.bytes
  headers := k.defaultHeaders ++ headers
  body := body

/-- The message while it is written: up to the headers so far, and what stands behind them. -/
def Core.draft (k : Core w) (method path : CString) (headers : List Header) (tail : List Byte) :
    Draft :=
  ⟨Request.line method.bytes (k.hostStr k.appHost).bytes path.bytes ++
    Request.fields (k.defaultHeaders ++ headers), tail⟩

/-- The check of the request line. -/
def Core.room (k : Core w) (method path : CString) : Prop :=
  method.length + k.appHost.length + path.length + 21 < k.bufferSize

instance (k : Core w) (method path : CString) : Decidable (k.room method path) :=
  inferInstanceAs (Decidable (_ < _))

theorem Core.draft_add (k : Core w) (method path : CString) (headers headers' : List Header)
    (tail tail' : List Byte) :
    (k.draft method path headers tail).add (Request.fields headers') tail' =
      k.draft method path (headers ++ headers') (tail ++ tail') := by
  simp [Core.draft, Draft.add]

theorem Core.draft_add_tail (k : Core w) (method path : CString) (headers : List Header)
    (tail tail' : List Byte) : (k.draft method path headers tail).add [] tail' =
      k.draft method path headers (tail ++ tail') := by
  simp [Core.draft, Draft.add]

/-- A draft with its empty line is the message. -/
theorem Core.text_draft (k : Core w) (method path : CString) (headers : List Header)
    (body : List Byte) : (k.draft method path headers (CRLF ++ body)).text =
      (k.request method path headers body).bytes := by
  simp [Core.draft, Draft.text, Core.request, Request.bytes]

theorem Core.size_draft (k : Core w) (method path : CString) (headers : List Header)
    (tail : List Byte) : (k.draft method path headers tail).size =
      method.length + (k.hostStr k.appHost).length + path.length + 21 +
        (Request.fields k.defaultHeaders).length + (Request.fields headers).length +
          tail.length := by
  simp only [Draft.size, Core.draft, List.length_append, Request.fields_append,
    Request.length_line, CString.length]
  omega

/-! ## Headers -/

/-- A header that is there when its value is. -/
def headerIf (key : CString) (value : Option CString) : List Header :=
  (value.map fun value => (key.bytes, value.bytes)).toList

/-- The authorization header. -/
def bearerHeader (accessToken : Option CString) : List Header :=
  headerIf (.lit "authorization") (accessToken.map (.lit "bearer " ++ ·))

theorem adds_setHeaderIf (k₀ : Core w) (key : CString) (value : Option CString) :
    Adds k₀ (setHeaderIf · key value) (Request.fields (headerIf key value)) [] := by
  cases value with
  | none => exact Adds.pure rfl
  | some value =>
    have h := adds_setHeader k₀ key value
    simpa [headerIf, setHeaderIf] using h

/-- A header whose value is a field of the object that no preparation touches. -/
theorem adds_setHeader_field (k₀ : Core w) (key : CString) {value : Core w → CString}
    (h : ∀ k, Frame k₀ k → value k = value k₀) :
    Adds k₀ (fun k => prvKiiHttpSetHeader k key (value k)) (field key.bytes (value k₀).bytes) [] := by
  apply (adds_setHeader k₀ key (value k₀)).congr
  intro k hk
  rw [h k hk]

theorem adds_setKiiDefaultHeader (k₀ : Core w) :
    Adds k₀ prvSetKiiDefaultHeader (Request.fields k₀.defaultHeaders) [] := by
  have hhost := adds_setHeader_field k₀ (.lit "host") fun _ hk => hk.appHost
  have hid := adds_setHeader_field k₀ (.lit "x-kii-appid") fun _ hk => hk.appId
  have hkey := adds_setHeader_field k₀ (.lit "x-kii-appkey") fun _ hk => hk.appKey
  have hsdk := adds_setHeader_field k₀ (.lit "x-kii-sdk") fun _ hk => hk.sdkInfo
  have hfields : Request.fields k₀.defaultHeaders = field (ascii "host") k₀.appHost.bytes ++
      (field (ascii "x-kii-appid") k₀.appId.bytes ++ (field (ascii "x-kii-appkey") k₀.appKey.bytes ++
        field (ascii "x-kii-sdk") k₀.sdkInfo.bytes)) := by
    simp [Core.defaultHeaders]
  rw [hfields]
  exact hhost.next (hid.next (hkey.next hsdk))

/-- **Request line and default headers.** The request line itself may be longer than what its check
allows for, when `normalizer_host` is longer than `app_host`; the first header then finds no room. -/
theorem builds_requestHead (k : Core w) (method path : CString) :
    Builds k ((prvKiiHttpSetRequestLine k method path).next prvSetKiiDefaultHeader)
      (k.room method path) (k.draft method path [] []) := by
  have hadds := adds_setKiiDefaultHeader k
  have hdraft : k.draft method path [] [] =
      (⟨Request.line method.bytes (k.hostStr k.appHost).bytes path.bytes, []⟩ : Draft).add
        (Request.fields k.defaultHeaders) [] := by
    simp [Core.draft, Draft.add]
  rw [hdraft]
  by_cases hroom : k.room method path
  · have hline := setRequestLine_of_lt hroom
    have hframe : Frame k (prvKiiHttpSetRequestLine k method path).core := by
      rw [hline]
      exact ⟨by simp [Core.bufferSize], rfl⟩
    have hok : (prvKiiHttpSetRequestLine k method path).isOk = true := by rw [hline]; rfl
    by_cases hfit : (Request.line method.bytes (k.hostStr k.appHost).bytes path.bytes).length <
        k.bufferSize
    · refine Builds.next ⟨hframe, ?_, fun _ => holds_setRequestLine hroom hfit⟩ hadds
      simpa [hok, hroom, Draft.size] using hfit
    · have hfail : (prvKiiHttpSetHeader (prvKiiHttpSetRequestLine k method path).core (.lit "host")
          (prvKiiHttpSetRequestLine k method path).core.appHost).isOk = false := by
        rw [setHeader_of_ge]
        · rfl
        · rw [hframe.size, hline]
          exact Nat.le_trans (Nat.not_lt.mp hfit) (Nat.le_add_left ..)
      rw [Result.next_of_isOk hok]
      have hnot : (prvSetKiiDefaultHeader (prvKiiHttpSetRequestLine k method path).core).isOk =
          false := by
        rw [prvSetKiiDefaultHeader, Result.next_of_not_isOk hfail]
        rfl
      refine ⟨hadds.frame _ hframe, ?_, fun h => absurd h (by simp [hnot])⟩
      rw [hnot, Draft.size_add]
      simp only [Draft.size, List.length_nil, Bool.false_eq_true, false_iff, not_and]
      omega
  · have hline := setRequestLine_of_ge (Nat.not_lt.mp hroom)
    have hnot : ((prvKiiHttpSetRequestLine k method path).next prvSetKiiDefaultHeader).isOk =
        false := by
      rw [hline]
      rfl
    refine ⟨?_, ?_, fun h => absurd h (by simp [hnot])⟩
    · rw [hline]
      exact ⟨by simp [Core.bufferSize, Result.next, Result.isOk, ReturnCode.isOk], rfl⟩
    · simp [hnot, hroom]

/-- The token does not fit the array its header is printed into. -/
def TokenTooLong (accessToken : Option CString) : Prop :=
  ∃ token ∈ accessToken, 128 ≤ token.length + 7

instance (accessToken : Option CString) : Decidable (TokenTooLong accessToken) :=
  match accessToken with
  | none => isFalse (by rintro ⟨_, ⟨⟩, _⟩)
  | some token => decidable_of_iff (128 ≤ token.length + 7) ⟨fun h => ⟨token, rfl, h⟩,
      by rintro ⟨_, ⟨⟩, h⟩; exact h⟩

theorem setBearer_eq (k : Core w) (accessToken : Option CString) :
    setBearer k accessToken = if TokenTooLong accessToken then ⟨ReturnCode.fail, k⟩
      else setHeaderIf k (.lit "authorization") (accessToken.map (.lit "bearer " ++ ·)) := by
  cases accessToken with
  | none => rw [if_neg (by rintro ⟨_, ⟨⟩, _⟩)]; rfl
  | some token =>
    have hiff : TokenTooLong (some token) ↔ 128 ≤ token.length + 7 := by
      refine ⟨?_, fun h => ⟨token, rfl, h⟩⟩
      rintro ⟨_, ⟨⟩, h⟩
      exact h
    simp only [hiff]
    rfl

/-- **Request line and headers.** -/
theorem builds_lineAndHeaders (k : Core w) (method path : CString)
    (contentType accessToken etag : Option CString) :
    Builds k (prvHttpRequestLineAndHeaders k method path contentType accessToken etag)
      (k.room method path ∧ ¬ TokenTooLong accessToken)
      (k.draft method path (headerIf (.lit "content-type") contentType ++
        (bearerHeader accessToken ++ headerIf (.lit "if-match") etag)) []) := by
  have hhead := (builds_requestHead k method path).next
    (adds_setHeaderIf k (.lit "content-type") contentType)
  have hauth := hhead.next_guard (c := TokenTooLong accessToken)
    (adds_setHeaderIf k (.lit "authorization") (accessToken.map (.lit "bearer " ++ ·)))
  have hetag := (hauth.next (adds_setHeaderIf k (.lit "if-match") etag)).next
    (Adds.pure (c := ErrorCode.ok) rfl)
  simp only [← setBearer_eq, Result.next_assoc, Core.draft_add, Core.draft_add_tail,
    List.append_nil, List.nil_append, List.append_assoc] at hetag
  exact hetag

/-! ## READY -/

theorem Result.isOk_ready (r : Result ErrorCode w) : r.ready.isOk = r.isOk := by
  unfold Result.ready
  split <;> rfl

theorem Result.http_ready (r : Result ErrorCode w) : r.ready.core.http = r.core.http := by
  unfold Result.ready
  split <;> rfl

theorem Result.responseBodyLength_ready (r : Result ErrorCode w) :
    r.ready.core.responseBodyLength = r.core.responseBodyLength := by
  unfold Result.ready
  split <;> rfl

theorem Result.httpRequestPath_ready (r : Result ErrorCode w) :
    r.ready.core.httpRequestPath = r.core.httpRequestPath := by
  unfold Result.ready
  split <;> rfl

/-- A preparation that fails leaves the state as it was. -/
theorem Result.state_ready (r : Result ErrorCode w) :
    r.ready.core.state = if r.isOk then .ready else r.core.state := by
  unfold Result.ready
  split <;> rfl

/-- The last statement of a preparation, as `Result.ready`. -/
theorem Result.next_ready {γ : Type} [ReturnCode γ] (r : Result γ w) :
    (r.next fun k => (⟨.ok, { k with state := .ready }⟩ : Result ErrorCode w)) =
      (r.next fun k => (⟨.ok, k⟩ : Result ErrorCode w)).ready := by
  rcases hok : r.isOk with _ | _
  · rw [Result.next_of_not_isOk hok, Result.next_of_not_isOk hok]
    rfl
  · rw [Result.next_of_isOk hok, Result.next_of_isOk hok]
    rfl

/-- The result of a preparation of the message `req`: it succeeds when the message fits and the
checks `room` hold, and then the buffer holds the message and the object is READY. -/
structure Prepares (k : Core w) (r : Result ErrorCode w) (room : Prop) (req : Request) : Prop where
  ok_iff : r.code = .ok ↔ room ∧ req.bytes.length < k.bufferSize
  totalSendSize : r.code = .ok → r.core.http.totalSendSize = req.bytes.length
  text : r.code = .ok → r.core.http.buffer.bytes.take req.bytes.length = req.bytes
  idle : r.code = .ok → r.core.http.socketState = .idle
  ready : r.code = .ok → r.core.state = .ready
  host : r.code = .ok → r.core.hostStr r.core.http.host = k.hostStr k.appHost
  size : r.core.bufferSize = k.bufferSize
  responseBodyLength : r.core.responseBodyLength = k.responseBodyLength

theorem Builds.ready {k : Core w} {r : Result ErrorCode w} {room : Prop} {method path : CString}
    {headers : List Header} {body : List Byte}
    (h : Builds k r room (k.draft method path headers (CRLF ++ body))) :
    Prepares k r.ready room (k.request method path headers body) := by
  have hok : r.ready.code = .ok ↔ r.isOk = true := by rw [← Result.isOk_iff, Result.isOk_ready]
  have htext := k.text_draft method path headers body
  have hsize : (k.draft method path headers (CRLF ++ body)).size =
      (k.request method path headers body).bytes.length := by rw [← Draft.length_text, htext]
  refine ⟨by rw [hok, h.isOk_iff, hsize], ?_, ?_, ?_, ?_, ?_, ?_, ?_⟩
  · intro hcode
    rw [Result.http_ready, (h.holds (hok.mp hcode)).totalSendSize, hsize]
  · intro hcode
    rw [Result.http_ready, ← hsize, (h.holds (hok.mp hcode)).text, htext]
  · intro hcode
    rw [Result.http_ready]
    exact (h.holds (hok.mp hcode)).idle
  · intro hcode
    rw [Result.state_ready, if_pos (hok.mp hcode)]
  · intro hcode
    rw [Core.hostStr, Core.hostStr, Result.http_ready, (h.holds (hok.mp hcode)).host,
      h.frame.appHost, h.frame.normalizerHost]
  · rw [Core.bufferSize, Result.http_ready]
    exact h.frame.size
  · rw [Result.responseBodyLength_ready]
    exact h.frame.responseBodyLength

/-- What does not fit leaves the state as it was. -/
theorem Builds.refused {k : Core w} {r : Result ErrorCode w} {room : Prop} {d : Draft}
    (h : Builds k r room d) (hcode : r.ready.code ≠ .ok) : r.ready.core.state = k.state := by
  have hok : ¬ r.isOk = true := by rwa [← Result.isOk_ready, Result.isOk_iff]
  rw [Result.state_ready, if_neg hok, h.frame.state]

/-- A preparation begins with printing its path. -/
theorem Prepares.of_setPath {k : Core w} {path : CString} {r : Result ErrorCode w} {room : Prop}
    {req : Request} (h : Prepares (k.setPath path) r room req) : Prepares k r room req :=
  ⟨h.ok_iff, h.totalSendSize, h.text, h.idle, h.ready, h.host, h.size,
    h.responseBodyLength⟩

/-- With the preparation of a message, the buffer holds it up to `total_send_size`. -/
theorem Prepares.sent {k : Core w} {r : Result ErrorCode w} {room : Prop} {req : Request}
    (h : Prepares k r room req) (hcode : r.code = .ok) :
    r.core.http.buffer.bytes.take r.core.http.totalSendSize = req.bytes := by
  rw [h.totalSendSize hcode, h.text hcode]

/-! ## Bodies -/

/-- The header that goes with a body. -/
def contentLengthHeader (n : Nat) : Header := (ascii "content-length", Decimal.text n)

/-- The headers and the bytes of a body: none, or the first `bodyLen` bytes of an object. -/
def bodyHeaders (body : Option (List Byte)) (bodyLen : Nat) : List Header :=
  (body.map fun _ => contentLengthHeader bodyLen).toList

def bodyBytes (body : Option (List Byte)) (bodyLen : Nat) : List Byte :=
  (body.getD []).take bodyLen

/-- **The end of a request.** -/
theorem adds_setBody (k₀ : Core w) {body : Option (List Byte)} {bodyLen : Nat}
    (h : Readable w body bodyLen) :
    Adds k₀ (setBody · body bodyLen) (Request.fields (bodyHeaders body bodyLen))
      (CRLF ++ bodyBytes body bodyLen) := by
  have hend : Adds k₀ (fun k => (⟨.ok, k⟩ : Result HttpCode w)) [] [] := Adds.pure rfl
  cases body with
  | none =>
    have hadds := (adds_appendBodyStart k₀).next (hend.next (Adds.pure (c := ErrorCode.ok) rfl))
    exact Adds.of_eq (f := (setBody · none bodyLen)) hadds rfl (by simp [bodyBytes])
  | some body =>
    have hadds := (adds_setHeader k₀ (.lit "content-length") (prvContentLengthStr bodyLen)).next
      ((adds_appendBodyStart k₀).next ((adds_appendBody k₀ h).next
        (hend.next (Adds.pure (c := ErrorCode.ok) rfl))))
    refine Adds.of_eq (f := (setBody · (some body) bodyLen)) hadds ?_ ?_
    · rw [bodyHeaders, Option.map_some, Option.toList_some, Request.fields_cons]
      rfl
    · simp [bodyBytes]

/-- The pieces of a body. -/
theorem adds_appendStrs (k₀ : Core w) {strs : List CString}
    (h : ∀ str ∈ strs, str.length ≤ 2 ^ (w - 1)) :
    Adds k₀ (appendStrs · strs) [] (strs.flatMap CString.bytes) := by
  induction strs with
  | nil => exact Adds.pure rfl
  | cons str strs ih =>
    have hread : Readable w (some str.bytes) str.length := by
      rintro bs ⟨⟩
      exact ⟨Nat.le_refl _, h str List.mem_cons_self⟩
    have hadds := (adds_appendBody k₀ hread).next (ih fun s hs => h s (List.mem_cons_of_mem _ hs))
    rw [show str.bytes.take str.length = str.bytes from List.take_length] at hadds
    rw [List.flatMap_cons]
    exact hadds

end KiiThing

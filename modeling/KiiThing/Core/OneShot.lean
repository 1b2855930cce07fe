import KiiThing.Core.Headers
import KiiThing.Core.Authorization

/-!
# One call or many

The same request, made with `kii_core_api_call` and with `kii_core_api_call_start`, the calls that
append to it, and `kii_core_api_call_end`. The first writes the content-length header in front of the
empty line, the second splices it in behind the whole body (`composeAll_cases`). Both write the same
bytes, and fail for the same sizes of the buffer, but for the empty body: the one call announces it
with `content-length:0`, the others do not announce it at all (`oneShot_agrees`).
-/

namespace KiiThing

open Http

variable {w : Nat}

/-! ## Appending until a call fails -/

/-- Make the calls in order, as far as they succeed. -/
def appendAll (k : Core w) : List Append → Result ErrorCode w
  | [] => ⟨.ok, k⟩
  | a :: as => (a.run k).next (appendAll · as)

/-- Start, the calls `as`, and end. -/
def composeAll (k : Core w) (s : Start) (as : List Append) : Result ErrorCode w :=
  (s.run k).next fun k => (appendAll k as).next kiiCoreApiCallEnd

/-- The call has something to add. -/
def Append.Present : Append → Prop
  | header _ _ => True
  | body data _ => data ≠ none

theorem Append.fits_iff {k : Core w} {d : Draft} {a : Append} :
    a.Fits k d ↔
      a.Present ∧ d.size + (Request.fields a.headers).length + a.bytes.length < k.bufferSize := by
  cases a <;> exact Iff.rfl

/-- **What the calls come to**: all parts are added when they fit together, and else a call fails. -/
theorem appendAll_cases {k : Core w} {d : Draft} {n : Nat} {as : List Append} (h : Composed k d n)
    (has : ∀ a ∈ as, a.Valid w ∧ a.Present) :
    ((d.add (Request.fields (as.flatMap Append.headers)) (as.flatMap Append.bytes)).size <
        k.bufferSize ∧
      (appendAll k as).isOk = true ∧ Composing k (appendAll k as).core ∧
      Composed (appendAll k as).core
        (d.add (Request.fields (as.flatMap Append.headers)) (as.flatMap Append.bytes))
        (n + (as.flatMap Append.bytes).length)) ∨
    (k.bufferSize ≤
        (d.add (Request.fields (as.flatMap Append.headers)) (as.flatMap Append.bytes)).size ∧
      (appendAll k as).isOk = false) := by
  induction as generalizing k d n with
  | nil =>
    have hnil : d.add (Request.fields ([].flatMap Append.headers)) ([].flatMap Append.bytes) = d := by
      simp [Draft.add]
    rw [hnil]
    exact Or.inl ⟨h.holds.fits, rfl, Composing.refl k, h⟩
  | cons a as ih =>
    obtain ⟨hvalid, hpresent⟩ := has a List.mem_cons_self
    have has' : ∀ b ∈ as, b.Valid w ∧ b.Present := fun b hb => has b (List.mem_cons_of_mem _ hb)
    have hadd : d.add (Request.fields ((a :: as).flatMap Append.headers))
          ((a :: as).flatMap Append.bytes) =
        (d.add (Request.fields a.headers) a.bytes).add
          (Request.fields (as.flatMap Append.headers)) (as.flatMap Append.bytes) := by
      rw [Draft.add_add, List.flatMap_cons, List.flatMap_cons, Request.fields_append]
    have hcount : n + ((a :: as).flatMap Append.bytes).length =
        n + a.bytes.length + (as.flatMap Append.bytes).length := by
      rw [List.flatMap_cons, List.length_append, Nat.add_assoc]
    rw [hadd, hcount, appendAll]
    rcases Append.run_cases h hvalid with ⟨_, hok, hframe, hd⟩ | ⟨hno, hfail, _⟩
    · rw [Result.next_of_isOk hok, ← hframe.size]
      rcases ih hd has' with ⟨hlt, hok', hframe', hd'⟩ | hrefused
      · exact Or.inl ⟨hlt, hok', hframe.trans hframe', hd'⟩
      · exact Or.inr hrefused
    · right
      rw [Result.next_of_not_isOk hfail]
      refine ⟨?_, rfl⟩
      have hge : ¬ d.size + (Request.fields a.headers).length + a.bytes.length < k.bufferSize :=
        fun hlt => hno (Append.fits_iff.mpr ⟨hpresent, hlt⟩)
      rw [Draft.size_add, Draft.size_add]
      omega

/-! ## The whole sequence -/

/-- The message that the calls `as` compose when all of them succeed. -/
def composed (k : Core w) (s : Start) (as : List Append) : Request :=
  k.request s.httpMethod s.resourcePath
    (startHeaders k s.contentType s.setAuthenticationHeader ++ as.flatMap Append.headers ++
      lengthHeaderIf (as.flatMap Append.bytes).length)
    (as.flatMap Append.bytes)

/-- The bytes that a preparation leaves in the buffer. -/
def Result.text (r : Result ErrorCode w) : List Byte :=
  r.core.http.buffer.bytes.take r.core.http.totalSendSize

/-- The preparation succeeds exactly when `fits`, and has then left the message in the buffer. -/
structure Sends (r : Result ErrorCode w) (fits : Prop) (req : Request) : Prop where
  ok_iff : r.code = .ok ↔ fits
  text : r.code = .ok → r.text = req.bytes
  size : r.code = .ok → r.core.http.totalSendSize = req.bytes.length

theorem Sends.of_failed {r : Result ErrorCode w} {fits : Prop} {req : Request}
    (hfail : r.isOk = false) (hno : ¬ fits) : Sends r fits req := by
  have hcode : r.code ≠ .ok := by
    intro hcode
    exact absurd (hfail.symm.trans (Result.isOk_iff.mpr hcode)) Bool.false_ne_true
  exact ⟨⟨fun h => absurd h hcode, fun h => absurd h hno⟩, fun h => absurd h hcode,
    fun h => absurd h hcode⟩

/-- The draft that the sequence ends with. -/
theorem draft_composed (k : Core w) (s : Start) (as : List Append) :
    ((k.draft s.httpMethod s.resourcePath (startHeaders k s.contentType s.setAuthenticationHeader)
        CRLF).add (Request.fields (as.flatMap Append.headers)) (as.flatMap Append.bytes)).add
        (Request.fields (lengthHeaderIf (as.flatMap Append.bytes).length)) [] =
      k.draft s.httpMethod s.resourcePath
        (startHeaders k s.contentType s.setAuthenticationHeader ++ as.flatMap Append.headers ++
          lengthHeaderIf (as.flatMap Append.bytes).length)
        (CRLF ++ as.flatMap Append.bytes) := by
  rw [k.draft_add, k.draft_add, List.append_nil]

theorem length_composed (k : Core w) (s : Start) (as : List Append) :
    (composed k s as).bytes.length = (k.draft s.httpMethod s.resourcePath
      (startHeaders k s.contentType s.setAuthenticationHeader ++ as.flatMap Append.headers ++
        lengthHeaderIf (as.flatMap Append.bytes).length)
      (CRLF ++ as.flatMap Append.bytes)).size := by
  rw [← Draft.length_text, k.text_draft]
  rfl

/-- **When the sequence succeeds, and what the buffer then holds.** -/
theorem composeAll_sends {k : Core w} {s : Start} {as : List Append} (hidle : k.state = .idle)
    (has : ∀ a ∈ as, a.Valid w ∧ a.Present) :
    Sends (composeAll k s as)
      (startRoom k s.httpMethod s.resourcePath s.setAuthenticationHeader ∧
        (composed k s as).bytes.length < k.bufferSize) (composed k s as) := by
  obtain ⟨d, hd⟩ : ∃ d, d = k.draft s.httpMethod s.resourcePath
      (startHeaders k s.contentType s.setAuthenticationHeader) CRLF := ⟨_, rfl⟩
  obtain ⟨e, he⟩ : ∃ e, e = d.add (Request.fields (as.flatMap Append.headers))
      (as.flatMap Append.bytes) := ⟨_, rfl⟩
  have hstart : (s.run k).isOk = true ↔
      startRoom k s.httpMethod s.resourcePath s.setAuthenticationHeader ∧ d.size < k.bufferSize :=
    hd ▸ start_isOk_iff
  have hfinal := draft_composed k s as
  rw [← hd, ← he] at hfinal
  -- the draft grows with every call, so that what fits at the end has always fitted
  have hgrows : d.size ≤ e.size ∧ e.size ≤ (composed k s as).bytes.length := by
    simp only [length_composed, ← hfinal, he, Draft.size_add]
    omega
  rcases hok : (s.run k).isOk with _ | _
  · rw [composeAll, Result.next_of_not_isOk hok]
    apply Sends.of_failed ReturnCode.isOk_fail
    rintro ⟨hroom, hlt⟩
    exact absurd (hok.symm.trans (hstart.mpr ⟨hroom, by omega⟩)) Bool.false_ne_true
  · obtain ⟨hroom, _⟩ := hstart.mp hok
    have hframe : Composing k (s.run k).core := start_composing
    have hcomposed : Composed (s.run k).core d 0 := hd ▸ start_composed hok
    have hcases := appendAll_cases hcomposed has
    rw [← he, hframe.size, Nat.zero_add] at hcases
    rw [composeAll, Result.next_of_isOk hok]
    rcases hcases with ⟨_, hok', hframe', hd'⟩ | ⟨hge, hfail⟩
    · rw [Result.next_of_isOk hok']
      have hprep := Finishes.prepares (hframe.trans hframe') (hfinal ▸ end_finishes hd')
      refine ⟨?_, fun hcode => hprep.sent hcode, fun hcode => hprep.totalSendSize hcode⟩
      rw [hprep.ok_iff]
      exact ⟨fun h => ⟨hroom, h.2⟩, fun h => ⟨hidle, h.2⟩⟩
    · rw [Result.next_of_not_isOk hfail]
      apply Sends.of_failed ReturnCode.isOk_fail
      rintro ⟨_, hlt⟩
      omega

/-! ## One request, both ways -/

/-- An additional header: a name and a value that fit their arrays, and no colon in the name. -/
structure NamedHeader where
  name : CString
  value : CString
  name_lt : name.length < 128
  value_lt : value.length < 128
  noColon : ∀ b ∈ name.bytes, b ≠ 58

/-- `name:value`, as `kii_core_api_call` takes it. -/
def NamedHeader.argument (h : NamedHeader) : CString := h.name ++ .lit ":" ++ h.value

/-- A request with a body and at most one additional header. -/
structure Upload where
  httpMethod : CString
  resourcePath : CString
  contentType : Option CString
  header : Option NamedHeader
  body : List Byte

namespace Upload

/-- The arguments of `kii_core_api_call`. -/
def apiCall (u : Upload) : ApiCall where
  httpMethod := u.httpMethod
  resourcePath := u.resourcePath
  httpBody := some u.body
  bodySize := u.body.length
  contentType := u.contentType
  headers := (u.header.map NamedHeader.argument).toList

def oneShot (k : Core w) (u : Upload) : Result ErrorCode w := kiiCoreApiCall k u.apiCall

/-- The arguments of `kii_core_api_call_start`, with authentication. -/
def start (u : Upload) : Start := ⟨u.httpMethod, u.resourcePath, u.contentType, true⟩

/-- The calls between start and end, with the body cut into `chunks`. -/
def appends (u : Upload) (chunks : List (List Byte)) : List Append :=
  (u.header.map fun h => Append.header h.name h.value).toList ++
    chunks.map fun chunk => Append.body (some chunk) chunk.length

def incremental (k : Core w) (u : Upload) (chunks : List (List Byte)) : Result ErrorCode w :=
  composeAll k u.start (u.appends chunks)

/-- The additional header as a pair of texts. -/
def fields (u : Upload) : List Header := (u.header.map fun h => (h.name.bytes, h.value.bytes)).toList

/-- The message with the content-length header `length`. -/
def message (u : Upload) (k : Core w) (length : List Header) : Request :=
  k.request u.httpMethod u.resourcePath
    (headerIf (.lit "content-type") u.contentType ++
      (bearerHeader (some k.author.accessToken.str) ++ (u.fields ++ length)))
    u.body

/-- What the caller owes: an access token that fits its array, and a body that can be counted and is
an object of the target. -/
structure Proper (u : Upload) (k : Core w) : Prop where
  token_pos : 0 < k.author.accessToken.str.length
  token_le : k.author.accessToken.str.length ≤ 120
  body_lt : u.body.length < 10 ^ 7
  body_le : u.body.length ≤ 2 ^ (w - 1)
  idle : k.state = .idle

end Upload

theorem colon_argument (h : NamedHeader) : colon h.argument = some h.name.length := by
  have hbytes : h.argument.bytes = h.name.bytes ++ (ascii ":" ++ h.value.bytes) :=
    List.append_assoc ..
  rw [colon, hbytes]
  apply Search.find_eq_some.mpr
  constructor
  · rw [show h.name.length = h.name.bytes.length from rfl, List.drop_left]
    exact List.prefix_append ..
  · intro j hj hpre
    have hj' : j < h.name.bytes.length := hj
    rw [List.drop_append_of_le_length (Nat.le_of_lt hj'), List.drop_eq_getElem_cons hj'] at hpre
    obtain ⟨t, ht⟩ := hpre
    exact h.noColon _ (List.getElem_mem hj') (List.cons.inj ht).1.symm

theorem sentHeaders_argument (header : Option NamedHeader) :
    sentHeaders [] (header.map NamedHeader.argument).toList =
      (header.map fun h => (h.name.bytes, h.value.bytes)).toList := by
  cases header with
  | none => rfl
  | some h =>
    have hcut : h.argument.bytes = h.name.bytes ++ (ascii ":" ++ h.value.bytes) :=
      List.append_assoc ..
    have htake : h.argument.bytes.take h.name.length = h.name.bytes := by
      rw [hcut]
      exact List.take_left
    have hdrop : h.argument.bytes.drop (h.name.length + 1) = h.value.bytes := by
      rw [hcut, ← List.drop_drop, show h.name.length = h.name.bytes.length from rfl, List.drop_left]
      rfl
    show sentHeaders [] [h.argument] = [(h.name.bytes, h.value.bytes)]
    rw [sentHeaders, colon_argument h]
    simp only [htake, hdrop, List.drop_nil, List.append_nil, sentHeaders]

section

variable {k : Core w} {u : Upload} {chunks : List (List Byte)}

theorem headerFits_argument (header : Option NamedHeader) :
    ∀ str ∈ (header.map NamedHeader.argument).toList, HeaderFits str := by
  intro str hstr n hn
  obtain ⟨h, _, rfl⟩ := Option.map_eq_some_iff.mp (Option.mem_toList.mp hstr)
  obtain rfl : h.name.length = n := Option.some.inj ((colon_argument h).symm.trans hn)
  refine ⟨h.name_lt, ?_⟩
  have hlen : h.argument.length = h.name.length + 1 + h.value.length := by
    rw [NamedHeader.argument, CString.length_append, CString.length_append]
    rfl
  rw [hlen, Nat.add_sub_cancel_left]
  exact h.value_lt

theorem not_firstWithoutColon_argument (header : Option NamedHeader) :
    ¬ FirstWithoutColon (header.map NamedHeader.argument).toList := by
  rintro ⟨str, hstr, hnone⟩
  obtain ⟨h, _, rfl⟩ := Option.map_eq_some_iff.mp
    (Option.mem_toList.mp (List.mem_of_mem_head? hstr))
  rw [colon_argument h] at hnone
  cases hnone

/-- **What the one call writes.** -/
theorem oneShot_sends (hu : u.Proper k) :
    Sends (u.oneShot k)
      (k.room u.httpMethod u.resourcePath ∧
        (u.message k [contentLengthHeader u.body.length]).bytes.length < k.bufferSize)
      (u.message k [contentLengthHeader u.body.length]) := by
  have hread : Readable w u.apiCall.httpBody u.apiCall.bodySize := by
    rintro bs ⟨⟩
    exact ⟨Nat.le_refl _, hu.body_le⟩
  have hprep := apiCall_prepares (k := k) hread (headerFits_argument u.header)
  have hmessage : u.apiCall.message k = u.message k [contentLengthHeader u.body.length] := by
    rw [ApiCall.message, accessToken_of_pos hu.token_pos]
    show k.request _ _ (_ ++ (_ ++ (sentHeaders [] _ ++ _))) (u.body.take u.body.length) = _
    rw [show u.apiCall.headers = (u.header.map NamedHeader.argument).toList from rfl,
      sentHeaders_argument, List.take_length]
    rfl
  have hcolon : ¬ FirstWithoutColon u.apiCall.headers := not_firstWithoutColon_argument u.header
  rw [hmessage] at hprep
  refine ⟨?_, fun hcode => hprep.sent hcode, fun hcode => hprep.totalSendSize hcode⟩
  rw [Upload.oneShot, hprep.ok_iff]
  exact ⟨fun h => ⟨h.1.1, h.2⟩, fun h => ⟨⟨h.1, hcolon⟩, h.2⟩⟩

theorem flatMap_appends_bytes (hchunks : chunks.flatten = u.body) :
    (u.appends chunks).flatMap Append.bytes = u.body := by
  have hheader : (u.header.map fun h => Append.header h.name h.value).toList.flatMap Append.bytes =
      [] := by
    cases u.header <;> rfl
  have hbody : ∀ chunk : List Byte, (Append.body (some chunk) chunk.length).bytes = chunk :=
    fun chunk => List.take_length
  rw [Upload.appends, List.flatMap_append, hheader, List.nil_append, List.flatMap_map]
  simp only [hbody, List.flatMap_id', hchunks]

theorem flatMap_appends_headers : (u.appends chunks).flatMap Append.headers = u.fields := by
  have hheader : (u.header.map fun h => Append.header h.name h.value).toList.flatMap
      Append.headers = u.fields := by
    unfold Upload.fields
    cases u.header <;> rfl
  have hbody : ∀ chunk : List Byte, (Append.body (some chunk) chunk.length).headers = [] :=
    fun chunk => rfl
  have hnone : chunks.flatMap (fun _ => ([] : List Header)) = [] :=
    List.flatMap_eq_nil_iff.mpr fun _ _ => rfl
  rw [Upload.appends, List.flatMap_append, hheader, List.flatMap_map]
  simp only [hbody, hnone, List.append_nil]

theorem appends_valid (hu : u.Proper k) (hchunks : chunks.flatten = u.body) :
    ∀ a ∈ u.appends chunks, a.Valid w ∧ a.Present := by
  intro a ha
  rcases List.mem_append.mp ha with hheader | hbody
  · obtain ⟨h, _, rfl⟩ := Option.map_eq_some_iff.mp (Option.mem_toList.mp hheader)
    exact ⟨trivial, trivial⟩
  · obtain ⟨chunk, hchunk, rfl⟩ := List.mem_map.mp hbody
    refine ⟨?_, Option.some_ne_none _⟩
    rintro bs ⟨⟩
    refine ⟨Nat.le_refl _, Nat.le_trans ?_ hu.body_le⟩
    rw [← hchunks]
    exact (List.sublist_flatten_of_mem hchunk).length_le

/-- **What the sequence of calls writes.** -/
theorem incremental_sends (hu : u.Proper k) (hchunks : chunks.flatten = u.body) :
    Sends (u.incremental k chunks)
      (k.room u.httpMethod u.resourcePath ∧
        (u.message k (lengthHeaderIf u.body.length)).bytes.length < k.bufferSize)
      (u.message k (lengthHeaderIf u.body.length)) := by
  have hsends := composeAll_sends (s := u.start) hu.idle (appends_valid hu hchunks)
  have hmessage : composed k u.start (u.appends chunks) =
      u.message k (lengthHeaderIf u.body.length) := by
    rw [composed, flatMap_appends_bytes hchunks, flatMap_appends_headers, Upload.message]
    show k.request _ _ (headerIf _ _ ++ bearerHeader _ ++ _ ++ _) _ = _
    simp only [List.append_assoc]
    rfl
  have hbearer : ¬ NoBearer k := by
    have hpos := hu.token_pos
    have hle := hu.token_le
    rintro (h | h) <;> omega
  have hroom : startRoom k u.start.httpMethod u.start.resourcePath
      u.start.setAuthenticationHeader ↔ k.room u.httpMethod u.resourcePath :=
    ⟨fun h => h.1, fun h => ⟨h, fun hno => hbearer hno.2⟩⟩
  rw [hmessage, hroom] at hsends
  exact hsends

/-! ## Where they agree -/

/-- Both calls succeed and leave the same bytes to send, or both fail. -/
def SameOutcome (r r' : Result ErrorCode w) : Prop :=
  (r.code = .ok ∧ r'.code = .ok ∧ r.core.http.totalSendSize = r'.core.http.totalSendSize ∧
    r.text = r'.text) ∨
  (r.code = .fail ∧ r'.code = .fail)

/-- `r'` succeeds where `r` does, with the same bytes but for one line that it leaves out. -/
def WithoutLine (line : List Byte) (r r' : Result ErrorCode w) : Prop :=
  r.code = .ok → r'.code = .ok ∧
    ∃ before behind, r.text = before ++ (line ++ behind) ∧ r'.text = before ++ behind

theorem ErrorCode.eq_ok_or_fail (c : ErrorCode) : c = .ok ∨ c = .fail := by
  cases c
  · exact Or.inl rfl
  · exact Or.inr rfl

/-- Two preparations of one message that succeed under one condition. -/
theorem Sends.sameOutcome {r r' : Result ErrorCode w} {fits : Prop} {req : Request}
    (h : Sends r fits req) (h' : Sends r' fits req) : SameOutcome r r' := by
  rcases ErrorCode.eq_ok_or_fail r.code with hcode | hcode
  · have hcode' : r'.code = .ok := h'.ok_iff.mpr (h.ok_iff.mp hcode)
    exact Or.inl ⟨hcode, hcode', (h.size hcode).trans (h'.size hcode').symm,
      (h.text hcode).trans (h'.text hcode').symm⟩
  · right
    refine ⟨hcode, ?_⟩
    rcases ErrorCode.eq_ok_or_fail r'.code with hok | hfail
    · rw [h.ok_iff.mpr (h'.ok_iff.mp hok)] at hcode
      cases hcode
    · exact hfail

/-- The bytes of the message around its content-length header. -/
theorem bytes_message_length (u : Upload) (k : Core w) : ∃ before behind, ∀ length : List Header,
    (u.message k length).bytes = before ++ (Request.fields length ++ behind) := by
  refine ⟨Request.line u.httpMethod.bytes (k.hostStr k.appHost).bytes u.resourcePath.bytes ++
    Request.fields (k.defaultHeaders ++ (headerIf (.lit "content-type") u.contentType ++
      (bearerHeader (some k.author.accessToken.str) ++ u.fields))), CRLF ++ u.body, ?_⟩
  intro length
  simp only [Upload.message, Core.request, Request.bytes, Request.fields_append, List.append_assoc]

/-- **One call and many calls agree** on every body that is not empty. The empty one is announced
only by the one call. -/
theorem oneShot_agrees (hu : u.Proper k) (hchunks : chunks.flatten = u.body) :
    (0 < u.body.length → SameOutcome (u.oneShot k) (u.incremental k chunks)) ∧
    (u.body.length = 0 → WithoutLine (ascii "content-length:0\r\n") (u.oneShot k)
      (u.incremental k chunks)) := by
  have hone := oneShot_sends hu
  have hmany := incremental_sends hu hchunks
  constructor
  · intro hpos
    rw [lengthHeaderIf, if_pos hpos] at hmany
    exact hone.sameOutcome hmany
  · intro hzero hcode
    obtain ⟨before, behind, hbytes⟩ := bytes_message_length u k
    have hline : Request.fields [contentLengthHeader u.body.length] =
        ascii "content-length:0\r\n" := by
      rw [hzero]
      decide
    rw [lengthHeaderIf, if_neg (by omega)] at hmany
    obtain ⟨hroom, hlt⟩ := hone.ok_iff.mp hcode
    have hcode' : (u.incremental k chunks).code = .ok := by
      apply hmany.ok_iff.mpr
      refine ⟨hroom, ?_⟩
      rw [hbytes] at hlt ⊢
      simp only [List.length_append, Request.fields_nil, List.length_nil] at hlt ⊢
      omega
    have htext := hone.text hcode
    have htext' := hmany.text hcode'
    rw [hbytes, hline] at htext
    rw [hbytes, Request.fields_nil, List.nil_append] at htext'
    exact ⟨hcode', before, behind, htext, htext'⟩

end

/-- An upload with a header and an empty body. -/
def emptyUpload : Upload where
  httpMethod := .lit "POST"
  resourcePath := .lit "api/logs"
  contentType := some (.lit "text/plain")
  header := some ⟨.lit "x-a", .lit "1", by decide, by decide, by decide⟩
  body := []

theorem emptyUpload_proper (body : List Byte) (h : body.length < 10 ^ 7 := by decide) :
    { emptyUpload with body := body }.Proper (deviceWithToken 512) :=
  ⟨by decide, by decide, h, Nat.le_of_lt (Nat.lt_trans h (by decide)), rfl⟩

/-- For an empty body the one call sends 18 bytes more. -/
theorem oneShot_fails : emptyUpload.Proper (deviceWithToken 512) ∧
    [[]].flatten = emptyUpload.body ∧
    ¬ SameOutcome (emptyUpload.oneShot (deviceWithToken 512))
      (emptyUpload.incremental (deviceWithToken 512) [[]]) := by
  refine ⟨emptyUpload_proper [], rfl, ?_⟩
  rintro (⟨_, _, hsize, _⟩ | ⟨hfail, _⟩)
  · exact absurd hsize (by decide +kernel)
  · exact absurd hfail (by decide +kernel)

theorem oneShot_agrees_of_post :
    let u : Upload := { emptyUpload with body := ascii "one,two" }
    SameOutcome (u.oneShot (deviceWithToken 512))
        (u.incremental (deviceWithToken 512) [ascii "one,", ascii "two"]) ∧
      WithoutLine (ascii "content-length:0\r\n") (emptyUpload.oneShot (deviceWithToken 512))
        (emptyUpload.incremental (deviceWithToken 512) []) :=
  ⟨(oneShot_agrees (emptyUpload_proper (ascii "one,two")) (by decide)).1 (by decide),
    (oneShot_agrees (emptyUpload_proper []) rfl).2 rfl⟩

end KiiThing

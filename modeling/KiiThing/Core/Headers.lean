import KiiThing.Core.ApiCall
import KiiThing.Core.Init

/-!
# The additional headers of `kii_core_api_call`

Name and value of every header are copied into two arrays that are used again for the next one. The
value is set as a whole, the name is not terminated: behind a name that is shorter than an earlier
one, the end of the earlier one is sent too (`sentHeaders`). An argument without a colon ends the
list, as an error when it is the first one and as if nothing were wrong when it is a later one.

`sentVerbatim_iff` is when the arguments are sent as they were given.
-/

namespace KiiThing

open Http

variable {w : Nat}

/-! ## The arrays -/

theorem ofArray_pad {n : Nat} {bs : List Byte} (h : ∀ b ∈ bs, b ≠ 0) :
    (CString.ofArray (Memory.pad n 0 bs)).bytes = bs := by
  rw [CString.bytes_ofArray, Memory.pad, List.takeWhile_append_of_pos (by simpa using h)]
  simp

/-- A name of `n` bytes in front of what the array held. -/
theorem strncpyKey_pad {live : List Byte} {str : CString} {n : Nat} (hstr : n ≤ str.length)
    (hlive : live.length ≤ 128) (hn : n ≤ 128) :
    strncpyKey (Memory.pad 128 0 live) str n =
      Memory.pad 128 0 (str.bytes.take n ++ live.drop n) := by
  have hlen : (str.bytes.take n).length = n := by
    rw [List.length_take]
    exact Nat.min_eq_left hstr
  have hpad : (Memory.pad 128 (0 : Byte) live).length = 128 := Memory.length_pad hlive
  rw [strncpyKey, Memory.overwrite_of_le (by omega), hlen, List.take_zero, List.nil_append,
    Nat.zero_add, Memory.pad, Memory.pad, List.drop_append, List.drop_replicate, List.append_assoc,
    List.length_append, hlen, List.length_drop]
  congr 3
  omega

/-- The colon of an argument cuts it into name and value. -/
theorem bytes_of_colon {str : CString} {n : Nat} (h : colon str = some n) :
    str.bytes = str.bytes.take n ++ ascii ":" ++ str.bytes.drop (n + 1) := by
  obtain ⟨⟨t, ht⟩, _⟩ := Search.find_eq_some.mp h
  have hdrop : str.bytes.drop (n + 1) = t := by
    rw [← List.drop_drop, ← ht]
    rfl
  rw [hdrop, List.append_assoc, ht, List.take_append_drop]

theorem lt_length_of_colon {str : CString} {n : Nat} (h : colon str = some n) : n < str.length :=
  Search.find_add_length_le h

/-! ## What is sent -/

/-- The headers that are sent for the arguments `strs`, when the array `key` holds `live`. -/
def sentHeaders (live : List Byte) : List CString → List Header
  | [] => []
  | str :: strs =>
    match colon str with
    | none => []
    | some n =>
      let name := str.bytes.take n ++ live.drop n
      (name, str.bytes.drop (n + 1)) :: sentHeaders name strs

/-- What the caller owes for an additional header: name and value fit their arrays. -/
def HeaderFits (str : CString) : Prop := ∀ n ∈ colon str, n < 128 ∧ str.length - (n + 1) < 128

instance (str : CString) : Decidable (HeaderFits str) :=
  inferInstanceAs (Decidable (∀ n ∈ colon str, _))

/-- **The additional headers that are written.** -/
theorem adds_additionalHeaders (k₀ : Core w) {strs : List CString} {live : List Byte}
    (hlive : live.length < 128) (hnul : ∀ b ∈ live, b ≠ 0) (hstrs : ∀ str ∈ strs, HeaderFits str) :
    Adds k₀ (additionalHeaders · (Memory.pad 128 0 live) strs)
      (Request.fields (sentHeaders live strs)) [] := by
  induction strs generalizing live with
  | nil => exact Adds.pure rfl
  | cons str strs ih =>
    cases hcolon : colon str with
    | none =>
      have hpure : Adds k₀ (fun k => (⟨.ok, k⟩ : Result HttpCode w)) [] [] := Adds.pure rfl
      rw [sentHeaders, hcolon]
      apply hpure.congr
      intro k _
      simp only [additionalHeaders, hcolon]
    | some n =>
      have hlt := lt_length_of_colon hcolon
      obtain ⟨hname, hvalue⟩ := hstrs str List.mem_cons_self n hcolon
      have hkey : strncpyKey (Memory.pad 128 0 live) str n =
          Memory.pad 128 0 (str.bytes.take n ++ live.drop n) :=
        strncpyKey_pad (by omega) (by omega) (by omega)
      have hnul' : ∀ b ∈ str.bytes.take n ++ live.drop n, b ≠ 0 := by
        intro b hb
        rcases List.mem_append.mp hb with hb | hb
        · exact str.noNul b (List.mem_of_mem_take hb)
        · exact hnul b (List.mem_of_mem_drop hb)
      have hlen' : (str.bytes.take n ++ live.drop n).length < 128 := by
        rw [List.length_append, List.length_take, List.length_drop]
        omega
      have hval : (CString.ofArray (strncpyValue str n)).bytes = str.bytes.drop (n + 1) := by
        have hshort : (str.bytes.drop (n + 1)).length ≤ 128 := by
          rw [List.length_drop]
          exact Nat.le_of_lt hvalue
        rw [strncpyValue, List.take_of_length_le hshort]
        exact ofArray_pad fun b hb => str.noNul b (List.mem_of_mem_drop hb)
      have hadds := (adds_setHeader k₀ (.ofArray (strncpyKey (Memory.pad 128 0 live) str n))
        (.ofArray (strncpyValue str n))).next
          (ih hlen' hnul' fun s hs => hstrs s (List.mem_cons_of_mem _ hs))
      rw [hkey, ofArray_pad hnul', hval] at hadds
      rw [sentHeaders, hcolon, Request.fields_cons]
      apply hadds.congr
      intro k _
      simp only [additionalHeaders, hcolon, hkey]

/-! ## The call -/

/-- The first additional header has no colon. -/
def FirstWithoutColon (strs : List CString) : Prop := ∃ str ∈ strs.head?, colon str = none

instance (strs : List CString) : Decidable (FirstWithoutColon strs) :=
  inferInstanceAs (Decidable (∃ str ∈ strs.head?, colon str = none))

theorem setHeaders_eq (k : Core w) (key : List Byte) (strs : List CString) :
    setHeaders k key strs =
      if FirstWithoutColon strs then ⟨ReturnCode.fail, k⟩ else additionalHeaders k key strs := by
  cases strs with
  | nil =>
    have hno : ¬ FirstWithoutColon [] := by rintro ⟨_, ⟨⟩, _⟩
    rw [if_neg hno]
    rfl
  | cons str strs =>
    cases hcolon : colon str with
    | none =>
      have hyes : FirstWithoutColon (str :: strs) := ⟨str, rfl, hcolon⟩
      rw [if_pos hyes, setHeaders, hcolon]
      rfl
    | some n =>
      have hno : ¬ FirstWithoutColon (str :: strs) := by
        rintro ⟨_, ⟨⟩, hnone⟩
        rw [hcolon] at hnone
        cases hnone
      rw [if_neg hno, setHeaders, hcolon]

/-- The text in front of the additional headers. -/
def ApiCall.before (a : ApiCall) (k : Core w) : List Byte :=
  Request.line a.httpMethod.bytes (k.hostStr k.appHost).bytes a.resourcePath.bytes ++
    Request.fields (k.defaultHeaders ++
      (headerIf (.lit "content-type") a.contentType ++ bearerHeader k.accessToken))

/-- The text behind them. -/
def ApiCall.behind (a : ApiCall) : List Byte :=
  Request.fields (bodyHeaders a.httpBody a.bodySize) ++ (CRLF ++ bodyBytes a.httpBody a.bodySize)

/-- What the caller owes for `kii_core_api_call`. -/
structure ApiCall.Proper (a : ApiCall) (k : Core w) : Prop where
  token_pos : 0 < k.author.accessToken.str.length
  token_le : k.author.accessToken.str.length ≤ 120
  body : Readable w a.httpBody a.bodySize
  bodySize : a.bodySize < 10 ^ 7
  headers : ∀ str ∈ a.headers, HeaderFits str

/-- The number of bytes that are sent for the arguments `strs`, when a name of `m` bytes was sent
before. No name is shorter than the ones before it. -/
def sentLength (m : Nat) : List CString → Nat
  | [] => 0
  | str :: strs =>
    match colon str with
    | none => 0
    | some n => max m n + 1 + (str.length - (n + 1)) + 2 + sentLength (max m n) strs

/-- What is sent fits the buffer. -/
def ApiCall.Fits (a : ApiCall) (k : Core w) : Prop :=
  k.room a.httpMethod a.resourcePath ∧
    (a.before k).length + sentLength 0 a.headers + a.behind.length < k.bufferSize

theorem length_sentHeaders (live : List Byte) (strs : List CString) :
    (Request.fields (sentHeaders live strs)).length = sentLength live.length strs := by
  induction strs generalizing live with
  | nil => rfl
  | cons str strs ih =>
    cases hcolon : colon str with
    | none => rw [sentHeaders, sentLength, hcolon]; rfl
    | some n =>
      have hlt := lt_length_of_colon hcolon
      have hname : (str.bytes.take n ++ live.drop n).length = max live.length n := by
        rw [List.length_append, List.length_take, List.length_drop]
        show min n str.length + _ = _
        omega
      rw [sentHeaders, sentLength, hcolon, Request.fields_cons, List.length_append, ih, length_field,
        hname, List.length_drop]
      rfl

/-- The message that is sent. -/
def ApiCall.message (a : ApiCall) (k : Core w) : Request :=
  k.request a.httpMethod a.resourcePath
    (headerIf (.lit "content-type") a.contentType ++ (bearerHeader k.accessToken ++
      (sentHeaders [] a.headers ++ bodyHeaders a.httpBody a.bodySize)))
    (bodyBytes a.httpBody a.bodySize)

theorem ApiCall.bytes_message (a : ApiCall) (k : Core w) : (a.message k).bytes =
    a.before k ++ Request.fields (sentHeaders [] a.headers) ++ a.behind := by
  simp only [ApiCall.message, Core.request, Request.bytes, ApiCall.before, ApiCall.behind,
    Request.fields_append, List.append_assoc]

/-- The authorization header with the token of the object. -/
theorem adds_accessToken (k : Core w) : Adds k (fun k => setHeaderIf k (.lit "authorization")
    (k.accessToken.map (.lit "bearer " ++ ·))) (Request.fields (bearerHeader k.accessToken)) [] := by
  apply (adds_setHeaderIf k (.lit "authorization") (k.accessToken.map (.lit "bearer " ++ ·))).congr
  intro k' hk'
  rw [Core.accessToken, Core.accessToken, hk'.author]

/-- The way through `kii_core_api_call` is a preparation step by step, with its last statement behind
it. -/
theorem exists_builds_apiCall {k : Core w} {a : ApiCall} (hbody : Readable w a.httpBody a.bodySize)
    (hheaders : ∀ str ∈ a.headers, HeaderFits str) :
    ∃ r : Result ErrorCode w, kiiCoreApiCall k a = r.ready ∧
      Builds k r (k.room a.httpMethod a.resourcePath ∧ ¬ FirstWithoutColon a.headers)
        (k.draft a.httpMethod a.resourcePath
          (headerIf (.lit "content-type") a.contentType ++ (bearerHeader k.accessToken ++
            (sentHeaders [] a.headers ++ bodyHeaders a.httpBody a.bodySize)))
          (CRLF ++ bodyBytes a.httpBody a.bodySize)) := by
  have hadditional : Adds k (additionalHeaders · (Memory.pad 128 0 []) a.headers)
      (Request.fields (sentHeaders [] a.headers)) [] :=
    adds_additionalHeaders k (by decide) (by simp) hheaders
  have hchain := ((((builds_requestHead k a.httpMethod a.resourcePath).next
    (adds_setHeaderIf k (.lit "content-type") a.contentType)).next (adds_accessToken k)).next_guard
      (c := FirstWithoutColon a.headers) hadditional).next (adds_setBody k hbody)
  simp only [Memory.pad_nil, ← setHeaders_eq, Result.next_assoc, Core.draft_add, List.nil_append,
    List.append_nil, List.append_assoc] at hchain
  exact ⟨_, rfl, hchain⟩

/-- **What `kii_core_api_call` prepares.** -/
theorem apiCall_prepares {k : Core w} {a : ApiCall} (hbody : Readable w a.httpBody a.bodySize)
    (hheaders : ∀ str ∈ a.headers, HeaderFits str) :
    Prepares k (kiiCoreApiCall k a)
      (k.room a.httpMethod a.resourcePath ∧ ¬ FirstWithoutColon a.headers) (a.message k) := by
  obtain ⟨r, hr, hbuilds⟩ := exists_builds_apiCall (k := k) hbody hheaders
  rw [hr]
  exact hbuilds.ready

/-! ## What was sent -/

/-- **When `kii_core_api_call` succeeds, and what the buffer then holds.** -/
theorem apiCall_spec {k : Core w} {a : ApiCall} (ha : a.Proper k) :
    ((kiiCoreApiCall k a).code = .ok ↔ a.Fits k ∧ ¬ FirstWithoutColon a.headers) ∧
    ((kiiCoreApiCall k a).code = .ok →
      (kiiCoreApiCall k a).core.http.buffer.bytes.take
          (kiiCoreApiCall k a).core.http.totalSendSize =
        a.before k ++ Request.fields (sentHeaders [] a.headers) ++ a.behind) := by
  have hprep := apiCall_prepares (k := k) ha.body ha.headers
  have hlen := length_sentHeaders [] a.headers
  have hbytes := a.bytes_message k
  constructor
  · rw [hprep.ok_iff, hbytes, ApiCall.Fits, ← List.length_nil, ← hlen, List.length_append,
      List.length_append, and_right_comm]
  · intro hcode
    rw [hprep.sent hcode, hbytes]

/-! ## Arguments that are sent as they are -/

/-- The length of the name in an argument. -/
def nameLength (str : CString) : Nat := (colon str).getD 0

/-- All arguments have a colon, and no name is shorter than one before it. -/
def Ascending (strs : List CString) : Prop :=
  (∀ str ∈ strs, colon str ≠ none) ∧ strs.Pairwise fun s t => nameLength s ≤ nameLength t

instance (strs : List CString) : Decidable (Ascending strs) :=
  inferInstanceAs (Decidable (_ ∧ _))

/-- The arguments as header lines. -/
def headerLines (strs : List CString) : List Byte := lines (strs.map CString.bytes)

theorem fields_sentHeaders {live : List Byte} {strs : List CString} (h : Ascending strs)
    (hlive : ∀ str ∈ strs, live.length ≤ nameLength str) :
    Request.fields (sentHeaders live strs) = headerLines strs := by
  induction strs generalizing live with
  | nil => rfl
  | cons str strs ih =>
    obtain ⟨hcolons, hpair⟩ := h
    obtain ⟨hle, hpair⟩ := List.pairwise_cons.mp hpair
    obtain ⟨n, hcolon⟩ := Option.ne_none_iff_exists'.mp (hcolons str List.mem_cons_self)
    have hn : nameLength str = n := by rw [nameLength, hcolon, Option.getD_some]
    have hlt := lt_length_of_colon hcolon
    have hdrop : live.drop n = [] := by
      apply List.drop_eq_nil_of_le
      rw [← hn]
      exact hlive str List.mem_cons_self
    have hname : (str.bytes.take n).length = n := by
      rw [List.length_take]
      exact Nat.min_eq_left (Nat.le_of_lt hlt)
    have ih' : Request.fields (sentHeaders (str.bytes.take n) strs) = headerLines strs := ih
      ⟨fun s hs => hcolons s (List.mem_cons_of_mem _ hs), hpair⟩
      (fun s hs => by rw [hname, ← hn]; exact hle s hs)
    rw [sentHeaders, hcolon]
    dsimp only
    rw [hdrop, List.append_nil, Request.fields_cons, ih', field, headerLines, headerLines,
      List.map_cons, lines_cons, ← bytes_of_colon hcolon]

/-- Fewer bytes than the arguments have are never sent, and as many only when no name is shorter
than one before it. -/
theorem sentLength_cases {m : Nat} {strs : List CString} (h : ∀ str ∈ strs, colon str ≠ none) :
    (headerLines strs).length ≤ sentLength m strs ∧
      ((headerLines strs).length = sentLength m strs →
        (∀ str ∈ strs, m ≤ nameLength str) ∧
          strs.Pairwise fun s t => nameLength s ≤ nameLength t) := by
  induction strs generalizing m with
  | nil => exact ⟨Nat.le_refl _, fun _ => ⟨by simp, List.Pairwise.nil⟩⟩
  | cons str strs ih =>
    obtain ⟨n, hcolon⟩ := Option.ne_none_iff_exists'.mp (h str List.mem_cons_self)
    have hn : nameLength str = n := by rw [nameLength, hcolon, Option.getD_some]
    have hlt := lt_length_of_colon hcolon
    have hlines : (headerLines (str :: strs)).length =
        str.length + 2 + (headerLines strs).length := by
      rw [headerLines, List.map_cons, lines_cons, List.length_append, List.length_append]
      rfl
    have hsent : sentLength m (str :: strs) =
        max m n + 1 + (str.length - (n + 1)) + 2 + sentLength (max m n) strs := by
      rw [sentLength, hcolon]
    obtain ⟨hle, heq⟩ := ih (m := max m n) fun s hs => h s (List.mem_cons_of_mem _ hs)
    have hmax := Nat.le_max_right m n
    rw [hlines, hsent]
    refine ⟨by omega, ?_⟩
    intro hsame
    have hmn : max m n = n := by omega
    obtain ⟨hall, hpair⟩ := heq (by omega)
    rw [hmn] at hall
    have hm : m ≤ n := hmn ▸ Nat.le_max_left m n
    constructor
    · intro s hs
      rcases List.mem_cons.mp hs with rfl | hs
      · rw [hn]
        exact hm
      · exact Nat.le_trans hm (hall s hs)
    · rw [List.pairwise_cons, hn]
      exact ⟨hall, hpair⟩

/-- What `kii_core_api_call` promises about the additional headers: they are sent as they were
given, and an argument without a colon is an error. -/
structure SentVerbatim (k : Core w) (a : ApiCall) : Prop where
  refused : (∃ str ∈ a.headers, colon str = none) → (kiiCoreApiCall k a).code = .fail
  sent : (kiiCoreApiCall k a).code = .ok →
    (kiiCoreApiCall k a).core.http.buffer.bytes.take (kiiCoreApiCall k a).core.http.totalSendSize =
      a.before k ++ headerLines a.headers ++ a.behind

/-- **When the additional headers are sent verbatim**: no name is shorter than one before it and all
arguments have a colon, or the call fails, since already the first argument has no colon or since
the request does not fit. -/
theorem sentVerbatim_iff {k : Core w} {a : ApiCall} (ha : a.Proper k) :
    SentVerbatim k a ↔ Ascending a.headers ∨ FirstWithoutColon a.headers ∨ ¬ a.Fits k := by
  obtain ⟨hok, htext⟩ := apiCall_spec ha
  constructor
  · intro h
    by_contra hnot
    obtain ⟨hasc, hfirst, hfits⟩ : ¬ Ascending a.headers ∧ ¬ FirstWithoutColon a.headers ∧
        a.Fits k := by simpa only [not_or, not_not] using hnot
    have hcode := hok.mpr ⟨hfits, hfirst⟩
    by_cases hcolons : ∀ str ∈ a.headers, colon str ≠ none
    · -- all headers were sent, and as many bytes as the arguments have
      have hsame := (htext hcode).symm.trans (h.sent hcode)
      rw [List.append_assoc, List.append_assoc, List.append_cancel_left_eq,
        List.append_cancel_right_eq] at hsame
      have hlen := length_sentHeaders [] a.headers
      rw [hsame] at hlen
      exact hasc ⟨hcolons, ((sentLength_cases hcolons).2 hlen).2⟩
    · -- an argument was dropped
      obtain ⟨str, hstr, hnone⟩ : ∃ str ∈ a.headers, colon str = none := by
        simpa using hcolons
      rw [h.refused ⟨str, hstr, hnone⟩] at hcode
      cases hcode
  · intro h
    rcases h with hasc | hfail
    · constructor
      · rintro ⟨str, hstr, hnone⟩
        exact absurd hnone (hasc.1 str hstr)
      · intro hcode
        rw [htext hcode, fields_sentHeaders hasc (by simp)]
    · have hcode : (kiiCoreApiCall k a).code ≠ .ok := by
        intro hcode
        obtain ⟨hfits, hfirst⟩ := hok.mp hcode
        exact hfail.elim hfirst (fun hno => hno hfits)
      constructor
      · intro _
        cases hc : (kiiCoreApiCall k a).code with
        | ok => exact absurd hc hcode
        | fail => rfl
      · intro hc
        exact absurd hc hcode

/-- A call with a longer name in front of a shorter one. -/
def longerFirst : ApiCall where
  httpMethod := .lit "GET"
  resourcePath := .lit "api/logs"
  httpBody := none
  bodySize := 0
  contentType := none
  headers := [.lit "x-longer:1", .lit "x-b:2"]

/-- The second name is sent with the end of the first one, as `x-bonger`. -/
theorem sentVerbatim_fails : longerFirst.Proper (deviceWithToken 512) ∧
    (kiiCoreApiCall (deviceWithToken 512) longerFirst).code = .ok ∧
    ¬ SentVerbatim (deviceWithToken 512) longerFirst := by
  have hproper : longerFirst.Proper (deviceWithToken 512) :=
    ⟨by decide, by decide, by decide, by decide, by decide⟩
  refine ⟨hproper, by decide +kernel, ?_⟩
  intro h
  exact absurd (h.sent (by decide +kernel)) (by decide +kernel)

theorem sentVerbatim_iff_of_get :
    SentVerbatim (deviceWithToken 512) { longerFirst with headers := [.lit "x-b:2", .lit "x-longer:1"] } ↔
      Ascending [.lit "x-b:2", .lit "x-longer:1"] ∨
        FirstWithoutColon [.lit "x-b:2", .lit "x-longer:1"] ∨
        ¬ { longerFirst with headers := [.lit "x-b:2", .lit "x-longer:1"] }.Fits
          (deviceWithToken 512) :=
  sentVerbatim_iff ⟨by decide, by decide, by decide, by decide, by decide⟩

end KiiThing

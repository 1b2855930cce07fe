import KiiThing.Core.Engine
import KiiThing.Core.Layout

/-!
# The steps of a preparation

A step is `Steady`: it touches neither the state nor `normalizer_host`, what fitted the buffer still
does, and it does not go through `_body_position` while that is NULL. The last is so for steps behind
a request line only: the line is what sets `_body_position` (`Begun`).
-/

namespace KiiThing

open Http

variable {w : Nat}

/-! ## Preparations -/

/-- The engine is at rest, and the request so far begins with its line and fits the buffer. -/
structure Fitting (k : Core w) : Prop where
  idle : k.http.socketState = .idle
  fits : k.http.totalSendSize < k.bufferSize
  placed : 0 < k.http.bodyPosition

/-- A step that leaves the state and `normalizer_host` alone, and a fitting request fitting. -/
structure Steady {γ : Type} (f : Core w → Result γ w) : Prop where
  state : ∀ k, (f k).core.state = k.state
  normalizerHost : ∀ k, (f k).core.http.normalizerHost = k.http.normalizerHost
  position : ∀ k, k.http.bodyPosition ≤ (f k).core.http.bodyPosition
  intact : ∀ k, 0 < k.http.bodyPosition → (f k).core.http.nullAccess = k.http.nullAccess
  fitting : ∀ k, Fitting k → Fitting (f k).core

/-- The same of a chain of steps that began with a request line. -/
structure Begun {γ : Type} [ReturnCode γ] (k : Core w) (r : Result γ w) : Prop where
  state : r.core.state = k.state
  normalizerHost : r.core.http.normalizerHost = k.http.normalizerHost
  intact : r.core.http.nullAccess = k.http.nullAccess
  fitting : r.isOk = true → Fitting r.core

theorem Steady.pure {γ : Type} (c : γ) : Steady (fun k : Core w => ⟨c, k⟩) where
  state := fun _ => rfl
  normalizerHost := fun _ => rfl
  position := fun _ => Nat.le_refl _
  intact := fun _ _ => rfl
  fitting := fun _ h => h

theorem Steady.ite {γ : Type} {f g : Core w → Result γ w} {c : Core w → Prop} [∀ k, Decidable (c k)]
    (hf : Steady f) (hg : Steady g) : Steady (fun k => if c k then f k else g k) := by
  constructor
  · intro k
    split
    · exact hf.state k
    · exact hg.state k
  · intro k
    split
    · exact hf.normalizerHost k
    · exact hg.normalizerHost k
  · intro k
    split
    · exact hf.position k
    · exact hg.position k
  · intro k hk
    split
    · exact hf.intact k hk
    · exact hg.intact k hk
  · intro k hk
    split
    · exact hf.fitting k hk
    · exact hg.fitting k hk

section

variable {γ δ : Type} [ReturnCode γ] [ReturnCode δ]

theorem Steady.next {f : Core w → Result γ w} {g : Core w → Result δ w} (hf : Steady f)
    (hg : Steady g) : Steady (fun k => (f k).next g) := by
  -- the second step starts where the first has ended, or is left out
  have hcases : ∀ k, ((f k).next g).core = (f k).core ∨ ((f k).next g).core = (g (f k).core).core := by
    intro k
    rcases hok : (f k).isOk with _ | _
    · rw [Result.next_of_not_isOk hok]
      exact Or.inl rfl
    · rw [Result.next_of_isOk hok]
      exact Or.inr rfl
  constructor
  · intro k
    rcases hcases k with h | h
    · rw [h, hf.state]
    · rw [h, hg.state, hf.state]
  · intro k
    rcases hcases k with h | h
    · rw [h, hf.normalizerHost]
    · rw [h, hg.normalizerHost, hf.normalizerHost]
  · intro k
    rcases hcases k with h | h
    · rw [h]
      exact hf.position k
    · rw [h]
      exact Nat.le_trans (hf.position k) (hg.position _)
  · intro k hk
    rcases hcases k with h | h
    · rw [h, hf.intact k hk]
    · rw [h, hg.intact _ (Nat.lt_of_lt_of_le hk (hf.position k)), hf.intact k hk]
  · intro k hk
    rcases hcases k with h | h
    · rw [h]
      exact hf.fitting k hk
    · rw [h]
      exact hg.fitting _ (hf.fitting k hk)

theorem Begun.next {k : Core w} {r : Result γ w} {g : Core w → Result δ w} (hr : Begun k r)
    (hg : Steady g) : Begun k (r.next g) := by
  rcases hok : r.isOk with _ | _
  · rw [Result.next_of_not_isOk hok]
    refine ⟨hr.state, hr.normalizerHost, hr.intact, ?_⟩
    intro h
    exact absurd (ReturnCode.isOk_fail.symm.trans h) Bool.false_ne_true
  · rw [Result.next_of_isOk hok]
    refine ⟨?_, ?_, ?_, ?_⟩
    · rw [hg.state, hr.state]
    · rw [hg.normalizerHost, hr.normalizerHost]
    · rw [hg.intact _ (hr.fitting hok).placed, hr.intact]
    · intro _
      exact hg.fitting _ (hr.fitting hok)

end

/-! ## The steps -/

/-- A header goes through `_body_position`. -/
theorem nullAccess_setHeader {k : Core w} {key value : CString} (h : 0 < k.http.bodyPosition) :
    (prvKiiHttpSetHeader k key value).core.http.nullAccess = k.http.nullAccess := by
  unfold prvKiiHttpSetHeader
  dsimp only
  split
  · rfl
  · simp [h.ne']

theorem bodyPosition_setHeader (k : Core w) (key value : CString) :
    k.http.bodyPosition ≤ (prvKiiHttpSetHeader k key value).core.http.bodyPosition := by
  unfold prvKiiHttpSetHeader
  dsimp only
  split
  · exact Nat.le_refl _
  · exact Nat.le_add_right ..

/-- A header that was set has found room. -/
theorem fitting_setHeader {k : Core w} {key value : CString} (hidle : k.http.socketState = .idle)
    (hpos : 0 < k.http.bodyPosition)
    (h : (prvKiiHttpSetHeader k key value).isOk = true) :
    Fitting (prvKiiHttpSetHeader k key value).core := by
  rcases Nat.lt_or_ge (key.length + 1 + value.length + 2 + k.http.totalSendSize) k.bufferSize with
    hlt | hge
  · obtain ⟨-, hsocket, htotal⟩ := setHeader_accepted hlt
    refine ⟨hsocket.trans hidle, ?_, Nat.lt_of_lt_of_le hpos (bodyPosition_setHeader k key value)⟩
    rw [htotal, (frame_setHeader k key value).size, Nat.add_comm]
    exact hlt
  · rw [setHeader_of_ge hge] at h
    cases h

theorem steady_setHeader (key value : CString) :
    Steady (fun k : Core w => prvKiiHttpSetHeader k key value) where
  state := fun k => (frame_setHeader k key value).state
  normalizerHost := fun k => (frame_setHeader k key value).normalizerHost
  position := fun k => bodyPosition_setHeader k key value
  intact := fun _ => nullAccess_setHeader
  fitting := by
    intro k hk
    rcases Nat.lt_or_ge (key.length + 1 + value.length + 2 + k.http.totalSendSize) k.bufferSize with
      hlt | hge
    · exact fitting_setHeader hk.idle hk.placed (setHeader_accepted hlt).1
    · rw [setHeader_of_ge hge]
      exact hk

/-- A header whose value is a field of the object. -/
theorem steady_setHeader_field (key : CString) (value : Core w → CString) :
    Steady (fun k => prvKiiHttpSetHeader k key (value k)) where
  state := fun k => (steady_setHeader key (value k)).state k
  normalizerHost := fun k => (steady_setHeader key (value k)).normalizerHost k
  position := fun k => (steady_setHeader key (value k)).position k
  intact := fun k => (steady_setHeader key (value k)).intact k
  fitting := fun k => (steady_setHeader key (value k)).fitting k

theorem steady_setHeaderIf (key : CString) (value : Core w → Option CString) :
    Steady (fun k => setHeaderIf k key (value k)) := by
  have hsteady : ∀ value : Option CString, Steady (fun k : Core w => setHeaderIf k key value) := by
    intro value
    cases value with
    | none => exact Steady.pure _
    | some value => exact steady_setHeader key value
  exact ⟨fun k => (hsteady (value k)).state k, fun k => (hsteady (value k)).normalizerHost k,
    fun k => (hsteady (value k)).position k, fun k => (hsteady (value k)).intact k,
    fun k => (hsteady (value k)).fitting k⟩

/-- A piece of the body goes behind the headers. -/
theorem appendBody_place (k : Core w) (body : Option (List Byte)) (bodyLen : Nat) :
    (prvKiiHttpAppendBody k body bodyLen).core.http.bodyPosition = k.http.bodyPosition ∧
      (prvKiiHttpAppendBody k body bodyLen).core.http.nullAccess = k.http.nullAccess := by
  rcases piece_cases body k.bufferSize ((k.http.totalSendSize + bodyLen) % 2 ^ w) with
    hno | ⟨bs, rfl, hlt⟩
  · rw [appendBody_refused hno]
    exact ⟨rfl, rfl⟩
  · rw [appendBody_accepted bs hlt]
    exact ⟨rfl, rfl⟩

theorem steady_appendBody (body : Option (List Byte)) (bodyLen : Nat) :
    Steady (fun k : Core w => prvKiiHttpAppendBody k body bodyLen) where
  state := fun k => (frame_appendBody k body bodyLen).state
  normalizerHost := fun k => (frame_appendBody k body bodyLen).normalizerHost
  position := fun k => Nat.le_of_eq (appendBody_place k body bodyLen).1.symm
  intact := fun k _ => (appendBody_place k body bodyLen).2
  fitting := by
    intro k hk
    rcases piece_cases body k.bufferSize ((k.http.totalSendSize + bodyLen) % 2 ^ w) with
      hno | ⟨bs, rfl, hlt⟩
    · rw [appendBody_refused hno]
      exact hk
    · rw [appendBody_accepted bs hlt]
      refine ⟨hk.idle, ?_, hk.placed⟩
      show _ < Buffer.size _
      rw [Buffer.size_write]
      exact hlt

theorem steady_setKiiDefaultHeader : Steady (prvSetKiiDefaultHeader (w := w)) :=
  (steady_setHeader_field (.lit "host") Core.appHost).next
    ((steady_setHeader_field (.lit "x-kii-appid") Core.appId).next
      ((steady_setHeader_field (.lit "x-kii-appkey") Core.appKey).next
        (steady_setHeader_field (.lit "x-kii-sdk") Core.sdkInfo)))

theorem steady_setBearer (accessToken : Option CString) :
    Steady (fun k : Core w => setBearer k accessToken) := by
  cases accessToken with
  | none => exact Steady.pure _
  | some accessToken => exact (Steady.pure HttpCode.fail).ite (steady_setHeader _ _)

theorem steady_setBody (body : Option (List Byte)) (bodyLen : Nat) :
    Steady (fun k : Core w => setBody k body bodyLen) := by
  have hstart : Steady (prvKiiHttpAppendBodyStart (w := w)) := steady_appendBody _ _
  have hend : Steady (prvKiiHttpAppendBodyEnd (w := w)) := Steady.pure _
  cases body with
  | none => exact hstart.next (hend.next (Steady.pure _))
  | some body =>
    exact (steady_setHeader _ _).next
      (hstart.next ((steady_appendBody _ _).next (hend.next (Steady.pure _))))

theorem steady_appendStrs (strs : List CString) : Steady (fun k : Core w => appendStrs k strs) := by
  induction strs with
  | nil => exact Steady.pure _
  | cons str strs ih => exact (steady_appendBody _ _).next ih

/-- **Request line and default headers.** The line may be longer than the buffer, when
`normalizer_host` is longer than `app_host`; the first header then finds no room. -/
theorem begun_requestHead (k : Core w) (method path : CString) :
    Begun k ((prvKiiHttpSetRequestLine k method path).next prvSetKiiDefaultHeader) := by
  by_cases hroom : k.room method path
  · have hline := setRequestLine_of_lt hroom
    generalize hr : prvKiiHttpSetRequestLine k method path = r at hline
    have hok : r.isOk = true := by rw [hline]; rfl
    have hidle : r.core.http.socketState = .idle := by rw [hline]
    have hstate : r.core.state = k.state := by rw [hline]
    have hhost : r.core.http.normalizerHost = k.http.normalizerHost := by rw [hline]
    have hnull : r.core.http.nullAccess = k.http.nullAccess := by rw [hline]
    have hpos : 0 < r.core.http.bodyPosition := by
      rw [hline]
      exact Nat.lt_of_lt_of_eq (by simp) (Request.length_line ..).symm
    -- only with its first header is the request known to fit
    have hfirst : Begun k (prvKiiHttpSetHeader r.core (.lit "host") r.core.appHost) := by
      have hset := steady_setHeader (w := w) (.lit "host") r.core.appHost
      refine ⟨?_, ?_, ?_, fitting_setHeader hidle hpos⟩
      · rw [hset.state, hstate]
      · rw [hset.normalizerHost, hhost]
      · rw [nullAccess_setHeader hpos, hnull]
    rw [Result.next_of_isOk hok]
    exact hfirst.next ((steady_setHeader_field (.lit "x-kii-appid") Core.appId).next
      ((steady_setHeader_field (.lit "x-kii-appkey") Core.appKey).next
        (steady_setHeader_field (.lit "x-kii-sdk") Core.sdkInfo)))
  · rw [setRequestLine_of_ge (Nat.not_lt.mp hroom)]
    refine ⟨rfl, rfl, rfl, ?_⟩
    intro h
    exact absurd h Bool.false_ne_true

theorem begun_lineAndHeaders (k : Core w) (method path : CString)
    (contentType accessToken etag : Option CString) :
    Begun k (prvHttpRequestLineAndHeaders k method path contentType accessToken etag) := by
  have hchain := (((begun_requestHead k method path).next
    (steady_setHeaderIf (.lit "content-type") fun _ => contentType)).next
      (steady_setBearer accessToken)).next
        ((steady_setHeaderIf (.lit "if-match") fun _ => etag).next (Steady.pure ErrorCode.ok))
  simp only [Result.next_assoc] at hchain
  exact hchain

/-- Behind a line that was accepted, `_body_position` is set. -/
theorem placed_lineAndHeaders {k : Core w} {method path : CString} (h : k.room method path)
    (contentType accessToken etag : Option CString) :
    0 < (prvHttpRequestLineAndHeaders k method path contentType accessToken
      etag).core.http.bodyPosition := by
  have hheaders := (steady_setKiiDefaultHeader (w := w)).next
    ((steady_setHeaderIf (.lit "content-type") fun _ => contentType).next
      ((steady_setBearer accessToken).next
        ((steady_setHeaderIf (.lit "if-match") fun _ => etag).next (Steady.pure ErrorCode.ok))))
  have hline := setRequestLine_of_lt h
  -- no header takes `_body_position` back
  rw [prvHttpRequestLineAndHeaders, Result.next_of_isOk (by rw [hline]; rfl)]
  refine Nat.lt_of_lt_of_le ?_ (hheaders.position _)
  rw [hline]
  exact Nat.lt_of_lt_of_eq (by simp) (Request.length_line ..).symm

/-- Where the line finds no room, nothing is written behind it. -/
theorem lineAndHeaders_of_ge {k : Core w} {method path : CString}
    {contentType accessToken etag : Option CString} (h : ¬ k.room method path) :
    prvHttpRequestLineAndHeaders k method path contentType accessToken etag =
      ⟨.fail, { k with http.host := k.appHost, http.buffer := k.http.buffer.clear }⟩ := by
  rw [prvHttpRequestLineAndHeaders, setRequestLine_of_ge (Nat.not_lt.mp h)]
  rfl

/-! ## What a preparation leaves behind -/

/-- The result of a preparation: a request that can be run, or an object in the state it was in. -/
structure Readied (k : Core w) (r : Result ErrorCode w) : Prop where
  normalizerHost : r.core.http.normalizerHost = k.http.normalizerHost
  intact : r.core.http.nullAccess = k.http.nullAccess
  refused : r.code ≠ .ok → r.core.state = k.state

/-- One that succeeds only with a request that can be run. -/
structure Runnable (k : Core w) (r : Result ErrorCode w) : Prop extends Readied k r where
  prepared : r.code = .ok → Prepared r.core

theorem Begun.ready {k : Core w} {r : Result ErrorCode w} (h : Begun k r) : Runnable k r.ready := by
  have hok : r.ready.code = .ok ↔ r.isOk = true := by rw [← Result.isOk_iff, Result.isOk_ready]
  refine ⟨⟨?_, ?_, ?_⟩, ?_⟩
  · rw [Result.http_ready, h.normalizerHost]
  · rw [Result.http_ready, h.intact]
  · intro hcode
    rw [Result.state_ready, if_neg fun h => hcode (hok.mpr h), h.state]
  · intro hcode
    have hfit := h.fitting (hok.mp hcode)
    refine ⟨?_, ?_, ?_⟩
    · rw [Result.state_ready, if_pos (hok.mp hcode)]
    · rw [Result.http_ready]
      exact hfit.idle
    · rw [Core.bufferSize, Result.http_ready]
      exact hfit.fits

/-- What fails on its way is returned as it is. -/
theorem Begun.refused {k : Core w} {r : Result ErrorCode w} (h : Begun k r) (hok : r.isOk = false) :
    Runnable k r := by
  have hready := h.ready
  rw [Result.ready, if_neg (by simp [hok])] at hready
  exact hready

/-- A path that fits its array leaves the state as it was. -/
theorem Runnable.of_setPath {k : Core w} {path : CString} {r : Result ErrorCode w}
    (h : Runnable (k.setPath path) r) (hpath : path.length < 256) : Runnable k r where
  normalizerHost := h.normalizerHost
  intact := h.intact
  refused := by
    intro hcode
    rw [h.refused hcode]
    exact State.behind_of_lt hpath
  prepared := h.prepared

theorem runnable_assemble (k : Core w) (contentType : CString) (accessToken : Option CString)
    (contentLength : Nat) (pieces : List CString) :
    Runnable k (assemble k contentType accessToken contentLength pieces) := by
  have hchain := (((begun_lineAndHeaders k (.lit "POST") k.httpRequestPath (some contentType)
    accessToken none).next (steady_setHeader (.lit "content-length")
      (prvContentLengthStr contentLength))).next (steady_appendBody (some CRLF) 2)).next
        (steady_appendStrs pieces)
  have hready := (hchain.next (Steady.pure HttpCode.ok)).next (Steady.pure ErrorCode.ok)
  have hrunnable := hready.ready
  rw [← Result.next_ready] at hrunnable
  simp only [Result.next_assoc] at hrunnable
  exact hrunnable

end KiiThing

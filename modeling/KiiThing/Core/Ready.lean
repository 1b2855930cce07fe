import KiiThing.Core.Assembly
import KiiThing.Core.Execute
import KiiThing.Core.Headers
import KiiThing.Core.Incremental
import KiiThing.Core.Outcome
import KiiThing.Lib.System

/-!
# What is READY to be sent

`sdk w` is the SDK object under the calls of an application: preparations of all kinds, the
incremental calls in their order, and `kii_core_run`. The preparations write the buffer piece by
piece and only set `_state` when they succeed, so that one which fails while an earlier request
waits leaves the object READY with a request that is not whole. `sdk_whole` says that nothing else
goes wrong: where no path runs over `_state`, and no preparation is cut short while a request waits
or is sent, all that is ever READY or on its way is the whole request of the last successful
preparation.
-/

namespace KiiThing

open Http

variable {w : Nat}

/-! ## All preparations -/

/-- A call of a preparation function. -/
inductive Preparation where
  | request (c : RequestCall)
  | registerThingWithId (vendorThingId password thingType : CString)
  | thingAuthentication (vendorThingId password : CString)
  | installThingPush (development : Bool)
  | apiCall (a : ApiCall)

namespace Preparation

def run (k : Core w) : Preparation → Result ErrorCode w
  | request c => c.run k
  | registerThingWithId vendorThingId password thingType =>
    (kiiCoreRegisterThingWithId k vendorThingId password (some thingType)).getD ⟨.fail, k⟩
  | thingAuthentication vendorThingId password =>
    kiiCoreThingAuthentication k vendorThingId password
  | installThingPush development => kiiCoreInstallThingPush k development
  | apiCall a => kiiCoreApiCall k a

/-- What the caller owes: the arguments are objects of the target, and those of `kii_core_api_call`
fit its arrays. -/
def Valid (k : Core w) : Preparation → Prop
  | request c => Readable w (c.args k).body (c.args k).bodyLength
  | registerThingWithId vendorThingId password thingType =>
    vendorThingId.length ≤ 2 ^ (w - 1) ∧ password.length ≤ 2 ^ (w - 1) ∧
      thingType.length ≤ 2 ^ (w - 1)
  | thingAuthentication vendorThingId password =>
    vendorThingId.length ≤ 2 ^ (w - 1) ∧ password.length ≤ 2 ^ (w - 1)
  | installThingPush _ => True
  | apiCall a => Readable w a.httpBody a.bodySize ∧ (∀ str ∈ a.headers, HeaderFits str) ∧
      k.author.accessToken.str.length ≤ 120

instance (k : Core w) (p : Preparation) : Decidable (p.Valid k) := by
  cases p <;> unfold Valid <;> infer_instance

/-- Method and path of the request line. -/
def line (k : Core w) : Preparation → CString × CString
  | request c => ((c.args k).method, (c.args k).resourcePath)
  | registerThingWithId _ _ _ => (.lit "POST", (prvSetThingRegisterPath k).httpRequestPath)
  | thingAuthentication _ _ => (.lit "POST", (prvSetAuthPath k).httpRequestPath)
  | installThingPush _ => (.lit "POST", (prvSetInstallationPath k).httpRequestPath)
  | apiCall a => (a.httpMethod, a.resourcePath)

/-- What is checked besides the room in the buffer: the length of the access token, and the first
additional header. -/
def checks (k : Core w) : Preparation → Prop
  | request c => ¬ TokenTooLong (c.args k).accessToken
  | registerThingWithId _ _ _ => ¬ TokenTooLong none
  | thingAuthentication _ _ => ¬ TokenTooLong none
  | installThingPush _ => ¬ TokenTooLong k.accessToken
  | apiCall a => ¬ FirstWithoutColon a.headers

/-- The message that is written. -/
def message (k : Core w) (p : Preparation) : Request :=
  match p with
  | request c => (c.args k).message k ((c.args k).encodingSent k)
  | registerThingWithId vendorThingId password thingType =>
    assembled k (p.line k).2 (.lit "application/vnd.kii.ThingRegistrationAndAuthorizationRequest+json")
      none (registrationBody vendorThingId password thingType)
  | thingAuthentication vendorThingId password =>
    assembled k (p.line k).2 (.lit "application/json") none
      (authenticationBody vendorThingId password)
  | installThingPush development =>
    assembled k (p.line k).2 (.lit "application/vnd.kii.InstallationCreationRequest+json")
      k.accessToken (installationBody development)
  | apiCall a => a.message k

/-- The preparation succeeds: its checks hold, and its message fits. -/
def Fits (k : Core w) (p : Preparation) : Prop :=
  (k.room (p.line k).1 (p.line k).2 ∧ p.checks k) ∧ (p.message k).bytes.length < k.bufferSize

/-- The path fits `_http_request_path`. Only `kii_core_api_call` prints none. -/
def PathFits (k : Core w) : Preparation → Prop
  | apiCall _ => True
  | p => (p.line k).2.length < 256

instance (k : Core w) (p : Preparation) : Decidable (p.PathFits k) := by
  cases p <;> unfold PathFits <;> infer_instance

/-- **A preparation that is refused** leaves the state as it was, when its path has not run over. -/
theorem refused {k : Core w} {p : Preparation} (h : p.Valid k) (hpath : p.PathFits k)
    (hcode : (p.run k).code ≠ .ok) : (p.run k).core.state = k.state := by
  cases p with
  | request c =>
    have hbuilds := builds_httpRequest (k.setPath (c.args k).resourcePath) (c.args k) h
    rw [run, c.run_eq] at hcode ⊢
    rw [hbuilds.refused hcode]
    exact State.behind_of_lt hpath
  | registerThingWithId vendorThingId password thingType =>
    rw [run, registerThingWithId_eq, Option.getD_some] at hcode ⊢
    exact ((runnable_assemble _ _ _ _ _).of_setPath hpath).refused hcode
  | thingAuthentication vendorThingId password =>
    rw [run, thingAuthentication_eq] at hcode ⊢
    exact ((runnable_assemble _ _ _ _ _).of_setPath hpath).refused hcode
  | installThingPush development =>
    rw [run, installThingPush_eq] at hcode ⊢
    exact ((runnable_assemble _ _ _ _ _).of_setPath hpath).refused hcode
  | apiCall a =>
    obtain ⟨r, hr, hbuilds⟩ := exists_builds_apiCall h.1 h.2.1
    rw [run, hr] at hcode ⊢
    exact hbuilds.refused hcode

/-- **What a preparation function prepares.** -/
theorem prepares {k : Core w} {p : Preparation} (h : p.Valid k) :
    Prepares k (p.run k) (k.room (p.line k).1 (p.line k).2 ∧ p.checks k) (p.message k) := by
  cases p with
  | request c => exact RequestCall.prepares h
  | registerThingWithId vendorThingId password thingType =>
    obtain ⟨hid, hpassword, htype⟩ := h
    rw [run, registerThingWithId_eq, Option.getD_some]
    have hpieces := length_le_of_mem_registrationBody k hid hpassword htype
    exact (assemble_prepares hpieces).of_setPath
  | thingAuthentication vendorThingId password =>
    obtain ⟨hid, hpassword⟩ := h
    rw [run, thingAuthentication_eq]
    have hpieces := length_le_of_mem_authenticationBody k hid hpassword
    exact (assemble_prepares hpieces).of_setPath
  | installThingPush development =>
    rw [run, installThingPush_eq]
    exact (assemble_prepares (length_le_of_mem_installationBody k development)).of_setPath
  | apiCall a => exact apiCall_prepares h.1 h.2.1

end Preparation

/-- A preparation that succeeds leaves the object ready for an exchange. -/
theorem Prepares.prepared {k : Core w} {r : Result ErrorCode w} {room : Prop} {req : Request}
    (h : Prepares k r room req) (hok : r.code = .ok) : Prepared r.core where
  state := h.ready hok
  idle := h.idle hok
  fits := by
    rw [h.totalSendSize hok, h.size]
    exact (h.ok_iff.mp hok).2

/-! ## A request line that finds no room -/

theorem setHeaderIf_socketState (k : Core w) (key : CString) (value : Option CString) :
    (setHeaderIf k key value).core.http.socketState = k.http.socketState := by
  cases value with
  | none => rfl
  | some value =>
    unfold setHeaderIf prvKiiHttpSetHeader
    dsimp only
    split <;> rfl

theorem assemble_of_ge {k : Core w} {contentType : CString} {accessToken : Option CString}
    {n : Nat} {pieces : List CString} (h : ¬ k.room (.lit "POST") k.httpRequestPath) :
    (assemble k contentType accessToken n pieces).core.http.socketState = k.http.socketState := by
  rw [assemble, lineAndHeaders_of_ge h]
  rfl

theorem httpRequest_of_ge {k : Core w} {a : RequestArgs} (h : ¬ k.room a.method a.resourcePath) :
    (a.run k).core.http.socketState = k.http.socketState := by
  have hrun : a.run k = ⟨.fail, (setHeaderIf
      { k with http.host := k.appHost, http.buffer := k.http.buffer.clear }
      (.lit "Content-Encoding") a.contentEncoding).core⟩ := by
    rw [RequestArgs.run, prvHttpRequest, lineAndHeaders_of_ge h]
    rfl
  rw [hrun]
  exact setHeaderIf_socketState ..

/-- Where already the request line finds no room, the engine is not touched. -/
theorem Preparation.socketState_of_ge {k : Core w} {p : Preparation}
    (h : ¬ k.room (p.line k).1 (p.line k).2) :
    (p.run k).core.http.socketState = k.http.socketState := by
  cases p with
  | request c =>
    have hroom : ¬ (k.setPath (c.args k).resourcePath).room (c.args k).method
        (c.args k).resourcePath := h
    rw [Preparation.run, c.run_eq, Result.http_ready, httpRequest_of_ge hroom]
    rfl
  | registerThingWithId vendorThingId password thingType =>
    rw [Preparation.run, registerThingWithId_eq, Option.getD_some, assemble_of_ge h]
    rfl
  | thingAuthentication vendorThingId password =>
    rw [Preparation.run, thingAuthentication_eq, assemble_of_ge h]
    rfl
  | installThingPush development =>
    rw [Preparation.run, installThingPush_eq, assemble_of_ge h]
    rfl
  | apiCall a =>
    have hroom : ¬ k.room a.httpMethod a.resourcePath := h
    rw [Preparation.run, kiiCoreApiCall, setRequestLine_of_ge (Nat.not_lt.mp hroom)]
    rfl

theorem Start.socketState_of_ge {k : Core w} {s : Start}
    (h : ¬ k.room s.httpMethod s.resourcePath) :
    (s.run k).core.http.socketState = k.http.socketState := by
  rw [Start.run, kiiCoreApiCallStart, setRequestLine_of_ge (Nat.not_lt.mp h)]
  rfl

/-! ## The engine and the request -/

/-- Not all of the request has been handed over. -/
def SocketState.Early (st : SocketState) : Prop := st = .idle ∨ st = .connect ∨ st = .send

/-- The request that the buffer holds. -/
def Core.text (k : Core w) : List Byte := k.http.buffer.bytes.take k.http.totalSendSize

/-- What an engine that is still early has not done. -/
def Unsent (k k' : Core w) : Prop :=
  k'.http.socketState.Early → k.http.socketState.Early ∧ k'.text = k.text

theorem takeRead_late {k : Core w} {data : List Byte} (h : k.http.socketState = .recv) :
    ¬ (takeRead k data).2.http.socketState.Early := by
  have hlate : ∀ (c : Prop) [Decidable c],
      ¬ SocketState.Early (if c then .close else k.http.socketState) := by
    intro c _
    rw [h]
    split <;> simp [SocketState.Early]
  unfold takeRead
  dsimp only
  split
  · rw [h]
    simp [SocketState.Early]
  · exact hlate _

/-- **The engine and the request**: while it goes on and has not handed the request over, it does
not change it. -/
theorem execute_unsent {cbs : Callbacks} {x x' : Exchange w}
    (h : prvKiiHttpExecute cbs x = (.again, x')) : Unsent x.core x'.core := by
  unfold prvKiiHttpExecute at h
  intro hearly
  cases hst : x.core.http.socketState with
  | idle =>
    rw [hst] at h
    obtain rfl := (Prod.mk.inj h).2
    exact ⟨Or.inl rfl, rfl⟩
  | connect =>
    rw [hst] at h
    simp only [executeConnect, Exchange.ask] at h
    split at h
    · obtain rfl := (Prod.mk.inj h).2
      exact ⟨Or.inr (Or.inl rfl), rfl⟩
    · obtain rfl := (Prod.mk.inj h).2
      exact ⟨Or.inr (Or.inl rfl), rfl⟩
    · cases (Prod.mk.inj h).1
  | send =>
    rw [hst] at h
    simp only [executeSend, Exchange.ask] at h
    split at h
    · obtain rfl := (Prod.mk.inj h).2
      exact ⟨Or.inr (Or.inr rfl), rfl⟩
    · obtain rfl := (Prod.mk.inj h).2
      exact ⟨Or.inr (Or.inr rfl), rfl⟩
    · cases (Prod.mk.inj h).1
  | recv =>
    rw [hst] at h
    simp only [executeRecv, Exchange.ask] at h
    split at h
    · obtain rfl := (Prod.mk.inj h).2
      exact absurd hearly (takeRead_late hst)
    · obtain rfl := (Prod.mk.inj h).2
      simp [SocketState.Early, hst] at hearly
    · cases (Prod.mk.inj h).1
  | close =>
    rw [hst] at h
    simp only [executeClose, Exchange.ask] at h
    split at h
    · exact absurd (Prod.mk.inj h).1 (takeResponse_again _)
    · obtain rfl := (Prod.mk.inj h).2
      simp [SocketState.Early, hst] at hearly
    · cases (Prod.mk.inj h).1

/-- A request waits to be sent, or is being sent. -/
def Core.Sending (k : Core w) : Prop :=
  k.state = .ready ∨ (k.state = .execute ∧ k.http.socketState.Early)

/-- **`kii_core_run` and the request**: it never changes one that waits or is being sent, and never
brings one up. -/
theorem kiiCoreRun_sending {cbs : Callbacks} {x : Exchange w}
    (h : (kiiCoreRun cbs x).2.core.Sending) :
    x.core.Sending ∧ (kiiCoreRun cbs x).2.core.text = x.core.text ∧
      (kiiCoreRun cbs x).2.core.state = .execute := by
  cases hstate : x.core.state with
  | idle | other _ =>
    have hrun : kiiCoreRun cbs x = (.fail, x) := by rw [kiiCoreRun, hstate]
    rw [hrun] at h
    simp [Core.Sending, hstate] at h
  | ready =>
    have hrun : kiiCoreRun cbs x = (.ok, { x with core := { x.core with state := .execute } }) := by
      rw [kiiCoreRun, hstate]
    rw [hrun]
    exact ⟨Or.inl hstate, rfl, rfl⟩
  | execute =>
    rcases hexec : prvKiiHttpExecute cbs x with ⟨_ | _ | _, x'⟩
    · have hrun : kiiCoreRun cbs x = (.ok, { x' with core := { x'.core with state := .idle } }) := by
        simp [kiiCoreRun, hstate, hexec]
      rw [hrun] at h
      simp [Core.Sending] at h
    · have hrun : kiiCoreRun cbs x = (.fail, { x' with core := { x'.core with state := .idle } }) := by
        simp [kiiCoreRun, hstate, hexec]
      rw [hrun] at h
      simp [Core.Sending] at h
    · have hrun : kiiCoreRun cbs x = (.ok, x') := by simp [kiiCoreRun, hstate, hexec]
      have hunsent := execute_unsent hexec
      have hsame := (execute_untouched cbs x).state
      rw [hexec, hstate] at hsame
      rw [hrun] at h ⊢
      rcases h with hready | ⟨_, hearly⟩
      · rw [hsame] at hready
        cases hready
      · obtain ⟨hearly', htext⟩ := hunsent hearly
        exact ⟨Or.inr ⟨hstate, hearly'⟩, htext, hsame⟩

/-! ## The SDK under an application -/

/-- The calls of an application. Every `kii_core_run` may meet other callbacks. -/
inductive Op where
  | prepare (p : Preparation)
  | start (c : Start)
  | append (a : Append)
  | finish
  | run (cbs : Callbacks)

/-- The SDK object, and what an observer of the calls knows. -/
structure Session (w : Nat) where
  exchange : Exchange w
  /-- `kii_core_api_call_start` has returned `KIIE_OK`, and neither the end nor another preparation
  has been called since. -/
  composing : Bool
  /-- What the last preparation that returned `KIIE_OK` has left to be sent. -/
  last : Option (List Byte)

namespace Session

abbrev core (s : Session w) : Core w := s.exchange.core

/-- After a preparation. -/
def prepared (s : Session w) (r : Result ErrorCode w) : Session w where
  exchange := { s.exchange with core := r.core }
  composing := false
  last := if r.isOk then some r.core.text else s.last

def step (s : Session w) : Op → Session w
  | .prepare p => s.prepared (p.run s.core)
  | .start c => { s with
      exchange := { s.exchange with core := (c.run s.core).core }
      composing := (c.run s.core).isOk }
  | .append a => { s with exchange := { s.exchange with core := (a.run s.core).core } }
  | .finish => s.prepared (kiiCoreApiCallEnd s.core)
  | .run cbs => { s with exchange := (kiiCoreRun cbs s.exchange).2 }

/-- What the caller owes: valid arguments, and the incremental calls in their order. -/
def Enabled (s : Session w) : Op → Prop
  | .prepare p => p.Valid s.core
  | .start _ => True
  | .append a => a.Valid w ∧ s.composing = true
  | .finish => s.composing = true
  | .run _ => True

/-- What is READY, and what is on its way as long as it is not sent, is the whole request of the last
successful preparation. -/
structure Whole (s : Session w) : Prop where
  idle : s.core.state = .ready → s.core.http.socketState = .idle
  whole : s.core.Sending → ∃ r : Request, s.last = some r.bytes ∧ s.core.text = r.bytes

/-- A request that is only begun in `k` is not sent: the object is at rest. Or the engine is already
receiving, and not even the request line finds room, so that it goes on receiving. -/
def Harmless (k : Core w) (line : CString × CString) : Prop :=
  k.state = .idle ∨
    (k.state = .execute ∧ ¬ k.http.socketState.Early ∧ ¬ k.room line.1 line.2)

/-- No path is too long for its array; and while a request waits or is sent, only preparations that
succeed are made. -/
def Undisturbed (s : Session w) : Op → Prop
  | .prepare p => p.PathFits s.core ∧ (p.Fits s.core ∨ Harmless s.core (p.line s.core))
  | .start c => Harmless s.core (c.httpMethod, c.resourcePath)
  | .append _ | .finish | .run _ => True

end Session

/-- The SDK, from an object at rest on. -/
def sdk (w : Nat) : System (Session w) Op where
  init s := s.core.state = .idle ∧ s.composing = false
  enabled := Session.Enabled
  step := Session.step

/-! ## The invariant -/

/-- A request is under construction, and nothing else is going on. -/
def Core.Constructing (k : Core w) : Prop :=
  k.state = .idle ∧ ∃ (k₀ : Core w) (method path : CString) (headers : List Header)
    (body : List Byte), Composed k (k₀.draft method path headers (CRLF ++ body)) body.length

/-- The invariant of the SDK. -/
structure Session.Inv (s : Session w) : Prop where
  whole : s.Whole
  constructing : s.composing = true → s.core.Constructing

section

variable {s : Session w}

theorem not_sending_of_idle {k : Core w} (h : k.state = .idle) : ¬ k.Sending := by
  rintro (hready | ⟨hexecute, _⟩)
  · rw [h] at hready
    cases hready
  · rw [h] at hexecute
    cases hexecute

theorem not_sending_of_late {k : Core w} (h : k.state = .execute)
    (hlate : ¬ k.http.socketState.Early) : ¬ k.Sending := by
  rintro (hready | ⟨_, hearly⟩)
  · rw [h] at hready
    cases hready
  · exact hlate hearly

theorem Session.Whole.of_not_sending (h : ¬ s.core.Sending) : s.Whole where
  idle := fun hready => absurd (Or.inl hready) h
  whole := fun hsending => absurd hsending h

theorem Session.Inv.of_not_sending (h : ¬ s.core.Sending) (hcomposing : s.composing = false) :
    s.Inv where
  whole := Whole.of_not_sending h
  constructing := by
    intro htrue
    rw [hcomposing] at htrue
    cases htrue

/-- A preparation that succeeds keeps the invariant, whatever was before. -/
theorem Session.inv_prepared_of_ok {r : Result ErrorCode w} {req : Request} (hok : r.code = .ok)
    (hidle : r.core.http.socketState = .idle) (htext : r.core.text = req.bytes) :
    (s.prepared r).Inv where
  whole := by
    refine ⟨fun _ => hidle, ?_⟩
    intro _
    refine ⟨req, ?_, htext⟩
    rw [Session.prepared, if_pos (Result.isOk_iff.mpr hok), htext]
  constructing := by
    intro h
    cases h

theorem Session.inv_prepare {p : Preparation} (hvalid : p.Valid s.core)
    (hpath : p.PathFits s.core) (hsafe : p.Fits s.core ∨ Harmless s.core (p.line s.core)) :
    (s.prepared (p.run s.core)).Inv := by
  have hprep := Preparation.prepares hvalid
  by_cases hok : (p.run s.core).code = .ok
  · exact inv_prepared_of_ok hok (hprep.idle hok) (hprep.sent hok)
  · have hharmless := hsafe.resolve_left fun hfits => hok (hprep.ok_iff.mpr hfits)
    -- what is left in the buffer is no request, and it is not sent: the state is that of before
    have hstate := Preparation.refused hvalid hpath hok
    apply Inv.of_not_sending
    · rcases hharmless with hidle | ⟨hexecute, hlate, hroom⟩
      · exact not_sending_of_idle (hstate.trans hidle)
      · apply not_sending_of_late (hstate.trans hexecute)
        show ¬ (p.run s.core).core.http.socketState.Early
        rw [Preparation.socketState_of_ge hroom]
        exact hlate
    · rfl

theorem Session.inv_start {c : Start} (hsafe : Harmless s.core (c.httpMethod, c.resourcePath)) :
    (s.step (.start c)).Inv := by
  have hstate : (c.run s.core).core.state = s.core.state := Composing.state start_composing
  constructor
  · apply Whole.of_not_sending
    rcases hsafe with hidle | ⟨hexecute, hlate, hroom⟩
    · exact not_sending_of_idle (hstate.trans hidle)
    · apply not_sending_of_late (hstate.trans hexecute)
      show ¬ (c.run s.core).core.http.socketState.Early
      rw [Start.socketState_of_ge hroom]
      exact hlate
  · intro hok
    have hidle : s.core.state = .idle :=
      hsafe.resolve_right fun hlate => hlate.2.2 (start_isOk_iff.mp hok).1.1
    refine ⟨hstate.trans hidle, s.core, c.httpMethod, c.resourcePath,
      startHeaders s.core c.contentType c.setAuthenticationHeader, [], ?_⟩
    rw [List.append_nil]
    exact start_composed hok

theorem Session.inv_append {a : Append} (hs : s.Inv) (hvalid : a.Valid w)
    (hcomposing : s.composing = true) : (s.step (.append a)).Inv := by
  obtain ⟨hidle, k₀, method, path, headers, body, hd⟩ := hs.constructing hcomposing
  have hnew : (a.run s.core).core.Constructing := by
    rcases Append.run_cases hd hvalid with ⟨_, _, hframe, hd'⟩ | ⟨_, _, hsame⟩
    · refine ⟨hframe.state.trans hidle, k₀, method, path, headers ++ a.headers, body ++ a.bytes, ?_⟩
      rw [k₀.draft_add, List.append_assoc] at hd'
      rw [List.length_append]
      exact hd'
    · rw [hsame]
      exact ⟨hidle, k₀, method, path, headers, body, hd⟩
  exact ⟨Whole.of_not_sending (not_sending_of_idle hnew.1), fun _ => hnew⟩

theorem Session.inv_finish (hs : s.Inv) (hcomposing : s.composing = true) :
    (s.step .finish).Inv := by
  obtain ⟨hidle, k₀, method, path, headers, body, hd⟩ := hs.constructing hcomposing
  have hend := end_finishes hd
  rw [k₀.draft_add, List.append_nil] at hend
  rcases hcode : (kiiCoreApiCallEnd s.core).isOk with _ | _
  · apply Inv.of_not_sending
    · exact not_sending_of_idle ((hend.refused hcode).trans hidle)
    · rfl
  · have hholds := hend.holds hcode
    have htext : (kiiCoreApiCallEnd s.core).core.text =
        (k₀.request method path (headers ++ lengthHeaderIf body.length) body).bytes := by
      rw [Core.text, hholds.totalSendSize, hholds.text, k₀.text_draft]
    exact inv_prepared_of_ok (Result.isOk_iff.mp hcode) hholds.idle htext

theorem Session.inv_run {cbs : Callbacks} (hs : s.Inv) : (s.step (.run cbs)).Inv := by
  constructor
  · constructor
    · intro hready
      have hexecute := (kiiCoreRun_sending (Or.inl hready)).2.2
      rw [show (kiiCoreRun cbs s.exchange).2.core.state = .ready from hready] at hexecute
      cases hexecute
    · intro hsending
      obtain ⟨hbefore, htext, _⟩ := kiiCoreRun_sending hsending
      obtain ⟨r, hlast, hsame⟩ := hs.whole.whole hbefore
      exact ⟨r, hlast, htext.trans hsame⟩
  · intro hcomposing
    have hnew := hs.constructing hcomposing
    -- an object at rest is not touched
    have hrun : kiiCoreRun cbs s.exchange = (.fail, s.exchange) := by
      rw [kiiCoreRun, show s.exchange.core.state = .idle from hnew.1]
    show (kiiCoreRun cbs s.exchange).2.core.Constructing
    rw [hrun]
    exact hnew

end

/-- **All that is READY is whole**, in every run in which nothing disturbs a request that waits or is
being sent. -/
theorem sdk_whole {s : Session w} (h : ((sdk w).restrict Session.Undisturbed).Reachable s) :
    s.Whole := by
  suffices hinv : s.Inv from hinv.whole
  refine h.invariant Session.Inv ?_ ?_
  · rintro s ⟨hidle, hcomposing⟩
    exact Session.Inv.of_not_sending (not_sending_of_idle hidle) hcomposing
  · rintro s op hs ⟨henabled, hsafe⟩
    cases op with
    | prepare p => exact Session.inv_prepare henabled hsafe.1 hsafe.2
    | start c => exact Session.inv_start hsafe
    | append a => exact Session.inv_append hs henabled.1 henabled.2
    | finish => exact Session.inv_finish hs henabled
    | run cbs => exact Session.inv_run hs

/-! ## A request that is cut short -/

/-- An object at rest. -/
def Session.rest (k : Core w) : Session w := ⟨⟨k, []⟩, false, none⟩

/-- A preparation as the first call. -/
theorem reachable_first {k : Core w} {p : Preparation} (h : k.state = .idle) (hp : p.Valid k)
    (hpath : p.PathFits k) :
    ((sdk w).restrict Session.Undisturbed).Reachable ((Session.rest k).step (.prepare p)) := by
  have hrest : ((sdk w).restrict Session.Undisturbed).Reachable (Session.rest k) :=
    .init ⟨h, rfl⟩
  exact hrest.step (o := Op.prepare p) ⟨hp, hpath, Or.inr (Or.inl h)⟩

/-- Any two preparations as the first calls. -/
theorem reachable_second {k : Core w} {p q : Preparation} (h : k.state = .idle) (hp : p.Valid k)
    (hq : q.Valid (p.run k).core) :
    (sdk w).Reachable (((Session.rest k).step (.prepare p)).step (.prepare q)) := by
  have hrest : (sdk w).Reachable (Session.rest k) := .init ⟨h, rfl⟩
  have hfirst := hrest.step (o := Op.prepare p) hp
  exact hfirst.step (o := Op.prepare q) hq

/-- To get the object `objectId`. -/
def getting (objectId : CString) : Preparation :=
  .request (.getObject ⟨.thing, .lit "th", .lit "b"⟩ objectId)

theorem getting_valid (k : Core w) (objectId : CString) : (getting objectId).Valid k := by
  rintro _ ⟨⟩

/-- An object id that is too long for a buffer of 200 bytes. -/
def longId : CString := .lit
  "an-object-id-that-is-so-long-that-the-request-line-with-it-and-the-headers-behind-it-find-no-room"

/-- A second request does not fit, while the first one waits. -/
def cutShort : Session 64 :=
  ((Session.rest (device 200)).step (.prepare (getting (.lit "o")))).step (.prepare (getting longId))

/-- The object stays READY, but what would be sent is not the request that was prepared. -/
theorem sdk_whole_fails : (sdk 64).Reachable cutShort ∧ cutShort.core.state = .ready ∧
    ¬ cutShort.Whole := by
  refine ⟨?_, by decide +kernel, ?_⟩
  · exact reachable_second rfl (getting_valid _ _) (getting_valid _ _)
  · intro h
    obtain ⟨r, hlast, htext⟩ := h.whole (Or.inl (by decide +kernel))
    rw [← htext] at hlast
    exact absurd hlast (by decide +kernel)

theorem sdk_whole_of_get :
    ((Session.rest (device 200)).step (.prepare (getting (.lit "o")))).Whole :=
  sdk_whole (reachable_first rfl (getting_valid _ _) (by decide))

end KiiThing

import KiiThing.Core.Ready

/-!
# Exchanges and what was before

Two objects that differ in what earlier exchanges left behind prepare the same request, call the
callbacks in the same way and end alike: the two runs go in step (`Pair`). What an accepted response
says is the same too, with one exception: the length of the body is only set together with the
pointer to it, so that a response without an end of its header shows the length of an earlier one
(`sameResponse_iff`).
-/

namespace KiiThing

open Http

variable {w : Nat}

/-! ## Runs in step -/

/-- Two objects with the same request to be sent to the same host. -/
structure Alike (k₁ k₂ : Core w) : Prop where
  total : k₁.http.totalSendSize = k₂.http.totalSendSize
  size : k₁.bufferSize = k₂.bufferSize
  text : k₁.text = k₂.text
  host : k₁.hostStr k₁.http.host = k₂.hostStr k₂.http.host

/-- Two exchanges at the same point, with the same calls behind them. -/
inductive Pair (k₁ k₂ : Core w) : Exchange w → Exchange w → Prop
  | ready : Pair k₁ k₂ ⟨k₁, []⟩ ⟨k₂, []⟩
  | start : Pair k₁ k₂ ⟨{ k₁ with state := .execute }, []⟩ ⟨{ k₂ with state := .execute }, []⟩
  | connect {tr : List Event} :
      Pair k₁ k₂ ⟨k₁.during k₁.http.buffer 0 0 ⟨0, false⟩ .connect, tr⟩
        ⟨k₂.during k₂.http.buffer 0 0 ⟨0, false⟩ .connect, tr⟩
  | send {tr : List Event} {sent : Nat} (hsent : sent ≤ k₁.http.totalSendSize) :
      Pair k₁ k₂ ⟨k₁.during k₁.http.buffer sent 0 ⟨0, false⟩ .send, tr⟩
        ⟨k₂.during k₂.http.buffer sent 0 ⟨0, false⟩ .send, tr⟩
  | recv {tr : List Event} {b₁ b₂ : Buffer w} {sent n : Nat} {s : Scan} (hsize : b₁.size = b₂.size)
      (hb : n ≠ 0 → b₁ = b₂) :
      Pair k₁ k₂ ⟨k₁.during b₁ sent n s .recv, tr⟩ ⟨k₂.during b₂ sent n s .recv, tr⟩
  | close {tr : List Event} {b : Buffer w} {sent n : Nat} {s : Scan} :
      Pair k₁ k₂ ⟨k₁.during b sent n s .close, tr⟩ ⟨k₂.during b sent n s .close, tr⟩

/-- What a step leads to from both. -/
structure InStep (k₁ k₂ : Core w) (r₁ r₂ : ErrorCode × Exchange w) : Prop where
  code : r₁.1 = r₂.1
  trace : r₁.2.trace = r₂.2.trace
  busy : r₁.2.busy = r₂.2.busy
  pair : r₁.2.busy = true → Pair k₁ k₂ r₁.2 r₂.2

/-- The engine in the middle of an exchange. -/
theorem inStep_of_execute {k₁ k₂ : Core w} {cbs : Callbacks} {x₁ x₂ y₁ y₂ : Exchange w}
    {c : HttpCode} (h₁ : x₁.core.state = .execute) (h₂ : x₂.core.state = .execute)
    (hx₁ : prvKiiHttpExecute cbs x₁ = (c, y₁)) (hx₂ : prvKiiHttpExecute cbs x₂ = (c, y₂))
    (htrace : y₁.trace = y₂.trace)
    (hagain : c = .again → Pair k₁ k₂ y₁ y₂ ∧ y₁.core.state = .execute ∧ y₂.core.state = .execute) :
    InStep k₁ k₂ (kiiCoreRun cbs x₁) (kiiCoreRun cbs x₂) := by
  cases c with
  | ok =>
    rw [kiiCoreRun_ok h₁ hx₁, kiiCoreRun_ok h₂ hx₂]
    refine ⟨rfl, htrace, rfl, ?_⟩
    intro hbusy
    cases hbusy
  | fail =>
    rw [kiiCoreRun_fail h₁ hx₁, kiiCoreRun_fail h₂ hx₂]
    refine ⟨rfl, htrace, rfl, ?_⟩
    intro hbusy
    cases hbusy
  | again =>
    obtain ⟨hpair, hs₁, hs₂⟩ := hagain rfl
    rw [kiiCoreRun_again h₁ hx₁, kiiCoreRun_again h₂ hx₂]
    refine ⟨rfl, htrace, ?_, fun _ => hpair⟩
    simp only [Exchange.busy, hs₁, hs₂]

/-- What a read does to an object in the middle of an exchange does not depend on its other
fields. -/
theorem takeRead_during (k₁ k₂ : Core w) (b : Buffer w) (sent n : Nat) (s : Scan)
    (data : List Byte) :
    ((takeRead (k₁.during b sent n s .recv) data).1 = .fail ∧
      (takeRead (k₂.during b sent n s .recv) data).1 = .fail) ∨
    ∃ (b' : Buffer w) (n' : Nat) (s' : Scan) (st : SocketState), (st = .recv ∨ st = .close) ∧
      takeRead (k₁.during b sent n s .recv) data = (.again, k₁.during b' sent n' s' st) ∧
      takeRead (k₂.during b sent n s .recv) data = (.again, k₂.during b' sent n' s' st) := by
  by_cases hfull : (b.write n data).size ≤ n + data.length
  · left
    unfold takeRead
    dsimp only [Core.during]
    rw [if_pos hfull, if_pos hfull]
    exact ⟨rfl, rfl⟩
  · right
    obtain ⟨y, hy⟩ : ∃ y, y = (takeRead (k₁.during b sent n s .recv) data).2 := ⟨_, rfl⟩
    refine ⟨y.http.buffer, y.http.receivedSize, ⟨y.http.responseLength, y.http.contentLengthScanned⟩,
      y.http.socketState, ?_, ?_, ?_⟩
    all_goals
      rw [hy]
      unfold takeRead
      dsimp only [Core.during]
      rw [if_neg hfull]
    · exact (ite_eq_or_eq _ _ _).symm
    · rw [if_neg hfull]

section

variable {k₁ k₂ : Core w} {cbs : Callbacks}

theorem takeResponse_code {k₁ k₂ : Core w} (h : k₁.http.buffer = k₂.http.buffer) :
    (takeResponse k₁).1 = (takeResponse k₂).1 := by
  unfold takeResponse
  rw [h]
  split <;> rfl

theorem InStep.connect {tr : List Event} (h : Alike k₁ k₂) :
    InStep k₁ k₂ (kiiCoreRun cbs ⟨k₁.during k₁.http.buffer 0 0 ⟨0, false⟩ .connect, tr⟩)
      (kiiCoreRun cbs ⟨k₂.during k₂.http.buffer 0 0 ⟨0, false⟩ .connect, tr⟩) := by
  obtain ⟨c, hc⟩ : ∃ c, c = Call.connect (k₁.hostStr k₁.http.host) kiiServerPort := ⟨_, rfl⟩
  obtain ⟨reply, hreply⟩ : ∃ reply, cbs tr c = reply := ⟨_, rfl⟩
  have hc₂ : c = Call.connect (k₂.hostStr k₂.http.host) kiiServerPort := by rw [hc, h.host]
  have h₁ := execute_connect k₁ k₁.http.buffer 0 0 ⟨0, false⟩ hc hreply
  have h₂ := execute_connect k₂ k₂.http.buffer 0 0 ⟨0, false⟩ hc₂ hreply
  cases hcode : reply.code <;> simp only [answered, hcode] at h₁ h₂
  · exact inStep_of_execute rfl rfl h₁ h₂ rfl fun _ => ⟨.send (Nat.zero_le _), rfl, rfl⟩
  · apply inStep_of_execute rfl rfl h₁ h₂ rfl
    intro hagain
    cases hagain
  · exact inStep_of_execute rfl rfl h₁ h₂ rfl fun _ => ⟨.connect, rfl, rfl⟩

/-- What is sent next is part of the request. -/
theorem slice_text (k : Core w) {sent n : Nat} (h : sent + n ≤ k.http.totalSendSize) :
    Memory.slice k.http.buffer.bytes sent n = Memory.slice k.text sent n := by
  rw [Memory.slice, Memory.slice, Core.text, List.drop_take, List.take_take,
    Nat.min_eq_left (by omega)]

theorem InStep.send {tr : List Event} {sent : Nat} (h : Alike k₁ k₂)
    (hsent : sent ≤ k₁.http.totalSendSize) :
    InStep k₁ k₂ (kiiCoreRun cbs ⟨k₁.during k₁.http.buffer sent 0 ⟨0, false⟩ .send, tr⟩)
      (kiiCoreRun cbs ⟨k₂.during k₂.http.buffer sent 0 ⟨0, false⟩ .send, tr⟩) := by
  obtain ⟨size, hsize⟩ : ∃ size, size = min (k₁.http.totalSendSize - sent) kiiSocketMaxBuffSize :=
    ⟨_, rfl⟩
  obtain ⟨c, hc⟩ : ∃ c, c = Call.send (Memory.slice k₁.text sent size) := ⟨_, rfl⟩
  obtain ⟨reply, hreply⟩ : ∃ reply, cbs tr c = reply := ⟨_, rfl⟩
  have hc₁ : c = .send (Memory.slice k₁.http.buffer.bytes sent size) := by
    rw [hc, slice_text k₁ (by omega)]
  have hc₂ : c = .send (Memory.slice k₂.http.buffer.bytes sent size) := by
    have := h.total
    rw [hc, h.text, slice_text k₂ (by omega)]
  have h₁ := execute_send k₁ k₁.http.buffer sent 0 ⟨0, false⟩ hsize hc₁ hreply
  have h₂ := execute_send k₂ k₂.http.buffer sent 0 ⟨0, false⟩ (h.total ▸ hsize) hc₂ hreply
  rw [← h.total] at h₂
  cases hcode : reply.code <;> simp only [answered, hcode] at h₁ h₂
  · refine inStep_of_execute rfl rfl h₁ h₂ rfl fun _ => ⟨?_, rfl, rfl⟩
    by_cases hall : sent + size = k₁.http.totalSendSize
    · rw [if_pos hall]
      exact .recv h.size fun hne => absurd rfl hne
    · rw [if_neg hall]
      exact .send (by omega)
  · apply inStep_of_execute rfl rfl h₁ h₂ rfl
    intro hagain
    cases hagain
  · exact inStep_of_execute rfl rfl h₁ h₂ rfl fun _ => ⟨.send hsent, rfl, rfl⟩

theorem InStep.recv {tr : List Event} {b₁ b₂ : Buffer w} {sent n : Nat} {s : Scan}
    (hsize : b₁.size = b₂.size) (hb : n ≠ 0 → b₁ = b₂) :
    InStep k₁ k₂ (kiiCoreRun cbs ⟨k₁.during b₁ sent n s .recv, tr⟩)
      (kiiCoreRun cbs ⟨k₂.during b₂ sent n s .recv, tr⟩) := by
  obtain ⟨b, hclear⟩ : ∃ b, b = if n = 0 then b₁.clear else b₁ := ⟨_, rfl⟩
  have hclear₂ : b = if n = 0 then b₂.clear else b₂ := by
    rw [hclear]
    split
    · apply Buffer.ext
      rw [Buffer.bytes_clear, Buffer.bytes_clear, hsize]
    · next hne => exact hb hne
  obtain ⟨c, hc⟩ : ∃ c, c = Call.recv (min (b₁.size - n) kiiSocketMaxBuffSize) := ⟨_, rfl⟩
  obtain ⟨reply, hreply⟩ : ∃ reply, cbs tr c = reply := ⟨_, rfl⟩
  have hc₂ : c = Call.recv (min (b₂.size - n) kiiSocketMaxBuffSize) := by rw [hc, hsize]
  have h₁ := execute_recv k₁ b₁ sent n s hclear hc hreply
  have h₂ := execute_recv k₂ b₂ sent n s hclear₂ hc₂ hreply
  cases hcode : reply.code <;> simp only [answered, hcode] at h₁ h₂
  · rcases takeRead_during k₁ k₂ b sent n s reply.data with
      ⟨hf₁, hf₂⟩ | ⟨b', n', s', st, hst, ht₁, ht₂⟩
    · rw [hf₁] at h₁
      rw [hf₂] at h₂
      apply inStep_of_execute rfl rfl h₁ h₂ rfl
      intro hagain
      cases hagain
    · rw [ht₁] at h₁
      rw [ht₂] at h₂
      refine inStep_of_execute rfl rfl h₁ h₂ rfl fun _ => ⟨?_, rfl, rfl⟩
      rcases hst with rfl | rfl
      · exact .recv rfl fun _ => rfl
      · exact .close
  · apply inStep_of_execute rfl rfl h₁ h₂ rfl
    intro hagain
    cases hagain
  · exact inStep_of_execute rfl rfl h₁ h₂ rfl fun _ => ⟨.recv rfl fun _ => rfl, rfl, rfl⟩

theorem InStep.close {tr : List Event} {b : Buffer w} {sent n : Nat} {s : Scan} :
    InStep k₁ k₂ (kiiCoreRun cbs ⟨k₁.during b sent n s .close, tr⟩)
      (kiiCoreRun cbs ⟨k₂.during b sent n s .close, tr⟩) := by
  obtain ⟨reply, hreply⟩ : ∃ reply, cbs tr .close = reply := ⟨_, rfl⟩
  have h₁ := execute_close k₁ b sent n s hreply
  have h₂ := execute_close k₂ b sent n s hreply
  cases hcode : reply.code <;> simp only [answered, hcode] at h₁ h₂
  · have hsame : (takeResponse (k₂.during b sent n s .close)).1 =
        (takeResponse (k₁.during b sent n s .close)).1 := takeResponse_code rfl
    rw [hsame] at h₂
    apply inStep_of_execute rfl rfl h₁ h₂ rfl
    intro hagain
    exact absurd hagain (takeResponse_again _)
  · apply inStep_of_execute rfl rfl h₁ h₂ rfl
    intro hagain
    cases hagain
  · exact inStep_of_execute rfl rfl h₁ h₂ rfl fun _ => ⟨.close, rfl, rfl⟩

/-- **Two exchanges go in step.** -/
theorem Pair.step (hk₁ : Prepared k₁) (hk₂ : Prepared k₂) (h : Alike k₁ k₂) {x₁ x₂ : Exchange w}
    (hx : Pair k₁ k₂ x₁ x₂) : InStep k₁ k₂ (kiiCoreRun cbs x₁) (kiiCoreRun cbs x₂) := by
  cases hx with
  | ready =>
    have hrun : ∀ k : Core w, Prepared k →
        kiiCoreRun cbs ⟨k, []⟩ = (.ok, ⟨{ k with state := .execute }, []⟩) := by
      intro k hk
      simp [kiiCoreRun, hk.state]
    rw [hrun k₁ hk₁, hrun k₂ hk₂]
    exact ⟨rfl, rfl, rfl, fun _ => .start⟩
  | start =>
    have hexec : ∀ k : Core w, Prepared k → prvKiiHttpExecute cbs ⟨{ k with state := .execute }, []⟩ =
        (.again, ⟨k.during k.http.buffer 0 0 ⟨0, false⟩ .connect, []⟩) := by
      intro k hk
      simp only [prvKiiHttpExecute, hk.idle]
      rfl
    exact inStep_of_execute rfl rfl (hexec k₁ hk₁) (hexec k₂ hk₂) rfl fun _ => ⟨.connect, rfl, rfl⟩
  | connect => exact InStep.connect h
  | send hsent => exact InStep.send h hsent
  | recv hsize hb => exact InStep.recv hsize hb
  | close => exact InStep.close

/-- **Whole exchanges go in step**: with the same calls, to the same result. -/
theorem runToIdle_alike (hk₁ : Prepared k₁) (hk₂ : Prepared k₂) (h : Alike k₁ k₂) {fuel : Nat}
    {code : ErrorCode} {x₁ : Exchange w} (hrun : runToIdle cbs fuel k₁ = some (code, x₁)) :
    ∃ x₂, runToIdle cbs fuel k₂ = some (code, x₂) ∧ x₂.trace = x₁.trace := by
  have hsteps : ∀ x y, Pair k₁ k₂ x y → InStep k₁ k₂ (kiiCoreRun cbs x) (kiiCoreRun cbs y) :=
    fun _ _ hxy => hxy.step hk₁ hk₂ h
  obtain ⟨y₁, y₂, hpair, hlast, hrun'⟩ := Loop.doWhile_of_relation (Pair k₁ k₂)
    (fun x y hxy => (hsteps x y hxy).busy)
    (fun x y hxy hbusy => (hsteps x y hxy).pair hbusy) Pair.ready hrun
  have hstep := hsteps y₁ y₂ hpair
  rw [hlast] at hstep
  have hcode : code = (kiiCoreRun cbs y₂).1 := hstep.code
  refine ⟨(kiiCoreRun cbs y₂).2, ?_, hstep.trace.symm⟩
  rw [runToIdle, hrun', hcode]

end

/-! ## Objects that differ in what was before -/

/-- The two objects differ in what earlier exchanges have left behind, and in nothing else. -/
structure SameButLeftovers (k₁ k₂ : Core w) : Prop where
  size : k₂.bufferSize = k₁.bufferSize
  rest : k₂ = { k₁ with
    http.buffer := k₂.http.buffer
    http.sentSize := k₂.http.sentSize
    http.receivedSize := k₂.http.receivedSize
    http.responseLength := k₂.http.responseLength
    http.contentLengthScanned := k₂.http.contentLengthScanned
    http.socketState := k₂.http.socketState
    http.httpError := k₂.http.httpError
    responseCode := k₂.responseCode
    responseBody := k₂.responseBody
    responseBodyLength := k₂.responseBodyLength }

/-- A way to prepare a request: one call, or start, appended parts and end. -/
inductive Making where
  | call (p : Preparation)
  | composed (s : Start) (as : List Append)

namespace Making

def run (k : Core w) : Making → Result ErrorCode w
  | call p => p.run k
  | composed s as => if (s.run k).isOk then s.finish k as else ⟨.fail, (s.run k).core⟩

def Valid (k : Core w) : Making → Prop
  | call p => p.Valid k
  | composed _ as => ∀ a ∈ as, a.Valid w

/-- The message that is written. -/
def message (k : Core w) : Making → Request
  | call p => p.message k
  | composed s as => s.request k as

theorem run_composed {k : Core w} {s : Start} {as : List Append} (h : (s.run k).isOk = true) :
    (composed s as).run k = s.finish k as := by
  rw [run, if_pos h]

/-- The end is only called behind a start that succeeded. -/
theorem start_isOk {k : Core w} {s : Start} {as : List Append}
    (h : ((composed s as).run k).code = .ok) : (s.run k).isOk = true := by
  by_contra hno
  rw [run, if_neg hno] at h
  cases h

theorem prepares {k : Core w} {m : Making} (hvalid : m.Valid k) (hok : (m.run k).code = .ok) :
    ∃ room, Prepares k (m.run k) room (m.message k) := by
  cases m with
  | call p => exact ⟨_, Preparation.prepares hvalid⟩
  | composed s as =>
    have hstart := start_isOk hok
    rw [run_composed hstart]
    exact ⟨_, finish_prepares hvalid (Result.isOk_iff.mp hstart)⟩

end Making

section

variable {k₁ k₂ : Core w}

/-- Two preparations of one message. -/
theorem Prepares.alike (hsame : SameButLeftovers k₁ k₂) {r₁ r₂ : Result ErrorCode w}
    {room₁ room₂ : Prop} {req : Request} (h₁ : Prepares k₁ r₁ room₁ req)
    (h₂ : Prepares k₂ r₂ room₂ req) (hok₁ : r₁.code = .ok) (hok₂ : r₂.code = .ok) :
    Alike r₁.core r₂.core where
  total := (h₁.totalSendSize hok₁).trans (h₂.totalSendSize hok₂).symm
  size := by rw [h₁.size, h₂.size, hsame.size]
  text := (h₁.sent hok₁).trans (h₂.sent hok₂).symm
  host := by
    rw [h₁.host hok₁, h₂.host hok₂, hsame.rest]
    rfl

theorem SameButLeftovers.args (h : SameButLeftovers k₁ k₂) (c : RequestCall) :
    c.args k₂ = c.args k₁ := by
  rw [h.rest]
  cases c <;> rfl

theorem SameButLeftovers.request (h : SameButLeftovers k₁ k₂) (method path : CString)
    (headers : List Header) (body : List Byte) :
    k₂.request method path headers body = k₁.request method path headers body := by
  rw [h.rest]
  rfl

theorem SameButLeftovers.draft (h : SameButLeftovers k₁ k₂) (method path : CString)
    (headers : List Header) (tail : List Byte) :
    k₂.draft method path headers tail = k₁.draft method path headers tail := by
  rw [h.rest]
  rfl

theorem SameButLeftovers.room (h : SameButLeftovers k₁ k₂) (method path : CString) :
    k₂.room method path ↔ k₁.room method path := by
  rw [Core.room, Core.room, h.size, show k₂.appHost = k₁.appHost by rw [h.rest]]

/-- What a call prepares does not depend on what was before. -/
theorem SameButLeftovers.preparation (h : SameButLeftovers k₁ k₂) (p : Preparation) :
    p.message k₂ = p.message k₁ ∧
      ((k₂.room (p.line k₂).1 (p.line k₂).2 ∧ p.checks k₂) ↔
        (k₁.room (p.line k₁).1 (p.line k₁).2 ∧ p.checks k₁)) ∧
      (p.Valid k₂ ↔ p.Valid k₁) := by
  cases p with
  | request c =>
    obtain ⟨a, ha⟩ : ∃ a, a = c.args k₁ := ⟨_, rfl⟩
    have ha₂ : c.args k₂ = a := (h.args c).trans ha.symm
    simp only [Preparation.message, Preparation.line, Preparation.checks, Preparation.Valid, ha₂,
      ← ha, RequestArgs.message, RequestArgs.encodingSent, RequestArgs.sizeBefore, h.request,
      h.draft, h.room, h.size, and_self]
  | _ =>
    have hsize := h.size
    rw [h.rest] at hsize ⊢
    exact ⟨rfl, by unfold Core.room; rw [hsize]; rfl, Iff.rfl⟩

theorem SameButLeftovers.startRoom (h : SameButLeftovers k₁ k₂) (method path : CString)
    (setAuthenticationHeader : Bool) :
    startRoom k₂ method path setAuthenticationHeader ↔
      startRoom k₁ method path setAuthenticationHeader := by
  rw [KiiThing.startRoom, KiiThing.startRoom, h.room, NoBearer, NoBearer,
    show k₂.author = k₁.author by rw [h.rest]]

theorem SameButLeftovers.startHeaders (h : SameButLeftovers k₁ k₂) (contentType : Option CString)
    (setAuthenticationHeader : Bool) :
    startHeaders k₂ contentType setAuthenticationHeader =
      startHeaders k₁ contentType setAuthenticationHeader := by
  rw [h.rest]
  rfl

/-- The incremental calls succeed from both, and compose one message. -/
theorem SameButLeftovers.composed (h : SameButLeftovers k₁ k₂) {s : Start} {as : List Append}
    (has : ∀ a ∈ as, a.Valid w) (hstart : (s.run k₁).code = .ok) :
    (s.run k₂).code = .ok ∧ s.request k₂ as = s.request k₁ as := by
  have hstart₂ : (s.run k₂).isOk = true := by
    have hok := Result.isOk_iff.mpr hstart
    rw [Start.run, start_isOk_iff] at hok ⊢
    rwa [h.startRoom, h.startHeaders, h.draft, h.size]
  refine ⟨Result.isOk_iff.mp hstart₂, ?_⟩
  have hcomposed₁ := start_composed (Result.isOk_iff.mpr hstart)
  have hcomposed₂ := start_composed hstart₂
  rw [h.startHeaders, h.draft] at hcomposed₂
  have hsize : (s.run k₂).core.bufferSize = (s.run k₁).core.bufferSize := by
    rw [Start.run, Start.run, start_composing.size, start_composing.size, h.size]
  have hcodes : (runAll (s.run k₂).core as).2 = (runAll (s.run k₁).core as).2 :=
    runAll_congr hcomposed₂ hcomposed₁ hsize has
  rw [Start.request, Start.request, Start.headers, Start.headers, Start.body, Start.body, hcodes,
    h.startHeaders, h.request]

/-- **What is prepared does not depend on what was before.** -/
theorem SameButLeftovers.making (h : SameButLeftovers k₁ k₂) {m : Making} (hvalid : m.Valid k₁)
    (hok : (m.run k₁).code = .ok) :
    m.Valid k₂ ∧ (m.run k₂).code = .ok ∧ m.message k₂ = m.message k₁ := by
  cases m with
  | call p =>
    obtain ⟨hmessage, hroom, hvalid'⟩ := h.preparation p
    have hvalid₂ : p.Valid k₂ := hvalid'.mpr hvalid
    refine ⟨hvalid₂, ?_, hmessage⟩
    have hfits := (Preparation.prepares hvalid).ok_iff.mp hok
    rw [← hroom, ← hmessage, ← h.size] at hfits
    exact (Preparation.prepares hvalid₂).ok_iff.mpr hfits
  | composed s as =>
    have hstart := Result.isOk_iff.mp (Making.start_isOk hok)
    obtain ⟨hstart₂, hrequest⟩ := h.composed hvalid hstart
    refine ⟨hvalid, ?_, hrequest⟩
    rw [Making.run_composed (Making.start_isOk hok)] at hok
    rw [Making.run_composed (Result.isOk_iff.mpr hstart₂)]
    have hfits := (finish_prepares hvalid hstart).ok_iff.mp hok
    rw [← hrequest, ← h.size, show k₁.state = k₂.state by rw [h.rest]] at hfits
    exact (finish_prepares hvalid hstart₂).ok_iff.mpr hfits

end

/-! ## What a response says -/

/-- The body as it is seen through `response_body`. -/
def Core.bodySeen (k : Core w) : Option (List Byte) :=
  k.responseBody.map fun p => k.http.buffer.bytes.drop p

/-- The two objects say the same of a response. -/
structure SameResponse (k₁ k₂ : Core w) : Prop where
  code : k₁.responseCode = k₂.responseCode
  body : k₁.bodySeen = k₂.bodySeen
  length : k₁.responseBodyLength = k₂.responseBodyLength

/-- The two objects go the same way: from `k₂` on the preparation succeeds too, and its exchange
makes the calls of `x₁` with the same bytes, gets the same answers and ends with the same result
`c`. When that is `KIIE_OK`, what is said of the response fulfils `P`. -/
def SameExchange (m : Making) (cbs : Callbacks) (fuel : Nat) (k₂ : Core w) (c : ErrorCode)
    (x₁ : Exchange w) (P : Core w → Core w → Prop) : Prop :=
  (m.run k₂).code = .ok ∧ ∃ x₂, runToIdle cbs fuel (m.run k₂).core = some (c, x₂) ∧
    x₂.trace = x₁.trace ∧ (c = .ok → P x₁.core x₂.core)

section

variable {k₁ k₂ : Core w}

/-- After the same reads, only a body that was not found can be told apart, by its length. -/
theorem Accepted.response_eq_iff {x₁ x₂ : Exchange w} {b₁ b₂ : Buffer w} {code₁ code₂ : Nat}
    (h₁ : Accepted k₁ x₁ b₁ code₁) (h₂ : Accepted k₂ x₂ b₂ code₂)
    (hsize : k₂.bufferSize = k₁.bufferSize) (htrace : x₂.trace = x₁.trace) :
    SameResponse x₁.core x₂.core ↔
      endOfHeader <:+: (received x₁.trace).takeWhile (· ≠ 0) ∨
        k₁.responseBodyLength = k₂.responseBodyLength := by
  have hbuffer : b₂ = b₁ := by
    have hb₁ := h₁.contains
    have hb₂ := h₂.contains
    rw [Buffer.Contains] at hb₁ hb₂
    apply Buffer.ext
    rw [hb₁, hb₂, hsize, htrace]
  obtain rfl := hbuffer
  have hcode : code₂ = code₁ := by
    have hstatus := h₂.status
    rw [h₁.status] at hstatus
    simpa using hstatus.symm
  have hbody := h₁.responseBody_eq_none_iff
  rw [h₁.core] at hbody ⊢
  rw [h₂.core, htrace, hcode]
  cases hp : b₂.strstr endOfHeader with
  | none =>
    simp only [hp, Option.map_none, Option.elim_none, true_iff] at hbody ⊢
    constructor
    · intro h
      exact Or.inr h.length
    · rintro (hend | hlength)
      · exact absurd hend hbody
      · exact ⟨rfl, rfl, hlength⟩
  | some p =>
    simp only [hp, Option.map_some, reduceCtorEq, false_iff, not_not] at hbody
    constructor
    · intro _
      exact Or.inl hbody
    · intro _
      exact ⟨rfl, rfl, rfl⟩

variable {m : Making} {cbs : Callbacks} {fuel : Nat} {c : ErrorCode} {x₁ : Exchange w}

/-- **When nothing of an earlier exchange shows through.** Bytes and result are the same in any case;
what an accepted response says is the same exactly when its header was ended by an empty line in
front of the first NUL that was received, or both objects carry the same old length. -/
theorem sameResponse_iff (h : SameButLeftovers k₁ k₂) (hvalid : m.Valid k₁)
    (hprep : (m.run k₁).code = .ok) (hrun : runToIdle cbs fuel (m.run k₁).core = some (c, x₁)) :
    SameExchange m cbs fuel k₂ c x₁ (fun _ _ => True) ∧
      (c = .ok → (SameExchange m cbs fuel k₂ c x₁ SameResponse ↔
        endOfHeader <:+: (received x₁.trace).takeWhile (· ≠ 0) ∨
          k₁.responseBodyLength = k₂.responseBodyLength)) := by
  obtain ⟨hvalid₂, hprep₂, hmessage⟩ := h.making hvalid hprep
  obtain ⟨_, hprepares₁⟩ := Making.prepares hvalid hprep
  obtain ⟨_, hprepares₂⟩ := Making.prepares hvalid₂ hprep₂
  rw [hmessage] at hprepares₂
  have hk₁ := hprepares₁.prepared hprep
  have hk₂ := hprepares₂.prepared hprep₂
  obtain ⟨x₂, hrun₂, htrace⟩ :=
    runToIdle_alike hk₁ hk₂ (hprepares₁.alike h hprepares₂ hprep hprep₂) hrun
  refine ⟨⟨hprep₂, x₂, hrun₂, htrace, fun _ => trivial⟩, ?_⟩
  intro hc
  rw [hc] at hrun hrun₂
  obtain ⟨b₁, code₁, hx₁⟩ := runToIdle_ok hk₁ hrun
  obtain ⟨b₂, code₂, hx₂⟩ := runToIdle_ok hk₂ hrun₂
  have hsize : (m.run k₂).core.bufferSize = (m.run k₁).core.bufferSize := by
    rw [hprepares₂.size, hprepares₁.size, h.size]
  have hiff := hx₁.response_eq_iff hx₂ hsize htrace
  rw [hprepares₁.responseBodyLength, hprepares₂.responseBodyLength] at hiff
  rw [← hiff]
  constructor
  · rintro ⟨-, x, hx, -, hresponse⟩
    -- the run from the second object is a function of it
    obtain rfl : x₂ = x := by
      rw [hc, hrun₂] at hx
      simpa using hx
    exact hresponse hc
  · intro hresponse
    exact ⟨hprep₂, x₂, by rw [hc, hrun₂], htrace, fun _ => hresponse⟩

end

/-- A device that has had an answer to its first request. -/
def deviceAfter (response : List Byte) : Core 64 :=
  ((runToIdle (serving [response]) 20 (deviceGet 300)).map fun r => r.2.core).getD (deviceGet 300)

/-- Two answers to one request leave objects that differ in nothing else. -/
theorem Accepted.sameButLeftovers {k : Core w} {x₁ x₂ : Exchange w} {b₁ b₂ : Buffer w}
    {code₁ code₂ : Nat} (h₁ : Accepted k x₁ b₁ code₁) (h₂ : Accepted k x₂ b₂ code₂) :
    SameButLeftovers x₁.core x₂.core where
  size := by
    rw [h₁.core, h₂.core]
    exact h₂.contains.size (Nat.le_of_lt h₂.short) |>.trans
      (h₁.contains.size (Nat.le_of_lt h₁.short)).symm
  rest := by
    rw [h₁.core, h₂.core]
    rfl

def twoBytes : List Byte := ascii "HTTP/1.1 200 OK\r\n\r\n\x7b\x7d"

def sevenBytes : List Byte := ascii "HTTP/1.1 200 OK\r\n\r\n\x7b\"a\":1\x7d"

theorem sameButLeftovers_deviceAfter :
    SameButLeftovers (deviceAfter twoBytes) (deviceAfter sevenBytes) := by
  have hok : ∀ response : List Byte, (runToIdle (serving [response]) 20 (deviceGet 300)).map (·.1) =
      some .ok → ∃ x b code, Accepted (deviceGet 300) x b code ∧ deviceAfter response = x.core := by
    intro response h
    obtain ⟨⟨code, x⟩, hx, rfl⟩ := Option.map_eq_some_iff.mp h
    obtain ⟨b, code, haccepted⟩ := runToIdle_ok prepared_deviceGet hx
    exact ⟨x, b, code, haccepted, by rw [deviceAfter, hx]; rfl⟩
  obtain ⟨x₁, b₁, code₁, hx₁, heq₁⟩ := hok twoBytes (by decide +kernel)
  obtain ⟨x₂, b₂, code₂, hx₂, heq₂⟩ := hok sevenBytes (by decide +kernel)
  rw [heq₁, heq₂]
  exact hx₁.sameButLeftovers hx₂

/-- To get the object once more. -/
def gettingAgain : Making :=
  .call (.request (.getObject ⟨.thing, .lit "th", .lit "b"⟩ (.lit "o")))

theorem gettingAgain_ok : (gettingAgain.run (deviceAfter twoBytes)).code = .ok := by decide +kernel

/-- The connection is closed behind the status line. -/
def closing : Callbacks := serving [ascii "HTTP/1.1 200 OK\r\n"]

/-- The response then shows the length of the earlier one. -/
theorem sameResponse_fails :
    SameButLeftovers (deviceAfter twoBytes) (deviceAfter sevenBytes) ∧
      gettingAgain.Valid (deviceAfter twoBytes) ∧
      (gettingAgain.run (deviceAfter twoBytes)).code = .ok ∧
      ∃ x₁, runToIdle closing 20 (gettingAgain.run (deviceAfter twoBytes)).core = some (.ok, x₁) ∧
        ¬ SameExchange gettingAgain closing 20 (deviceAfter sevenBytes) .ok x₁ SameResponse := by
  have hrun₁ : (runToIdle closing 20 (gettingAgain.run (deviceAfter twoBytes)).core).map
      (fun r => (r.1, r.2.core.responseBodyLength)) = some (.ok, 2) := by decide +kernel
  have hrun₂ : (runToIdle closing 20 (gettingAgain.run (deviceAfter sevenBytes)).core).map
      (fun r => (r.1, r.2.core.responseBodyLength)) = some (.ok, 7) := by decide +kernel
  obtain ⟨x₁, hx₁, hlength₁⟩ := exists_runToIdle_of_map (fun x => x.core.responseBodyLength) hrun₁
  refine ⟨sameButLeftovers_deviceAfter, ?_, gettingAgain_ok, x₁, hx₁, ?_⟩
  · rintro bs ⟨⟩
  · rintro ⟨-, x₂, hx₂, -, hresponse⟩
    have hlength₂ : x₂.core.responseBodyLength = 7 := by
      rw [hx₂] at hrun₂
      simpa using hrun₂
    have hsame := (hresponse rfl).length
    rw [hlength₁, hlength₂] at hsame
    exact absurd hsame (by decide)

/-- Another object is got in full, whatever came before. -/
theorem sameResponse_iff_of_get :
    ∃ x₁, runToIdle (serving [twoBytes]) 20 (gettingAgain.run (deviceAfter twoBytes)).core =
        some (.ok, x₁) ∧
      SameExchange gettingAgain (serving [twoBytes]) 20 (deviceAfter sevenBytes) .ok x₁
        SameResponse := by
  have hrun : (runToIdle (serving [twoBytes]) 20 (gettingAgain.run (deviceAfter twoBytes)).core).map
      (fun r => (r.1, received r.2.trace)) = some (.ok, twoBytes) := by decide +kernel
  obtain ⟨x₁, hx₁, hreceived⟩ := exists_runToIdle_of_map (fun x => received x.trace) hrun
  refine ⟨x₁, hx₁, ((sameResponse_iff sameButLeftovers_deviceAfter ?_ gettingAgain_ok hx₁).2
    rfl).mpr (Or.inl ?_)⟩
  · rintro bs ⟨⟩
  · rw [hreceived]
    decide

end KiiThing

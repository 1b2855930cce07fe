import KiiThing.Core.Fragmentation

/-!
# Sockets that are not ready

Every callback may answer `KII_SOCKETC_AGAIN`; the engine then stays where it is, and the loop around
`kii_core_run` makes the same call again. `Hesitates cbs sock` says that the callbacks `cbs` answer
what the socket `sock` answers, as soon as they answer anything else. A run against `cbs` ends with
the same code and the same object as the run against `sock`, and has made the same calls in between,
whether it succeeds or fails (`waiting_agrees`).
-/

namespace KiiThing

variable {w : Nat}

/-! ## What is left without waiting -/

/-- The answer is not `KII_SOCKETC_AGAIN`. -/
def Event.settled (e : Event) : Bool := e.reply.code != .again

/-- The calls that were not asked to be made again. -/
def settled (tr : List Event) : List Event := tr.filter Event.settled

/-- A socket that is always ready. -/
def Blocking (sock : Callbacks) : Prop := ∀ tr c, (sock tr c).code ≠ .again

/-- The callbacks ask to be called again, or answer what the socket answers, whose answers depend on
what was settled so far. -/
def Hesitates (cbs sock : Callbacks) : Prop :=
  ∀ tr c, (cbs tr c).code = .again ∨ cbs tr c = sock (settled tr) c

theorem settled_snoc_again {tr : List Event} {e : Event} (h : e.reply.code = .again) :
    settled (tr ++ [e]) = settled tr := by
  simp [settled, Event.settled, h]

theorem settled_snoc {tr : List Event} {e : Event} (h : e.reply.code ≠ .again) :
    settled (tr ++ [e]) = settled tr ++ [e] := by
  simp [settled, Event.settled, h]

/-! ## One step -/

/-- The call that an engine which has been started makes next. -/
def Core.nextCall (k : Core w) : Call :=
  match k.http.socketState with
  | .idle | .connect => .connect (k.hostStr k.http.host) kiiServerPort
  | .send => .send (Memory.slice k.http.buffer.bytes k.http.sentSize
      (min (k.http.totalSendSize - k.http.sentSize) kiiSocketMaxBuffSize))
  | .recv => .recv (min (k.http.buffer.size - k.http.receivedSize) kiiSocketMaxBuffSize)
  | .close => .close

/-- The object while the call is out: before the first read, the buffer is cleared. -/
def Core.inCall (k : Core w) : Core w :=
  match k.http.socketState with
  | .recv =>
    { k with http.buffer :=
        if k.http.receivedSize = 0 then k.http.buffer.clear else k.http.buffer }
  | _ => k

/-- What the engine makes of `KII_SOCKETC_OK`, when the object is as it is in the call. -/
def Core.settle (k : Core w) (data : List Byte) : HttpCode × Core w :=
  match k.http.socketState with
  | .idle | .connect => (.again, { k with http.socketState := .send })
  | .send =>
    let size := min (k.http.totalSendSize - k.http.sentSize) kiiSocketMaxBuffSize
    (.again, { k with
      http.sentSize := k.http.sentSize + size
      http.socketState := if k.http.sentSize + size = k.http.totalSendSize then .recv else .send })
  | .recv => takeRead k data
  | .close => takeResponse k

/-- **One step** of an engine that has been started is a call and what is made of its answer. -/
theorem execute_eq_answered (cbs : Callbacks) {k : Core w} (h : k.http.socketState ≠ .idle)
    (tr : List Event) : prvKiiHttpExecute cbs ⟨k, tr⟩ =
      answered k.inCall tr ⟨k.nextCall, cbs tr k.nextCall⟩
        (k.inCall.settle (cbs tr k.nextCall).data) := by
  have hin : k.http.socketState ≠ .recv → k.inCall = k := by
    intro hne
    unfold Core.inCall
    split
    · next hst => exact absurd hst hne
    · rfl
  cases hst : k.http.socketState with
  | idle => exact absurd hst h
  | connect =>
    rw [hin (by simp [hst]), prvKiiHttpExecute, Core.nextCall, Core.settle, hst]
    rfl
  | send =>
    rw [hin (by simp [hst]), prvKiiHttpExecute, Core.nextCall, Core.settle, hst]
    simp only [executeSend, hst]
    rfl
  | recv =>
    have hrecv : k.inCall = { k with http.buffer :=
        if k.http.receivedSize = 0 then k.http.buffer.clear else k.http.buffer } := by
      rw [Core.inCall, hst]
    have hsettle : k.inCall.http.socketState = .recv := by rw [hrecv, hst]
    rw [Core.settle, hsettle, prvKiiHttpExecute, Core.nextCall, hst, hrecv]
    rfl
  | close =>
    rw [hin (by simp [hst]), prvKiiHttpExecute, Core.nextCall, Core.settle, hst]
    rfl

/-! ### The same call again -/

theorem Core.inCall_eq (k : Core w) : k.inCall = k ∨ k.http.socketState = .recv ∧
    k.inCall = { k with http.buffer :=
      if k.http.receivedSize = 0 then k.http.buffer.clear else k.http.buffer } := by
  unfold inCall
  split
  · next hst => exact Or.inr ⟨hst, rfl⟩
  · exact Or.inl rfl

@[simp] theorem Core.inCall_state (k : Core w) : k.inCall.state = k.state := by
  rcases k.inCall_eq with h | ⟨-, h⟩ <;> rw [h]

@[simp] theorem Core.inCall_socketState (k : Core w) :
    k.inCall.http.socketState = k.http.socketState := by
  rcases k.inCall_eq with h | ⟨-, h⟩ <;> rw [h]

@[simp] theorem Core.inCall_nextCall (k : Core w) : k.inCall.nextCall = k.nextCall := by
  rcases k.inCall_eq with h | ⟨hst, h⟩
  · rw [h]
  · have hsize : k.inCall.http.buffer.size = k.http.buffer.size := by
      rw [h]
      dsimp only
      split
      · exact Buffer.size_clear _
      · rfl
    have hreceived : k.inCall.http.receivedSize = k.http.receivedSize := by rw [h]
    rw [nextCall, nextCall, inCall_socketState, hst, hsize, hreceived]

@[simp] theorem Core.inCall_inCall (k : Core w) : k.inCall.inCall = k.inCall := by
  rcases k.inCall_eq with h | ⟨hst, h⟩
  · rw [h, h]
  · have hclear : k.http.buffer.clear.clear = k.http.buffer.clear := by
      apply Buffer.ext
      simp
    rw [h, inCall]
    by_cases hfirst : k.http.receivedSize = 0
    all_goals simp [hst, hfirst, hclear]

/-- An engine that has been told to wait makes the same call again, and does the same. -/
theorem execute_inCall (cbs : Callbacks) {k : Core w} (h : k.http.socketState ≠ .idle)
    (tr : List Event) : prvKiiHttpExecute cbs ⟨k.inCall, tr⟩ = prvKiiHttpExecute cbs ⟨k, tr⟩ := by
  rw [execute_eq_answered cbs h, execute_eq_answered cbs (by rwa [Core.inCall_socketState])]
  simp

/-! ## Whole runs -/

/-- The exchange `x` stands where `y` does, after some waiting. -/
structure Lags (x y : Exchange w) : Prop where
  trace : y.trace = settled x.trace
  core : x.core = y.core ∨
    y.core.state = .execute ∧ y.core.http.socketState ≠ .idle ∧ x.core = y.core.inCall

/-- The same, after a call of `kii_core_run`. -/
structure SameResult (r r' : ErrorCode × Exchange w) : Prop where
  code : r.1 = r'.1
  core : r.2.core = r'.2.core
  trace : r'.2.trace = settled r.2.trace

theorem SameResult.lags {r r' : ErrorCode × Exchange w} (h : SameResult r r') : Lags r.2 r'.2 :=
  ⟨h.trace, Or.inl h.core⟩

theorem Lags.state {x y : Exchange w} (h : Lags x y) : x.core.state = y.core.state := by
  rcases h.core with heq | ⟨-, -, heq⟩ <;> rw [heq]
  exact y.core.inCall_state

/-- What `kii_core_run` makes of a step of the engine. -/
theorem sameResult_of_execute {cbs sock : Callbacks} {x y : Exchange w} {code : HttpCode}
    {k : Core w} {tr tr' : List Event} (hx : x.core.state = .execute) (hy : y.core.state = .execute)
    (hexec : prvKiiHttpExecute cbs x = (code, ⟨k, tr⟩))
    (hexec' : prvKiiHttpExecute sock y = (code, ⟨k, tr'⟩)) (htrace : tr' = settled tr) :
    SameResult (kiiCoreRun cbs x) (kiiCoreRun sock y) := by
  cases code with
  | ok =>
    rw [kiiCoreRun_ok hx hexec, kiiCoreRun_ok hy hexec']
    exact ⟨rfl, rfl, htrace⟩
  | again =>
    rw [kiiCoreRun_again hx hexec, kiiCoreRun_again hy hexec']
    exact ⟨rfl, rfl, htrace⟩
  | fail =>
    rw [kiiCoreRun_fail hx hexec, kiiCoreRun_fail hy hexec']
    exact ⟨rfl, rfl, htrace⟩

section

variable {cbs sock : Callbacks} {x y : Exchange w}

/-- **One step** waits, or it is the step of the exchange with the socket that is always ready. -/
theorem Lags.step (hcbs : Hesitates cbs sock) (hsock : Blocking sock) (h : Lags x y) :
    (kiiCoreRun cbs x).2.busy = true ∧ Lags (kiiCoreRun cbs x).2 y ∨
      SameResult (kiiCoreRun cbs x) (kiiCoreRun sock y) := by
  obtain ⟨k, tr⟩ := x
  obtain ⟨k', tr'⟩ := y
  obtain rfl : tr' = settled tr := h.trace
  have hstate : k.state = k'.state := h.state
  cases hst : k'.state with
  | idle | other _ =>
    obtain rfl : k = k' := h.core.resolve_right fun hlate => by simp [hst] at hlate
    right
    simp only [kiiCoreRun, hst]
    exact ⟨rfl, rfl, rfl⟩
  | ready =>
    obtain rfl : k = k' := h.core.resolve_right fun hlate => by simp [hst] at hlate
    right
    simp only [kiiCoreRun, hst]
    exact ⟨rfl, rfl, rfl⟩
  | execute =>
    rw [hst] at hstate
    by_cases hidle : k'.http.socketState = .idle
    · obtain rfl : k = k' := h.core.resolve_right fun hlate => hlate.2.1 hidle
      right
      have hexec (c : Callbacks) (tr : List Event) :
          prvKiiHttpExecute c ⟨k, tr⟩ = (.again, ⟨(executeIdle ⟨k, tr⟩).2.core, tr⟩) := by
        rw [prvKiiHttpExecute, hidle]
        rfl
      exact sameResult_of_execute hstate hst (hexec cbs tr) (hexec sock (settled tr)) rfl
    · -- in both exchanges the same call is next
      have hexec : prvKiiHttpExecute cbs ⟨k, tr⟩ = answered k'.inCall tr
          ⟨k'.nextCall, cbs tr k'.nextCall⟩ (k'.inCall.settle (cbs tr k'.nextCall).data) := by
        rcases h.core with heq | ⟨-, -, heq⟩
        · obtain rfl : k = k' := heq
          exact execute_eq_answered cbs hidle tr
        · obtain rfl : k = k'.inCall := heq
          rw [execute_inCall cbs hidle, execute_eq_answered cbs hidle]
      have hexec' := execute_eq_answered sock hidle (settled tr)
      by_cases hagain : (cbs tr k'.nextCall).code = .again
      · left
        have hwait : prvKiiHttpExecute cbs ⟨k, tr⟩ =
            (.again, ⟨k'.inCall, tr ++ [⟨k'.nextCall, cbs tr k'.nextCall⟩]⟩) := by
          rw [hexec, answered, hagain]
        rw [kiiCoreRun_again hstate hwait]
        refine ⟨by simp [Exchange.busy, hst], ?_, Or.inr ⟨hst, hidle, rfl⟩⟩
        exact (settled_snoc_again hagain).symm
      · right
        have hsame := (hcbs tr k'.nextCall).resolve_left hagain
        have htrace := @settled_snoc tr ⟨k'.nextCall, cbs tr k'.nextCall⟩ hagain
        rw [hsame] at hexec htrace
        rcases hcode : (sock (settled tr) k'.nextCall).code with _ | _ | _
        · rw [answered, hcode] at hexec hexec'
          exact sameResult_of_execute hstate hst hexec hexec' htrace.symm
        · rw [answered, hcode] at hexec hexec'
          exact sameResult_of_execute hstate hst hexec hexec' htrace.symm
        · exact absurd hcode (hsock _ _)

/-- **A run with waiting** ends as the run without does. -/
theorem runToIdle_settled {k : Core w} {fuel : Nat} {code : ErrorCode}
    (hcbs : Hesitates cbs sock) (hsock : Blocking sock)
    (h : runToIdle cbs fuel k = some (code, x)) :
    runToIdle sock fuel k = some (code, ⟨x.core, settled x.trace⟩) := by
  have hbusy : ∀ r r' : ErrorCode × Exchange w, SameResult r r' → r.2.busy = r'.2.busy :=
    fun r r' hr => congrArg (fun k : Core w => k.state != .idle) hr.core
  obtain ⟨⟨code', y⟩, hy, hcode, hcore, htrace⟩ := Loop.doWhile_of_stutter Lags SameResult
    (fun x y hxy => hxy.step hcbs hsock) hbusy (fun r r' hr _ => hr.lags) (t := ⟨k, []⟩)
    ⟨rfl, Or.inl rfl⟩ h
  rw [runToIdle, hy, Option.some.injEq, Prod.mk.injEq]
  refine ⟨hcode.symm, ?_⟩
  obtain ⟨core, tr⟩ := y
  obtain rfl : x.core = core := hcore
  obtain rfl : tr = settled x.trace := htrace
  rfl

/-- **The next call** behind `KII_SOCKETC_AGAIN`. -/
theorem kiiCoreRun_retry {c : Call} {reply : Reply}
    (h : (kiiCoreRun cbs x).2.trace = x.trace ++ [⟨c, reply⟩]) (hcode : reply.code = .again) :
    ∃ reply', (kiiCoreRun cbs (kiiCoreRun cbs x).2).2.trace =
      (kiiCoreRun cbs x).2.trace ++ [⟨c, reply'⟩] := by
  obtain ⟨k, tr⟩ := x
  have hsame : ¬ tr = tr ++ [⟨c, reply⟩] := by simp
  cases hst : k.state with
  | idle | other _ =>
    rw [kiiCoreRun, hst] at h
    exact absurd h hsame
  | ready =>
    rw [kiiCoreRun, hst] at h
    exact absurd h hsame
  | execute =>
    have htrace := (kiiCoreRun_execute cbs hst).1.symm.trans h
    by_cases hidle : k.http.socketState = .idle
    · rw [prvKiiHttpExecute, hidle] at htrace
      exact absurd htrace hsame
    · have hexec := execute_eq_answered cbs hidle tr
      have hevent : (⟨k.nextCall, cbs tr k.nextCall⟩ : Event) = ⟨c, reply⟩ := by
        rw [hexec, answered] at htrace
        split at htrace <;>
          exact List.singleton_inj.mp (List.append_cancel_left htrace)
      obtain ⟨rfl, rfl⟩ := Event.mk.inj hevent
      rw [answered, hcode] at hexec
      rw [kiiCoreRun_again hst hexec]
      -- the engine is where it was
      have hnext : ∀ tr', ∃ reply', (prvKiiHttpExecute cbs ⟨k.inCall, tr'⟩).2.trace =
          tr' ++ [⟨k.nextCall, reply'⟩] := by
        intro tr'
        rw [execute_inCall cbs hidle, execute_eq_answered cbs hidle, answered]
        split <;> exact ⟨_, rfl⟩
      rw [(kiiCoreRun_execute cbs (k.inCall_state.trans hst)).1]
      exact hnext _

end

/-- What is said of a run that is kept waiting: it ends as the run against the socket that is always
ready, after the same calls, and every call that is not answered is made again as it was. -/
structure WaitsOnly (cbs sock : Callbacks) (k : Core w) : Prop where
  agrees : ∃ fuel code x, runToIdle cbs fuel k = some (code, x) ∧
    runToIdle sock fuel k = some (code, ⟨x.core, settled x.trace⟩)
  retries : ∀ n c reply, (runs cbs k (n + 1)).trace = (runs cbs k n).trace ++ [⟨c, reply⟩] →
    reply.code = .again →
    ∃ reply', (runs cbs k (n + 2)).trace = (runs cbs k (n + 1)).trace ++ [⟨c, reply'⟩]

/-- **Waiting changes nothing.** -/
theorem waiting_agrees {k : Core w} {cbs sock : Callbacks} (hk : Prepared k)
    (hcbs : Hesitates cbs sock) (hsock : Blocking sock) (hpatient : Patient cbs k) :
    WaitsOnly cbs sock k where
  agrees := by
    obtain ⟨fuel, ⟨code, x⟩, hrun⟩ := exists_runToIdle_of_patient hk hpatient
    exact ⟨fuel, code, x, hrun, runToIdle_settled hcbs hsock hrun⟩
  retries := fun _ _ _ hcall hcode => kiiCoreRun_retry hcall hcode

/-- The server of `byteByByte`, without the waiting. -/
def atOnce (R : List Byte) : Callbacks
  | tr, .recv _ => ⟨.ok, (R.drop (received tr).length).take 1⟩
  | _, _ => ⟨.ok, []⟩

/-- What was received does not depend on the waiting. -/
theorem received_settled (tr : List Event) : received (settled tr) = received tr := by
  have hreads : reads (settled tr) = reads tr := by
    induction tr using List.reverseRecOn with
    | nil => rfl
    | append_singleton tr e ih =>
      by_cases hcode : e.reply.code = .again
      · have hread : e.read = none := by
          obtain ⟨_ | _ | _ | _, _ | _ | _, _⟩ := e <;> first | rfl | cases hcode
        rw [settled_snoc_again hcode, ih, reads_snoc_of_not_read hread]
      · rw [settled_snoc hcode, reads, reads, List.filterMap_append, List.filterMap_append]
        exact congrArg (· ++ _) ih
  rw [received_eq, received_eq, hreads]

theorem waiting_agrees_of_get :
    WaitsOnly (byteByByte fiveBytesResponse.bytes) (atOnce fiveBytesResponse.bytes)
      (deviceGet 300) := by
  apply waiting_agrees prepared_deviceGet
  · rintro tr (_ | _ | _ | _)
    · rw [byteByByte]
      split
      · exact Or.inl rfl
      · exact Or.inr rfl
    · exact Or.inr rfl
    · right
      rw [byteByByte, atOnce, received_settled]
    · exact Or.inr rfl
  · rintro tr (_ | _ | _ | _) h <;> cases h
  · exact patient_byteByByte prepared_deviceGet _

end KiiThing

import KiiThing.Core.Status

/-!
# The outcome of a run

`Turn` lists what one step of `prv_kii_http_execute` can do: the call it makes in the socket state
it is in, and what comes of the answer. From it and from the ways in which an exchange ends
(`Ended`) follows what the result of a run says: `outcome_iff` is about the error code, and
`runToIdle_ends` about the run coming to an end at all.
-/

namespace KiiThing

open Http

variable {w : Nat}

/-! ## One step of the engine -/

/-- What a step of the engine does. -/
inductive Turn (x : Exchange w) : HttpCode × Exchange w → Prop
  | start {k : Core w} (hst : x.core.http.socketState = .idle)
      (hst' : k.http.socketState = .connect) : Turn x (.again, ⟨k, x.trace⟩)
  | wait {k : Core w} {e : Event} (hst : x.core.http.socketState ≠ .idle)
      (hcode : e.reply.code = .again) (hst' : k.http.socketState = x.core.http.socketState) :
      Turn x (.again, ⟨k, x.trace ++ [e]⟩)
  | broken {k : Core w} {e : Event} (hcode : e.reply.code = .fail)
      (herror : k.http.httpError = .socket) : Turn x (.fail, ⟨k, x.trace ++ [e]⟩)
  | connected {k : Core w} {host : CString} {port : Nat} {data : List Byte}
      (hst : x.core.http.socketState = .connect) (hst' : k.http.socketState = .send) :
      Turn x (.again, ⟨k, x.trace ++ [⟨.connect host port, ⟨.ok, data⟩⟩]⟩)
  | sent {k : Core w} {chunk data : List Byte} (hst : x.core.http.socketState = .send)
      (hst' : k.http.socketState = .send ∨ k.http.socketState = .recv) :
      Turn x (.again, ⟨k, x.trace ++ [⟨.send chunk, ⟨.ok, data⟩⟩]⟩)
  | read {k : Core w} {n : Nat} {data : List Byte} (hst : x.core.http.socketState = .recv)
      (hst' : k.http.socketState = .recv ∨ k.http.socketState = .close) :
      Turn x (.again, ⟨k, x.trace ++ [⟨.recv n, ⟨.ok, data⟩⟩]⟩)
  | overflow {k : Core w} {n : Nat} {data : List Byte} (hst : x.core.http.socketState = .recv)
      (hge : x.core.bufferSize ≤ x.core.http.receivedSize + data.length)
      (herror : k.http.httpError = .insufficientBuffer) :
      Turn x (.fail, ⟨k, x.trace ++ [⟨.recv n, ⟨.ok, data⟩⟩]⟩)
  | closed {c : HttpCode} {k : Core w} {data : List Byte} (hst : x.core.http.socketState = .close)
      (hc : c ≠ .again) (herror : c = .fail → k.http.httpError = .invalidResponse) :
      Turn x (c, ⟨k, x.trace ++ [⟨.close, ⟨.ok, data⟩⟩]⟩)

/-- The result of a read: the buffer is full, or the engine goes on to receive or to close. -/
theorem takeRead_cases (k : Core w) (data : List Byte) :
    ((takeRead k data).1 = .fail ∧ k.bufferSize ≤ k.http.receivedSize + data.length ∧
      (takeRead k data).2.http.httpError = .insufficientBuffer) ∨
    ((takeRead k data).1 = .again ∧ ((takeRead k data).2.http.socketState = .close ∨
      (takeRead k data).2.http.socketState = k.http.socketState)) := by
  have hgoes : ∀ (c : Prop) [Decidable c], (if c then .close else k.http.socketState) =
      SocketState.close ∨ (if c then .close else k.http.socketState) = k.http.socketState := by
    intro c _
    split
    · exact Or.inl rfl
    · exact Or.inr rfl
  unfold takeRead
  dsimp only
  split
  · next hge =>
    rw [Buffer.size_write] at hge
    exact Or.inl ⟨rfl, hge, rfl⟩
  · exact Or.inr ⟨rfl, hgoes _⟩

theorem takeResponse_error (k : Core w) (h : (takeResponse k).1 = .fail) :
    (takeResponse k).2.http.httpError = .invalidResponse := by
  unfold takeResponse at h ⊢
  split at h
  · rfl
  · rfl
  · cases h

/-- What the engine does not touch: the state of the SDK object, and `normalizer_host`. -/
structure Untouched (k k' : Core w) : Prop where
  state : k'.state = k.state
  normalizerHost : k'.http.normalizerHost = k.http.normalizerHost
  nullAccess : k'.http.nullAccess = k.http.nullAccess

theorem Untouched.takeRead {k k' : Core w} (h : Untouched k k') (data : List Byte) :
    Untouched k (takeRead k' data).2 := by
  unfold KiiThing.takeRead
  dsimp only
  split
  · exact ⟨h.state, h.normalizerHost, h.nullAccess⟩
  · exact ⟨h.state, h.normalizerHost, h.nullAccess⟩

theorem Untouched.takeResponse {k k' : Core w} (h : Untouched k k') :
    Untouched k (takeResponse k').2 := by
  unfold KiiThing.takeResponse
  split
  · exact ⟨h.state, h.normalizerHost, h.nullAccess⟩
  · exact ⟨h.state, h.normalizerHost, h.nullAccess⟩
  · exact ⟨h.state, h.normalizerHost, h.nullAccess⟩

theorem execute_untouched (cbs : Callbacks) (x : Exchange w) :
    Untouched x.core (prvKiiHttpExecute cbs x).2.core := by
  unfold prvKiiHttpExecute
  split
  · exact ⟨rfl, rfl, rfl⟩
  · simp only [executeConnect, Exchange.ask]
    split <;> exact ⟨rfl, rfl, rfl⟩
  · simp only [executeSend, Exchange.ask]
    split <;> exact ⟨rfl, rfl, rfl⟩
  · simp only [executeRecv, Exchange.ask]
    split
    -- the buffer may have been cleared before the read
    · apply Untouched.takeRead
      exact ⟨rfl, rfl, rfl⟩
    · exact ⟨rfl, rfl, rfl⟩
    · exact ⟨rfl, rfl, rfl⟩
  · simp only [executeClose, Exchange.ask]
    split
    · apply Untouched.takeResponse
      exact ⟨rfl, rfl, rfl⟩
    · exact ⟨rfl, rfl, rfl⟩
    · exact ⟨rfl, rfl, rfl⟩

/-- **One step of the engine.** -/
theorem execute_turn (cbs : Callbacks) (x : Exchange w) : Turn x (prvKiiHttpExecute cbs x) := by
  unfold prvKiiHttpExecute
  cases hst : x.core.http.socketState with
  | idle => exact Turn.start hst rfl
  | connect =>
    have hne : x.core.http.socketState ≠ .idle := by simp [hst]
    simp only [executeConnect, Exchange.ask]
    generalize cbs x.trace _ = reply
    obtain ⟨_ | _ | _, data⟩ := reply
    · exact Turn.connected hst rfl
    · exact Turn.broken rfl rfl
    · exact Turn.wait hne rfl rfl
  | send =>
    have hne : x.core.http.socketState ≠ .idle := by simp [hst]
    simp only [executeSend, Exchange.ask]
    generalize cbs x.trace _ = reply
    obtain ⟨_ | _ | _, data⟩ := reply
    · apply Turn.sent hst
      dsimp only
      split
      · exact Or.inr rfl
      · exact Or.inl hst
    · exact Turn.broken rfl rfl
    · exact Turn.wait hne rfl rfl
  | recv =>
    have hne : x.core.http.socketState ≠ .idle := by simp [hst]
    simp only [executeRecv, Exchange.ask]
    generalize hk : ({ x.core with http.buffer := if x.core.http.receivedSize = 0
      then x.core.http.buffer.clear else x.core.http.buffer } : Core w) = k
    have hst' : k.http.socketState = .recv := by rw [← hk]; exact hst
    have hreceived : k.http.receivedSize = x.core.http.receivedSize := by rw [← hk]
    have hsize : k.bufferSize = x.core.bufferSize := by
      rw [← hk, Core.bufferSize]
      dsimp only
      split
      · exact Buffer.size_clear _
      · rfl
    generalize cbs x.trace _ = reply
    obtain ⟨_ | _ | _, data⟩ := reply
    · dsimp only
      rcases takeRead_cases k data with ⟨hcode, hge, herror⟩ | ⟨hcode, hgoes⟩
      · rw [hcode]
        rw [hsize, hreceived] at hge
        exact Turn.overflow hst hge herror
      · rw [hcode]
        rw [hst', or_comm] at hgoes
        exact Turn.read hst hgoes
    · exact Turn.broken rfl rfl
    · apply Turn.wait hne rfl
      rw [hst', hst]
  | close =>
    have hne : x.core.http.socketState ≠ .idle := by simp [hst]
    simp only [executeClose, Exchange.ask]
    generalize cbs x.trace _ = reply
    obtain ⟨_ | _ | _, data⟩ := reply
    · exact Turn.closed hst (takeResponse_again _) (takeResponse_error _)
    · exact Turn.broken rfl rfl
    · exact Turn.wait hne rfl rfl

/-- **A call of `kii_core_run`** on an object that is READY or in an exchange: the engine is started,
it goes on, or the exchange is over. -/
theorem kiiCoreRun_cases (cbs : Callbacks) {x : Exchange w}
    (hbusy : x.core.state = .ready ∨ x.core.state = .execute) :
    kiiCoreRun cbs x = (.ok, { x with core := { x.core with state := .execute } }) ∨
    (∃ z, kiiCoreRun cbs x = (.ok, z) ∧ Turn x (.again, z) ∧ z.core.state = .execute) ∨
    ∃ code c z, kiiCoreRun cbs x = (code, { z with core := { z.core with state := .idle } }) ∧
      Turn x (c, z) ∧ c ≠ .again ∧ (code = .ok ↔ c = .ok) := by
  rcases hbusy with hstate | hstate
  · left
    rw [kiiCoreRun, hstate]
  · right
    have hturn := execute_turn cbs x
    have huntouched := (execute_untouched cbs x).state
    rcases hexec : prvKiiHttpExecute cbs x with ⟨_ | _ | _, z⟩ <;> rw [hexec] at hturn huntouched
    · exact Or.inr ⟨.ok, .ok, z, kiiCoreRun_ok hstate hexec, hturn, by simp, by simp⟩
    · exact Or.inr ⟨.fail, .fail, z, kiiCoreRun_fail hstate hexec, hturn, by simp, by simp⟩
    · exact Or.inl ⟨z, kiiCoreRun_again hstate hexec, hturn, huntouched.trans hstate⟩

theorem Phase.busy {k : Core w} {x : Exchange w} (hk : Prepared k) (h : Phase k x) :
    x.core.state = .ready ∨ x.core.state = .execute := by
  cases h with
  | ready => exact Or.inl hk.state
  | _ => exact Or.inr rfl

/-- **The last step of a run**, before which every step has kept `Inv`. -/
theorem runToIdle_last {k : Core w} {cbs : Callbacks} {fuel : Nat} {code : ErrorCode}
    {x : Exchange w} (hk : Prepared k) (hrun : runToIdle cbs fuel k = some (code, x))
    (Inv : SocketState → List Event → Prop) (hinit : Inv .idle [])
    (hstep : ∀ y z : Exchange w, Inv y.core.http.socketState y.trace → Turn y (.again, z) →
      Inv z.core.http.socketState z.trace) :
    ∃ y z c, Phase k y ∧ Inv y.core.http.socketState y.trace ∧ Turn y (c, z) ∧ c ≠ .again ∧
      (code = .ok ↔ c = .ok) ∧ z.trace = x.trace ∧ z.core.http = x.core.http := by
  have hpreserved : ∀ y : Exchange w, Phase k y ∧ Inv y.core.http.socketState y.trace →
      (kiiCoreRun cbs y).2.busy = true → Phase k (kiiCoreRun cbs y).2 ∧
        Inv (kiiCoreRun cbs y).2.core.http.socketState (kiiCoreRun cbs y).2.trace := by
    rintro y ⟨hphase, hinv⟩ hagain
    obtain ⟨-, ⟨-, hnext, -⟩ | ⟨hidle, -⟩⟩ : Steps cbs k y := hphase.step hk
    · refine ⟨hnext, ?_⟩
      rcases kiiCoreRun_cases cbs (hphase.busy hk) with
        hcall | ⟨z, hcall, hturn, -⟩ | ⟨_, _, z, hcall, -⟩
      · rw [hcall]
        exact hinv
      · rw [hcall]
        exact hstep y z hinv hturn
      · rw [hcall] at hagain
        cases hagain
    · rw [hidle] at hagain
      cases hagain
  obtain ⟨y, ⟨hphase, hinv⟩, hlast, hidle⟩ := Loop.doWhile_of_invariant _ hpreserved
    ⟨Phase.ready, by rw [hk.idle]; exact hinit⟩ hrun
  rcases kiiCoreRun_cases cbs (hphase.busy hk) with
    hcall | ⟨z, hcall, -, hexecute⟩ | ⟨code', c, z, hcall, hturn, hc, hcode⟩ <;> rw [hcall] at hlast
  · obtain ⟨-, rfl⟩ := Prod.mk.inj hlast
    cases hidle
  · -- an engine that goes on leaves the object busy
    obtain ⟨-, rfl⟩ := Prod.mk.inj hlast
    simp [Exchange.busy, hexecute] at hidle
  · obtain ⟨rfl, rfl⟩ := Prod.mk.inj hlast
    exact ⟨y, z, c, hphase, hinv, hturn, hc, hcode, rfl, rfl⟩

/-! ## The error code -/

/-- `HTTP/1.1 ` and three figures behind it, at the first place where that text stands. The search
ends at the first NUL that was received. -/
def HasStatus (D : List Byte) : Prop :=
  ∃ i d₁ d₂ d₃, Search.find http1_1 (D.takeWhile (· ≠ 0)) = some i ∧
    [d₁, d₂, d₃] <+: D.drop (i + http1_1.length) ∧
    (Decimal.isDigit d₁ = true ∧ Decimal.isDigit d₂ = true ∧ Decimal.isDigit d₃ = true)

/-- A pattern that is found in front of the first NUL ends in front of it. -/
theorem drop_pad_of_find {n i : Nat} {pat D : List Byte}
    (h : Search.find pat (D.takeWhile (· ≠ 0)) = some i) :
    (Memory.pad n 0 D).drop (i + pat.length) = Memory.pad (n - (i + pat.length)) 0
      (D.drop (i + pat.length)) := by
  have hle := Search.find_add_length_le h
  have hlen := (List.takeWhile_prefix (l := D) (· ≠ 0)).length_le
  rw [Memory.pad, Memory.pad, List.drop_append_of_le_length (by omega), List.length_drop]
  congr 2
  omega

/-- The engine finds a status exactly where the response has one. -/
theorem Buffer.Contains.status_iff {b : Buffer w} {n : Nat} {D : List Byte} (h : b.Contains n D) :
    (∃ code, statusCode b = some (some code)) ↔ HasStatus D := by
  have hfind := h.strstr http1_1
  rw [Buffer.Contains] at h
  constructor
  · rintro ⟨code, hcode⟩
    obtain ⟨i, d₁, d₂, d₃, t, hi, hdrop, hdigits, -⟩ := statusCode_eq_some hcode
    rw [hfind] at hi
    refine ⟨i, d₁, d₂, d₃, hi, ?_, hdigits⟩
    rw [h, drop_pad_of_find hi] at hdrop
    -- no figure is a NUL, so all three were received
    apply prefix_of_prefix_pad (n := n - (i + http1_1.length))
    · intro c hc
      obtain rfl | rfl | rfl : c = d₁ ∨ c = d₂ ∨ c = d₃ := by simpa using hc
      · exact ne_zero_of_isDigit hdigits.1
      · exact ne_zero_of_isDigit hdigits.2.1
      · exact ne_zero_of_isDigit hdigits.2.2
    · rw [hdrop]
      exact ⟨t, rfl⟩
  · rintro ⟨i, d₁, d₂, d₃, hi, ⟨t, ht⟩, hdigits⟩
    have hdrop : b.bytes.drop (i + http1_1.length) = d₁ :: d₂ :: d₃ ::
        (t ++ List.replicate (n - (i + http1_1.length) - (D.drop (i + http1_1.length)).length) 0) := by
      rw [h, drop_pad_of_find hi, Memory.pad]
      nth_rewrite 1 [← ht]
      rfl
    rw [← hfind] at hi
    refine ⟨Decimal.digitOf d₁ * 100 + Decimal.digitOf d₂ * 10 + Decimal.digitOf d₃, ?_⟩
    simp only [statusCode, hi, hdrop, Option.map_some, if_pos hdigits]

/-- What the error code says of a run from `k` that has ended with `code`. -/
structure Truthful (k : Core w) (code : ErrorCode) (x : Exchange w) : Prop where
  ok_iff : code = .ok ↔ x.core.http.httpError = .none
  socket_iff : code = .fail →
    (x.core.http.httpError = .socket ↔ ∃ e ∈ x.trace, e.reply.code = .fail)
  insufficientBuffer_iff : code = .fail →
    (x.core.http.httpError = .insufficientBuffer ↔ k.bufferSize ≤ (received x.trace).length)
  invalidResponse_iff : code = .fail →
    (x.core.http.httpError = .invalidResponse ↔ (∀ e ∈ x.trace, e.reply.code ≠ .fail) ∧
      (received x.trace).length < k.bufferSize ∧ ¬ HasStatus (received x.trace))

/-- While an exchange goes on, less has been received than the buffer holds. -/
theorem Phase.received_lt {k : Core w} {x : Exchange w} (hk : Prepared k) (h : Phase k x) :
    (received x.trace).length < k.bufferSize := by
  have hpos : 0 < k.bufferSize := Nat.lt_of_le_of_lt (Nat.zero_le _) hk.fits
  cases h with
  | ready => exact hpos
  | start => exact hpos
  | connect hreads => rw [received_eq, hreads]; exact hpos
  | send hreads _ => rw [received_eq, hreads]; exact hpos
  | recv _ _ hlt _ => exact hlt
  | close _ hlt _ => exact hlt

/-- From the first read on, the variables of the engine tell what has been received. -/
theorem Phase.variables {k : Core w} {x : Exchange w} (hk : Prepared k) (h : Phase k x)
    (hst : x.core.http.socketState = .recv ∨ x.core.http.socketState = .close) :
    x.core.http.receivedSize = (received x.trace).length ∧ x.core.bufferSize = k.bufferSize ∧
      x.core.http.responseLength = (scan w k.bufferSize (reads x.trace)).responseLength := by
  have hidle := hk.idle
  cases h with
  | ready => rcases hst with hst | hst <;> rw [hidle] at hst <;> cases hst
  | start => rcases hst with hst | hst <;> rw [hidle] at hst <;> cases hst
  | connect _ => rcases hst with hst | hst <;> cases hst
  | send _ _ => rcases hst with hst | hst <;> cases hst
  | recv hsize _ _ _ => exact ⟨rfl, hsize, rfl⟩
  | close hb hlt _ => exact ⟨rfl, hb.size (Nat.le_of_lt hlt), rfl⟩

theorem read_of_fail {e : Event} (h : e.reply.code = .fail) : e.read = none := by
  obtain ⟨_ | _ | _ | _, code, data⟩ := e <;> cases h <;> rfl

/-- No callback has failed so far. -/
theorem calm_snoc {tr : List Event} {e : Event} (h : ∀ e' ∈ tr, e'.reply.code ≠ .fail)
    (he : e.reply.code ≠ .fail) : ∀ e' ∈ tr ++ [e], e'.reply.code ≠ .fail := by
  intro e' he'
  rcases List.mem_append.mp he' with he' | he'
  · exact h e' he'
  · rw [List.mem_singleton.mp he']
    exact he

/-- Every code but one is a failure. -/
theorem ErrorCode.eq_fail {c : ErrorCode} (h : c ≠ .ok) : c = .fail := by
  cases c with
  | ok => exact absurd rfl h
  | fail => rfl

section

variable {k : Core w} {x : Exchange w}

theorem Truthful.of_socket (herror : x.core.http.httpError = .socket)
    (hfail : ∃ e ∈ x.trace, e.reply.code = .fail)
    (hlt : (received x.trace).length < k.bufferSize) : Truthful k .fail x := by
  obtain ⟨e, he, hcode⟩ := hfail
  constructor
  · simp [herror]
  · intro _
    exact ⟨fun _ => ⟨e, he, hcode⟩, fun _ => herror⟩
  · intro _
    simp only [herror, reduceCtorEq, false_iff]
    omega
  · intro _
    simp only [herror, reduceCtorEq, false_iff]
    intro h
    exact h.1 e he hcode

theorem Truthful.of_overflow (herror : x.core.http.httpError = .insufficientBuffer)
    (hcalm : ∀ e ∈ x.trace, e.reply.code ≠ .fail)
    (hge : k.bufferSize ≤ (received x.trace).length) : Truthful k .fail x := by
  constructor
  · simp [herror]
  · intro _
    simp only [herror, reduceCtorEq, false_iff]
    rintro ⟨e, he, hcode⟩
    exact hcalm e he hcode
  · intro _
    exact ⟨fun _ => hge, fun _ => herror⟩
  · intro _
    simp only [herror, reduceCtorEq, false_iff]
    intro h
    exact Nat.not_lt.mpr hge h.2.1

theorem Truthful.of_invalid (herror : x.core.http.httpError = .invalidResponse)
    (hcalm : ∀ e ∈ x.trace, e.reply.code ≠ .fail)
    (hlt : (received x.trace).length < k.bufferSize) (hstatus : ¬ HasStatus (received x.trace)) :
    Truthful k .fail x := by
  constructor
  · simp [herror]
  · intro _
    simp only [herror, reduceCtorEq, false_iff]
    rintro ⟨e, he, hcode⟩
    exact hcalm e he hcode
  · intro _
    simp only [herror, reduceCtorEq, false_iff]
    omega
  · intro _
    exact ⟨fun _ => ⟨hcalm, hlt, hstatus⟩, fun _ => herror⟩

end

/-- **The error code tells the truth.** -/
theorem outcome_truthful {k : Core w} {cbs : Callbacks} {fuel : Nat} {code : ErrorCode}
    {x : Exchange w} (hk : Prepared k) (hrun : runToIdle cbs fuel k = some (code, x)) :
    Truthful k code x := by
  obtain ⟨y, z, c, hphase, hcalm, hturn, hc, hcode, htrace, hhttp⟩ := runToIdle_last hk hrun
    (fun _ tr => ∀ e ∈ tr, e.reply.code ≠ .fail) (by simp) (by
      intro y z hcalm hturn
      cases hturn with
      | start _ _ => exact hcalm
      | wait _ hcode _ => exact calm_snoc hcalm (by rw [hcode]; exact SocketCode.noConfusion)
      | connected _ _ => exact calm_snoc hcalm SocketCode.noConfusion
      | sent _ _ => exact calm_snoc hcalm SocketCode.noConfusion
      | read _ _ => exact calm_snoc hcalm SocketCode.noConfusion
      | closed _ hc _ => exact absurd rfl hc)
  have hlt := hphase.received_lt hk
  have hended := (runToIdle_ended hk hrun).1
  cases hturn with
  | @broken z e hfail herror =>
    obtain rfl : code = .fail := ErrorCode.eq_fail fun hok => by cases hcode.mp hok
    have hsnoc : x.trace = y.trace ++ [e] := htrace.symm
    apply Truthful.of_socket (hhttp ▸ herror)
    · exact ⟨e, by simp [hsnoc], hfail⟩
    · rw [hsnoc, received_eq, reads_snoc_of_not_read (read_of_fail hfail)]
      exact hlt
  | @overflow z n data hst hge herror =>
    obtain rfl : code = .fail := ErrorCode.eq_fail fun hok => by cases hcode.mp hok
    have hsnoc : x.trace = y.trace ++ [⟨.recv n, ⟨.ok, data⟩⟩] := htrace.symm
    obtain ⟨hreceived, hsize, -⟩ := hphase.variables hk (Or.inl hst)
    apply Truthful.of_overflow (hhttp ▸ herror)
    · rw [hsnoc]
      exact calm_snoc hcalm SocketCode.noConfusion
    · rw [hreceived, hsize] at hge
      rw [hsnoc, received_eq, reads_snoc_read rfl, List.flatten_append, List.length_append]
      simpa [received_eq] using hge
  | @closed _ z data hst _ herror =>
    have hsnoc : x.trace = y.trace ++ [⟨.close, ⟨.ok, data⟩⟩] := htrace.symm
    have hcalm' : ∀ e ∈ x.trace, e.reply.code ≠ .fail := by
      rw [hsnoc]
      exact calm_snoc hcalm SocketCode.noConfusion
    have hlt' : (received x.trace).length < k.bufferSize := by
      rw [hsnoc, received_eq, reads_snoc_of_not_read rfl]
      exact hlt
    cases hended with
    | @accepted _ b status h =>
      have hnone : x.core.http.httpError = .none := by rw [h.core]; rfl
      exact ⟨by simp [hnone], nofun, nofun, nofun⟩
    | socket htrace' hfail _ => exact absurd hfail (hcalm' _ (by rw [htrace']; simp))
    | overflow _ _ hge _ => exact absurd hge (Nat.not_le.mpr hlt')
    | invalid hb _ _ hstatus herror =>
      apply Truthful.of_invalid herror hcalm' hlt'
      rw [← hb.status_iff]
      rintro ⟨code, h⟩
      exact hstatus code h
  | _ => exact absurd rfl hc

/-- An answer that fills a buffer of 300 bytes, in two reads. -/
def tooLong : List (List Byte) := [List.replicate 200 120, List.replicate 100 120]

/-- A status behind a NUL. -/
def hiddenStatus : List Byte := 0 :: ascii "HTTP/1.1 200 OK\r\n\r\n"

/-- What is too long has no status either, but the code only says that it is too long; and a status
behind a NUL is not found. -/
theorem outcome_fails : Prepared (deviceGet 300) ∧
    (∃ x, runToIdle (serving tooLong) 20 (deviceGet 300) = some (.fail, x) ∧
      x.core.http.httpError = .insufficientBuffer ∧
      ¬ (x.core.http.httpError = .invalidResponse ↔
        (∀ e ∈ x.trace, e.reply.code ≠ .fail) ∧ ¬ HasStatus (received x.trace))) ∧
    ∃ x, runToIdle (serving [hiddenStatus]) 20 (deviceGet 300) = some (.fail, x) ∧
      http1_1 ++ ascii "200" <+: (received x.trace).drop 1 ∧
      x.core.http.httpError = .invalidResponse := by
  refine ⟨prepared_deviceGet, ?_, ?_⟩
  · have hrun : (runToIdle (serving tooLong) 20 (deviceGet 300)).map (fun r =>
        (r.1, received r.2.trace, r.2.trace.all (·.reply.code != .fail), r.2.core.http.httpError)) =
          some (.fail, tooLong.flatten, true, .insufficientBuffer) := by
      decide +kernel
    obtain ⟨x, hx, hfields⟩ := exists_runToIdle_of_map (fun x =>
      (received x.trace, x.trace.all (·.reply.code != .fail), x.core.http.httpError)) hrun
    obtain ⟨hreceived, hfields⟩ := Prod.mk.inj hfields
    obtain ⟨hcodes, herror⟩ := Prod.mk.inj hfields
    refine ⟨x, hx, herror, ?_⟩
    rw [herror]
    intro h
    refine absurd (h.mpr ⟨?_, ?_⟩) (by decide)
    · intro e he
      simpa using List.all_eq_true.mp hcodes e he
    · rintro ⟨i, _, _, _, hi, -⟩
      have hnone : Search.find http1_1 (tooLong.flatten.takeWhile (· ≠ 0)) = none := by
        decide +kernel
      rw [hreceived, hnone] at hi
      cases hi
  · have hrun : (runToIdle (serving [hiddenStatus]) 20 (deviceGet 300)).map
        (fun r => (r.1, received r.2.trace, r.2.core.http.httpError)) =
          some (.fail, hiddenStatus, .invalidResponse) := by decide +kernel
    obtain ⟨x, hx, hfields⟩ := exists_runToIdle_of_map
      (fun x => (received x.trace, x.core.http.httpError)) hrun
    obtain ⟨hreceived, herror⟩ := Prod.mk.inj hfields
    refine ⟨x, hx, ?_, herror⟩
    rw [hreceived]
    decide

theorem outcome_truthful_of_get :
    ∃ x, runToIdle (serving tooLong) 20 (deviceGet 300) = some (.fail, x) ∧
      Truthful (deviceGet 300) .fail x := by
  have hrun : (runToIdle (serving tooLong) 20 (deviceGet 300)).map Prod.fst = some .fail := by
    decide +kernel
  obtain ⟨⟨code, x⟩, hx, rfl⟩ := Option.map_eq_some_iff.mp hrun
  exact ⟨x, hx, outcome_truthful prepared_deviceGet hx⟩

/-! ## The end of a run -/

/-- A call asks for at most `KII_SOCKET_MAX_BUFF_SIZE` bytes and for no more than there is room for. -/
theorem execute_recv_length {cbs : Callbacks} {x : Exchange w} {n : Nat} {reply : Reply}
    (h : (prvKiiHttpExecute cbs x).2.trace = x.trace ++ [⟨.recv n, reply⟩]) :
    x.core.http.socketState = .recv ∧
      n = min (x.core.bufferSize - x.core.http.receivedSize) kiiSocketMaxBuffSize := by
  have hlast : ∀ {e : Event}, x.trace ++ [e] = x.trace ++ [⟨.recv n, reply⟩] →
      e.call = .recv n := by
    intro e he
    rw [List.append_cancel_left_eq, List.singleton_inj] at he
    rw [he]
  unfold prvKiiHttpExecute at h
  cases hst : x.core.http.socketState with
  | idle =>
    rw [hst] at h
    simp [executeIdle] at h
  | connect =>
    rw [hst] at h
    simp only [executeConnect, Exchange.ask] at h
    split at h <;> cases hlast h
  | send =>
    rw [hst] at h
    simp only [executeSend, Exchange.ask] at h
    split at h <;> cases hlast h
  | recv =>
    refine ⟨rfl, ?_⟩
    rw [hst] at h
    simp only [executeRecv, Exchange.ask] at h
    split at h <;> exact (Call.recv.inj (hlast h)).symm
  | close =>
    rw [hst] at h
    simp only [executeClose, Exchange.ask] at h
    split at h <;> cases hlast h

/-- **The run loop ends**, when `KII_SOCKETC_AGAIN` is answered finitely often in it, and every call
of `recv_cb` asks for some bytes and for no more than there is room for in the buffer. -/
theorem runToIdle_ends {k : Core w} {cbs : Callbacks} (hk : Prepared k)
    (hpatient : Patient cbs k) :
    (∃ fuel r, runToIdle cbs fuel k = some r) ∧
    ∀ n m reply, (runs cbs k (n + 1)).trace = (runs cbs k n).trace ++ [⟨.recv m, reply⟩] →
      0 < m ∧ m ≤ kiiSocketMaxBuffSize ∧
        (runs cbs k n).core.http.receivedSize + m ≤ (runs cbs k n).core.bufferSize := by
  refine ⟨exists_runToIdle_of_patient hk hpatient, ?_⟩
  intro n m reply hcall
  generalize hx : runs cbs k n = x at *
  have hphase := hx ▸ runs_phase cbs hk n
  rw [runs, hx] at hcall
  have hsame : ¬ x.trace = x.trace ++ [⟨.recv m, reply⟩] := by simp
  cases hstate : x.core.state with
  | idle | other _ =>
    rw [kiiCoreRun, hstate] at hcall
    exact absurd hcall hsame
  | ready =>
    rw [kiiCoreRun, hstate] at hcall
    exact absurd hcall hsame
  | execute =>
    rw [(kiiCoreRun_execute cbs hstate).1] at hcall
    obtain ⟨hst, hm⟩ := execute_recv_length hcall
    rcases hphase with hphase | hidle
    · obtain ⟨hreceived, hsize, -⟩ := hphase.variables hk (Or.inl hst)
      have hlt := hphase.received_lt hk
      have hmax : kiiSocketMaxBuffSize = 256 := rfl
      omega
    · rw [hstate] at hidle
      cases hidle

/-- A server that never closes the connection: it keeps the application waiting three times, and
then sends one byte with every read. -/
def endless : Callbacks
  | tr, .recv _ => if agains tr < 3 then ⟨.again, []⟩ else ⟨.ok, [120]⟩
  | _, _ => ⟨.ok, []⟩

theorem runToIdle_ends_of_get : Prepared (deviceGet 300) ∧
    ∃ fuel r, runToIdle endless fuel (deviceGet 300) = some r := by
  refine ⟨prepared_deviceGet, (runToIdle_ends prepared_deviceGet (patient_of_bound (N := 3) ?_)).1⟩
  intro tr c hagain
  cases c with
  | recv n =>
    simp only [endless] at hagain
    split at hagain
    · next hlt => exact hlt
    · cases hagain
  | _ => cases hagain

end KiiThing

import KiiThing.Core.Stream

/-!
# Whole exchanges

`Phase k x` says where in the exchange that was prepared in `k` the state `x` stands, with
everything that the later steps rely on; `Ended k r` lists the four ways in which an exchange ends.
One step goes from a phase to a phase or ends the exchange (`Phase.step`), so that
`runToIdle_ended` holds of whole runs by the loop rule. That a run ends at all is
`exists_runToIdle_of_patient`.
-/

namespace KiiThing

open Http

variable {w : Nat}

/-- A request has been prepared and not been started. -/
structure Prepared (k : Core w) : Prop where
  state : k.state = .ready
  idle : k.http.socketState = .idle
  fits : k.http.totalSendSize < k.bufferSize

/-- The object in the middle of the exchange that was prepared in `k`. -/
def Core.during (k : Core w) (b : Buffer w) (sent received : Nat) (s : Scan) (st : SocketState) :
    Core w :=
  { k with
    state := .execute
    http.buffer := b
    http.sentSize := sent
    http.receivedSize := received
    http.responseLength := s.responseLength
    http.contentLengthScanned := s.scanned
    http.socketState := st
    http.httpError := .none }

/-- The buffer holds the bytes `D` and NULs behind them. -/
def Buffer.Contains (b : Buffer w) (size : Nat) (D : List Byte) : Prop :=
  b.bytes = Memory.pad size 0 D

/-- Where an exchange stands. -/
inductive Phase (k : Core w) : Exchange w → Prop
  | ready : Phase k ⟨k, []⟩
  | start : Phase k ⟨{ k with state := .execute }, []⟩
  | connect {tr : List Event} (hreads : reads tr = []) :
      Phase k ⟨k.during k.http.buffer 0 0 ⟨0, false⟩ .connect, tr⟩
  | send {tr : List Event} {sent : Nat} (hreads : reads tr = [])
      (hsent : sent ≤ k.http.totalSendSize) :
      Phase k ⟨k.during k.http.buffer sent 0 ⟨0, false⟩ .send, tr⟩
  | recv {tr : List Event} {b : Buffer w} (hsize : b.size = k.bufferSize)
      (hb : received tr ≠ [] → b.Contains k.bufferSize (received tr))
      (hlt : (received tr).length < k.bufferSize) (hpending : Pending w k.bufferSize (reads tr)) :
      Phase k ⟨k.during b k.http.totalSendSize (received tr).length
        (scan w k.bufferSize (reads tr)) .recv, tr⟩
  | close {tr : List Event} {b : Buffer w} (hb : b.Contains k.bufferSize (received tr))
      (hlt : (received tr).length < k.bufferSize)
      (hfinished : Finished w k.bufferSize (reads tr)) :
      Phase k ⟨k.during b k.http.totalSendSize (received tr).length
        (scan w k.bufferSize (reads tr)) .close, tr⟩

/-- The end of an exchange whose response was taken. -/
structure Accepted (k : Core w) (x : Exchange w) (b : Buffer w) (code : Nat) : Prop where
  contains : b.Contains k.bufferSize (received x.trace)
  short : (received x.trace).length < k.bufferSize
  finished : Finished w k.bufferSize (reads x.trace)
  status : statusCode b = some (some code)
  core : x.core = { k.during b k.http.totalSendSize (received x.trace).length
      (scan w k.bufferSize (reads x.trace)) .idle with
    state := .idle
    responseCode := code
    responseBody := (b.strstr endOfHeader).map (· + 4)
    responseBodyLength := ((b.strstr endOfHeader).map (· + 4)).elim k.responseBodyLength
      ((received x.trace).length - ·) }

/-- How an exchange ends. -/
inductive Ended (k : Core w) : ErrorCode × Exchange w → Prop
  | accepted {x : Exchange w} {b : Buffer w} {code : Nat} (h : Accepted k x b code) :
      Ended k (.ok, x)
  | socket {x : Exchange w} {tr : List Event} {e : Event} (htrace : x.trace = tr ++ [e])
      (hfail : e.reply.code = .fail) (herror : x.core.http.httpError = .socket) : Ended k (.fail, x)
  | overflow {x : Exchange w} {rs : List (List Byte)} {r : List Byte}
      (hreads : reads x.trace = rs ++ [r]) (hpending : Pending w k.bufferSize rs)
      (hge : k.bufferSize ≤ (received x.trace).length)
      (herror : x.core.http.httpError = .insufficientBuffer) : Ended k (.fail, x)
  | invalid {x : Exchange w} {b : Buffer w} (hb : b.Contains k.bufferSize (received x.trace))
      (hlt : (received x.trace).length < k.bufferSize)
      (hfinished : Finished w k.bufferSize (reads x.trace))
      (hstatus : ∀ code, statusCode b ≠ some (some code))
      (herror : x.core.http.httpError = .invalidResponse) : Ended k (.fail, x)

/-- A call at the right time: a read asks for no more bytes than there is room for, it never asks for
none, and it is made only while the response is not complete. -/
def Timely (w size : Nat) (tr : List Event) (c : Call) : Prop :=
  ∀ n, c = .recv n → 0 < n ∧ n ≤ size - (received tr).length ∧ Pending w size (reads tr)

/-- A step calls one callback or none. -/
def Extends (w : Nat) (cbs : Callbacks) (size : Nat) (tr tr' : List Event) : Prop :=
  tr' = tr ∨ ∃ c, tr' = tr ++ [⟨c, cbs tr c⟩] ∧ Timely w size tr c

/-- How far an exchange is from its end, when no callback answers `KII_SOCKETC_AGAIN`. -/
def Core.rank (k : Core w) : Nat :=
  match k.state with
  | .idle | .other _ => 0
  | .ready => k.http.totalSendSize + k.bufferSize + 5
  | .execute =>
    match k.http.socketState with
    | .idle => k.http.totalSendSize + k.bufferSize + 4
    | .connect => k.http.totalSendSize + k.bufferSize + 3
    | .send => (k.http.totalSendSize - k.http.sentSize) + k.bufferSize + 2
    | .recv => (k.bufferSize - k.http.receivedSize) + 1
    | .close => 0

/-- The answers `KII_SOCKETC_AGAIN` of an exchange. -/
def agains (tr : List Event) : Nat := tr.countP (·.reply.code == .again)

/-- The exchange has come closer to its end, or it waits. -/
def Progress (x x' : Exchange w) : Prop :=
  (x'.core.rank < x.core.rank ∧ agains x.trace ≤ agains x'.trace) ∨
    (x'.core.rank = x.core.rank ∧ agains x'.trace = agains x.trace + 1)

/-- What a step of `kii_core_run` leads to. -/
def Goes (cbs : Callbacks) (k : Core w) (x : Exchange w) (r : ErrorCode × Exchange w) : Prop :=
  Extends w cbs k.bufferSize x.trace r.2.trace ∧
    ((r.2.busy = true ∧ Phase k r.2 ∧ Progress x r.2) ∨ (r.2.busy = false ∧ Ended k r))

/-- Where one step of `kii_core_run` from `x` leads. -/
abbrev Steps (cbs : Callbacks) (k : Core w) (x : Exchange w) : Prop :=
  Goes cbs k x (kiiCoreRun cbs x)

/-! ## One step -/

/-- The engine behind the call `e`: what a success does, and else the object `k` as it was, waiting
or with an error. -/
def answered (k : Core w) (tr : List Event) (e : Event) (ok : HttpCode × Core w) :
    HttpCode × Exchange w :=
  match e.reply.code with
  | .ok => (ok.1, ⟨ok.2, tr ++ [e]⟩)
  | .again => (.again, ⟨k, tr ++ [e]⟩)
  | .fail => (.fail, ⟨socketError k, tr ++ [e]⟩)

section

variable {cbs : Callbacks} {tr : List Event} {c : Call} {reply : Reply} (k : Core w) (b : Buffer w)
  (sent n : Nat) (s : Scan)

theorem execute_connect (hc : c = .connect (k.hostStr k.http.host) kiiServerPort)
    (hreply : cbs tr c = reply) :
    prvKiiHttpExecute cbs ⟨k.during b sent n s .connect, tr⟩ =
      answered (k.during b sent n s .connect) tr ⟨c, reply⟩ (.again, k.during b sent n s .send) := by
  rw [← hreply, hc]
  rfl

theorem execute_send {size : Nat}
    (hsize : size = min (k.http.totalSendSize - sent) kiiSocketMaxBuffSize)
    (hc : c = .send (Memory.slice b.bytes sent size)) (hreply : cbs tr c = reply) :
    prvKiiHttpExecute cbs ⟨k.during b sent n s .send, tr⟩ =
      answered (k.during b sent n s .send) tr ⟨c, reply⟩ (.again, k.during b (sent + size) n s
        (if sent + size = k.http.totalSendSize then .recv else .send)) := by
  rw [← hreply, hc, hsize]
  rfl

theorem execute_recv {b₀ : Buffer w} (hb₀ : b₀ = if n = 0 then b.clear else b)
    (hc : c = .recv (min (b.size - n) kiiSocketMaxBuffSize)) (hreply : cbs tr c = reply) :
    prvKiiHttpExecute cbs ⟨k.during b sent n s .recv, tr⟩ =
      answered (k.during b₀ sent n s .recv) tr ⟨c, reply⟩
        (takeRead (k.during b₀ sent n s .recv) reply.data) := by
  rw [← hreply, hc, hb₀]
  rfl

theorem execute_close (hreply : cbs tr .close = reply) :
    prvKiiHttpExecute cbs ⟨k.during b sent n s .close, tr⟩ =
      answered (k.during b sent n s .close) tr ⟨.close, reply⟩
        (takeResponse (k.during b sent n s .close)) := by
  rw [← hreply]
  rfl

end

theorem takeWhile_pad {n : Nat} (D : List Byte) :
    (Memory.pad n 0 D).takeWhile (· ≠ 0) = D.takeWhile (· ≠ 0) := by
  rw [Memory.pad, List.takeWhile_append]
  split
  · next h =>
    have hself : D.takeWhile (· ≠ 0) = D :=
      (List.takeWhile_prefix _).eq_of_length h
    simpa using hself.symm
  · rfl

theorem Buffer.Contains.strstr {b : Buffer w} {size : Nat} {D : List Byte} (h : b.Contains size D)
    (pat : List Byte) : b.strstr pat = Search.find pat (D.takeWhile (· ≠ 0)) := by
  rw [Buffer.strstr, h, takeWhile_pad]

theorem Buffer.Contains.size {b : Buffer w} {size : Nat} {D : List Byte} (h : b.Contains size D)
    (hle : D.length ≤ size) : b.size = size := by
  rw [Buffer.size, h, Memory.length_pad hle]

theorem Buffer.Contains.scanHeader {b : Buffer w} {size : Nat} {D : List Byte}
    (h : b.Contains size D) : scanHeader b = scanBytes w size D := by
  rw [KiiThing.scanHeader, scanBytes, h.strstr]
  rw [Buffer.Contains] at h
  simp only [h]

/-- A callback that reads nothing adds no bytes. -/
theorem reads_snoc_of_not_read {tr : List Event} {e : Event} (h : e.read = none) :
    reads (tr ++ [e]) = reads tr := by
  simp [reads, h]

theorem reads_snoc_read {tr : List Event} {e : Event} {r : List Byte} (h : e.read = some r) :
    reads (tr ++ [e]) = reads tr ++ [r] := by
  simp [reads, h]

theorem received_eq (tr : List Event) : received tr = (reads tr).flatten := rfl

section

variable {cbs : Callbacks} {x x' : Exchange w}

theorem kiiCoreRun_again (hstate : x.core.state = .execute)
    (h : prvKiiHttpExecute cbs x = (.again, x')) : kiiCoreRun cbs x = (.ok, x') := by
  simp [kiiCoreRun, hstate, h]

theorem kiiCoreRun_ok (hstate : x.core.state = .execute)
    (h : prvKiiHttpExecute cbs x = (.ok, x')) :
    kiiCoreRun cbs x = (.ok, { x' with core := { x'.core with state := .idle } }) := by
  simp [kiiCoreRun, hstate, h]

theorem kiiCoreRun_fail (hstate : x.core.state = .execute)
    (h : prvKiiHttpExecute cbs x = (.fail, x')) :
    kiiCoreRun cbs x = (.fail, { x' with core := { x'.core with state := .idle } }) := by
  simp [kiiCoreRun, hstate, h]

/-- In EXECUTE, `kii_core_run` adds nothing to what the engine does but the state. -/
theorem kiiCoreRun_execute (cbs : Callbacks) (hstate : x.core.state = .execute) :
    (kiiCoreRun cbs x).2.trace = (prvKiiHttpExecute cbs x).2.trace ∧
      (kiiCoreRun cbs x).2.core.http = (prvKiiHttpExecute cbs x).2.core.http := by
  rcases hexec : prvKiiHttpExecute cbs x with ⟨_ | _ | _, z⟩
  · rw [kiiCoreRun_ok hstate hexec]
    exact ⟨rfl, rfl⟩
  · rw [kiiCoreRun_fail hstate hexec]
    exact ⟨rfl, rfl⟩
  · rw [kiiCoreRun_again hstate hexec]
    exact ⟨rfl, rfl⟩

end

theorem agains_snoc (tr : List Event) (e : Event) :
    agains (tr ++ [e]) = agains tr + if e.reply.code = .again then 1 else 0 := by
  simp [agains, List.countP_append, List.countP_singleton]

section

variable {k : Core w} {cbs : Callbacks} {x : Exchange w} {r : ErrorCode × Exchange w} {c : Call}
  {reply : Reply}

/-- The step has called `c`. -/
structure Asked (cbs : Callbacks) (k : Core w) (x : Exchange w) (c : Call) (reply : Reply)
    (tr : List Event) : Prop where
  trace : tr = x.trace ++ [⟨c, reply⟩]
  reply : cbs x.trace c = reply
  timely : Timely w k.bufferSize x.trace c

theorem Asked.extends (h : Asked cbs k x c reply r.2.trace) :
    Extends w cbs k.bufferSize x.trace r.2.trace :=
  Or.inr ⟨c, by rw [h.reply]; exact h.trace, h.timely⟩

theorem Goes.wait (h : Asked cbs k x c reply r.2.trace) (hcode : reply.code = .again)
    (hbusy : r.2.busy = true) (hphase : Phase k r.2) (hrank : r.2.core.rank = x.core.rank) :
    Goes cbs k x r := by
  refine ⟨h.extends, Or.inl ⟨hbusy, hphase, Or.inr ⟨hrank, ?_⟩⟩⟩
  rw [h.trace, agains_snoc, if_pos hcode]

theorem Goes.move (h : Asked cbs k x c reply r.2.trace) (hbusy : r.2.busy = true)
    (hphase : Phase k r.2) (hrank : r.2.core.rank < x.core.rank) : Goes cbs k x r := by
  refine ⟨h.extends, Or.inl ⟨hbusy, hphase, Or.inl ⟨hrank, ?_⟩⟩⟩
  rw [h.trace, agains_snoc]
  omega

theorem Goes.finish (h : Asked cbs k x c reply r.2.trace) (hidle : r.2.busy = false)
    (hended : Ended k r) : Goes cbs k x r := ⟨h.extends, Or.inr ⟨hidle, hended⟩⟩

end

section

variable {k : Core w} {cbs : Callbacks}

theorem Phase.step_connect {tr : List Event} (hreads : reads tr = []) :
    Steps cbs k ⟨k.during k.http.buffer 0 0 ⟨0, false⟩ .connect, tr⟩ := by
  obtain ⟨c, hc⟩ : ∃ c, c = Call.connect (k.hostStr k.http.host) kiiServerPort := ⟨_, rfl⟩
  have htimely : Timely w k.bufferSize tr c := by
    rw [hc]
    rintro n ⟨⟩
  obtain ⟨reply, hreply⟩ : ∃ reply, cbs tr c = reply := ⟨_, rfl⟩
  have hread : reads (tr ++ [⟨c, reply⟩]) = [] := by
    rw [reads_snoc_of_not_read (by rw [hc]; rfl), hreads]
  have hexec := execute_connect k k.http.buffer 0 0 ⟨0, false⟩ hc hreply
  unfold Steps
  rcases hcode : reply.code <;> simp only [answered, hcode] at hexec
  · rw [kiiCoreRun_again rfl hexec]
    refine Goes.move ⟨rfl, hreply, htimely⟩ rfl (Phase.send hread (Nat.zero_le _)) ?_
    exact Nat.lt_succ_self _
  · rw [kiiCoreRun_fail rfl hexec]
    exact Goes.finish ⟨rfl, hreply, htimely⟩ rfl (Ended.socket rfl hcode rfl)
  · rw [kiiCoreRun_again rfl hexec]
    exact Goes.wait ⟨rfl, hreply, htimely⟩ hcode rfl (Phase.connect hread) rfl

theorem Phase.step_send {tr : List Event} {sent : Nat} (hreads : reads tr = [])
    (hsent : sent ≤ k.http.totalSendSize) (hpos : 0 < k.bufferSize) :
    Steps cbs k ⟨k.during k.http.buffer sent 0 ⟨0, false⟩ .send, tr⟩ := by
  obtain ⟨size, hsize⟩ : ∃ size, size = min (k.http.totalSendSize - sent) kiiSocketMaxBuffSize :=
    ⟨_, rfl⟩
  obtain ⟨c, hc⟩ : ∃ c, c = Call.send (Memory.slice k.http.buffer.bytes sent size) := ⟨_, rfl⟩
  have htimely : Timely w k.bufferSize tr c := by
    rw [hc]
    rintro n ⟨⟩
  obtain ⟨reply, hreply⟩ : ∃ reply, cbs tr c = reply := ⟨_, rfl⟩
  have hread : reads (tr ++ [⟨c, reply⟩]) = [] := by
    rw [reads_snoc_of_not_read (by rw [hc]; rfl), hreads]
  have hexec := execute_send k k.http.buffer sent 0 ⟨0, false⟩ hsize hc hreply
  unfold Steps
  rcases hcode : reply.code <;> simp only [answered, hcode] at hexec
  · rw [kiiCoreRun_again rfl hexec]
    by_cases hall : sent + size = k.http.totalSendSize
    · -- nothing has been read so far
      have hempty : received (tr ++ [⟨c, reply⟩]) = [] := by rw [received_eq, hread]; rfl
      have hphase := @Phase.recv w k (tr ++ [⟨c, reply⟩]) k.http.buffer rfl
        (fun h => absurd hempty h) (by rw [hempty]; exact hpos) (by rw [hread]; exact pending_nil)
      rw [hempty, hread, scan_nil] at hphase
      rw [if_pos hall, hall]
      refine Goes.move ⟨rfl, hreply, htimely⟩ rfl hphase ?_
      show (k.bufferSize - 0) + 1 < (k.http.totalSendSize - sent) + k.bufferSize + 2
      omega
    · have hmax : kiiSocketMaxBuffSize = 256 := rfl
      rw [if_neg hall]
      refine Goes.move ⟨rfl, hreply, htimely⟩ rfl (Phase.send hread (by omega)) ?_
      show (k.http.totalSendSize - (sent + size)) + k.bufferSize + 2 <
        (k.http.totalSendSize - sent) + k.bufferSize + 2
      omega
  · rw [kiiCoreRun_fail rfl hexec]
    exact Goes.finish ⟨rfl, hreply, htimely⟩ rfl (Ended.socket rfl hcode rfl)
  · rw [kiiCoreRun_again rfl hexec]
    exact Goes.wait ⟨rfl, hreply, htimely⟩ hcode rfl (Phase.send hread hsent) rfl

/-- The buffer a read starts with: cleared before the first byte is received. -/
theorem contains_beforeRead {tr : List Event} {b : Buffer w} (hsize : b.size = k.bufferSize)
    (hb : received tr ≠ [] → b.Contains k.bufferSize (received tr)) :
    (if (received tr).length = 0 then b.clear else b).Contains k.bufferSize (received tr) := by
  by_cases hnil : received tr = []
  · rw [hnil, List.length_nil, if_pos rfl, Buffer.Contains, Buffer.bytes_clear, hsize,
      Memory.pad_nil]
  · rw [if_neg fun h => hnil (List.length_eq_zero_iff.mp h)]
    exact hb hnil

/-- A read that leaves room for the terminator. -/
theorem contains_write {b : Buffer w} {size : Nat} {D data : List Byte} (hb : b.Contains size D)
    (hlt : D.length + data.length ≤ size) : (b.write D.length data).Contains size (D ++ data) := by
  rw [Buffer.Contains] at hb ⊢
  show Memory.overwrite b.bytes D.length data = _
  rw [hb, Memory.overwrite_pad hlt]

theorem contains_terminate {b : Buffer w} {size : Nat} {D : List Byte} (hb : b.Contains size D)
    (hlt : D.length < size) : (b.write D.length [0]).Contains size D := by
  rw [Buffer.Contains] at hb ⊢
  show Memory.overwrite b.bytes D.length [0] = _
  rw [hb, Memory.overwrite_pad_self hlt]

section

variable {b : Buffer w} {rs : List (List Byte)} (sent : Nat) {data : List Byte}

/-- A read that fills the buffer. -/
theorem takeRead_of_ge (hsize : b.size = k.bufferSize)
    (hge : k.bufferSize ≤ rs.flatten.length + data.length) :
    (takeRead (k.during b sent rs.flatten.length (scan w k.bufferSize rs) .recv) data).1 = .fail ∧
    (takeRead (k.during b sent rs.flatten.length (scan w k.bufferSize rs) .recv) data).2.http.httpError
      = .insufficientBuffer := by
  have hfull : (b.write rs.flatten.length data).size ≤ rs.flatten.length + data.length := by
    rw [Buffer.size_write, hsize]
    exact hge
  unfold takeRead
  dsimp only [Core.during]
  rw [if_pos hfull]
  exact ⟨rfl, rfl⟩

/-- **A read does what `scan` says**, and stops the engine when `Completes` says so. -/
theorem takeRead_of_lt (hsize : b.size = k.bufferSize) (hb : b.Contains k.bufferSize rs.flatten)
    (hlt : rs.flatten.length + data.length < k.bufferSize) :
    ∃ b' : Buffer w, b'.size = k.bufferSize ∧ b'.Contains k.bufferSize (rs ++ [data]).flatten ∧
      ((Completes w k.bufferSize rs data ∧
        takeRead (k.during b sent rs.flatten.length (scan w k.bufferSize rs) .recv) data =
          (.again, k.during b' sent (rs ++ [data]).flatten.length
            (scan w k.bufferSize (rs ++ [data])) .close)) ∨
      (¬ Completes w k.bufferSize rs data ∧
        takeRead (k.during b sent rs.flatten.length (scan w k.bufferSize rs) .recv) data =
          (.again, k.during b' sent (rs ++ [data]).flatten.length
            (scan w k.bufferSize (rs ++ [data])) .recv))) := by
  have hflat : (rs ++ [data]).flatten = rs.flatten ++ data := by simp
  have hwrite := contains_write hb (Nat.le_of_lt hlt)
  have hscan := hwrite.scanHeader
  have hroom : ¬ (b.write rs.flatten.length data).size ≤ rs.flatten.length + data.length := by
    rw [Buffer.size_write, hsize]
    omega
  have hlen : (rs.flatten ++ data).length = rs.flatten.length + data.length := List.length_append
  rw [Completes, scan_snoc, hflat, hlen, ← List.length_eq_zero_iff (l := data)]
  by_cases hC : ((scan w k.bufferSize rs).step w k.bufferSize (rs.flatten ++ data)).Reached
      (rs.flatten.length + data.length) ∨ data.length = 0
  · refine ⟨(b.write rs.flatten.length data).write (rs.flatten.length + data.length) [0], ?_, ?_,
      Or.inl ⟨hC, ?_⟩⟩
    · simp [hsize]
    · have := contains_terminate hwrite (by rw [hlen]; exact hlt)
      rwa [hlen] at this
    · unfold takeRead
      dsimp only [Core.during]
      rw [if_neg hroom, hscan]
      unfold Scan.Reached Scan.step at hC
      dsimp only at hC
      rw [if_pos hC, if_pos hC]
      rfl
  · refine ⟨b.write rs.flatten.length data, by simp [hsize], hwrite, Or.inr ⟨hC, ?_⟩⟩
    unfold takeRead
    dsimp only [Core.during]
    rw [if_neg hroom, hscan]
    unfold Scan.Reached Scan.step at hC
    dsimp only at hC
    rw [if_neg hC, if_neg hC]
    rfl

end

/-- A successful read: it fills the buffer, or it is followed by the next phase. -/
theorem Phase.step_read {tr : List Event} {b b₀ : Buffer w} {c : Call} {data : List Byte}
    {x : Exchange w} (hx : x = ⟨k.during b k.http.totalSendSize (received tr).length
      (scan w k.bufferSize (reads tr)) .recv, tr⟩)
    (hsize : b.size = k.bufferSize) (hsize₀ : b₀.size = k.bufferSize)
    (hcontains : b₀.Contains k.bufferSize (received tr)) (hpending : Pending w k.bufferSize (reads tr))
    (hread : reads (tr ++ [⟨c, ⟨.ok, data⟩⟩]) = reads tr ++ [data])
    (hasked : Asked cbs k x c ⟨.ok, data⟩ (tr ++ [⟨c, ⟨.ok, data⟩⟩]))
    (hexec : prvKiiHttpExecute cbs x = answered (k.during b₀ k.http.totalSendSize
      (received tr).length (scan w k.bufferSize (reads tr)) .recv) tr ⟨c, ⟨.ok, data⟩⟩
      (takeRead (k.during b₀ k.http.totalSendSize (received tr).length
        (scan w k.bufferSize (reads tr)) .recv) data)) : Steps cbs k x := by
  have hstate : x.core.state = .execute := by rw [hx]; rfl
  have hflat : received (tr ++ [⟨c, ⟨.ok, data⟩⟩]) = received tr ++ data := by
    simp only [received_eq, hread, List.flatten_append, List.flatten_singleton]
  by_cases hfull : k.bufferSize ≤ (received tr).length + data.length
  · obtain ⟨hcode, herror⟩ := takeRead_of_ge k.http.totalSendSize hsize₀ hfull
    rw [← received_eq] at hcode herror
    simp only [answered, hcode] at hexec
    rw [Steps, kiiCoreRun_fail hstate hexec]
    apply Goes.finish hasked rfl (Ended.overflow hread hpending ?_ herror)
    rw [hflat, List.length_append]
    exact hfull
  · have hlt : (received (tr ++ [⟨c, ⟨.ok, data⟩⟩])).length < k.bufferSize := by
      rw [hflat, List.length_append]
      exact Nat.not_le.mp hfull
    obtain ⟨b', hsize', hb', ⟨hC, htake⟩ | ⟨hC, htake⟩⟩ := takeRead_of_lt
      k.http.totalSendSize hsize₀ hcontains (Nat.not_le.mp hfull)
    all_goals
      rw [← received_eq] at htake
      simp only [answered, htake, ← hread, ← received_eq] at hexec hb'
      rw [Steps, kiiCoreRun_again hstate hexec]
    · apply Goes.move hasked rfl (Phase.close hb' hlt ⟨reads tr, data, hread, hpending, hC⟩)
      rw [hx]
      exact Nat.succ_pos _
    · apply Goes.move hasked rfl
        (Phase.recv hsize' (fun _ => hb') hlt (by rw [hread]; exact hpending.snoc hC))
      -- a read after which the engine goes on is not empty
      have hdata : 0 < data.length := List.length_pos_iff.mpr fun h => hC (Or.inr h)
      have hrank : ∀ (b : Buffer w) n s, b.size = k.bufferSize →
          (k.during b k.http.totalSendSize n s .recv).rank = (k.bufferSize - n) + 1 := by
        intro b n s hb
        rw [← hb]
        rfl
      rw [hx]
      show (k.during b' _ _ _ .recv).rank < (k.during b _ _ _ .recv).rank
      rw [hrank b' _ _ hsize', hrank b _ _ hsize, hflat, List.length_append]
      rw [hflat, List.length_append] at hlt
      omega

theorem Phase.step_recv {tr : List Event} {b : Buffer w} (hsize : b.size = k.bufferSize)
    (hb : received tr ≠ [] → b.Contains k.bufferSize (received tr))
    (hlt : (received tr).length < k.bufferSize) (hpending : Pending w k.bufferSize (reads tr)) :
    Steps cbs k ⟨k.during b k.http.totalSendSize (received tr).length
      (scan w k.bufferSize (reads tr)) .recv, tr⟩ := by
  have hcontains := contains_beforeRead hsize hb
  obtain ⟨b₀, hb₀⟩ : ∃ b₀, b₀ = if (received tr).length = 0 then b.clear else b := ⟨_, rfl⟩
  have hsize₀ : b₀.size = k.bufferSize := by
    rw [hb₀]
    split
    · rw [Buffer.size_clear, hsize]
    · exact hsize
  rw [← hb₀] at hcontains
  obtain ⟨c, hc⟩ : ∃ c, c = Call.recv
    (min (b.size - (received tr).length) kiiSocketMaxBuffSize) := ⟨_, rfl⟩
  have htimely : Timely w k.bufferSize tr c := by
    have hmax : kiiSocketMaxBuffSize = 256 := rfl
    rw [hc, hsize]
    rintro n ⟨⟩
    exact ⟨by omega, by omega, hpending⟩
  obtain ⟨reply, hreply⟩ : ∃ reply, cbs tr c = reply := ⟨_, rfl⟩
  have hexec := execute_recv k b k.http.totalSendSize (received tr).length
    (scan w k.bufferSize (reads tr)) hb₀ hc hreply
  obtain ⟨code, data⟩ := reply
  cases code with
  | ok =>
    have hread : reads (tr ++ [⟨c, ⟨.ok, data⟩⟩]) = reads tr ++ [data] :=
      reads_snoc_read (by rw [hc]; rfl)
    exact Phase.step_read rfl hsize hsize₀ hcontains hpending hread ⟨rfl, hreply, htimely⟩ hexec
  | again =>
    have hread : reads (tr ++ [⟨c, ⟨.again, data⟩⟩]) = reads tr :=
      reads_snoc_of_not_read (by rw [hc]; rfl)
    rw [Steps, kiiCoreRun_again rfl hexec]
    have hphase := @Phase.recv w k (tr ++ [⟨c, ⟨.again, data⟩⟩]) b₀ hsize₀
    simp only [received_eq, hread] at hphase
    refine Goes.wait ⟨rfl, hreply, htimely⟩ rfl rfl (hphase (fun _ => hcontains) hlt hpending) ?_
    show (b₀.size - _) + 1 = (b.size - _) + 1
    rw [hsize₀, hsize]
    rfl
  | fail =>
    rw [Steps, kiiCoreRun_fail rfl hexec]
    exact Goes.finish ⟨rfl, hreply, htimely⟩ rfl (Ended.socket rfl rfl rfl)

theorem takeResponse_of_status {k' : Core w} {code : Nat}
    (h : statusCode k'.http.buffer = some (some code)) :
    takeResponse k' = (.ok, { k' with
      responseCode := code
      responseBody := (k'.http.buffer.strstr endOfHeader).map (· + 4)
      responseBodyLength := ((k'.http.buffer.strstr endOfHeader).map (· + 4)).elim
        k'.responseBodyLength (k'.http.receivedSize - ·)
      http.socketState := .idle }) := by
  rw [takeResponse, h]

theorem takeResponse_of_no_status {k' : Core w}
    (h : ∀ code, statusCode k'.http.buffer ≠ some (some code)) :
    (takeResponse k').1 = .fail ∧ (takeResponse k').2.http.httpError = .invalidResponse := by
  unfold takeResponse
  rcases hstatus : statusCode k'.http.buffer with _ | _ | code
  · exact ⟨rfl, rfl⟩
  · exact ⟨rfl, rfl⟩
  · exact absurd hstatus (h code)

theorem takeResponse_again (k : Core w) : (takeResponse k).1 ≠ .again := by
  unfold takeResponse
  split
  all_goals
    intro h
    cases h

theorem Phase.step_close {tr : List Event} {b : Buffer w}
    (hb : b.Contains k.bufferSize (received tr)) (hlt : (received tr).length < k.bufferSize)
    (hfinished : Finished w k.bufferSize (reads tr)) :
    Steps cbs k ⟨k.during b k.http.totalSendSize (received tr).length
      (scan w k.bufferSize (reads tr)) .close, tr⟩ := by
  obtain ⟨reply, hreply⟩ : ∃ reply, cbs tr .close = reply := ⟨_, rfl⟩
  obtain ⟨k', hk'⟩ : ∃ k', k' = k.during b k.http.totalSendSize (received tr).length
    (scan w k.bufferSize (reads tr)) .close := ⟨_, rfl⟩
  have hread : reads (tr ++ [⟨.close, reply⟩]) = reads tr := reads_snoc_of_not_read rfl
  have hD : received (tr ++ [⟨.close, reply⟩]) = received tr := by
    rw [received_eq, hread, received_eq]
  have hexec : prvKiiHttpExecute cbs ⟨k', tr⟩ =
      answered k' tr ⟨.close, reply⟩ (takeResponse k') := by
    rw [hk']
    exact execute_close k b _ _ _ hreply
  have hstate : k'.state = .execute := by rw [hk']; rfl
  have hbuffer : k'.http.buffer = b := by rw [hk']; rfl
  have htimely : Timely w k.bufferSize tr .close := by
    rintro n ⟨⟩
  unfold Steps
  rw [← hk']
  rcases hcode : reply.code <;> simp only [answered, hcode] at hexec
  · by_cases hstatus : ∃ code, statusCode b = some (some code)
    · obtain ⟨code, hstatus⟩ := hstatus
      rw [takeResponse_of_status (by rw [hbuffer]; exact hstatus)] at hexec
      rw [kiiCoreRun_ok hstate hexec]
      refine Goes.finish ⟨rfl, hreply, htimely⟩ rfl
        (Ended.accepted (b := b) ⟨?_, ?_, ?_, hstatus, ?_⟩)
      · rw [hD]; exact hb
      · rw [hD]; exact hlt
      · rw [hread]; exact hfinished
      · rw [hD, hread, hk']
        rfl
    · have hno : ∀ code, statusCode b ≠ some (some code) := fun code h => hstatus ⟨code, h⟩
      obtain ⟨hfail, herror⟩ := takeResponse_of_no_status (hbuffer ▸ hno)
      rw [hfail] at hexec
      rw [kiiCoreRun_fail hstate hexec]
      refine Goes.finish ⟨rfl, hreply, htimely⟩ rfl (Ended.invalid (b := b) ?_ ?_ ?_ hno herror)
      · rw [hD]; exact hb
      · rw [hD]; exact hlt
      · rw [hread]; exact hfinished
  · rw [kiiCoreRun_fail hstate hexec]
    exact Goes.finish ⟨rfl, hreply, htimely⟩ rfl (Ended.socket rfl hcode rfl)
  · rw [kiiCoreRun_again hstate hexec, hk']
    have hphase := @Phase.close w k (tr ++ [⟨.close, reply⟩]) b
    simp only [hD, hread] at hphase
    exact Goes.wait ⟨rfl, hreply, htimely⟩ hcode rfl (hphase hb hlt hfinished) rfl

/-- **One step** goes from a phase to a phase, or ends the exchange. -/
theorem Phase.step (hk : Prepared k) {x : Exchange w} (h : Phase k x) :
    Steps cbs k x := by
  unfold Steps
  cases h with
  | ready =>
    have hrun : kiiCoreRun cbs ⟨k, []⟩ = (.ok, ⟨{ k with state := .execute }, []⟩) := by
      simp [kiiCoreRun, hk.state]
    rw [hrun]
    refine ⟨Or.inl rfl, Or.inl ⟨rfl, Phase.start, Or.inl ⟨?_, Nat.le_refl _⟩⟩⟩
    have hready : k.rank = k.http.totalSendSize + k.bufferSize + 5 := by
      rw [Core.rank, hk.state]
    have hstart : ({ k with state := .execute } : Core w).rank =
        k.http.totalSendSize + k.bufferSize + 4 := by
      simp [Core.rank, hk.idle, Core.bufferSize]
    show ({ k with state := .execute } : Core w).rank < k.rank
    omega
  | start =>
    have hexec : prvKiiHttpExecute cbs ⟨{ k with state := .execute }, []⟩ =
        (.again, ⟨k.during k.http.buffer 0 0 ⟨0, false⟩ .connect, []⟩) := by
      simp only [prvKiiHttpExecute, hk.idle]
      rfl
    rw [kiiCoreRun_again rfl hexec]
    refine ⟨Or.inl rfl, Or.inl ⟨rfl, Phase.connect rfl, Or.inl ⟨?_, Nat.le_refl _⟩⟩⟩
    have hstart : ({ k with state := .execute } : Core w).rank =
        k.http.totalSendSize + k.bufferSize + 4 := by
      simp [Core.rank, hk.idle, Core.bufferSize]
    show (k.during _ _ _ _ .connect).rank < ({ k with state := .execute } : Core w).rank
    rw [hstart]
    exact Nat.lt_succ_self _
  | connect hreads => exact Phase.step_connect hreads
  | send hreads hsent => exact Phase.step_send hreads hsent (by have := hk.fits; omega)
  | recv hsize hb hlt hpending => exact Phase.step_recv hsize hb hlt hpending
  | close hb hlt hfinished => exact Phase.step_close hb hlt hfinished

end

/-! ## Whole runs -/

/-- The traces an exchange can have. -/
inductive History (w : Nat) (cbs : Callbacks) (size : Nat) : List Event → Prop
  | nil : History w cbs size []
  | snoc {tr : List Event} {c : Call} (h : History w cbs size tr) (htimely : Timely w size tr c) :
      History w cbs size (tr ++ [⟨c, cbs tr c⟩])

theorem History.extends {cbs : Callbacks} {size : Nat} {tr tr' : List Event}
    (h : History w cbs size tr) (he : Extends w cbs size tr tr') : History w cbs size tr' := by
  rcases he with rfl | ⟨c, rfl, htimely⟩
  · exact h
  · exact h.snoc htimely

/-- **A run ends in one of the four ways**, after a history of calls that asked for no more than
there was room for. -/
theorem runToIdle_ended {k : Core w} {cbs : Callbacks} {fuel : Nat}
    {r : ErrorCode × Exchange w} (hk : Prepared k) (h : runToIdle cbs fuel k = some r) :
    Ended k r ∧ History w cbs k.bufferSize r.2.trace := by
  obtain ⟨x, ⟨hphase, hhistory⟩, rfl, hidle⟩ := Loop.doWhile_of_invariant
    (fun x => Phase k x ∧ History w cbs k.bufferSize x.trace) (by
      rintro x ⟨hphase, hhistory⟩ hbusy
      obtain ⟨hext, ⟨-, hphase', -⟩ | ⟨hidle, -⟩⟩ : Steps cbs k x := hphase.step hk
      · exact ⟨hphase', hhistory.extends hext⟩
      · rw [hidle] at hbusy
        cases hbusy) ⟨Phase.ready, History.nil⟩ h
  obtain ⟨hext, ⟨hbusy, -⟩ | ⟨-, hended⟩⟩ : Steps cbs k x := hphase.step hk
  · rw [hidle] at hbusy
    cases hbusy
  · exact ⟨hended, hhistory.extends hext⟩

theorem runToIdle_idle {k : Core w} {cbs : Callbacks} {fuel : Nat} {r : ErrorCode × Exchange w}
    (h : runToIdle cbs fuel k = some r) : r.2.core.state = .idle := by
  obtain ⟨-, -, -, hidle⟩ := Loop.doWhile_of_invariant (fun _ => True) (fun _ _ _ => trivial)
    trivial h
  simpa [Exchange.busy] using hidle

/-- The end of a run that returned `KIIE_OK`. -/
theorem runToIdle_ok {k : Core w} {cbs : Callbacks} {fuel : Nat} {x : Exchange w}
    (hk : Prepared k) (h : runToIdle cbs fuel k = some (.ok, x)) :
    ∃ b code, Accepted k x b code := by
  cases (runToIdle_ended hk h).1 with
  | accepted h => exact ⟨_, _, h⟩

/-- An accepted response has no body exactly when no empty line ended its header. -/
theorem Accepted.responseBody_eq_none_iff {k : Core w} {x : Exchange w} {b : Buffer w} {code : Nat}
    (h : Accepted k x b code) : x.core.responseBody = none ↔
      ¬ endOfHeader <:+: (received x.trace).takeWhile (· ≠ 0) := by
  have hbody : x.core.responseBody = (b.strstr endOfHeader).map (· + 4) := by rw [h.core]
  rw [hbody, Option.map_eq_none_iff, h.contains.strstr, Search.find_eq_none_iff_not_infix]

/-- The exchange after `n` calls of `kii_core_run`. -/
def runs (cbs : Callbacks) (k : Core w) : Nat → Exchange w
  | 0 => ⟨k, []⟩
  | n + 1 => (kiiCoreRun cbs (runs cbs k n)).2

/-- A run is in a phase as long as the object is not IDLE. -/
theorem runs_phase {k : Core w} (cbs : Callbacks) (hk : Prepared k) (n : Nat) :
    Phase k (runs cbs k n) ∨ (runs cbs k n).core.state = .idle := by
  induction n with
  | zero => exact Or.inl Phase.ready
  | succ n ih =>
    rcases ih with hphase | hidle
    · obtain ⟨-, ⟨-, hnext, -⟩ | ⟨hnext, -⟩⟩ : Steps cbs k (runs cbs k n) := hphase.step hk
      · exact Or.inl hnext
      · right
        rw [runs]
        simpa [Exchange.busy] using hnext
    · right
      rw [runs, kiiCoreRun, hidle]
      exact hidle

/-- What happens in a run is a history. -/
theorem runs_history {k : Core w} (cbs : Callbacks) (hk : Prepared k) (n : Nat) :
    History w cbs k.bufferSize (runs cbs k n).trace := by
  induction n with
  | zero => exact History.nil
  | succ n ih =>
    rw [runs]
    rcases runs_phase cbs hk n with hphase | hidle
    · have hstep : Steps cbs k (runs cbs k n) := hphase.step hk
      exact ih.extends hstep.1
    · rw [kiiCoreRun, hidle]
      exact ih

/-- In the run from `k`, `KII_SOCKETC_AGAIN` is answered finitely often. -/
def Patient (cbs : Callbacks) (k : Core w) : Prop := ∃ N, ∀ n, agains (runs cbs k n).trace ≤ N

/-- **A run ends**, whatever the server sends, when `KII_SOCKETC_AGAIN` is answered finitely often
in it. -/
theorem exists_runToIdle_of_patient {k : Core w} {cbs : Callbacks} (hk : Prepared k)
    (hpatient : Patient cbs k) : ∃ fuel r, runToIdle cbs fuel k = some r := by
  obtain ⟨N, hN⟩ := hpatient
  refine ⟨_, Loop.exists_doWhile_of_variant (fun x => Phase k x ∧ ∃ n, x = runs cbs k n)
    (fun x => x.core.rank + (N - agains x.trace)) ?_ ⟨Phase.ready, 0, rfl⟩⟩
  rintro x ⟨hx, n, hn⟩ hbusy
  have hnext : (kiiCoreRun cbs x).2 = runs cbs k (n + 1) := by rw [runs, hn]
  obtain ⟨-, ⟨-, hphase, hprogress⟩ | ⟨hidle, -⟩⟩ : Steps cbs k x := hx.step hk
  · refine ⟨⟨hphase, n + 1, hnext⟩, ?_⟩
    rcases hprogress with ⟨hrank, hle⟩ | ⟨hrank, hagain⟩
    · omega
    · -- the step waits, so one more of the finitely many answers is used up
      have hle := hN (n + 1)
      rw [← hnext] at hle
      omega
  · rw [hidle] at hbusy
    cases hbusy

theorem execute_trace (cbs : Callbacks) (x : Exchange w) :
    (prvKiiHttpExecute cbs x).2.trace = x.trace ∨
      ∃ c, (prvKiiHttpExecute cbs x).2.trace = x.trace ++ [⟨c, cbs x.trace c⟩] := by
  unfold prvKiiHttpExecute
  split
  · exact Or.inl rfl
  · right
    simp only [executeConnect, Exchange.ask]
    split <;> exact ⟨_, rfl⟩
  · right
    simp only [executeSend, Exchange.ask]
    split <;> exact ⟨_, rfl⟩
  · right
    simp only [executeRecv, Exchange.ask]
    split <;> exact ⟨_, rfl⟩
  · right
    simp only [executeClose, Exchange.ask]
    split <;> exact ⟨_, rfl⟩

theorem kiiCoreRun_trace (cbs : Callbacks) (x : Exchange w) :
    (kiiCoreRun cbs x).2.trace = x.trace ∨
      ∃ c, (kiiCoreRun cbs x).2.trace = x.trace ++ [⟨c, cbs x.trace c⟩] := by
  cases hstate : x.core.state with
  | idle | other _ =>
    rw [kiiCoreRun, hstate]
    exact Or.inl rfl
  | ready =>
    rw [kiiCoreRun, hstate]
    exact Or.inl rfl
  | execute =>
    rw [(kiiCoreRun_execute cbs hstate).1]
    exact execute_trace cbs x

theorem patient_of_bound {k : Core w} {cbs : Callbacks} {N : Nat}
    (hN : ∀ tr c, (cbs tr c).code = .again → agains tr < N) : Patient cbs k := by
  refine ⟨N, ?_⟩
  intro n
  induction n with
  | zero => exact Nat.zero_le _
  | succ n ih =>
    rw [runs]
    rcases kiiCoreRun_trace cbs (runs cbs k n) with hsame | ⟨c, hsnoc⟩
    · rw [hsame]
      exact ih
    · rw [hsnoc, agains_snoc]
      split
      · next hagain => exact hN _ c hagain
      · exact ih

end KiiThing

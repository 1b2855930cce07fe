import KiiThing.Core.Waiting
import KiiThing.Core.Sending
import KiiThing.Lib.Interaction

/-!
# The exchange as a program

What the engine is for, without its states, its buffer and its counters: `Transaction.exchange` connects,
hands over the request in chunks, reads until it has enough, closes, and reads the response off the
bytes it has received. It waits for every answer. The engine, which is called again and again and may
be told to wait at any time, makes exactly the calls of this program, and reports what it returns
(`engine_refines_exchange`).
-/

namespace KiiThing

open Http

variable {w size : Nat}

/-! ## The program -/

/-- What a response says. -/
@[ext] structure Answer where
  status : Nat
  body : Option (List Byte)
  deriving DecidableEq

/-- A program that calls the callbacks and ends with an answer or an error. -/
abbrev Transaction : Type := Prog Call (fun _ => Reply) (Except HttpError Answer)

/-- The number that the first three characters spell, when they are figures. -/
def figures : List Byte → Option Nat
  | d₁ :: d₂ :: d₃ :: _ =>
    if Decimal.isDigit d₁ ∧ Decimal.isDigit d₂ ∧ Decimal.isDigit d₃ then some (spell d₁ d₂ d₃)
    else none
  | _ => none

/-- The status of a response: the three figures behind its first `HTTP/1.1 `. Like everything else,
it is only looked for in front of the first NUL. -/
def statusOf (D : List Byte) : Option Nat :=
  (Search.find http1_1 (D.takeWhile (· ≠ 0))).bind fun i => figures (D.drop (i + http1_1.length))

/-- The body of a response: what is behind its first empty line. -/
def bodyOf (D : List Byte) : Option (List Byte) :=
  (Search.find endOfHeader (D.takeWhile (· ≠ 0))).map fun i => D.drop (i + endOfHeader.length)

/-- What a response that has been received says. -/
def verdict (D : List Byte) : Except HttpError Answer :=
  match statusOf D with
  | none => .error .invalidResponse
  | some status => .ok ⟨status, bodyOf D⟩

instance (s : Scan) (n : Nat) : Decidable (s.Reached n) :=
  inferInstanceAs (Decidable (_ ∧ _))

instance (w size : Nat) (rs : List (List Byte)) (r : List Byte) : Decidable (Completes w size rs r) :=
  inferInstanceAs (Decidable (_ ∨ _))

namespace Transaction

/-- Make a call, and go on when it succeeds. -/
def attempt (c : Call) (next : List Byte → Transaction) : Transaction :=
  .ask c fun reply => if reply.code = .ok then next reply.data else .done (.error .socket)

/-- Hand over the request, in chunks. -/
def transmit (next : Transaction) : List Byte → Transaction
  | [] => next
  | b :: m => attempt (.send ((b :: m).take kiiSocketMaxBuffSize)) fun _ =>
      transmit next ((b :: m).drop kiiSocketMaxBuffSize)
termination_by m => m.length
decreasing_by
  rw [List.length_drop, List.length_cons, kiiSocketMaxBuffSize]
  omega

/-- Close the connection behind a response. -/
def conclude (D : List Byte) : Transaction := attempt .close fun _ => .done (verdict D)

/-- Read until the response is complete, or does not fit. -/
def receive (w size : Nat) (rs : List (List Byte)) : Transaction :=
  attempt (.recv (min (size - rs.flatten.length) kiiSocketMaxBuffSize)) fun r =>
    if _hfull : size ≤ (rs ++ [r]).flatten.length then .done (.error .insufficientBuffer)
    else if _hmore : ¬ Completes w size rs r then receive w size (rs ++ [r])
    else conclude (rs ++ [r]).flatten
termination_by size - rs.flatten.length
decreasing_by
  have hne : r ≠ [] := fun hnil => _hmore (Or.inr hnil)
  have hpos := List.length_pos_iff.mpr hne
  rw [List.flatten_append, List.flatten_singleton, List.length_append] at _hfull ⊢
  omega

/-- The whole exchange, for a client that has room for `size` bytes. -/
def exchange (w size : Nat) (host : CString) (message : List Byte) : Transaction :=
  attempt (.connect host kiiServerPort) fun _ => transmit (receive w size []) message

/-- Every answer is given in the end; what was called and answered is remembered. -/
def settling : Contract Call (fun _ => Reply) (List Event) where
  allowed _ _ := True
  answers _ _ reply := reply.code ≠ .again
  next tr c reply := tr ++ [⟨c, reply⟩]

/-- The program, begun behind the calls `tr`, makes the calls up to `tr'` and ends with `v`. -/
abbrev Makes (p : Transaction) (tr : List Event) (v : Except HttpError Answer) (tr' : List Event) :
    Prop := p.Runs settling tr v tr'

section

variable {c : Call} {next : List Byte → Transaction} {reply : Reply} {tr tr' : List Event}
  {v : Except HttpError Answer}

theorem makes_done (v : Except HttpError Answer) (tr : List Event) :
    Makes (.done v) tr v tr := .done

theorem attempt_ok (hcode : reply.code = .ok)
    (h : (next reply.data).Makes (tr ++ [⟨c, reply⟩]) v tr') : (attempt c next).Makes tr v tr' := by
  refine .ask (r := reply) (by simp [settling, hcode]) ?_
  rw [if_pos hcode]
  exact h

theorem attempt_fail (hcode : reply.code = .fail) :
    (attempt c next).Makes tr (.error .socket) (tr ++ [⟨c, reply⟩]) := by
  refine .ask (r := reply) (by simp [settling, hcode]) ?_
  rw [if_neg (by simp [hcode])]
  exact .done

end

theorem transmit_of_ne_nil (next : Transaction) {m : List Byte} (h : m ≠ []) :
    transmit next m = attempt (.send (m.take kiiSocketMaxBuffSize)) fun _ =>
      transmit next (m.drop kiiSocketMaxBuffSize) := by
  cases m with
  | nil => exact absurd rfl h
  | cons b m => rw [transmit]

theorem transmit_nil (next : Transaction) : transmit next [] = next := by rw [transmit]

end Transaction

/-! ## What the engine has found in the buffer -/

/-- The response body, as the application sees it. -/
def Core.body (k : Core w) : Option (List Byte) :=
  k.responseBody.map fun p => Memory.slice k.http.buffer.bytes p k.responseBodyLength

/-- What an SDK object at rest says of the exchange. -/
inductive Reports (k : Core w) : Except HttpError Answer → ErrorCode → Prop
  | answer {a : Answer} (hstatus : k.responseCode = a.status) (hbody : k.body = a.body)
      (herror : k.http.httpError = .none) : Reports k (.ok a) .ok
  | error {e : HttpError} (herror : k.http.httpError = e) : Reports k (.error e) .fail

/-- A NUL is no figure. -/
theorem figures_append_replicate (t : List Byte) (n : Nat) :
    figures (t ++ List.replicate n 0) = figures t := by
  have hzero : Decimal.isDigit 0 = false := by decide
  match t, n with
  | [], 0 | [], 1 | [], 2 => rfl
  | [], n + 3 => simp [figures, List.replicate_succ, hzero]
  | [a], 0 | [a], 1 => rfl
  | [a], n + 2 => simp [figures, List.replicate_succ, hzero]
  | [a, b], 0 => rfl
  | [a, b], n + 1 => simp [figures, List.replicate_succ, hzero]
  | a :: b :: c :: t, n => rfl

/-- The engine reads the status off the buffer as it is read off the bytes. -/
theorem statusCode_join {b : Buffer w} {n : Nat} {D : List Byte} (h : b.Contains n D) :
    (statusCode b).join = statusOf D := by
  have hfigures : (statusCode b).join =
      (b.strstr http1_1).bind fun i => figures (b.bytes.drop (i + http1_1.length)) := by
    rw [statusCode]
    cases b.strstr http1_1 with
    | none => rfl
    | some i =>
      rw [Option.map_some, Option.join_some, Option.bind_some]
      rcases b.bytes.drop (i + http1_1.length) with _ | ⟨d₁, _ | ⟨d₂, _ | ⟨d₃, t⟩⟩⟩ <;> rfl
  rw [hfigures, statusOf, h.strstr]
  cases hi : Search.find http1_1 (D.takeWhile (· ≠ 0)) with
  | none => rfl
  | some i =>
    rw [Buffer.Contains] at h
    rw [Option.bind_some, Option.bind_some, h, drop_pad_of_find hi, Memory.pad,
      figures_append_replicate]

/-- So it does with the body. -/
theorem body_of_contains {k : Core w} {n : Nat} {D : List Byte} (h : k.http.buffer.Contains n D)
    (hbody : k.responseBody = (k.http.buffer.strstr endOfHeader).map (· + 4))
    (hlength : k.responseBodyLength = (k.responseBody).elim k.responseBodyLength (D.length - ·)) :
    k.body = bodyOf D := by
  rw [Core.body, bodyOf, hbody, h.strstr]
  cases hi : Search.find endOfHeader (D.takeWhile (· ≠ 0)) with
  | none => rfl
  | some i =>
    rw [h.strstr, hi] at hbody
    rw [hbody] at hlength
    rw [Option.map_some, Option.map_some, Option.map_some, Option.some.injEq, hlength]
    show Memory.slice _ (i + 4) (D.length - (i + 4)) = D.drop (i + 4)
    rw [Buffer.Contains] at h
    rw [Memory.slice, h, Memory.pad, List.drop_append_of_le_length, List.take_left']
    · rw [List.length_drop]
    · have hle := Search.find_add_length_le hi
      have hshort := (List.takeWhile_prefix (l := D) (· ≠ 0)).length_le
      exact Nat.le_trans hle hshort

/-! ## The engine makes the calls of the program -/

/-- The program for the request that was prepared in `k`. -/
def Core.transaction (k : Core w) : Transaction :=
  Transaction.exchange w k.bufferSize (k.hostStr k.http.host) k.text

/-- What is left of the exchange that was prepared in `k`. -/
def remaining (k : Core w) (x : Exchange w) : Transaction :=
  match x.core.http.socketState with
  | .idle | .connect => k.transaction
  | .send => Transaction.transmit (Transaction.receive w k.bufferSize [])
      (k.text.drop x.core.http.sentSize)
  | .recv => Transaction.receive w k.bufferSize (reads x.trace)
  | .close => Transaction.conclude (received x.trace)

/-- An engine that sends has something left to send. -/
def Unsated (k core : Core w) : Prop :=
  core.http.socketState = .send → core.http.sentSize < k.http.totalSendSize

/-- What a call of `kii_core_run` leads to: calls of the program, of which some are left; or its
end. -/
inductive Follows (k : Core w) (x : Exchange w) : ErrorCode × Exchange w → Prop
  | goes {r : ErrorCode × Exchange w} (hbusy : r.2.busy = true) (hsend : Unsated k r.2.core)
      (hmakes : ∀ v tr, (remaining k r.2).Makes (settled r.2.trace) v tr →
        (remaining k x).Makes (settled x.trace) v tr) : Follows k x r
  | ends {r : ErrorCode × Exchange w} {v : Except HttpError Answer} (hidle : r.2.busy = false)
      (hmakes : (remaining k x).Makes (settled x.trace) v (settled r.2.trace))
      (hreports : Reports r.2.core v r.1) : Follows k x r

section

variable {k : Core w} {cbs : Callbacks} {tr : List Event}

open Transaction

/-- What the engine makes of a success, beside what the program makes of it. -/
inductive Settles (k : Core w) (tr : List Event) (p : Transaction) : HttpCode × Core w → Prop
  | goes {k' : Core w} (hstate : k'.state = .execute) (hsend : Unsated k k')
      (hrest : remaining k ⟨k', tr⟩ = p) : Settles k tr p (.again, k')
  | answers {k' : Core w} {a : Answer} (hdone : p = .done (.ok a)) (hstatus : k'.responseCode = a.status)
      (hbody : k'.body = a.body) (herror : k'.http.httpError = .none) : Settles k tr p (.ok, k')
  | refuses {k' : Core w} (hdone : p = .done (.error k'.http.httpError)) : Settles k tr p (.fail, k')

theorem sentSize_inCall (core : Core w) : core.inCall.http.sentSize = core.http.sentSize := by
  rcases core.inCall_eq with h | ⟨-, h⟩ <;> rw [h]

theorem unsated_inCall (k core : Core w) : Unsated k core.inCall = Unsated k core := by
  rw [Unsated, Unsated, core.inCall_socketState, sentSize_inCall]

/-- To be asked to wait changes nothing that is left. -/
theorem remaining_inCall (k : Core w) (core : Core w) (c : Call) (data : List Byte) :
    remaining k ⟨core.inCall, tr ++ [⟨c, ⟨.again, data⟩⟩]⟩ = remaining k ⟨core, tr⟩ := by
  have hreads : reads (tr ++ [⟨c, ⟨.again, data⟩⟩]) = reads tr := by
    apply reads_snoc_of_not_read
    cases c <;> rfl
  unfold remaining
  dsimp only
  rw [core.inCall_socketState, sentSize_inCall, received_eq, hreads, ← received_eq]

/-- **A call of the engine** is the call of the program. -/
theorem follows_of_call (next : List Byte → Transaction) {core : Core w}
    (hstate : core.state = .execute) (hidle : core.http.socketState ≠ .idle) (hsend : Unsated k core)
    (hprog : remaining k ⟨core, tr⟩ = attempt core.nextCall next)
    (hok : ∀ data, Settles k (tr ++ [⟨core.nextCall, ⟨.ok, data⟩⟩]) (next data)
      (core.inCall.settle data)) :
    Follows k ⟨core, tr⟩ (kiiCoreRun cbs ⟨core, tr⟩) := by
  have hexec := execute_eq_answered cbs hidle tr
  obtain ⟨⟨code, data⟩, hreply⟩ : ∃ reply, cbs tr core.nextCall = reply := ⟨_, rfl⟩
  rw [hreply] at hexec
  cases code with
  | ok =>
    rw [answered] at hexec
    have hsettled : settled (tr ++ [⟨core.nextCall, ⟨.ok, data⟩⟩]) =
        settled tr ++ [⟨core.nextCall, ⟨.ok, data⟩⟩] := settled_snoc (by simp)
    have hmakes : ∀ {v tr'}, (next data).Makes (settled (tr ++ [⟨core.nextCall, ⟨.ok, data⟩⟩])) v tr' →
        (remaining k ⟨core, tr⟩).Makes (settled tr) v tr' := by
      intro v tr' h
      rw [hprog]
      rw [hsettled] at h
      exact attempt_ok (show Reply.code ⟨.ok, data⟩ = .ok from rfl) h
    have hsettles := hok data
    rcases hres : core.inCall.settle data with ⟨code', k'⟩
    rw [hres] at hsettles hexec
    cases hsettles with
    | goes hstate' hsend' hrest =>
      rw [kiiCoreRun_again hstate hexec]
      refine .goes (by simp [Exchange.busy, hstate']) hsend' ?_
      intro v tr' h
      exact hmakes (hrest ▸ h)
    | answers hdone hstatus hbody herror =>
      rw [kiiCoreRun_ok hstate hexec]
      refine .ends rfl (hmakes ?_) (.answer hstatus hbody herror)
      rw [hdone]
      exact makes_done _ _
    | refuses hdone =>
      rw [kiiCoreRun_fail hstate hexec]
      refine .ends rfl (hmakes ?_) (.error rfl)
      rw [hdone]
      exact makes_done _ _
  | again =>
    rw [answered] at hexec
    rw [kiiCoreRun_again hstate hexec]
    refine .goes (by simp [Exchange.busy, hstate]) (by rwa [unsated_inCall]) ?_
    intro v tr' hmakes
    have hsettled : settled (tr ++ [⟨core.nextCall, ⟨.again, data⟩⟩]) = settled tr :=
      settled_snoc_again rfl
    rwa [remaining_inCall, hsettled] at hmakes
  | fail =>
    rw [answered] at hexec
    rw [kiiCoreRun_fail hstate hexec]
    refine .ends rfl ?_ (.error rfl)
    rw [hprog, settled_snoc (by simp)]
    exact attempt_fail (show Reply.code ⟨.fail, data⟩ = .fail from rfl)

/-- What is offered next of the request. -/
theorem chunk_eq (k : Core w) (sent : Nat) :
    Memory.slice k.http.buffer.bytes sent (min (k.http.totalSendSize - sent) kiiSocketMaxBuffSize) =
      (k.text.drop sent).take kiiSocketMaxBuffSize := by
  rw [Core.text, Memory.slice, List.drop_take, List.take_take, Nat.min_comm]

theorem follows_connect (hpos : 0 < k.http.totalSendSize) :
    Follows k ⟨k.during k.http.buffer 0 0 ⟨0, false⟩ .connect, tr⟩
      (kiiCoreRun cbs ⟨k.during k.http.buffer 0 0 ⟨0, false⟩ .connect, tr⟩) := by
  apply follows_of_call (fun _ => transmit (receive w k.bufferSize []) k.text) rfl
    (by simp [Core.during]) (fun h => by simp [Core.during] at h) rfl
  intro data
  exact .goes rfl (fun _ => hpos) rfl

theorem follows_send {sent : Nat} (hk : Prepared k) (hreads : reads tr = [])
    (hlt : sent < k.http.totalSendSize) :
    Follows k ⟨k.during k.http.buffer sent 0 ⟨0, false⟩ .send, tr⟩
      (kiiCoreRun cbs ⟨k.during k.http.buffer sent 0 ⟨0, false⟩ .send, tr⟩) := by
  have hlen : k.text.length = k.http.totalSendSize :=
    List.length_take_of_le (Nat.le_of_lt hk.fits)
  have hne : k.text.drop sent ≠ [] := by
    intro hnil
    have := List.drop_eq_nil_iff.mp hnil
    omega
  have hprog : remaining k ⟨k.during k.http.buffer sent 0 ⟨0, false⟩ .send, tr⟩ =
      transmit (receive w k.bufferSize []) (k.text.drop sent) := rfl
  apply follows_of_call (fun _ => transmit (receive w k.bufferSize [])
      ((k.text.drop sent).drop kiiSocketMaxBuffSize))
    rfl (by simp [Core.during]) (fun _ => hlt)
  · rw [hprog, transmit_of_ne_nil _ hne, ← chunk_eq]
    rfl
  · intro data
    obtain ⟨size, hsize⟩ : ∃ size, size = min (k.http.totalSendSize - sent) kiiSocketMaxBuffSize :=
      ⟨_, rfl⟩
    have hmax : kiiSocketMaxBuffSize = 256 := rfl
    have hsettle : (k.during k.http.buffer sent 0 ⟨0, false⟩ .send).inCall.settle data =
        (.again, k.during k.http.buffer (sent + size) 0 ⟨0, false⟩
          (if sent + size = k.http.totalSendSize then .recv else .send)) := by
      rw [hsize]
      rfl
    rw [hsettle, List.drop_drop]
    split
    · next hall =>
      -- the last chunk
      have hnil : k.text.drop (sent + kiiSocketMaxBuffSize) = [] := by
        rw [List.drop_eq_nil_iff]
        omega
      rw [hnil, transmit_nil]
      refine .goes rfl (fun h => by simp [Core.during] at h) ?_
      show receive w k.bufferSize (reads (tr ++ _)) = _
      rw [reads_snoc_of_not_read rfl, hreads]
    · next hmore =>
      obtain rfl : size = kiiSocketMaxBuffSize := by omega
      refine .goes rfl (fun _ => ?_) rfl
      show sent + kiiSocketMaxBuffSize < k.http.totalSendSize
      omega

theorem follows_recv {b : Buffer w} (hsize : b.size = k.bufferSize)
    (hb : received tr ≠ [] → b.Contains k.bufferSize (received tr)) :
    Follows k ⟨k.during b k.http.totalSendSize (received tr).length
        (scan w k.bufferSize (reads tr)) .recv, tr⟩
      (kiiCoreRun cbs ⟨k.during b k.http.totalSendSize (received tr).length
        (scan w k.bufferSize (reads tr)) .recv, tr⟩) := by
  have hcontains := contains_beforeRead hsize hb
  obtain ⟨b₀, hb₀⟩ : ∃ b₀, b₀ = if (received tr).length = 0 then b.clear else b := ⟨_, rfl⟩
  have hsize₀ : b₀.size = k.bufferSize := by
    rw [hb₀]
    split
    · rw [Buffer.size_clear, hsize]
    · exact hsize
  rw [← hb₀] at hcontains
  have hprog : remaining k ⟨k.during b k.http.totalSendSize (received tr).length
      (scan w k.bufferSize (reads tr)) .recv, tr⟩ = receive w k.bufferSize (reads tr) := rfl
  have hcall : (k.during b k.http.totalSendSize (received tr).length
      (scan w k.bufferSize (reads tr)) .recv).nextCall =
      .recv (min (k.bufferSize - (reads tr).flatten.length) kiiSocketMaxBuffSize) := by
    rw [← hsize]
    rfl
  apply follows_of_call _ rfl (by simp [Core.during]) (fun h => by simp [Core.during] at h)
  · rw [hprog, receive, hcall]
  · intro data
    have hsettle : (k.during b k.http.totalSendSize (received tr).length
        (scan w k.bufferSize (reads tr)) .recv).inCall.settle data =
        takeRead (k.during b₀ k.http.totalSendSize (reads tr).flatten.length
          (scan w k.bufferSize (reads tr)) .recv) data := by
      rw [hb₀]
      rfl
    have hread : ∀ c, c = Call.recv (min (k.bufferSize - (reads tr).flatten.length)
        kiiSocketMaxBuffSize) → reads (tr ++ [⟨c, ⟨.ok, data⟩⟩]) = reads tr ++ [data] := by
      rintro c rfl
      exact reads_snoc_read rfl
    rw [hsettle, hcall]
    by_cases hfull : k.bufferSize ≤ (reads tr).flatten.length + data.length
    · obtain ⟨hcode, herror⟩ := takeRead_of_ge k.http.totalSendSize hsize₀ hfull
      rcases htake : takeRead (k.during b₀ k.http.totalSendSize (reads tr).flatten.length
        (scan w k.bufferSize (reads tr)) .recv) data with ⟨code, k'⟩
      rw [htake] at hcode herror
      obtain rfl : code = .fail := hcode
      have herror' : k'.http.httpError = .insufficientBuffer := herror
      refine .refuses ?_
      rw [dif_pos (by rwa [List.flatten_append, List.flatten_singleton, List.length_append]),
        herror']
    · have hroom : ¬ k.bufferSize ≤ (reads tr ++ [data]).flatten.length := by
        rwa [List.flatten_append, List.flatten_singleton, List.length_append]
      obtain ⟨b', -, -, ⟨hC, htake⟩ | ⟨hC, htake⟩⟩ := takeRead_of_lt
        k.http.totalSendSize hsize₀ hcontains (Nat.not_le.mp hfull)
      · rw [htake, dif_neg hroom, dif_neg (not_not.mpr hC)]
        refine .goes rfl (fun h => by simp [Core.during] at h) ?_
        show conclude (received (tr ++ _)) = _
        rw [received_eq, hread _ rfl]
      · rw [htake, dif_neg hroom, dif_pos hC]
        refine .goes rfl (fun h => by simp [Core.during] at h) ?_
        show receive w k.bufferSize (reads (tr ++ _)) = _
        rw [hread _ rfl]

theorem follows_close {b : Buffer w} (hb : b.Contains k.bufferSize (received tr)) :
    Follows k ⟨k.during b k.http.totalSendSize (received tr).length
        (scan w k.bufferSize (reads tr)) .close, tr⟩
      (kiiCoreRun cbs ⟨k.during b k.http.totalSendSize (received tr).length
        (scan w k.bufferSize (reads tr)) .close, tr⟩) := by
  apply follows_of_call (fun _ => .done (verdict (received tr))) rfl
    (by simp [Core.during]) (fun h => by simp [Core.during] at h) rfl
  intro data
  obtain ⟨core, hcore⟩ : ∃ core, core = k.during b k.http.totalSendSize (received tr).length
    (scan w k.bufferSize (reads tr)) .close := ⟨_, rfl⟩
  have hsettle : (k.during b k.http.totalSendSize (received tr).length
      (scan w k.bufferSize (reads tr)) .close).inCall.settle data = takeResponse core := by
    rw [hcore]
    rfl
  have hbuffer : core.http.buffer = b := by rw [hcore]; rfl
  have hreceived : core.http.receivedSize = (received tr).length := by rw [hcore]; rfl
  have hnone : core.http.httpError = .none := by rw [hcore]; rfl
  have hjoin := statusCode_join hb
  rw [hsettle]
  by_cases hstatus : ∃ code, statusCode b = some (some code)
  · obtain ⟨code, hstatus⟩ := hstatus
    rw [hstatus, Option.join_some] at hjoin
    rw [takeResponse_of_status (by rw [hbuffer]; exact hstatus)]
    refine .answers (a := ⟨code, bodyOf (received tr)⟩) ?_ rfl ?_ hnone
    · rw [verdict, ← hjoin]
    · apply body_of_contains (n := k.bufferSize)
      · exact hbuffer ▸ hb
      · rfl
      · rw [← hreceived]
        dsimp only
        cases core.http.buffer.strstr endOfHeader <;> rfl
  · have hno : ∀ code, statusCode b ≠ some (some code) := fun code h => hstatus ⟨code, h⟩
    have hnot : statusOf (received tr) = none := by
      rw [← hjoin]
      rcases hcode : statusCode b with _ | _ | code
      · rfl
      · rfl
      · exact absurd hcode (hno code)
    obtain ⟨hfail, herror⟩ := takeResponse_of_no_status (hbuffer ▸ hno)
    rcases htake : takeResponse core with ⟨code, k'⟩
    rw [htake] at hfail herror
    obtain rfl : code = .fail := hfail
    have herror' : k'.http.httpError = .invalidResponse := herror
    refine .refuses ?_
    rw [verdict, hnot, herror']

/-- **One step** of the engine is a call of the program, or none. -/
theorem Phase.follows {x : Exchange w} (hk : Prepared k) (hpos : 0 < k.http.totalSendSize)
    (h : Phase k x) (hsend : Unsated k x.core) : Follows k x (kiiCoreRun cbs x) := by
  cases h with
  | ready =>
    have hrun : kiiCoreRun cbs ⟨k, []⟩ = (.ok, ⟨{ k with state := .execute }, []⟩) := by
      simp [kiiCoreRun, hk.state]
    rw [hrun]
    exact .goes rfl hsend fun _ _ hmakes => hmakes
  | start =>
    have hexec : prvKiiHttpExecute cbs ⟨{ k with state := .execute }, []⟩ =
        (.again, ⟨k.during k.http.buffer 0 0 ⟨0, false⟩ .connect, []⟩) := by
      simp only [prvKiiHttpExecute, hk.idle]
      rfl
    have hprog : remaining k ⟨{ k with state := .execute }, []⟩ =
        remaining k ⟨k.during k.http.buffer 0 0 ⟨0, false⟩ .connect, []⟩ := by
      simp only [remaining, hk.idle]
      rfl
    rw [kiiCoreRun_again rfl hexec]
    refine .goes rfl (fun hst => by simp [Core.during] at hst) fun _ _ hmakes => ?_
    rwa [hprog]
  | connect _ => exact follows_connect hpos
  | send hreads _ => exact follows_send hk hreads (hsend rfl)
  | recv hsize hb _ _ => exact follows_recv hsize hb
  | close hb _ _ => exact follows_close hb

end

/-! ## Whole runs -/

/-- A run that ends has made the calls of the program. -/
theorem runToIdle_refines {k : Core w} {cbs : Callbacks} {fuel : Nat} {code : ErrorCode}
    {x : Exchange w} (hk : Prepared k) (hpos : 0 < k.http.totalSendSize)
    (h : runToIdle cbs fuel k = some (code, x)) :
    ∃ v, k.transaction.Makes [] v (settled x.trace) ∧ Reports x.core v code := by
  obtain ⟨x₀, ⟨hphase, hsend, hmakes⟩, hlast, hidle⟩ := Loop.doWhile_of_invariant
    (fun x => Phase k x ∧ Unsated k x.core ∧ ∀ v tr,
      (remaining k x).Makes (settled x.trace) v tr → k.transaction.Makes [] v tr) (by
    rintro x ⟨hphase, hsend, hmakes⟩ hbusy
    obtain ⟨-, ⟨-, hphase', -⟩ | ⟨hidle, -⟩⟩ : Steps cbs k x := hphase.step hk
    · refine ⟨hphase', ?_⟩
      rcases (hphase.follows hk hpos hsend : Follows k x (kiiCoreRun cbs x)) with
        ⟨-, hsend', hgoes⟩ | ⟨hidle, -, -⟩
      · exact ⟨hsend', fun v tr h => hmakes v tr (hgoes v tr h)⟩
      · rw [hidle] at hbusy
        cases hbusy
    · rw [hidle] at hbusy
      cases hbusy)
    ⟨Phase.ready, fun hst => by simp [hk.idle] at hst, by
      intro v tr h
      simpa [remaining, hk.idle, settled] using h⟩ h
  rcases (hphase.follows hk hpos hsend : Follows k x₀ (kiiCoreRun cbs x₀)) with
    ⟨hbusy, -, -⟩ | ⟨-, hends, hreports⟩
  · rw [hlast] at hbusy
    rw [hbusy] at hidle
    cases hidle
  · rw [hlast] at hends hreports
    exact ⟨_, hmakes _ _ hends, hreports⟩

/-- **The engine refines the program**: it makes the calls that the program makes, apart from those
that it is asked to make again, and it ends and reports what the program returns. -/
theorem engine_refines_exchange {k : Core w} {cbs : Callbacks} (hk : Prepared k)
    (hpos : 0 < k.http.totalSendSize) (hpatient : Patient cbs k) :
    ∃ fuel code x v, runToIdle cbs fuel k = some (code, x) ∧
      k.transaction.Makes [] v (settled x.trace) ∧ Reports x.core v code := by
  obtain ⟨fuel, ⟨code, x⟩, hrun⟩ := exists_runToIdle_of_patient hk hpatient
  obtain ⟨v, hmakes, hreports⟩ := runToIdle_refines hk hpos hrun
  exact ⟨fuel, code, x, v, hrun, hmakes, hreports⟩

theorem engine_refines_exchange_of_get :
    ∃ fuel code x v, runToIdle (byteByByte fiveBytesResponse.bytes) fuel (deviceGet 300) =
        some (code, x) ∧
      (deviceGet 300).transaction.Makes [] v (settled x.trace) ∧ Reports x.core v code :=
  engine_refines_exchange prepared_deviceGet (by decide +kernel)
    (patient_byteByByte prepared_deviceGet _)

end KiiThing

import KiiThing.Core.Ready

/-!
# Sending the request

The engine offers the request to `send_cb` in chunks, beginning at `_sent_size`, and goes on to
receive when the last one was accepted. `Stage` says how far it is; the chunks that were accepted so
far are always the beginning of the buffer, as long as this is (`Offers`). A chunk that is refused
with `KII_SOCKETC_AGAIN` is offered again, and when this happens finitely often the whole request is
sent (`sends_whole`). The reads, which clear the buffer, come behind.
-/

namespace KiiThing

variable {w : Nat}

/-! ## Chunks -/

/-- What an event offers to `send_cb`. -/
def Event.offered : Event → Option (List Byte)
  | ⟨.send chunk, _⟩ => some chunk
  | _ => none

/-- What `send_cb` has accepted. -/
def Event.accepted : Event → Option (List Byte)
  | ⟨.send chunk, ⟨.ok, _⟩⟩ => some chunk
  | _ => none

/-- The bytes that were sent in an exchange. -/
def sentBytes (tr : List Event) : List Byte := (tr.filterMap Event.accepted).flatten

theorem sentBytes_snoc (tr : List Event) (e : Event) :
    sentBytes (tr ++ [e]) = sentBytes tr ++ e.accepted.getD [] := by
  cases h : e.accepted <;> simp [sentBytes, h]

/-- The callback is one of those that serve the request. -/
def Call.isOutgoing : Call → Bool
  | .connect _ _ => true
  | .send _ => true
  | _ => false

/-- The answers `KII_SOCKETC_AGAIN` of these callbacks. -/
def waits (tr : List Event) : Nat :=
  tr.countP fun e => e.call.isOutgoing && e.reply.code == .again

theorem waits_snoc (tr : List Event) (e : Event) : waits (tr ++ [e]) =
    waits tr + if e.call.isOutgoing = true ∧ e.reply.code = .again then 1 else 0 := by
  simp [waits, List.countP_append, List.countP_singleton]

/-- In the run from `k`, these callbacks do not fail, and they keep the engine waiting finitely
often. -/
structure Obliging (cbs : Callbacks) (k : Core w) : Prop where
  answers : ∀ n, ∀ e ∈ (runs cbs k n).trace, e.call.isOutgoing = true → e.reply.code ≠ .fail
  patient : ∃ N, ∀ n, waits (runs cbs k n).trace ≤ N

/-- The first `sent` bytes of the request were sent, in chunks that are not empty and not too long. -/
structure Offers (k : Core w) (sent : Nat) (tr : List Event) : Prop where
  bytes : sentBytes tr = k.http.buffer.bytes.take sent
  chunk : ∀ e ∈ tr, ∀ chunk ∈ e.offered, 0 < chunk.length ∧ chunk.length ≤ kiiSocketMaxBuffSize

/-- `recv_cb` has not been called. -/
def Unread (tr : List Event) : Prop := ∀ e ∈ tr, ∀ n, e.call ≠ .recv n

/-- The engine is behind the request: it receives or closes, or the exchange is over. -/
def Core.Behind (k : Core w) : Prop :=
  k.state = .idle ∨
    k.state = .execute ∧ (k.http.socketState = .recv ∨ k.http.socketState = .close)

/-- `_sent_size` and `total_send_size`. -/
def Core.sendSizes (k : Core w) : Nat × Nat := (k.http.sentSize, k.http.totalSendSize)

/-- The whole request was sent. -/
structure Sent (k : Core w) (x : Exchange w) : Prop where
  offers : Offers k k.http.totalSendSize x.trace
  sizes : x.core.sendSizes = (k.http.totalSendSize, k.http.totalSendSize)
  behind : x.core.Behind

/-- How far the request that was prepared in `k` is sent. -/
inductive Stage (k : Core w) : Exchange w → Prop
  | connect {tr : List Event} (h : Offers k 0 tr) (hunread : Unread tr) :
      Stage k ⟨k.during k.http.buffer 0 0 ⟨0, false⟩ .connect, tr⟩
  | send {tr : List Event} {sent : Nat} (hlt : sent < k.http.totalSendSize) (h : Offers k sent tr)
      (hunread : Unread tr) : Stage k ⟨k.during k.http.buffer sent 0 ⟨0, false⟩ .send, tr⟩
  | sent {x : Exchange w} (h : Sent k x) : Stage k x

/-- What is still to be done before the engine receives. -/
def Exchange.toSend (x : Exchange w) : Nat :=
  match x.core.http.socketState with
  | .connect => x.core.http.totalSendSize + 1
  | .send => x.core.http.totalSendSize - x.core.http.sentSize
  | _ => 0

/-! ## One step -/

section

variable {k : Core w} {tr : List Event} {e : Event} {sent : Nat}

theorem Offers.nil (k : Core w) : Offers k 0 [] := ⟨by simp [sentBytes], by simp⟩

theorem Offers.snoc {sent' : Nat} (h : Offers k sent tr)
    (haccepted : k.http.buffer.bytes.take sent ++ e.accepted.getD [] =
      k.http.buffer.bytes.take sent')
    (hoffered : ∀ chunk ∈ e.offered, 0 < chunk.length ∧ chunk.length ≤ kiiSocketMaxBuffSize) :
    Offers k sent' (tr ++ [e]) := by
  refine ⟨by rw [sentBytes_snoc, h.bytes, haccepted], ?_⟩
  intro e' he'
  rcases List.mem_append.mp he' with he' | he'
  · exact h.chunk e' he'
  · rw [List.mem_singleton.mp he']
    exact hoffered

/-- An event that sends nothing. -/
theorem Offers.snoc_of_none (h : Offers k sent tr) (haccepted : e.accepted = none)
    (hoffered : ∀ chunk ∈ e.offered, 0 < chunk.length ∧ chunk.length ≤ kiiSocketMaxBuffSize) :
    Offers k sent (tr ++ [e]) :=
  h.snoc (by rw [haccepted]; exact List.append_nil _) hoffered

theorem Unread.snoc (h : Unread tr) (he : ∀ n, e.call ≠ .recv n) : Unread (tr ++ [e]) := by
  intro e' he'
  rcases List.mem_append.mp he' with he' | he'
  · exact h e' he'
  · rw [List.mem_singleton.mp he']
    exact he

end

/-- The step sends something, or waits. -/
def Forward (x x' : Exchange w) : Prop :=
  (x'.toSend < x.toSend ∧ waits x.trace ≤ waits x'.trace) ∨
    (x'.toSend = x.toSend ∧ waits x'.trace = waits x.trace + 1)

/-- No callback that serves the request has failed. -/
def Served (tr : List Event) : Prop := ∀ e ∈ tr, e.call.isOutgoing = true → e.reply.code ≠ .fail

section

variable {k : Core w} {cbs : Callbacks}

theorem Stage.step_connect {tr : List Event} (h : Offers k 0 tr) (hunread : Unread tr)
    (hpos : 0 < k.http.totalSendSize) {x x' : Exchange w}
    (hx : x = ⟨k.during k.http.buffer 0 0 ⟨0, false⟩ .connect, tr⟩)
    (hx' : x' = (kiiCoreRun cbs x).2) (hserved : Served x'.trace) : Stage k x' ∧ Forward x x' := by
  obtain ⟨c, hc⟩ : ∃ c, c = Call.connect (k.hostStr k.http.host) kiiServerPort := ⟨_, rfl⟩
  obtain ⟨reply, hreply⟩ : ∃ reply, cbs tr c = reply := ⟨_, rfl⟩
  have hnext : Offers k 0 (tr ++ [⟨c, reply⟩]) := h.snoc_of_none (by rw [hc]; rfl)
    (by rw [hc]; rintro _ ⟨⟩)
  have hnextUnread : Unread (tr ++ [⟨c, reply⟩]) := hunread.snoc (by rw [hc]; rintro _ ⟨⟩)
  have hwaits := waits_snoc tr ⟨c, reply⟩
  have hexec := execute_connect k k.http.buffer 0 0 ⟨0, false⟩ hc hreply
  have hstate : x.core.state = .execute := by rw [hx]; rfl
  rw [← hx] at hexec
  rcases hcode : reply.code <;> simp only [answered, hcode] at hexec
  · -- connected: the whole request is still to be sent
    rw [kiiCoreRun_again hstate hexec] at hx'
    rw [hx', hx]
    refine ⟨Stage.send hpos hnext hnextUnread, Or.inl ⟨Nat.lt_succ_self _, ?_⟩⟩
    rw [hwaits]
    exact Nat.le_add_right ..
  · rw [kiiCoreRun_fail hstate hexec] at hx'
    exact absurd hcode (hserved ⟨c, reply⟩ (by rw [hx']; simp) (by rw [hc]; rfl))
  · -- the engine has been kept waiting once more
    rw [kiiCoreRun_again hstate hexec] at hx'
    rw [hx', hx]
    refine ⟨Stage.connect hnext hnextUnread, Or.inr ⟨rfl, ?_⟩⟩
    rw [hwaits, if_pos ⟨by rw [hc]; rfl, hcode⟩]

/-- What is offered is the next part of the request. -/
theorem slice_offered (hfits : k.http.totalSendSize < k.bufferSize) {sent size : Nat}
    (hsent : sent < k.http.totalSendSize)
    (hsize : size = min (k.http.totalSendSize - sent) kiiSocketMaxBuffSize) :
    k.http.buffer.bytes.take sent ++ Memory.slice k.http.buffer.bytes sent size =
      k.http.buffer.bytes.take (sent + size) ∧
    (Memory.slice k.http.buffer.bytes sent size).length = size ∧
    0 < size ∧ size ≤ kiiSocketMaxBuffSize ∧ sent + size ≤ k.http.totalSendSize := by
  have hmax : kiiSocketMaxBuffSize = 256 := rfl
  have hbuffer : k.bufferSize = k.http.buffer.bytes.length := rfl
  refine ⟨List.take_add.symm, ?_, by omega, by omega, by omega⟩
  rw [Memory.slice, List.length_take, List.length_drop]
  omega

theorem Stage.step_send {tr : List Event} {sent : Nat} (hlt : sent < k.http.totalSendSize)
    (h : Offers k sent tr) (hunread : Unread tr) (hfits : k.http.totalSendSize < k.bufferSize)
    {x x' : Exchange w} (hx : x = ⟨k.during k.http.buffer sent 0 ⟨0, false⟩ .send, tr⟩)
    (hx' : x' = (kiiCoreRun cbs x).2) (hserved : Served x'.trace) : Stage k x' ∧ Forward x x' := by
  obtain ⟨size, hsize⟩ : ∃ size, size = min (k.http.totalSendSize - sent) kiiSocketMaxBuffSize :=
    ⟨_, rfl⟩
  obtain ⟨htake, hlen, hpos, hmax, hle⟩ := slice_offered hfits hlt hsize
  obtain ⟨chunk, hchunk⟩ : ∃ chunk, chunk = Memory.slice k.http.buffer.bytes sent size := ⟨_, rfl⟩
  rw [← hchunk] at htake hlen
  obtain ⟨reply, hreply⟩ : ∃ reply, cbs tr (.send chunk) = reply := ⟨_, rfl⟩
  have hoffered : ∀ c ∈ (⟨.send chunk, reply⟩ : Event).offered,
      0 < c.length ∧ c.length ≤ kiiSocketMaxBuffSize := by
    rintro _ ⟨⟩
    rw [hlen]
    exact ⟨hpos, hmax⟩
  have hnextUnread : Unread (tr ++ [⟨.send chunk, reply⟩]) := hunread.snoc (by rintro _ ⟨⟩)
  have hwaits := waits_snoc tr ⟨.send chunk, reply⟩
  have hexec := execute_send k k.http.buffer sent 0 ⟨0, false⟩ hsize (by rw [hchunk]) hreply
  have hstate : x.core.state = .execute := by rw [hx]; rfl
  have hsend : x.toSend = k.http.totalSendSize - sent := by rw [hx]; rfl
  have htrace : x.trace = tr := by rw [hx]
  rw [← hx] at hexec
  obtain ⟨code, data⟩ := reply
  cases code with
  | ok =>
    have hnext : Offers k (sent + size) (tr ++ [⟨.send chunk, ⟨.ok, data⟩⟩]) := h.snoc htake hoffered
    have hkeep : waits x.trace ≤ waits (tr ++ [⟨.send chunk, ⟨.ok, data⟩⟩]) := by
      rw [htrace, hwaits]
      exact Nat.le_add_right ..
    simp only [answered] at hexec
    rw [kiiCoreRun_again hstate hexec] at hx'
    by_cases hall : sent + size = k.http.totalSendSize
    · -- the last chunk
      rw [if_pos hall] at hx'
      rw [hall] at hnext
      rw [hx']
      refine ⟨Stage.sent ⟨hnext, ?_, Or.inr ⟨rfl, Or.inl rfl⟩⟩, Or.inl ⟨?_, hkeep⟩⟩
      · rw [← hall]
        exact congrArg _ hall.symm
      rw [hsend]
      exact Nat.sub_pos_of_lt hlt
    · rw [if_neg hall] at hx'
      rw [hx']
      have hless : sent + size < k.http.totalSendSize := Nat.lt_of_le_of_ne hle hall
      refine ⟨Stage.send hless hnext hnextUnread, Or.inl ⟨?_, hkeep⟩⟩
      rw [hsend]
      show k.http.totalSendSize - (sent + size) < k.http.totalSendSize - sent
      omega
  | again =>
    -- the chunk counts as not offered
    rw [kiiCoreRun_again hstate hexec] at hx'
    rw [hx', hx]
    refine ⟨Stage.send hlt (h.snoc_of_none rfl hoffered) hnextUnread, Or.inr ⟨rfl, ?_⟩⟩
    rw [hwaits, if_pos ⟨rfl, rfl⟩]
  | fail =>
    rw [kiiCoreRun_fail hstate hexec] at hx'
    exact absurd rfl (hserved ⟨.send chunk, ⟨.fail, data⟩⟩ (by rw [hx']; simp) rfl)

theorem takeRead_sendSizes (k : Core w) (data : List Byte) :
    (takeRead k data).2.sendSizes = k.sendSizes := by
  unfold takeRead
  dsimp only
  split <;> rfl

theorem takeResponse_sendSizes (k : Core w) : (takeResponse k).2.sendSizes = k.sendSizes := by
  unfold takeResponse
  split <;> rfl

/-- Behind the request, nothing is sent. -/
theorem execute_behind (cbs : Callbacks) {x : Exchange w}
    (hst : x.core.http.socketState = .recv ∨ x.core.http.socketState = .close) :
    (∃ e : Event, (prvKiiHttpExecute cbs x).2.trace = x.trace ++ [e] ∧ e.offered = none ∧
      e.accepted = none) ∧
    (prvKiiHttpExecute cbs x).2.core.sendSizes = x.core.sendSizes := by
  unfold prvKiiHttpExecute
  rcases hst with hst | hst
  · rw [hst]
    simp only [executeRecv, Exchange.ask]
    split
    · exact ⟨⟨_, rfl, rfl, rfl⟩, takeRead_sendSizes _ _⟩
    · exact ⟨⟨_, rfl, rfl, rfl⟩, rfl⟩
    · exact ⟨⟨_, rfl, rfl, rfl⟩, rfl⟩
  · rw [hst]
    simp only [executeClose, Exchange.ask]
    split
    · exact ⟨⟨_, rfl, rfl, rfl⟩, takeResponse_sendSizes _⟩
    · exact ⟨⟨_, rfl, rfl, rfl⟩, rfl⟩
    · exact ⟨⟨_, rfl, rfl, rfl⟩, rfl⟩

/-- The engine does not come back. -/
theorem Core.Behind.step (cbs : Callbacks) {x : Exchange w} (h : x.core.Behind) :
    (kiiCoreRun cbs x).2.core.Behind := by
  rcases h with hidle | ⟨hstate, hst⟩
  · left
    rw [kiiCoreRun, hidle]
    exact hidle
  · rcases kiiCoreRun_cases cbs (Or.inr hstate) with hcall | ⟨z, hcall, hturn, hstate'⟩ | ⟨_, _, z, hcall, -⟩
    · rw [hcall]
      exact Or.inr ⟨rfl, hst⟩
    · rw [hcall]
      refine Or.inr ⟨hstate', ?_⟩
      cases hturn with
      | start hst' _ => simp [hst'] at hst
      | wait _ _ hsame => rw [hsame]; exact hst
      | connected hst' _ => simp [hst'] at hst
      | sent hst' _ => simp [hst'] at hst
      | read _ hnext => exact hnext
      | closed _ hc _ => exact absurd rfl hc
    · rw [hcall]
      exact Or.inl rfl

theorem Sent.step {x : Exchange w} (h : Sent k x) : Sent k (kiiCoreRun cbs x).2 := by
  have hbehind := h.behind.step cbs
  rcases h.behind with hidle | ⟨hstate, hst⟩
  · have hrun : (kiiCoreRun cbs x).2 = x := by rw [kiiCoreRun, hidle]
    rw [hrun]
    exact h
  · obtain ⟨htrace, hhttp⟩ := kiiCoreRun_execute cbs hstate
    obtain ⟨⟨e, hsnoc, hoffered, haccepted⟩, hsizes⟩ := execute_behind cbs hst
    refine ⟨?_, ?_, hbehind⟩
    · rw [htrace, hsnoc]
      exact h.offers.snoc_of_none haccepted (by simp [hoffered])
    · rw [Core.sendSizes, hhttp]
      exact hsizes.trans h.sizes

/-! ## Whole runs -/

/-- Before the engine connects, it is started in two steps. -/
theorem runs_two (hk : Prepared k) :
    runs cbs k 2 = ⟨k.during k.http.buffer 0 0 ⟨0, false⟩ .connect, []⟩ := by
  have hstart : kiiCoreRun cbs ⟨k, []⟩ = (.ok, ⟨{ k with state := .execute }, []⟩) := by
    simp [kiiCoreRun, hk.state]
  have hexec : prvKiiHttpExecute cbs ⟨{ k with state := .execute }, []⟩ =
      (.again, ⟨k.during k.http.buffer 0 0 ⟨0, false⟩ .connect, []⟩) := by
    simp only [prvKiiHttpExecute, hk.idle]
    rfl
  rw [runs, runs, runs, hstart, kiiCoreRun_again rfl hexec]

/-- **One step** leads from a stage to a stage, and the request comes closer to being sent, or it is
sent. -/
theorem Stage.step {x : Exchange w} (hk : Prepared k) (hpos : 0 < k.http.totalSendSize)
    (h : Stage k x) (hserved : Served (kiiCoreRun cbs x).2.trace) :
    Stage k (kiiCoreRun cbs x).2 ∧ (Sent k x ∨ Forward x (kiiCoreRun cbs x).2) := by
  cases h with
  | connect h hunread =>
    obtain ⟨hstage, hforward⟩ := Stage.step_connect h hunread hpos rfl rfl hserved
    exact ⟨hstage, Or.inr hforward⟩
  | send hlt h hunread =>
    obtain ⟨hstage, hforward⟩ := Stage.step_send hlt h hunread hk.fits rfl rfl hserved
    exact ⟨hstage, Or.inr hforward⟩
  | sent h => exact ⟨Stage.sent h.step, Or.inl h⟩

theorem runs_stage (hk : Prepared k) (hpos : 0 < k.http.totalSendSize)
    (hserved : ∀ n, Served (runs cbs k n).trace) (n : Nat) : Stage k (runs cbs k (n + 2)) := by
  induction n with
  | zero =>
    rw [runs_two hk]
    exact Stage.connect (Offers.nil k) (by simp [Unread])
  | succ n ih => exact (ih.step hk hpos (hserved (n + 3))).1

/-- The request is sent in the end. -/
theorem exists_sent (hk : Prepared k) (hpos : 0 < k.http.totalSendSize) (h : Obliging cbs k) :
    ∃ n, Sent k (runs cbs k (n + 2)) := by
  obtain ⟨N, hN⟩ := h.patient
  apply Loop.exists_of_variant (fun n => runs cbs k (n + 2)) (Sent k)
    (fun x => x.toSend + (N - waits x.trace))
  intro n
  rcases ((runs_stage hk hpos h.answers n).step hk hpos (h.answers (n + 3))).2 with hsent | hforward
  · exact Or.inl hsent
  · right
    have hbound := hN (n + 3)
    show (runs cbs k (n + 3)).toSend + (N - waits (runs cbs k (n + 3)).trace) < _
    rcases hforward with ⟨hlt, hle⟩ | ⟨heq, hwait⟩
    · have hle' : waits (runs cbs k (n + 2)).trace ≤ waits (runs cbs k (n + 3)).trace := hle
      have hlt' : (runs cbs k (n + 3)).toSend < (runs cbs k (n + 2)).toSend := hlt
      omega
    · -- one more of the finitely many answers is used up
      have heq' : (runs cbs k (n + 3)).toSend = (runs cbs k (n + 2)).toSend := heq
      have hwait' : waits (runs cbs k (n + 3)).trace = waits (runs cbs k (n + 2)).trace + 1 := hwait
      omega

/-- From some step on, the request is sent. -/
theorem exists_sentBytes (hk : Prepared k) (hpos : 0 < k.http.totalSendSize)
    (h : Obliging cbs k) : ∃ N, ∀ n, N ≤ n → sentBytes (runs cbs k n).trace = k.text := by
  obtain ⟨N, hN⟩ := exists_sent hk hpos h
  refine ⟨N + 2, fun n hn => ?_⟩
  obtain ⟨m, rfl⟩ := Nat.exists_eq_add_of_le hn
  suffices hsent : Sent k (runs cbs k (N + 2 + m)) from hsent.offers.bytes
  induction m with
  | zero => exact hN
  | succ m ih => exact (ih (Nat.le_add_right ..)).step

/-- The chunk that is offered next. -/
def Core.nextChunk (k : Core w) : List Byte :=
  Memory.slice k.http.buffer.bytes k.http.sentSize
    (min (k.http.totalSendSize - k.http.sentSize) kiiSocketMaxBuffSize)

/-- What a call of `send_cb` says of the object, and what its answer `KII_SOCKETC_AGAIN` does to
it: nothing. -/
theorem run_offered {x : Exchange w} {chunk : List Byte} {reply : Reply}
    (h : (kiiCoreRun cbs x).2.trace = x.trace ++ [⟨.send chunk, reply⟩]) :
    (x.core.state = .execute ∧ x.core.http.socketState = .send ∧ chunk = x.core.nextChunk) ∧
      (reply.code = .again → (kiiCoreRun cbs x).2.core = x.core) := by
  have hsame : ¬ x.trace = x.trace ++ [⟨.send chunk, reply⟩] := by simp
  have hlast : ∀ {e : Event}, x.trace ++ [e] = x.trace ++ [⟨.send chunk, reply⟩] →
      e = ⟨.send chunk, reply⟩ := by
    intro e he
    rwa [List.append_cancel_left_eq, List.singleton_inj] at he
  cases hstate : x.core.state with
  | idle | other _ =>
    rw [kiiCoreRun, hstate] at h
    exact absurd h hsame
  | ready =>
    rw [kiiCoreRun, hstate] at h
    exact absurd h hsame
  | execute =>
    have htrace := (kiiCoreRun_execute cbs hstate).1.symm.trans h
    cases hst : x.core.http.socketState with
    | idle =>
      rw [prvKiiHttpExecute, hst] at htrace
      exact absurd htrace hsame
    | connect =>
      simp only [prvKiiHttpExecute, hst, executeConnect, Exchange.ask] at htrace
      split at htrace <;> cases hlast htrace
    | send =>
      obtain ⟨answer, hanswer⟩ : ∃ answer, cbs x.trace (.send x.core.nextChunk) = answer := ⟨_, rfl⟩
      have hexec : prvKiiHttpExecute cbs x = executeSend cbs x := by rw [prvKiiHttpExecute, hst]
      have hevent : (⟨.send x.core.nextChunk, answer⟩ : Event) = ⟨.send chunk, reply⟩ := by
        rw [hexec, executeSend] at htrace
        simp only [Exchange.ask, ← hanswer] at htrace ⊢
        split at htrace <;> exact hlast htrace
      obtain ⟨hchunk, hreply⟩ := Event.mk.inj hevent
      refine ⟨⟨rfl, rfl, (Call.send.inj hchunk).symm⟩, ?_⟩
      intro hcode
      have hagain : prvKiiHttpExecute cbs x =
          (.again, ⟨x.core, x.trace ++ [⟨.send x.core.nextChunk, answer⟩]⟩) := by
        rw [← hreply, ← hanswer] at hcode
        rw [hexec, ← hanswer]
        simp only [executeSend, Exchange.ask, Core.nextChunk] at hcode ⊢
        rw [hcode]
      rw [kiiCoreRun_again hstate hagain]
    | recv =>
      obtain ⟨⟨e, hsnoc, hoffered, -⟩, -⟩ := execute_behind cbs (Or.inl hst)
      obtain rfl := hlast (hsnoc.symm.trans htrace)
      cases hoffered
    | close =>
      obtain ⟨⟨e, hsnoc, hoffered, -⟩, -⟩ := execute_behind cbs (Or.inr hst)
      obtain rfl := hlast (hsnoc.symm.trans htrace)
      cases hoffered

/-- **The next call** of an engine that sends. -/
theorem run_send (cbs : Callbacks) {x : Exchange w} (hstate : x.core.state = .execute)
    (hst : x.core.http.socketState = .send) : ∃ reply,
      (kiiCoreRun cbs x).2.trace = x.trace ++ [⟨.send x.core.nextChunk, reply⟩] := by
  rw [(kiiCoreRun_execute cbs hstate).1, prvKiiHttpExecute, hst]
  simp only [executeSend, Exchange.ask]
  split <;> exact ⟨_, rfl⟩

/-- What is said of the sending half of a run. `_sent_size` is that of the last exchange until the
second step, which resets it. -/
structure SendsWhole (cbs : Callbacks) (k : Core w) : Prop where
  complete : ∃ N, ∀ n, N ≤ n → sentBytes (runs cbs k n).trace = k.text
  chunk : ∀ n, ∀ e ∈ (runs cbs k n).trace, ∀ chunk ∈ e.offered,
    0 < chunk.length ∧ chunk.length ≤ kiiSocketMaxBuffSize
  again : ∀ n chunk reply,
    (runs cbs k (n + 1)).trace = (runs cbs k n).trace ++ [⟨.send chunk, reply⟩] →
    reply.code = .again →
    ∃ reply', (runs cbs k (n + 2)).trace = (runs cbs k (n + 1)).trace ++ [⟨.send chunk, reply'⟩]
  before : ∀ n, sentBytes (runs cbs k n).trace ≠ k.text →
    (runs cbs k n).core.http.buffer = k.http.buffer ∧ Unread (runs cbs k n).trace
  sentSize : ∀ n, (runs cbs k (n + 2)).core.http.sentSize ≤
    (runs cbs k (n + 2)).core.http.totalSendSize

/-- What holds of the two states before the engine connects, and of all later stages. -/
theorem runs_of_stage {P : Exchange w → Prop} (hk : Prepared k) (hpos : 0 < k.http.totalSendSize)
    (h : Obliging cbs k) (hready : P ⟨k, []⟩) (hstart : P ⟨{ k with state := .execute }, []⟩)
    (hstage : ∀ x, Stage k x → P x) (n : Nat) : P (runs cbs k n) := by
  match n with
  | 0 => exact hready
  | 1 =>
    have hrun : runs cbs k 1 = ⟨{ k with state := .execute }, []⟩ := by
      simp [runs, kiiCoreRun, hk.state]
    rw [hrun]
    exact hstart
  | n + 2 => exact hstage _ (runs_stage hk hpos h.answers n)

theorem Stage.chunk {x : Exchange w} (h : Stage k x) : ∀ e ∈ x.trace, ∀ chunk ∈ e.offered,
    0 < chunk.length ∧ chunk.length ≤ kiiSocketMaxBuffSize := by
  cases h with
  | connect h _ => exact h.chunk
  | send _ h _ => exact h.chunk
  | sent h => exact h.offers.chunk

theorem Stage.before {x : Exchange w} (h : Stage k x) (hnot : sentBytes x.trace ≠ k.text) :
    x.core.http.buffer = k.http.buffer ∧ Unread x.trace := by
  cases h with
  | connect _ hunread => exact ⟨rfl, hunread⟩
  | send _ _ hunread => exact ⟨rfl, hunread⟩
  | sent h => exact absurd h.offers.bytes hnot

theorem Stage.sentSize_le {x : Exchange w} (h : Stage k x) :
    x.core.http.sentSize ≤ x.core.http.totalSendSize := by
  cases h with
  | connect _ _ => exact Nat.zero_le _
  | send hlt _ _ => exact Nat.le_of_lt hlt
  | sent h =>
    obtain ⟨hsent, htotal⟩ := Prod.mk.inj h.sizes
    rw [hsent, htotal]

/-- **Sending loses and repeats nothing.** -/
theorem sends_whole (hk : Prepared k) (hpos : 0 < k.http.totalSendSize) (h : Obliging cbs k) :
    SendsWhole cbs k where
  complete := exists_sentBytes hk hpos h
  chunk := runs_of_stage hk hpos h (by simp) (by simp) fun _ hx => hx.chunk
  again := by
    intro n chunk reply hcall hcode
    obtain ⟨⟨hstate, hst, hchunk⟩, hsame⟩ := run_offered hcall
    have hcore : (runs cbs k (n + 1)).core = (runs cbs k n).core := hsame hcode
    rw [← hcore] at hstate hst hchunk
    rw [hchunk]
    exact run_send cbs hstate hst
  before := runs_of_stage hk hpos h (fun _ => ⟨rfl, by simp [Unread]⟩)
    (fun _ => ⟨rfl, by simp [Unread]⟩) fun _ hx => hx.before
  sentSize := fun n => (runs_stage hk hpos h.answers n).sentSize_le

/-- Callbacks that never fail, and keep the engine waiting at most `N` times, whatever they are
asked. -/
theorem obliging_of_bound {N : Nat}
    (hanswers : ∀ tr c, c.isOutgoing = true → (cbs tr c).code ≠ .fail)
    (hN : ∀ tr c, c.isOutgoing = true → (cbs tr c).code = .again → waits tr < N) :
    Obliging cbs k := by
  constructor
  · intro n
    induction n with
    | zero => simp [runs]
    | succ n ih =>
      rw [runs]
      rcases kiiCoreRun_trace cbs (runs cbs k n) with hsame | ⟨c, hsnoc⟩
      · rw [hsame]
        exact ih
      · rw [hsnoc]
        intro e he
        rcases List.mem_append.mp he with he | he
        · exact ih e he
        · rw [List.mem_singleton.mp he]
          exact hanswers _ c
  · refine ⟨N, fun n => ?_⟩
    induction n with
    | zero => exact Nat.zero_le _
    | succ n ih =>
      rw [runs]
      rcases kiiCoreRun_trace cbs (runs cbs k n) with hsame | ⟨c, hsnoc⟩
      · rw [hsame]
        exact ih
      · rw [hsnoc, waits_snoc]
        split
        · next hwait => exact hN _ c hwait.1 hwait.2
        · exact ih

end

/-- A socket that is not ready for the first three chunks it is offered. -/
def hesitant : Callbacks
  | tr, .send _ => if waits tr < 3 then ⟨.again, []⟩ else ⟨.ok, []⟩
  | _, _ => ⟨.ok, []⟩

theorem sends_whole_of_get : Prepared (deviceGet 300) ∧ SendsWhole hesitant (deviceGet 300) := by
  refine ⟨prepared_deviceGet, sends_whole prepared_deviceGet (by decide +kernel)
    (obliging_of_bound (N := 3) ?_ ?_)⟩
  · intro tr c _
    cases c with
    | send chunk =>
      rw [hesitant]
      split <;> simp
    | _ => simp [hesitant]
  · intro tr c _ hagain
    cases c with
    | send chunk =>
      rw [hesitant] at hagain
      split at hagain
      · next hlt => exact hlt
      · cases hagain
    | _ => cases hagain

/-! ## What is prepared is sent -/

/-- A request is not empty. -/
theorem Prepares.totalSendSize_pos {k : Core w} {r : Result ErrorCode w} {room : Prop}
    {req : Http.Request} (h : Prepares k r room req) (hok : r.code = .ok) : 0 < r.core.http.totalSendSize := by
  rw [h.totalSendSize hok, Http.Request.bytes]
  simp only [List.length_append, Http.Request.length_line]
  omega

/-- **A message that was prepared is what is sent.** -/
theorem Preparation.sent_message {k : Core w} {p : Preparation} (hvalid : p.Valid k)
    (hok : (p.run k).code = .ok) {cbs : Callbacks} (h : Obliging cbs (p.run k).core) :
    ∃ N, ∀ n, N ≤ n → sentBytes (runs cbs (p.run k).core n).trace = (p.message k).bytes := by
  have hprep := p.prepares hvalid
  rw [← hprep.sent hok]
  exact exists_sentBytes (hprep.prepared hok) (hprep.totalSendSize_pos hok) h

end KiiThing

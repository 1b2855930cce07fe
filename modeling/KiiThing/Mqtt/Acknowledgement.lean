import KiiThing.Mqtt.Framing
import KiiThing.Mqtt.Handshake

/-!
# The answers to CONNECT and SUBSCRIBE

Both functions wait for an answer with a single read, which asks for as many bytes as the buffer
has, and take what it brings for the answer. With the stream `S` of the broker in pieces, 0 is
returned when the first piece is the answer: no part of it, and nothing that follows it.

`readsAnswer_iff` says so of both at once, and `handshakes_iff` of the two functions.
-/

namespace KiiThing

open Mqtt (Publish)

variable {w : Nat} {m : Push w}

/-! ## A socket that works -/

/-- The callbacks of the socket do what they are asked for. What a read returns that brings nothing,
at the end of the stream, is left open. -/
def succeeds : (c : PushCall) → c.Reply → Prop
  | .connect _ _, r => SocketReply.code r = .ok
  | .send _, r => SocketReply.code r = .ok
  | .recv _, r => SocketReply.data r ≠ [] → SocketReply.code r = .ok
  | .close, r => SocketReply.code r = .ok
  | _, _ => True

/-- The surroundings of `incoming`, with such a socket. -/
def working (D : List (List Byte) → Nat → List Byte → Prop) :
    Contract PushCall PushCall.Reply Incoming where
  allowed _ _ := True
  answers g c r := (incoming D).answers g c r ∧ succeeds c r
  next := (incoming D).next

/-- The stream begins with `ack`, and has the bytes of the whole answer. -/
def Begins (ack : List Byte) (length : Nat) (S : List Byte) : Prop :=
  S.take 4 = ack ∧ length ≤ S.length

/-- The call returns. It returns 0 if and only if the stream begins with the answer, and has then
taken the answer from it and nothing more. -/
def ReadsAnswer (p : PushProg (Int × Push w)) (ack : List Byte) (length : Nat) (S : List Byte)
    (cut : List (List Byte) → Nat → Nat) : Prop :=
  let Returns := p.Runs (working (cutting S cut)) ⟨[], []⟩
  (∃ r g', Returns r g') ∧
    ∀ r g', Returns r g' → (r.1 = 0 ↔ Begins ack length S) ∧ (r.1 = 0 → g'.consumed = length)

/-! ## The size of the buffer -/

namespace Writer

theorem size_copyDown (b : Buffer w) (dst src n : Nat) : (copyDown b dst src n).size = b.size := by
  induction n generalizing b dst src with
  | zero => rfl
  | succ n ih => rw [copyDown, ih, Buffer.size_write]

theorem size_finish (c : Writer w) (byte1 : Byte) : (c.finish byte1).2.size = c.buffer.size := by
  unfold finish
  rw [size_copyDown]
  simp [put]

end Writer

theorem size_connectPacket (b : Buffer w) (endpoint : Endpoint) (keepAliveInterval : Nat) :
    (connectPacket b endpoint keepAliveInterval).2.size = b.size := by
  unfold connectPacket
  rw [Writer.size_finish]
  simp [Writer.put, Writer.putNumber, Writer.putStr]

theorem size_subscribePacket (b : Buffer w) (topic : CString) (qos : Nat) :
    (subscribePacket b topic qos).2.size = b.size := by
  unfold subscribePacket
  rw [Writer.size_finish]
  simp [Writer.put, Writer.putNumber, Writer.putStr]

/-! ## One read -/

section

variable {D : List (List Byte) → Nat → List Byte → Prop} {g : Incoming}

/-- Nothing keeps a run from going on. -/
theorem working_answers (h : ∀ pieces n, ∃ data, D pieces n data) (g : Incoming) (c : PushCall) :
    ∃ r, (working D).answers g c r := by
  cases c with
  | recv n =>
    obtain ⟨data, hdata⟩ := h g.pieces n
    exact ⟨(⟨.ok, data, 1⟩ : SocketReply), hdata, fun _ => rfl⟩
  | connect _ _ => exact ⟨(⟨.ok, [], 1⟩ : SocketReply), trivial, rfl⟩
  | send _ => exact ⟨(⟨.ok, [], 1⟩ : SocketReply), trivial, rfl⟩
  | close => exact ⟨(⟨.ok, [], 1⟩ : SocketReply), trivial, rfl⟩
  | setConnected _ => exact ⟨(), trivial, trivial⟩
  | pushReceived _ _ _ => exact ⟨(), trivial, trivial⟩
  | install => exact ⟨(none : Option CString), trivial, trivial⟩
  | retrieveEndpoint _ => exact ⟨(.error, Endpoint.empty), trivial, trivial⟩
  | delay _ => exact ⟨(), trivial, trivial⟩

/-- The answer is what one read brings. -/
def TakenBy (D : List (List Byte) → Nat → List Byte → Prop) (size : Nat) (ack : List Byte)
    (length : Nat) (g : Incoming) (r : Int × Push w) (g' : Incoming) : Prop :=
  ∃ data, D g.pieces size data ∧ g'.consumed = g.consumed + data.length ∧
    (r.1 = 0 ↔ data.length = length ∧ data.take 4 = ack)

theorem awaitAnswer_meets {length : Nat} {ack : List Byte} (hlength : 4 ≤ length)
    (hsize : 4 ≤ m.buffer.size) :
    (awaitAnswer m length ack).Meets (working D) g (TakenBy D m.buffer.size ack length g) := by
  rw [awaitAnswer, Prog.meets_bind]
  refine ⟨trivial, ?_⟩
  intro r hr
  obtain ⟨hdata, hok⟩ := hr
  have hconsumed := consumed_append g (SocketReply.data r)
  show Prog.Meets (working D) (if SocketReply.code r ≠ .ok then _ else _) _ _
  by_cases hcode : SocketReply.code r = .ok
  · rw [if_neg (not_not.mpr hcode)]
    by_cases hlen : (SocketReply.data r).length = length
    · have htake : (m.buffer.clear.write 0 (SocketReply.data r)).bytes.take 4 =
          (SocketReply.data r).take 4 := take_answer (hlen ▸ hlength) hsize
      dsimp only
      rw [htake]
      by_cases hack : (SocketReply.data r).take 4 = ack
      · rw [if_pos ⟨hlen, hack⟩]
        exact ⟨_, hdata, hconsumed, iff_of_true rfl ⟨hlen, hack⟩⟩
      · rw [if_neg (fun h => hack h.2)]
        exact ⟨_, hdata, hconsumed, iff_of_false fails_ne fun h => hack h.2⟩
    · rw [if_neg (fun h => hlen h.1)]
      exact ⟨_, hdata, hconsumed, iff_of_false fails_ne fun h => hlen h.1⟩
  · -- nothing came
    rw [if_pos hcode]
    have hnil : SocketReply.data r = [] := by
      by_contra hne
      exact hcode (hok hne)
    refine ⟨_, hdata, hconsumed, iff_of_false fails_ne ?_⟩
    rw [hnil]
    rintro ⟨rfl, -⟩
    exact absurd hlength (by decide)

theorem handshake_meets {packet : List Byte × Buffer w} {length : Nat} {ack : List Byte}
    (hlength : 4 ≤ length) (hsize : 4 ≤ packet.2.size) :
    (handshake m packet length ack).Meets (working D) g (TakenBy D packet.2.size ack length g) := by
  rw [handshake, Prog.meets_bind]
  refine ⟨trivial, ?_⟩
  rintro r ⟨-, hok⟩
  have hcode : SocketReply.code r = .ok := hok
  show Prog.Meets (working D) (if SocketReply.code r ≠ .ok then _ else _) _ _
  rw [if_neg (not_not.mpr hcode)]
  exact awaitAnswer_meets (m := ⟨SocketReply.socket r, packet.2⟩) hlength hsize

/-- Nothing is returned but -1. -/
def Fails (r : Int × Push w) (_ : Incoming) : Prop := r.1 = -1

/-- The room that the packet needs for `kiiMQTT_connect`. -/
def connectRoom (endpoint : Endpoint) : Nat :=
  27 + endpoint.topic.str.length + endpoint.username.str.length + endpoint.password.str.length

theorem openSocket_meets (m : Push w) (endpoint : Endpoint) (keepAliveInterval : Nat) :
    (openSocket m endpoint keepAliveInterval).Meets (working D) g
      (if connectRoom endpoint ≤ m.buffer.size then
        TakenBy D m.buffer.size [0x20, 0x02, 0x00, 0x00] 4 g else Fails) := by
  rw [openSocket, Prog.meets_bind]
  refine ⟨trivial, ?_⟩
  rintro r ⟨-, hok⟩
  have hcode : SocketReply.code r = .ok := hok
  show Prog.Meets (working D) (if SocketReply.code r ≠ .ok then _ else if m.buffer.size = 0 then _
    else if m.buffer.size < connectRoom endpoint then _ else _) _ _
  rw [if_neg (not_not.mpr hcode)]
  by_cases hroom : connectRoom endpoint ≤ m.buffer.size
  · have hsome : 27 ≤ m.buffer.size := by
      unfold connectRoom at hroom
      omega
    rw [if_neg (by omega), if_neg (by omega), if_pos hroom]
    have hsize := size_connectPacket m.buffer endpoint keepAliveInterval
    rw [← hsize]
    exact handshake_meets (Nat.le_refl 4) (by rw [hsize]; omega)
  · rw [if_neg hroom, if_pos (show m.buffer.size < connectRoom endpoint by omega)]
    split
    · exact rfl
    · exact rfl

theorem kiiMQTTConnect_meets (m : Push w) (endpoint : Endpoint) (keepAliveInterval : Nat) :
    (kiiMQTTConnect m endpoint keepAliveInterval).Meets (working D) g
      (if connectRoom endpoint ≤ m.buffer.size then
        TakenBy D m.buffer.size [0x20, 0x02, 0x00, 0x00] 4 g else Fails) := by
  rw [kiiMQTTConnect, closeOpened]
  split
  · rw [Prog.meets_bind]
    refine ⟨trivial, ?_⟩
    rintro r ⟨-, hok⟩
    have hcode : SocketReply.code r = .ok := hok
    show Prog.Meets (working D) (if SocketReply.code r ≠ .ok then _ else _) _ _
    rw [if_neg (not_not.mpr hcode)]
    exact openSocket_meets ⟨SocketReply.socket r, m.buffer⟩ endpoint keepAliveInterval
  · exact openSocket_meets m endpoint keepAliveInterval

theorem kiiMQTTSubscribe_meets (m : Push w) (topic : CString) (qos : Nat) :
    (kiiMQTTSubscribe m topic qos).Meets (working D) g
      (if 14 + topic.length ≤ m.buffer.size then
        TakenBy D m.buffer.size [0x90, 0x03, 0x00, 0x01] 5 g else Fails) := by
  rw [kiiMQTTSubscribe]
  by_cases hroom : 14 + topic.length ≤ m.buffer.size
  · rw [if_neg (by omega), if_neg (by omega), if_pos hroom]
    have hsize := size_subscribePacket m.buffer topic qos
    rw [← hsize]
    exact handshake_meets (Nat.le_succ 4) (by rw [hsize]; omega)
  · rw [if_neg hroom, if_pos (show m.buffer.size < 14 + topic.length by omega)]
    split
    · exact rfl
    · exact rfl

end

/-! ## The first piece -/

section

variable {p : PushProg (Int × Push w)} {S ack : List Byte} {cut : List (List Byte) → Nat → Nat}
  {size length : Nat}

theorem exists_working (p : PushProg (Int × Push w)) (g : Incoming) :
    ∃ r g', p.Runs (working (cutting S cut)) g r g' := by
  apply Prog.exists_runs
  apply working_answers
  intro pieces n
  exact ⟨_, rfl⟩

theorem readsAnswer_iff_of_fails (h : p.Meets (working (cutting S cut)) ⟨[], []⟩ Fails) :
    ReadsAnswer p ack length S cut ↔ ¬ Begins ack length S := by
  constructor
  · rintro ⟨⟨r, g', hrun⟩, hall⟩ hbegins
    exact fails_ne ((h.of_runs hrun).symm.trans ((hall r g' hrun).1.mpr hbegins))
  · intro hnot
    refine ⟨exists_working p _, ?_⟩
    intro r g' hrun
    have hne : r.1 ≠ 0 := fun hzero => fails_ne ((h.of_runs hrun).symm.trans hzero)
    exact ⟨iff_of_false hne hnot, fun hzero => absurd hzero hne⟩

/-- **When the answer is read.** -/
theorem readsAnswer_iff (hlength : 4 ≤ length) (h : p.Meets (working (cutting S cut)) ⟨[], []⟩
      (TakenBy (cutting S cut) size ack length ⟨[], []⟩)) :
    ReadsAnswer p ack length S cut ↔
      (Begins ack length S → (S.take (cut [] size)).length = length) := by
  -- a piece of this length begins as the stream does, and leaves what is behind it
  have hbegin : (S.take (cut [] size)).length = length →
      (S.take (cut [] size)).take 4 = S.take 4 ∧ length ≤ S.length := by
    intro hlen
    rw [List.length_take] at hlen
    rw [List.take_take, Nat.min_eq_left (by omega)]
    exact ⟨rfl, by omega⟩
  constructor
  · rintro ⟨⟨r, g', hrun⟩, hall⟩ hbegins
    obtain ⟨data, hdata, -, hzero⟩ := h.of_runs hrun
    obtain rfl : data = S.take (cut [] size) := hdata
    exact (hzero.mp ((hall r g' hrun).1.mpr hbegins)).1
  · intro hfirst
    refine ⟨exists_working p _, ?_⟩
    intro r g' hrun
    obtain ⟨data, hdata, hconsumed, hzero⟩ := h.of_runs hrun
    obtain rfl : data = S.take (cut [] size) := hdata
    refine ⟨hzero.trans ⟨?_, ?_⟩, ?_⟩
    · rintro ⟨hlen, hack⟩
      obtain ⟨htake, hle⟩ := hbegin hlen
      exact ⟨htake.symm.trans hack, hle⟩
    · intro hbegins
      have hlen := hfirst hbegins
      exact ⟨hlen, (hbegin hlen).1.trans hbegins.1⟩
    · intro hr
      rw [hconsumed, (hzero.mp hr).1]
      exact Nat.zero_add length

end

/-- **When the answers are read from the stream**, by `kiiMQTT_connect` and by
`kiiMQTT_subscribe`. -/
theorem handshakes_iff :
    (∀ (m : Push w) (endpoint : Endpoint) (keepAliveInterval : Nat) (S : List Byte)
        (cut : List (List Byte) → Nat → Nat),
      ReadsAnswer (kiiMQTTConnect m endpoint keepAliveInterval) [0x20, 0x02, 0x00, 0x00] 4 S cut ↔
        (Begins [0x20, 0x02, 0x00, 0x00] 4 S → connectRoom endpoint ≤ m.buffer.size ∧
          (S.take (cut [] m.buffer.size)).length = 4)) ∧
      ∀ (m : Push w) (topic : CString) (qos : Nat) (S : List Byte)
        (cut : List (List Byte) → Nat → Nat),
      ReadsAnswer (kiiMQTTSubscribe m topic qos) [0x90, 0x03, 0x00, 0x01] 5 S cut ↔
        (Begins [0x90, 0x03, 0x00, 0x01] 5 S → 14 + topic.length ≤ m.buffer.size ∧
          (S.take (cut [] m.buffer.size)).length = 5) := by
  refine ⟨?_, ?_⟩
  · intro m endpoint keepAliveInterval S cut
    have hmeets := kiiMQTTConnect_meets (D := cutting S cut) (g := ⟨[], []⟩) m endpoint
      keepAliveInterval
    by_cases hroom : connectRoom endpoint ≤ m.buffer.size
    · rw [if_pos hroom] at hmeets
      simp only [readsAnswer_iff (Nat.le_refl 4) hmeets, hroom, true_and]
    · rw [if_neg hroom] at hmeets
      simp only [readsAnswer_iff_of_fails hmeets, hroom, false_and, imp_false]
  · intro m topic qos S cut
    have hmeets := kiiMQTTSubscribe_meets (D := cutting S cut) (g := ⟨[], []⟩) m topic qos
    by_cases hroom : 14 + topic.length ≤ m.buffer.size
    · rw [if_pos hroom] at hmeets
      simp only [readsAnswer_iff (Nat.le_succ 4) hmeets, hroom, true_and]
    · rw [if_neg hroom] at hmeets
      simp only [readsAnswer_iff_of_fails hmeets, hroom, false_and, imp_false]

/-- A CONNACK that comes byte by byte is not read, and neither is a SUBACK that comes together with
the notification behind it. -/
theorem handshakes_fail :
    (Cuts fun _ n => min n 1) ∧
      ¬ ReadsAnswer (kiiMQTTConnect openPush Endpoint.empty 30) [0x20, 0x02, 0x00, 0x00] 4
        Mqtt.connAck (fun _ n => min n 1) ∧
      (Cuts fun _ n => n) ∧
      ¬ ReadsAnswer (kiiMQTTSubscribe openPush (CString.lit "t") 0) [0x90, 0x03, 0x00, 0x01] 5
        (Mqtt.subAck 0 ++ hello.bytes) fun _ n => n := by
  refine ⟨?_, ?_, fun _ n => ⟨Nat.le_refl n, id⟩, ?_⟩
  · intro _ n
    exact ⟨Nat.min_le_left n 1, fun hn => Nat.lt_min.mpr ⟨hn, Nat.one_pos⟩⟩
  · intro hreads
    have hmeets := kiiMQTTConnect_meets (D := cutting Mqtt.connAck fun _ n => min n 1)
      (g := ⟨[], []⟩) openPush Endpoint.empty 30
    rw [if_pos (by decide)] at hmeets
    have hlen := (readsAnswer_iff (Nat.le_refl 4) hmeets).mp hreads ⟨by decide, by decide⟩
    exact absurd hlen (by decide)
  · intro hreads
    have hmeets := kiiMQTTSubscribe_meets (D := cutting (Mqtt.subAck 0 ++ hello.bytes) fun _ n => n)
      (g := ⟨[], []⟩) openPush (CString.lit "t") 0
    rw [if_pos (by decide)] at hmeets
    have hlen := (readsAnswer_iff (Nat.le_succ 4) hmeets).mp hreads ⟨by decide, by decide⟩
    exact absurd hlen (by decide)

end KiiThing

import KiiThing.Mqtt.Task
import KiiThing.Lib.System

/-!
# Keeping the connection alive

The two tasks of the push routine share the socket: as soon as `_mqtt_connected` is 1, the ping task
sends a PINGREQ on it, and the broker answers it in its turn. The receiving task sets the flag before
it subscribes, and takes what is there when it reads for the answer to SUBSCRIBE.

`link` is the receiving task from `kiiMQTT_connect` to the end of `kiiMQTT_subscribe`, the ping
task, and a broker, with the bytes between them. `subscribed_iff` says when `kiiMQTT_subscribe`
returns 0: unless the broker has answered a PINGREQ before.
-/

namespace KiiThing

variable {w : Nat}

/-! ## The receiving task -/

/-- Behind `kiiMQTT_subscribe`. -/
def afterSubscribe (r : Int × Push w) : PushProg (Option Int × Push w) := .done (some r.1, r.2)

/-- Behind `kiiMQTT_connect`. -/
def afterConnect (endpoint : Endpoint) (r : Int × Push w) : PushProg (Option Int × Push w) :=
  if r.1 ≠ 0 then .done (none, r.2)
  else .ask (.setConnected true) fun _ => kiiMQTTSubscribe r.2 endpoint.topic.str 0 >>= afterSubscribe

/-- KIIPUSH_SUBSCRIBING_TOPIC, up to what `kiiMQTT_subscribe` returns. -/
def connectAndSubscribe (m : Push w) (endpoint : Endpoint) (keepAliveInterval : Nat) :
    PushProg (Option Int × Push w) :=
  kiiMQTTConnect m endpoint keepAliveInterval >>= afterConnect endpoint

/-- The end of the round that subscribes. -/
def Task.subscribed (t : Task w) (r : Option Int × Push w) : PushProg (Task w) :=
  match r.1 with
  | none => .done { t with pushState := .preparingEndpoint, push := r.2 }
  | some subscribed =>
    if subscribed < 0 then
      .ask (.setConnected false) fun _ =>
        .done { t with pushState := .preparingEndpoint, push := r.2 }
    else .done { t with pushState := .ready, push := r.2 }

/-- It is the beginning of that round. -/
theorem subscribe_eq (keepAliveInterval : Nat) (t : Task w) :
    t.subscribe keepAliveInterval =
      connectAndSubscribe t.push t.endpoint keepAliveInterval >>= t.subscribed := by
  rw [connectAndSubscribe, Prog.bind_assoc, Task.subscribe]
  apply congrArg
  funext r
  obtain ⟨connected, m⟩ := r
  by_cases hconnected : connected = 0
  · rw [afterConnect, if_neg (not_not.mpr hconnected)]
    show (if connected ≠ 0 then _ else _) = Prog.ask _ _
    rw [if_neg (not_not.mpr hconnected)]
    apply congrArg
    funext _
    show _ = (kiiMQTTSubscribe m t.endpoint.topic.str 0 >>= afterSubscribe) >>= t.subscribed
    rw [Prog.bind_assoc]
    rfl
  · rw [afterConnect, if_pos hconnected]
    show (if connected ≠ 0 then _ else _) = _
    rw [if_pos hconnected]
    rfl

/-! ## The parties -/

/-- The connection, and what the parties know. -/
structure Link (w : Nat) where
  /-- What is left of the receiving task. -/
  receiver : PushProg (Option Int × Push w)
  /-- `_mqtt_connected`. -/
  connected : Bool
  /-- What the broker has not taken yet. -/
  up : List Byte
  /-- What has arrived and was not read. -/
  down : List Byte
  /-- The broker has answered SUBSCRIBE. -/
  acknowledged : Bool
  /-- The broker has answered a PINGREQ before `kiiMQTT_subscribe` returned. -/
  disturbed : Bool

inductive Party where
  | receiveTask | pingTask | broker
  deriving DecidableEq

namespace Link

/-- What `kiiMQTT_subscribe` has returned. -/
def returned (s : Link w) : Option Int :=
  match s.receiver with
  | .done r => r.1
  | .ask _ _ => none

/-- The receiving task has come to its end. -/
def finished (s : Link w) : Bool :=
  match s.receiver with
  | .done _ => true
  | .ask _ _ => false

/-- A step of the receiving task, up to the next call. No callback fails, and a read gets all that
has arrived, as far as there is room. -/
def receive (s : Link w) : Link w :=
  match s.receiver with
  | .done _ => s
  | .ask c k =>
    match c, k with
    | .connect _ _, k => { s with receiver := k (⟨.ok, [], 1⟩ : SocketReply) }
    | .close, k => { s with receiver := k (⟨.ok, [], 0⟩ : SocketReply) }
    | .send data, k => { s with receiver := k (⟨.ok, [], 1⟩ : SocketReply), up := s.up ++ data }
    | .recv n, k =>
      { s with receiver := k (⟨.ok, s.down.take n, 1⟩ : SocketReply), down := s.down.drop n }
    | .setConnected connected, k => { s with receiver := k (), connected }
    | _, _ => s

/-- The receiving task can make a step: it waits when it reads and nothing has arrived. -/
def canReceive (s : Link w) : Bool :=
  match s.receiver with
  | .done _ => false
  | .ask c _ =>
    match c with
    | .connect _ _ => true
    | .close => true
    | .send _ => true
    | .recv _ => !s.down.isEmpty
    | .setConnected _ => true
    | _ => false

/-- The answer of the broker to a packet. -/
def answer (packet : List Byte) : List Byte :=
  if packet.headD 0 = 0x10 then Mqtt.connAck
  else if packet.headD 0 = 0x82 then Mqtt.subAck 0
  else if packet.headD 0 = 0xc0 then Mqtt.pingResp
  else []

/-- The broker takes a packet and answers it. -/
def serve (s : Link w) : Link w :=
  match Mqtt.split s.up with
  | none => s
  | some (packet, rest) =>
    { s with
      up := rest
      down := s.down ++ answer packet
      acknowledged := s.acknowledged || packet.headD 0 == 0x82
      disturbed := s.disturbed || (packet.headD 0 == 0xc0 && !s.finished) }

/-- A step of a party. That of the ping task is `kiiMQTT_pingReq`. -/
def step (s : Link w) : Party → Link w
  | .receiveTask => s.receive
  | .pingTask => { s with up := s.up ++ pingReq }
  | .broker => s.serve

def enabled (s : Link w) : Party → Bool
  | .receiveTask => s.canReceive
  | .pingTask => s.connected
  | .broker => (Mqtt.split s.up).isSome

/-- The task before it connects. -/
def start (m : Push w) (endpoint : Endpoint) (keepAliveInterval : Nat) : Link w :=
  ⟨connectAndSubscribe m endpoint keepAliveInterval, false, [], [], false, false⟩

end Link

/-- The two tasks and the broker. -/
def link (m : Push w) (endpoint : Endpoint) (keepAliveInterval : Nat) :
    System (Link w) Party where
  init s := s = Link.start m endpoint keepAliveInterval
  enabled s party := s.enabled party = true
  step := Link.step

/-- What the ping task sends. -/
theorem kiiMQTTPingReq_eq (m : Push w) : kiiMQTTPingReq m = .ask (.send pingReq)
    fun (r : SocketReply) => if r.code ≠ .ok then .done (-1, { m with socket := r.socket })
      else .done (0, { m with socket := r.socket }) := rfl

/-! ## What is on the way -/

/-- A packet that the client sends once CONNECT is accepted. -/
inductive Ask where
  | pingReq | subscribe
  deriving DecidableEq

def Ask.bytes (topic : CString) : Ask → List Byte
  | pingReq => KiiThing.pingReq
  | subscribe => Mqtt.packet 0x82 (subscribeBody topic 0)

def Ask.reply : Ask → List Byte
  | pingReq => Mqtt.pingResp
  | subscribe => Mqtt.subAck 0

theorem split_ask {topic : CString} (htopic : topic.length < 64) (a : Ask) (rest : List Byte) :
    Mqtt.split (a.bytes topic ++ rest) = some (a.bytes topic, rest) := by
  cases a with
  | pingReq => exact Mqtt.split_packet (by decide) rest
  | subscribe =>
    apply Mqtt.split_packet
    rw [length_subscribeBody, Mqtt.maxLength]
    omega

theorem answer_ask (topic : CString) (a : Ask) : Link.answer (a.bytes topic) = a.reply := by
  cases a <;> rfl

theorem length_reply (a : Ask) : a.reply.length = if a = .subscribe then 5 else 2 := by
  cases a <;> rfl

/-- The length of the replies tells which they are. -/
theorem length_replies (as : List Ask) : (as.flatMap Ask.reply).length =
    2 * as.count .pingReq + 5 * as.count .subscribe := by
  induction as with
  | nil => rfl
  | cons a as ih =>
    rw [List.flatMap_cons, List.length_append, ih, length_reply, List.count_cons, List.count_cons]
    cases a <;> simp <;> omega

/-- One SUBSCRIBE, and nothing else. -/
theorem eq_subscribe {as : List Ask} (hping : .pingReq ∉ as) (hone : as.count .subscribe ≤ 1)
    (hne : as ≠ []) : as = [.subscribe] := by
  have hall : as = List.replicate as.length .subscribe := by
    apply List.eq_replicate_of_mem
    intro a ha
    cases a with
    | pingReq => exact absurd ha hping
    | subscribe => rfl
  have hlen : as.length = 1 := by
    have hpos := List.length_pos_iff.mpr hne
    rw [hall, List.count_replicate_self] at hone
    omega
  rw [hall, hlen]
  rfl

/-! ## Where the receiving task stands -/

namespace Link

variable (endpoint : Endpoint) (keepAliveInterval : Nat)

/-- The room that `kiiMQTT_connect` asks for. -/
def room : Nat :=
  27 + endpoint.topic.str.length + endpoint.username.str.length + endpoint.password.str.length

/-- The states of the link, by what is left of the receiving task. Where the flag is set, the
broker has taken the packets `answered`, and `pending` are on the way. -/
inductive Phase : Link w → Prop
  | start {m : Push w} (hsocket : 0 < m.socket) :
    Phase ⟨connectAndSubscribe m endpoint keepAliveInterval, false, [], [], false, false⟩
  | opening (m : Push w) :
    Phase ⟨openSocket m endpoint keepAliveInterval >>= afterConnect endpoint, false, [], [], false,
      false⟩
  | refused (m : Push w) : Phase ⟨.done (none, m), false, [], [], false, false⟩
  | connecting {m : Push w} {packet : List Byte × Buffer w}
    (hpacket : packet.1 = Mqtt.packet 0x10 (connectBody endpoint keepAliveInterval))
    (hroom : room endpoint ≤ packet.2.size) :
    Phase ⟨handshake m packet 4 Mqtt.connAck >>= afterConnect endpoint, false, [], [], false, false⟩
  | connectSent {m : Push w} (hroom : room endpoint ≤ m.buffer.size) :
    Phase ⟨awaitAnswer m 4 Mqtt.connAck >>= afterConnect endpoint, false,
      Mqtt.packet 0x10 (connectBody endpoint keepAliveInterval), [], false, false⟩
  | connectAnswered {m : Push w} (hroom : room endpoint ≤ m.buffer.size) :
    Phase ⟨awaitAnswer m 4 Mqtt.connAck >>= afterConnect endpoint, false, [], Mqtt.connAck, false,
      false⟩
  | connected {m : Push w} (hroom : room endpoint ≤ m.buffer.size) :
    Phase ⟨afterConnect endpoint (0, m), false, [], [], false, false⟩
  | subscribing {m : Push w} {packet : List Byte × Buffer w}
    (hpacket : packet.1 = Mqtt.packet 0x82 (subscribeBody endpoint.topic.str 0))
    (hroom : room endpoint ≤ packet.2.size) {answered pending : List Ask}
    (hnone : (answered ++ pending).count .subscribe = 0) :
    Phase ⟨handshake m packet 5 [0x90, 0x03, 0x00, 0x01] >>= afterSubscribe, true,
      pending.flatMap (Ask.bytes endpoint.topic.str), answered.flatMap Ask.reply,
      decide (.subscribe ∈ answered), decide (.pingReq ∈ answered)⟩
  | subscribeSent {m : Push w} (hroom : room endpoint ≤ m.buffer.size) {answered pending : List Ask}
    (hone : (answered ++ pending).count .subscribe = 1) :
    Phase ⟨awaitAnswer m 5 [0x90, 0x03, 0x00, 0x01] >>= afterSubscribe, true,
      pending.flatMap (Ask.bytes endpoint.topic.str), answered.flatMap Ask.reply,
      decide (.subscribe ∈ answered), decide (.pingReq ∈ answered)⟩
  | returned {m : Push w} {r : Int} {up down : List Byte} {acknowledged disturbed : Bool}
    (hr : r = 0 ↔ disturbed = false) :
    Phase ⟨.done (some r, m), true, up, down, acknowledged, disturbed⟩

/-! ## The steps of the receiving task -/

section

variable {endpoint : Endpoint} {keepAliveInterval : Nat} {m : Push w}
  {packet : List Byte × Buffer w} {length : Nat} {ack up down : List Byte} {f : Int × Push w →
    PushProg (Option Int × Push w)} {connected acknowledged disturbed : Bool}

/-- The packet is sent. -/
theorem receive_handshake :
    receive ⟨handshake m packet length ack >>= f, connected, up, down, acknowledged, disturbed⟩ =
      ⟨awaitAnswer ⟨1, packet.2⟩ length ack >>= f, connected, up ++ packet.1, down, acknowledged,
        disturbed⟩ := rfl

/-- The answer is read. -/
theorem receive_answer :
    receive ⟨awaitAnswer m length ack >>= f, connected, up, down, acknowledged, disturbed⟩ =
      ⟨f (if (down.take m.buffer.size).length = length ∧
          (m.buffer.clear.write 0 (down.take m.buffer.size)).bytes.take 4 = ack then 0 else -1,
        ⟨1, m.buffer.clear.write 0 (down.take m.buffer.size)⟩), connected, up,
        down.drop m.buffer.size, acknowledged, disturbed⟩ := by
  by_cases h : (down.take m.buffer.size).length = length ∧
      (m.buffer.clear.write 0 (down.take m.buffer.size)).bytes.take 4 = ack
  · rw [if_pos h]
    show Link.mk ((if _ then _ else _) >>= f) _ _ _ _ _ = _
    rw [if_pos h]
    rfl
  · rw [if_neg h]
    show Link.mk ((if _ then _ else _) >>= f) _ _ _ _ _ = _
    rw [if_neg h]
    rfl

/-- A read waits until something has arrived. -/
theorem canReceive_answer :
    canReceive ⟨awaitAnswer m length ack >>= f, connected, up, down, acknowledged, disturbed⟩ =
      !down.isEmpty := rfl

/-- CONNECT is sent, unless the buffer is too small. -/
theorem receive_opening (m : Push w) : Phase endpoint keepAliveInterval (receive
    ⟨openSocket m endpoint keepAliveInterval >>= afterConnect endpoint, false, [], [], false,
      false⟩) := by
  show Phase endpoint keepAliveInterval
    ⟨(if m.buffer.size = 0 then .done (-1, { m with socket := 1 })
      else if m.buffer.size < room endpoint then .done (-1, { m with socket := 1 })
      else handshake { m with socket := 1 } (connectPacket m.buffer endpoint keepAliveInterval) 4
        Mqtt.connAck) >>= afterConnect endpoint, false, [], [], false, false⟩
  split
  · exact .refused _
  split
  · exact .refused _
  case _ _ hroom =>
    obtain ⟨hpacket, hsize⟩ := connectPacket_eq keepAliveInterval
      (Nat.not_lt.mp hroom)
    exact .connecting hpacket (by omega)

/-- The answer to CONNECT is there, and nothing else. -/
theorem receive_connectAnswered (hroom : room endpoint ≤ m.buffer.size) :
    Phase endpoint keepAliveInterval (receive ⟨awaitAnswer m 4 Mqtt.connAck >>= afterConnect endpoint,
      false, [], Mqtt.connAck, false, false⟩) := by
  have hfour : 4 ≤ m.buffer.size := by
    rw [room] at hroom
    omega
  have hdata : Mqtt.connAck.take m.buffer.size = Mqtt.connAck := List.take_of_length_le hfour
  have hrest : Mqtt.connAck.drop m.buffer.size = [] := List.drop_of_length_le hfour
  have htake : (m.buffer.clear.write 0 Mqtt.connAck).bytes.take 4 = Mqtt.connAck :=
    take_answer (by decide) hfour
  rw [receive_answer, hdata, hrest, if_pos ⟨rfl, htake⟩]
  apply Phase.connected
  rw [Buffer.size_write, Buffer.size_clear]
  exact hroom

/-- `_mqtt_connected` is set. -/
theorem receive_connected (hroom : room endpoint ≤ m.buffer.size) :
    Phase endpoint keepAliveInterval
      (receive ⟨afterConnect endpoint (0, m), false, [], [], false, false⟩) := by
  have hsize : ¬ m.buffer.size = 0 ∧ ¬ m.buffer.size < 14 + endpoint.topic.str.length := by
    rw [room] at hroom
    omega
  have htopic : endpoint.topic.str.length < 2 ^ 16 :=
    Nat.lt_trans endpoint.topic.length_lt (by decide)
  obtain ⟨hpacket, hsame⟩ := subscribePacket_eq 0 htopic
    (Nat.not_lt.mp hsize.2)
  show Phase endpoint keepAliveInterval
    ⟨kiiMQTTSubscribe m endpoint.topic.str 0 >>= afterSubscribe, true, [], [], false, false⟩
  rw [kiiMQTTSubscribe, if_neg hsize.1, if_neg hsize.2]
  have hnone : ([] ++ [] : List Ask).count .subscribe = 0 := rfl
  exact .subscribing hpacket (by omega) hnone

/-- SUBSCRIBE is sent. -/
theorem receive_subscribing (hpacket : packet.1 = Mqtt.packet 0x82 (subscribeBody endpoint.topic.str 0))
    (hroom : room endpoint ≤ packet.2.size) {answered pending : List Ask}
    (hnone : (answered ++ pending).count .subscribe = 0) :
    Phase endpoint keepAliveInterval (receive
      ⟨handshake m packet 5 [0x90, 0x03, 0x00, 0x01] >>= afterSubscribe, true,
        pending.flatMap (Ask.bytes endpoint.topic.str), answered.flatMap Ask.reply,
        decide (.subscribe ∈ answered), decide (.pingReq ∈ answered)⟩) := by
  have hup : pending.flatMap (Ask.bytes endpoint.topic.str) ++ packet.1 =
      (pending ++ [Ask.subscribe]).flatMap (Ask.bytes endpoint.topic.str) := by
    rw [List.flatMap_append, hpacket]
    exact congrArg _ (List.append_nil _).symm
  rw [receive_handshake, hup]
  apply Phase.subscribeSent hroom
  rw [← List.append_assoc, List.count_append, hnone]
  rfl

/-- **The answer to SUBSCRIBE is read.** It is the whole of what is there if and only if no PINGREQ
was answered. -/
theorem receive_subscribeSent (hroom : room endpoint ≤ m.buffer.size) {answered pending : List Ask}
    (hone : (answered ++ pending).count .subscribe = 1) (harrived : answered.flatMap Ask.reply ≠ []) :
    ∃ m' r up down, receive ⟨awaitAnswer m 5 [0x90, 0x03, 0x00, 0x01] >>= afterSubscribe, true,
        pending.flatMap (Ask.bytes endpoint.topic.str), answered.flatMap Ask.reply,
        decide (.subscribe ∈ answered), decide (.pingReq ∈ answered)⟩ =
      ⟨.done (some r, m'), true, up, down, decide (.subscribe ∈ answered),
        decide (.pingReq ∈ answered)⟩ ∧ (r = 0 ↔ decide (.pingReq ∈ answered) = false) := by
  refine ⟨_, _, _, _, receive_answer, ?_⟩
  have hsize : 27 ≤ m.buffer.size := by
    rw [room] at hroom
    omega
  have hlength := length_replies answered
  rw [List.count_append] at hone
  rw [decide_eq_false_iff_not]
  constructor
  · intro hzero hping
    have hcount := List.one_le_count_iff.mpr hping
    by_cases hack : ((answered.flatMap Ask.reply).take m.buffer.size).length = 5 ∧
        (m.buffer.clear.write 0 ((answered.flatMap Ask.reply).take m.buffer.size)).bytes.take 4 =
          [0x90, 0x03, 0x00, 0x01]
    · have hfive := hack.1
      rw [List.length_take] at hfive
      omega
    · rw [if_neg hack] at hzero
      exact absurd hzero fails_ne
  · intro hping
    have hne : answered ≠ [] := fun h => harrived (by rw [h]; rfl)
    have hreply : answered.flatMap Ask.reply = Mqtt.subAck 0 := by
      rw [eq_subscribe hping (by omega) hne]
      rfl
    have hdata : (Mqtt.subAck 0).take m.buffer.size = Mqtt.subAck 0 :=
      List.take_of_length_le (Nat.le_trans (by decide) hsize)
    have htake : (m.buffer.clear.write 0 (Mqtt.subAck 0)).bytes.take 4 = [0x90, 0x03, 0x00, 0x01] :=
      take_answer (by decide) (by omega)
    rw [hreply, hdata, if_pos ⟨rfl, htake⟩]

/-- A socket that is open is closed. -/
theorem connectAndSubscribe_opened (hsocket : 0 < m.socket) :
    connectAndSubscribe m endpoint keepAliveInterval = .ask .close fun (r : SocketReply) =>
      (if r.code ≠ .ok then .done (-1, { m with socket := r.socket })
        else openSocket { m with socket := r.socket } endpoint keepAliveInterval) >>=
          afterConnect endpoint := by
  rw [connectAndSubscribe, kiiMQTTConnect, closeOpened, if_pos hsocket]
  rfl

/-- A step of the receiving task leads from phase to phase. -/
theorem Phase.receive {s : Link w} (h : Phase endpoint keepAliveInterval s)
    (hcan : s.canReceive = true) : Phase endpoint keepAliveInterval s.receive := by
  cases h with
  | @start m hsocket =>
    rw [connectAndSubscribe_opened hsocket]
    exact .opening { m with socket := 0 }
  | opening m => exact receive_opening m
  | refused => exact absurd hcan Bool.false_ne_true
  | connecting hpacket hroom =>
    rw [receive_handshake, hpacket]
    exact .connectSent hroom
  | connectSent =>
    rw [canReceive_answer] at hcan
    exact absurd hcan (by decide)
  | connectAnswered hroom => exact receive_connectAnswered hroom
  | connected hroom => exact receive_connected hroom
  | subscribing hpacket hroom hnone => exact receive_subscribing hpacket hroom hnone
  | subscribeSent hroom hone =>
    rw [canReceive_answer] at hcan
    obtain ⟨m', r, up, down, hreceive, hr⟩ :=
      receive_subscribeSent hroom hone (fun h => by rw [h] at hcan; exact absurd hcan (by decide))
    rw [hreceive]
    exact .returned hr
  | returned => exact absurd hcan Bool.false_ne_true

/-! ## The steps of the others -/

/-- The ping task sends once the flag is set. -/
theorem Phase.ping {s : Link w} (h : Phase endpoint keepAliveInterval s)
    (hconnected : s.connected = true) :
    Phase endpoint keepAliveInterval (s.step .pingTask) := by
  have hup (pending : List Ask) : pending.flatMap (Ask.bytes endpoint.topic.str) ++ pingReq =
      (pending ++ [Ask.pingReq]).flatMap (Ask.bytes endpoint.topic.str) := by
    rw [List.flatMap_append]
    rfl
  cases h with
  | subscribing hpacket hroom hnone =>
    rw [step, hup]
    apply Phase.subscribing hpacket hroom
    rw [← List.append_assoc, List.count_append, hnone]
    rfl
  | subscribeSent hroom hone =>
    rw [step, hup]
    apply Phase.subscribeSent hroom
    rw [← List.append_assoc, List.count_append, hone]
    rfl
  | returned hr => exact .returned hr
  | _ => exact absurd hconnected Bool.false_ne_true

/-- The broker takes the next packet. -/
theorem serve_ask {s : Link w} {topic : CString} (htopic : topic.length < 64) {a : Ask}
    {rest : List Byte} (h : s.up = a.bytes topic ++ rest) : s.serve =
      { s with
        up := rest
        down := s.down ++ a.reply
        acknowledged := s.acknowledged || decide (a = .subscribe)
        disturbed := s.disturbed || (decide (a = .pingReq) && !s.finished) } := by
  rw [serve, h, split_ask htopic]
  show Link.mk _ _ _ (s.down ++ answer (a.bytes topic)) _ _ = _
  rw [answer_ask]
  cases a <;> rfl

theorem mem_append_decide (x a : Ask) (as : List Ask) :
    decide (x ∈ as ++ [a]) = (decide (x ∈ as) || decide (a = x)) := by
  rw [← Bool.decide_or]
  apply decide_eq_decide.mpr
  rw [List.mem_append, List.mem_singleton, eq_comm]

/-- What the broker has taken becomes longer. -/
theorem serve_pending {receiver : PushProg (Option Int × Push w)} {topic : CString}
    (htopic : topic.length < 64) (hunfinished : receiver.request ≠ none) (answered pending : List Ask)
    (a : Ask) :
    serve ⟨receiver, true, (a :: pending).flatMap (Ask.bytes topic), answered.flatMap Ask.reply,
        decide (.subscribe ∈ answered), decide (.pingReq ∈ answered)⟩ =
      ⟨receiver, true, pending.flatMap (Ask.bytes topic), (answered ++ [a]).flatMap Ask.reply,
        decide (.subscribe ∈ answered ++ [a]), decide (.pingReq ∈ answered ++ [a])⟩ := by
  have hdown : (answered ++ [a]).flatMap Ask.reply = answered.flatMap Ask.reply ++ a.reply := by
    rw [List.flatMap_append]
    exact congrArg _ (List.append_nil _)
  rw [serve_ask htopic rfl, mem_append_decide, mem_append_decide, hdown]
  cases receiver with
  | done r => exact absurd rfl hunfinished
  | ask c k =>
    show Link.mk _ _ _ _ _ (_ || (_ && true)) = _
    rw [Bool.and_true]
    rfl

/-- A step of the broker leads from phase to phase. -/
theorem Phase.serve {s : Link w} (h : Phase endpoint keepAliveInterval s)
    (htaken : (Mqtt.split s.up).isSome = true) : Phase endpoint keepAliveInterval s.serve := by
  have htopic := endpoint.topic.length_lt
  cases h with
  | @connectSent m hroom =>
    have hlt : (connectBody endpoint keepAliveInterval).length < Mqtt.maxLength := by
      have husername := endpoint.username.length_lt
      have hpassword := endpoint.password.length_lt
      rw [length_connectBody, Mqtt.maxLength]
      omega
    have hsplit : Mqtt.split (Mqtt.packet 0x10 (connectBody endpoint keepAliveInterval) ++ []) =
        some (Mqtt.packet 0x10 (connectBody endpoint keepAliveInterval), []) :=
      Mqtt.split_packet hlt []
    rw [List.append_nil] at hsplit
    rw [Link.serve, hsplit]
    exact .connectAnswered hroom
  | @subscribing m packet hpacket hroom answered pending hnone =>
    cases pending with
    | nil => exact absurd htaken Bool.false_ne_true
    | cons a pending =>
      have hsends : (handshake m packet 5 [0x90, 0x03, 0x00, 0x01] >>= afterSubscribe).request ≠ none :=
        Option.some_ne_none _
      rw [serve_pending htopic hsends]
      apply Phase.subscribing hpacket hroom
      rw [List.append_assoc]
      exact hnone
  | @subscribeSent m hroom answered pending hone =>
    cases pending with
    | nil => exact absurd htaken Bool.false_ne_true
    | cons a pending =>
      have hreads : (awaitAnswer m 5 [0x90, 0x03, 0x00, 0x01] >>= afterSubscribe).request ≠ none :=
        Option.some_ne_none _
      rw [serve_pending htopic hreads]
      apply Phase.subscribeSent hroom
      rw [List.append_assoc]
      exact hone
  | @returned m r up down acknowledged disturbed hr =>
    rw [Link.serve]
    cases hsplit : Mqtt.split up with
    | none => exact .returned hr
    | some taken =>
      apply Phase.returned
      rw [hr]
      show disturbed = false ↔ (disturbed || (_ && false)) = false
      rw [Bool.and_false, Bool.or_false]
  | _ => exact absurd htaken Bool.false_ne_true

/-- **In every state that is reached** the receiving task stands in one of the phases. -/
theorem phase_of_reachable (m : Push w) {s : Link w}
    (h : (link m endpoint keepAliveInterval).Reachable s) : Phase endpoint keepAliveInterval s := by
  apply h.invariant (Phase endpoint keepAliveInterval)
  · rintro s rfl
    by_cases hsocket : 0 < m.socket
    · exact .start hsocket
    · have hopening : connectAndSubscribe m endpoint keepAliveInterval =
          openSocket m endpoint keepAliveInterval >>= afterConnect endpoint := by
        rw [connectAndSubscribe, kiiMQTTConnect, closeOpened, if_neg hsocket, Prog.done_bind]
        rfl
      rw [Link.start, hopening]
      exact .opening m
  · intro s party hphase henabled
    cases party with
    | receiveTask => exact hphase.receive henabled
    | pingTask => exact hphase.ping henabled
    | broker => exact hphase.serve henabled

/-! ## What `kiiMQTT_subscribe` returns -/

/-- What `kiiMQTT_subscribe` has returned is 0. Once the broker has acknowledged the subscription,
it has returned, or does so with the next step of its task, for which nothing is missing. -/
structure Subscribes (s : Link w) : Prop where
  returned : ∀ r, s.returned = some r → r = 0
  acknowledged : s.acknowledged = true →
    s.returned = some 0 ∨ s.enabled .receiveTask = true ∧ s.receive.returned = some 0

/-- Before there is an answer to SUBSCRIBE. -/
theorem Subscribes.before {s : Link w} (hreturned : s.returned = none)
    (hacknowledged : s.acknowledged = false) : s.Subscribes := by
  refine ⟨?_, ?_⟩
  · intro r hr
    rw [hreturned] at hr
    exact absurd hr.symm (Option.some_ne_none r)
  · intro h
    rw [hacknowledged] at h
    exact absurd h Bool.false_ne_true

theorem Phase.subscribes {s : Link w} (h : Phase endpoint keepAliveInterval s)
    (hcalm : s.disturbed = false) : s.Subscribes := by
  cases h with
  | start hsocket =>
    rw [connectAndSubscribe_opened hsocket]
    exact .before rfl rfl
  | @subscribing m packet hpacket hroom answered pending hnone =>
    apply Subscribes.before rfl
    apply decide_eq_false
    intro hmem
    rw [List.count_append] at hnone
    have hcount := List.one_le_count_iff.mpr hmem
    omega
  | @subscribeSent m hroom answered pending hone =>
    refine ⟨fun r hr => absurd hr.symm (Option.some_ne_none r), ?_⟩
    intro hacknowledged
    have hmem : .subscribe ∈ answered := of_decide_eq_true hacknowledged
    have hcount := List.one_le_count_iff.mpr hmem
    have harrived : answered.flatMap Ask.reply ≠ [] := by
      intro hnil
      have hlength := length_replies answered
      rw [hnil, List.length_nil] at hlength
      omega
    obtain ⟨m', r, up, down, hreceive, hr⟩ := receive_subscribeSent hroom hone harrived
    obtain rfl : r = 0 := hr.mpr hcalm
    refine .inr ⟨?_, by rw [hreceive]; rfl⟩
    show (!(answered.flatMap Ask.reply).isEmpty) = true
    cases hreplies : answered.flatMap Ask.reply with
    | nil => exact absurd hreplies harrived
    | cons b bs => rfl
  | @returned m r up down acknowledged disturbed hr =>
    obtain rfl : r = 0 := hr.mpr hcalm
    refine ⟨?_, fun _ => .inl rfl⟩
    intro r' hr'
    exact (Option.some.inj hr').symm
  | _ => exact .before rfl rfl

theorem Phase.fails {s : Link w} (h : Phase endpoint keepAliveInterval s)
    (hdisturbed : s.disturbed = true) : s.returned ≠ some 0 := by
  intro hreturned
  cases h with
  | returned hr =>
    have hzero := Option.some.inj hreturned
    rw [hr.mp hzero] at hdisturbed
    exact Bool.false_ne_true hdisturbed
  | start hsocket =>
    rw [connectAndSubscribe_opened hsocket] at hreturned
    exact Option.some_ne_none (0 : Int) hreturned.symm
  | _ => exact Option.some_ne_none (0 : Int) hreturned.symm

/-- **Keep-alive and subscribing.** In every run in which the broker has answered no PINGREQ before
`kiiMQTT_subscribe` returned, it returns 0 once the broker has acknowledged the subscription. In
every other run it does not return 0. -/
theorem subscribed_iff (m : Push w) {s : Link w}
    (h : (link m endpoint keepAliveInterval).Reachable s) :
    (s.disturbed = false → s.Subscribes) ∧ (s.disturbed = true → s.returned ≠ some 0) := by
  have hphase := phase_of_reachable m h
  exact ⟨hphase.subscribes, hphase.fails⟩

end

instance (m : Push w) (endpoint : Endpoint) (keepAliveInterval : Nat) (s : Link w) (party : Party) :
    Decidable ((link m endpoint keepAliveInterval).enabled s party) :=
  inferInstanceAs (Decidable (s.enabled party = true))

/-- An endpoint. -/
def broker : Endpoint :=
  { Endpoint.empty with topic := ⟨.lit "t/1", by decide⟩, portSsl := 8883 }

/-- The steps up to the flag: the old socket is closed, a new one opened, and CONNECT sent, answered
and accepted. -/
def toFlag : List Party :=
  [.receiveTask, .receiveTask, .receiveTask, .broker, .receiveTask, .receiveTask]

/-- The PINGREQ is sent behind SUBSCRIBE, and answered when the answer to it was read. -/
def late : List Party := toFlag ++ [.receiveTask, .pingTask, .broker, .receiveTask, .broker]

/-- The PINGREQ is sent before SUBSCRIBE. -/
def early : List Party := toFlag ++ [.pingTask, .receiveTask, .broker, .broker, .receiveTask]

theorem reachable_foldl {parties : List Party}
    (h : (link openPush broker 300).Enabled (start openPush broker 300) parties) :
    (link openPush broker 300).Reachable (parties.foldl step (start openPush broker 300)) :=
  (System.Reachable.init rfl).run h

theorem subscribed_iff_of_late : (late.foldl step (start openPush broker 300)).Subscribes := by
  have hcalm : (late.foldl step (start openPush broker 300)).disturbed = false := by decide +kernel
  exact (subscribed_iff openPush (reachable_foldl (by decide +kernel))).1 hcalm

/-- The broker acknowledges the subscription, and `kiiMQTT_subscribe` returns -1. -/
theorem subscribed_fails : ∃ s, (link openPush broker 300).Reachable s ∧ s.acknowledged = true ∧
    s.returned = some (-1) ∧ ¬ s.Subscribes := by
  have hacknowledged : (early.foldl step (start openPush broker 300)).acknowledged = true := by
    decide +kernel
  have hreturned : (early.foldl step (start openPush broker 300)).returned = some (-1) := by
    decide +kernel
  refine ⟨_, reachable_foldl (by decide +kernel), hacknowledged, hreturned, ?_⟩
  exact fun h => fails_ne (h.returned (-1) hreturned)

end Link

end KiiThing

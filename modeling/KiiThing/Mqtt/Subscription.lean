import KiiThing.Mqtt.Acknowledgement
import KiiThing.Mqtt.Task

/-!
# Notifications over many connections

`kiiPush_recvMsgTask` keeps a connection to the broker for as long as it lasts, and opens another
one behind it. `Broadcast` is what the broker sends over one connection, up to where it is lost;
`broker plan` are the surroundings in which the connection `i` gets the broadcast `plan i`.

* `notifications_in_order`: whatever fails, what is handed on are notifications of these
  connections, each once, in order, and for each connection from its beginning on.
* `notifications_complete`: when nothing fails but the connections, it is every notification.
-/

namespace KiiThing

variable {w : Nat}

/-! ## The broker -/

/-- The notification of a packet. -/
def Packet.payload : Packet → Option (List Byte)
  | publish p => some p.payload
  | pingResp => none

/-- The notifications of packets. -/
def payloads (packets : List Packet) : List (List Byte) := packets.filterMap Packet.payload

/-- What comes behind the answer to SUBSCRIBE: packets, and what is left of the one that the
connection is lost in. -/
structure Broadcast where
  packets : List Packet
  rest : List Byte

namespace Broadcast

def bytes (b : Broadcast) : List Byte := stream b.packets ++ b.rest

/-- What `kiiPush_receivePushNotification` can cope with. -/
structure Suited (b : Broadcast) (size : Nat) : Prop where
  publish : ∀ p, .publish p ∈ b.packets → 10 ≤ p.bytes.length ∧ p.bytes.length ≤ size ∧
    p.topic.length < 128 ∧ 0 < p.payload.length
  rest : b.rest = [] ∨ b.rest.length < 10 ∧ ∃ p : Mqtt.Publish, b.rest <+: p.bytes ∧
    p.bytes.length ≤ size

end Broadcast

/-- What is known of the connections. -/
structure Subscription where
  /-- How many were opened. -/
  accepted : Nat
  /-- The first byte of the packet that was sent last, as long as nothing was received. -/
  sent : Option Byte
  /-- What was received over the last one, apart from such answers. -/
  pieces : List (List Byte)
  /-- The notifications that were handed on. -/
  pushed : List Pushed

namespace Subscription

/-- Nothing has happened yet. -/
def start : Subscription := ⟨0, none, [], []⟩

def next (g : Subscription) (c : PushCall) (r : c.Reply) : Subscription :=
  match c, r with
  | .connect _ _, r =>
    if SocketReply.code r = .ok then
      { g with accepted := g.accepted + 1, sent := none, pieces := [] }
    else g
  | .send data, r => if SocketReply.code r = .ok then { g with sent := data.head? } else g
  | .recv _, r =>
    if g.sent = none then { g with pieces := g.pieces ++ [SocketReply.data r] }
    else { g with sent := none }
  | .pushReceived buffer message length, _ =>
    { g with pushed := g.pushed ++ [⟨buffer, message, length⟩] }
  | _, _ => g

/-- The texts of the notifications. -/
def texts (g : Subscription) : List (Option (List Byte)) := g.pushed.map Pushed.text

end Subscription

/-- Any call may fail, and is answered as `Trusted` has it. But reads behind the handshakes get what
the broker sends over the connection, and as much as was asked for when that much follows. -/
def broker (plan : Nat → Broadcast) (Trusted : Subscription → (c : PushCall) → c.Reply → Prop) :
    Contract PushCall PushCall.Reply Subscription where
  allowed _ _ := True
  answers g c r :=
    (match c, r with
      | .recv n, r => g.sent = none → ∀ i, g.accepted = i + 1 →
        following (plan i).bytes g.pieces n (SocketReply.data r)
      | _, _ => True) ∧ Trusted g c r
  next := Subscription.next

section

variable {plan : Nat → Broadcast} {Trusted : Subscription → (c : PushCall) → c.Reply → Prop}
  {signed : Bool} {m : Push w} {g : Subscription} {i k : Nat}

/-! ## Receiving -/

/-- `k` packets of the connection `i` were taken, and no byte of the next. -/
structure Reading (plan : Nat → Broadcast) (g : Subscription) (i k : Nat) : Prop where
  accepted : g.accepted = i + 1
  sent : g.sent = none
  le : k ≤ (plan i).packets.length
  consumed : g.pieces.flatten.length = (stream ((plan i).packets.take k)).length

/-- What follows in the stream. -/
theorem Reading.drop (h : Reading plan g i k) :
    (plan i).bytes.drop g.pieces.flatten.length =
      stream ((plan i).packets.drop k) ++ (plan i).rest := by
  have hsplit : stream (plan i).packets =
      stream ((plan i).packets.take k) ++ stream ((plan i).packets.drop k) := by
    rw [← stream_append, List.take_append_drop]
  rw [h.consumed, Broadcast.bytes, hsplit, List.append_assoc, List.drop_left]

/-- Reads, and what is handed on. -/
def IsReading : PushCall → Prop
  | .recv _ => True
  | .pushReceived _ _ _ => True
  | _ => False

theorem asks_recvCb (m : Push w) (p n : Nat) : (m.recvCb p n).Asks IsReading :=
  ⟨trivial, fun _ => trivial⟩

theorem asks_receiveRest (totalLen rounds bytes : Nat) (m : Push w) :
    (receiveRest totalLen rounds bytes m).Asks IsReading := by
  induction rounds generalizing bytes m with
  | zero => trivial
  | succ rounds ih =>
    rw [receiveRest]
    split
    · apply Prog.asks_bind (asks_recvCb ..)
      intro r
      dsimp only
      split
      · apply ih
      · trivial
    · trivial

theorem asks_receive (signed : Bool) (m : Push w) :
    (kiiPushReceivePushNotification signed m).Asks IsReading := by
  rw [kiiPushReceivePushNotification]
  apply Prog.asks_bind (asks_recvCb ..)
  intro r
  dsimp only
  split
  · trivial
  split
  · trivial
  apply Prog.asks_bind (asks_recvCb ..)
  intro r
  split
  · trivial
  split
  · trivial
  split
  · trivial
  apply Prog.asks_bind (asks_receiveRest ..)
  intro r
  split
  · trivial
  unfold deliver
  dsimp only
  split
  · exact ⟨trivial, fun _ => trivial⟩
  · trivial

/-- The subscription, as the one connection that is read from. -/
structure Views (base : Subscription) (g : Subscription) (d : Incoming) : Prop where
  accepted : g.accepted = base.accepted
  sent : g.sent = none
  pieces : g.pieces = d.pieces
  pushed : g.pushed = base.pushed ++ d.pushed

/-- **What is met by a call that gets the stream of one connection.** -/
theorem meets_reading {Q : Int × Push w → Incoming → Prop} (h : Reading plan g i k)
    (hmeets : (kiiPushReceivePushNotification signed m).Meets (incoming (following (plan i).bytes))
      ⟨g.pieces, []⟩ Q) :
    (kiiPushReceivePushNotification signed m).Meets (broker plan Trusted) g fun r g' =>
      ∃ d, Views g g' d ∧ Q r d := by
  refine hmeets.simulate ?_ ?_ (asks_receive signed m) ⟨rfl, h.sent, rfl, ?_⟩
  · intro _ _ _ _ _ _
    trivial
  · intro g' d c r hc hview hanswers
    cases c with
    | recv n =>
      have haccepted := hview.accepted.trans h.accepted
      refine ⟨?_, ?_⟩
      · show following (plan i).bytes d.pieces n (SocketReply.data r)
        rw [← hview.pieces]
        exact hanswers.1 hview.sent i haccepted
      · have hnext : (broker plan Trusted).next g' (.recv n) r =
            { g' with pieces := g'.pieces ++ [SocketReply.data r] } := if_pos hview.sent
        rw [hnext, hview.pieces]
        exact ⟨hview.accepted, hview.sent, rfl, hview.pushed⟩
    | pushReceived buffer message length =>
      refine ⟨trivial, hview.accepted, hview.sent, hview.pieces, ?_⟩
      show g'.pushed ++ _ = g.pushed ++ (d.pushed ++ _)
      rw [hview.pushed, List.append_assoc]
    | _ => exact absurd hc id
  · exact (List.append_nil _).symm

/-- A packet more was taken. -/
theorem Reading.next {g' : Subscription} {d : Incoming} {q : Packet} {post : List Packet}
    (h : Reading plan g i k) (hnext : (plan i).packets.drop k = q :: post) (hview : Views g g' d)
    (hconsumed : d.consumed = g.pieces.flatten.length + q.bytes.length) :
    Reading plan g' i (k + 1) := by
  have hlen := congrArg List.length hnext
  rw [List.length_drop, List.length_cons] at hlen
  refine ⟨hview.accepted.trans h.accepted, hview.sent, by omega, ?_⟩
  rw [length_stream_take hnext, ← h.consumed, ← hconsumed, hview.pieces]
  rfl

/-- **A packet is taken**, and its notification is handed on. -/
theorem meets_receive_packet {q : Packet} {post : List Packet}
    (hsuited : (plan i).Suited m.buffer.size) (h : Reading plan g i k)
    (hnext : (plan i).packets.drop k = q :: post) :
    (kiiPushReceivePushNotification signed m).Meets (broker plan Trusted) g fun r g' =>
      r.1 = 0 ∧ r.2.buffer.size = m.buffer.size ∧ Reading plan g' i (k + 1) ∧
        g'.texts = g.texts ++ (payloads [q]).map some := by
  have hat := h.drop
  rw [hnext, stream_cons, List.append_assoc] at hat
  cases q with
  | pingResp =>
    apply (meets_reading h (receive_other (feeds_following _) hat (by decide)
      (following_first hat (Nat.le_add_left 2 _)))).mono
    rintro r g' ⟨d, hview, hzero, hsize, hconsumed, hpushed⟩
    refine ⟨hzero, hsize, h.next hnext hview hconsumed, ?_⟩
    rw [Subscription.texts, hview.pushed, hpushed]
    simp [payloads, Packet.payload, Subscription.texts]
  | publish p =>
    have hmem : Packet.publish p ∈ (plan i).packets :=
      List.mem_of_mem_drop (by rw [hnext]; exact List.mem_cons_self)
    obtain ⟨hten, hfits, htopic, hpayload⟩ := hsuited.publish p hmem
    have hlen : 10 ≤ (p.bytes ++ (stream post ++ (plan i).rest)).length := by
      rw [List.length_append]
      exact Nat.le_trans hten (Nat.le_add_right _ _)
    have htwo := Nat.le_trans (show 2 ≤ 10 by decide) hlen
    have height : ∀ first data, following (plan i).bytes g.pieces 2 first →
        following (plan i).bytes (g.pieces ++ [first]) 8 data → data.length = 8 := by
      intro first data hfirst hdata
      exact (@following_second _ _ ⟨g.pieces, []⟩ hat htwo first data hfirst hdata).mpr hlen
    apply (meets_reading h (receive_publish (feeds_following _) hat hpayload hfits
      (following_first hat htwo) height)).mono
    rintro r g' ⟨d, hview, hzero, hsize, hconsumed, pushed, hpushed, htext⟩
    rw [Nat.max_eq_right hten] at hconsumed
    refine ⟨hzero, hsize, h.next hnext hview hconsumed, ?_⟩
    rw [Subscription.texts, hview.pushed, hpushed]
    simp [payloads, Packet.payload, Subscription.texts, htext htopic]

/-- A notification of which fewer than ten bytes follow is not handed on. -/
theorem receive_cut {S rest : List Byte} {d : Incoming} {p : Mqtt.Publish}
    (hat : S.drop d.consumed = rest) (hle : d.consumed ≤ S.length) (hcut : rest <+: p.bytes)
    (hten : rest.length < 10) (hfits : p.bytes.length ≤ m.buffer.size) :
    (kiiPushReceivePushNotification signed m).Meets (incoming (following S)) d fun r d' =>
      r.1 = -1 ∧ d'.pushed = d.pushed := by
  by_cases htwo : 2 ≤ rest.length
  case neg =>
    -- Not even the first read is filled.
    apply receive_first
    intro data hdata hcount
    exact htwo ((following_length hat hle hdata).mp hcount)
  case pos =>
    have hprefix : S.drop d.consumed <+: p.received.bytes ++ [] := by
      rw [hat, List.append_nil]
      exact hcut
    rw [kiiPushReceivePushNotification, Prog.meets_bind]
    apply meets_recvCb
    intro r₁ hr₁
    have hcount := following_first hat htwo _ hr₁
    have hheld := held_first (feeds_following S) hprefix hfits hr₁ hcount
    have hpublish : p.received.header &&& 0xf0 = 0x30 := p.type_header
    dsimp only
    rw [if_neg (not_not.mpr hcount), hheld.header (by decide), if_neg (not_not.mpr hpublish),
      Prog.meets_bind]
    apply meets_recvCb
    intro r₂ hr₂
    have hcount₂ : r₂.data.length ≠ 8 := fun height =>
      absurd ((following_second hat htwo _ _ hr₁ hr₂).mp height) (Nat.not_le.mpr hten)
    dsimp only
    rw [if_pos hcount₂]
    exact ⟨rfl, rfl⟩

/-- **The connection is lost** behind the last packet. -/
theorem meets_receive_end (hsuited : (plan i).Suited m.buffer.size)
    (h : Reading plan g i (plan i).packets.length) :
    (kiiPushReceivePushNotification signed m).Meets (broker plan Trusted) g fun r g' =>
      r.1 = -1 ∧ g'.accepted = i + 1 ∧ g'.texts = g.texts := by
  have hat : (plan i).bytes.drop (Incoming.consumed ⟨g.pieces, []⟩) = _ := h.drop
  rw [List.drop_length, stream, List.flatMap_nil, List.nil_append] at hat
  have hle : Incoming.consumed ⟨g.pieces, []⟩ ≤ (plan i).bytes.length := by
    show g.pieces.flatten.length ≤ _
    rw [h.consumed, List.take_length, Broadcast.bytes, List.length_append]
    exact Nat.le_add_right _ _
  have hmeets : (kiiPushReceivePushNotification signed m).Meets
      (incoming (following (plan i).bytes)) ⟨g.pieces, []⟩ fun r d => r.1 = -1 ∧ d.pushed = [] := by
    rcases hsuited.rest with hnil | ⟨hten, p, hcut, hfits⟩
    · rw [hnil] at hat
      apply receive_first
      intro data hdata hcount
      have htwo := (following_length hat hle hdata).mp hcount
      exact absurd htwo (by decide)
    · exact receive_cut hat hle hcut hten hfits
  apply (meets_reading h hmeets).mono
  rintro r g' ⟨d, hview, hfail, hpushed⟩
  refine ⟨hfail, hview.accepted.trans h.accepted, ?_⟩
  rw [Subscription.texts, hview.pushed, hpushed, List.append_nil]
  rfl

/-! ## The size of the buffer -/

theorem keeps_recvCb {p n : Nat} {Q : SocketCode × Nat × Push w → Subscription → Prop}
    (h : ∀ code length (m' : Push w) g', m'.buffer.size = m.buffer.size → Q (code, length, m') g') :
    (m.recvCb p n).Meets (broker plan Trusted) g Q :=
  ⟨trivial, fun _ _ => h _ _ _ _ (Buffer.size_write ..)⟩

theorem keeps_receiveRest (totalLen rounds bytes : Nat) {size : Nat} (h : m.buffer.size = size) :
    (receiveRest totalLen rounds bytes m).Meets (broker plan Trusted) g fun r _ =>
      r.2.buffer.size = size := by
  induction rounds generalizing bytes m g with
  | zero => exact h
  | succ rounds ih =>
    rw [receiveRest]
    split
    · rw [Prog.meets_bind]
      apply keeps_recvCb
      intro _ _ _ _ hsize
      dsimp only
      split
      · exact ih _ (hsize.trans h)
      · exact hsize.trans h
    · exact h

theorem keeps_receive :
    (kiiPushReceivePushNotification signed m).Meets (broker plan Trusted) g fun r _ =>
      r.2.buffer.size = m.buffer.size := by
  rw [kiiPushReceivePushNotification, Prog.meets_bind]
  apply keeps_recvCb
  intro _ _ m₁ _ h₁
  rw [Buffer.size_clear] at h₁
  dsimp only
  split
  · exact h₁
  split
  · exact h₁
  rw [Prog.meets_bind]
  apply keeps_recvCb
  intro _ _ m₂ _ h₂
  have hsize := h₂.trans h₁
  dsimp only
  split
  · exact hsize
  split
  · exact hsize
  split
  · exact hsize
  rw [Prog.meets_bind]
  apply (keeps_receiveRest _ _ _ hsize).mono
  intro r _ hr
  split
  · exact hr
  unfold deliver
  dsimp only
  split
  · exact ⟨trivial, fun _ _ => hr⟩
  · exact hr

/-! ## Connecting and subscribing -/

/-- It is the same connection, and nothing was handed on. -/
structure SameConnection (g g' : Subscription) : Prop where
  accepted : g'.accepted = g.accepted
  pieces : g'.pieces = g.pieces
  pushed : g'.pushed = g.pushed

/-- A packet is sent. -/
theorem broker_sendCb {data : List Byte} {Q : SocketCode × Push w → Subscription → Prop}
    (h : ∀ r : SocketReply, Trusted g (.send data) r →
      Q (r.code, { m with socket := r.socket })
        (if r.code = .ok then { g with sent := data.head? } else g)) :
    (m.sendCb data).Meets (broker plan Trusted) g Q := ⟨trivial, fun r hr => h r hr.2⟩

/-- An answer is read. -/
theorem broker_recvCb {p n : Nat} {Q : SocketCode × Nat × Push w → Subscription → Prop}
    (hsent : g.sent ≠ none) (h : ∀ r : SocketReply, Trusted g (.recv n) r →
      Q (r.code, r.data.length, ⟨r.socket, m.buffer.write p r.data⟩) { g with sent := none }) :
    (m.recvCb p n).Meets (broker plan Trusted) g Q := by
  refine ⟨trivial, fun r hr => ?_⟩
  have hnext : (broker plan Trusted).next g (.recv n) r = { g with sent := none } := if_neg hsent
  rw [hnext]
  exact h r hr.2

/-- A connection is opened. -/
theorem broker_connectCb {host : CString} {port : Nat}
    {Q : SocketCode × Push w → Subscription → Prop}
    (h : ∀ r : SocketReply, Trusted g (.connect host port) r →
      Q (r.code, { m with socket := r.socket })
        (if r.code = .ok then { g with accepted := g.accepted + 1, sent := none, pieces := [] }
          else g)) :
    (m.connectCb host port).Meets (broker plan Trusted) g Q := ⟨trivial, fun r hr => h r hr.2⟩

theorem meets_handshake {packet : List Byte × Buffer w} {header : Byte} (length : Nat)
    (ack : List Byte) (hheader : packet.1.head? = some header) :
    (handshake m packet length ack).Meets (broker plan Trusted) g fun r g' =>
      r.2.buffer.size = packet.2.size ∧ SameConnection g g' ∧ (r.1 = 0 ∨ r.1 = -1) ∧
        (r.1 = 0 → g'.sent = none) := by
  rw [handshake, Prog.meets_bind]
  apply broker_sendCb
  intro r _
  dsimp only
  by_cases hsent : r.code = .ok
  case neg =>
    rw [if_pos hsent, if_neg hsent]
    exact ⟨rfl, ⟨rfl, rfl, rfl⟩, .inr rfl, fun h => absurd h fails_ne⟩
  case pos =>
    rw [if_neg (not_not.mpr hsent), if_pos hsent, hheader, awaitAnswer, Prog.meets_bind]
    apply broker_recvCb (Option.some_ne_none header)
    intro r _
    have hsize : (packet.2.clear.write 0 r.data).size = packet.2.size := by
      rw [Buffer.size_write, Buffer.size_clear]
    dsimp only
    split
    · exact ⟨hsize, ⟨rfl, rfl, rfl⟩, .inr rfl, fun h => absurd h fails_ne⟩
    split
    · exact ⟨hsize, ⟨rfl, rfl, rfl⟩, .inl rfl, fun _ => rfl⟩
    · exact ⟨hsize, ⟨rfl, rfl, rfl⟩, .inr rfl, fun h => absurd h fails_ne⟩

/-- What a call of `kiiMQTT_connect` leaves: the connection that was there, or a new one. -/
structure Connected (size : Nat) (g : Subscription) (r : Int × Push w) (g' : Subscription) :
    Prop where
  size : r.2.buffer.size = size
  pushed : g'.pushed = g.pushed
  accepted : g'.accepted = g.accepted ∨ g'.accepted = g.accepted + 1
  new : r.1 = 0 → g'.accepted = g.accepted + 1 ∧ g'.sent = none ∧ g'.pieces = []

theorem meets_openSocket (endpoint : Endpoint) (keepAliveInterval : Nat) :
    (openSocket m endpoint keepAliveInterval).Meets (broker plan Trusted) g
      (Connected m.buffer.size g) := by
  rw [openSocket, Prog.meets_bind]
  apply broker_connectCb
  intro r _
  dsimp only
  by_cases hok : r.code = .ok
  case neg =>
    rw [if_pos hok, if_neg hok]
    exact ⟨rfl, rfl, .inl rfl, fun h => absurd h fails_ne⟩
  case pos =>
    rw [if_neg (not_not.mpr hok), if_pos hok]
    split
    · exact ⟨rfl, rfl, .inr rfl, fun h => absurd h fails_ne⟩
    split
    · exact ⟨rfl, rfl, .inr rfl, fun h => absurd h fails_ne⟩
    case _ _ hfits =>
      obtain ⟨hpacket, hsize⟩ := connectPacket_eq keepAliveInterval (Nat.not_lt.mp hfits)
      apply (meets_handshake 4 _ (by rw [hpacket]; rfl)).mono
      rintro r' g' ⟨hsize', hsame, -, hsent⟩
      exact ⟨hsize'.trans hsize, hsame.pushed, .inr hsame.accepted, fun hzero =>
        ⟨hsame.accepted, hsent hzero, hsame.pieces⟩⟩

/-- **`kiiMQTT_connect`.** -/
theorem meets_kiiMQTTConnect (endpoint : Endpoint) (keepAliveInterval : Nat) :
    (kiiMQTTConnect m endpoint keepAliveInterval).Meets (broker plan Trusted) g
      (Connected m.buffer.size g) := by
  rw [kiiMQTTConnect, closeOpened]
  split
  · rw [Prog.meets_bind]
    refine ⟨trivial, ?_⟩
    intro (r : SocketReply) _
    show Prog.Meets _ (if r.code ≠ .ok then .done (-1, ⟨r.socket, m.buffer⟩)
      else openSocket ⟨r.socket, m.buffer⟩ endpoint keepAliveInterval) g _
    split
    · exact ⟨rfl, rfl, .inl rfl, fun h => absurd h fails_ne⟩
    · exact meets_openSocket endpoint keepAliveInterval
  · exact meets_openSocket endpoint keepAliveInterval

/-- **`kiiMQTT_subscribe`.** -/
theorem meets_kiiMQTTSubscribe {topic : CString} (htopic : topic.length < 64) (qos : Nat) :
    (kiiMQTTSubscribe m topic qos).Meets (broker plan Trusted) g fun r g' =>
      r.2.buffer.size = m.buffer.size ∧ SameConnection g g' ∧ (r.1 = 0 ∨ r.1 = -1) ∧
        (r.1 = 0 → g'.sent = none) := by
  rw [kiiMQTTSubscribe]
  split
  · exact ⟨rfl, ⟨rfl, rfl, rfl⟩, .inr rfl, fun h => absurd h fails_ne⟩
  split
  · exact ⟨rfl, ⟨rfl, rfl, rfl⟩, .inr rfl, fun h => absurd h fails_ne⟩
  case _ _ hfits =>
    obtain ⟨hpacket, hsize⟩ := subscribePacket_eq qos
      (Nat.lt_trans htopic (by decide)) (Nat.not_lt.mp hfits)
    apply (meets_handshake 5 _ (by rw [hpacket]; rfl)).mono
    rintro r' g' ⟨hsize', hrest⟩
    exact ⟨hsize'.trans hsize, hrest⟩

/-! ## The rounds of the task -/

variable {t : Task w}

/-- A round that takes a packet. -/
theorem meets_receive_next {q : Packet} {post : List Packet}
    (hsuited : (plan i).Suited t.push.buffer.size) (h : Reading plan g i k)
    (hnext : (plan i).packets.drop k = q :: post) :
    (t.receive signed).Meets (broker plan Trusted) g fun t' g' =>
      (∃ m', m'.buffer.size = t.push.buffer.size ∧ t' = { t with push := m' }) ∧
        Reading plan g' i (k + 1) ∧ g'.texts = g.texts ++ (payloads [q]).map some := by
  rw [Task.receive, Prog.meets_bind]
  apply (meets_receive_packet hsuited h hnext).mono
  rintro r g' ⟨hzero, hsize, hrest⟩
  dsimp only
  rw [if_neg (not_not.mpr hzero)]
  exact ⟨⟨r.2, hsize, rfl⟩, hrest⟩

/-- A round that finds the connection lost. -/
theorem meets_receive_lost (hsuited : (plan i).Suited t.push.buffer.size)
    (h : Reading plan g i (plan i).packets.length) :
    (t.receive signed).Meets (broker plan Trusted) g fun t' g' =>
      (∃ m', m'.buffer.size = t.push.buffer.size ∧
        t' = { t with pushState := .subscribingTopic, push := m' }) ∧
        g'.accepted = i + 1 ∧ g'.texts = g.texts := by
  rw [Task.receive, Prog.meets_bind]
  apply ((meets_receive_end hsuited h).and keeps_receive).mono
  rintro r g' ⟨⟨hfail, hrest⟩, hsize⟩
  have hne : r.1 ≠ 0 := hfail ▸ fails_ne
  dsimp only
  rw [if_pos hne]
  exact ⟨trivial, fun _ _ => ⟨⟨r.2, hsize, rfl⟩, hrest⟩⟩

/-- Of each connection, the notifications in its first packets. -/
def handedOn (plan : Nat → Broadcast) (taken : Nat → Nat) (n : Nat) : List (List Byte) :=
  (List.range n).flatMap fun i => payloads ((plan i).packets.take (taken i))

theorem handedOn_succ (plan : Nat → Broadcast) (taken : Nat → Nat) (n : Nat) :
    handedOn plan taken (n + 1) =
      handedOn plan taken n ++ payloads ((plan n).packets.take (taken n)) := by
  rw [handedOn, List.range_succ, List.flatMap_append, List.flatMap_singleton]
  rfl

/-- Only the connections so far count. -/
theorem handedOn_update (plan : Nat → Broadcast) (taken : Nat → Nat) (n k : Nat) :
    handedOn plan (Function.update taken n k) n = handedOn plan taken n := by
  apply List.flatMap_congr
  intro i hi
  rw [Function.update_of_ne (Nat.ne_of_lt (List.mem_range.mp hi))]

theorem handedOn_update_succ (plan : Nat → Broadcast) (taken : Nat → Nat) (n k : Nat) :
    handedOn plan (Function.update taken n k) (n + 1) =
      handedOn plan taken n ++ payloads ((plan n).packets.take k) := by
  rw [handedOn_succ, handedOn_update, Function.update_self]

theorem payloads_take_succ {packets post : List Packet} {q : Packet}
    (hnext : packets.drop k = q :: post) :
    payloads (packets.take (k + 1)) = payloads (packets.take k) ++ payloads [q] := by
  rw [List.take_add, hnext, payloads, List.filterMap_append]
  rfl

/-- What holds between two rounds. -/
structure Orderly (plan : Nat → Broadcast) (size : Nat) (t : Task w) (g : Subscription) : Prop where
  size : t.push.buffer.size = size
  order : ∃ taken, g.texts = (handedOn plan taken g.accepted).map some ∧
    (t.pushState = .ready → ∃ i, Reading plan g i (taken i))

/-- Nothing more was handed on, over the same connection or a new one. -/
theorem Orderly.of_same {size : Nat} {t' : Task w} {g' : Subscription} (h : Orderly plan size t g)
    (hsize : t'.push.buffer.size = size) (hstate : t'.pushState ≠ .ready)
    (hpushed : g'.texts = g.texts)
    (haccepted : g'.accepted = g.accepted ∨ g'.accepted = g.accepted + 1) :
    Orderly plan size t' g' := by
  obtain ⟨taken, htexts, -⟩ := h.order
  refine ⟨hsize, Function.update taken g.accepted 0, ?_, fun hready => absurd hready hstate⟩
  rw [hpushed, htexts]
  rcases haccepted with heq | heq
  · rw [heq, handedOn_update]
  · rw [heq, handedOn_update_succ]
    simp [payloads]

theorem orderly_receive {size : Nat} (hsuited : ∀ i, (plan i).Suited size)
    (h : Orderly plan size t g) (hready : t.pushState = .ready) :
    (t.receive signed).Meets (broker plan Trusted) g (Orderly plan size) := by
  obtain ⟨taken, htexts, hreading⟩ := h.order
  obtain ⟨i, hi⟩ := hreading hready
  have hsuited' : (plan i).Suited t.push.buffer.size := h.size ▸ hsuited i
  rcases Nat.lt_or_eq_of_le hi.le with hlt | heq
  · -- a packet follows
    have hnext := List.drop_eq_getElem_cons hlt
    apply (meets_receive_next hsuited' hi hnext).mono
    rintro t' g' ⟨⟨m', hsize, rfl⟩, hi', htexts'⟩
    refine ⟨hsize.trans h.size, Function.update taken i (taken i + 1), ?_, fun _ => ⟨i, ?_⟩⟩
    · rw [htexts', htexts, hi.accepted, hi'.accepted, handedOn_update_succ, handedOn_succ,
        payloads_take_succ hnext, List.map_append, List.map_append, List.map_append,
        List.append_assoc]
    · rw [Function.update_self]
      exact hi'
  · -- the connection is lost, and the next state opens another one
    rw [heq] at hi
    apply (meets_receive_lost hsuited' hi).mono
    rintro t' g' ⟨⟨m', hsize, rfl⟩, haccepted, htexts'⟩
    exact h.of_same (hsize.trans h.size) PushState.noConfusion htexts'
      (.inl (haccepted.trans hi.accepted.symm))

/-- Behind both handshakes, no packet was taken. -/
theorem reading_zero {n : Nat} (haccepted : g.accepted = n + 1) (hsent : g.sent = none)
    (hpieces : g.pieces = []) : Reading plan g n 0 := by
  refine ⟨haccepted, hsent, Nat.zero_le _, ?_⟩
  rw [hpieces]
  rfl

theorem orderly_subscribe {size : Nat} (keepAliveInterval : Nat) (h : Orderly plan size t g)
    (hstate : t.pushState = .subscribingTopic) :
    (t.subscribe keepAliveInterval).Meets (broker plan Trusted) g (Orderly plan size) := by
  have hstate' : t.pushState ≠ .ready := hstate ▸ PushState.noConfusion
  rw [Task.subscribe, Prog.meets_bind]
  apply (meets_kiiMQTTConnect t.endpoint keepAliveInterval).mono
  intro r g₁ h₁
  have hsize₁ := h₁.size.trans h.size
  have htexts₁ : g₁.texts = g.texts := congrArg (List.map Pushed.text) h₁.pushed
  dsimp only
  by_cases hzero : r.1 = 0
  case neg =>
    rw [if_pos hzero]
    exact h.of_same hsize₁ PushState.noConfusion htexts₁ h₁.accepted
  case pos =>
    obtain ⟨haccepted, -, hpieces⟩ := h₁.new hzero
    rw [if_neg (not_not.mpr hzero)]
    refine ⟨trivial, fun _ _ => ?_⟩
    rw [Prog.meets_bind]
    apply (meets_kiiMQTTSubscribe t.endpoint.topic.length_lt 0).mono
    rintro r₂ g₂ ⟨hsize₂, hsame, hresult, hsent⟩
    have haccepted₂ : g₂.accepted = g.accepted + 1 := hsame.accepted.trans haccepted
    have htexts₂ : g₂.texts = g.texts :=
      (congrArg (List.map Pushed.text) hsame.pushed).trans htexts₁
    rcases hresult with hdone | hfailed
    · -- The new connection is read from its beginning.
      obtain ⟨taken, htexts, -⟩ := h.order
      rw [if_neg (by omega)]
      refine ⟨hsize₂.trans hsize₁, Function.update taken g.accepted 0, ?_,
        fun _ => ⟨g.accepted, ?_⟩⟩
      · rw [htexts₂, htexts, haccepted₂, handedOn_update_succ]
        simp [payloads]
      · rw [Function.update_self]
        exact reading_zero haccepted₂ (hsent hdone) (hsame.pieces.trans hpieces)
    · rw [if_pos (by omega)]
      refine ⟨trivial, fun _ _ => ?_⟩
      exact h.of_same (hsize₂.trans hsize₁) PushState.noConfusion htexts₂ (.inr haccepted₂)

theorem orderly_round {size : Nat} (hsuited : ∀ i, (plan i).Suited size) (keepAliveInterval : Nat)
    (t : Task w) (g : Subscription) (h : Orderly plan size t g) :
    (t.round signed keepAliveInterval).Meets (broker plan Trusted) g (Orderly plan size) := by
  rw [Task.round]
  cases hstate : t.pushState with
  | preparingEndpoint =>
    refine ⟨trivial, ?_⟩
    intro (installed : Option CString) _
    cases installed with
    | none =>
      refine ⟨trivial, fun _ _ => ?_⟩
      exact h
    | some installationId => exact h.of_same h.size PushState.noConfusion rfl (.inl rfl)
  | retrieving installationId =>
    have hstate' : t.pushState ≠ .ready := hstate ▸ PushState.noConfusion
    refine ⟨trivial, fun _ _ => ⟨trivial, ?_⟩⟩
    rintro ⟨result, endpoint⟩ _
    cases result with
    | retry => exact h.of_same h.size hstate' rfl (.inl rfl)
    | success => exact h.of_same h.size PushState.noConfusion rfl (.inl rfl)
    | error =>
      refine ⟨trivial, fun _ _ => ?_⟩
      exact h.of_same h.size PushState.noConfusion rfl (.inl rfl)
  | subscribingTopic => exact orderly_subscribe keepAliveInterval h hstate
  | ready => exact orderly_receive hsuited h hstate

/-- **Whatever fails**: behind every pass of the loop, what was handed on are the notifications in
the first packets of each connection, one connection after the other. -/
theorem notifications_in_order {buffer : Buffer w} (keepAliveInterval : Nat)
    (hsuited : ∀ i, (plan i).Suited buffer.size)
    (h : Prog.Reaches (broker plan Trusted) (Task.round signed keepAliveInterval)
      (Task.start buffer) Subscription.start (.done t) g) :
    ∃ taken, g.texts = (handedOn plan taken g.accepted).map some := by
  have hstart : Orderly plan buffer.size (Task.start buffer) Subscription.start :=
    ⟨rfl, fun _ => 0, rfl, fun hready => PushState.noConfusion hready⟩
  have hmeets := h.meets (Orderly plan buffer.size) (orderly_round hsuited keepAliveInterval) hstart
  obtain ⟨taken, htexts, -⟩ := hmeets.order
  exact ⟨taken, htexts⟩

end

/-! ## When nothing fails -/

/-- Nothing fails but the connections, and the broker accepts CONNECT and SUBSCRIBE. -/
def Calm (endpoint : Endpoint) (g : Subscription) : (c : PushCall) → c.Reply → Prop
  | .connect _ _, r => SocketReply.code r = .ok
  | .send _, r => SocketReply.code r = .ok
  | .close, r => SocketReply.code r = .ok
  | .recv _, r =>
    (g.sent = some 0x10 → SocketReply.code r = .ok ∧ SocketReply.data r = Mqtt.connAck) ∧
      (g.sent = some 0x82 →
        SocketReply.code r = .ok ∧ ∃ qos, SocketReply.data r = Mqtt.subAck qos)
  | .install, r => ∃ installationId : CString, r = some installationId
  | .retrieveEndpoint _, r => r = (RetrieveEndpointResult.success, endpoint)
  | _, _ => True

section

variable {plan : Nat → Broadcast} {endpoint : Endpoint} {signed : Bool} {m : Push w} {t : Task w}
  {g : Subscription} {keepAliveInterval : Nat}

theorem calm_handshake (header : Byte) {packet : List Byte × Buffer w} {length : Nat}
    {ack : List Byte} (hheader : packet.1.head? = some header) (hlength : 4 ≤ length)
    (hsize : 4 ≤ packet.2.size)
    (hanswer : ∀ (g : Subscription) n (r : SocketReply), g.sent = some header →
      Calm endpoint g (.recv n) r →
      r.code = .ok ∧ r.data.length = length ∧ r.data.take 4 = ack) :
    (handshake m packet length ack).Meets (broker plan (Calm endpoint)) g fun r _ => r.1 = 0 := by
  rw [handshake, Prog.meets_bind]
  apply broker_sendCb
  intro r hr
  have hsent : r.code = .ok := hr
  dsimp only
  rw [if_neg (not_not.mpr hsent), if_pos hsent, hheader, awaitAnswer, Prog.meets_bind]
  apply broker_recvCb (Option.some_ne_none header)
  intro r hr
  obtain ⟨hok, hlen, htake⟩ := hanswer { g with sent := some header } _ r rfl hr
  have hack : (packet.2.clear.write 0 r.data).bytes.take 4 = ack := by
    rw [take_answer (hlen ▸ hlength) hsize]
    exact htake
  dsimp only
  rw [if_neg (not_not.mpr hok), if_pos ⟨hlen, hack⟩]
  rfl

theorem calm_openSocket (keepAliveInterval : Nat) (hroom : connectRoom endpoint ≤ m.buffer.size) :
    (openSocket m endpoint keepAliveInterval).Meets (broker plan (Calm endpoint)) g
      fun r _ => r.1 = 0 := by
  rw [openSocket, Prog.meets_bind]
  apply broker_connectCb
  intro r hr
  have hok : r.code = .ok := hr
  obtain ⟨hpacket, hsize⟩ := connectPacket_eq keepAliveInterval hroom
  rw [connectRoom] at hroom
  have hpos : 4 ≤ m.buffer.size := by omega
  dsimp only
  rw [if_neg (not_not.mpr hok), if_neg (by omega), if_neg (Nat.not_lt.mpr hroom)]
  apply calm_handshake 0x10 (by rw [hpacket]; rfl) (Nat.le_refl 4) (hsize ▸ hpos)
  intro g n r hsent hr
  obtain ⟨hcode, hdata⟩ := hr.1 hsent
  rw [hdata]
  exact ⟨hcode, rfl, rfl⟩

theorem calm_connect (keepAliveInterval : Nat) (hroom : connectRoom endpoint ≤ m.buffer.size) :
    (kiiMQTTConnect m endpoint keepAliveInterval).Meets (broker plan (Calm endpoint)) g
      fun r _ => r.1 = 0 := by
  rw [kiiMQTTConnect, closeOpened]
  split
  · rw [Prog.meets_bind]
    refine ⟨trivial, ?_⟩
    intro (r : SocketReply) hr
    have hok : r.code = .ok := hr.2
    show Prog.Meets _ (if r.code ≠ .ok then .done (-1, ⟨r.socket, m.buffer⟩)
      else openSocket ⟨r.socket, m.buffer⟩ endpoint keepAliveInterval) g _
    rw [if_neg (not_not.mpr hok)]
    exact calm_openSocket keepAliveInterval hroom
  · exact calm_openSocket keepAliveInterval hroom

theorem calm_subscribe (hroom : connectRoom endpoint ≤ m.buffer.size) (qos : Nat) :
    (kiiMQTTSubscribe m endpoint.topic.str qos).Meets (broker plan (Calm endpoint)) g
      fun r _ => r.1 = 0 := by
  have htopic := endpoint.topic.length_lt
  rw [connectRoom] at hroom
  obtain ⟨hpacket, hsize⟩ := @subscribePacket_eq w m.buffer endpoint.topic.str qos
    (by omega) (by omega)
  rw [kiiMQTTSubscribe, if_neg (by omega), if_neg (by omega)]
  apply calm_handshake 0x82 (by rw [hpacket]; rfl) (Nat.le_succ 4) (by omega)
  intro g n r hsent hr
  obtain ⟨hcode, qos, hdata⟩ := hr.2 hsent
  rw [hdata]
  exact ⟨hcode, rfl, rfl⟩

theorem calm_retrieve {installationId : CString}
    (hstate : t.pushState = .retrieving installationId) :
    (t.round signed keepAliveInterval).Meets (broker plan (Calm endpoint)) g fun t' g' =>
      t' = { t with pushState := .subscribingTopic, endpoint } ∧ g' = g := by
  rw [Task.round, hstate]
  refine ⟨trivial, fun _ _ => ⟨trivial, ?_⟩⟩
  rintro r ⟨-, hr⟩
  obtain rfl : r = (RetrieveEndpointResult.success, endpoint) := hr
  exact ⟨rfl, rfl⟩

theorem calm_prepare (hstate : t.pushState = .preparingEndpoint) :
    (t.round signed keepAliveInterval).Meets (broker plan (Calm endpoint)) g fun t' g' =>
      (∃ installationId, t' = { t with pushState := .retrieving installationId }) ∧ g' = g := by
  rw [Task.round, hstate]
  refine ⟨trivial, ?_⟩
  rintro r ⟨-, installationId, hr⟩
  obtain rfl : r = some installationId := hr
  exact ⟨⟨installationId, rfl⟩, rfl⟩

/-- A round that opens a connection. -/
theorem calm_connection {n : Nat} (hstate : t.pushState = .subscribingTopic)
    (hendpoint : t.endpoint = endpoint) (hroom : connectRoom endpoint ≤ t.push.buffer.size)
    (haccepted : g.accepted = n) :
    (t.round signed keepAliveInterval).Meets (broker plan (Calm endpoint)) g fun t' g' =>
      (∃ m', m'.buffer.size = t.push.buffer.size ∧
        t' = { t with pushState := .ready, push := m' }) ∧
        Reading plan g' n 0 ∧ g'.texts = g.texts := by
  rw [Task.round, hstate]
  show (t.subscribe keepAliveInterval).Meets _ _ _
  rw [Task.subscribe, Prog.meets_bind, hendpoint]
  apply ((meets_kiiMQTTConnect endpoint keepAliveInterval).and
    (calm_connect keepAliveInterval hroom)).mono
  rintro r g₁ ⟨h₁, hzero⟩
  obtain ⟨hnew, -, hpieces⟩ := h₁.new hzero
  dsimp only
  rw [if_neg (not_not.mpr hzero)]
  refine ⟨trivial, fun _ _ => ?_⟩
  rw [Prog.meets_bind]
  apply ((meets_kiiMQTTSubscribe endpoint.topic.length_lt 0).and
    (calm_subscribe (by rw [h₁.size]; exact hroom) 0)).mono
  rintro r₂ g₂ ⟨⟨hsize₂, hsame, -, hsent⟩, hzero₂⟩
  have htexts : g₂.texts = g.texts :=
    congrArg (List.map Pushed.text) (hsame.pushed.trans h₁.pushed)
  rw [if_neg (by omega)]
  refine ⟨⟨r₂.2, hsize₂.trans h₁.size, rfl⟩, ?_, htexts⟩
  exact reading_zero (hsame.accepted.trans (haccepted ▸ hnew)) (hsent hzero₂)
    (hsame.pieces.trans hpieces)

/-- The rounds that take the packets of a connection. -/
theorem calm_packets {i k : Nat} (hsuited : (plan i).Suited t.push.buffer.size)
    (hstate : t.pushState = .ready) (h : Reading plan g i 0) (hk : k ≤ (plan i).packets.length) :
    (Prog.rounds (Task.round signed keepAliveInterval) k t).Meets (broker plan (Calm endpoint)) g
      fun t' g' => (∃ m', m'.buffer.size = t.push.buffer.size ∧ t' = { t with push := m' }) ∧
        Reading plan g' i k ∧
        g'.texts = g.texts ++ (payloads ((plan i).packets.take k)).map some := by
  induction k with
  | zero =>
    refine ⟨⟨t.push, rfl, rfl⟩, h, ?_⟩
    rw [List.take_zero]
    exact (List.append_nil _).symm
  | succ k ih =>
    have hnext := List.drop_eq_getElem_cons hk
    rw [Prog.meets_rounds_add]
    apply (ih (Nat.le_of_succ_le hk)).mono
    rintro t' g' ⟨⟨m', hsize, rfl⟩, hreading, htexts⟩
    rw [Prog.meets_rounds_succ, Task.round, hstate]
    apply (meets_receive_next (hsize ▸ hsuited) hreading hnext).mono
    rintro t'' g'' ⟨⟨m'', hsize'', rfl⟩, hreading'', htexts''⟩
    refine ⟨⟨m'', hsize''.trans hsize, rfl⟩, hreading'', ?_⟩
    rw [htexts'', htexts, payloads_take_succ hnext, List.map_append, List.append_assoc]

/-- `n` connections are behind the task, and it is about to open the next. -/
structure Behind (plan : Nat → Broadcast) (endpoint : Endpoint) (size n : Nat) (t : Task w)
    (g : Subscription) : Prop where
  state : t.pushState = .subscribingTopic
  endpoint : t.endpoint = endpoint
  size : t.push.buffer.size = size
  accepted : g.accepted = n
  texts : g.texts =
    ((List.range n).flatMap fun i => payloads (plan i).packets).map some

/-- **A connection from its beginning to its end.** -/
theorem calm_connection_lost {size n : Nat} (hsuited : (plan n).Suited size)
    (hroom : connectRoom endpoint ≤ size) (h : Behind plan endpoint size n t g) :
    (Prog.rounds (Task.round signed keepAliveInterval) ((plan n).packets.length + 2) t).Meets
      (broker plan (Calm endpoint)) g (Behind plan endpoint size (n + 1)) := by
  rw [Nat.add_comm _ 2, Nat.add_assoc 1 1, Nat.add_comm 1, Prog.meets_rounds_succ]
  apply (calm_connection h.state h.endpoint (h.size.symm ▸ hroom) h.accepted).mono
  rintro t' g' ⟨⟨m', hsize, rfl⟩, hreading, htexts⟩
  rw [Nat.add_comm 1, Prog.meets_rounds_add]
  have hsize' := hsize.trans h.size
  apply (calm_packets (hsize'.symm ▸ hsuited) rfl hreading (Nat.le_refl _)).mono
  rintro t'' g'' ⟨⟨m'', hsize'', rfl⟩, hreading'', htexts''⟩
  have hsize₂ := hsize''.trans hsize'
  rw [Prog.meets_rounds_succ, Task.round]
  apply (meets_receive_lost (hsize₂.symm ▸ hsuited) hreading'').mono
  rintro t₃ g₃ ⟨⟨m₃, hsize₃, rfl⟩, haccepted₃, htexts₃⟩
  refine ⟨rfl, h.endpoint, hsize₃.trans hsize₂, haccepted₃, ?_⟩
  rw [htexts₃, htexts'', htexts, h.texts, List.take_length, List.range_succ, List.flatMap_append,
    List.flatMap_singleton, List.map_append]

/-- The passes of the loop in which `n` connections are opened and lost. -/
def passes (plan : Nat → Broadcast) : Nat → Nat
  | 0 => 2
  | n + 1 => passes plan n + ((plan n).packets.length + 2)

theorem calm_passes {buffer : Buffer w} (hsuited : ∀ i, (plan i).Suited buffer.size)
    (hroom : connectRoom endpoint ≤ buffer.size) (n : Nat) :
    (Prog.rounds (Task.round signed keepAliveInterval) (passes plan n) (Task.start buffer)).Meets
      (broker plan (Calm endpoint)) Subscription.start (Behind plan endpoint buffer.size n) := by
  induction n with
  | zero =>
    rw [passes, Prog.meets_rounds_succ]
    apply (calm_prepare rfl).mono
    rintro t' g' ⟨⟨installationId, rfl⟩, rfl⟩
    rw [Prog.meets_rounds_succ]
    apply (calm_retrieve rfl).mono
    rintro t'' g'' ⟨rfl, rfl⟩
    exact ⟨rfl, rfl, rfl, rfl, rfl⟩
  | succ n ih =>
    rw [passes, Prog.meets_rounds_add]
    apply ih.mono
    intro t' g' h
    exact calm_connection_lost (hsuited n) hroom h

/-- Replies as `Calm` has them. -/
def calmly (plan : Nat → Broadcast) (endpoint : Endpoint) (g : Subscription) :
    (c : PushCall) → c.Reply
  | .connect _ _ => (⟨.ok, [], 1⟩ : SocketReply)
  | .send _ => (⟨.ok, [], 1⟩ : SocketReply)
  | .recv n =>
    (⟨.ok,
      if g.sent = some 0x10 then Mqtt.connAck
      else if g.sent = some 0x82 then Mqtt.subAck 0
      else ((plan (g.accepted - 1)).bytes.drop g.pieces.flatten.length).take n, 1⟩ : SocketReply)
  | .close => (⟨.ok, [], 0⟩ : SocketReply)
  | .install => some (CString.lit "id")
  | .retrieveEndpoint _ => (RetrieveEndpointResult.success, endpoint)
  | .setConnected _ => ()
  | .pushReceived _ _ _ => ()
  | .delay _ => ()

theorem answers_calmly (g : Subscription) (c : PushCall) :
    (broker plan (Calm endpoint)).answers g c (calmly plan endpoint g c) := by
  cases c with
  | connect _ _ => exact ⟨trivial, rfl⟩
  | send _ => exact ⟨trivial, rfl⟩
  | close => exact ⟨trivial, rfl⟩
  | install => exact ⟨trivial, _, rfl⟩
  | retrieveEndpoint _ => exact ⟨trivial, rfl⟩
  | recv n =>
    refine ⟨?_, ?_, ?_⟩
    · intro hsent i haccepted
      have hdata : SocketReply.data (calmly plan endpoint g (.recv n)) =
          ((plan i).bytes.drop g.pieces.flatten.length).take n := by
        show (if g.sent = some 0x10 then _ else if g.sent = some 0x82 then _ else _) = _
        rw [if_neg (by simp [hsent]), if_neg (by simp [hsent]), haccepted, Nat.add_sub_cancel]
      rw [hdata]
      refine ⟨List.take_prefix _ _, List.length_take_le _ _, ?_⟩
      intro hfit
      rw [List.length_take, List.length_drop]
      omega
    · intro hsent
      exact ⟨rfl, if_pos hsent⟩
    · intro hsent
      refine ⟨rfl, 0, ?_⟩
      show (if g.sent = some 0x10 then _ else if g.sent = some 0x82 then _ else _) = _
      rw [if_neg (by simp [hsent]), if_pos hsent]
  | setConnected _ => exact ⟨trivial, trivial⟩
  | pushReceived _ _ _ => exact ⟨trivial, trivial⟩
  | delay _ => exact ⟨trivial, trivial⟩

/-- **When nothing fails but the connections**, the passes of the loop in which `n` of them are
opened and lost end, and every notification of these connections was handed on, in order. -/
theorem notifications_complete {buffer : Buffer w} (hsuited : ∀ i, (plan i).Suited buffer.size)
    (hroom : connectRoom endpoint ≤ buffer.size) (n : Nat) :
    (∃ t g, (Prog.rounds (Task.round signed keepAliveInterval) (passes plan n)
        (Task.start buffer)).Runs (broker plan (Calm endpoint)) Subscription.start t g) ∧
      ∀ t g, (Prog.rounds (Task.round signed keepAliveInterval) (passes plan n)
          (Task.start buffer)).Runs (broker plan (Calm endpoint)) Subscription.start t g →
        g.accepted = n ∧
          g.texts = ((List.range n).flatMap fun i => payloads (plan i).packets).map some := by
  constructor
  · exact Prog.exists_runs (fun g c => ⟨_, answers_calmly g c⟩) _ _
  · intro t g hrun
    have hbehind := (calm_passes hsuited hroom n).of_runs hrun
    exact ⟨hbehind.accepted, hbehind.texts⟩

end

/-! ## An example -/

/-- Two notifications and the answer to a ping, and three bytes of another one. -/
def greetings : Broadcast := ⟨[.publish hello, .pingResp, .publish hello], hello.bytes.take 3⟩

theorem suited_greetings : greetings.Suited 64 := by
  refine ⟨?_, .inr ⟨by decide, hello, List.take_prefix _ _, by decide⟩⟩
  intro p hp
  obtain rfl : p = hello := by simpa [greetings] using hp
  decide

/-- Behind the first packet of the second connection. -/
theorem notifications_in_order_of_greetings :
    let x := Prog.advance (broker (fun _ => greetings) fun _ _ _ => True) (Task.round true 300)
      (calmly (fun _ => greetings) Endpoint.empty) 41
      (.done (Task.start openPush.buffer), Subscription.start)
    x.2.accepted = 2 ∧ ∃ taken, x.2.texts =
      (handedOn (fun _ => greetings) taken x.2.accepted).map some := by
  intro x
  have hreaches : Prog.Reaches (broker (fun _ => greetings) fun _ _ _ => True) (Task.round true 300)
      (Task.start openPush.buffer) Subscription.start x.1 x.2 := by
    apply Prog.Reaches.advance _ 41 .start
    intro g c
    exact ⟨(@answers_calmly (fun _ => greetings) Endpoint.empty g c).1, trivial⟩
  obtain ⟨t, ht⟩ := Prog.exists_done (p := x.1) (by decide +kernel)
  rw [ht] at hreaches
  refine ⟨by decide +kernel, ?_⟩
  apply notifications_in_order 300 _ hreaches
  exact fun _ => suited_greetings

/-- Two connections. -/
theorem notifications_complete_of_greetings :
    let rounds := Prog.rounds (Task.round true 300) 12 (Task.start openPush.buffer)
    ∀ t g, rounds.Runs (broker (fun _ => greetings) (Calm Endpoint.empty)) Subscription.start t g →
      g.texts = List.replicate 4 (some (Http.ascii "hello")) := by
  intro rounds t g hrun
  have hall := @notifications_complete 32 (fun _ => greetings) Endpoint.empty true 300
    openPush.buffer (fun _ => suited_greetings) (by decide) 2
  rw [(hall.2 t g hrun).2]
  rfl

end KiiThing

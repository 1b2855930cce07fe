import KiiThing.Mqtt.Handshake
import KiiThing.Mqtt.Notification

/-!
# The receiving task

`kiiPush_recvMsgTask` is a loop over three states; `round` is one pass of it. The first state has a
loop of its own, which waits for the endpoint, and whose passes are rounds too.

`Watch` is what an observer of the requests knows: how many sockets are open, what
`_mqtt_connected` is, and what was received on the socket that was opened last, behind which packet.
`connection_discipline` says what is kept in every run.
-/

namespace KiiThing

variable {w : Nat}

/-! ## The task -/

/-- `kiiPush_state`, with the inner loop of its first value on its own. -/
inductive PushState where
  | preparingEndpoint
  | retrieving (installationId : CString)
  | subscribingTopic
  | ready

/-- The local variables of `kiiPush_recvMsgTask`, and the part of `kii_t` that it works on. -/
structure Task (w : Nat) where
  pushState : PushState
  endpoint : Endpoint
  push : Push w

namespace Task

/-- KIIPUSH_PREPARING_ENDPOINT, up to the inner loop. -/
def prepare (t : Task w) : PushProg (Task w) :=
  .ask .install fun (installed : Option CString) =>
    match installed with
    | none => .ask (.delay 1000) fun _ => .done t
    | some installationId => .done { t with pushState := .retrieving installationId }

/-- The inner loop. -/
def retrieve (t : Task w) (installationId : CString) : PushProg (Task w) :=
  .ask (.delay 1000) fun _ =>
    .ask (.retrieveEndpoint installationId) fun (r : RetrieveEndpointResult × Endpoint) =>
      match r.1 with
      | .retry => .done { t with endpoint := r.2 }
      | .success => .done { t with pushState := .subscribingTopic, endpoint := r.2 }
      | .error => .ask (.delay 1000) fun _ =>
        .done { t with pushState := .preparingEndpoint, endpoint := r.2 }

/-- KIIPUSH_SUBSCRIBING_TOPIC. -/
def subscribe (keepAliveInterval : Nat) (t : Task w) : PushProg (Task w) := do
  let (connected, m) ← kiiMQTTConnect t.push t.endpoint keepAliveInterval
  if connected ≠ 0 then .done { t with pushState := .preparingEndpoint, push := m }
  else
    .ask (.setConnected true) fun _ => do
      let (subscribed, m) ← kiiMQTTSubscribe m t.endpoint.topic.str 0
      if subscribed < 0 then
        .ask (.setConnected false) fun _ =>
          .done { t with pushState := .preparingEndpoint, push := m }
      else .done { t with pushState := .ready, push := m }

/-- KIIPUSH_READY. -/
def receive (signed : Bool) (t : Task w) : PushProg (Task w) := do
  let (received, m) ← kiiPushReceivePushNotification signed t.push
  if received ≠ 0 then
    .ask (.setConnected false) fun _ => .done { t with pushState := .subscribingTopic, push := m }
  else .done { t with push := m }

/-- A pass of the loop. -/
def round (signed : Bool) (keepAliveInterval : Nat) (t : Task w) : PushProg (Task w) :=
  match t.pushState with
  | .preparingEndpoint => t.prepare
  | .retrieving installationId => t.retrieve installationId
  | .subscribingTopic => t.subscribe keepAliveInterval
  | .ready => t.receive signed

/-- The task at its start, with a `kii_t` of zeros but for the buffer that the application sets. -/
def start (buffer : Buffer w) : Task w := ⟨.preparingEndpoint, .empty, ⟨0, buffer⟩⟩

end Task

/-! ## What can be observed -/

/-- What an observer of the requests knows. -/
structure Watch where
  /-- The sockets that were opened and have not been closed. -/
  opened : Nat
  /-- `_mqtt_connected`. -/
  connected : Bool
  /-- `mqtt_socket_context.socket`. -/
  socket : Int
  /-- The first byte of the packet that was sent last, as long as nothing was received. -/
  sent : Option Byte
  /-- What was received since the last socket was opened, and behind which packet. -/
  received : List (Option Byte × List Byte)

namespace Watch

/-- A fresh `kii_t`. -/
def start : Watch := ⟨0, false, 0, none, []⟩

/-- The broker has accepted CONNECT on the socket that was opened last. -/
def ConnectAccepted (g : Watch) : Prop := (some 0x10, Mqtt.connAck) ∈ g.received

/-- The broker has accepted SUBSCRIBE on the socket that was opened last. The protocol is version 3,
whose answer grants a quality of service, and cannot refuse. -/
def SubscribeAccepted (g : Watch) : Prop := ∃ qos, (some 0x82, Mqtt.subAck qos) ∈ g.received

/-- What a call of a callback changes. -/
def next (g : Watch) (c : PushCall) (r : c.Reply) : Watch :=
  match c, r with
  | .connect _ _, r =>
    if SocketReply.code r = .ok then
      { g with opened := g.opened + 1, socket := SocketReply.socket r, sent := none, received := [] }
    else { g with socket := SocketReply.socket r }
  | .close, r =>
    { g with
      opened := if SocketReply.code r = .ok then g.opened - 1 else g.opened
      socket := SocketReply.socket r }
  | .send data, r =>
    { g with
      sent := if SocketReply.code r = .ok then data.head? else g.sent
      socket := SocketReply.socket r }
  | .recv _, r =>
    { g with
      sent := none
      received :=
        if SocketReply.code r = .ok then g.received ++ [(g.sent, SocketReply.data r)]
        else g.received
      socket := SocketReply.socket r }
  | .setConnected connected, _ => { g with connected }
  | _, _ => g

/-- The callbacks do with the socket what they are for: one that connects makes it positive, one that
closes makes it non-positive, and nothing else changes it. -/
def answers (g : Watch) (c : PushCall) (r : c.Reply) : Prop :=
  match c, r with
  | .connect _ _, r =>
    (SocketReply.code r = .ok → 0 < SocketReply.socket r) ∧
      (SocketReply.code r ≠ .ok → SocketReply.socket r ≤ 0 ∨ SocketReply.socket r = g.socket)
  | .close, r =>
    (SocketReply.code r = .ok → SocketReply.socket r ≤ 0) ∧
      (SocketReply.code r ≠ .ok → SocketReply.socket r = g.socket)
  | .send _, r => SocketReply.socket r = g.socket
  | .recv _, r => SocketReply.socket r = g.socket
  | _, _ => True

/-- At most one socket is open, and `_mqtt_connected` says that CONNECT was accepted on it. -/
structure Sound (g : Watch) : Prop where
  opened_le : g.opened ≤ 1
  connected : g.connected = true → g.opened = 1 ∧ g.ConnectAccepted

/-- Which requests keep to the discipline. -/
def Permits (g : Watch) : PushCall → Prop
  | .connect _ _ => g.connected = false
  | .close => g.connected = false
  | .pushReceived _ _ _ => g.opened = 1 ∧ g.ConnectAccepted ∧ g.SubscribeAccepted
  | _ => True

/-- The callbacks as they are assumed to be, and the discipline that is kept. -/
def discipline : Contract PushCall PushCall.Reply Watch where
  allowed g c := g.Sound ∧ g.Permits c
  answers := answers
  next := next

/-! ## Sending and receiving -/

/-- What sending and receiving leave as it is. -/
structure Frame (g g' : Watch) : Prop where
  opened : g'.opened = g.opened
  connected : g'.connected = g.connected
  socket : g'.socket = g.socket
  received : g.received ⊆ g'.received

theorem Frame.refl (g : Watch) : Frame g g := ⟨rfl, rfl, rfl, List.Subset.refl _⟩

theorem Frame.trans {g₁ g₂ g₃ : Watch} (h : Frame g₁ g₂) (h' : Frame g₂ g₃) : Frame g₁ g₃ :=
  ⟨h'.opened.trans h.opened, h'.connected.trans h.connected, h'.socket.trans h.socket,
    List.Subset.trans h.received h'.received⟩

theorem Sound.frame {g g' : Watch} (h : g.Sound) (hframe : Frame g g') : g'.Sound := by
  refine ⟨hframe.opened ▸ h.opened_le, ?_⟩
  intro hconnected
  rw [hframe.connected] at hconnected
  obtain ⟨hopened, haccepted⟩ := h.connected hconnected
  exact ⟨hframe.opened.trans hopened, hframe.received haccepted⟩

variable {m : Push w} {g : Watch}

theorem frame_send {data : List Byte} {r : SocketReply} (h : r.socket = g.socket) :
    Frame g (g.next (.send data) r) := ⟨rfl, rfl, h, List.Subset.refl _⟩

theorem frame_recv {n : Nat} {r : SocketReply} (h : r.socket = g.socket) :
    Frame g (g.next (.recv n) r) := by
  refine ⟨rfl, rfl, h, ?_⟩
  show g.received ⊆ if r.code = .ok then g.received ++ [(g.sent, r.data)] else g.received
  split
  · exact List.subset_append_left _ _
  · exact List.Subset.refl _

theorem meets_sendCb {data : List Byte} {Q : SocketCode × Push w → Watch → Prop} (hsound : g.Sound)
    (h : ∀ r : SocketReply, r.socket = g.socket →
      Q (r.code, { m with socket := r.socket }) (g.next (.send data) r)) :
    (m.sendCb data).Meets discipline g Q := ⟨⟨hsound, trivial⟩, h⟩

theorem meets_recvCb {p n : Nat} {Q : SocketCode × Nat × Push w → Watch → Prop} (hsound : g.Sound)
    (h : ∀ r : SocketReply, r.socket = g.socket →
      Q (r.code, r.data.length, ⟨r.socket, m.buffer.write p r.data⟩) (g.next (.recv n) r)) :
    (m.recvCb p n).Meets discipline g Q := ⟨⟨hsound, trivial⟩, h⟩

/-- **A handshake** succeeds only with an answer that was received behind the packet. -/
theorem meets_handshake {packet : List Byte × Buffer w} {header : Byte} {length : Nat}
    {ack : List Byte} (hsound : g.Sound) (hheader : packet.1.head? = some header)
    (hsize : 4 ≤ packet.2.size) (hlength : 4 ≤ length) :
    (handshake m packet length ack).Meets discipline g fun r g' =>
      Frame g g' ∧ r.2.socket = g'.socket ∧ (r.1 = 0 ∨ r.1 = -1) ∧
        (r.1 = 0 → ∃ data, (some header, data) ∈ g'.received ∧ data.length = length ∧
          data.take 4 = ack) := by
  rw [handshake, Prog.meets_bind]
  apply meets_sendCb hsound
  intro r₁ hr₁
  have hframe₁ : Frame g (g.next (.send packet.1) r₁) := frame_send hr₁
  dsimp only
  by_cases hsent : r₁.code = .ok
  case neg =>
    rw [if_pos hsent]
    exact ⟨hframe₁, rfl, .inr rfl, fun h => absurd h fails_ne⟩
  case pos =>
    rw [if_neg (not_not.mpr hsent), awaitAnswer, Prog.meets_bind]
    apply meets_recvCb (hsound.frame hframe₁)
    intro r₂ hr₂
    have hframe := hframe₁.trans (frame_recv (n := packet.2.size) hr₂)
    dsimp only
    by_cases hok : r₂.code = .ok
    case neg =>
      rw [if_pos hok]
      exact ⟨hframe, rfl, .inr rfl, fun h => absurd h fails_ne⟩
    case pos =>
      rw [if_neg (not_not.mpr hok)]
      by_cases hack : r₂.data.length = length ∧ (packet.2.clear.write 0 r₂.data).bytes.take 4 = ack
      case neg =>
        rw [if_neg hack]
        exact ⟨hframe, rfl, .inr rfl, fun h => absurd h fails_ne⟩
      case pos =>
        rw [if_pos hack]
        refine ⟨hframe, rfl, .inl rfl, fun _ => ⟨r₂.data, ?_, hack.1, ?_⟩⟩
        · have hlast : (g.next (.send packet.1) r₁).sent = some header := by
            show (if r₁.code = .ok then packet.1.head? else g.sent) = _
            rw [if_pos hsent, hheader]
          show (some header, r₂.data) ∈ if r₂.code = .ok then
            g.received ++ [((g.next (.send packet.1) r₁).sent, r₂.data)] else g.received
          rw [if_pos hok, hlast]
          exact List.mem_append_right _ List.mem_cons_self
        · rw [← take_answer (by omega) hsize]
          exact hack.2

/-! ## Connecting and subscribing -/

/-- The task and the observer agree on the socket, and the one that is open is the one it names. -/
structure Steady (g : Watch) (m : Push w) : Prop where
  socket : m.socket = g.socket
  opened : g.opened = if 0 < g.socket then 1 else 0

theorem Steady.frame {g' : Watch} {m' : Push w} (h : Steady g m) (hframe : Frame g g')
    (hsocket : m'.socket = g'.socket) : Steady g' m' := by
  refine ⟨hsocket, ?_⟩
  rw [hframe.opened, hframe.socket]
  exact h.opened

/-- Settled a failure and the next success. -/
structure Offline (g : Watch) (m : Push w) : Prop where
  steady : Steady g m
  connected : g.connected = false

/-- The socket is open, and CONNECT was accepted on it. -/
structure Online (g : Watch) (m : Push w) : Prop where
  steady : Steady g m
  socket : 0 < g.socket
  accepted : g.ConnectAccepted

theorem Offline.sound (h : Offline g m) : g.Sound := by
  refine ⟨?_, ?_⟩
  · rw [h.steady.opened]
    split <;> decide
  · intro hconnected
    rw [h.connected] at hconnected
    exact absurd hconnected (by decide)

theorem Online.opened (h : Online g m) : g.opened = 1 := by
  rw [h.steady.opened, if_pos h.socket]

theorem Online.sound (h : Online g m) : g.Sound :=
  ⟨Nat.le_of_eq h.opened, fun _ => ⟨h.opened, h.accepted⟩⟩

theorem Online.frame {g' : Watch} {m' : Push w} (h : Online g m) (hframe : Frame g g')
    (hsocket : m'.socket = g'.socket) : Online g' m' :=
  ⟨h.steady.frame hframe hsocket, hframe.socket ▸ h.socket, hframe.received h.accepted⟩

/-- An open socket is closed first. -/
theorem meets_close (h : Offline g m) :
    (closeOpened m).Meets discipline g fun r g' =>
      Offline g' r.2 ∧ (r.1 = .ok → g'.socket ≤ 0) := by
  have hsocket := h.steady.socket
  have hopened := h.steady.opened
  rw [closeOpened]
  by_cases hopen : 0 < m.socket
  case neg =>
    rw [if_neg hopen]
    exact ⟨h, fun _ => by omega⟩
  case pos =>
    rw [if_pos hopen]
    refine ⟨⟨h.sound, h.connected⟩, ?_⟩
    intro (r : SocketReply) hr
    refine ⟨⟨⟨rfl, ?_⟩, h.connected⟩, hr.1⟩
    show (if r.code = .ok then g.opened - 1 else g.opened) = if 0 < r.socket then 1 else 0
    by_cases hok : r.code = .ok
    · -- What was open is closed now.
      have hclosed : ¬ 0 < r.socket := by
        have := hr.1 hok
        omega
      rw [if_pos hok, if_neg hclosed, hopened]
      split <;> rfl
    · -- It is open still, and `socket` says so.
      rw [if_neg hok, hr.2 hok]
      exact hopened

/-- A new socket is opened where none is. -/
theorem meets_openSocket (h : Offline g m) (hsocket : g.socket ≤ 0) (endpoint : Endpoint)
    (keepAliveInterval : Nat) :
    (openSocket m endpoint keepAliveInterval).Meets discipline g fun r g' =>
      Offline g' r.2 ∧ (r.1 = 0 → Online g' r.2) := by
  have hnone : g.opened = 0 := by
    rw [h.steady.opened]
    exact if_neg (by omega)
  rw [openSocket, Prog.meets_bind]
  refine ⟨⟨h.sound, h.connected⟩, ?_⟩
  intro (r : SocketReply) hr
  dsimp only
  by_cases hok : r.code = .ok
  case neg =>
    have hsocket' : r.socket ≤ 0 := by
      rcases hr.2 hok with hle | heq
      · exact hle
      · exact heq ▸ hsocket
    have hnext : discipline.next g (.connect endpoint.host.str endpoint.portSsl) r =
        { g with socket := r.socket } := if_neg hok
    rw [Prog.meets_done, if_pos hok, hnext]
    refine ⟨⟨⟨rfl, ?_⟩, h.connected⟩, fun h => absurd h fails_ne⟩
    show g.opened = if 0 < r.socket then 1 else 0
    rw [hnone, if_neg (by omega)]
  case pos =>
    obtain ⟨g', hg'⟩ : ∃ g' : Watch, g' =
        { g with opened := g.opened + 1, socket := r.socket, sent := none, received := [] } :=
      ⟨_, rfl⟩
    have hnext : discipline.next g (.connect endpoint.host.str endpoint.portSsl) r = g' :=
      hg' ▸ if_pos hok
    obtain ⟨m', hm'⟩ : ∃ m' : Push w, m' = { m with socket := r.socket } := ⟨_, rfl⟩
    have hsocket' : 0 < g'.socket := hg' ▸ hr.1 hok
    have hoffline : Offline g' m' := by
      refine ⟨⟨by rw [hg', hm'], ?_⟩, hg' ▸ h.connected⟩
      rw [if_pos hsocket', hg']
      show g.opened + 1 = 1
      rw [hnone]
    rw [Prog.meets_done, if_neg (not_not.mpr hok), hnext, ← hm']
    -- The socket stays open where the buffer is too small. It is closed with the next attempt.
    split
    · exact ⟨hoffline, fun h => absurd h fails_ne⟩
    split
    · exact ⟨hoffline, fun h => absurd h fails_ne⟩
    case _ _ hfits =>
      obtain ⟨hpacket, hsize⟩ := connectPacket_eq keepAliveInterval (Nat.not_lt.mp hfits)
      apply (meets_handshake hoffline.sound (by rw [hpacket]; rfl) (by omega) (by decide)).mono
      intro r' g'' h'
      obtain ⟨hframe, hsame, _, hack⟩ := h'
      have hsteady := hoffline.steady.frame hframe hsame
      refine ⟨⟨hsteady, hframe.connected ▸ hoffline.connected⟩, ?_⟩
      intro hzero
      obtain ⟨data, hdata, hlength, htake⟩ := hack hzero
      rw [List.take_of_length_le (Nat.le_of_eq hlength)] at htake
      rw [htake] at hdata
      exact ⟨hsteady, hframe.socket ▸ hsocket', hdata⟩

/-- **`kiiMQTT_connect`.** -/
theorem meets_connect (h : Offline g m) (endpoint : Endpoint) (keepAliveInterval : Nat) :
    (kiiMQTTConnect m endpoint keepAliveInterval).Meets discipline g fun r g' =>
      Offline g' r.2 ∧ (r.1 = 0 → Online g' r.2) := by
  rw [kiiMQTTConnect, Prog.meets_bind]
  apply (meets_close h).mono
  intro r g' h'
  obtain ⟨hoffline, hsocket⟩ := h'
  dsimp only
  by_cases hclosed : r.1 = .ok
  · rw [if_neg (not_not.mpr hclosed)]
    exact meets_openSocket hoffline (hsocket hclosed) endpoint keepAliveInterval
  · rw [if_pos hclosed]
    exact ⟨hoffline, fun h => absurd h fails_ne⟩

/-- **`kiiMQTT_subscribe`.** -/
theorem meets_subscribe (h : Online g m) {topic : CString} (htopic : topic.length < 64)
    (qos : Nat) :
    (kiiMQTTSubscribe m topic qos).Meets discipline g fun r g' =>
      Online g' r.2 ∧ g'.connected = g.connected ∧ (r.1 = 0 ∨ r.1 = -1) ∧
        (r.1 = 0 → g'.SubscribeAccepted) := by
  rw [kiiMQTTSubscribe]
  split
  · exact ⟨h, rfl, .inr rfl, fun h => absurd h fails_ne⟩
  split
  · exact ⟨h, rfl, .inr rfl, fun h => absurd h fails_ne⟩
  case _ _ hfits =>
    obtain ⟨hpacket, hsize⟩ := subscribePacket_eq qos
      (Nat.lt_trans htopic (by decide)) (Nat.not_lt.mp hfits)
    apply (meets_handshake h.sound (by rw [hpacket]; rfl) (by omega) (by decide)).mono
    intro r' g' h'
    obtain ⟨hframe, hsame, hresult, hack⟩ := h'
    refine ⟨h.frame hframe hsame, hframe.connected, hresult, ?_⟩
    intro hzero
    obtain ⟨data, hdata, hlength, htake⟩ := hack hzero
    obtain ⟨qos', hqos⟩ : ∃ qos', data = [0x90, 0x03, 0x00, 0x01] ++ [qos'] := by
      have hrest : (data.drop 4).length = 1 := by
        rw [List.length_drop, hlength]
      obtain ⟨qos', hqos⟩ := List.length_eq_one_iff.mp hrest
      refine ⟨qos', ?_⟩
      rw [← htake, ← hqos, List.take_append_drop]
    rw [hqos] at hdata
    exact ⟨qos', hdata⟩

/-! ## Receiving -/

/-- CONNECT and SUBSCRIBE were both accepted, and `_mqtt_connected` is 1. -/
structure Ready (g : Watch) (m : Push w) : Prop where
  online : Online g m
  subscribed : g.SubscribeAccepted
  connected : g.connected = true

theorem Ready.frame {g' : Watch} {m' : Push w} (h : Ready g m) (hframe : Frame g g')
    (hsocket : m'.socket = g'.socket) : Ready g' m' := by
  refine ⟨h.online.frame hframe hsocket, ?_, hframe.connected.trans h.connected⟩
  obtain ⟨qos, hqos⟩ := h.subscribed
  exact ⟨qos, hframe.received hqos⟩

/-- A read. -/
theorem Ready.recv {p n : Nat} {Q : SocketCode × Nat × Push w → Watch → Prop} (h : Ready g m)
    (hQ : ∀ (code : SocketCode) (length : Nat) (m' : Push w) (g' : Watch), Ready g' m' →
      Q (code, length, m') g') : (m.recvCb p n).Meets discipline g Q := by
  apply meets_recvCb h.online.sound
  intro r hr
  apply hQ
  exact h.frame (frame_recv hr) rfl

theorem meets_receiveRest (totalLen rounds : Nat) {bytes : Nat} (h : Ready g m) :
    (receiveRest totalLen rounds bytes m).Meets discipline g fun r g' => Ready g' r.2 := by
  induction rounds generalizing bytes m g with
  | zero => exact h
  | succ rounds ih =>
    rw [receiveRest]
    split
    · rw [Prog.meets_bind]
      apply h.recv
      intro code length m' g' h'
      dsimp only
      split
      · exact ih h'
      · exact h'
    · exact h

theorem meets_deliver (signed : Bool) (byteLen remainingLen : Nat) (h : Ready g m) :
    (deliver signed m byteLen remainingLen).Meets discipline g fun r g' => Ready g' r.2 := by
  rw [deliver]
  split
  · exact ⟨⟨h.online.sound, h.online.opened, h.online.accepted, h.subscribed⟩, fun _ _ => h⟩
  · exact h

/-- **`kiiPush_receivePushNotification`.** -/
theorem meets_receive (signed : Bool) (h : Ready g m) :
    (kiiPushReceivePushNotification signed m).Meets discipline g fun r g' => Ready g' r.2 := by
  have hclear : Ready g { m with buffer := m.buffer.clear } :=
    h.frame (Frame.refl g) h.online.steady.socket
  rw [kiiPushReceivePushNotification, Prog.meets_bind]
  apply hclear.recv
  intro code₁ length₁ m₁ g₁ h₁
  dsimp only
  split
  · exact h₁
  split
  · exact h₁
  rw [Prog.meets_bind]
  apply h₁.recv
  intro code₂ length₂ m₂ g₂ h₂
  dsimp only
  split
  · exact h₂
  split
  · exact h₂
  split
  · exact h₂
  rw [Prog.meets_bind]
  apply (meets_receiveRest _ _ h₂).mono
  intro r g₃ h₃
  split
  · exact h₃
  · exact meets_deliver signed _ _ h₃

/-! ## The rounds of the task -/

/-- What holds between two rounds. -/
def Settled (t : Task w) (g : Watch) : Prop :=
  match t.pushState with
  | .ready => Ready g t.push
  | _ => Offline g t.push

theorem Offline.setConnected {b : Bool} (h : Steady g m) (hb : b = false) :
    Offline { g with connected := b } m := ⟨⟨h.socket, h.opened⟩, hb⟩

theorem meets_round_ready (signed : Bool) {t : Task w} (h : Ready g t.push)
    (hready : t.pushState = .ready) :
    (t.receive signed).Meets discipline g Settled := by
  rw [Task.receive, Prog.meets_bind]
  apply (meets_receive signed h).mono
  intro r g' h'
  dsimp only
  split
  · refine ⟨⟨h'.online.sound, trivial⟩, ?_⟩
    intro _ _
    exact Offline.setConnected h'.online.steady rfl
  · show match t.pushState with
      | .ready => Ready g' r.2
      | _ => Offline g' r.2
    rw [hready]
    exact h'

theorem meets_round_subscribe (keepAliveInterval : Nat) {t : Task w} (h : Offline g t.push) :
    (t.subscribe keepAliveInterval).Meets discipline g Settled := by
  rw [Task.subscribe, Prog.meets_bind]
  apply (meets_connect h t.endpoint keepAliveInterval).mono
  intro r g₁ h₁
  obtain ⟨hoffline, honline⟩ := h₁
  dsimp only
  by_cases hzero : r.1 = 0
  case neg =>
    rw [if_pos hzero]
    exact hoffline
  case pos =>
    rw [if_neg (not_not.mpr hzero)]
    refine ⟨⟨hoffline.sound, trivial⟩, ?_⟩
    intro _ _
    have hconnected : Online { g₁ with connected := true } r.2 :=
      ⟨⟨hoffline.steady.socket, hoffline.steady.opened⟩, (honline hzero).socket,
        (honline hzero).accepted⟩
    rw [Prog.meets_bind]
    apply (meets_subscribe hconnected t.endpoint.topic.length_lt 0).mono
    intro r₂ g₂ h₂
    obtain ⟨honline₂, hsame, hresult, haccepted⟩ := h₂
    rcases hresult with hsubscribed | hfailed
    · rw [if_neg (by omega)]
      exact ⟨honline₂, haccepted hsubscribed, hsame⟩
    · rw [if_pos (by omega)]
      refine ⟨⟨honline₂.sound, trivial⟩, ?_⟩
      intro _ _
      exact Offline.setConnected honline₂.steady rfl

theorem meets_round_prepare {t : Task w} (h : Offline g t.push)
    (hprepare : t.pushState = .preparingEndpoint) :
    t.prepare.Meets discipline g Settled := by
  refine ⟨⟨h.sound, trivial⟩, ?_⟩
  intro (installed : Option CString) _
  cases installed with
  | none =>
    refine ⟨⟨h.sound, trivial⟩, ?_⟩
    intro _ _
    rw [Prog.meets_done, Settled, hprepare]
    exact h
  | some installationId => exact h

theorem meets_round_retrieve {t : Task w} {installationId : CString} (h : Offline g t.push)
    (hretrieving : t.pushState = .retrieving installationId) :
    (t.retrieve installationId).Meets discipline g Settled := by
  refine ⟨⟨h.sound, trivial⟩, ?_⟩
  intro _ _
  refine ⟨⟨h.sound, trivial⟩, ?_⟩
  intro (r : RetrieveEndpointResult × Endpoint) _
  obtain ⟨result, endpoint⟩ := r
  cases result with
  | retry =>
    show Settled { t with endpoint } g
    rw [Settled, hretrieving]
    exact h
  | success => exact h
  | error =>
    refine ⟨⟨h.sound, trivial⟩, ?_⟩
    intro _ _
    exact h

/-- **Every round** goes from one settled state to the next, and keeps to the discipline. -/
theorem meets_round (signed : Bool) (keepAliveInterval : Nat) (t : Task w) (g : Watch)
    (h : Settled t g) : (t.round signed keepAliveInterval).Meets discipline g Settled := by
  rw [Settled] at h
  rw [Task.round]
  cases hstate : t.pushState with
  | preparingEndpoint =>
    rw [hstate] at h
    exact meets_round_prepare h hstate
  | retrieving installationId =>
    rw [hstate] at h
    exact meets_round_retrieve h hstate
  | subscribingTopic =>
    rw [hstate] at h
    exact meets_round_subscribe keepAliveInterval h
  | ready =>
    rw [hstate] at h
    exact meets_round_ready signed h hstate

theorem Settled.sound {t : Task w} (h : Settled t g) : g.Sound := by
  rw [Settled] at h
  split at h
  · exact h.online.sound
  · exact h.sound

/-- **In every run of the task**, whatever comes of installing, retrieving the endpoint and the
callbacks, at most one socket is open, `_mqtt_connected` is 1 only while CONNECT is accepted on it,
and every request that is about to be made keeps to the discipline. -/
theorem connection_discipline (signed : Bool) (keepAliveInterval : Nat) (buffer : Buffer w)
    {p : PushProg (Task w)}
    (h : Prog.Reaches discipline (Task.round signed keepAliveInterval) (Task.start buffer) Watch.start
      p g) : g.Sound ∧ ∀ c, p.request = some c → g.Permits c := by
  have hstart : Settled (Task.start buffer) Watch.start := ⟨⟨rfl, rfl⟩, rfl⟩
  have hmeets := h.meets Settled (meets_round signed keepAliveInterval) hstart
  refine ⟨?_, fun c hc => (hmeets.allowed hc).2⟩
  cases p with
  | done t => exact hmeets.sound
  | ask c k => exact hmeets.1.1

/-- Callbacks and a broker that do what is hoped for, and then send a notification of ten bytes. -/
def hopeful (g : Watch) : (c : PushCall) → c.Reply
  | .connect _ _ => (⟨.ok, [], 1⟩ : SocketReply)
  | .send _ => (⟨.ok, [], g.socket⟩ : SocketReply)
  | .recv n =>
    (⟨.ok,
      if g.sent = some 0x10 then Mqtt.connAck
      else if g.sent = some 0x82 then Mqtt.subAck 0
      else if n = 2 then [0x30, 0x08]
      else [0x00, 0x03] ++ Http.ascii "t/1abc", g.socket⟩ : SocketReply)
  | .close => (⟨.ok, [], 0⟩ : SocketReply)
  | .install => some (CString.lit "id")
  | .retrieveEndpoint _ =>
    (RetrieveEndpointResult.success, { Endpoint.empty with portSsl := 8883 })
  | .setConnected _ => ()
  | .pushReceived _ _ _ => ()
  | .delay _ => ()

theorem answers_hopeful (g : Watch) (c : PushCall) : discipline.answers g c (hopeful g c) := by
  cases c with
  | connect _ _ => exact ⟨fun _ => Int.one_pos, fun h => absurd rfl h⟩
  | close => exact ⟨fun _ => Int.le_refl 0, fun h => absurd rfl h⟩
  | send _ => rfl
  | recv _ => rfl
  | _ => trivial

/-- The notification is about to be handed on. -/
theorem connection_discipline_of_hopeful :
    let buffer : Buffer 32 := ⟨List.replicate 40 0, by decide, by decide⟩
    let x := Prog.advance discipline (Task.round true 300) hopeful 15
      (.done (Task.start buffer), Watch.start)
    x.1.request = some (.pushReceived ([0x30, 0x08, 0x00, 0x03] ++ Http.ascii "t/1abc" ++
        List.replicate 30 0) 7 3) ∧
      x.2.opened = 1 ∧ x.2.ConnectAccepted ∧ x.2.SubscribeAccepted := by
  intro buffer x
  have hrequest : x.1.request = some (.pushReceived ([0x30, 0x08, 0x00, 0x03] ++
      Http.ascii "t/1abc" ++ List.replicate 30 0) 7 3) := by decide +kernel
  have hreaches : Prog.Reaches discipline (Task.round true 300) (Task.start buffer) Watch.start
      x.1 x.2 := Prog.Reaches.advance answers_hopeful 15 .start
  exact ⟨hrequest, (connection_discipline true 300 buffer hreaches).2 _ hrequest⟩

end Watch

end KiiThing

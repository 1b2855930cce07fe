import KiiThing.Mqtt.Acknowledgement

/-!
# The packets read back

What `kiiMQTT_connect` and `kiiMQTT_subscribe` hand to `mqtt_socket_send_cb` is one packet of
MQTT 3.1, out of which the fields can be read (`readConnect_connectBody`,
`readSubscribe_subscribeBody`).

`Checked` has the same two packets, written into a memory in which a store that leaves the buffer is
none. Behind the size checks it is the same writer (`checked_connectPacket`,
`checked_subscribePacket`), so that every store is inside of `mqtt_buffer`, the terminators that
`strcpy` puts behind the strings among them.
-/

namespace KiiThing

open Http

variable {w : Nat}

/-! ## Stores that are checked -/

namespace Checked

/-- A store that does not leave the buffer. -/
def write (b : Buffer w) (p : Nat) (bs : List Byte) : Option (Buffer w) :=
  if p + bs.length ≤ b.size then some (b.write p bs) else none

/-- `Writer.put`. -/
def put (c : Writer w) (bs : List Byte) : Option (Writer w) := do
  let b ← write c.buffer c.i bs
  some ⟨b, c.i + bs.length⟩

/-- `Writer.putNumber`. -/
def putNumber (c : Writer w) (n : Nat) : Option (Writer w) :=
  put c [UInt8.ofNat (n / 256 % 256), UInt8.ofNat (n % 256)]

/-- `Writer.putStr`. -/
def putStr (c : Writer w) (str : CString) : Option (Writer w) := do
  let b ← write c.buffer c.i (str.bytes ++ [0])
  some ⟨b, c.i + str.length⟩

/-- `Writer.copyDown`. What is read has to be in the buffer as well. -/
def copyDown (b : Buffer w) (dst src : Nat) : Nat → Option (Buffer w)
  | 0 => some b
  | n + 1 => do
    let x ← b.bytes[src]?
    let b ← write b dst [x]
    copyDown b (dst + 1) (src + 1) n

/-- `Writer.finish`. -/
def finish (c : Writer w) (byte1 : Byte) : Option (List Byte × Buffer w) := do
  let remaining := c.i - 8
  let h ← put ⟨c.buffer, 0⟩ [byte1]
  let h ← put h (kiiMQTTEncode remaining)
  let b ← copyDown h.buffer h.i 8 remaining
  some (b.bytes.take (h.i + remaining), b)

/-- The CONNECT packet, as `kiiMQTT_connect` writes it. -/
def connectPacket (b : Buffer w) (endpoint : Endpoint) (keepAliveInterval : Nat) :
    Option (List Byte × Buffer w) := do
  let c ← put ⟨b.clear, 8⟩ ([0x00, 0x06] ++ ascii "MQIsdp" ++ [0x03, 0xc2])
  let c ← putNumber c keepAliveInterval
  let c ← putNumber c endpoint.topic.str.length
  let c ← putStr c endpoint.topic.str
  let c ← putNumber c endpoint.username.str.length
  let c ← putStr c endpoint.username.str
  let c ← putNumber c endpoint.password.str.length
  let c ← putStr c endpoint.password.str
  finish c 0x10

/-- The SUBSCRIBE packet, as `kiiMQTT_subscribe` writes it. -/
def subscribePacket (b : Buffer w) (topic : CString) (qos : Nat) : Option (List Byte × Buffer w) := do
  let c ← put ⟨b.clear, 8⟩ [0x00, 0x01]
  let c ← putNumber c topic.length
  let c ← putStr c topic
  let c ← put c [UInt8.ofNat qos]
  finish c 0x82

variable {c : Writer w}

theorem write_eq {b : Buffer w} {p : Nat} {bs : List Byte} (h : p + bs.length ≤ b.size) :
    write b p bs = some (b.write p bs) := if_pos h

theorem put_eq {bs : List Byte} (h : c.i + bs.length ≤ c.buffer.size) :
    put c bs = some (c.put bs) := by
  rw [put, write_eq h]
  rfl

theorem putNumber_eq {n : Nat} (h : c.i + 2 ≤ c.buffer.size) :
    putNumber c n = some (c.putNumber n) := put_eq h

theorem putStr_eq {str : CString} (h : c.i + (str.length + 1) ≤ c.buffer.size) :
    putStr c str = some (c.putStr str) := by
  have hlen : (str.bytes ++ [0]).length = str.length + 1 := List.length_append
  rw [putStr, write_eq (by rw [hlen]; exact h)]
  rfl

theorem copyDown_eq {b : Buffer w} {dst src n : Nat} (hle : dst ≤ src) (hfit : src + n ≤ b.size) :
    copyDown b dst src n = some (Writer.copyDown b dst src n) := by
  induction n generalizing b dst src with
  | zero => rfl
  | succ n ih =>
    have hlt : src < b.bytes.length := by
      show src < b.size
      omega
    have hstore : dst + [b.bytes[src]].length ≤ b.size := by
      rw [List.length_singleton]
      omega
    have hget : b.bytes.getD src 0 = b.bytes[src] := by simp [hlt]
    rw [copyDown, List.getElem?_eq_getElem hlt, Option.bind_eq_bind, Option.bind_some,
      write_eq hstore, Option.bind_eq_bind, Option.bind_some, Writer.copyDown, hget]
    exact ih (Nat.succ_le_succ hle) (by rw [Buffer.size_write]; omega)

theorem length_encode_le (n : Nat) : (kiiMQTTEncode n).length ≤ 5 := by
  have hloop : ∀ rounds n, (encodeLoop rounds n).length ≤ rounds := by
    intro rounds
    induction rounds with
    | zero => exact fun n => Nat.le_refl 0
    | succ rounds ih =>
      intro n
      rw [encodeLoop]
      split
      · exact Nat.succ_le_succ (ih _)
      · exact Nat.succ_le_succ (Nat.zero_le _)
  exact hloop 5 n

/-- The fixed header has six bytes at most, and what is copied down stands behind it. -/
theorem finish_eq (hi : 8 ≤ c.i) (hfit : c.i ≤ c.buffer.size) (byte1 : Byte) :
    finish c byte1 = some (c.finish byte1) := by
  obtain ⟨n, hn⟩ : ∃ n, n = c.i - 8 := ⟨_, rfl⟩
  have hlen := length_encode_le n
  have hone : put ⟨c.buffer, 0⟩ [byte1] = some ((⟨c.buffer, 0⟩ : Writer w).put [byte1]) :=
    put_eq (by rw [List.length_singleton]; show 0 + 1 ≤ c.buffer.size; omega)
  obtain ⟨h, hh⟩ : ∃ h, h = (⟨c.buffer, 0⟩ : Writer w).put [byte1] := ⟨_, rfl⟩
  have hsize : h.buffer.size = c.buffer.size := by rw [hh]; exact Buffer.size_write ..
  have hat : h.i = 1 := by rw [hh]; rfl
  have hcode : put h (kiiMQTTEncode n) = some (h.put (kiiMQTTEncode n)) := put_eq (by omega)
  have hcopy : copyDown (h.put (kiiMQTTEncode n)).buffer (h.put (kiiMQTTEncode n)).i 8 n =
      some (Writer.copyDown (h.put (kiiMQTTEncode n)).buffer (h.put (kiiMQTTEncode n)).i 8 n) := by
    apply copyDown_eq
    · show h.i + (kiiMQTTEncode n).length ≤ 8
      omega
    · show 8 + n ≤ (h.buffer.write h.i _).size
      rw [Buffer.size_write]
      omega
  unfold finish Writer.finish
  dsimp only
  rw [← hn, hone, ← hh, Option.bind_eq_bind, Option.bind_some, hcode, Option.bind_eq_bind,
    Option.bind_some, hcopy]
  rfl

@[simp] theorem size_put (c : Writer w) (bs : List Byte) : (c.put bs).buffer.size = c.buffer.size :=
  Buffer.size_write ..

@[simp] theorem i_put (c : Writer w) (bs : List Byte) : (c.put bs).i = c.i + bs.length := rfl

@[simp] theorem size_putNumber (c : Writer w) (n : Nat) :
    (c.putNumber n).buffer.size = c.buffer.size := Buffer.size_write ..

@[simp] theorem i_putNumber (c : Writer w) (n : Nat) : (c.putNumber n).i = c.i + 2 := rfl

@[simp] theorem size_putStr (c : Writer w) (str : CString) :
    (c.putStr str).buffer.size = c.buffer.size := Buffer.size_write ..

@[simp] theorem i_putStr (c : Writer w) (str : CString) : (c.putStr str).i = c.i + str.length := rfl

end Checked

/-- **Every store of `kiiMQTT_connect` is inside of the buffer.** -/
theorem checked_connectPacket {b : Buffer w} {endpoint : Endpoint} (keepAliveInterval : Nat)
    (h : connectRoom endpoint ≤ b.size) : Checked.connectPacket b endpoint keepAliveInterval =
      some (connectPacket b endpoint keepAliveInterval) := by
  have hname : (ascii "MQIsdp").length = 6 := rfl
  unfold connectRoom at h
  simp only [Checked.connectPacket, Option.bind_eq_bind]
  rw [Checked.put_eq ?_, Option.bind_some, Checked.putNumber_eq ?_, Option.bind_some,
    Checked.putNumber_eq ?_, Option.bind_some, Checked.putStr_eq ?_, Option.bind_some,
    Checked.putNumber_eq ?_, Option.bind_some, Checked.putStr_eq ?_, Option.bind_some,
    Checked.putNumber_eq ?_, Option.bind_some, Checked.putStr_eq ?_, Option.bind_some,
    Checked.finish_eq ?_ ?_]
  · rfl
  all_goals
    simp [hname]
    omega

/-- **Every store of `kiiMQTT_subscribe` is inside of the buffer.** -/
theorem checked_subscribePacket {b : Buffer w} {topic : CString} (qos : Nat)
    (h : 14 + topic.length ≤ b.size) :
    Checked.subscribePacket b topic qos = some (subscribePacket b topic qos) := by
  simp only [Checked.subscribePacket, Option.bind_eq_bind]
  rw [Checked.put_eq ?_, Option.bind_some, Checked.putNumber_eq ?_, Option.bind_some,
    Checked.putStr_eq ?_, Option.bind_some, Checked.put_eq ?_, Option.bind_some,
    Checked.finish_eq ?_ ?_]
  · rfl
  all_goals
    simp
    omega

/-! ## What is read from the packets -/

/-- The fields of the CONNECT packet: user name, password and a clean session. -/
def connectFields (endpoint : Endpoint) (keepAliveInterval : Nat) : Mqtt.Connect where
  protocolName := ascii "MQIsdp"
  level := 3
  flags := 0xc2
  keepAlive := keepAliveInterval
  clientId := endpoint.topic.str.bytes
  willTopic := none
  willMessage := none
  userName := some endpoint.username.str.bytes
  password := some endpoint.password.str.bytes

/-- The fields of the SUBSCRIBE packet. -/
def subscribeFields (topic : CString) (qos : Nat) : Mqtt.Subscribe where
  packetId := 1
  topics := [(topic.bytes, qos)]

/-- **CONNECT reads back.** -/
theorem readConnect_connectBody {endpoint : Endpoint} {keepAliveInterval : Nat}
    (hkeep : keepAliveInterval < 2 ^ 16) :
    Mqtt.readConnect (Mqtt.packet 0x10 (connectBody endpoint keepAliveInterval)) =
      some (connectFields endpoint keepAliveInterval) := by
  have htopic : endpoint.topic.str.bytes.length < 2 ^ 16 :=
    Nat.lt_trans endpoint.topic.length_lt (by decide)
  have husername : endpoint.username.str.bytes.length < 2 ^ 16 :=
    Nat.lt_trans endpoint.username.length_lt (by decide)
  have hpassword : endpoint.password.str.bytes.length < 2 ^ 16 :=
    Nat.lt_trans endpoint.password.length_lt (by decide)
  have hhigh : keepAliveInterval / 256 % 256 = keepAliveInterval / 256 :=
    Nat.mod_eq_of_lt (Nat.div_lt_of_lt_mul hkeep)
  have hbody : connectBody endpoint keepAliveInterval = Mqtt.string (ascii "MQIsdp") ++
      (0x03 :: 0xc2 :: UInt8.ofNat (keepAliveInterval / 256) ::
        UInt8.ofNat (keepAliveInterval % 256) :: (Mqtt.string endpoint.topic.str.bytes ++
          (Mqtt.string endpoint.username.str.bytes ++
            (Mqtt.string endpoint.password.str.bytes ++ [])))) := by
    simp only [connectBody, hhigh, List.append_assoc, List.append_nil]
    rfl
  have hlt : (connectBody endpoint keepAliveInterval).length < Mqtt.maxLength := by
    have hlen := length_connectBody endpoint keepAliveInterval
    have := endpoint.topic.length_lt
    have := endpoint.username.length_lt
    have := endpoint.password.length_lt
    rw [hlen, Mqtt.maxLength]
    omega
  rw [Mqtt.readConnect, Mqtt.readPacket_packet hlt, Option.bind_eq_bind, Option.bind_some]
  dsimp only
  rw [if_neg (by decide), hbody, Mqtt.readString_string (by decide), Option.bind_eq_bind,
    Option.bind_some]
  dsimp only
  rw [Mqtt.readConnectFields, Mqtt.readNumber_bytes hkeep]
  simp only [Option.bind_eq_bind, Option.bind_some, Mqtt.readString_string htopic]
  rw [Mqtt.readField_none (by decide), Option.bind_some, Mqtt.readField_none (by decide),
    Option.bind_some, Mqtt.readField_string (by decide) husername, Option.bind_some,
    Mqtt.readField_string (by decide) hpassword, Option.bind_some]
  rfl

/-- **SUBSCRIBE reads back.** -/
theorem readSubscribe_subscribeBody {topic : CString} {qos : Nat} (htopic : topic.length < 2 ^ 16)
    (hqos : qos ≤ 2) : Mqtt.readSubscribe (Mqtt.packet 0x82 (subscribeBody topic qos)) =
      some (subscribeFields topic qos) := by
  have hbody : subscribeBody topic qos = 0x00 :: 0x01 ::
      (Mqtt.string topic.bytes ++ [UInt8.ofNat qos]) := rfl
  have hlt : (subscribeBody topic qos).length < Mqtt.maxLength := by
    have hlen := length_subscribeBody topic qos
    rw [hlen, Mqtt.maxLength]
    omega
  have hbyte : (UInt8.ofNat qos).toNat = qos := Mqtt.toNat_ofNat_lt (by omega)
  obtain ⟨rounds, hrounds⟩ : ∃ rounds,
      (Mqtt.string topic.bytes ++ [UInt8.ofNat qos]).length = rounds + 1 :=
    ⟨_, List.length_append⟩
  rw [Mqtt.readSubscribe, Mqtt.readPacket_packet hlt, Option.bind_eq_bind, Option.bind_some]
  dsimp only
  rw [if_neg (by decide), hbody, Mqtt.readNumber, Option.bind_eq_bind, Option.bind_some]
  dsimp only
  rw [hrounds, Mqtt.readTopics_string htopic (by rw [hbyte]; exact hqos), Mqtt.readTopics, hbyte]
  rfl

/-! ## What is handed to the socket -/

/-- The packets that were handed to `mqtt_socket_send_cb`, and whether a socket was refused. -/
structure Outgoing where
  packets : List (List Byte)
  refused : Bool

/-- The surroundings that write down what is sent, and answer in any way. -/
def sending : Contract PushCall PushCall.Reply Outgoing where
  allowed _ _ := True
  answers _ _ _ := True
  next t c r :=
    match c, r with
    | .send data, _ => { t with packets := t.packets ++ [data] }
    | .connect _ _, r => { t with refused := t.refused || SocketReply.code r ≠ .ok }
    | .close, r => { t with refused := t.refused || SocketReply.code r ≠ .ok }
    | _, _ => t

/-- In every run, whatever is answered, nothing is sent where the socket is refused, and otherwise
one packet, of which `P` holds. -/
def SendsOne (p : PushProg (Int × Push w)) (P : List Byte → Prop) : Prop :=
  p.Meets sending ⟨[], false⟩ fun _ t =>
    if t.refused then t.packets = [] else ∃ data, t.packets = [data] ∧ P data

section

variable {m : Push w} {P : List Byte → Prop} {packet : List Byte × Buffer w}

theorem handshake_sends (hpacket : P packet.1) (length : Nat) (ack : List Byte) :
    SendsOne (handshake m packet length ack) P := by
  have hdone : ∃ data, [] ++ [packet.1] = [data] ∧ P data := ⟨_, rfl, hpacket⟩
  refine ⟨trivial, fun r _ => ?_⟩
  show Prog.Meets sending (if SocketReply.code r ≠ .ok then _ else _) ⟨[] ++ [packet.1], false⟩ _
  split
  · exact hdone
  · refine ⟨trivial, fun r' _ => ?_⟩
    show Prog.Meets sending (if SocketReply.code r' ≠ .ok then _ else _) ⟨[] ++ [packet.1], false⟩ _
    split
    · exact hdone
    · dsimp only
      split
      · exact hdone
      · exact hdone

theorem openSocket_sends {endpoint : Endpoint} {keepAliveInterval : Nat}
    (hroom : connectRoom endpoint ≤ m.buffer.size)
    (hpacket : P (connectPacket m.buffer endpoint keepAliveInterval).1) :
    SendsOne (openSocket m endpoint keepAliveInterval) P := by
  refine ⟨trivial, fun r _ => ?_⟩
  obtain ⟨t, ht⟩ : ∃ t, t = sending.next ⟨[], false⟩
      (.connect endpoint.host.str endpoint.portSsl) r := ⟨_, rfl⟩
  rw [← ht]
  show Prog.Meets sending (if SocketReply.code r ≠ .ok then _ else if m.buffer.size = 0 then _
    else if m.buffer.size < connectRoom endpoint then _ else _) t _
  have hsome : 27 ≤ m.buffer.size := by
    unfold connectRoom at hroom
    omega
  by_cases hcode : SocketReply.code r = .ok
  · have hopen : t = ⟨[], false⟩ := by simp [ht, sending, hcode]
    rw [if_neg (not_not.mpr hcode), if_neg (by omega), if_neg (by omega), hopen]
    exact handshake_sends (m := ⟨SocketReply.socket r, m.buffer⟩) hpacket _ _
  · have hrefused : t = ⟨[], true⟩ := by simp [ht, sending, hcode]
    rw [if_pos hcode, hrefused]
    simp

theorem kiiMQTTConnect_sends {endpoint : Endpoint} {keepAliveInterval : Nat}
    (hroom : connectRoom endpoint ≤ m.buffer.size)
    (hpacket : P (connectPacket m.buffer endpoint keepAliveInterval).1) :
    SendsOne (kiiMQTTConnect m endpoint keepAliveInterval) P := by
  rw [kiiMQTTConnect, closeOpened]
  split
  · refine ⟨trivial, fun r _ => ?_⟩
    show Prog.Meets sending (if SocketReply.code r ≠ .ok then _ else _) _ _
    by_cases hcode : SocketReply.code r = .ok
    · have hopen : sending.next ⟨[], false⟩ .close r = ⟨[], false⟩ := by simp [sending, hcode]
      rw [if_neg (not_not.mpr hcode), hopen]
      exact openSocket_sends (m := ⟨SocketReply.socket r, m.buffer⟩) hroom hpacket
    · have hrefused : sending.next ⟨[], false⟩ .close r = ⟨[], true⟩ := by simp [sending, hcode]
      rw [if_pos hcode, hrefused]
      simp
  · exact openSocket_sends hroom hpacket

theorem kiiMQTTSubscribe_sends {topic : CString} {qos : Nat}
    (hroom : 14 + topic.length ≤ m.buffer.size)
    (hpacket : P (subscribePacket m.buffer topic qos).1) :
    SendsOne (kiiMQTTSubscribe m topic qos) P := by
  rw [kiiMQTTSubscribe, if_neg (by omega), if_neg (by omega)]
  exact handshake_sends hpacket _ _

end

/-- **The packets of the client are MQTT packets**, and are written inside of `mqtt_buffer`. -/
theorem packets_readBack :
    (∀ (m : Push w) (endpoint : Endpoint) (keepAliveInterval : Nat),
      keepAliveInterval < 2 ^ 16 → connectRoom endpoint ≤ m.buffer.size →
      SendsOne (kiiMQTTConnect m endpoint keepAliveInterval) (fun data =>
          Mqtt.readConnect data = some (connectFields endpoint keepAliveInterval)) ∧
        Checked.connectPacket m.buffer endpoint keepAliveInterval =
          some (connectPacket m.buffer endpoint keepAliveInterval)) ∧
      ∀ (m : Push w) (endpoint : Endpoint) (qos : Nat),
      qos ≤ 2 → 14 + endpoint.topic.str.length ≤ m.buffer.size →
      SendsOne (kiiMQTTSubscribe m endpoint.topic.str qos) (fun data =>
          Mqtt.readSubscribe data = some (subscribeFields endpoint.topic.str qos)) ∧
        Checked.subscribePacket m.buffer endpoint.topic.str qos =
          some (subscribePacket m.buffer endpoint.topic.str qos) := by
  refine ⟨?_, ?_⟩
  · intro m endpoint keepAliveInterval hkeep hroom
    refine ⟨kiiMQTTConnect_sends hroom ?_, checked_connectPacket keepAliveInterval hroom⟩
    rw [(connectPacket_eq keepAliveInterval hroom).1]
    exact readConnect_connectBody hkeep
  · intro m endpoint qos hqos hroom
    have htopic : endpoint.topic.str.length < 2 ^ 16 :=
      Nat.lt_trans endpoint.topic.length_lt (by decide)
    refine ⟨kiiMQTTSubscribe_sends hroom ?_, checked_subscribePacket qos hroom⟩
    rw [(subscribePacket_eq qos htopic hroom).1]
    exact readSubscribe_subscribeBody htopic hqos

/-- An endpoint as the server answers it. -/
def namedEndpoint : Endpoint :=
  { Endpoint.empty with
    username := ⟨.lit "user-7", by decide⟩
    password := ⟨.lit "secret", by decide⟩
    topic := ⟨.lit "topic", by decide⟩
    host := ⟨.lit "broker", by decide⟩
    portSsl := 8883 }

/-- A buffer of 64 bytes has room for both of its packets. -/
theorem packets_readBack_of_open :
    (SendsOne (kiiMQTTConnect openPush namedEndpoint 300) (fun data =>
        Mqtt.readConnect data = some (connectFields namedEndpoint 300)) ∧
      Checked.connectPacket openPush.buffer namedEndpoint 300 =
        some (connectPacket openPush.buffer namedEndpoint 300)) ∧
    SendsOne (kiiMQTTSubscribe openPush namedEndpoint.topic.str 1) (fun data =>
        Mqtt.readSubscribe data = some (subscribeFields namedEndpoint.topic.str 1)) ∧
      Checked.subscribePacket openPush.buffer namedEndpoint.topic.str 1 =
        some (subscribePacket openPush.buffer namedEndpoint.topic.str 1) :=
  ⟨packets_readBack.1 openPush namedEndpoint 300 (by decide) (by decide),
    packets_readBack.2 openPush namedEndpoint 1 (by decide) (by decide)⟩

end KiiThing

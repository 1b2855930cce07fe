import KiiThing.Mqtt.Basic
import KiiThing.Lib.Mqtt

/-!
# Packets of the client

`kii_mqtt.c`: the three packets that the client sends, and the two answers it waits for.

CONNECT and SUBSCRIBE are written in two steps. Everything behind the remaining length goes into the
buffer from the eighth byte on, since the length is not known before; then the fixed header goes to
its beginning, and the rest is copied down behind it, byte by byte. `connectPacket_eq` and
`subscribePacket_eq` are what is sent.
-/

namespace KiiThing

open Http

variable {w : Nat}

/-! ## The functions of the source -/

/-- The loop of `kiiMQTT_encode`. -/
def encodeLoop : Nat → Nat → List Byte
  | 0, _ => []
  | rounds + 1, length =>
    let d := UInt8.ofNat (length % 128)
    if 0 < length / 128 then (d ||| 0x80) :: encodeLoop rounds (length / 128) else [d]

/-- `kiiMQTT_encode`: the bytes it writes. An `int` has at most five figures to the base 128. -/
def kiiMQTTEncode (length : Nat) : List Byte := encodeLoop 5 length

/-- The buffer and the index `i` of the next byte. -/
structure Writer (w : Nat) where
  buffer : Buffer w
  i : Nat

namespace Writer

/-- `mqtt_buffer[i++] = b`, for several bytes. -/
def put (c : Writer w) (bs : List Byte) : Writer w := ⟨c.buffer.write c.i bs, c.i + bs.length⟩

/-- A number below 2^16, the high byte first. -/
def putNumber (c : Writer w) (n : Nat) : Writer w :=
  c.put [UInt8.ofNat (n / 256 % 256), UInt8.ofNat (n % 256)]

/-- `strcpy`, which stores a terminator; `i` then stands on it. -/
def putStr (c : Writer w) (str : CString) : Writer w :=
  ⟨c.buffer.write c.i (str.bytes ++ [0]), c.i + str.length⟩

/-- The loop that copies `n` bytes from `src` down to `dst`. -/
def copyDown (b : Buffer w) (dst src : Nat) : Nat → Buffer w
  | 0 => b
  | n + 1 => copyDown (b.write dst [b.bytes.getD src 0]) (dst + 1) (src + 1) n

/-- The fixed header, and the bytes from the eighth on behind it: the bytes that are sent, and the
buffer. -/
def finish (c : Writer w) (byte1 : Byte) : List Byte × Buffer w :=
  let remaining := c.i - 8
  let h := ((⟨c.buffer, 0⟩ : Writer w).put [byte1]).put (kiiMQTTEncode remaining)
  let b := copyDown h.buffer h.i 8 remaining
  (b.bytes.take (h.i + remaining), b)

end Writer

/-- The CONNECT packet, as `kiiMQTT_connect` writes it. -/
def connectPacket (b : Buffer w) (endpoint : Endpoint) (keepAliveInterval : Nat) :
    List Byte × Buffer w :=
  let c : Writer w := ⟨b.clear, 8⟩
  let c := c.put ([0x00, 0x06] ++ ascii "MQIsdp" ++ [0x03, 0xc2])
  let c := c.putNumber keepAliveInterval
  let c := (c.putNumber endpoint.topic.str.length).putStr endpoint.topic.str
  let c := (c.putNumber endpoint.username.str.length).putStr endpoint.username.str
  let c := (c.putNumber endpoint.password.str.length).putStr endpoint.password.str
  c.finish 0x10

/-- The SUBSCRIBE packet, as `kiiMQTT_subscribe` writes it. -/
def subscribePacket (b : Buffer w) (topic : CString) (qos : Nat) : List Byte × Buffer w :=
  let c : Writer w := ⟨b.clear, 8⟩
  let c := c.put [0x00, 0x01]
  let c := (c.putNumber topic.length).putStr topic
  let c := c.put [UInt8.ofNat qos]
  c.finish 0x82

/-- The answer, read into the cleared buffer, has to be `ack` by its length and its first four
bytes. -/
def awaitAnswer (m : Push w) (length : Nat) (ack : List Byte) : PushProg (Int × Push w) := do
  let (received, actualLength, m) ← Push.recvCb { m with buffer := m.buffer.clear } 0 m.buffer.size
  if received ≠ .ok then .done (-1, m)
  else if actualLength = length ∧ m.buffer.bytes.take 4 = ack then .done (0, m)
  else .done (-1, m)

/-- The end of both functions: the packet is sent, and the answer awaited. -/
def handshake (m : Push w) (packet : List Byte × Buffer w) (length : Nat) (ack : List Byte) :
    PushProg (Int × Push w) := do
  let (sent, m) ← Push.sendCb { m with buffer := packet.2 } packet.1
  if sent ≠ .ok then .done (-1, m)
  else awaitAnswer m length ack

/-- The beginning of `kiiMQTT_connect`: a socket that was opened before is closed. -/
def closeOpened (m : Push w) : PushProg (SocketCode × Push w) :=
  if 0 < m.socket then m.closeCb else .done (.ok, m)

/-- What follows in `kiiMQTT_connect`: a new socket, and the packet on it. -/
def openSocket (m : Push w) (endpoint : Endpoint) (keepAliveInterval : Nat) :
    PushProg (Int × Push w) := do
  let (connected, m) ← Push.connectCb m endpoint.host.str endpoint.portSsl
  if connected ≠ .ok then .done (-1, m)
  else if m.buffer.size = 0 then .done (-1, m)
  else if m.buffer.size < 27 + endpoint.topic.str.length + endpoint.username.str.length +
      endpoint.password.str.length then .done (-1, m)
  else handshake m (connectPacket m.buffer endpoint keepAliveInterval) 4 [0x20, 0x02, 0x00, 0x00]

/-- `kiiMQTT_connect`. -/
def kiiMQTTConnect (m : Push w) (endpoint : Endpoint) (keepAliveInterval : Nat) :
    PushProg (Int × Push w) := do
  let (closed, m) ← closeOpened m
  if closed ≠ .ok then .done (-1, m)
  else openSocket m endpoint keepAliveInterval

/-- `kiiMQTT_subscribe`. -/
def kiiMQTTSubscribe (m : Push w) (topic : CString) (qos : Nat) : PushProg (Int × Push w) :=
  if m.buffer.size = 0 then .done (-1, m)
  else if m.buffer.size < 14 + topic.length then .done (-1, m)
  else handshake m (subscribePacket m.buffer topic qos) 5 [0x90, 0x03, 0x00, 0x01]

/-- `kiiMQTT_pingReq`. -/
def kiiMQTTPingReq (m : Push w) : PushProg (Int × Push w) := do
  let (sent, m) ← m.sendCb [0xc0, 0x00]
  if sent ≠ .ok then .done (-1, m) else .done (0, m)

/-! ## What is written -/

theorem or_high_bit {n : Nat} (h : n < 128) : UInt8.ofNat n ||| 0x80 = UInt8.ofNat (n + 128) := by
  apply UInt8.toNat_inj.mp
  have hor : n ||| 128 = n + 128 := by
    have hsum := Nat.two_pow_add_eq_or_of_lt (i := 7) (b := n) (by omega) 1
    rw [Nat.or_comm, ← show 2 ^ 7 * 1 = 128 from rfl, ← hsum, Nat.add_comm]
  rw [UInt8.toNat_or, Mqtt.toNat_ofNat_lt (by omega), Mqtt.toNat_ofNat_lt (by omega)]
  exact hor

theorem encodeLoop_eq {rounds k n : Nat} (hk : k < rounds) (hn : n < 128 ^ (k + 1)) :
    encodeLoop rounds n = Mqtt.figures k n := by
  induction rounds generalizing k n with
  | zero => exact absurd hk (Nat.not_lt_zero k)
  | succ rounds ih =>
    have hmod : n % 128 < 128 := Nat.mod_lt n (by decide)
    rw [encodeLoop]
    cases k with
    | zero =>
      have hsmall : ¬ 0 < n / 128 := by
        have : n < 128 := by simpa using hn
        omega
      rw [if_neg hsmall, Mqtt.figures]
    | succ k =>
      rw [Mqtt.figures]
      by_cases hlt : n < 128
      · have hsmall : ¬ 0 < n / 128 := by omega
        rw [if_neg hsmall, if_pos hlt, Nat.mod_eq_of_lt hlt]
      · have hbig : 0 < n / 128 := by omega
        have hdiv : n / 128 < 128 ^ (k + 1) := by
          rw [Nat.pow_succ, Nat.mul_comm] at hn
          exact Nat.div_lt_of_lt_mul hn
        rw [if_pos hbig, if_neg hlt, or_high_bit hmod, ih (by omega) hdiv]

/-- **The remaining length is written as the format has it.** -/
theorem kiiMQTTEncode_eq {n : Nat} (h : n < Mqtt.maxLength) :
    kiiMQTTEncode n = Mqtt.remainingLength n := encodeLoop_eq (by decide) h

namespace Writer

/-- Behind the eighth byte stands `bs`, and `i` is behind it. -/
structure Written (c : Writer w) (size : Nat) (bs : List Byte) : Prop where
  size_eq : c.buffer.size = size
  i_eq : c.i = 8 + bs.length
  text : Memory.slice c.buffer.bytes 8 bs.length = bs

section

variable {c : Writer w} {size : Nat} {bs : List Byte}

theorem Written.write (h : c.Written size bs) (new rest : List Byte)
    (hfit : 8 + bs.length + new.length + rest.length ≤ size) :
    (⟨c.buffer.write c.i (new ++ rest), c.i + new.length⟩ : Writer w).Written size (bs ++ new) := by
  have hsize : c.buffer.bytes.length = size := h.size_eq
  refine ⟨?_, ?_, ?_⟩
  · rw [Buffer.size_write, h.size_eq]
  · rw [List.length_append, h.i_eq, Nat.add_assoc]
  · rw [List.length_append, h.i_eq]
    show Memory.slice (Memory.overwrite c.buffer.bytes (8 + bs.length) (new ++ rest)) 8 _ = _
    rw [Memory.slice_overwrite_append (by omega), h.text]

theorem Written.put (h : c.Written size bs) (new : List Byte)
    (hfit : 8 + bs.length + new.length ≤ size) : (c.put new).Written size (bs ++ new) := by
  have hnew := h.write new [] (by rw [List.length_nil]; exact hfit)
  rw [List.append_nil] at hnew
  exact hnew

theorem Written.putStr (h : c.Written size bs) (str : CString)
    (hfit : 8 + bs.length + str.length + 1 ≤ size) :
    (c.putStr str).Written size (bs ++ str.bytes) := h.write str.bytes [0] hfit

/-- A string with its length in front. -/
theorem Written.putString (h : c.Written size bs) (str : CString)
    (hlt : str.length < 2 ^ 16) (hfit : 8 + bs.length + (str.length + 2) + 1 ≤ size) :
    ((c.putNumber str.length).putStr str).Written size (bs ++ Mqtt.string str.bytes) := by
  have hhigh : str.length / 256 % 256 = str.length / 256 := Nat.mod_eq_of_lt (by omega)
  have hnumber := h.put [UInt8.ofNat (str.length / 256 % 256), UInt8.ofNat (str.length % 256)] (by
    rw [show [UInt8.ofNat (str.length / 256 % 256), UInt8.ofNat (str.length % 256)].length = 2
      from rfl]
    omega)
  have hstr := hnumber.putStr str (by
    rw [List.length_append, List.length_cons, List.length_singleton]
    omega)
  rw [hhigh, List.append_assoc] at hstr
  have hsame : (c.putNumber str.length).putStr str =
      (c.put [UInt8.ofNat (str.length / 256), UInt8.ofNat (str.length % 256)]).putStr str := by
    rw [putNumber, hhigh]
  rw [hsame]
  exact hstr

end

/-- Copying down is one store, although the ranges overlap. -/
theorem copyDown_eq {b : Buffer w} {dst src n : Nat} (hle : dst ≤ src) (hfit : src + n ≤ b.size) :
    copyDown b dst src n = b.write dst (Memory.slice b.bytes src n) := by
  induction n generalizing b dst src with
  | zero =>
    apply Buffer.ext
    show b.bytes = Memory.overwrite b.bytes dst []
    rw [Memory.overwrite_nil]
  | succ n ih =>
    have hsize : b.bytes.length = b.size := rfl
    have hlt : src < b.bytes.length := by omega
    have hstore : dst + [b.bytes.getD src 0].length ≤ b.bytes.length := by
      rw [List.length_singleton]
      omega
    have hcons : Memory.slice b.bytes src (n + 1) =
        [b.bytes.getD src 0] ++ Memory.slice b.bytes (src + 1) n := by
      rw [Memory.slice, List.drop_eq_getElem_cons hlt, List.take_succ_cons,
        List.getD_eq_getElem?_getD, List.getElem?_eq_getElem hlt]
      rfl
    have hsame : Memory.slice (b.write dst [b.bytes.getD src 0]).bytes (src + 1) n =
        Memory.slice b.bytes (src + 1) n := by
      show (List.drop (src + 1) (Memory.overwrite b.bytes dst _)).take n = _
      rw [Memory.drop_overwrite_of_le (by rw [List.length_singleton]; omega) hstore]
      rfl
    rw [copyDown, ih (by omega) (by rw [Buffer.size_write]; omega), hsame, hcons]
    apply Buffer.ext
    have hlen : (Memory.slice b.bytes (src + 1) n).length = n := by
      rw [Memory.slice, List.length_take, List.length_drop]
      omega
    have hboth : dst + [b.bytes.getD src 0].length + (Memory.slice b.bytes (src + 1) n).length ≤
        b.bytes.length := by
      rw [List.length_singleton, hlen]
      omega
    exact Memory.overwrite_overwrite hboth

/-- **The packet that is sent**, when all that follows the remaining length was written. -/
theorem Written.finish {c : Writer w} {size : Nat} {bs : List Byte} (h : c.Written size bs)
    (hfit : 8 + bs.length ≤ size) (hlt : bs.length < Mqtt.maxLength) (byte1 : Byte) :
    (c.finish byte1).1 = Mqtt.packet byte1 bs ∧ (c.finish byte1).2.size = size := by
  have hn : c.i - 8 = bs.length := by rw [h.i_eq, Nat.add_sub_cancel_left]
  have hsize : c.buffer.bytes.length = size := h.size_eq
  have hfour := (Mqtt.length_remainingLength bs.length).2
  obtain ⟨e, he⟩ : ∃ e, e = Mqtt.remainingLength bs.length := ⟨_, rfl⟩
  rw [← he] at hfour
  -- the fixed header is one store
  have hheader : (((⟨c.buffer, 0⟩ : Writer w).put [byte1]).put e).buffer =
      c.buffer.write 0 ([byte1] ++ e) := by
    have hstore : 0 + [byte1].length + e.length ≤ c.buffer.bytes.length := by
      rw [List.length_singleton]
      omega
    apply Buffer.ext
    exact Memory.overwrite_overwrite hstore
  have hi : (((⟨c.buffer, 0⟩ : Writer w).put [byte1]).put e).i = ([byte1] ++ e).length := by
    rw [List.length_append]
    show 0 + _ + _ = _
    omega
  have hlen : ([byte1] ++ e).length ≤ 8 := by
    rw [List.length_append, List.length_singleton]
    omega
  have hslice : Memory.slice (c.buffer.write 0 ([byte1] ++ e)).bytes 8 bs.length = bs := by
    show (List.drop 8 (Memory.overwrite c.buffer.bytes 0 _)).take _ = _
    rw [Memory.drop_overwrite_of_le (by omega) (by omega)]
    exact h.text
  have hcopy : copyDown (c.buffer.write 0 ([byte1] ++ e)) ([byte1] ++ e).length 8 bs.length =
      c.buffer.write 0 (([byte1] ++ e) ++ bs) := by
    rw [copyDown_eq hlen (by rw [Buffer.size_write, h.size_eq]; exact hfit), hslice]
    apply Buffer.ext
    have hboth : 0 + ([byte1] ++ e).length + bs.length ≤ c.buffer.bytes.length := by omega
    have hjoin := Memory.overwrite_overwrite hboth
    rw [Nat.zero_add] at hjoin
    exact hjoin
  have htake : (c.buffer.write 0 (([byte1] ++ e) ++ bs)).bytes.take
      (([byte1] ++ e).length + bs.length) = Mqtt.packet byte1 bs := by
    show (Memory.overwrite c.buffer.bytes 0 _).take _ = _
    rw [Memory.overwrite_of_le (by rw [List.length_append]; omega), List.take_zero, List.nil_append,
      ← List.length_append, List.take_left, he]
    rfl
  unfold Writer.finish
  dsimp only
  rw [hn, kiiMQTTEncode_eq hlt, ← he, hheader, hi, hcopy]
  exact ⟨htake, by rw [Buffer.size_write, h.size_eq]⟩

end Writer

/-! ## What is sent -/

/-- What follows the remaining length of a CONNECT packet. -/
def connectBody (endpoint : Endpoint) (keepAliveInterval : Nat) : List Byte :=
  [0x00, 0x06] ++ ascii "MQIsdp" ++ [0x03, 0xc2] ++
    [UInt8.ofNat (keepAliveInterval / 256 % 256), UInt8.ofNat (keepAliveInterval % 256)] ++
    Mqtt.string endpoint.topic.str.bytes ++ Mqtt.string endpoint.username.str.bytes ++
    Mqtt.string endpoint.password.str.bytes

/-- What follows the remaining length of a SUBSCRIBE packet. -/
def subscribeBody (topic : CString) (qos : Nat) : List Byte :=
  [0x00, 0x01] ++ Mqtt.string topic.bytes ++ [UInt8.ofNat qos]

/-- The PINGREQ packet. -/
def pingReq : List Byte := Mqtt.packet 0xc0 []

theorem length_connectBody (endpoint : Endpoint) (keepAliveInterval : Nat) :
    (connectBody endpoint keepAliveInterval).length = 18 + endpoint.topic.str.length +
      endpoint.username.str.length + endpoint.password.str.length := by
  have hname : (ascii "MQIsdp").length = 6 := rfl
  simp only [connectBody, List.length_append, List.length_cons, List.length_nil,
    Mqtt.length_string, hname, CString.length]
  omega

theorem length_subscribeBody (topic : CString) (qos : Nat) :
    (subscribeBody topic qos).length = topic.length + 5 := by
  simp only [subscribeBody, List.length_append, List.length_cons, List.length_nil,
    Mqtt.length_string, CString.length]
  omega

theorem written_clear (b : Buffer w) : (⟨b.clear, 8⟩ : Writer w).Written b.size [] :=
  ⟨Buffer.size_clear b, rfl, rfl⟩

/-- **CONNECT.** -/
theorem connectPacket_eq {b : Buffer w} {endpoint : Endpoint} (keepAliveInterval : Nat)
    (h : 27 + endpoint.topic.str.length + endpoint.username.str.length +
      endpoint.password.str.length ≤ b.size) :
    (connectPacket b endpoint keepAliveInterval).1 =
        Mqtt.packet 0x10 (connectBody endpoint keepAliveInterval) ∧
      (connectPacket b endpoint keepAliveInterval).2.size = b.size := by
  have htopic := endpoint.topic.length_lt
  have husername := endpoint.username.length_lt
  have hpassword := endpoint.password.length_lt
  have hname : (ascii "MQIsdp").length = 6 := rfl
  have hwritten := ((((written_clear b).put ([0x00, 0x06] ++ ascii "MQIsdp" ++ [0x03, 0xc2]) (by
      simp only [List.length_append, List.length_cons, List.length_nil, hname]
      omega)).put [UInt8.ofNat (keepAliveInterval / 256 % 256),
        UInt8.ofNat (keepAliveInterval % 256)] (by
      simp only [List.length_append, List.length_cons, List.length_nil, hname]
      omega)).putString endpoint.topic.str (by omega) (by
      simp only [List.length_append, List.length_cons, List.length_nil, hname]
      omega)).putString endpoint.username.str (by omega) (by
      simp only [List.length_append, List.length_cons, List.length_nil, Mqtt.length_string, hname]
      have : endpoint.topic.str.bytes.length = endpoint.topic.str.length := rfl
      omega)
  have hall := hwritten.putString endpoint.password.str (by omega) (by
    simp only [List.length_append, List.length_cons, List.length_nil, Mqtt.length_string, hname]
    have : endpoint.topic.str.bytes.length = endpoint.topic.str.length := rfl
    have : endpoint.username.str.bytes.length = endpoint.username.str.length := rfl
    omega)
  rw [List.nil_append] at hall
  have hlen := length_connectBody endpoint keepAliveInterval
  apply hall.finish
  · show 8 + (connectBody endpoint keepAliveInterval).length ≤ _
    omega
  · show (connectBody endpoint keepAliveInterval).length < 2 ^ 28
    omega

/-- **SUBSCRIBE.** -/
theorem subscribePacket_eq {b : Buffer w} {topic : CString} (qos : Nat) (hlt : topic.length < 2 ^ 16)
    (h : 14 + topic.length ≤ b.size) :
    (subscribePacket b topic qos).1 = Mqtt.packet 0x82 (subscribeBody topic qos) ∧
      (subscribePacket b topic qos).2.size = b.size := by
  have hwritten := (((written_clear b).put [0x00, 0x01] (by
      simp only [List.length_cons, List.length_nil]
      omega)).putString topic hlt (by
      simp only [List.length_append, List.length_cons, List.length_nil]
      omega)).put [UInt8.ofNat qos] (by
      simp only [List.length_append, List.length_cons, List.length_nil, Mqtt.length_string]
      have : topic.bytes.length = topic.length := rfl
      omega)
  rw [List.nil_append] at hwritten
  have hlen := length_subscribeBody topic qos
  apply hwritten.finish
  · show 8 + (subscribeBody topic qos).length ≤ _
    omega
  · show (subscribeBody topic qos).length < 2 ^ 28
    omega

/-! ## What is compared -/

/-- The first bytes of an answer, in the cleared buffer. -/
theorem take_answer {b : Buffer w} {data : List Byte} (hdata : 4 ≤ data.length)
    (hsize : 4 ≤ b.size) : (b.clear.write 0 data).bytes.take 4 = data.take 4 := by
  have hclear : 0 + 4 ≤ b.clear.bytes.length := by
    rw [← Buffer.size, Buffer.size_clear]
    omega
  exact Memory.take_overwrite_add hdata hclear

end KiiThing

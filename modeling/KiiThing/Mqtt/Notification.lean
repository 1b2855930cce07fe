import KiiThing.Mqtt.Basic
import KiiThing.Lib.Mqtt
import Mathlib.Data.Nat.Bitwise
import Mathlib.Tactic.Ring

/-!
# Receiving a notification

`kiiPush_receivePushNotification` reads two bytes, then eight more whatever the length of the
packet, takes the remaining length from them, and reads the rest in as many pieces as it comes in.

What the reads deliver is an arbitrary relation `D`: what may come as the answer to a read, after
the pieces that came before. `Feeds` says that they are cut off a stream one after the other, and
`receive_publish` is what the function does with a PUBLISH packet that stands next in it.
-/

namespace KiiThing

variable {w : Nat}

/-! ## The functions of the source -/

/-- The value of a `char`, which is signed on some targets. -/
def charValue (signed : Bool) (b : Byte) : Int :=
  if signed ∧ 128 ≤ b.toNat then (b.toNat : Int) - 256 else b.toNat

/-- The loop of `kiiMQTT_decode`: its result and `*value`. No round is left when `++len > 4`. -/
def decodeLoop : Nat → List Byte → Nat → Nat → Nat → Int × Nat
  | 0, _, _, _, value => (-1, value)
  | rounds + 1, buf, len, multiplier, value =>
    let value := value + (buf.headD 0 &&& 127).toNat * multiplier
    if buf.headD 0 &&& 128 ≠ 0 then
      decodeLoop rounds buf.tail (len + 1) (multiplier * 128) value
    else (((len + 1 : Nat) : Int), value)

/-- `kiiMQTT_decode`. -/
def kiiMQTTDecode (buf : List Byte) : Int × Nat := decodeLoop 4 buf 0 1 0

/-- The loop that reads the rest of a packet: `bytes` behind it. Every round but the last one reads
a byte at least, so that `totalLen - bytes` rounds are enough. -/
def receiveRest (totalLen : Nat) : Nat → Nat → Push w → PushProg (Nat × Push w)
  | 0, bytes, m => .done (bytes, m)
  | rounds + 1, bytes, m =>
    if bytes < totalLen then do
      let (_, rcvdCounter, m) ← m.recvCb bytes (totalLen - bytes)
      if 0 < rcvdCounter then receiveRest totalLen rounds (bytes + rcvdCounter) m
      -- `bytes = -1`, in a `size_t`
      else .done (2 ^ w - 1, m)
    else .done (bytes, m)

/-- The end of `kiiPush_receivePushNotification`: the message behind the topic is handed on. -/
def deliver (signed : Bool) (m : Push w) (byteLen remainingLen : Nat) : PushProg (Int × Push w) :=
  let p := m.buffer.bytes.drop (1 + byteLen)
  let topicLen := charValue signed (p.getD 0 0) * 256 + charValue signed (p.getD 1 0)
  let messageLength := (remainingLen : Int) - 2 - topicLen
  if 0 < messageLength then
    .ask (.pushReceived m.buffer.bytes ((1 + byteLen + 2 : Nat) + topicLen)
      (messageLength.toNat % 2 ^ w)) fun _ => .done (0, m)
  else .done (-1, m)

/-- `kiiPush_receivePushNotification`. The codes that the reads return are not looked at. -/
def kiiPushReceivePushNotification (signed : Bool) (m : Push w) : PushProg (Int × Push w) := do
  let (_, rcvdCounter, m) ← Push.recvCb { m with buffer := m.buffer.clear } 0 2
  if rcvdCounter ≠ 2 then .done (-1, m)
  else if m.buffer.bytes.headD 0 &&& 0xf0 ≠ 0x30 then .done (0, m)
  else
    let (_, rcvdCounter, m) ← m.recvCb 2 8
    if rcvdCounter ≠ 8 then .done (-1, m)
    else
      let (byteLen, remainingLen) := kiiMQTTDecode (m.buffer.bytes.drop 1)
      if byteLen ≤ 0 then .done (-1, m)
      else
        let totalLen := (remainingLen + byteLen.toNat + 1) % 2 ^ w
        if m.buffer.size < totalLen then .done (-1, m)
        else
          let (bytes, m) ← receiveRest totalLen totalLen (rcvdCounter + 2) m
          if bytes < totalLen then .done (-1, m)
          else deliver signed m byteLen.toNat remainingLen

/-! ## The remaining length -/

theorem toNat_and_127 (b : Byte) : (b &&& 127).toNat = b.toNat % 128 := by
  rw [UInt8.toNat_and]
  exact Nat.and_two_pow_sub_one_eq_mod b.toNat 7

/-- The high bit. -/
theorem and_128_eq_zero_iff (b : Byte) : b &&& 128 = 0 ↔ b.toNat < 128 := by
  have hlt := b.toNat_lt
  rw [← UInt8.toNat_inj, UInt8.toNat_and]
  show b.toNat &&& 2 ^ 7 = 0 ↔ _
  rw [Nat.and_two_pow, Nat.testBit_eq_decide_div_mod_eq]
  by_cases h : b.toNat < 128
  · have hbit : b.toNat / 128 % 2 = 0 := by omega
    simp [h, hbit]
  · have hbit : b.toNat / 128 % 2 = 1 := by omega
    simp [h, hbit]

theorem decodeLoop_last {b : Byte} (h : b &&& 128 = 0) (rounds : Nat) (s : List Byte)
    (len multiplier value : Nat) : decodeLoop (rounds + 1) (b :: s) len multiplier value =
      (((len + 1 : Nat) : Int), value + (b &&& 127).toNat * multiplier) := by
  rw [decodeLoop]
  exact if_neg (not_not.mpr h)

theorem decodeLoop_more {b : Byte} (h : b &&& 128 ≠ 0) (rounds : Nat) (s : List Byte)
    (len multiplier value : Nat) : decodeLoop (rounds + 1) (b :: s) len multiplier value =
      decodeLoop rounds s (len + 1) (multiplier * 128) (value + (b &&& 127).toNat * multiplier) := by
  rw [decodeLoop]
  exact if_pos h

theorem decodeLoop_of_readFigures {k n : Nat} {s rest : List Byte}
    (h : Mqtt.readFigures k s = some (n, rest)) (len multiplier value : Nat) :
    ∃ figures, s.length = figures + rest.length ∧ decodeLoop (k + 1) s len multiplier value =
      (((len + figures : Nat) : Int), value + n * multiplier) := by
  induction k generalizing s n len multiplier value with
  | zero =>
    cases s with
    | nil => simp [Mqtt.readFigures] at h
    | cons b s =>
      by_cases hb : b.toNat < 128
      · obtain ⟨rfl, rfl⟩ : b.toNat = n ∧ s = rest := by simpa [Mqtt.readFigures, hb] using h
        refine ⟨1, by rw [List.length_cons, Nat.add_comm], ?_⟩
        rw [decodeLoop_last ((and_128_eq_zero_iff b).mpr hb), toNat_and_127, Nat.mod_eq_of_lt hb]
      · simp [Mqtt.readFigures, hb] at h
  | succ k ih =>
    cases s with
    | nil => simp [Mqtt.readFigures] at h
    | cons b s =>
      by_cases hb : b.toNat < 128
      · obtain ⟨rfl, rfl⟩ : b.toNat = n ∧ s = rest := by simpa [Mqtt.readFigures, hb] using h
        refine ⟨1, by rw [List.length_cons, Nat.add_comm], ?_⟩
        rw [decodeLoop_last ((and_128_eq_zero_iff b).mpr hb), toNat_and_127, Nat.mod_eq_of_lt hb]
      · obtain ⟨n', hread, rfl⟩ :
            ∃ n', Mqtt.readFigures k s = some (n', rest) ∧ b.toNat % 128 + 128 * n' = n := by
          simpa [Mqtt.readFigures, hb] using h
        obtain ⟨figures, hlen, hdecode⟩ := ih hread (len + 1) (multiplier * 128)
          (value + b.toNat % 128 * multiplier)
        refine ⟨figures + 1, by rw [List.length_cons, hlen]; omega, ?_⟩
        rw [decodeLoop_more (mt (and_128_eq_zero_iff b).mp hb), toNat_and_127, hdecode, Nat.add_assoc,
          Nat.add_comm 1]
        apply congrArg (Prod.mk _)
        ring

/-- **The remaining length is read as the format has it.** -/
theorem kiiMQTTDecode_eq {n : Nat} {s rest : List Byte} (h : Mqtt.readLength s = some (n, rest)) :
    ∃ figures : Nat, s.length = figures + rest.length ∧ kiiMQTTDecode s = ((figures : Int), n) := by
  obtain ⟨figures, hlen, hdecode⟩ := decodeLoop_of_readFigures h 0 1 0
  rw [Nat.zero_add, Nat.zero_add, Nat.mul_one] at hdecode
  exact ⟨figures, hlen, hdecode⟩

/-! ## What the reads deliver -/

/-- A call of `push_received_cb`. -/
structure Pushed where
  buffer : List Byte
  message : Int
  length : Nat
  deriving DecidableEq

/-- The bytes that the callback is given, when all of them are in the buffer. -/
def Pushed.text (p : Pushed) : Option (List Byte) :=
  if 0 ≤ p.message ∧ p.message.toNat + p.length ≤ p.buffer.length then
    some (Memory.slice p.buffer p.message.toNat p.length)
  else none

/-- The pieces that came, and the notifications that were handed on. -/
structure Incoming where
  pieces : List (List Byte)
  pushed : List Pushed

/-- The number of bytes that were taken from the stream. -/
def Incoming.consumed (g : Incoming) : Nat := g.pieces.flatten.length

/-- The surroundings in which a read gets what `D` delivers after the pieces before it. Everything
else may be answered in any way. -/
def incoming (D : List (List Byte) → Nat → List Byte → Prop) :
    Contract PushCall PushCall.Reply Incoming where
  allowed _ _ := True
  answers g c r :=
    match c, r with
    | .recv n, r => D g.pieces n (SocketReply.data r)
    | _, _ => True
  next g c r :=
    match c, r with
    | .recv _, r => { g with pieces := g.pieces ++ [SocketReply.data r] }
    | .pushReceived buffer message length, _ =>
      { g with pushed := g.pushed ++ [⟨buffer, message, length⟩] }
    | _, _ => g

/-- What comes is cut off the stream `X`: no more than was asked for, and a byte at least when
that much follows. -/
structure Feeds (D : List (List Byte) → Nat → List Byte → Prop) (X : List Byte) : Prop where
  cut : ∀ {pieces n data}, D pieces n data → data <+: X.drop pieces.flatten.length
  le : ∀ {pieces n data}, D pieces n data → data.length ≤ n
  pos : ∀ {pieces n data}, D pieces n data → 0 < n → pieces.flatten.length + n ≤ X.length →
    0 < data.length

theorem consumed_append (g : Incoming) (data : List Byte) :
    ({ g with pieces := g.pieces ++ [data] } : Incoming).consumed = g.consumed + data.length := by
  show (g.pieces ++ [data]).flatten.length = _
  rw [List.flatten_append, List.flatten_singleton, List.length_append]
  rfl

/-- A read. -/
theorem meets_recvCb {D : List (List Byte) → Nat → List Byte → Prop} {m : Push w} {p n : Nat}
    {g : Incoming} {Q : SocketCode × Nat × Push w → Incoming → Prop}
    (h : ∀ r : SocketReply, D g.pieces n r.data →
      Q (r.code, r.data.length, ⟨r.socket, m.buffer.write p r.data⟩)
        { g with pieces := g.pieces ++ [r.data] }) :
    (m.recvCb p n).Meets (incoming D) g Q := ⟨trivial, h⟩

/-! ## What the buffer holds -/

/-- The first `k` bytes of `p` are at the beginning of the buffer, if `p` is that long. What else
was stored stands behind `p`. -/
structure Held (b : Buffer w) (p : List Byte) (k : Nat) : Prop where
  fits : p.length ≤ b.size
  bytes : b.bytes.take (min k p.length) = p.take k

theorem Held.zero {b : Buffer w} {p : List Byte} (h : p.length ≤ b.size) : Held b p 0 := by
  refine ⟨h, ?_⟩
  rw [Nat.zero_min, List.take_zero, List.take_zero]

theorem Held.take {b : Buffer w} {p : List Byte} {k i : Nat} (h : Held b p k) (hk : i ≤ k)
    (hp : i ≤ p.length) : b.bytes.take i = p.take i := by
  have htake := congrArg (List.take i) h.bytes
  rw [List.take_take, List.take_take, Nat.min_eq_left (by omega), Nat.min_eq_left hk] at htake
  exact htake

theorem Held.mono {b : Buffer w} {p : List Byte} {j k : Nat} (h : Held b p k) (hj : j ≤ k) :
    Held b p j := by
  refine ⟨h.fits, ?_⟩
  rw [h.take (Nat.le_trans (Nat.min_le_left _ _) hj) (Nat.min_le_right _ _)]
  exact List.take_eq_take_min.symm

/-- **Storing what comes next.** -/
theorem Held.write {b : Buffer w} {p rest data : List Byte} {k : Nat} (h : Held b p k)
    (hk : k ≤ p.length) (hdata : data <+: p.drop k ++ rest) :
    Held (b.write k data) p (k + data.length) := by
  have hfits : p.length ≤ b.bytes.length := h.fits
  have hdrop : (p.drop k).length = p.length - k := List.length_drop
  refine ⟨by rw [Buffer.size_write]; exact h.fits, ?_⟩
  -- `n` bytes of `data` belong to `p`
  obtain ⟨n, hn⟩ : ∃ n, n = min data.length (p.length - k) := ⟨_, rfl⟩
  have hmin : min (k + data.length) p.length = k + n := by omega
  have hnew : data.take n = (p.drop k).take data.length := by
    have htaken : data.take n = (p.drop k ++ rest).take n := by
      rw [List.prefix_iff_eq_take.mp hdata, List.take_take, Nat.min_eq_left (by omega)]
    rw [htaken, List.take_append_of_le_length (by omega)]
    by_cases hshort : data.length ≤ p.length - k
    · rw [hn, Nat.min_eq_left hshort]
    · rw [List.take_of_length_le (by omega), List.take_of_length_le (by omega)]
  calc (Memory.overwrite b.bytes k data).take (min (k + data.length) p.length)
      = b.bytes.take k ++ data.take n := by
        rw [hmin, Memory.take_overwrite_add (by omega) (by omega)]
    _ = p.take k ++ (p.drop k).take data.length := by rw [h.take (Nat.le_refl k) hk, hnew]
    _ = p.take (k + data.length) := List.take_add.symm

/-! ## The rest of a packet -/

/-- No read is made when the packet is there already. -/
theorem receiveRest_done {totalLen bytes : Nat} (h : totalLen ≤ bytes) (rounds : Nat) (m : Push w) :
    receiveRest totalLen rounds bytes m = .done (bytes, m) := by
  cases rounds with
  | zero => rfl
  | succ rounds =>
    rw [receiveRest]
    exact if_neg (by omega)

/-- **The loop reads to the end of the packet**, and not beyond it. -/
theorem receiveRest_meets {D : List (List Byte) → Nat → List Byte → Prop} {X p rest : List Byte}
    {start : Nat} (hfeeds : Feeds D X) (hat : X.drop start = p ++ rest) (rounds : Nat) {bytes : Nat}
    {m : Push w} {g : Incoming} (hle : bytes ≤ p.length) (hrounds : p.length ≤ bytes + rounds)
    (hheld : Held m.buffer p bytes) (hconsumed : g.consumed = start + bytes) :
    (receiveRest p.length rounds bytes m).Meets (incoming D) g fun r g' =>
      r.1 = p.length ∧ Held r.2.buffer p p.length ∧ r.2.buffer.size = m.buffer.size ∧
        g'.consumed = start + p.length ∧ g'.pushed = g.pushed := by
  -- Every read makes `bytes` larger, so that the rounds do not run out before the packet is there.
  induction rounds generalizing bytes m g with
  | zero =>
    obtain rfl : bytes = p.length := by omega
    exact ⟨rfl, hheld, rfl, hconsumed, rfl⟩
  | succ rounds ih =>
    by_cases hlt : bytes < p.length
    case neg =>
      obtain rfl : bytes = p.length := by omega
      rw [receiveRest_done (Nat.le_refl _)]
      exact ⟨rfl, hheld, rfl, hconsumed, rfl⟩
    case pos =>
      have hlen : X.length - start = p.length + rest.length := by
        rw [← List.length_drop, hat, List.length_append]
      have hnext : X.drop g.pieces.flatten.length = p.drop bytes ++ rest := by
        show X.drop g.consumed = _
        rw [hconsumed, ← List.drop_drop, hat, List.drop_append_of_le_length hle]
      rw [receiveRest, if_pos hlt, Prog.meets_bind]
      apply meets_recvCb
      intro r hr
      have hcount := hfeeds.le hr
      have hpos : 0 < r.data.length := by
        apply hfeeds.pos hr (by omega)
        show g.consumed + _ ≤ _
        omega
      have hcut := hfeeds.cut hr
      rw [hnext] at hcut
      show Prog.Meets (incoming D) (if 0 < r.data.length then _ else _) _ _
      rw [if_pos hpos]
      have hle' : bytes + r.data.length ≤ p.length := by omega
      have hrest := ih (m := ⟨r.socket, m.buffer.write bytes r.data⟩)
        (g := { g with pieces := g.pieces ++ [r.data] }) hle' (by omega) (hheld.write hle hcut)
        (by rw [consumed_append, hconsumed, Nat.add_assoc])
      rw [Buffer.size_write] at hrest
      exact hrest

/-! ## A packet in the buffer -/

section

variable {b : Buffer w} {k : Nat}

theorem Held.header {p : Mqtt.Received} (h : Held b p.bytes k) (hk : 1 ≤ k) :
    b.bytes.headD 0 = p.header := by
  have hone : b.bytes.take 1 = [p.header] := h.take hk (by rw [p.length_bytes]; omega)
  cases hb : b.bytes with
  | nil =>
    rw [hb] at hone
    cases hone
  | cons x xs =>
    rw [hb] at hone
    exact (List.cons.inj hone).1

/-- What stands behind the remaining length is not looked at. -/
theorem Held.decode {p : Mqtt.Received} (h : Held b p.bytes k) (hk : 1 + p.number.length ≤ k) :
    kiiMQTTDecode (b.bytes.drop 1) = ((p.number.length : Int), p.body.length) := by
  have hhead := h.take hk (by rw [p.length_bytes]; omega)
  have htake : p.bytes.take (1 + p.number.length) = p.header :: p.number := by
    rw [Mqtt.Received.bytes, Nat.add_comm, List.take_succ_cons, List.take_left]
  have hbuffer : b.bytes = p.header :: (p.number ++ b.bytes.drop (1 + p.number.length)) := by
    rw [← List.cons_append, ← htake, ← hhead, List.take_append_drop]
  rw [hbuffer, List.drop_succ_cons, List.drop_zero]
  obtain ⟨figures, hlen, hdecode⟩ := kiiMQTTDecode_eq (p.number_spec.2.2 _)
  obtain rfl := Nat.add_right_cancel ((List.length_append.symm.trans hlen))
  exact hdecode

variable {p : Mqtt.Publish}

/-- The bytes of the remaining length. -/
def lengthBytes (p : Mqtt.Publish) : Nat := (Mqtt.remainingLength p.body.length).length

theorem lengthBytes_le (p : Mqtt.Publish) : 0 < lengthBytes p ∧ lengthBytes p ≤ 4 :=
  Mqtt.length_remainingLength _

theorem length_publish (p : Mqtt.Publish) :
    p.bytes.length = 1 + lengthBytes p + (2 + p.topic.length + p.payload.length) := by
  rw [Mqtt.Publish.bytes, Mqtt.length_packet, lengthBytes, p.length_body]

end

/-! ## The message -/

/-- The number in the two bytes in front of the topic. -/
def topicField (p : Mqtt.Received) : Nat :=
  (p.body.getD 0 0).toNat * 256 + (p.body.getD 1 0).toNat

/-- What is missing of it when the two bytes are characters and these are signed. -/
def shortfall (signed : Bool) (p : Mqtt.Received) : Nat :=
  (if signed ∧ 128 ≤ (p.body.getD 0 0).toNat then 65536 else 0) +
    if signed ∧ 128 ≤ (p.body.getD 1 0).toNat then 256 else 0

theorem charValue_topicField (signed : Bool) (p : Mqtt.Received) :
    charValue signed (p.body.getD 0 0) * 256 + charValue signed (p.body.getD 1 0) =
      (topicField p : Int) - shortfall signed p := by
  unfold charValue topicField shortfall
  split <;> split <;> push_cast <;> ring

theorem Held.getD {b : Buffer w} {p : List Byte} {k i : Nat} (h : Held b p k) (hk : i < k)
    (hp : i < p.length) : b.bytes.getD i 0 = p.getD i 0 := by
  have htake := h.take (i := i + 1) hk hp
  calc b.bytes.getD i 0 = (b.bytes.take (i + 1)).getD i 0 := by simp
    _ = p.getD i 0 := by simp [htake]

/-- **A PUBLISH packet is handed on** when its length leaves something behind the topic. -/
theorem deliver_eq {m : Push w} {p : Mqtt.Received} {k : Nat} (signed : Bool)
    (hheld : Held m.buffer p.bytes k) (hk : p.number.length + 3 ≤ k) (hbody : 2 ≤ p.body.length) :
    deliver signed m p.number.length p.body.length =
      if p.body.length + shortfall signed p ≤ 2 + topicField p then .done (-1, m)
      else .ask (.pushReceived m.buffer.bytes
        (((p.number.length + 3 + topicField p : Nat) : Int) - shortfall signed p)
        ((p.body.length + shortfall signed p - 2 - topicField p) % 2 ^ w)) fun _ => .done (0, m) := by
  have hlen := p.length_bytes
  have hbyte : ∀ i < 2, (m.buffer.bytes.drop (1 + p.number.length)).getD i 0 = p.body.getD i 0 := by
    intro i hi
    have hdrop : p.bytes.drop (1 + p.number.length) = p.body := by
      rw [Mqtt.Received.bytes, Nat.add_comm, List.drop_succ_cons, List.drop_left]
    calc (m.buffer.bytes.drop (1 + p.number.length)).getD i 0
        = m.buffer.bytes.getD (1 + p.number.length + i) 0 := by simp
      _ = p.bytes.getD (1 + p.number.length + i) 0 := hheld.getD (by omega) (by omega)
      _ = p.body.getD i 0 := by rw [← hdrop]; simp
  rw [deliver, hbyte 0 (by omega), hbyte 1 (by omega), charValue_topicField]
  by_cases hnone : p.body.length + shortfall signed p ≤ 2 + topicField p
  · rw [if_pos hnone, if_neg (by omega)]
  · have hstart : ((1 + p.number.length + 2 : Nat) : Int) +
        ((topicField p : Int) - shortfall signed p) =
        ((p.number.length + 3 + topicField p : Nat) : Int) - shortfall signed p := by omega
    have hlength : ((p.body.length : Int) - 2 - ((topicField p : Int) - shortfall signed p)).toNat =
        p.body.length + shortfall signed p - 2 - topicField p := by omega
    rw [if_neg hnone, if_pos (by omega), hstart, hlength]

theorem text_eq {buffer bs tail : List Byte} {k : Nat} (h : buffer.drop k = bs ++ tail)
    (hk : k ≤ buffer.length) : Pushed.text ⟨buffer, (k : Int), bs.length⟩ = some bs := by
  have hlen := congrArg List.length h
  rw [List.length_drop, List.length_append] at hlen
  have hle : k + bs.length ≤ buffer.length := by omega
  show (if (0 : Int) ≤ (k : Int) ∧ k + bs.length ≤ buffer.length then
    some (Memory.slice buffer k bs.length) else none) = _
  rw [if_pos ⟨Int.natCast_nonneg k, hle⟩, Memory.slice, h, List.take_left]

theorem topicField_eq {p : Mqtt.Received} {topic payload : List Byte} (h : p.Carries topic payload) :
    topicField p = topic.length := by
  have hlt := h.topic_lt
  rw [topicField, h.body]
  show (UInt8.ofNat (topic.length / 256)).toNat * 256 + (UInt8.ofNat (topic.length % 256)).toNat = _
  rw [Mqtt.toNat_ofNat_lt (by omega), Mqtt.toNat_ofNat_lt (by omega)]
  omega

theorem shortfall_eq {p : Mqtt.Received} {topic payload : List Byte} (signed : Bool)
    (h : p.Carries topic payload) : shortfall signed p =
      (if signed ∧ 128 ≤ topic.length / 256 then 65536 else 0) +
        if signed ∧ 128 ≤ topic.length % 256 then 256 else 0 := by
  have hlt := h.topic_lt
  rw [shortfall, h.body]
  show (if signed ∧ 128 ≤ (UInt8.ofNat (topic.length / 256)).toNat then 65536 else 0) +
    (if signed ∧ 128 ≤ (UInt8.ofNat (topic.length % 256)).toNat then 256 else 0) = _
  rw [Mqtt.toNat_ofNat_lt (by omega), Mqtt.toNat_ofNat_lt (by omega)]

/-- Below 128 the topic has its length in one byte, which is not negative as a character. -/
theorem shortfall_of_lt {p : Mqtt.Received} (signed : Bool) (h : topicField p < 128) :
    shortfall signed p = 0 := by
  rw [topicField] at h
  rw [shortfall, if_neg (by omega), if_neg (by omega)]

theorem text_payload {b : Buffer w} {p : Mqtt.Received} {topic payload : List Byte}
    (hheld : Held b p.bytes p.bytes.length) (h : p.Carries topic payload) :
    Pushed.text ⟨b.bytes, ((p.number.length + 3 + topic.length : Nat) : Int), payload.length⟩ =
      some payload := by
  have hlen := p.length_bytes
  have hbody := h.length_body
  have hfits : p.bytes.length ≤ b.bytes.length := hheld.fits
  have hall := hheld.take (Nat.le_refl _) (Nat.le_refl _)
  rw [List.take_length] at hall
  have hslice : b.bytes.drop (p.number.length + 3 + topic.length) =
      payload ++ b.bytes.drop p.bytes.length := by
    calc b.bytes.drop (p.number.length + 3 + topic.length)
        = (p.bytes ++ b.bytes.drop p.bytes.length).drop (p.number.length + 3 + topic.length) := by
          conv_rhs => rw [← hall, List.length_take, Nat.min_eq_left hfits, List.take_append_drop]
      _ = payload ++ b.bytes.drop p.bytes.length := by
          rw [List.drop_append_of_le_length (by omega), h.drop]
  exact text_eq hslice (by omega)

/-- **A notification is handed on**, and it is the payload when the topic is short. The topic of a
longer one may be taken for shorter than it is, never for longer. -/
theorem deliver_meets {D : List (List Byte) → Nat → List Byte → Prop} {signed : Bool} {m : Push w}
    {p : Mqtt.Publish} {g : Incoming} (hheld : Held m.buffer p.bytes p.bytes.length)
    (hpayload : 0 < p.payload.length) :
    (deliver signed m (lengthBytes p) p.body.length).Meets (incoming D) g fun r g' =>
      r = (0, m) ∧ g'.pieces = g.pieces ∧ ∃ pushed, g'.pushed = g.pushed ++ [pushed] ∧
        (p.topic.length < 128 → pushed.text = some p.payload) := by
  have hlen := length_publish p
  have hbody := p.length_body
  have hword := m.buffer.lt_word hheld.fits
  have hfield := topicField_eq p.carries
  have heq := deliver_eq (p := p.received) signed hheld
    (by show lengthBytes p + 3 ≤ _; omega) (by show 2 ≤ p.body.length; omega)
  rw [hfield, if_neg (by show ¬ p.body.length + _ ≤ _; omega)] at heq
  show (deliver signed m p.received.number.length p.received.body.length).Meets _ _ _
  rw [heq]
  refine ⟨trivial, fun r _ => ⟨rfl, rfl, _, rfl, fun hshort => ?_⟩⟩
  have hmessage : (p.received.body.length + 0 - 2 - p.topic.length) % 2 ^ w = p.payload.length := by
    show (p.body.length + 0 - 2 - p.topic.length) % 2 ^ w = _
    rw [Nat.mod_eq_of_lt (by omega)]
    omega
  rw [shortfall_of_lt signed (hfield.symm ▸ hshort), hmessage, Nat.cast_zero, sub_zero]
  exact text_payload (p := p.received) hheld p.carries

/-! ## The whole call -/

section

variable {D : List (List Byte) → Nat → List Byte → Prop} {X rest : List Byte} {signed : Bool}
  {m : Push w} {g : Incoming}

/-- What the buffer holds behind the first read. -/
theorem held_first {p data : List Byte} (hfeeds : Feeds D X) (hat : X.drop g.consumed <+: p ++ rest)
    (hfits : p.length ≤ m.buffer.size) (hdata : D g.pieces 2 data) (hcount : data.length = 2) :
    Held (m.buffer.clear.write 0 data) p 2 := by
  have hzero : Held m.buffer.clear p 0 := Held.zero (by rw [Buffer.size_clear]; exact hfits)
  have hwritten := hzero.write (Nat.zero_le _) ((hfeeds.cut hdata).trans hat)
  rw [hcount] at hwritten
  exact hwritten

/-- What it holds behind the second one. -/
theorem held_second {p first data : List Byte} (hfeeds : Feeds D X)
    (hat : X.drop g.consumed <+: p ++ rest) (hfits : p.length ≤ m.buffer.size) (htwo : 2 ≤ p.length)
    (hfirst : D g.pieces 2 first) (hcount₁ : first.length = 2)
    (hdata : D (g.pieces ++ [first]) 8 data) (hcount₂ : data.length = 8) :
    Held ((m.buffer.clear.write 0 first).write 2 data) p 10 := by
  have hheld := held_first hfeeds hat hfits hfirst hcount₁
  have hconsumed := consumed_append g first
  rw [hcount₁] at hconsumed
  have hnext : X.drop (g.pieces ++ [first]).flatten.length <+: p.drop 2 ++ rest := by
    show X.drop (Incoming.consumed { g with pieces := g.pieces ++ [first] }) <+: _
    rw [hconsumed, ← List.drop_drop, ← List.drop_append_of_le_length htwo]
    exact hat.drop 2
  have hwritten := hheld.write htwo ((hfeeds.cut hdata).trans hnext)
  rw [hcount₂] at hwritten
  exact hwritten

/-- **The first ten bytes of a PUBLISH packet.** Its length is known then, and with it what is left
to read. -/
theorem receive_ten {p : Mqtt.Received} {Q : Int × Push w → Incoming → Prop} (hfeeds : Feeds D X)
    (hat : X.drop g.consumed <+: p.bytes ++ rest) (hpublish : p.header &&& 0xf0 = 0x30)
    (hfits : p.bytes.length ≤ m.buffer.size) (htwo : ∀ data, D g.pieces 2 data → data.length = 2)
    (height : ∀ first data, D g.pieces 2 first → D (g.pieces ++ [first]) 8 data → data.length = 8)
    (hQ : ∀ (m' : Push w) (g' : Incoming), Held m'.buffer p.bytes 10 →
      m'.buffer.size = m.buffer.size → g'.consumed = g.consumed + 10 → g'.pushed = g.pushed →
      (receiveRest p.bytes.length p.bytes.length 10 m').Meets (incoming D) g' fun r g'' =>
        (if r.1 < p.bytes.length then .done (-1, r.2)
          else deliver signed r.2 p.number.length p.body.length).Meets (incoming D) g'' Q) :
    (kiiPushReceivePushNotification signed m).Meets (incoming D) g Q := by
  have hlen := p.length_bytes
  obtain ⟨hpos, hle, -⟩ := p.number_spec
  have hword := m.buffer.lt_word hfits
  rw [kiiPushReceivePushNotification, Prog.meets_bind]
  -- Two bytes: the type of the packet is known.
  apply meets_recvCb
  intro r₁ hr₁
  have hcount₁ := htwo _ hr₁
  have hheld₁ := held_first hfeeds hat hfits hr₁ hcount₁
  dsimp only
  rw [if_neg (not_not.mpr hcount₁), hheld₁.header (by decide), if_neg (not_not.mpr hpublish),
    Prog.meets_bind]
  -- Eight bytes more.
  apply meets_recvCb
  intro r₂ hr₂
  have hcount₂ := height _ _ hr₁ hr₂
  have hheld₂ := held_second hfeeds hat hfits (by omega) hr₁ hcount₁ hr₂ hcount₂
  have hsize₂ : ((m.buffer.clear.write 0 r₁.data).write 2 r₂.data).size = m.buffer.size := by
    rw [Buffer.size_write, Buffer.size_write, Buffer.size_clear]
  have htotal : (p.body.length + p.number.length + 1) % 2 ^ w = p.bytes.length := by
    rw [Nat.mod_eq_of_lt (by omega)]
    omega
  have hconsumed : (g.pieces ++ [r₁.data] ++ [r₂.data]).flatten.length = g.consumed + 10 := by
    rw [Incoming.consumed, List.flatten_append, List.flatten_append, List.length_append,
      List.length_append, List.flatten_singleton, List.flatten_singleton, hcount₁, hcount₂]
  have hrest := hQ ⟨r₂.socket, _⟩ ⟨g.pieces ++ [r₁.data] ++ [r₂.data], g.pushed⟩ hheld₂ hsize₂
    hconsumed rfl
  dsimp only
  rw [if_neg (not_not.mpr hcount₂), hheld₂.decode (by omega), hcount₂]
  dsimp only
  rw [if_neg (by omega), Int.toNat_natCast, htotal, hsize₂, if_neg (Nat.not_lt.mpr hfits),
    Prog.meets_bind]
  exact hrest

/-- What is read when ten bytes are there: the rest of the packet, if there is one. -/
theorem receiveRest_publish {p : Mqtt.Publish} {start : Nat} (hfeeds : Feeds D X)
    (hat : X.drop start = p.bytes ++ rest) (hheld : Held m.buffer p.bytes 10)
    (hconsumed : g.consumed = start + 10) :
    (receiveRest p.bytes.length p.bytes.length 10 m).Meets (incoming D) g fun r g' =>
      p.bytes.length ≤ r.1 ∧ Held r.2.buffer p.bytes p.bytes.length ∧
        r.2.buffer.size = m.buffer.size ∧ g'.consumed = start + max 10 p.bytes.length ∧
        g'.pushed = g.pushed := by
  by_cases hlong : 10 ≤ p.bytes.length
  · apply (receiveRest_meets hfeeds hat p.bytes.length hlong (by omega) hheld hconsumed).mono
    intro r g' hr
    obtain ⟨hbytes, hall, hsize, hend, hpushed⟩ := hr
    refine ⟨Nat.le_of_eq hbytes.symm, hall, hsize, ?_, hpushed⟩
    rw [Nat.max_eq_right hlong]
    exact hend
  · -- The packet is there already, and with it what stands behind it in the stream.
    rw [receiveRest_done (by omega)]
    refine ⟨by omega, hheld.mono (by omega), rfl, ?_, rfl⟩
    rw [Nat.max_eq_left (by omega)]
    exact hconsumed

/-- **A PUBLISH packet.** Ten bytes are taken from the stream, or the packet when it is longer. -/
theorem receive_publish {p : Mqtt.Publish} (hfeeds : Feeds D X)
    (hat : X.drop g.consumed = p.bytes ++ rest) (hpayload : 0 < p.payload.length)
    (hfits : p.bytes.length ≤ m.buffer.size)
    (htwo : ∀ data, D g.pieces 2 data → data.length = 2)
    (height : ∀ first data, D g.pieces 2 first → D (g.pieces ++ [first]) 8 data →
      data.length = 8) :
    (kiiPushReceivePushNotification signed m).Meets (incoming D) g fun r g' =>
      r.1 = 0 ∧ r.2.buffer.size = m.buffer.size ∧
        g'.consumed = g.consumed + max 10 p.bytes.length ∧
        ∃ pushed, g'.pushed = g.pushed ++ [pushed] ∧
          (p.topic.length < 128 → pushed.text = some p.payload) := by
  have hcut : X.drop g.consumed <+: p.received.bytes ++ rest := hat ▸ List.prefix_refl _
  apply receive_ten hfeeds hcut p.type_header hfits htwo height
  intro m' g' hheld hsize hconsumed hpushed
  apply (receiveRest_publish hfeeds hat hheld hconsumed).mono
  intro r g₁ hr
  obtain ⟨hbytes, hall, hsize₁, hend, hpushed₁⟩ := hr
  rw [if_neg (show ¬ r.1 < p.received.bytes.length from Nat.not_lt.mpr hbytes)]
  apply (deliver_meets hall hpayload).mono
  intro r' g₂ hr'
  obtain ⟨rfl, hpieces, pushed, hone, htext⟩ := hr'
  refine ⟨rfl, hsize₁.trans hsize, ?_, pushed, ?_, htext⟩
  · rw [← hend, Incoming.consumed, hpieces]
    rfl
  · rw [hone, hpushed₁, hpushed]

/-- **Another packet.** Two bytes are taken from the stream. -/
theorem receive_other {b : Byte} (hfeeds : Feeds D X) (hat : X.drop g.consumed = b :: rest)
    (hb : b &&& 0xf0 ≠ 0x30) (htwo : ∀ data, D g.pieces 2 data → data.length = 2) :
    (kiiPushReceivePushNotification signed m).Meets (incoming D) g fun r g' =>
      r.1 = 0 ∧ r.2.buffer.size = m.buffer.size ∧ g'.consumed = g.consumed + 2 ∧
        g'.pushed = g.pushed := by
  rw [kiiPushReceivePushNotification, Prog.meets_bind]
  apply meets_recvCb
  intro r hr
  have hcount := htwo _ hr
  have hsize : (m.buffer.clear.write 0 r.data).size = m.buffer.size := by
    rw [Buffer.size_write, Buffer.size_clear]
  obtain ⟨tail, htail⟩ : ∃ tail, r.data = b :: tail := by
    have hcut : r.data <+: b :: rest := hat ▸ hfeeds.cut hr
    cases hdata : r.data with
    | nil =>
      rw [hdata] at hcount
      exact absurd hcount (by decide)
    | cons x xs =>
      rw [hdata, List.cons_prefix_cons] at hcut
      exact ⟨xs, by rw [hcut.1]⟩
  have hhead : (m.buffer.clear.write 0 r.data).bytes.headD 0 &&& 0xf0 ≠ 0x30 := by
    rw [htail]
    show (Memory.overwrite (Memory.fill m.buffer.bytes 0) 0 (b :: tail)).headD 0 &&& 0xf0 ≠ 0x30
    cases m.buffer.bytes with
    -- A buffer of size 0 holds no byte at all, and 0 is read from it.
    | nil =>
      show (0 : Byte) &&& 0xf0 ≠ 0x30
      decide
    | cons x xs => exact hb
  dsimp only
  rw [if_neg (not_not.mpr hcount), if_pos hhead]
  refine ⟨rfl, hsize, ?_, rfl⟩
  rw [← hcount]
  exact consumed_append g r.data

/-- **A first piece of another length than two.** -/
theorem receive_first (hshort : ∀ data, D g.pieces 2 data → data.length ≠ 2) :
    (kiiPushReceivePushNotification signed m).Meets (incoming D) g fun r g' =>
      r.1 = -1 ∧ g'.pushed = g.pushed := by
  rw [kiiPushReceivePushNotification, Prog.meets_bind]
  apply meets_recvCb
  intro r hr
  dsimp only
  rw [if_pos (hshort _ hr)]
  exact ⟨rfl, rfl⟩

/-- **A second piece of another length than eight.** -/
theorem receive_second {p : Mqtt.Publish} (hfeeds : Feeds D X)
    (hat : X.drop g.consumed = p.bytes ++ rest) (hfits : p.bytes.length ≤ m.buffer.size)
    (htwo : ∀ data, D g.pieces 2 data → data.length = 2)
    (hshort : ∀ first data, D g.pieces 2 first → D (g.pieces ++ [first]) 8 data →
      data.length ≠ 8) :
    (kiiPushReceivePushNotification signed m).Meets (incoming D) g fun r g' =>
      r.1 = -1 ∧ g'.pushed = g.pushed := by
  rw [kiiPushReceivePushNotification, Prog.meets_bind]
  apply meets_recvCb
  intro r₁ hr₁
  have hcut : X.drop g.consumed <+: p.received.bytes ++ rest := hat ▸ List.prefix_refl _
  have hheld := held_first hfeeds hcut hfits hr₁ (htwo _ hr₁)
  dsimp only
  rw [if_neg (not_not.mpr (htwo _ hr₁)), hheld.header (by decide),
    if_neg (not_not.mpr (show p.received.header &&& 0xf0 = 0x30 from p.type_header)), Prog.meets_bind]
  apply meets_recvCb
  intro r₂ hr₂
  dsimp only
  rw [if_pos (hshort _ _ hr₁ hr₂)]
  exact ⟨rfl, rfl⟩

end

end KiiThing

import Mathlib.Algebra.Group.Nat.Defs
import Mathlib.Data.List.Basic

/-!
# MQTT packets

A packet is a byte of type and flags, the number of the bytes that follow, and these bytes. The
number is written in figures to the base 128, the lowest one first, with the high bit set in all but
the last; four figures are the most. `readLength` reads it back, and `split` cuts the first packet
off a stream (`split_packet`).

`readConnect` and `readSubscribe` read a CONNECT and a SUBSCRIBE packet of MQTT 3.1, and refuse one
that leaves a byte over.
-/

namespace Mqtt

/-! ## Remaining length -/

/-- The figures of `n` to the base 128, at most `k + 1` of them. -/
def figures : Nat → Nat → List UInt8
  | 0, n => [UInt8.ofNat (n % 128)]
  | k + 1, n => if n < 128 then [UInt8.ofNat n]
      else UInt8.ofNat (n % 128 + 128) :: figures k (n / 128)

/-- The remaining length `n`, in at most four bytes. -/
def remainingLength (n : Nat) : List UInt8 := figures 3 n

/-- The largest remaining length and one. -/
def maxLength : Nat := 2 ^ 28

/-- Read a number of at most `k + 1` figures, and what stands behind it. -/
def readFigures : Nat → List UInt8 → Option (Nat × List UInt8)
  | _, [] => none
  | 0, b :: s => if b.toNat < 128 then some (b.toNat, s) else none
  | k + 1, b :: s =>
    if b.toNat < 128 then some (b.toNat, s)
    else (readFigures k s).map fun r => (b.toNat % 128 + 128 * r.1, r.2)

/-- Read a remaining length. -/
def readLength (s : List UInt8) : Option (Nat × List UInt8) := readFigures 3 s

theorem toNat_ofNat_lt {n : Nat} (h : n < 256) : (UInt8.ofNat n).toNat = n := by
  rw [UInt8.toNat_ofNat']
  exact Nat.mod_eq_of_lt h

theorem length_figures (k n : Nat) : 0 < (figures k n).length ∧ (figures k n).length ≤ k + 1 := by
  induction k generalizing n with
  | zero => exact ⟨Nat.zero_lt_one, Nat.le_refl _⟩
  | succ k ih =>
    rw [figures]
    split
    · exact ⟨Nat.zero_lt_one, Nat.succ_le_succ (Nat.zero_le _)⟩
    · exact ⟨Nat.succ_pos _, Nat.succ_le_succ (ih _).2⟩

theorem length_remainingLength (n : Nat) :
    0 < (remainingLength n).length ∧ (remainingLength n).length ≤ 4 := length_figures 3 n

theorem readFigures_figures {k n : Nat} (h : n < 128 ^ (k + 1)) (s : List UInt8) :
    readFigures k (figures k n ++ s) = some (n, s) := by
  induction k generalizing n with
  | zero =>
    have hn : n < 128 := by simpa using h
    have hmod : n % 128 = n := Nat.mod_eq_of_lt hn
    have hfigure : (UInt8.ofNat n).toNat = n := toNat_ofNat_lt (by omega)
    show readFigures 0 (UInt8.ofNat (n % 128) :: s) = _
    rw [hmod, readFigures, hfigure, if_pos hn]
  | succ k ih =>
    rw [figures]
    by_cases hn : n < 128
    · have hfigure : (UInt8.ofNat n).toNat = n := toNat_ofNat_lt (by omega)
      rw [if_pos hn, List.singleton_append, readFigures, hfigure, if_pos hn]
    · have hfigure : (UInt8.ofNat (n % 128 + 128)).toNat = n % 128 + 128 :=
        toNat_ofNat_lt (by omega)
      have hdiv : n / 128 < 128 ^ (k + 1) := by
        rw [Nat.pow_succ, Nat.mul_comm] at h
        exact Nat.div_lt_of_lt_mul h
      have hbig : ¬ n % 128 + 128 < 128 := by omega
      rw [if_neg hn, List.cons_append, readFigures, hfigure, if_neg hbig, ih hdiv, Option.map_some]
      apply congrArg some
      rw [Prod.mk.injEq]
      exact ⟨by omega, rfl⟩

/-- **A remaining length reads back.** -/
theorem readLength_remainingLength {n : Nat} (h : n < maxLength) (s : List UInt8) :
    readLength (remainingLength n ++ s) = some (n, s) := readFigures_figures h s

/-- **A number that is read has its figures in front**, and what stands behind them is not looked
at. -/
theorem readFigures_split {k n : Nat} {s rest : List UInt8} (h : readFigures k s = some (n, rest)) :
    ∃ number, s = number ++ rest ∧ 0 < number.length ∧ number.length ≤ k + 1 ∧
      ∀ tail, readFigures k (number ++ tail) = some (n, tail) := by
  induction k generalizing n s with
  | zero =>
    cases s with
    | nil => simp [readFigures] at h
    | cons b s =>
      by_cases hb : b.toNat < 128
      · obtain ⟨rfl, rfl⟩ : b.toNat = n ∧ s = rest := by simpa [readFigures, hb] using h
        exact ⟨[b], rfl, by simp, by simp, fun tail => by simp [readFigures, hb]⟩
      · simp [readFigures, hb] at h
  | succ k ih =>
    cases s with
    | nil => simp [readFigures] at h
    | cons b s =>
      by_cases hb : b.toNat < 128
      · obtain ⟨rfl, rfl⟩ : b.toNat = n ∧ s = rest := by simpa [readFigures, hb] using h
        exact ⟨[b], rfl, by simp, by simp, fun tail => by simp [readFigures, hb]⟩
      · obtain ⟨n', hread, rfl⟩ :
            ∃ n', readFigures k s = some (n', rest) ∧ b.toNat % 128 + 128 * n' = n := by
          simpa [readFigures, hb] using h
        obtain ⟨number, rfl, hpos, hle, hall⟩ := ih hread
        refine ⟨b :: number, rfl, by simp, by simpa using hle, fun tail => ?_⟩
        simp [readFigures, hb, hall tail]

/-- The last figure has no high bit. -/
theorem exists_lt_of_readFigures {k : Nat} {s : List UInt8} {r : Nat × List UInt8}
    (h : readFigures k s = some r) : ∃ b ∈ s, b.toNat < 128 := by
  induction k generalizing s r with
  | zero =>
    cases s with
    | nil => simp [readFigures] at h
    | cons b s =>
      by_cases hb : b.toNat < 128
      · exact ⟨b, List.mem_cons_self, hb⟩
      · simp [readFigures, hb] at h
  | succ k ih =>
    cases s with
    | nil => simp [readFigures] at h
    | cons b s =>
      by_cases hb : b.toNat < 128
      · exact ⟨b, List.mem_cons_self, hb⟩
      · rw [readFigures, if_neg hb, Option.map_eq_some_iff] at h
        obtain ⟨r', hread, -⟩ := h
        obtain ⟨b', hmem, hb'⟩ := ih hread
        exact ⟨b', List.mem_cons_of_mem _ hmem, hb'⟩

/-! ## Packets -/

/-- A packet with this first byte. -/
def packet (header : UInt8) (body : List UInt8) : List UInt8 :=
  header :: (remainingLength body.length ++ body)

/-- The first packet of a stream and what stands behind it, when all of it is there. -/
def split : List UInt8 → Option (List UInt8 × List UInt8)
  | [] => none
  | header :: s =>
    (readLength s).bind fun (n, body) =>
      if n ≤ body.length then
        some (header :: s.take (s.length - body.length + n), body.drop n)
      else none

theorem length_packet (header : UInt8) (body : List UInt8) : (packet header body).length =
    1 + (remainingLength body.length).length + body.length := by
  rw [packet, List.length_cons, List.length_append]
  omega

/-- **The packets of a stream are cut off one by one.** -/
theorem split_packet {header : UInt8} {body : List UInt8} (h : body.length < maxLength)
    (s : List UInt8) : split (packet header body ++ s) = some (packet header body, s) := by
  have hread : readLength (remainingLength body.length ++ body ++ s) = some (body.length, body ++ s) := by
    rw [List.append_assoc]
    exact readLength_remainingLength h _
  have hle : body.length ≤ (body ++ s).length := by
    rw [List.length_append]
    omega
  have hcut : (remainingLength body.length ++ body ++ s).length - (body ++ s).length + body.length =
      (remainingLength body.length ++ body).length := by
    simp only [List.length_append]
    omega
  show split (header :: (remainingLength body.length ++ body ++ s)) = _
  rw [split, hread]
  show (if body.length ≤ (body ++ s).length then _ else none) = _
  rw [if_pos hle, hcut, List.take_left, List.drop_left]
  rfl

/-- A packet as it is received: nothing is said about its body, and its length may be written with
more figures than it needs. -/
structure Received where
  header : UInt8
  /-- The figures of the remaining length. -/
  number : List UInt8
  body : List UInt8
  isLength : readLength (number ++ body) = some (body.length, body)

namespace Received

def bytes (p : Received) : List UInt8 := p.header :: (p.number ++ p.body)

theorem length_bytes (p : Received) : p.bytes.length = 1 + p.number.length + p.body.length := by
  simp only [bytes, List.length_cons, List.length_append]
  omega

theorem number_spec (p : Received) : 0 < p.number.length ∧ p.number.length ≤ 4 ∧
    ∀ tail, readLength (p.number ++ tail) = some (p.body.length, tail) := by
  obtain ⟨number, heq, hpos, hle, hall⟩ := readFigures_split p.isLength
  obtain rfl := List.append_cancel_right heq
  exact ⟨hpos, hle, hall⟩

end Received

/-! ## Strings and messages -/

/-- A string with its length in front, in two bytes. -/
def string (s : List UInt8) : List UInt8 :=
  UInt8.ofNat (s.length / 256) :: UInt8.ofNat (s.length % 256) :: s

@[simp] theorem length_string (s : List UInt8) : (string s).length = s.length + 2 := rfl

/-- A received PUBLISH packet of quality of service 0 with this topic and this payload. -/
structure Received.Carries (p : Received) (topic payload : List UInt8) : Prop where
  isPublish : p.header &&& 0xf6 = 0x30
  topic_lt : topic.length < 2 ^ 16
  body : p.body = string topic ++ payload

theorem Received.Carries.length_body {p : Received} {topic payload : List UInt8}
    (h : p.Carries topic payload) : p.body.length = 2 + topic.length + payload.length := by
  rw [h.body, List.length_append, length_string]
  omega

/-- The payload ends the packet. -/
theorem Received.Carries.drop {p : Received} {topic payload : List UInt8}
    (h : p.Carries topic payload) :
    p.bytes.drop (p.number.length + 3 + topic.length) = payload := by
  have hlen : p.number.length + 3 + topic.length = (p.header :: (p.number ++ string topic)).length := by
    simp only [List.length_cons, List.length_append, length_string]
    omega
  have hbytes : p.bytes = p.header :: (p.number ++ string topic) ++ payload := by
    rw [bytes, h.body, List.cons_append, List.append_assoc]
  rw [hbytes, hlen, List.drop_left]

/-- A PUBLISH packet of quality of service 0. -/
structure Publish where
  /-- The type 3 in the high half, and among the flags quality of service 0. -/
  header : UInt8
  topic : List UInt8
  payload : List UInt8
  isPublish : header &&& 0xf6 = 0x30
  topic_lt : topic.length < 2 ^ 16
  body_lt : 2 + topic.length + payload.length < maxLength

namespace Publish

/-- What follows the remaining length. -/
def body (p : Publish) : List UInt8 := string p.topic ++ p.payload

def bytes (p : Publish) : List UInt8 := packet p.header p.body

theorem length_body (p : Publish) : p.body.length = 2 + p.topic.length + p.payload.length := by
  rw [body, List.length_append, length_string]
  omega

theorem type_header (p : Publish) : p.header &&& 0xf0 = 0x30 := by
  have hmask : (0xf0 : UInt8) = 0xf6 &&& 0xf0 := by decide
  calc p.header &&& 0xf0 = (p.header &&& 0xf6) &&& 0xf0 := by rw [UInt8.and_assoc, ← hmask]
    _ = 0x30 := by rw [p.isPublish]; decide

/-- The packet as it is received. -/
def received (p : Publish) : Received :=
  ⟨p.header, remainingLength p.body.length, p.body,
    readLength_remainingLength (p.length_body ▸ p.body_lt) p.body⟩

theorem carries (p : Publish) : p.received.Carries p.topic p.payload :=
  ⟨p.isPublish, p.topic_lt, rfl⟩

end Publish

/-! ## What the client sends -/

/-- Read a number of two bytes. -/
def readNumber : List UInt8 → Option (Nat × List UInt8)
  | a :: b :: s => some (256 * a.toNat + b.toNat, s)
  | _ => none

/-- Read a string with its length in front. -/
def readString (s : List UInt8) : Option (List UInt8 × List UInt8) :=
  (readNumber s).bind fun (n, s) => if n ≤ s.length then some (s.take n, s.drop n) else none

/-- Read one packet and nothing behind it: its first byte, and what follows the remaining length. -/
def readPacket : List UInt8 → Option (UInt8 × List UInt8)
  | [] => none
  | header :: s => (readLength s).bind fun (n, body) => if n = body.length then some (header, body) else none

/-- A string that is there when a flag says so. -/
def readField (present : Prop) [Decidable present] (s : List UInt8) :
    Option (Option (List UInt8) × List UInt8) :=
  if present then (readString s).map fun r => (some r.1, r.2) else some (none, s)

/-- A CONNECT packet. -/
structure Connect where
  protocolName : List UInt8
  level : UInt8
  flags : UInt8
  keepAlive : Nat
  clientId : List UInt8
  willTopic : Option (List UInt8)
  willMessage : Option (List UInt8)
  userName : Option (List UInt8)
  password : Option (List UInt8)
  deriving DecidableEq

/-- What follows the protocol name. -/
def readConnectFields (protocolName : List UInt8) : List UInt8 → Option Connect
  | level :: flags :: s => do
    let (keepAlive, s) ← readNumber s
    let (clientId, s) ← readString s
    let (willTopic, s) ← readField (flags &&& 0x04 ≠ 0) s
    let (willMessage, s) ← readField (flags &&& 0x04 ≠ 0) s
    let (userName, s) ← readField (flags &&& 0x80 ≠ 0) s
    let (password, s) ← readField (flags &&& 0x40 ≠ 0) s
    if s = [] then
      some ⟨protocolName, level, flags, keepAlive, clientId, willTopic, willMessage, userName, password⟩
    else none
  | _ => none

/-- Read a CONNECT packet. Of its first byte only the type is used. -/
def readConnect (s : List UInt8) : Option Connect := do
  let (header, body) ← readPacket s
  if header &&& 0xf0 ≠ 0x10 then none
  else
    let (protocolName, s) ← readString body
    readConnectFields protocolName s

/-- A SUBSCRIBE packet: its identifier, and the topics with the quality of service asked for. -/
structure Subscribe where
  packetId : Nat
  topics : List (List UInt8 × Nat)
  deriving DecidableEq

/-- Read topics up to the end. Every round takes three bytes at least. -/
def readTopics : Nat → List UInt8 → Option (List (List UInt8 × Nat))
  | _, [] => some []
  | 0, _ :: _ => none
  | rounds + 1, s =>
    (readString s).bind fun
      | (_, []) => none
      | (topic, qos :: s) =>
        if qos.toNat ≤ 2 then (readTopics rounds s).map fun rest => (topic, qos.toNat) :: rest
        else none

/-- Read a SUBSCRIBE packet, which has quality of service 1. -/
def readSubscribe (s : List UInt8) : Option Subscribe := do
  let (header, body) ← readPacket s
  if header &&& 0xf6 ≠ 0x82 then none
  else
    let (packetId, s) ← readNumber body
    let topics ← readTopics s.length s
    if topics = [] then none else some ⟨packetId, topics⟩

theorem readNumber_bytes {n : Nat} (h : n < 2 ^ 16) (s : List UInt8) :
    readNumber (UInt8.ofNat (n / 256) :: UInt8.ofNat (n % 256) :: s) = some (n, s) := by
  have hhigh : (UInt8.ofNat (n / 256)).toNat = n / 256 := toNat_ofNat_lt (by omega)
  have hlow : (UInt8.ofNat (n % 256)).toNat = n % 256 := toNat_ofNat_lt (by omega)
  rw [readNumber, hhigh, hlow, Nat.div_add_mod]

/-- **A string reads back.** -/
theorem readString_string {str : List UInt8} (h : str.length < 2 ^ 16) (s : List UInt8) :
    readString (string str ++ s) = some (str, s) := by
  have hnumber : readNumber (string str ++ s) = some (str.length, str ++ s) := readNumber_bytes h _
  have hle : str.length ≤ (str ++ s).length := by simp
  rw [readString, hnumber]
  show (if str.length ≤ (str ++ s).length then _ else none) = _
  rw [if_pos hle, List.take_left, List.drop_left]

theorem readField_string {present : Prop} [Decidable present] (hpresent : present)
    {str : List UInt8} (h : str.length < 2 ^ 16) (s : List UInt8) :
    readField present (string str ++ s) = some (some str, s) := by
  rw [readField, if_pos hpresent, readString_string h, Option.map_some]

theorem readField_none {present : Prop} [Decidable present] (hpresent : ¬ present) (s : List UInt8) :
    readField present s = some (none, s) := if_neg hpresent

theorem readTopics_string {topic : List UInt8} {qos : UInt8} (h : topic.length < 2 ^ 16)
    (hqos : qos.toNat ≤ 2) (rounds : Nat) (s : List UInt8) :
    readTopics (rounds + 1) (string topic ++ qos :: s) =
      (readTopics rounds s).map fun rest => (topic, qos.toNat) :: rest := by
  rw [readTopics]
  · rw [readString_string h]
    exact if_pos hqos
  · intro hnil
    exact List.cons_ne_nil _ _ hnil

/-- **A packet reads back**: the number in it is that of the bytes behind it. -/
theorem readPacket_packet {header : UInt8} {body : List UInt8} (h : body.length < maxLength) :
    readPacket (packet header body) = some (header, body) := by
  rw [packet, readPacket, readLength_remainingLength h]
  exact if_pos rfl

/-! ## What the broker answers -/

/-- The answer to CONNECT, when it is accepted. -/
def connAck : List UInt8 := packet 0x20 [0x00, 0x00]

/-- The answer to SUBSCRIBE with the packet identifier 1. -/
def subAck (qos : UInt8) : List UInt8 := packet 0x90 [0x00, 0x01, qos]

/-- The packet that answers a ping. -/
def pingResp : List UInt8 := packet 0xd0 []

example : pingResp = [0xd0, 0] := by decide

end Mqtt

import KiiThing.Mqtt.Notification

/-!
# Packets, pieces and the stream

Two ways in which packets come to `kiiPush_receivePushNotification`.

* `cutting`: one packet, in pieces of any length up to what is asked for. The notification is
  delivered if and only if the first piece is two bytes and the second one eight
  (`deliveredWhole_iff`), since only the reads behind these two are repeated.
* `following`: packets one after the other, with every read filled as long as enough follows. Every
  call ends at the end of a packet if and only if no PUBLISH packet that is shorter than ten bytes is
  followed by what fills them (`framingKept_iff`), since ten bytes are read before its length is
  known.
-/

namespace KiiThing

open Mqtt (Publish)

variable {w : Nat} {signed : Bool} {m : Push w}

/-- In `incoming` nothing keeps a run from going on. -/
theorem incoming_answers {D : List (List Byte) → Nat → List Byte → Prop}
    (h : ∀ pieces n, ∃ data, D pieces n data) (g : Incoming) (c : PushCall) :
    ∃ r, (incoming D).answers g c r := by
  cases c with
  | recv n =>
    obtain ⟨data, hdata⟩ := h g.pieces n
    exact ⟨(⟨.ok, data, 1⟩ : SocketReply), hdata⟩
  | connect _ _ => exact ⟨(⟨.ok, [], 1⟩ : SocketReply), trivial⟩
  | send _ => exact ⟨(⟨.ok, [], 1⟩ : SocketReply), trivial⟩
  | close => exact ⟨(⟨.ok, [], 1⟩ : SocketReply), trivial⟩
  | setConnected _ => exact ⟨(), trivial⟩
  | pushReceived _ _ _ => exact ⟨(), trivial⟩
  | install => exact ⟨(none : Option CString), trivial⟩
  | retrieveEndpoint _ => exact ⟨(.error, Endpoint.empty), trivial⟩
  | delay _ => exact ⟨(), trivial⟩

/-! ## A packet in pieces -/

/-- The packet comes in pieces of the lengths that `cut` says: after these pieces, to a read of `n`
bytes. -/
def cutting (packet : List Byte) (cut : List (List Byte) → Nat → Nat) (pieces : List (List Byte))
    (n : Nat) (data : List Byte) : Prop :=
  data = (packet.drop pieces.flatten.length).take (cut pieces n)

/-- Pieces that are not empty, and no longer than what is asked for. -/
def Cuts (cut : List (List Byte) → Nat → Nat) : Prop :=
  ∀ pieces n, cut pieces n ≤ n ∧ (0 < n → 0 < cut pieces n)

/-- The call returns, and it returns 0 and hands on one notification, which is the payload. -/
def DeliveredWhole (signed : Bool) (m : Push w) (p : Publish)
    (cut : List (List Byte) → Nat → Nat) : Prop :=
  let Returns := (kiiPushReceivePushNotification signed m).Runs (incoming (cutting p.bytes cut))
    ⟨[], []⟩
  (∃ r g', Returns r g') ∧
    ∀ r g', Returns r g' → r.1 = 0 ∧ g'.pushed.map Pushed.text = [some p.payload]

section

variable {p : Publish} {cut : List (List Byte) → Nat → Nat}

theorem feeds_cutting {packet : List Byte} (hcut : Cuts cut) : Feeds (cutting packet cut) packet := by
  refine ⟨?_, ?_, ?_⟩
  · rintro pieces n data rfl
    exact List.take_prefix _ _
  · rintro pieces n data rfl
    exact Nat.le_trans (List.length_take_le _ _) (hcut pieces n).1
  · rintro pieces n data rfl hn hfit
    have hpos := (hcut pieces n).2 hn
    rw [List.length_take, List.length_drop]
    omega

theorem exists_cutting {packet : List Byte} (m : Push w) :
    ∃ r g', (kiiPushReceivePushNotification signed m).Runs (incoming (cutting packet cut))
      ⟨[], []⟩ r g' := by
  apply Prog.exists_runs
  apply incoming_answers
  intro pieces n
  exact ⟨_, rfl⟩

theorem cutting_first (htwo : cut [] 2 = 2) {data : List Byte}
    (h : cutting p.bytes cut [] 2 data) : data = p.bytes.take 2 := by
  rw [← htwo]
  exact h

theorem length_cutting_second (hten : 10 ≤ p.bytes.length) {data : List Byte}
    (h : cutting p.bytes cut [p.bytes.take 2] 8 data) :
    data.length = min (cut [p.bytes.take 2] 8) (p.bytes.length - 2) := by
  have hdata : data = (p.bytes.drop (p.bytes.take 2 ++ []).length).take (cut [p.bytes.take 2] 8) := h
  rw [hdata, List.length_take, List.length_drop, List.append_nil, List.length_take]
  omega

/-- A first piece of one byte. -/
theorem not_delivered_first (hcut : Cuts cut) (h : cut [] 2 ≠ 2) : ¬ DeliveredWhole signed m p cut := by
  rintro ⟨⟨r, g', hrun⟩, hall⟩
  have hshort : ∀ data, cutting p.bytes cut [] 2 data → data.length ≠ 2 := by
    rintro data rfl
    have hle := (hcut [] 2).1
    rw [List.length_take]
    omega
  have hfail := (receive_first (g := ⟨[], []⟩) hshort).of_runs hrun
  exact fails_ne (hfail.1.symm.trans (hall r g' hrun).1)

/-- A second piece of fewer than eight bytes. -/
theorem not_delivered_second (hcut : Cuts cut) (hten : 10 ≤ p.bytes.length)
    (hfits : p.bytes.length ≤ m.buffer.size) (htwo : cut [] 2 = 2)
    (h : cut [p.bytes.take 2] 8 ≠ 8) : ¬ DeliveredWhole signed m p cut := by
  rintro ⟨⟨r, g', hrun⟩, hall⟩
  have hcount : ∀ data, cutting p.bytes cut [] 2 data → data.length = 2 := by
    intro data hdata
    rw [cutting_first htwo hdata, List.length_take]
    omega
  have hshort : ∀ first data, cutting p.bytes cut [] 2 first →
      cutting p.bytes cut ([] ++ [first]) 8 data → data.length ≠ 8 := by
    intro first data hfirst hdata
    obtain rfl := cutting_first htwo hfirst
    have hle := (hcut [p.bytes.take 2] 8).1
    rw [length_cutting_second hten hdata]
    omega
  have hat : p.bytes.drop (Incoming.consumed ⟨[], []⟩) = p.bytes ++ [] := (List.append_nil _).symm
  have hfail := (receive_second (feeds_cutting hcut) hat hfits hcount hshort).of_runs hrun
  exact fails_ne (hfail.1.symm.trans (hall r g' hrun).1)

/-- **When a notification that comes in pieces is delivered.** -/
theorem deliveredWhole_iff (hcut : Cuts cut) (hten : 10 ≤ p.bytes.length)
    (hfits : p.bytes.length ≤ m.buffer.size) (htopic : p.topic.length < 128)
    (hpayload : 1 ≤ p.payload.length) :
    DeliveredWhole signed m p cut ↔ cut [] 2 = 2 ∧ cut [p.bytes.take 2] 8 = 8 := by
  constructor
  · intro hall
    have htwo : cut [] 2 = 2 := by
      by_contra h
      exact not_delivered_first hcut h hall
    refine ⟨htwo, ?_⟩
    by_contra h
    exact not_delivered_second hcut hten hfits htwo h hall
  · rintro ⟨htwo, height⟩
    refine ⟨exists_cutting m, ?_⟩
    intro r g' hrun
    have hfirst : ∀ data, cutting p.bytes cut [] 2 data → data.length = 2 := by
      intro data hdata
      rw [cutting_first htwo hdata, List.length_take]
      omega
    have hsecond : ∀ first data, cutting p.bytes cut [] 2 first →
        cutting p.bytes cut ([] ++ [first]) 8 data → data.length = 8 := by
      intro first data hone hdata
      obtain rfl := cutting_first htwo hone
      rw [length_cutting_second hten hdata, height]
      omega
    have hat : p.bytes.drop (Incoming.consumed ⟨[], []⟩) = p.bytes ++ [] :=
      (List.append_nil _).symm
    obtain ⟨hzero, _, _, pushed, hpushed, htext⟩ :=
      (receive_publish (feeds_cutting hcut) hat hpayload hfits hfirst hsecond).of_runs hrun
    refine ⟨hzero, ?_⟩
    rw [hpushed, List.nil_append, List.map_singleton, htext htopic]

end

/-- A notification of twelve bytes. -/
def hello : Publish where
  header := 0x30
  topic := Http.ascii "t/1"
  payload := Http.ascii "hello"
  isPublish := by decide
  topic_lt := by decide
  body_lt := by decide

/-- Delivered when every read is filled. -/
theorem deliveredWhole_iff_of_hello : DeliveredWhole true openPush hello fun _ n => n :=
  (deliveredWhole_iff (fun _ _ => ⟨Nat.le_refl _, id⟩) (by decide) (by decide) (by decide)
    (by decide)).mpr ⟨rfl, rfl⟩

/-- Not delivered byte by byte. -/
theorem deliveredWhole_fails :
    (Cuts fun _ n => min n 1) ∧ 10 ≤ hello.bytes.length ∧
      hello.bytes.length ≤ openPush.buffer.size ∧ hello.topic.length < 128 ∧
      1 ≤ hello.payload.length ∧ ¬ DeliveredWhole true openPush hello fun _ n => min n 1 := by
  have hcuts : Cuts fun _ n => min n 1 := by
    intro _ n
    exact ⟨Nat.min_le_left n 1, fun hn => Nat.lt_min.mpr ⟨hn, Nat.one_pos⟩⟩
  exact ⟨hcuts, by decide, by decide, by decide, by decide, not_delivered_first hcuts (by decide)⟩

/-! ## A stream of packets -/

/-- What the broker sends to a client that has opened. -/
inductive Packet where
  | publish (p : Publish)
  | pingResp

def Packet.bytes : Packet → List Byte
  | publish p => p.bytes
  | pingResp => Mqtt.pingResp

def stream (packets : List Packet) : List Byte := packets.flatMap Packet.bytes

/-- A read of `n` bytes gets a beginning of what follows, and `n` bytes of it if that many follow. -/
def following (S : List Byte) (pieces : List (List Byte)) (n : Nat) (data : List Byte) : Prop :=
  data <+: S.drop pieces.flatten.length ∧ data.length ≤ n ∧
    (pieces.flatten.length + n ≤ S.length → data.length = n)

/-- So many calls have returned 0, one after the other. -/
inductive Handled (signed : Bool) (S : List Byte) (m₀ : Push w) (g₀ : Incoming) :
    Nat → Push w → Incoming → Prop
  | start : Handled signed S m₀ g₀ 0 m₀ g₀
  | call {k : Nat} {m m' : Push w} {g g' : Incoming} (h : Handled signed S m₀ g₀ k m g)
      (hrun : (kiiPushReceivePushNotification signed m).Runs (incoming (following S)) g (0, m') g') :
      Handled signed S m₀ g₀ (k + 1) m' g'

/-- With every call that returns 0, one packet more has been taken from the stream. -/
def FramingKept (signed : Bool) (m : Push w) (packets : List Packet) : Prop :=
  ∀ k m' g', Handled signed (stream packets) m ⟨[], []⟩ k m' g' →
    k ≤ packets.length ∧ g'.consumed = (stream (packets.take k)).length

/-- The PUBLISH packets have a payload and fit into the buffer. -/
def Suits (packets : List Packet) (size : Nat) : Prop :=
  ∀ p, .publish p ∈ packets → 1 ≤ p.payload.length ∧ p.bytes.length ≤ size

section

variable {packets : List Packet} {S rest : List Byte} {g : Incoming} {n : Nat}

theorem feeds_following (S : List Byte) : Feeds (following S) S := by
  refine ⟨fun h => h.1, fun h => h.2.1, ?_⟩
  intro pieces n data h hn hfit
  rw [h.2.2 hfit]
  exact hn

theorem exists_following (p : PushProg (Int × Push w)) (g : Incoming) :
    ∃ r g', p.Runs (incoming (following S)) g r g' := by
  apply Prog.exists_runs
  apply incoming_answers
  intro pieces n
  refine ⟨(S.drop pieces.flatten.length).take n, List.take_prefix _ _, List.length_take_le _ _, ?_⟩
  intro hfit
  rw [List.length_take, List.length_drop]
  omega

/-- A read is filled if and only if that much follows. -/
theorem following_length (hat : S.drop g.consumed = rest) (hlt : g.consumed ≤ S.length)
    {data : List Byte} (h : following S g.pieces n data) : data.length = n ↔ n ≤ rest.length := by
  have hle := h.1.length_le
  have hlen := congrArg List.length hat
  rw [List.length_drop] at hlen hle
  have hconsumed : g.consumed = g.pieces.flatten.length := rfl
  constructor
  · intro hdata
    omega
  · intro hn
    apply h.2.2
    omega

theorem consumed_lt (hat : S.drop g.consumed = rest) (hrest : 0 < rest.length) :
    g.consumed ≤ S.length := by
  have hlen := congrArg List.length hat
  rw [List.length_drop] at hlen
  omega

/-- The two reads that come first, where ten bytes follow. -/
theorem following_first (hat : S.drop g.consumed = rest) (htwo : 2 ≤ rest.length) (data : List Byte)
    (h : following S g.pieces 2 data) : data.length = 2 :=
  (following_length hat (consumed_lt hat (by omega)) h).mpr htwo

theorem following_second (hat : S.drop g.consumed = rest) (htwo : 2 ≤ rest.length)
    (first data : List Byte) (hfirst : following S g.pieces 2 first)
    (h : following S (g.pieces ++ [first]) 8 data) : data.length = 8 ↔ 10 ≤ rest.length := by
  have hcount := following_first hat htwo first hfirst
  have hconsumed := consumed_append g first
  rw [hcount] at hconsumed
  have hnext : S.drop (Incoming.consumed { g with pieces := g.pieces ++ [first] }) = rest.drop 2 := by
    rw [hconsumed, ← List.drop_drop, hat]
  have hle : Incoming.consumed { g with pieces := g.pieces ++ [first] } ≤ S.length := by
    have hlen := congrArg List.length hat
    rw [List.length_drop] at hlen
    omega
  rw [following_length hnext hle h, List.length_drop]
  omega

/-- No packet follows. -/
theorem call_end (hat : S.drop g.consumed = []) (hle : g.consumed ≤ S.length) :
    (kiiPushReceivePushNotification signed m).Meets (incoming (following S)) g fun r _ =>
      r.1 = -1 := by
  apply (receive_first _).mono
  · intro r g' h
    exact h.1
  · intro data hdata hcount
    have htwo := (following_length hat hle hdata).mp hcount
    exact absurd htwo (by decide)

theorem call_pingResp (hat : S.drop g.consumed = Packet.pingResp.bytes ++ rest) :
    (kiiPushReceivePushNotification signed m).Meets (incoming (following S)) g fun r g' =>
      r.1 = 0 ∧ r.2.buffer.size = m.buffer.size ∧ g'.consumed = g.consumed + 2 := by
  have hcons : S.drop g.consumed = 0xd0 :: 0x00 :: rest := hat
  apply (receive_other (feeds_following S) hcons (by decide) (following_first hcons (by simp))).mono
  intro r g' h
  exact ⟨h.1, h.2.1, h.2.2.1⟩

variable {p : Publish}

theorem call_publish (hat : S.drop g.consumed = p.bytes ++ rest) (hpayload : 1 ≤ p.payload.length)
    (hfits : p.bytes.length ≤ m.buffer.size) (hten : 10 ≤ p.bytes.length + rest.length) :
    (kiiPushReceivePushNotification signed m).Meets (incoming (following S)) g fun r g' =>
      r.1 = 0 ∧ r.2.buffer.size = m.buffer.size ∧
        g'.consumed = g.consumed + max 10 p.bytes.length := by
  have hlen : (p.bytes ++ rest).length = p.bytes.length + rest.length := List.length_append
  apply (receive_publish (feeds_following S) hat hpayload hfits
    (following_first hat (by omega)) _).mono
  · intro r g' h
    exact ⟨h.1, h.2.1, h.2.2.1⟩
  · intro first data hfirst hdata
    exact (following_second hat (by omega) first data hfirst hdata).mpr (by omega)

/-- A PUBLISH packet that is followed by too little. -/
theorem call_short (hat : S.drop g.consumed = p.bytes ++ rest)
    (hfits : p.bytes.length ≤ m.buffer.size) (hten : p.bytes.length + rest.length < 10) :
    (kiiPushReceivePushNotification signed m).Meets (incoming (following S)) g fun r _ =>
      r.1 = -1 := by
  have hlen : (p.bytes ++ rest).length = p.bytes.length + rest.length := List.length_append
  have hfigures := lengthBytes_le p
  have htwo : 2 ≤ (p.bytes ++ rest).length := by
    rw [hlen, length_publish]
    omega
  apply (receive_second (feeds_following S) hat hfits (following_first hat htwo) _).mono
  · intro r g' h
    exact h.1
  · intro first data hfirst hdata hcount
    have hall := (following_second hat htwo first data hfirst hdata).mp hcount
    omega

end

/-! ## Runs of calls -/

theorem stream_append (as bs : List Packet) : stream (as ++ bs) = stream as ++ stream bs :=
  List.flatMap_append

theorem stream_cons (q : Packet) (qs : List Packet) : stream (q :: qs) = q.bytes ++ stream qs :=
  List.flatMap_cons

/-- Packets have been taken from the stream, and no byte of the next. -/
structure Between (packets : List Packet) (size k : Nat) (m : Push w) (g : Incoming) : Prop where
  size_eq : m.buffer.size = size
  le : k ≤ packets.length
  consumed : g.consumed = (stream (packets.take k)).length

section

variable {packets post : List Packet} {q : Packet} {size k : Nat} {g : Incoming}

/-- What follows in the stream. -/
theorem Between.drop (h : Between packets size k m g) :
    (stream packets).drop g.consumed = stream (packets.drop k) := by
  have hsplit : stream packets = stream (packets.take k) ++ stream (packets.drop k) := by
    rw [← stream_append, List.take_append_drop]
  rw [h.consumed, hsplit, List.drop_left]

theorem length_stream_take (hnext : packets.drop k = q :: post) :
    (stream (packets.take (k + 1))).length =
      (stream (packets.take k)).length + q.bytes.length := by
  have hget : packets[k]? = some q := by
    rw [← List.head?_drop, hnext]
    rfl
  have hone : stream [q] = q.bytes := by
    rw [stream_cons]
    exact List.append_nil _
  rw [List.take_add_one, hget, stream_append, List.length_append, ← hone]
  rfl

theorem Between.next (h : Between packets size k m g) (hnext : packets.drop k = q :: post)
    {m' : Push w} {g' : Incoming} (hsize : m'.buffer.size = m.buffer.size)
    (hconsumed : g'.consumed = g.consumed + q.bytes.length) :
    Between packets size (k + 1) m' g' := by
  have hlen := congrArg List.length hnext
  rw [List.length_drop, List.length_cons] at hlen
  refine ⟨hsize.trans h.size_eq, by omega, ?_⟩
  rw [hconsumed, h.consumed, length_stream_take hnext]

/-- A PUBLISH packet is swallowed with what follows it, unless it has ten bytes or the ten are not
reached. -/
def NoneSwallows (packets : List Packet) : Prop :=
  ∀ pre p post, packets = pre ++ .publish p :: post → p.bytes.length < 10 →
    p.bytes.length + (stream post).length < 10

/-- **A run of calls**, where none swallows what follows. -/
theorem Handled.between (hsuits : Suits packets m.buffer.size) (hnone : NoneSwallows packets)
    {m' : Push w} {g' : Incoming} (h : Handled signed (stream packets) m ⟨[], []⟩ k m' g') :
    Between packets m.buffer.size k m' g' := by
  induction h with
  | start => exact ⟨rfl, Nat.zero_le _, rfl⟩
  | @call k m₁ m₂ g₁ g₂ _ hrun ih =>
    have hat := ih.drop
    cases hnext : packets.drop k with
    | nil =>
      -- Nothing follows, and the call cannot have returned 0.
      rw [hnext] at hat
      have hle : g₁.consumed ≤ (stream packets).length := by
        rw [ih.consumed]
        conv_rhs => rw [← List.take_append_drop k packets, stream_append, List.length_append]
        exact Nat.le_add_right _ _
      have hfail : (0 : Int) = -1 := (call_end hat hle).of_runs hrun
      exact absurd hfail.symm fails_ne
    | cons q post =>
      rw [hnext, stream_cons] at hat
      cases q with
      | pingResp =>
        obtain ⟨_, hsize, hconsumed⟩ := (call_pingResp hat).of_runs hrun
        exact ih.next hnext hsize hconsumed
      | publish p =>
        have hall : packets = packets.take k ++ .publish p :: post := by
          rw [← hnext, List.take_append_drop]
        have hmem : Packet.publish p ∈ packets := by
          rw [hall]
          exact List.mem_append_right _ List.mem_cons_self
        obtain ⟨hpayload, hfits⟩ := hsuits p hmem
        rw [← ih.size_eq] at hfits
        by_cases hten : 10 ≤ p.bytes.length
        · obtain ⟨_, hsize, hconsumed⟩ :=
            (call_publish hat hpayload hfits (by omega)).of_runs hrun
          rw [Nat.max_eq_right hten] at hconsumed
          exact ih.next hnext hsize hconsumed
        · -- The ten bytes are not reached, and the call cannot have returned 0.
          have hshort := hnone _ p post hall (by omega)
          have hfail : (0 : Int) = -1 := (call_short hat hfits hshort).of_runs hrun
          exact absurd hfail.symm fails_ne

/-- The calls go on to a packet behind which ten bytes are reached. -/
theorem exists_handled (hsuits : Suits packets m.buffer.size) (hkept : FramingKept signed m packets)
    {pre : List Packet} {p : Publish} (hall : packets = pre ++ .publish p :: post)
    (hten : 10 ≤ p.bytes.length + (stream post).length) (hk : k ≤ pre.length) :
    ∃ m' g', Handled signed (stream packets) m ⟨[], []⟩ k m' g' ∧
      Between packets m.buffer.size k m' g' := by
  induction k with
  | zero => exact ⟨m, ⟨[], []⟩, .start, rfl, Nat.zero_le _, rfl⟩
  | succ k ih =>
    obtain ⟨m₁, g₁, hhandled, hbetween⟩ := ih (by omega)
    have hat := hbetween.drop
    obtain ⟨q, rest, hnext⟩ : ∃ q rest, pre.drop k = q :: rest :=
      ⟨_, _, List.drop_eq_getElem_cons (by omega)⟩
    have hdrop : packets.drop k = q :: (rest ++ .publish p :: post) := by
      rw [hall, List.drop_append_of_le_length (by omega), hnext, List.cons_append]
    have hmem : q ∈ packets := List.mem_of_mem_drop (by rw [hdrop]; exact List.mem_cons_self)
    rw [hdrop, stream_cons] at hat
    obtain ⟨r, g₂, hrun⟩ := exists_following (S := stream packets)
      (kiiPushReceivePushNotification signed m₁) g₁
    have hzero : r.1 = 0 ∧ r.2.buffer.size = m₁.buffer.size := by
      cases q with
      | pingResp =>
        have hping := (call_pingResp hat).of_runs hrun
        exact ⟨hping.1, hping.2.1⟩
      | publish q =>
        obtain ⟨hpayload, hfits⟩ := hsuits q hmem
        rw [← hbetween.size_eq] at hfits
        -- The ten bytes are reached with the packets up to `p` and those behind it.
        have hfollow : 10 ≤ q.bytes.length + (stream (rest ++ .publish p :: post)).length := by
          rw [stream_append, List.length_append, stream_cons, List.length_append]
          show 10 ≤ q.bytes.length + ((stream rest).length + (p.bytes.length + (stream post).length))
          omega
        have hpublish := (call_publish hat hpayload hfits hfollow).of_runs hrun
        exact ⟨hpublish.1, hpublish.2.1⟩
    obtain ⟨code, m₂⟩ := r
    obtain ⟨rfl, hsize⟩ := hzero
    -- That the call ends at the end of a packet is what is assumed.
    have hnew := hhandled.call hrun
    obtain ⟨hle, hconsumed⟩ := hkept _ _ _ hnew
    exact ⟨m₂, g₂, hnew, hsize.trans hbetween.size_eq, hle, hconsumed⟩

/-- **When framing is kept.** -/
theorem framingKept_iff (hsuits : Suits packets m.buffer.size) :
    FramingKept signed m packets ↔ NoneSwallows packets := by
  constructor
  · intro hkept pre p post hall hshort
    by_contra hten
    obtain ⟨m₁, g₁, hhandled, hbetween⟩ :=
      exists_handled (k := pre.length) hsuits hkept hall (by omega) (Nat.le_refl _)
    have hat := hbetween.drop
    have hdrop : packets.drop pre.length = .publish p :: post := by
      rw [hall, List.drop_left]
    have hmem : Packet.publish p ∈ packets := by
      rw [hall]
      exact List.mem_append_right _ List.mem_cons_self
    obtain ⟨hpayload, hfits⟩ := hsuits p hmem
    rw [← hbetween.size_eq] at hfits
    rw [hdrop, stream_cons] at hat
    obtain ⟨⟨code, m₂⟩, g₂, hrun⟩ := exists_following (S := stream packets)
      (kiiPushReceivePushNotification signed m₁) g₁
    obtain ⟨hzero, hsize, hconsumed⟩ :=
      (call_publish hat hpayload hfits (by omega)).of_runs hrun
    obtain rfl : code = 0 := hzero
    -- Ten bytes are gone, and the packet has fewer.
    have hpacket := (hkept _ _ _ (hhandled.call hrun)).2
    rw [length_stream_take hdrop, ← hbetween.consumed, hconsumed] at hpacket
    have hbytes : Packet.bytes (.publish p) = p.bytes := rfl
    rw [hbytes] at hpacket
    omega
  · intro hnone k m' g' h
    have hbetween := h.between hsuits hnone
    exact ⟨hbetween.le, hbetween.consumed⟩

end

/-- Notifications of twelve bytes keep the packets apart. -/
theorem framingKept_iff_of_hello :
    FramingKept true openPush [.publish hello, .pingResp, .publish hello] := by
  have honly : ∀ p, Packet.publish p ∈ [.publish hello, .pingResp, .publish hello] → p = hello := by
    intro p hp
    simpa using hp
  have hsuits : Suits [.publish hello, .pingResp, .publish hello] openPush.buffer.size := by
    intro p hp
    rw [honly p hp]
    decide
  apply (framingKept_iff hsuits).mpr
  intro pre p post hall hshort
  have hmem : Packet.publish p ∈ [.publish hello, .pingResp, .publish hello] := by
    rw [hall]
    exact List.mem_append_right _ List.mem_cons_self
  rw [honly p hmem] at hshort
  exact absurd hshort (by decide)

/-- A notification of six bytes. -/
def short : Publish where
  header := 0x30
  topic := Http.ascii "t"
  payload := Http.ascii "!"
  isPublish := by decide
  topic_lt := by decide
  body_lt := by decide

/-- It takes the two packets behind it from the stream. -/
theorem framingKept_fails :
    Suits [.publish short, .pingResp, .pingResp] openPush.buffer.size ∧
      ¬ FramingKept true openPush [.publish short, .pingResp, .pingResp] := by
  refine ⟨?_, ?_⟩
  · intro p hp
    obtain rfl : p = short := by simpa using hp
    decide
  · intro hkept
    have hat : (stream [.publish short, .pingResp, .pingResp]).drop (Incoming.consumed ⟨[], []⟩) =
        short.bytes ++ stream [.pingResp, .pingResp] := rfl
    obtain ⟨⟨code, m'⟩, g', hrun⟩ := exists_following
      (S := stream [.publish short, .pingResp, .pingResp])
      (kiiPushReceivePushNotification true openPush) ⟨[], []⟩
    obtain ⟨hzero, _, hconsumed⟩ :=
      (call_publish hat (by decide) (by decide) (by decide)).of_runs hrun
    obtain rfl : code = 0 := hzero
    have hpacket := (hkept _ _ _ (Handled.start.call hrun)).2
    rw [hconsumed] at hpacket
    exact absurd hpacket (by decide)

end KiiThing

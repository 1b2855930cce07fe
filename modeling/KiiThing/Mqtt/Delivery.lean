import KiiThing.Mqtt.Framing

/-!
# What is handed on

A PUBLISH packet of any body comes to `kiiPush_receivePushNotification`: its header, the figures of
its length, and bytes of which the first two are taken for the length of a topic.

* The connection breaks behind the first ten bytes. The error of the loop is the largest `size_t`, so
  that the packet is taken for complete, and it is refused only where a complete one would be
  (`refusedBroken_iff`).
* All of it comes. What is handed on ends where the packet ends; where it begins depends on
  `shortfall`, the part of the topic length that is missing when its bytes are signed
  (`deliversSlice_iff`).
-/

namespace KiiThing

open Mqtt (Received)

variable {w : Nat} {signed : Bool} {m : Push w} {p : Received}

/-! ## A connection that breaks -/

/-- **The loop fails when the packet does not come to its end**: the bytes of the packet that were
there are there still, and the error counts as more bytes than any packet has. -/
theorem receiveRest_breaks {D : List (List Byte) → Nat → List Byte → Prop} {X q : List Byte}
    (hfeeds : Feeds D X) (hat : X <+: q) (hbreak : X.length < q.length) (rounds : Nat)
    {bytes k : Nat} {m : Push w} {g : Incoming} (hle : bytes ≤ X.length) (hk : k ≤ bytes)
    (hrounds : q.length ≤ bytes + rounds) (hheld : Held m.buffer q bytes)
    (hconsumed : g.consumed = bytes) :
    (receiveRest q.length rounds bytes m).Meets (incoming D) g fun r g' =>
      r.1 = 2 ^ w - 1 ∧ Held r.2.buffer q k ∧ r.2.buffer.size = m.buffer.size ∧
        g'.pushed = g.pushed := by
  induction rounds generalizing bytes m g with
  | zero => exact absurd hrounds (by omega)
  | succ rounds ih =>
    have hnext : X.drop g.pieces.flatten.length <+: q.drop bytes ++ [] := by
      show X.drop g.consumed <+: _
      rw [hconsumed, List.append_nil]
      exact hat.drop bytes
    rw [receiveRest, if_pos (by omega), Prog.meets_bind]
    apply meets_recvCb
    intro r hr
    have hcut := hfeeds.cut hr
    have hshort := hcut.length_le
    rw [List.length_drop, show g.pieces.flatten.length = bytes from hconsumed] at hshort
    show Prog.Meets (incoming D) (if 0 < r.data.length then _ else _) _ _
    have hheld' := hheld.write (by omega) (hcut.trans hnext)
    by_cases hpos : 0 < r.data.length
    · rw [if_pos hpos]
      have hconsumed' : Incoming.consumed { g with pieces := g.pieces ++ [r.data] } =
          bytes + r.data.length := by rw [consumed_append, hconsumed]
      have hheld' : Held (Push.mk r.socket (m.buffer.write bytes r.data)).buffer q
          (bytes + r.data.length) := hheld'
      have hrest := ih (by omega) (by omega) (by omega) hheld' hconsumed'
      rw [Buffer.size_write] at hrest
      exact hrest
    · -- nothing comes any more: -1 is stored as a `size_t`
      rw [if_neg hpos]
      exact ⟨rfl, hheld'.mono (by omega), Buffer.size_write _ _ _, rfl⟩

/-- The call returns, it returns -1, and nothing is handed on, when the connection breaks behind the
first `k` bytes of the packet, which come in the pieces that `cut` says. -/
def RefusedBroken (signed : Bool) (m : Push w) (p : Received) (k : Nat)
    (cut : List (List Byte) → Nat → Nat) : Prop :=
  let Returns := (kiiPushReceivePushNotification signed m).Runs
    (incoming (cutting (p.bytes.take k) cut)) ⟨[], []⟩
  (∃ r g', Returns r g') ∧ ∀ r g', Returns r g' → r.1 = -1 ∧ g'.pushed = []

section

variable {cut : List (List Byte) → Nat → Nat} {k : Nat}

/-- What is known of the first two reads, when ten bytes come in two and eight. -/
theorem cutting_ten (cut : List (List Byte) → Nat → Nat) (q : List Byte) (htwo : cut [] 2 = 2)
    (height : cut [q.take 2] 8 = 8) (hten : 10 ≤ q.length) :
    (∀ data, cutting q cut [] 2 data → data.length = 2) ∧
      ∀ first data, cutting q cut [] 2 first → cutting q cut ([] ++ [first]) 8 data →
        data.length = 8 := by
  have hfirst : ∀ data, cutting q cut [] 2 data → data = q.take 2 := by
    rintro data rfl
    rw [htwo]
    rfl
  refine ⟨fun data hdata => ?_, fun first data hone hdata => ?_⟩
  · rw [hfirst data hdata, List.length_take]
    omega
  · obtain rfl := hfirst first hone
    have heq : data = (q.drop (q.take 2 ++ []).length).take (cut [q.take 2] 8) := hdata
    rw [heq, height, List.append_nil, List.length_take, List.length_drop, List.length_take]
    omega

/-- **A broken connection**: the packet is handed on where a complete one would be. -/
theorem broken_meets (signed : Bool) (hpublish : p.header &&& 0xf0 = 0x30)
    (hfits : p.bytes.length ≤ m.buffer.size) (hcut : Cuts cut) (htwo : cut [] 2 = 2)
    (height : cut [p.bytes.take 2] 8 = 8) (hk : 10 ≤ k) (hbreak : k < p.bytes.length) :
    (kiiPushReceivePushNotification signed m).Meets (incoming (cutting (p.bytes.take k) cut)) ⟨[], []⟩
      fun r g' => if p.body.length + shortfall signed p ≤ 2 + topicField p then
        r.1 = -1 ∧ g'.pushed = [] else r.1 = 0 ∧ g'.pushed ≠ [] := by
  have hlen := p.length_bytes
  obtain ⟨-, hfour, -⟩ := p.number_spec
  have htake : (p.bytes.take k).length = k := List.length_take_of_le (by omega)
  obtain ⟨hfirst, hsecond⟩ := cutting_ten cut (p.bytes.take k) htwo
    (by rw [List.take_take, Nat.min_eq_left (by omega)]; exact height) (by omega)
  have hat : (p.bytes.take k).drop (Incoming.consumed ⟨[], []⟩) <+: p.bytes ++ [] := by
    rw [List.append_nil]
    exact List.take_prefix k p.bytes
  apply receive_ten (feeds_cutting hcut) hat hpublish hfits hfirst hsecond
  intro m' g' hheld hsize hconsumed hpushed
  apply (receiveRest_breaks (feeds_cutting hcut) (List.take_prefix k p.bytes) (by omega) _ (by omega)
    (Nat.le_refl 10) (by omega) hheld hconsumed).mono
  intro r g₁ hr
  obtain ⟨hbytes, hheld₁, hsize₁, hpushed₁⟩ := hr
  -- the error is larger than the length of any packet that fits
  have hword := r.2.buffer.lt_word hheld₁.fits
  rw [if_neg (by omega), deliver_eq signed hheld₁ (by omega) (by omega)]
  split
  · exact ⟨rfl, hpushed₁.trans hpushed⟩
  · exact ⟨trivial, fun _ _ => ⟨rfl, List.append_ne_nil_of_right_ne_nil _ (List.cons_ne_nil _ _)⟩⟩

/-- **When a packet that is broken is refused.** -/
theorem refusedBroken_iff (hpublish : p.header &&& 0xf0 = 0x30)
    (hfits : p.bytes.length ≤ m.buffer.size) (hcut : Cuts cut) (htwo : cut [] 2 = 2)
    (height : cut [p.bytes.take 2] 8 = 8) (hk : 10 ≤ k) (hbreak : k < p.bytes.length) :
    RefusedBroken signed m p k cut ↔ p.body.length + shortfall signed p ≤ 2 + topicField p := by
  have hmeets := broken_meets signed hpublish hfits hcut htwo height hk hbreak
  have hexists : ∃ r g', (kiiPushReceivePushNotification signed m).Runs
      (incoming (cutting (p.bytes.take k) cut)) ⟨[], []⟩ r g' := exists_cutting m
  constructor
  · intro hall
    by_contra hcond
    obtain ⟨r, g', hrun⟩ := hexists
    have hend := hmeets.of_runs hrun
    rw [if_neg hcond] at hend
    exact hend.2 (hall.2 r g' hrun).2
  · intro hcond
    refine ⟨hexists, fun r g' hrun => ?_⟩
    have hend := hmeets.of_runs hrun
    rw [if_pos hcond] at hend
    exact hend

end

/-- A notification without a payload. -/
def quiet : Mqtt.Publish where
  header := 0x30
  topic := Http.ascii "t/123456"
  payload := []
  isPublish := rfl
  topic_lt := by decide
  body_lt := by decide

/-- It is refused, since nothing stands behind its topic. -/
theorem refusedBroken_of_quiet : RefusedBroken true openPush quiet.received 11 fun _ n => n :=
  (refusedBroken_iff (by decide) (by decide) (fun _ _ => ⟨Nat.le_refl _, id⟩) rfl rfl (by decide)
    (by decide)).mpr (by decide)

/-- A notification of twelve bytes of which ten come. -/
theorem refusedBroken_fails :
    hello.received.header &&& 0xf0 = 0x30 ∧ 10 < hello.received.bytes.length ∧
      hello.received.bytes.length ≤ openPush.buffer.size ∧
      ¬ RefusedBroken true openPush hello.received 10 fun _ n => n := by
  refine ⟨by decide, by decide, by decide, fun hall => ?_⟩
  obtain ⟨r, g', hrun⟩ := hall.1
  have hend := (broken_meets _ (by decide) (by decide) (fun _ _ => ⟨Nat.le_refl _, id⟩) rfl rfl
    (Nat.le_refl 10) (by decide)).of_runs hrun
  rw [if_neg (by decide)] at hend
  exact hend.2 (hall.2 r g' hrun).2

/-! ## A packet that comes whole -/

/-- The call returns. What it hands on lies within the packet, and where this one is a notification
of quality of service 0, it is its payload, once. -/
def DeliversSlice (signed : Bool) (m : Push w) (p : Received) (rest : List Byte) : Prop :=
  let Returns := (kiiPushReceivePushNotification signed m).Runs
    (incoming (cutting (p.bytes ++ rest) fun _ n => n)) ⟨[], []⟩
  (∃ r g', Returns r g') ∧ ∀ r g', Returns r g' →
    (∀ q ∈ g'.pushed, 0 ≤ q.message ∧ q.message + q.length ≤ p.bytes.length) ∧
    ∀ topic payload, p.Carries topic payload → 1 ≤ payload.length → ∃ q, g'.pushed = [q] ∧
      q.message = (p.number.length + 3 + topic.length : Nat) ∧ q.text = some payload

/-- What becomes of a packet of ten bytes or more. -/
theorem whole_meets (signed : Bool) (rest : List Byte) (hpublish : p.header &&& 0xf0 = 0x30)
    (hten : 10 ≤ p.bytes.length) (hfits : p.bytes.length ≤ m.buffer.size) :
    (kiiPushReceivePushNotification signed m).Meets
      (incoming (cutting (p.bytes ++ rest) fun _ n => n)) ⟨[], []⟩ fun _ g' =>
      if p.body.length + shortfall signed p ≤ 2 + topicField p then g'.pushed = []
      else ∃ b : Buffer w, Held b p.bytes p.bytes.length ∧ g'.pushed = [⟨b.bytes,
        ((p.number.length + 3 + topicField p : Nat) : Int) - shortfall signed p,
        (p.body.length + shortfall signed p - 2 - topicField p) % 2 ^ w⟩] := by
  have hlen := p.length_bytes
  obtain ⟨-, hfour, -⟩ := p.number_spec
  have hcut : Cuts fun _ n => n := fun _ _ => ⟨Nat.le_refl _, id⟩
  obtain ⟨hfirst, hsecond⟩ := cutting_ten (fun _ n => n) (p.bytes ++ rest) rfl rfl
    (by rw [List.length_append]; omega)
  have hat : (p.bytes ++ rest).drop 0 = p.bytes ++ rest := rfl
  have hprefix : (p.bytes ++ rest).drop (Incoming.consumed ⟨[], []⟩) <+: p.bytes ++ rest :=
    List.prefix_refl _
  apply receive_ten (feeds_cutting hcut) hprefix hpublish hfits hfirst hsecond
  intro m' g' hheld hsize hconsumed hpushed
  apply (receiveRest_meets (feeds_cutting hcut) hat p.bytes.length hten (by omega) hheld
    (hconsumed.trans (Nat.zero_add 10).symm)).mono
  intro r g₁ hr
  obtain ⟨hbytes, hheld₁, hsize₁, -, hpushed₁⟩ := hr
  rw [if_neg (by omega), deliver_eq signed hheld₁ (by omega) (by omega)]
  split
  · exact hpushed₁.trans hpushed
  · refine ⟨trivial, fun _ _ => ⟨r.2.buffer, hheld₁, ?_⟩⟩
    show g₁.pushed ++ _ = _
    rw [hpushed₁, hpushed]
    rfl

/-- A message that is handed on begins within the packet. -/
theorem start_of_deliversSlice {rest : List Byte} (hpublish : p.header &&& 0xf0 = 0x30)
    (hten : 10 ≤ p.bytes.length) (hfits : p.bytes.length ≤ m.buffer.size)
    (h : DeliversSlice signed m p rest)
    (hsome : ¬ p.body.length + shortfall signed p ≤ 2 + topicField p) :
    shortfall signed p ≤ p.number.length + 3 + topicField p := by
  obtain ⟨r, g', hrun⟩ := h.1
  have hend := (whole_meets signed rest hpublish hten hfits).of_runs hrun
  rw [if_neg hsome] at hend
  obtain ⟨b, -, hpushed⟩ := hend
  have hstart : (0 : Int) ≤ ((p.number.length + 3 + topicField p : Nat) : Int) - shortfall signed p :=
    ((h.2 r g' hrun).1 _ (hpushed ▸ List.mem_singleton_self _)).1
  omega

/-- **When what is handed on is a part of the packet, and the payload of a notification.** -/
theorem deliversSlice_iff {rest : List Byte} (hpublish : p.header &&& 0xf0 = 0x30)
    (hten : 10 ≤ p.bytes.length) (hfits : p.bytes.length ≤ m.buffer.size) :
    DeliversSlice signed m p rest ↔ shortfall signed p ≤ p.number.length + 3 + topicField p ∧
      ∀ topic payload, p.Carries topic payload → 1 ≤ payload.length → shortfall signed p = 0 := by
  have hlen := p.length_bytes
  have hword := m.buffer.lt_word hfits
  have hmeets := whole_meets signed rest hpublish hten hfits
  have hexists : ∃ r g', (kiiPushReceivePushNotification signed m).Runs
      (incoming (cutting (p.bytes ++ rest) fun _ n => n)) ⟨[], []⟩ r g' := exists_cutting m
  by_cases hnone : p.body.length + shortfall signed p ≤ 2 + topicField p
  case pos =>
    -- Nothing is handed on, and there is no payload.
    have hempty : ∀ topic payload, p.Carries topic payload → ¬ 1 ≤ payload.length := by
      intro topic payload hc
      rw [hc.length_body, topicField_eq hc] at hnone
      omega
    refine iff_of_true ⟨hexists, fun r g' hrun => ?_⟩
      ⟨by omega, fun topic payload hc hpos => absurd hpos (hempty topic payload hc)⟩
    have hend := hmeets.of_runs hrun
    rw [if_pos hnone] at hend
    exact ⟨by simp [hend], fun topic payload hc hpos => absurd hpos (hempty topic payload hc)⟩
  case neg =>
    simp only [if_neg hnone] at hmeets
    constructor
    · -- a message that is as long as the payload is not shifted
      intro hall
      obtain ⟨r, g', hrun⟩ := hexists
      obtain ⟨b, -, hpushed⟩ := hmeets.of_runs hrun
      refine ⟨start_of_deliversSlice hpublish hten hfits hall hnone, fun topic payload hc hpos => ?_⟩
      obtain ⟨q, hq, hmessage, -⟩ := (hall.2 r g' hrun).2 topic payload hc hpos
      obtain rfl := List.singleton_inj.mp (hpushed.symm.trans hq)
      rw [topicField_eq hc] at hmessage
      have hshort : ((p.number.length + 3 + topic.length : Nat) : Int) - shortfall signed p =
          (p.number.length + 3 + topic.length : Nat) := hmessage
      omega
    · rintro ⟨hstart, hcarries⟩
      refine ⟨hexists, fun r g' hrun => ?_⟩
      obtain ⟨b, hheld, hpushed⟩ := hmeets.of_runs hrun
      rw [Nat.mod_eq_of_lt (by omega)] at hpushed
      refine ⟨fun q hq => ?_, fun topic payload hc hpos => ⟨_, hpushed, ?_⟩⟩
      · obtain rfl := List.mem_singleton.mp (hpushed ▸ hq)
        dsimp only
        omega
      · have hbody := hc.length_body
        have hmessage : p.body.length + 0 - 2 - topic.length = payload.length := by omega
        rw [hcarries topic payload hc hpos, topicField_eq hc, hmessage, Nat.cast_zero, sub_zero]
        exact ⟨rfl, text_payload hheld hc⟩

/-- The notification of twelve bytes. -/
theorem deliversSlice_of_hello : DeliversSlice true openPush hello.received [] :=
  (deliversSlice_iff (by decide) (by decide) (by decide)).mpr ⟨by decide, fun _ _ _ _ => by decide⟩

theorem lt_word_256 : (List.replicate 256 (0 : Byte)).length < 2 ^ (32 - 1) := by
  rw [List.length_replicate]
  decide

theorem word_ge_32 : 16 ≤ 32 := by decide

/-- A buffer of 256 bytes. -/
def widePush : Push 32 := ⟨1, ⟨List.replicate 256 0, lt_word_256, word_ge_32⟩⟩

theorem length_128 (b : Byte) : (List.replicate 128 b).length = 128 := List.length_replicate

/-- A notification whose topic has 128 bytes. -/
def longTopic : Mqtt.Publish where
  header := 0x30
  topic := List.replicate 128 0x61
  payload := Http.ascii "hello"
  isPublish := rfl
  topic_lt := by rw [length_128]; decide
  body_lt := by rw [length_128]; decide

/-- What is handed on of it begins before the buffer, with a plain character that is signed. -/
theorem deliversSlice_fails :
    longTopic.received.header &&& 0xf0 = 0x30 ∧ 10 ≤ longTopic.received.bytes.length ∧
      longTopic.received.bytes.length ≤ widePush.buffer.size ∧
      longTopic.received.Carries longTopic.topic longTopic.payload ∧
      ¬ DeliversSlice true widePush longTopic.received [] := by
  have htopic : longTopic.topic.length = 128 := length_128 _
  have hpayload : longTopic.payload.length = 5 := rfl
  have hsize : widePush.buffer.size = 256 := List.length_replicate
  have hlen := longTopic.received.length_bytes
  obtain ⟨hpos, hfour, -⟩ := longTopic.received.number_spec
  have hbody := longTopic.carries.length_body
  have hfield := topicField_eq longTopic.carries
  have hshort : shortfall true longTopic.received = 256 := by
    rw [shortfall_eq true longTopic.carries, htopic]
    decide
  rw [htopic] at hfield hbody
  refine ⟨rfl, by omega, by omega, longTopic.carries, fun hall => ?_⟩
  have hstart := start_of_deliversSlice rfl (by omega) (by omega) hall (by omega)
  omega

end KiiThing

import KiiThing.Mqtt.Handshake
import KiiThing.Mqtt.Notification

/-!
# The remaining length, in `char`s and `int`s

`kiiMQTT_encode` and `kiiMQTT_decode` as a target runs them: an `int` has 32 bits, a plain `char` is
signed or not, and the characters that are there are the ones that may be read. `decodeChars` is
`none` when an `int` overflows or another character is read.

They come to the functions on natural numbers (`encodeChars_eq`, `decodeChars_eq`), since no more
than four characters are read: a product of the loop stays below 2^28.
-/

namespace KiiThing

variable {signed : Bool}

/-! ## The functions of the source -/

/-- An `int` of 32 bits that does not overflow. -/
def int32 (x : Int) : Option Int := if -2 ^ 31 ≤ x ∧ x < 2 ^ 31 then some x else none

/-- `x & y`. -/
def intAnd (x y : Int) : Int := (BitVec.ofInt 32 x &&& BitVec.ofInt 32 y).toInt

/-- `x | y`. -/
def intOr (x y : Int) : Int := (BitVec.ofInt 32 x ||| BitVec.ofInt 32 y).toInt

/-- The `char` that an `int` is stored in. -/
def charOfInt (x : Int) : Byte := UInt8.ofNat (x % 256).toNat

/-- The loop of `kiiMQTT_encode`. -/
def encodeCharsLoop (signed : Bool) : Nat → Int → List Byte
  | 0, _ => []
  | rounds + 1, length =>
    let d := charOfInt (length.tmod 128)
    let length := length.tdiv 128
    if 0 < length then
      charOfInt (intOr (charValue signed d) 0x80) :: encodeCharsLoop signed rounds length
    else [d]

/-- `kiiMQTT_encode`: the characters it writes. -/
def encodeChars (signed : Bool) (length : Int) : List Byte := encodeCharsLoop signed 5 length

/-- The loop of `kiiMQTT_decode`: its result and `*value`. -/
def decodeCharsLoop (signed : Bool) : List Byte → Int → Int → Int → Option (Int × Int)
  | [], len, _, value => if 4 < len + 1 then some (-1, value) else none
  | c :: buf, len, multiplier, value =>
    if 4 < len + 1 then some (-1, value)
    else do
      let product ← int32 (intAnd (charValue signed c) 127 * multiplier)
      let value ← int32 (value + product)
      let multiplier ← int32 (multiplier * 128)
      if intAnd (charValue signed c) 128 ≠ 0 then decodeCharsLoop signed buf (len + 1) multiplier value
      else some (len + 1, value)

/-- `kiiMQTT_decode`, when the characters of `buf` are there. -/
def decodeChars (signed : Bool) (buf : List Byte) : Option (Int × Int) :=
  decodeCharsLoop signed buf 0 1 0

/-! ## The bits of a `char` -/

/-- A `char` that is extended to an `int` keeps its eight bits. -/
theorem toNat_charValue (signed : Bool) (c : Byte) :
    ∃ high, (BitVec.ofInt 32 (charValue signed c)).toNat = c.toNat + 256 * high := by
  have hlt := c.toNat_lt
  rw [BitVec.toNat_ofInt, charValue]
  split
  · exact ⟨2 ^ 24 - 1, by omega⟩
  · exact ⟨0, by omega⟩

theorem toInt_of_lt {x : BitVec 32} (h : x.toNat < 2 ^ 31) : x.toInt = x.toNat :=
  BitVec.toInt_eq_toNat_of_lt (by omega)

theorem intAnd_127 (signed : Bool) (c : Byte) :
    intAnd (charValue signed c) 127 = ((c.toNat % 128 : Nat) : Int) := by
  obtain ⟨high, hhigh⟩ := toNat_charValue signed c
  have hand : (BitVec.ofInt 32 (charValue signed c) &&& BitVec.ofInt 32 127).toNat =
      c.toNat % 128 := by
    rw [BitVec.toNat_and, hhigh]
    show (c.toNat + 256 * high) &&& (2 ^ 7 - 1) = _
    rw [Nat.and_two_pow_sub_one_eq_mod]
    omega
  rw [intAnd, toInt_of_lt (by rw [hand]; omega), hand]

theorem intAnd_128_eq_zero_iff (signed : Bool) (c : Byte) :
    intAnd (charValue signed c) 128 = 0 ↔ c.toNat < 128 := by
  obtain ⟨high, hhigh⟩ := toNat_charValue signed c
  have hlt := c.toNat_lt
  have hand : (BitVec.ofInt 32 (charValue signed c) &&& BitVec.ofInt 32 128).toNat =
      c.toNat / 128 % 2 * 128 := by
    rw [BitVec.toNat_and, hhigh]
    show (c.toNat + 256 * high) &&& 2 ^ 7 = _
    rw [Nat.and_two_pow, Nat.testBit_eq_decide_div_mod_eq]
    have hbit : (c.toNat + 256 * high) / 2 ^ 7 % 2 = c.toNat / 128 % 2 := by omega
    rw [hbit]
    rcases Nat.mod_two_eq_zero_or_one (c.toNat / 128) with h | h <;> simp [h]
  rw [intAnd, toInt_of_lt (by rw [hand]; omega), hand]
  omega

theorem charOfInt_natCast {n : Nat} (h : n < 256) : charOfInt n = UInt8.ofNat n := by
  have hmod : ((n : Int) % 256).toNat = n := by omega
  rw [charOfInt, hmod]

/-- The high bit is set. -/
theorem charOfInt_intOr {n : Nat} (h : n < 128) :
    charOfInt (intOr (charValue signed (UInt8.ofNat n)) 0x80) = UInt8.ofNat (n + 128) := by
  have hbyte : (UInt8.ofNat n).toNat = n := Mqtt.toNat_ofNat_lt (by omega)
  have hvalue : charValue signed (UInt8.ofNat n) = n := by
    rw [charValue, hbyte]
    exact if_neg fun hhigh => by omega
  have hor : (BitVec.ofInt 32 (n : Int) ||| BitVec.ofInt 32 128).toNat = n + 128 := by
    have hsum := Nat.two_pow_add_eq_or_of_lt (i := 7) (b := n) h 1
    have hn : (BitVec.ofInt 32 (n : Int)).toNat = n := by
      rw [BitVec.toNat_ofInt]
      omega
    rw [BitVec.toNat_or, hn]
    show n ||| 2 ^ 7 * 1 = _
    rw [Nat.or_comm, ← hsum, Nat.add_comm]
  have hint : intOr (n : Int) 0x80 = ((n + 128 : Nat) : Int) := by
    rw [intOr, toInt_of_lt (by rw [hor]; omega), hor]
  rw [hvalue, hint, charOfInt_natCast (by omega)]

/-! ## Natural numbers are enough -/

theorem encodeCharsLoop_eq (signed : Bool) (rounds n : Nat) :
    encodeCharsLoop signed rounds n = encodeLoop rounds n := by
  induction rounds generalizing n with
  | zero => rfl
  | succ rounds ih =>
    have hmod : (n : Int).tmod 128 = ((n % 128 : Nat) : Int) := by simp [Int.tmod]
    have hdiv : (n : Int).tdiv 128 = ((n / 128 : Nat) : Int) := by simp [Int.tdiv]
    have hlt : n % 128 < 128 := Nat.mod_lt n (by decide)
    rw [encodeCharsLoop, encodeLoop, hmod, hdiv, charOfInt_natCast (by omega), charOfInt_intOr hlt,
      or_high_bit hlt, ih]
    simp only [Int.natCast_pos]

/-- **`kiiMQTT_encode` in `char`s.** -/
theorem encodeChars_eq (signed : Bool) (n : Nat) : encodeChars signed n = kiiMQTTEncode n :=
  encodeCharsLoop_eq signed 5 n

/-- The characters that are read are there. -/
def Ends (rounds : Nat) (s : List Byte) : Prop := rounds ≤ s.length ∨ ∃ c ∈ s, c.toNat < 128

theorem Ends.tail {rounds : Nat} {c : Byte} {s : List Byte} (h : Ends (rounds + 1) (c :: s))
    (hc : ¬ c.toNat < 128) : Ends rounds s := by
  rcases h with hlen | ⟨c', hmem, hc'⟩
  · exact .inl (Nat.le_of_succ_le_succ hlen)
  · rcases List.mem_cons.mp hmem with rfl | hmem
    · exact absurd hc' hc
    · exact .inr ⟨c', hmem, hc'⟩

section

variable {rounds len multiplier value : Nat} {s : List Byte}

/-- **One round**: neither the product nor the sum nor the next multiplier overflows. -/
theorem decodeCharsLoop_cons (signed : Bool) (c : Byte) (s : List Byte)
    (hrounds : len + (rounds + 1) = 4) (hmultiplier : multiplier * 128 ^ (rounds + 1) = 2 ^ 28)
    (hvalue : value < multiplier) : decodeCharsLoop signed (c :: s) len multiplier value =
      if c.toNat < 128 then
        some (((len + 1 : Nat) : Int), ((value + c.toNat % 128 * multiplier : Nat) : Int))
      else decodeCharsLoop signed s ((len + 1 : Nat) : Int) ((multiplier * 128 : Nat) : Int)
        ((value + c.toNat % 128 * multiplier : Nat) : Int) := by
  have hpos : 1 ≤ 128 ^ rounds := Nat.one_le_two_pow.trans (Nat.pow_le_pow_left (by decide) rounds)
  have hmore : multiplier * 128 ≤ 2 ^ 28 := by
    rw [← hmultiplier, Nat.pow_succ']
    exact Nat.mul_le_mul_left _ (Nat.le_mul_of_pos_right _ hpos)
  have hfigure : c.toNat % 128 * multiplier ≤ 127 * multiplier :=
    Nat.mul_le_mul_right _ (Nat.le_of_lt_succ (Nat.mod_lt _ (by decide)))
  have hint : ∀ x : Nat, x ≤ 2 ^ 28 → int32 x = some (x : Int) := by
    intro x hx
    exact if_pos ⟨by omega, by omega⟩
  have hproduct : int32 (((c.toNat % 128 : Nat) : Int) * (multiplier : Int)) =
      some ((c.toNat % 128 * multiplier : Nat) : Int) := by
    rw [← Int.natCast_mul]
    exact hint _ (by omega)
  have hsum : int32 ((value : Int) + ((c.toNat % 128 * multiplier : Nat) : Int)) =
      some ((value + c.toNat % 128 * multiplier : Nat) : Int) := by
    rw [← Int.natCast_add]
    exact hint _ (by omega)
  have hnext : int32 ((multiplier : Int) * 128) = some ((multiplier * 128 : Nat) : Int) :=
    hint (multiplier * 128) hmore
  rw [decodeCharsLoop, if_neg (by omega), intAnd_127, hproduct, Option.bind_eq_bind,
    Option.bind_some, hsum, Option.bind_some, hnext, Option.bind_some]
  by_cases hc : c.toNat < 128
  · rw [if_neg (not_not.mpr ((intAnd_128_eq_zero_iff signed c).mpr hc)), if_pos hc]
    rfl
  · rw [if_pos (mt (intAnd_128_eq_zero_iff signed c).mp hc), if_neg hc]
    rfl

theorem multiplier_lt (hmultiplier : multiplier * 128 ^ (rounds + 1) = 2 ^ 28) :
    multiplier * 128 * 128 ^ rounds = 2 ^ 28 := by
  rw [Nat.mul_assoc, ← Nat.pow_succ', hmultiplier]

theorem value_lt {value : Nat} (c : Byte) (hvalue : value < multiplier) :
    value + c.toNat % 128 * multiplier < multiplier * 128 := by
  have hfigure : c.toNat % 128 * multiplier ≤ 127 * multiplier :=
    Nat.mul_le_mul_right _ (Nat.le_of_lt_succ (Nat.mod_lt _ (by decide)))
  omega

theorem decodeCharsLoop_eq (signed : Bool) (hrounds : len + rounds = 4)
    (hmultiplier : multiplier * 128 ^ rounds = 2 ^ 28) (hvalue : value < multiplier)
    (hends : Ends rounds s) : decodeCharsLoop signed s len multiplier value =
      some ((decodeLoop rounds s len multiplier value).1,
        ((decodeLoop rounds s len multiplier value).2 : Int)) := by
  induction rounds generalizing s len multiplier value with
  | zero =>
    have hfour : (4 : Int) < len + 1 := by omega
    cases s with
    | nil => exact if_pos hfour
    | cons c s => exact if_pos hfour
  | succ rounds ih =>
    cases s with
    | nil =>
      rcases hends with hlen | ⟨c, hmem, -⟩
      · exact absurd hlen (Nat.not_succ_le_zero _)
      · exact absurd hmem List.not_mem_nil
    | cons c s =>
      rw [decodeCharsLoop_cons signed c s hrounds hmultiplier hvalue]
      by_cases hc : c.toNat < 128
      · rw [if_pos hc, decodeLoop_last ((and_128_eq_zero_iff c).mpr hc), toNat_and_127]
      · rw [if_neg hc, decodeLoop_more (mt (and_128_eq_zero_iff c).mp hc), toNat_and_127]
        exact ih (by omega) (multiplier_lt hmultiplier) (value_lt c hvalue) (hends.tail hc)

/-- A character is missing. -/
theorem decodeCharsLoop_eq_none (signed : Bool) (hrounds : len + rounds = 4)
    (hmultiplier : multiplier * 128 ^ rounds = 2 ^ 28) (hvalue : value < multiplier)
    (hends : ¬ Ends rounds s) : decodeCharsLoop signed s len multiplier value = none := by
  induction s generalizing rounds len multiplier value with
  | nil =>
    have hsome : rounds ≠ 0 := fun hzero => hends (.inl (Nat.le_of_eq hzero))
    exact if_neg (by omega)
  | cons c s ih =>
    obtain ⟨rounds, rfl⟩ : ∃ k, rounds = k + 1 := by
      apply Nat.exists_eq_succ_of_ne_zero
      rintro rfl
      exact hends (.inl (Nat.zero_le _))
    have hc : ¬ c.toNat < 128 := fun hc => hends (.inr ⟨c, List.mem_cons_self, hc⟩)
    rw [decodeCharsLoop_cons signed c s hrounds hmultiplier hvalue, if_neg hc]
    apply ih (by omega) (multiplier_lt hmultiplier) (value_lt c hvalue)
    rintro (hlen | ⟨c', hmem, hc'⟩)
    · exact hends (.inl (Nat.succ_le_succ hlen))
    · exact hends (.inr ⟨c', List.mem_cons_of_mem _ hmem, hc'⟩)

theorem decodeLoop_lt (hmultiplier : multiplier * 128 ^ rounds = 2 ^ 28) (hvalue : value < multiplier)
    (s : List Byte) (len : Nat) : (decodeLoop rounds s len multiplier value).2 < 2 ^ 28 := by
  induction rounds generalizing s len multiplier value with
  | zero =>
    rw [Nat.pow_zero, Nat.mul_one] at hmultiplier
    rw [decodeLoop]
    exact hmultiplier ▸ hvalue
  | succ rounds ih =>
    rw [decodeLoop, toNat_and_127]
    split
    · exact ih (multiplier_lt hmultiplier) (value_lt _ hvalue) _ _
    · have hlt := value_lt (s.headD 0) hvalue
      have hpos : 1 ≤ 128 ^ rounds :=
        Nat.one_le_two_pow.trans (Nat.pow_le_pow_left (by decide) rounds)
      calc value + (s.headD 0).toNat % 128 * multiplier < multiplier * 128 := hlt
        _ ≤ multiplier * 128 * 128 ^ rounds := Nat.le_mul_of_pos_right _ hpos
        _ = 2 ^ 28 := multiplier_lt hmultiplier

end

/-- **`kiiMQTT_decode` in `char`s**, where the characters that it reads are there. -/
theorem decodeChars_eq (signed : Bool) {s : List Byte} (hends : Ends 4 s) :
    decodeChars signed s = some ((kiiMQTTDecode s).1, ((kiiMQTTDecode s).2 : Int)) :=
  decodeCharsLoop_eq signed (Nat.zero_add 4) (Nat.one_mul _) Nat.one_pos hends

theorem kiiMQTTDecode_lt (s : List Byte) : (kiiMQTTDecode s).2 < 2 ^ 28 :=
  decodeLoop_lt (Nat.one_mul (128 ^ 4)) Nat.one_pos s 0

theorem ends_of_decodeChars {s : List Byte} {r : Int × Int} (h : decodeChars signed s = some r) :
    Ends 4 s := by
  by_contra hends
  have hnone : decodeChars signed s = none := decodeCharsLoop_eq_none signed
    (Nat.zero_add 4) (Nat.one_mul _) Nat.one_pos hends
  rw [hnone] at h
  cases h

/-! ## What is written is read -/

/-- Every round but the last one sets the high bit. -/
theorem encodeLoop_high {rounds k n : Nat} (hk : k < rounds) (hn : 128 ^ k ≤ n) :
    ∃ high low, encodeLoop rounds n = high ++ low ∧ high.length = k ∧ ∀ c ∈ high, 128 ≤ c.toNat := by
  induction k generalizing rounds n with
  | zero => exact ⟨[], _, rfl, rfl, fun c hc => absurd hc List.not_mem_nil⟩
  | succ k ih =>
    obtain ⟨rounds, rfl⟩ := Nat.exists_eq_succ_of_ne_zero (Nat.ne_zero_of_lt hk)
    have hdiv : 128 ^ k ≤ n / 128 := by
      rw [Nat.le_div_iff_mul_le (by decide), ← Nat.pow_succ]
      exact hn
    have hpos : 0 < n / 128 := Nat.lt_of_lt_of_le (Nat.pow_pos (by decide)) hdiv
    have hmod : n % 128 < 128 := Nat.mod_lt n (by decide)
    obtain ⟨high, low, heq, hlen, hall⟩ := ih (Nat.lt_of_succ_lt_succ hk) hdiv
    refine ⟨UInt8.ofNat (n % 128 + 128) :: high, low, ?_, by rw [List.length_cons, hlen], ?_⟩
    · rw [encodeLoop, if_pos hpos, or_high_bit hmod, heq, List.cons_append]
    · intro c hc
      rcases List.mem_cons.mp hc with rfl | hc
      · rw [Mqtt.toNat_ofNat_lt (by omega)]
        exact Nat.le_add_left 128 _
      · exact hall c hc

theorem decodeLoop_high {high : List Byte} (hall : ∀ c ∈ high, 128 ≤ c.toNat) (s : List Byte)
    (len multiplier value : Nat) :
    (decodeLoop high.length (high ++ s) len multiplier value).1 = -1 := by
  induction high generalizing len multiplier value with
  | nil => rfl
  | cons c high ih =>
    have hc := hall c List.mem_cons_self
    have hmore : c &&& 128 ≠ 0 := mt (and_128_eq_zero_iff c).mp (Nat.not_lt.mpr hc)
    rw [List.length_cons, List.cons_append, decodeLoop_more hmore]
    exact ih (fun c' hc' => hall c' (List.mem_cons_of_mem _ hc')) _ _ _

/-- Four characters with the high bit are refused, and no fifth is there. -/
theorem decodeChars_high (signed : Bool) {high : List Byte} (hlen : high.length = 4)
    (hall : ∀ c ∈ high, 128 ≤ c.toNat) (tail : List Byte) :
    ∃ value, decodeChars signed (high ++ tail) = some (-1, value) := by
  have hends : Ends 4 (high ++ tail) := .inl (by rw [List.length_append, hlen]; exact Nat.le_add_right ..)
  have hcode : (kiiMQTTDecode (high ++ tail)).1 = -1 := by
    have hloop := decodeLoop_high hall tail 0 1 0
    rw [hlen] at hloop
    exact hloop
  rw [decodeChars_eq signed hends, hcode]
  exact ⟨_, rfl⟩

theorem decodeChars_encodeChars (signed : Bool) {n : Nat} (h : n < Mqtt.maxLength)
    (tail : List Byte) : decodeChars signed (encodeChars signed n ++ tail) =
      some (((encodeChars signed n).length : Int), (n : Int)) := by
  have hread := Mqtt.readLength_remainingLength h tail
  obtain ⟨figures, hlen, hdecode⟩ := kiiMQTTDecode_eq hread
  obtain rfl : figures = (Mqtt.remainingLength n).length := by
    rw [List.length_append] at hlen
    exact Nat.add_right_cancel hlen.symm
  rw [encodeChars_eq, kiiMQTTEncode_eq h, decodeChars_eq signed, hdecode]
  obtain ⟨c, hmem, hc⟩ := Mqtt.exists_lt_of_readFigures hread
  exact .inr ⟨c, hmem, hc⟩

/-- **The codec of the remaining length.** -/
theorem remainingLength_codec (signed : Bool) :
    (∀ n : Nat, n < 2 ^ 28 → ∀ tail,
      (1 ≤ (encodeChars signed n).length ∧ (encodeChars signed n).length ≤ 4) ∧
        decodeChars signed (encodeChars signed n ++ tail) =
          some (((encodeChars signed n).length : Int), (n : Int))) ∧
      (∀ n : Nat, 2 ^ 28 ≤ n → n < 2 ^ 31 → ∀ tail,
        ∃ value, decodeChars signed (encodeChars signed n ++ tail) = some (-1, value)) ∧
      (∀ s, s.length = 4 → (∀ c ∈ s, 128 ≤ c.toNat) → ∀ tail,
        ∃ value, decodeChars signed (s ++ tail) = some (-1, value)) ∧
      (∀ s len value, decodeChars signed s = some (len, value) → 0 ≤ value ∧ value < 2 ^ 28) ∧
      ∀ s, 4 ≤ s.length → ∃ r, decodeChars signed s = some r := by
  refine ⟨?_, ?_, ?_, ?_, ?_⟩
  · intro n hn tail
    refine ⟨?_, decodeChars_encodeChars signed hn tail⟩
    rw [encodeChars_eq, kiiMQTTEncode_eq hn]
    exact Mqtt.length_remainingLength n
  · intro n hn _ tail
    obtain ⟨high, low, heq, hlen, hall⟩ := encodeLoop_high (by decide : 4 < 5) hn
    rw [encodeChars_eq, kiiMQTTEncode, heq, List.append_assoc]
    exact decodeChars_high signed hlen hall _
  · intro s hlen hall tail
    exact decodeChars_high signed hlen hall tail
  · intro s len value h
    rw [decodeChars_eq signed (ends_of_decodeChars h)] at h
    obtain ⟨-, rfl⟩ := Prod.mk.inj (Option.some.inj h)
    exact ⟨Int.natCast_nonneg _, Int.ofNat_lt.mpr (kiiMQTTDecode_lt s)⟩
  · intro s hlen
    exact ⟨_, decodeChars_eq signed (.inl hlen)⟩

/-- The largest length that is read and the smallest one that is not, with signed characters. -/
theorem remainingLength_codec_of_bounds :
    decodeChars true (encodeChars true (268435455 : Nat) ++ [0xff]) = some (4, 268435455) ∧
      (∃ value, decodeChars true (encodeChars true (268435456 : Nat) ++ []) = some (-1, value)) ∧
      (∃ value, decodeChars true ([0xff, 0xff, 0xff, 0xff] ++ []) = some (-1, value)) ∧
      (0 ≤ (321 : Int) ∧ (321 : Int) < 2 ^ 28) ∧
      ∃ r, decodeChars true [0xc1, 0x02, 0x00, 0x00] = some r :=
  ⟨((remainingLength_codec true).1 268435455 (by decide) [0xff]).2,
    (remainingLength_codec true).2.1 268435456 (by decide) (by decide) [],
    (remainingLength_codec true).2.2.1 [0xff, 0xff, 0xff, 0xff] rfl (by decide) [],
    (remainingLength_codec true).2.2.2.1 [0xc1, 0x02] 2 321 (by decide),
    (remainingLength_codec true).2.2.2.2 [0xc1, 0x02, 0x00, 0x00] (by decide)⟩

end KiiThing

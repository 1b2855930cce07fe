import KiiThing.Core.Ending

/-!
# The check of a body's size

`prv_kii_http_append_body` compares `buffer_size` with the end that a piece of the body would have:
`total_send_size` and a length which `kii_core_api_call`, `kii_core_api_call_append_body` and
`kii_core_upload_thing_state` take from the application and pass on as it is. The sum is one of
`size_t`. Where it wraps it comes out below `total_send_size`, so that the check lets the piece
pass, and `exactSize_iff` says that the check is wrong for these pieces and for no others.

For a length that the memory behind the pointer really has (`Readable`) the sum does not wrap in a
`Buffer`, which takes up less than half of the address space. The check itself knows nothing of
that: `RequestBuffer` is what it is made on, over a buffer of any size that a `size_t` can hold. The
object holds one of them (`requestBuffer_appendBody`).
-/

namespace KiiThing

open Http

variable {w : Nat}

/-! ## A check that is exact -/

/-- A step from `s` to `s'` that is only to be taken where there is room, and else has to fail
without a trace. -/
structure Exact {γ σ : Type} [ReturnCode γ] (room : Prop) (s : σ) (code : γ) (s' : σ) : Prop where
  fits : ReturnCode.isOk code = true → room
  refused : ReturnCode.isOk code = false → code = ReturnCode.fail ∧ s' = s

/-- A sum of two words wraps once at most: to add `n` is then to take `m - n` away. -/
theorem wrapped_add {a n m : Nat} (ha : a < m) (hn : n < m) (h : m ≤ a + n) :
    (a + n) % m + (m - n) = a := by
  have hsub : a + n - m < m := by grind
  rw [Nat.mod_eq_sub_mod h, Nat.mod_eq_of_lt hsub]
  grind

theorem wrapped_lt {a n m : Nat} (ha : a < m) (hn : n < m) (h : m ≤ a + n) : (a + n) % m < a := by
  have hsum := wrapped_add ha hn h
  grind

/-- **A check that is made on the wrapped sum**: it is exact where nothing is appended, and where
the sum does not wrap. -/
theorem exact_iff {γ σ : Type} [ReturnCode γ] {s s' : σ} {code : γ} {null : Prop}
    {total size n m : Nat} (hok : ReturnCode.isOk code = true ↔ ¬ null ∧ (total + n) % m < size)
    (hfail : ReturnCode.isOk code = false → code = ReturnCode.fail ∧ s' = s)
    (htotal : total < size) (hsize : size ≤ m) (hn : n < m) :
    Exact (total + n < size) s code s' ↔ null ∨ total + n < m := by
  constructor
  · intro h
    by_contra hnot
    obtain ⟨hnull, hwrap⟩ := not_or.mp hnot
    have hlt := wrapped_lt (Nat.lt_of_lt_of_le htotal hsize) hn (Nat.not_lt.mp hwrap)
    -- the check is passed, and there is no room
    have hroom := h.fits (hok.mpr ⟨hnull, Nat.lt_trans hlt htotal⟩)
    exact hwrap (Nat.lt_of_lt_of_le hroom hsize)
  · intro h
    refine ⟨fun hcode => ?_, hfail⟩
    obtain ⟨hnull, hlt⟩ := hok.mp hcode
    rwa [Nat.mod_eq_of_lt (h.resolve_left hnull)] at hlt

/-! ## The request that a piece is appended to -/

/-- What an appended piece is checked against and what it changes. The text so far leaves room for
its terminator, and `buffer_size` is a `size_t`. -/
structure RequestBuffer (w : Nat) where
  buffer : List Byte
  totalSendSize : Nat
  contentLength : Nat
  fits : totalSendSize < buffer.length
  lt_word : buffer.length < 2 ^ w
  deriving DecidableEq

namespace RequestBuffer

variable {o : RequestBuffer w} {body : Option (List Byte)} {n : Nat}

def bufferSize (o : RequestBuffer w) : Nat := o.buffer.length

/-- The request with the piece behind its text; bytes that fall behind the buffer are lost. That
there is still room is what the check has found, be its sum wrapped or not. -/
def taken (o : RequestBuffer w) (bs : List Byte) (n : Nat)
    (h : (o.totalSendSize + n) % 2 ^ w < o.bufferSize) : RequestBuffer w where
  buffer := Memory.overwrite o.buffer o.totalSendSize (bs.take n)
  totalSendSize := (o.totalSendSize + n) % 2 ^ w
  contentLength := (o.contentLength + n) % 2 ^ w
  fits := by rw [Memory.length_overwrite]; exact h
  lt_word := by rw [Memory.length_overwrite]; exact o.lt_word

/-- `prv_kii_http_append_body` with the count of `kii_core_api_call_append_body`. -/
def append (o : RequestBuffer w) (body : Option (List Byte)) (n : Nat) :
    ErrorCode × RequestBuffer w :=
  if h : o.bufferSize ≤ (o.totalSendSize + n) % 2 ^ w then (.fail, o)
  else
    match body with
    | none => (.fail, o)
    | some bs => (.ok, o.taken bs n (Nat.lt_of_not_le h))

/-- The check of the size of this piece is exact. -/
def ExactSize (o : RequestBuffer w) (body : Option (List Byte)) (n : Nat) : Prop :=
  Exact (o.totalSendSize + n < o.bufferSize) o (o.append body n).1 (o.append body n).2

theorem append_refused (h : body = none ∨ o.bufferSize ≤ (o.totalSendSize + n) % 2 ^ w) :
    o.append body n = (.fail, o) := by
  unfold append
  rcases h with rfl | hge
  · split <;> rfl
  · rw [dif_pos hge]

theorem append_accepted (bs : List Byte) (h : (o.totalSendSize + n) % 2 ^ w < o.bufferSize) :
    o.append (some bs) n = (.ok, o.taken bs n h) := dif_neg (Nat.not_le.mpr h)

theorem append_isOk_iff : ReturnCode.isOk (o.append body n).1 = true ↔
    ¬ body = none ∧ (o.totalSendSize + n) % 2 ^ w < o.bufferSize := by
  rcases piece_cases body o.bufferSize ((o.totalSendSize + n) % 2 ^ w) with hno | ⟨bs, rfl, hlt⟩
  · rw [append_refused hno]
    apply iff_of_false Bool.false_ne_true
    rintro ⟨hbody, hlt⟩
    exact Nat.not_le.mpr hlt (hno.resolve_left hbody)
  · rw [append_accepted bs hlt]
    exact iff_of_true rfl ⟨Option.some_ne_none bs, hlt⟩

/-- A failure leaves the request as it is. -/
theorem append_of_not_isOk (h : ReturnCode.isOk (o.append body n).1 = false) :
    (o.append body n).1 = .fail ∧ (o.append body n).2 = o := by
  rcases piece_cases body o.bufferSize ((o.totalSendSize + n) % 2 ^ w) with hno | ⟨bs, rfl, hlt⟩
  · rw [append_refused hno]
    exact ⟨rfl, rfl⟩
  · rw [append_accepted bs hlt] at h
    cases h

/-- Where the sum wraps the piece is taken, and the text becomes shorter. -/
theorem append_of_wrap (hn : n < 2 ^ w) (hwrap : 2 ^ w ≤ o.totalSendSize + n) (bs : List Byte) :
    (o.append (some bs) n).1 = .ok ∧
      (o.append (some bs) n).2.totalSendSize + (2 ^ w - n) = o.totalSendSize ∧
      (o.append (some bs) n).2.contentLength = (o.contentLength + n) % 2 ^ w := by
  have htotal : o.totalSendSize < 2 ^ w := Nat.lt_trans o.fits o.lt_word
  have hlt := wrapped_lt htotal hn hwrap
  rw [append_accepted bs (Nat.lt_trans hlt o.fits)]
  exact ⟨rfl, wrapped_add htotal hn hwrap, rfl⟩

/-- **When the check is exact**, over a buffer of any size. -/
theorem exactSize_iff_lt_word (hn : n < 2 ^ w) :
    o.ExactSize body n ↔ body = none ∨ o.totalSendSize + n < 2 ^ w :=
  exact_iff append_isOk_iff append_of_not_isOk o.fits (Nat.le_of_lt o.lt_word) hn

end RequestBuffer

/-! ## The two functions -/

/-- The request that the object is composing. -/
def Core.requestBuffer (k : Core w) (h : k.http.totalSendSize < k.bufferSize) : RequestBuffer w :=
  ⟨k.http.buffer.bytes, k.http.totalSendSize, k.contentLength, h,
    k.http.buffer.lt_word (Nat.le_refl _)⟩

/-- In both functions the check of the size of this piece is exact. -/
structure ExactSize (k : Core w) (body : Option (List Byte)) (n : Nat) : Prop where
  append : Exact (k.http.totalSendSize + n < k.bufferSize) k (prvKiiHttpAppendBody k body n).code
    (prvKiiHttpAppendBody k body n).core
  apiCall : Exact (k.http.totalSendSize + n < k.bufferSize) k
    (kiiCoreApiCallAppendBody k body n).code (kiiCoreApiCallAppendBody k body n).core

section

variable {k : Core w} {body : Option (List Byte)} {n : Nat}

/-- **What the functions do to the object**, they do to its request. -/
theorem requestBuffer_appendBody (h : k.http.totalSendSize < k.bufferSize)
    (body : Option (List Byte)) (n : Nat) :
    ∃ h' : (kiiCoreApiCallAppendBody k body n).core.http.totalSendSize <
        (kiiCoreApiCallAppendBody k body n).core.bufferSize,
      (k.requestBuffer h).append body n = ((kiiCoreApiCallAppendBody k body n).code,
        (kiiCoreApiCallAppendBody k body n).core.requestBuffer h') := by
  rcases piece_cases body k.bufferSize ((k.http.totalSendSize + n) % 2 ^ w) with
    hno | ⟨bs, rfl, hlt⟩
  · have hfail : kiiCoreApiCallAppendBody k body n = ⟨.fail, k⟩ := by
      rw [kiiCoreApiCallAppendBody, appendBody_refused hno]
      rfl
    rw [RequestBuffer.append_refused (o := k.requestBuffer h) hno, hfail]
    exact ⟨h, rfl⟩
  · have hok : kiiCoreApiCallAppendBody k (some bs) n = ⟨.ok, { k with
        http.buffer := k.http.buffer.write k.http.totalSendSize (bs.take n)
        http.totalSendSize := (k.http.totalSendSize + n) % 2 ^ w
        contentLength := (k.contentLength + n) % 2 ^ w }⟩ := by
      rw [kiiCoreApiCallAppendBody, appendBody_accepted bs hlt]
      rfl
    rw [hok, RequestBuffer.append_accepted (o := k.requestBuffer h) bs hlt]
    exact ⟨by simpa [Core.bufferSize] using hlt, rfl⟩

/-- Both functions succeed for the same pieces. -/
theorem apiCallAppendBody_isOk :
    (kiiCoreApiCallAppendBody k body n).isOk = (prvKiiHttpAppendBody k body n).isOk := by
  rw [kiiCoreApiCallAppendBody]
  rcases hok : (prvKiiHttpAppendBody k body n).isOk with _ | _
  · rw [Result.next_of_not_isOk hok]
    rfl
  · rw [Result.next_of_isOk hok]
    rfl

/-- A failure leaves the object as it is. -/
theorem appendBody_of_not_isOk (h : (prvKiiHttpAppendBody k body n).isOk = false) :
    (prvKiiHttpAppendBody k body n).code = .fail ∧ (prvKiiHttpAppendBody k body n).core = k := by
  rcases piece_cases body k.bufferSize ((k.http.totalSendSize + n) % 2 ^ w) with
    hno | ⟨bs, rfl, hlt⟩
  · rw [appendBody_refused hno]
    exact ⟨rfl, rfl⟩
  · rw [appendBody_accepted bs hlt] at h
    cases h

theorem apiCallAppendBody_of_not_isOk (h : (kiiCoreApiCallAppendBody k body n).isOk = false) :
    (kiiCoreApiCallAppendBody k body n).code = .fail ∧
      (kiiCoreApiCallAppendBody k body n).core = k := by
  rw [apiCallAppendBody_isOk] at h
  rw [kiiCoreApiCallAppendBody, Result.next_of_not_isOk h]
  exact ⟨rfl, (appendBody_of_not_isOk h).2⟩

theorem apiCallAppendBody_isOk_iff (h : k.http.totalSendSize < k.bufferSize)
    (body : Option (List Byte)) (n : Nat) :
    (kiiCoreApiCallAppendBody k body n).isOk = true ↔
      ¬ body = none ∧ (k.http.totalSendSize + n) % 2 ^ w < k.bufferSize := by
  obtain ⟨_, hstep⟩ := requestBuffer_appendBody h body n
  have hok : ReturnCode.isOk ((k.requestBuffer h).append body n).1 = true ↔ _ :=
    RequestBuffer.append_isOk_iff
  rw [hstep] at hok
  exact hok

/-- **When the check is exact** in the two functions. -/
theorem exactSize_iff_lt_word (h : k.http.totalSendSize < k.bufferSize) (hn : n < 2 ^ w) :
    ExactSize k body n ↔ body = none ∨ k.http.totalSendSize + n < 2 ^ w := by
  have hsize : k.bufferSize ≤ 2 ^ w := Nat.le_of_lt (k.http.buffer.lt_word (Nat.le_refl _))
  have hok := apiCallAppendBody_isOk_iff h body n
  have hcall := exact_iff hok apiCallAppendBody_of_not_isOk h hsize hn
  rw [apiCallAppendBody_isOk] at hok
  have happend := exact_iff hok appendBody_of_not_isOk h hsize hn
  constructor
  · intro hexact
    exact happend.mp hexact.append
  · intro hcond
    exact ⟨happend.mpr hcond, hcall.mpr hcond⟩

/-- A length that the memory behind the pointer has is checked as it should be. -/
theorem exactSize_of_readable {bs : List Byte} (h : k.http.totalSendSize < k.bufferSize)
    (hbody : Readable w (some bs) n) : ExactSize k (some bs) n := by
  have hsum : k.http.totalSendSize + n < 2 ^ w :=
    k.http.buffer.add_lt_word (Nat.le_of_lt h) (hbody bs rfl).2
  have hn : n < 2 ^ w := Nat.lt_of_le_of_lt (Nat.le_add_left _ _) hsum
  exact (exactSize_iff_lt_word h hn).mpr (Or.inr hsum)

/-- **Where the sum wraps** the piece is taken, and the text becomes shorter. -/
theorem apiCallAppendBody_of_wrap (h : k.http.totalSendSize < k.bufferSize) (hn : n < 2 ^ w)
    (hwrap : 2 ^ w ≤ k.http.totalSendSize + n) (bs : List Byte) :
    (kiiCoreApiCallAppendBody k (some bs) n).code = .ok ∧
      (kiiCoreApiCallAppendBody k (some bs) n).core.http.totalSendSize + (2 ^ w - n) =
        k.http.totalSendSize ∧
      (kiiCoreApiCallAppendBody k (some bs) n).core.contentLength =
        (k.contentLength + n) % 2 ^ w := by
  obtain ⟨_, hstep⟩ := requestBuffer_appendBody h (some bs) n
  have hshort := RequestBuffer.append_of_wrap (o := k.requestBuffer h) hn hwrap bs
  rw [hstep] at hshort
  exact hshort

/-- **The check of a body's size is exact** where there is nothing to append, and where the end of
the text with the piece is a `size_t`: over a buffer of any size, and in every object. -/
theorem exactSize_iff (hn : n < 2 ^ w) :
    (∀ o : RequestBuffer w, o.ExactSize body n ↔ body = none ∨ o.totalSendSize + n < 2 ^ w) ∧
      ∀ k : Core w, k.http.totalSendSize < k.bufferSize →
        (ExactSize k body n ↔ body = none ∨ k.http.totalSendSize + n < 2 ^ w) :=
  ⟨fun _ => RequestBuffer.exactSize_iff_lt_word hn, fun _ h => exactSize_iff_lt_word h hn⟩

end

/-! ## Pieces that are too long -/

theorem lt_word_50000 : 50000 < 2 ^ 16 := by decide

/-- On a target whose `size_t` has 16 bits, 40000 bytes in a buffer of 50000. -/
def RequestBuffer.narrow : RequestBuffer 16 where
  buffer := List.replicate 50000 0
  totalSendSize := 40000
  contentLength := 0
  fits := by rw [List.length_replicate]; decide
  lt_word := by rw [List.length_replicate]; exact lt_word_50000

/-- Another 30000 bytes are taken, and all of them are there. -/
theorem narrow_append :
    (RequestBuffer.narrow.append (some (List.replicate 30000 97)) 30000).1 = .ok ∧
      (RequestBuffer.narrow.append (some (List.replicate 30000 97)) 30000).2.totalSendSize = 4464 ∧
      ¬ RequestBuffer.narrow.ExactSize (some (List.replicate 30000 97)) 30000 := by
  have hn : 30000 < 2 ^ 16 := by decide
  have hwrap : 2 ^ 16 ≤ RequestBuffer.narrow.totalSendSize + 30000 := by decide
  obtain ⟨hok, htotal, -⟩ := RequestBuffer.append_of_wrap hn hwrap (List.replicate 30000 97)
  have hshorter : 40000 - (2 ^ 16 - 30000) = 4464 := by decide
  refine ⟨hok, (Nat.eq_sub_of_add_eq htotal).trans hshorter, ?_⟩
  rw [RequestBuffer.exactSize_iff_lt_word hn]
  exact not_or.mpr ⟨Option.some_ne_none _, Nat.not_lt.mpr hwrap⟩

/-- An object for which a request with a body has been started. -/
def started : Core 64 := (posting.run (device 512 lt_word_512)).core

theorem started_sizes : started.http.totalSendSize = 121 ∧ started.bufferSize = 512 ∧
    started.contentLength = 0 := by decide +kernel

theorem fits_started : started.http.totalSendSize < started.bufferSize := by
  obtain ⟨htotal, hsize, -⟩ := started_sizes
  rw [htotal, hsize]
  decide

/-- Two bytes with the greatest length that a `size_t` can hold are taken, and leave the text one
byte shorter. -/
theorem started_append :
    (kiiCoreApiCallAppendBody started (some (ascii "ab")) (2 ^ 64 - 1)).code = .ok ∧
      (kiiCoreApiCallAppendBody started (some (ascii "ab")) (2 ^ 64 - 1)).core.http.totalSendSize +
        1 = started.http.totalSendSize ∧
      (kiiCoreApiCallAppendBody started (some (ascii "ab")) (2 ^ 64 - 1)).core.contentLength =
        2 ^ 64 - 1 ∧
      ¬ ExactSize started (some (ascii "ab")) (2 ^ 64 - 1) := by
  obtain ⟨hold, -, hempty⟩ := started_sizes
  have hn : 2 ^ 64 - 1 < 2 ^ 64 := by decide
  have hwrap : 2 ^ 64 ≤ started.http.totalSendSize + (2 ^ 64 - 1) := by
    rw [hold]
    decide
  obtain ⟨hok, htotal, hlength⟩ := apiCallAppendBody_of_wrap fits_started hn hwrap (ascii "ab")
  rw [hempty, Nat.zero_add, Nat.mod_eq_of_lt hn] at hlength
  have hone : 2 ^ 64 - (2 ^ 64 - 1) = 1 := by decide
  rw [hone] at htotal
  refine ⟨hok, htotal, hlength, ?_⟩
  rw [exactSize_iff_lt_word fits_started hn]
  exact not_or.mpr ⟨Option.some_ne_none _, Nat.not_lt.mpr hwrap⟩

/-- A length that is wrong, in an object of the SDK; and one that is right, on a narrow target. -/
theorem exactSize_fails :
    let r := kiiCoreApiCallAppendBody started (some (ascii "ab")) (2 ^ 64 - 1)
    let r' := RequestBuffer.narrow.append (some (List.replicate 30000 97)) 30000
    started.http.totalSendSize < started.bufferSize ∧ r.code = .ok ∧
      r.core.http.totalSendSize + 1 = started.http.totalSendSize ∧
      r.core.contentLength = 2 ^ 64 - 1 ∧
      ¬ ExactSize started (some (ascii "ab")) (2 ^ 64 - 1) ∧
      RequestBuffer.narrow.bufferSize = 50000 ∧ r'.1 = .ok ∧ r'.2.totalSendSize = 4464 ∧
      ¬ RequestBuffer.narrow.ExactSize (some (List.replicate 30000 97)) 30000 := by
  obtain ⟨hok, htotal, hlength, hnot⟩ := started_append
  exact ⟨fits_started, hok, htotal, hlength, hnot, List.length_replicate, narrow_append⟩

/-- The same requests, with two bytes that are two. -/
theorem exactSize_iff_of_started :
    RequestBuffer.narrow.ExactSize (some (ascii "ab")) 2 ∧
      ExactSize started (some (ascii "ab")) 2 := by
  have hsum : started.http.totalSendSize + 2 < 2 ^ 64 := by
    rw [started_sizes.1]
    decide
  constructor
  · exact ((exactSize_iff (by decide)).1 _).mpr (Or.inr (by decide))
  · exact ((exactSize_iff (by decide)).2 _ fits_started).mpr (Or.inr hsum)

end KiiThing

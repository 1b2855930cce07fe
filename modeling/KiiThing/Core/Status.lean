import KiiThing.Core.Init

/-!
# The status code

`prv_kii_http_execute` takes the three figures behind the first `HTTP/1.1 ` in the buffer for the
status code, wherever that text stands. `statusLine_iff` says when these are the figures of
the status line.
-/

namespace KiiThing

open Http

variable {w : Nat}

/-- The number that three figures spell. -/
def spell (d₁ d₂ d₃ : Byte) : Nat :=
  Decimal.digitOf d₁ * 100 + Decimal.digitOf d₂ * 10 + Decimal.digitOf d₃

/-- A text without NUL at the beginning of the buffer is at the beginning of what was received. -/
theorem prefix_of_prefix_pad {n : Nat} {D xs : List Byte} (hxs : ∀ b ∈ xs, b ≠ 0)
    (h : xs <+: Memory.pad n 0 D) : xs <+: D := by
  obtain hlt | hle := Nat.lt_or_ge D.length xs.length
  · -- otherwise the first NUL behind `D` would be part of the text
    obtain ⟨t, rfl⟩ := List.prefix_of_prefix_length_le (List.prefix_append ..) h (Nat.le_of_lt hlt)
    rw [Memory.pad, List.prefix_append_right_inj] at h
    cases t with
    | nil => simp
    | cons c t =>
      obtain ⟨u, hu⟩ := h
      cases hn : n - D.length with
      | zero => rw [hn] at hu; cases hu
      | succ m =>
        rw [hn, List.replicate_succ, List.cons_append, List.cons_eq_cons] at hu
        exact absurd hu.1 (hxs c (by simp))
  · exact List.prefix_of_prefix_length_le h (List.prefix_append ..) hle

theorem ne_zero_of_isDigit {c : Byte} (h : Decimal.isDigit c = true) : c ≠ 0 := by
  rintro rfl
  revert h
  decide

/-- What was received stands at the beginning of the buffer. -/
theorem Buffer.Contains.prefix_bytes {b : Buffer w} {n : Nat} {D : List Byte}
    (h : b.Contains n D) : D <+: b.bytes := by
  rw [Buffer.Contains] at h
  rw [h]
  exact List.prefix_append ..

/-- A response that begins with `HTTP/1.1 ` is searched no further. -/
theorem Buffer.Contains.strstr_http1_1 {b : Buffer w} {n : Nat} {D : List Byte}
    (h : b.Contains n D) (hD : http1_1 <+: D) : b.strstr http1_1 = some 0 := by
  have hnul : ∀ c ∈ http1_1, c ≠ 0 := by decide
  obtain ⟨t, rfl⟩ := hD
  rw [h.strstr, Search.find_eq_zero_iff, List.takeWhile_append_of_pos (by simpa using hnul)]
  exact List.prefix_append ..

/-- A status code that was found is spelled by three figures behind the first `HTTP/1.1 `. -/
theorem statusCode_eq_some {b : Buffer w} {code : Nat} (h : statusCode b = some (some code)) :
    ∃ i d₁ d₂ d₃ t, b.strstr http1_1 = some i ∧
      b.bytes.drop (i + http1_1.length) = d₁ :: d₂ :: d₃ :: t ∧
      (Decimal.isDigit d₁ = true ∧ Decimal.isDigit d₂ = true ∧ Decimal.isDigit d₃ = true) ∧
      code = spell d₁ d₂ d₃ := by
  obtain ⟨i, hi, hcode⟩ := Option.map_eq_some_iff.mp h
  refine ⟨i, ?_⟩
  split at hcode
  · next d₁ d₂ d₃ t hdrop =>
    split at hcode
    · next hdigits => exact ⟨d₁, d₂, d₃, t, hi, hdrop, hdigits, (Option.some.inj hcode).symm⟩
    · cases hcode
  · cases hcode

/-- The bytes begin with a status line of HTTP/1.1 that states `code`. -/
def StatusLine (D : List Byte) (code : Nat) : Prop :=
  ∃ d₁ d₂ d₃, http1_1 ++ [d₁, d₂, d₃] <+: D ∧
    (Decimal.isDigit d₁ = true ∧ Decimal.isDigit d₂ = true ∧ Decimal.isDigit d₃ = true) ∧
    code = spell d₁ d₂ d₃

/-- **Where the status code comes from.** After a run that returned `KIIE_OK`, the status code is
the one of the status line if and only if the response begins with `HTTP/1.1 `. -/
theorem statusLine_iff {k : Core w} {cbs : Callbacks} {fuel : Nat} {x : Exchange w}
    (hk : Prepared k) (hrun : runToIdle cbs fuel k = some (.ok, x)) :
    StatusLine (received x.trace) x.core.responseCode ↔ http1_1 <+: received x.trace := by
  obtain ⟨b, code, hx⟩ := runToIdle_ok hk hrun
  constructor
  · rintro ⟨d₁, d₂, d₃, hp, -⟩
    exact (List.prefix_append ..).trans hp
  · intro hbegins
    have hfind := hx.contains.strstr_http1_1 hbegins
    obtain ⟨i, d₁, d₂, d₃, u, hi, hdrop, hdigits, hcode⟩ := statusCode_eq_some hx.status
    obtain rfl : i = 0 := by
      rw [hfind] at hi
      exact (Option.some.inj hi).symm
    refine ⟨d₁, d₂, d₃, ?_, hdigits, by rw [hx.core]; exact hcode⟩
    -- the figures are in the buffer, so they were received: no figure is a NUL
    apply prefix_of_prefix_pad (n := k.bufferSize)
    · intro c hc
      rcases List.mem_append.mp hc with hc | hc
      · have hnul : ∀ c ∈ http1_1, c ≠ 0 := by decide
        exact hnul c hc
      · obtain rfl | rfl | rfl : c = d₁ ∨ c = d₂ ∨ c = d₃ := by simpa using hc
        · exact ne_zero_of_isDigit hdigits.1
        · exact ne_zero_of_isDigit hdigits.2.1
        · exact ne_zero_of_isDigit hdigits.2.2
    · rw [← show b.bytes = _ from hx.contains]
      obtain ⟨v, hv⟩ := hbegins.trans hx.contains.prefix_bytes
      rw [Nat.zero_add, ← hv, List.drop_left] at hdrop
      rw [← hv, hdrop, List.prefix_append_right_inj]
      exact ⟨u, rfl⟩

/-- An answer of HTTP/1.0 that quotes a status of HTTP/1.1 in a header. -/
def quotedStatus : List Byte := ascii "HTTP/1.0 500 Error\r\nX-Upstream: HTTP/1.1 200\r\n\r\n"

/-- The error reply is taken for a success. -/
theorem statusLine_fails : Prepared (deviceGet 300) ∧
    ∃ x, runToIdle (serving [quotedStatus]) 20 (deviceGet 300) = some (.ok, x) ∧
      x.core.responseCode = 200 ∧ ¬ StatusLine (received x.trace) x.core.responseCode := by
  refine ⟨prepared_deviceGet, ?_⟩
  have hrun : (runToIdle (serving [quotedStatus]) 20 (deviceGet 300)).map
      (fun r => (r.1, received r.2.trace, r.2.core.responseCode)) =
        some (.ok, quotedStatus, 200) := by decide +kernel
  obtain ⟨x, hx, hfields⟩ := exists_runToIdle_of_map
    (fun x => (received x.trace, x.core.responseCode)) hrun
  obtain ⟨hreceived, hcode⟩ := Prod.mk.inj hfields
  refine ⟨x, hx, hcode, ?_⟩
  rintro ⟨d₁, d₂, d₃, hp, -⟩
  rw [hreceived] at hp
  exact absurd ((List.prefix_append ..).trans hp : http1_1 <+: quotedStatus) (by decide)

theorem statusLine_iff_of_get :
    ∃ x, runToIdle (serving [ascii "HTTP/1.1 204 No\r\n\r\n"]) 20 (deviceGet 300) = some (.ok, x) ∧
      (StatusLine (received x.trace) x.core.responseCode ↔ http1_1 <+: received x.trace) := by
  have hrun : (runToIdle (serving [ascii "HTTP/1.1 204 No\r\n\r\n"]) 20 (deviceGet 300)).map
      Prod.fst = some .ok := by decide +kernel
  obtain ⟨⟨code, x⟩, hx, rfl⟩ := Option.map_eq_some_iff.mp hrun
  exact ⟨x, hx, statusLine_iff prepared_deviceGet hx⟩

end KiiThing

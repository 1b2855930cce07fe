import KiiThing.Core.Execute

/-!
# What the engine makes of the reads

The receiving half of an exchange depends on nothing but the successful reads: `scan` computes the
engine's two variables from them, `Pending` says that the engine still wants more after them, and
`Finished` that it stopped at the last of them. `executeRecv` is shown to compute just that in
`Core/Engine`; here is what follows from it for the bytes of a response.
-/

namespace KiiThing

open Http

variable {w size : Nat}

/-- `_response_length` and `_content_length_scanned`. -/
@[ext] structure Scan where
  responseLength : Nat
  scanned : Bool
  deriving DecidableEq

/-- The buffer of a target, while it holds the bytes `D` and NULs behind them, scanned for the end
of the header. -/
def scanBytes (w size : Nat) (D : List Byte) : Option (Option Nat) :=
  (Search.find endOfHeader (D.takeWhile (· ≠ 0))).map fun separator =>
    let contentLength := kiiParseContentLength w (Memory.pad size 0 D)
    if 0 < contentLength then some ((separator + 4 + contentLength) % 2 ^ w) else none

/-- One read, after which `D` has been received in all. -/
def Scan.step (w size : Nat) (s : Scan) (D : List Byte) : Scan :=
  let scan := if s.scanned then none else scanBytes w size D
  { responseLength := scan.join.getD s.responseLength, scanned := s.scanned || scan.isSome }

/-- The header is scanned once. -/
theorem Scan.step_of_scanned {s : Scan} (h : s.scanned = true) (D : List Byte) :
    s.step w size D = s := by
  apply Scan.ext
  · simp [step, h]
  · simp [step, h]

/-- The engine's variables after some reads. -/
def scan (w size : Nat) (rs : List (List Byte)) : Scan :=
  (rs.foldl (fun (s, D) r => (s.step w size (D ++ r), D ++ r)) ((⟨0, false⟩ : Scan), [])).1

theorem scan_nil : scan w size [] = ⟨0, false⟩ := rfl

theorem scan_snoc (rs : List (List Byte)) (r : List Byte) :
    scan w size (rs ++ [r]) = (scan w size rs).step w size (rs ++ [r]).flatten := by
  have hbytes : ∀ (rs : List (List Byte)) (s : Scan) (D : List Byte),
      (rs.foldl (fun (s, D) r => (Scan.step w size s (D ++ r), D ++ r)) (s, D)).2 =
        D ++ rs.flatten := by
    intro rs
    induction rs with
    | nil => intro s D; simp
    | cons r rs ih => intro s D; rw [List.foldl_cons, ih]; simp
  have hD := hbytes rs ⟨0, false⟩ []
  rw [scan, List.foldl_append, List.foldl_cons, List.foldl_nil]
  simp only [hD, List.nil_append, List.flatten_append, List.flatten_singleton]
  rfl

/-- The declared length has been received. -/
def Scan.Reached (s : Scan) (received : Nat) : Prop :=
  0 < s.responseLength ∧ s.responseLength ≤ received

/-- The engine closes the connection after the read `r`. -/
def Completes (w size : Nat) (rs : List (List Byte)) (r : List Byte) : Prop :=
  (scan w size (rs ++ [r])).Reached (rs ++ [r]).flatten.length ∨ r = []

/-- The engine has not stopped at any of these reads. -/
def Pending (w size : Nat) (rs : List (List Byte)) : Prop :=
  ∀ rs' r, rs' ++ [r] <+: rs → ¬ Completes w size rs' r

/-- The engine has stopped at the last of these reads, and at none before it. -/
def Finished (w size : Nat) (rs : List (List Byte)) : Prop :=
  ∃ rs' r, rs = rs' ++ [r] ∧ Pending w size rs' ∧ Completes w size rs' r

theorem pending_nil : Pending w size [] := by
  intro rs' r h
  have := h.length_le
  simp at this

theorem Pending.snoc {rs : List (List Byte)} {r : List Byte} (h : Pending w size rs)
    (hr : ¬ Completes w size rs r) : Pending w size (rs ++ [r]) := by
  intro rs' r' hp
  rcases List.prefix_concat_iff.mp hp with heq | hp
  · obtain ⟨rfl, h'⟩ := List.append_inj' heq rfl
    obtain rfl : r' = r := by simpa using h'
    exact hr
  · exact h rs' r' hp

section

variable {head rest : List Byte} {v : Nat}

/-- The number of bytes that end a response with the head `head`, when its declared length is read
as `v`; 0 when there is no such number. -/
def responseEnd (w : Nat) (head : List Byte) (v : Nat) : Nat :=
  if 0 < v then (head.length + v) % 2 ^ w else 0

/-- **The engine's variables only depend on how much of the head has been received**, not on how
it was cut. -/
theorem scan_of_isHead (hhead : IsHead head)
    (hparse : ∀ t n, t <+: rest → kiiParseContentLength w (head ++ (t ++ List.replicate n 0)) = v)
    {rs : List (List Byte)} (hrs : rs.flatten <+: head ++ rest) :
    scan w size rs = if head.length ≤ rs.flatten.length then ⟨responseEnd w head v, true⟩
      else ⟨0, false⟩ := by
  induction rs using List.reverseRecOn with
  | nil =>
    have hfour := hhead.four_le
    rw [scan_nil, if_neg (by rw [List.flatten_nil, List.length_nil]; omega)]
  | append_singleton rs r ih =>
    have hflat : (rs ++ [r]).flatten = rs.flatten ++ r := by simp
    have hih := ih ((hflat ▸ List.prefix_append rs.flatten r).trans hrs)
    have hlen : rs.flatten.length ≤ (rs ++ [r]).flatten.length := by
      rw [hflat, List.length_append]
      omega
    have hfind := hhead.find_prefix hrs
    rw [scan_snoc, hih]
    by_cases hle : head.length ≤ rs.flatten.length
    · -- the head was complete before
      rw [if_pos hle, if_pos (Nat.le_trans hle hlen), Scan.step_of_scanned rfl]
    · rw [if_neg hle, Scan.step, scanBytes, hfind]
      by_cases hle' : head.length ≤ (rs ++ [r]).flatten.length
      · -- this read completes it
        obtain ⟨t, ht⟩ := List.prefix_of_prefix_length_le (List.prefix_append head rest) hrs hle'
        have hpad : Memory.pad size 0 (rs ++ [r]).flatten =
            head ++ (t ++ List.replicate (size - (rs ++ [r]).flatten.length) 0) := by
          rw [Memory.pad, ← ht, List.append_assoc]
        have hfour := Nat.sub_add_cancel hhead.four_le
        have ht' : t <+: rest := (List.prefix_append_right_inj head).mp (ht ▸ hrs)
        simp only [if_pos hle', Option.map_some, hpad, hparse t _ ht', hfour, responseEnd]
        by_cases hv : 0 < v <;> simp [hv]
      · simp only [if_neg hle']
        rfl

end

end KiiThing

import KiiThing.Core.Basic

/-!
# Writing a request into the buffer

The four primitives every preparation function is made of: the request line, a header, a piece of
the body, and the empty line. A header is spliced in at `_body_position`, in front of whatever has
been written behind it; the body grows at the end.

Below the code stands what it does to a `Draft`: the text before the insertion point and the text
behind it. `Holds k d` says that the SDK object holds the draft `d`, and `Adds k₀ f head tail` that
a step `f` adds `head` before the insertion point and `tail` at the end when there is room for both,
and fails when there is not. Steps compose (`Adds.next`), so that what a preparation function writes
is read off its code.
-/

namespace KiiThing

open Http

variable {w : Nat}

/-! ## Return codes -/

/-- What a function of the source returns, and the object it leaves behind. -/
structure Result (γ : Type) (w : Nat) where
  code : γ
  core : Core w

class ReturnCode (γ : Type) where
  isOk : γ → Bool
  fail : γ
  isOk_fail : isOk fail = false

instance : ReturnCode HttpCode := ⟨fun c => c == .ok, .fail, rfl⟩
instance : ReturnCode ErrorCode := ⟨fun c => c == .ok, .fail, rfl⟩

namespace Result

variable {γ δ : Type} [ReturnCode γ] [ReturnCode δ]

def isOk (r : Result γ w) : Bool := ReturnCode.isOk r.code

/-- `if (f(kii) != OK) { return FAIL; }`, followed by the rest of the function. -/
def next (r : Result γ w) (f : Core w → Result δ w) : Result δ w :=
  if r.isOk then f r.core else ⟨ReturnCode.fail, r.core⟩

theorem next_of_isOk {r : Result γ w} (h : r.isOk = true) (f : Core w → Result δ w) :
    r.next f = f r.core := if_pos h

theorem next_of_not_isOk {r : Result γ w} (h : r.isOk = false) (f : Core w → Result δ w) :
    r.next f = ⟨ReturnCode.fail, r.core⟩ := if_neg (by simp [h])

/-- A chain of steps is left at its first failure, however it is bracketed. -/
theorem next_assoc {η : Type} [ReturnCode η] (r : Result γ w) (f : Core w → Result δ w)
    (g : Core w → Result η w) : (r.next f).next g = r.next fun k => (f k).next g := by
  rcases hok : r.isOk with _ | _
  · rw [next_of_not_isOk hok, next_of_not_isOk hok, next_of_not_isOk ReturnCode.isOk_fail]
  · rw [next_of_isOk hok, next_of_isOk hok]

theorem next_congr {r : Result γ w} {f g : Core w → Result δ w} (h : f r.core = g r.core) :
    r.next f = r.next g := by
  rw [next, next, h]

/-- A chain that succeeds has succeeded in its first step. -/
theorem isOk_of_next {r : Result γ w} {f : Core w → Result δ w} (h : (r.next f).isOk = true) :
    r.isOk = true := by
  by_contra hnot
  rw [next_of_not_isOk (Bool.eq_false_iff.mpr hnot)] at h
  exact Bool.false_ne_true (ReturnCode.isOk_fail.symm.trans h)

@[simp] theorem isOk_error (c : ErrorCode) (k : Core w) :
    (Result.mk c k).isOk = true ↔ c = .ok := by
  cases c <;> simp [isOk, ReturnCode.isOk]

theorem isOk_iff {r : Result ErrorCode w} : r.isOk = true ↔ r.code = .ok :=
  isOk_error r.code r.core

end Result

/-! ## The functions of the source -/

/-- `prv_kii_http_set_request_line`. The room that is checked for is that of `app_host`; the host
that is printed may be `normalizer_host`. -/
def prvKiiHttpSetRequestLine (k : Core w) (method resourcePath : CString) : Result HttpCode w :=
  let k := { k with http.host := k.appHost }
  let k := { k with http.buffer := k.http.buffer.clear }
  if k.bufferSize ≤ method.length + k.appHost.length + resourcePath.length + 21 then ⟨.fail, k⟩
  else
    let line := Request.line method.bytes (k.hostStr k.appHost).bytes resourcePath.bytes
    ⟨.ok, { k with
      http.buffer := k.http.buffer.write 0 (line ++ [0])
      http.totalSendSize := line.length
      http.bodyPosition := line.length
      http.socketState := .idle }⟩

/-- `prv_kii_http_set_header`. It does not ask whether `_body_position` is NULL. -/
def prvKiiHttpSetHeader (k : Core w) (key value : CString) : Result HttpCode w :=
  let insertPosition := k.http.bodyPosition
  let bodySize := k.http.totalSendSize - k.http.bodyPosition
  let headerSize := key.length + 1 + value.length + 2
  if k.bufferSize ≤ headerSize + k.http.totalSendSize then ⟨.fail, k⟩
  else
    -- move body
    let b := k.http.buffer.move (insertPosition + headerSize) insertPosition bodySize
    let b := b.write (k.http.totalSendSize + headerSize) [0]
    -- set header
    let b := b.write insertPosition key.bytes
    let b := b.write (insertPosition + key.length) (ascii ":")
    let b := b.write (insertPosition + key.length + 1) value.bytes
    let b := b.write (insertPosition + key.length + 1 + value.length) CRLF
    ⟨.ok, { k with
      http.buffer := b
      http.bodyPosition := insertPosition + headerSize
      http.nullAccess := k.http.nullAccess || insertPosition == 0
      http.totalSendSize := k.http.totalSendSize + headerSize }⟩

/-- `prv_kii_http_append_body`. `bodyLen` is the caller's number, not the size of an object, so the
sums are those of `size_t`. -/
def prvKiiHttpAppendBody (k : Core w) (body : Option (List Byte)) (bodyLen : Nat) :
    Result HttpCode w :=
  if k.bufferSize ≤ (k.http.totalSendSize + bodyLen) % 2 ^ w then ⟨.fail, k⟩
  else
    match body with
    | none => ⟨.fail, k⟩
    | some body => ⟨.ok, { k with
        http.buffer := k.http.buffer.write k.http.totalSendSize (body.take bodyLen)
        http.totalSendSize := (k.http.totalSendSize + bodyLen) % 2 ^ w }⟩

/-- `prv_kii_http_append_body_start`: the empty line. -/
def prvKiiHttpAppendBodyStart (k : Core w) : Result HttpCode w :=
  prvKiiHttpAppendBody k (some CRLF) 2

/-- `prv_kii_http_append_body_end`: nothing to do. -/
def prvKiiHttpAppendBodyEnd (k : Core w) : Result HttpCode w := ⟨.ok, k⟩

/-! ## Drafts -/

/-- A request under construction, cut at the place where the next header goes. -/
structure Draft where
  head : List Byte
  tail : List Byte

namespace Draft

def size (d : Draft) : Nat := d.head.length + d.tail.length

def text (d : Draft) : List Byte := d.head ++ d.tail

def add (d : Draft) (head tail : List Byte) : Draft := ⟨d.head ++ head, d.tail ++ tail⟩

@[simp] theorem size_add (d : Draft) (head tail : List Byte) :
    (d.add head tail).size = d.size + head.length + tail.length := by
  simp only [size, add, List.length_append]
  omega

theorem add_add (d : Draft) (h₁ t₁ h₂ t₂ : List Byte) :
    (d.add h₁ t₁).add h₂ t₂ = d.add (h₁ ++ h₂) (t₁ ++ t₂) := by
  simp only [add, List.append_assoc]

theorem length_text (d : Draft) : d.text.length = d.size := List.length_append

end Draft

/-- The object holds the draft `d`, with room for a terminator, and its engine is at rest. -/
structure Holds (k : Core w) (d : Draft) : Prop where
  bodyPosition : k.http.bodyPosition = d.head.length
  totalSendSize : k.http.totalSendSize = d.size
  fits : d.size < k.bufferSize
  text : k.http.buffer.bytes.take d.size = d.text
  idle : k.http.socketState = .idle
  host : k.http.host = k.appHost

/-- `k'` is `k` but for the text in the buffer and what goes with it. -/
structure Frame (k k' : Core w) : Prop where
  size : k'.bufferSize = k.bufferSize
  rest : k' = { k with
    http.buffer := k'.http.buffer
    http.totalSendSize := k'.http.totalSendSize
    http.bodyPosition := k'.http.bodyPosition
    http.nullAccess := k'.http.nullAccess
    http.host := k'.http.host
    http.socketState := k'.http.socketState }

theorem Frame.refl (k : Core w) : Frame k k := ⟨rfl, rfl⟩

theorem Frame.trans {k₁ k₂ k₃ : Core w} (h : Frame k₁ k₂) (h' : Frame k₂ k₃) : Frame k₁ k₃ := by
  refine ⟨h'.size.trans h.size, ?_⟩
  rw [h'.rest, h.rest]

section

variable {k k' : Core w} (h : Frame k k')
include h

theorem Frame.appHost : k'.appHost = k.appHost := by rw [h.rest]
theorem Frame.appId : k'.appId = k.appId := by rw [h.rest]
theorem Frame.appKey : k'.appKey = k.appKey := by rw [h.rest]
theorem Frame.sdkInfo : k'.sdkInfo = k.sdkInfo := by rw [h.rest]
theorem Frame.author : k'.author = k.author := by rw [h.rest]
theorem Frame.state : k'.state = k.state := by rw [h.rest]
theorem Frame.contentLength : k'.contentLength = k.contentLength := by rw [h.rest]
theorem Frame.responseBodyLength : k'.responseBodyLength = k.responseBodyLength := by rw [h.rest]
theorem Frame.httpRequestPath : k'.httpRequestPath = k.httpRequestPath := by rw [h.rest]
theorem Frame.normalizerHost : k'.http.normalizerHost = k.http.normalizerHost := by rw [h.rest]

end

/-! ## Steps that add to a draft -/

/-- A step of a preparation that started from `k₀`: it adds its two texts if both fit. -/
structure Adds {γ : Type} [ReturnCode γ] (k₀ : Core w) (f : Core w → Result γ w)
    (head tail : List Byte) : Prop where
  frame : ∀ k, Frame k₀ k → Frame k₀ (f k).core
  adds : ∀ k d, Frame k₀ k → Holds k d → d.size + head.length + tail.length < k₀.bufferSize →
    (f k).isOk = true ∧ Holds (f k).core (d.add head tail)
  refuses : ∀ k d, Frame k₀ k → Holds k d → k₀.bufferSize ≤ d.size + head.length + tail.length →
    (f k).isOk = false

/-- A step that only returns adds nothing. -/
theorem Adds.pure {γ : Type} [ReturnCode γ] {k₀ : Core w} {c : γ} (hc : ReturnCode.isOk c = true) :
    Adds k₀ (fun k => ⟨c, k⟩) [] [] where
  frame := fun _ h => h
  adds := by
    intro k d _ hd _
    refine ⟨hc, ?_⟩
    simpa [Draft.add] using hd
  refuses := by
    intro k d hk hd hle
    have := hd.fits
    rw [hk.size] at this
    simp only [List.length_nil] at hle
    omega

/-- A step only matters on the objects that the preparation can reach. -/
theorem Adds.congr {γ : Type} [ReturnCode γ] {k₀ : Core w} {f g : Core w → Result γ w}
    {head tail : List Byte} (hf : Adds k₀ f head tail) (h : ∀ k, Frame k₀ k → g k = f k) :
    Adds k₀ g head tail where
  frame := fun k hk => by rw [h k hk]; exact hf.frame k hk
  adds := fun k d hk => by rw [h k hk]; exact hf.adds k d hk
  refuses := fun k d hk => by rw [h k hk]; exact hf.refuses k d hk

theorem Adds.of_eq {γ : Type} [ReturnCode γ] {k₀ : Core w} {f : Core w → Result γ w}
    {head tail head' tail' : List Byte} (hf : Adds k₀ f head tail) (hhead : head = head')
    (htail : tail = tail') : Adds k₀ f head' tail' := by
  rw [← hhead, ← htail]
  exact hf

/-- **Steps compose.** -/
theorem Adds.next {γ δ : Type} [ReturnCode γ] [ReturnCode δ] {k₀ : Core w}
    {f : Core w → Result γ w} {g : Core w → Result δ w} {h₁ t₁ h₂ t₂ : List Byte}
    (hf : Adds k₀ f h₁ t₁) (hg : Adds k₀ g h₂ t₂) :
    Adds k₀ (fun k => (f k).next g) (h₁ ++ h₂) (t₁ ++ t₂) where
  frame := by
    intro k hk
    rcases hok : (f k).isOk with _ | _
    · rw [Result.next_of_not_isOk hok]
      exact hf.frame k hk
    · rw [Result.next_of_isOk hok]
      exact hg.frame _ (hf.frame k hk)
  adds := by
    intro k d hk hd hlt
    rw [List.length_append, List.length_append] at hlt
    obtain ⟨hok, hd'⟩ := hf.adds k d hk hd (by omega)
    rw [Result.next_of_isOk hok]
    rw [← Draft.add_add]
    exact hg.adds _ _ (hf.frame k hk) hd' (by rw [Draft.size_add]; omega)
  refuses := by
    intro k d hk hd hle
    rw [List.length_append, List.length_append] at hle
    -- either the first step has no room, or it has and the second one does not
    by_cases hlt : d.size + h₁.length + t₁.length < k₀.bufferSize
    · obtain ⟨hok, hd'⟩ := hf.adds k d hk hd hlt
      rw [Result.next_of_isOk hok]
      exact hg.refuses _ _ (hf.frame k hk) hd' (by rw [Draft.size_add]; omega)
    · rw [Result.next_of_not_isOk (hf.refuses k d hk hd (by omega))]
      exact ReturnCode.isOk_fail

/-! ## The primitives as steps -/

section

variable {k : Core w} {method resourcePath : CString}

theorem setRequestLine_of_ge
    (h : k.bufferSize ≤ method.length + k.appHost.length + resourcePath.length + 21) :
    prvKiiHttpSetRequestLine k method resourcePath =
      ⟨.fail, { k with http.host := k.appHost, http.buffer := k.http.buffer.clear }⟩ := by
  apply if_pos
  simpa [Core.bufferSize] using h

theorem setRequestLine_of_lt
    (h : method.length + k.appHost.length + resourcePath.length + 21 < k.bufferSize) :
    prvKiiHttpSetRequestLine k method resourcePath = ⟨.ok, { k with
      http.host := k.appHost
      http.buffer := k.http.buffer.clear.write 0
        (Request.line method.bytes (k.hostStr k.appHost).bytes resourcePath.bytes ++ [0])
      http.totalSendSize :=
        (Request.line method.bytes (k.hostStr k.appHost).bytes resourcePath.bytes).length
      http.bodyPosition :=
        (Request.line method.bytes (k.hostStr k.appHost).bytes resourcePath.bytes).length
      http.socketState := .idle }⟩ := by
  apply if_neg
  simpa [Core.bufferSize] using h

/-- After the request line the object holds it, if it fits. -/
theorem holds_setRequestLine
    (h : method.length + k.appHost.length + resourcePath.length + 21 < k.bufferSize)
    (hfit : (Request.line method.bytes (k.hostStr k.appHost).bytes resourcePath.bytes).length <
      k.bufferSize) :
    Holds (prvKiiHttpSetRequestLine k method resourcePath).core
      ⟨Request.line method.bytes (k.hostStr k.appHost).bytes resourcePath.bytes, []⟩ := by
  rw [setRequestLine_of_lt h]
  generalize Request.line method.bytes (k.hostStr k.appHost).bytes resourcePath.bytes = line at hfit
  refine ⟨rfl, by simp [Draft.size], by simpa [Draft.size, Core.bufferSize] using hfit, ?_, rfl,
    rfl⟩
  have hsize : k.http.buffer.bytes.length = k.bufferSize := rfl
  show (Memory.overwrite (Memory.fill k.http.buffer.bytes 0) 0 (line ++ [0])).take _ = _
  rw [Memory.overwrite_of_le (by
    simp only [Memory.length_fill, List.length_append, List.length_singleton]
    omega)]
  simp [Draft.size, Draft.text]

end

/-- The four stores of a header are one. -/
theorem write_header (b : Buffer w) (p : Nat) (key value : CString)
    (h : p + (key.length + 1 + value.length + 2) ≤ b.size) :
    (((b.write p key.bytes).write (p + key.length) (ascii ":")).write
      (p + key.length + 1) value.bytes).write (p + key.length + 1 + value.length) CRLF =
      b.write p (field key.bytes value.bytes) := by
  have hcolon : (ascii ":").length = 1 := rfl
  have hCRLF : CRLF.length = 2 := rfl
  have hsize : b.size = b.bytes.length := rfl
  obtain ⟨key, _⟩ := key
  obtain ⟨value, _⟩ := value
  simp only [CString.length] at *
  apply Buffer.ext
  show Memory.overwrite (Memory.overwrite (Memory.overwrite (Memory.overwrite b.bytes p key) _ _) _ _)
    _ _ = Memory.overwrite b.bytes p (field key value)
  have hkey : (key ++ ascii ":").length = key.length + 1 := by rw [List.length_append, hcolon]
  have hvalue : (key ++ ascii ":" ++ value).length = key.length + 1 + value.length := by
    rw [List.length_append, hkey]
  -- the four stores are side by side
  have hfirst : p + key.length + (ascii ":").length ≤ b.bytes.length := by omega
  have hsecond : p + (key ++ ascii ":").length + value.length ≤ b.bytes.length := by omega
  rw [Memory.overwrite_overwrite hfirst, Nat.add_assoc p, ← hkey,
    Memory.overwrite_overwrite hsecond, Nat.add_assoc p, hkey, ← hvalue,
    Memory.overwrite_overwrite (by omega), field]

section

variable {k : Core w} {key value : CString}

/-- A header that does not fit changes nothing. -/
theorem setHeader_of_ge
    (h : k.bufferSize ≤ key.length + 1 + value.length + 2 + k.http.totalSendSize) :
    prvKiiHttpSetHeader k key value = ⟨.fail, k⟩ := if_pos h

theorem setHeader_of_lt
    (h : key.length + 1 + value.length + 2 + k.http.totalSendSize < k.bufferSize)
    (hpos : k.http.bodyPosition ≤ k.http.totalSendSize) :
    prvKiiHttpSetHeader k key value = ⟨.ok, { k with
      http.buffer := ((k.http.buffer.move
        (k.http.bodyPosition + (key.length + 1 + value.length + 2)) k.http.bodyPosition
        (k.http.totalSendSize - k.http.bodyPosition)).write
          (k.http.totalSendSize + (key.length + 1 + value.length + 2)) [0]).write
            k.http.bodyPosition (field key.bytes value.bytes)
      http.bodyPosition := k.http.bodyPosition + (key.length + 1 + value.length + 2)
      http.nullAccess := k.http.nullAccess || k.http.bodyPosition == 0
      http.totalSendSize := k.http.totalSendSize + (key.length + 1 + value.length + 2) }⟩ := by
  have hfit : k.http.bodyPosition + (key.length + 1 + value.length + 2) ≤ k.http.buffer.size := by
    show _ ≤ k.bufferSize
    omega
  unfold prvKiiHttpSetHeader
  dsimp only
  rw [if_neg (by omega), write_header _ _ _ _ (by simpa using hfit)]

/-- What a header that fits comes to, wherever it is put. -/
theorem setHeader_accepted
    (h : key.length + 1 + value.length + 2 + k.http.totalSendSize < k.bufferSize) :
    (prvKiiHttpSetHeader k key value).isOk = true ∧
      (prvKiiHttpSetHeader k key value).core.http.socketState = k.http.socketState ∧
      (prvKiiHttpSetHeader k key value).core.http.totalSendSize =
        k.http.totalSendSize + (key.length + 1 + value.length + 2) := by
  rw [prvKiiHttpSetHeader, if_neg (Nat.not_le.mpr h)]
  exact ⟨rfl, rfl, rfl⟩

end

theorem frame_setHeader (k : Core w) (key value : CString) :
    Frame k (prvKiiHttpSetHeader k key value).core := by
  unfold prvKiiHttpSetHeader
  dsimp only
  split
  · exact Frame.refl k
  · refine ⟨?_, rfl⟩
    simp [Core.bufferSize]

/-- **A header goes in front of the tail.** -/
theorem adds_setHeader (k₀ : Core w) (key value : CString) :
    Adds k₀ (prvKiiHttpSetHeader · key value) (field key.bytes value.bytes) [] where
  frame := fun k hk => hk.trans (frame_setHeader k key value)
  adds := by
    intro k d hk hd hlt
    have hlen : (field key.bytes value.bytes).length = key.length + 1 + value.length + 2 :=
      length_field ..
    rw [List.length_nil, Nat.add_zero, ← hk.size] at hlt
    have hsize : k.bufferSize = k.http.buffer.bytes.length := rfl
    have hdsize : d.size = d.head.length + d.tail.length := rfl
    have hpos : k.http.bodyPosition ≤ k.http.totalSendSize := by
      rw [hd.bodyPosition, hd.totalSendSize]
      omega
    have hbody : k.http.totalSendSize - k.http.bodyPosition = d.tail.length := by
      rw [hd.bodyPosition, hd.totalSendSize]
      omega
    rw [setHeader_of_lt (by rw [hd.totalSendSize]; omega) hpos, hbody, hd.totalSendSize,
      hd.bodyPosition, ← hlen]
    refine ⟨rfl, ⟨?_, ?_, ?_, ?_, hd.idle, hd.host⟩⟩
    · simp [Draft.add]
    · simp
    · simpa [Core.bufferSize] using hlt
    · -- the buffer is the draft and free cells
      have hcut := List.take_append_drop d.size k.http.buffer.bytes
      rw [hd.text, Draft.text, List.append_assoc] at hcut
      have hfree : (k.http.buffer.bytes.drop d.size).length = k.bufferSize - d.size := by
        rw [List.length_drop, hsize]
      have hsplice := Memory.take_splice d.head d.tail (k.http.buffer.bytes.drop d.size)
        (field key.bytes value.bytes) 0 (by omega)
      rw [hcut] at hsplice
      rw [Draft.size_add, List.length_nil, Nat.add_zero, hdsize]
      simp only [Draft.text, Draft.add, List.append_nil, List.append_assoc]
      exact hsplice
  refuses := by
    intro k d hk hd hle
    have hlen : (field key.bytes value.bytes).length = key.length + 1 + value.length + 2 :=
      length_field ..
    rw [List.length_nil, Nat.add_zero, ← hk.size] at hle
    show (prvKiiHttpSetHeader k key value).isOk = false
    rw [setHeader_of_ge (by rw [hd.totalSendSize]; omega)]
    rfl

/-- `bodyLen` bytes can be read through the pointer `body`: it is NULL, or the object it points to
has as many, and at most half of the address space as any object. -/
def Readable (w : Nat) (body : Option (List Byte)) (bodyLen : Nat) : Prop :=
  ∀ bs ∈ body, bodyLen ≤ bs.length ∧ bodyLen ≤ 2 ^ (w - 1)

instance (body : Option (List Byte)) (bodyLen : Nat) : Decidable (Readable w body bodyLen) :=
  match body with
  | none => isTrue (by rintro _ ⟨⟩)
  | some bs => decidable_of_iff (bodyLen ≤ bs.length ∧ bodyLen ≤ 2 ^ (w - 1))
      ⟨by rintro h _ ⟨⟩; exact h, fun h => h bs rfl⟩

/-- NULL is refused, and so is a piece whose end, as a `size_t`, is not inside of the buffer. -/
theorem appendBody_refused {k : Core w} {body : Option (List Byte)} {bodyLen : Nat}
    (h : body = none ∨ k.bufferSize ≤ (k.http.totalSendSize + bodyLen) % 2 ^ w) :
    prvKiiHttpAppendBody k body bodyLen = ⟨.fail, k⟩ := by
  unfold prvKiiHttpAppendBody
  rcases h with rfl | hge
  · split <;> rfl
  · rw [if_pos hge]

/-- Every other piece is taken. -/
theorem appendBody_accepted {k : Core w} (body : List Byte) {bodyLen : Nat}
    (h : (k.http.totalSendSize + bodyLen) % 2 ^ w < k.bufferSize) :
    prvKiiHttpAppendBody k (some body) bodyLen = ⟨.ok, { k with
      http.buffer := k.http.buffer.write k.http.totalSendSize (body.take bodyLen)
      http.totalSendSize := (k.http.totalSendSize + bodyLen) % 2 ^ w }⟩ := by
  unfold prvKiiHttpAppendBody
  rw [if_neg (Nat.not_le.mpr h)]

/-- There is no third way, wherever the end of the piece is. -/
theorem piece_cases (body : Option (List Byte)) (size stop : Nat) :
    (body = none ∨ size ≤ stop) ∨ ∃ bs, body = some bs ∧ stop < size := by
  cases body with
  | none => exact Or.inl (Or.inl rfl)
  | some bs =>
    rcases Nat.lt_or_ge stop size with hlt | hge
    · exact Or.inr ⟨bs, rfl, hlt⟩
    · exact Or.inl (Or.inr hge)

theorem frame_appendBody (k : Core w) (body : Option (List Byte)) (bodyLen : Nat) :
    Frame k (prvKiiHttpAppendBody k body bodyLen).core := by
  rcases piece_cases body k.bufferSize ((k.http.totalSendSize + bodyLen) % 2 ^ w) with
    hno | ⟨bs, rfl, hlt⟩
  · rw [appendBody_refused hno]
    exact Frame.refl k
  · rw [appendBody_accepted bs hlt]
    refine ⟨?_, rfl⟩
    simp [Core.bufferSize]

/-- A piece that does not fit changes nothing. -/
theorem appendBody_of_ge {k : Core w} {body : List Byte} {bodyLen : Nat}
    (h : Readable w (some body) bodyLen) {d : Draft} (hd : Holds k d)
    (hge : k.bufferSize ≤ d.size + bodyLen) :
    prvKiiHttpAppendBody k (some body) bodyLen = ⟨.fail, k⟩ := by
  have hmod : (k.http.totalSendSize + bodyLen) % 2 ^ w = d.size + bodyLen := by
    rw [hd.totalSendSize]
    exact Nat.mod_eq_of_lt (k.http.buffer.add_lt_word (Nat.le_of_lt hd.fits) (h body rfl).2)
  apply appendBody_refused
  rw [hmod]
  exact Or.inr hge

/-- **A piece of the body goes behind the tail.** -/
theorem adds_appendBody (k₀ : Core w) {body : List Byte} {bodyLen : Nat}
    (h : Readable w (some body) bodyLen) :
    Adds k₀ (prvKiiHttpAppendBody · (some body) bodyLen) [] (body.take bodyLen) where
  frame := fun k hk => hk.trans (frame_appendBody k (some body) bodyLen)
  adds := by
    intro k d hk hd hlt
    have hlen : (body.take bodyLen).length = bodyLen := by
      rw [List.length_take]
      have := (h body rfl).1
      omega
    rw [hlen, List.length_nil, Nat.add_zero, ← hk.size] at hlt
    have hsize : k.bufferSize = k.http.buffer.bytes.length := rfl
    have hmod : (k.http.totalSendSize + bodyLen) % 2 ^ w = d.size + bodyLen := by
      rw [hd.totalSendSize]
      exact Nat.mod_eq_of_lt (k.http.buffer.add_lt_word (Nat.le_of_lt hd.fits) (h body rfl).2)
    have hroom : (k.http.totalSendSize + bodyLen) % 2 ^ w < k.bufferSize := hmod ▸ hlt
    rw [appendBody_accepted body hroom, hmod]
    refine ⟨rfl, ⟨?_, ?_, ?_, ?_, hd.idle, hd.host⟩⟩
    · simpa [Draft.add] using hd.bodyPosition
    · simp [hlen]
    · simpa [Core.bufferSize, hlen] using hlt
    · rw [Draft.size_add, List.length_nil, Nat.add_zero, hlen]
      show (Memory.overwrite k.http.buffer.bytes k.http.totalSendSize _).take _ = _
      rw [hd.totalSendSize, Memory.overwrite_of_le (by omega), hd.text,
        List.take_append_of_le_length (by rw [List.length_append, hlen, d.length_text]),
        List.take_of_length_le (by rw [List.length_append, hlen, d.length_text])]
      simp [Draft.text, Draft.add]
  refuses := by
    intro k d hk hd hle
    have hlen : (body.take bodyLen).length = bodyLen := by
      rw [List.length_take]
      have := (h body rfl).1
      omega
    rw [hlen, List.length_nil, Nat.add_zero, ← hk.size] at hle
    show (prvKiiHttpAppendBody k (some body) bodyLen).isOk = false
    rw [appendBody_of_ge h hd hle]
    rfl

/-- The empty line. -/
theorem adds_appendBodyStart (k₀ : Core w) : Adds k₀ prvKiiHttpAppendBodyStart [] CRLF := by
  show Adds k₀ (prvKiiHttpAppendBody · (some CRLF) 2) [] (CRLF.take 2)
  apply adds_appendBody
  rintro bs ⟨⟩
  exact ⟨Nat.le_refl 2, k₀.http.buffer.le_half_word (by decide)⟩

/-! ## From the request line on -/

/-- The result of a chain of steps that began with a request line: whether it succeeded, what it
then holds, and what it did not touch. `room` is the check that the request line makes. -/
structure Builds {γ : Type} [ReturnCode γ] (k : Core w) (r : Result γ w) (room : Prop)
    (d : Draft) : Prop where
  frame : Frame k r.core
  isOk_iff : r.isOk = true ↔ room ∧ d.size < k.bufferSize
  holds : r.isOk = true → Holds r.core d

theorem Builds.next {γ δ : Type} [ReturnCode γ] [ReturnCode δ] {k : Core w} {r : Result γ w}
    {room : Prop} {d : Draft} {g : Core w → Result δ w} {head tail : List Byte}
    (hr : Builds k r room d) (hg : Adds k g head tail) :
    Builds k (r.next g) room (d.add head tail) := by
  have hsize := d.size_add head tail
  rcases hok : r.isOk with _ | _
  · rw [Result.next_of_not_isOk hok]
    refine ⟨hr.frame, ?_, fun h => absurd h (by simp [Result.isOk, ReturnCode.isOk_fail])⟩
    constructor
    · intro h
      exact absurd h (by simp [Result.isOk, ReturnCode.isOk_fail])
    · rintro ⟨hroom, hlt⟩
      have := hr.isOk_iff.mpr ⟨hroom, by omega⟩
      simp [hok] at this
  · rw [Result.next_of_isOk hok]
    have hd := hr.holds hok
    by_cases hlt : d.size + head.length + tail.length < k.bufferSize
    · obtain ⟨hok', hd'⟩ := hg.adds _ _ hr.frame hd hlt
      refine ⟨hg.frame _ hr.frame, ?_, fun _ => hd'⟩
      rw [hsize]
      exact ⟨fun _ => ⟨(hr.isOk_iff.mp hok).1, hlt⟩, fun _ => hok'⟩
    · have hfail := hg.refuses _ _ hr.frame hd (by omega)
      refine ⟨hg.frame _ hr.frame, ?_, fun h => absurd h (by simp [hfail])⟩
      rw [hsize]
      exact ⟨fun h => absurd h (by simp [hfail]), fun h => absurd h.2 hlt⟩

/-- A step that is only made when a check `c` allows it. -/
theorem Builds.next_guard {γ δ : Type} [ReturnCode γ] [ReturnCode δ] {k : Core w} {r : Result γ w}
    {room c : Prop} [Decidable c] {d : Draft} {g : Core w → Result δ w} {head tail : List Byte}
    (hr : Builds k r room d) (hg : Adds k g head tail) :
    Builds k (r.next fun k => if c then ⟨ReturnCode.fail, k⟩ else g k) (room ∧ ¬ c)
      (d.add head tail) := by
  by_cases hc : c
  · have hfail : (r.next fun k => if c then (⟨ReturnCode.fail, k⟩ : Result δ w) else g k) =
        ⟨ReturnCode.fail, r.core⟩ := by
      simp [Result.next, hc]
    rw [hfail]
    have hnot : (Result.mk (ReturnCode.fail : δ) r.core).isOk = false := ReturnCode.isOk_fail
    exact ⟨hr.frame, ⟨fun h => absurd h (by simp [hnot]), fun h => absurd hc h.1.2⟩,
      fun h => absurd h (by simp [hnot])⟩
  · simp only [hc, not_false_eq_true, and_true]
    exact hr.next hg

end KiiThing

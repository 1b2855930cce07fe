import KiiThing.Core.Ready

/-!
# Ending a request

`kii_core_api_call_end` puts the content-length header in before it looks at the state. Where the
object is not at rest, the call fails with the header already in the buffer, and an application that
repeats it sends the header twice. `CleanEnd` says when this cannot happen, of the state before the
call; `composer` is the SDK under an application that may repeat an end that failed.
-/

namespace KiiThing

open Http

variable {w : Nat}

/-! ## One end -/

/-- The content-length header that the end of the request would add. -/
def Core.lengthLine (k : Core w) : List Byte := Request.fields [contentLengthHeader k.contentLength]

/-- What is to be sent, and what the next preparation depends on, is the same in both. -/
structure Unchanged (k k' : Core w) : Prop where
  buffer : k'.http.buffer = k.http.buffer
  totalSendSize : k'.http.totalSendSize = k.http.totalSendSize
  bodyPosition : k'.http.bodyPosition = k.http.bodyPosition
  contentLength : k'.contentLength = k.contentLength
  state : k'.state = k.state

/-- An end that fails changes nothing. -/
def EndAtomic (k : Core w) : Prop :=
  (kiiCoreApiCallEnd k).code = .fail → Unchanged k (kiiCoreApiCallEnd k).core

/-- The object is at rest, or the end adds no header: there is no body, or no room. -/
def CleanEnd (k : Core w) : Prop :=
  k.state = .idle ∨ k.contentLength = 0 ∨
    k.bufferSize ≤ k.lengthLine.length + k.http.totalSendSize

instance (k : Core w) : Decidable (CleanEnd k) := inferInstanceAs (Decidable (_ ∨ _ ∨ _))

section

variable {k : Core w}

theorem Unchanged.refl (k : Core w) : Unchanged k k := ⟨rfl, rfl, rfl, rfl, rfl⟩

theorem length_lengthLine (k : Core w) : k.lengthLine.length =
    (CString.lit "content-length").length + 1 + (prvContentLengthStr k.contentLength).length + 2 := by
  rw [Core.lengthLine, Request.fields_cons, Request.fields_nil, List.append_nil,
    contentLengthHeader, length_field]
  rfl

theorem endLength_of_zero (h : k.contentLength = 0) : endLength k = ⟨.ok, k⟩ := by
  simp [endLength, h]

theorem endLength_of_pos (h : 0 < k.contentLength) : endLength k =
    prvKiiHttpSetHeader k (.lit "content-length") (prvContentLengthStr k.contentLength) := by
  simp [endLength, prvKiiCoreHttpSetContentLengthHeader, h]

/-- Without room for the header nothing happens. -/
theorem endLength_of_ge (h : 0 < k.contentLength)
    (hroom : k.bufferSize ≤ k.lengthLine.length + k.http.totalSendSize) :
    endLength k = ⟨.fail, k⟩ := by
  rw [length_lengthLine] at hroom
  rw [endLength_of_pos h, setHeader_of_ge hroom]

/-- With room the header is in, whatever the state. -/
theorem endLength_of_lt (h : 0 < k.contentLength)
    (hroom : k.lengthLine.length + k.http.totalSendSize < k.bufferSize) :
    (endLength k).isOk = true ∧ (endLength k).core.state = k.state ∧
      (endLength k).core.http.totalSendSize = k.http.totalSendSize + k.lengthLine.length := by
  rw [length_lengthLine] at hroom ⊢
  rw [endLength_of_pos h]
  obtain ⟨hok, -, htotal⟩ := setHeader_accepted hroom
  exact ⟨hok, (frame_setHeader ..).state, htotal⟩

/-- What is added is the header, in front of the empty line and the body. -/
theorem apiCallEnd_holds {d : Draft} {n : Nat} (h : Composed k d n) (hpos : 0 < n)
    (hroom : k.lengthLine.length + k.http.totalSendSize < k.bufferSize) :
    Holds (kiiCoreApiCallEnd k).core (d.add k.lengthLine []) := by
  have hn := h.contentLength
  subst hn
  have hadds := adds_setHeader k (.lit "content-length") (prvContentLengthStr k.contentLength)
  have hline : field (CString.lit "content-length").bytes
      (prvContentLengthStr k.contentLength).bytes = k.lengthLine := by
    rw [Core.lengthLine, Request.fields_cons, Request.fields_nil, List.append_nil]
    rfl
  rw [hline] at hadds
  rw [h.holds.totalSendSize, Nat.add_comm] at hroom
  obtain ⟨hok, hd⟩ := hadds.adds k d (Frame.refl k) h.holds hroom
  rw [← endLength_of_pos hpos] at hok hd
  rw [apiCallEnd_eq, Result.next_of_isOk hok]
  split
  · exact hd
  · exact hd.of_http rfl rfl

/-- **A clean end that fails** leaves the whole object as it is. -/
theorem apiCallEnd_of_clean (h : CleanEnd k) (hfail : (kiiCoreApiCallEnd k).code = .fail) :
    (kiiCoreApiCallEnd k).core = k := by
  rcases Nat.eq_zero_or_pos k.contentLength with h0 | hpos
  · -- no header is due, and only the state is left to fail
    rw [apiCallEnd_eq, endLength_of_zero h0, Result.next_of_isOk rfl] at hfail ⊢
    by_cases hidle : k.state = .idle
    · simp [hidle] at hfail
    · simp [hidle]
  · rcases Nat.lt_or_ge (k.lengthLine.length + k.http.totalSendSize) k.bufferSize with hlt | hge
    · -- the header is in, and the state does not fail
      have hidle : k.state = .idle :=
        h.resolve_right (not_or.mpr ⟨hpos.ne', Nat.not_le.mpr hlt⟩)
      obtain ⟨hok, hsame, -⟩ := endLength_of_lt hpos hlt
      rw [apiCallEnd_eq, Result.next_of_isOk hok, hsame, hidle] at hfail
      cases hfail
    · rw [apiCallEnd_eq, endLength_of_ge hpos hge]
      rfl

/-- **Any other end** fails, and leaves the header in the buffer. -/
theorem apiCallEnd_of_not_clean (h : ¬ CleanEnd k) : (kiiCoreApiCallEnd k).code = .fail ∧
    (kiiCoreApiCallEnd k).core.http.totalSendSize =
      k.http.totalSendSize + k.lengthLine.length := by
  rw [CleanEnd, not_or, not_or, Nat.not_le] at h
  obtain ⟨hbusy, hbody, hroom⟩ := h
  obtain ⟨hok, hsame, htotal⟩ := endLength_of_lt (Nat.pos_of_ne_zero hbody) hroom
  rw [apiCallEnd_eq, Result.next_of_isOk hok, hsame, if_pos hbusy]
  exact ⟨rfl, htotal⟩

/-- **When the end of a request is atomic.** -/
theorem endAtomic_iff : EndAtomic k ↔ CleanEnd k := by
  constructor
  · intro hatomic
    by_contra hclean
    obtain ⟨hfail, htotal⟩ := apiCallEnd_of_not_clean hclean
    have hsame := (hatomic hfail).totalSendSize
    rw [htotal, length_lengthLine] at hsame
    omega
  · intro hclean hfail
    rw [apiCallEnd_of_clean hclean hfail]
    exact Unchanged.refl k

end

/-! ## An application that repeats the end -/

/-- A session, and how many content-length headers the ends have added to its request. -/
structure Composer (w : Nat) where
  session : Session w
  lengthLines : Nat

namespace Composer

abbrev core (s : Composer w) : Core w := s.session.core

/-- A request that could not be ended is still under construction. A header was added when the
request has grown. -/
def step (s : Composer w) : Op → Composer w
  | .prepare p => ⟨s.session.step (.prepare p), 0⟩
  | .start c => ⟨s.session.step (.start c), 0⟩
  | .append a => ⟨s.session.step (.append a), s.lengthLines⟩
  | .finish =>
    let r := kiiCoreApiCallEnd s.core
    { session := { s.session.step .finish with composing := !r.isOk }
      lengthLines := if r.core.http.totalSendSize = s.core.http.totalSendSize then s.lengthLines
        else s.lengthLines + 1 }
  | .run cbs => ⟨s.session.step (.run cbs), s.lengthLines⟩

/-- Only clean ends are made. -/
def Clean (s : Composer w) : Op → Prop
  | .finish => CleanEnd s.core
  | .prepare _ | .start _ | .append _ | .run _ => True

/-- No header while the request is under construction, and one at most behind. -/
structure Inv (s : Composer w) : Prop where
  atMostOne : s.lengthLines ≤ 1
  none : s.session.composing = true → s.lengthLines = 0

end Composer

/-- The SDK under such an application, from an object at rest on. -/
def composer (w : Nat) : System (Composer w) Op where
  init s := s.core.state = .idle ∧ s.session.composing = false ∧ s.lengthLines = 0
  enabled s := s.session.Enabled
  step := Composer.step

section

variable {s : Composer w}

theorem Composer.Inv.of_zero (h : s.lengthLines = 0) : s.Inv := ⟨by simp [h], fun _ => h⟩

/-- A clean end that succeeds is the first to add a header; one that fails adds none. -/
theorem Composer.inv_finish (hs : s.Inv) (hcomposing : s.session.composing = true)
    (hclean : CleanEnd s.core) : (s.step .finish).Inv := by
  have hnone := hs.none hcomposing
  rcases hcode : (kiiCoreApiCallEnd s.core).code with _ | _
  · constructor
    · simp only [Composer.step, hnone]
      split <;> simp
    · intro h
      have hok : (kiiCoreApiCallEnd s.core).isOk = true := Result.isOk_iff.mpr hcode
      simp [Composer.step, hok] at h
  · apply Inv.of_zero
    simp [Composer.step, apiCallEnd_of_clean hclean hcode, hnone]

theorem reachable_finish (h : (composer w).Reachable s) (hcomposing : s.session.composing = true) :
    (composer w).Reachable (s.step .finish) := h.step (o := Op.finish) hcomposing

/-- **Where every end is clean**, no request gets a second content-length header; and as long as a
request is under construction its end is atomic exactly if it is clean. -/
theorem composer_atomic (h : ((composer w).restrict Composer.Clean).Reachable s) :
    s.lengthLines ≤ 1 ∧ (s.session.composing = true →
      s.lengthLines = 0 ∧ (EndAtomic s.core ↔ CleanEnd s.core)) := by
  suffices hinv : s.Inv from ⟨hinv.atMostOne, fun hc => ⟨hinv.none hc, endAtomic_iff⟩⟩
  refine h.invariant Composer.Inv ?_ ?_
  · rintro s ⟨-, -, hzero⟩
    exact Composer.Inv.of_zero hzero
  · rintro s op hs ⟨henabled, hclean⟩
    cases op with
    | prepare p => exact Composer.Inv.of_zero rfl
    | start c => exact Composer.Inv.of_zero rfl
    | append a => exact ⟨hs.atMostOne, fun _ => hs.none henabled.2⟩
    | finish => exact Composer.inv_finish hs henabled hclean
    | run cbs => exact ⟨hs.atMostOne, hs.none⟩

end

/-! ## A header that is sent twice -/

/-- An object at rest, for an application that repeats the end. -/
def Composer.rest : Composer 64 := ⟨Session.rest (device 512 lt_word_512), 0⟩

theorem init_rest : (composer 64).init Composer.rest := ⟨rfl, rfl, rfl⟩

/-- To post something. -/
def posting : Start := ⟨.lit "POST", .lit "api", none, false⟩

/-- Two bytes are posted, as far as the end. -/
def Composer.post (s : Composer 64) : Composer 64 :=
  (s.step (.start posting)).step (.append (.body (some (ascii "ab")) 2))

theorem reachable_post {s : Composer 64}
    (h : ((composer 64).restrict Composer.Clean).Reachable s)
    (hok : (posting.run s.core).isOk = true) :
    ((composer 64).restrict Composer.Clean).Reachable s.post := by
  have hstart := h.step (o := Op.start posting) ⟨trivial, trivial⟩
  have hbody : (Append.body (some (ascii "ab")) 2).Valid 64 := by decide
  exact hstart.step (o := Op.append (.body (some (ascii "ab")) 2)) ⟨⟨hbody, hok⟩, trivial⟩

/-- A request waits to be sent. -/
def Composer.waiting : Composer 64 := Composer.rest.step (.prepare (getting (.lit "o")))

theorem posting_waiting : (posting.run Composer.waiting.core).isOk = true := by decide +kernel

theorem reachable_waiting_post :
    ((composer 64).restrict Composer.Clean).Reachable Composer.waiting.post := by
  have hrest : ((composer 64).restrict Composer.Clean).Reachable Composer.rest := .init init_rest
  have hwaiting := hrest.step (o := Op.prepare (getting (.lit "o"))) ⟨getting_valid _ _, trivial⟩
  exact reachable_post hwaiting posting_waiting

/-- Another request is composed where one waits. Its end fails with the header in, and when it is
repeated there are two, in what is still READY to be sent. -/
theorem composer_atomic_fails :
    let s := Composer.waiting.post
    let twice := (s.step .finish).step .finish
    (composer 64).Reachable s ∧ s.session.composing = true ∧ s.core.contentLength = 2 ∧
      ¬ EndAtomic s.core ∧ (composer 64).Reachable twice ∧ twice.core.state = .ready ∧
      field (ascii "content-length") (ascii "2") ++ field (ascii "content-length") (ascii "2") <:+:
        twice.core.text := by
  have hends : Composer.waiting.post.core.contentLength = 2 ∧
      ¬ CleanEnd Composer.waiting.post.core ∧
      (Composer.waiting.post.step .finish).session.composing = true := by decide +kernel
  obtain ⟨hlength, hclean, hagain⟩ := hends
  have hreach := reachable_waiting_post.of_restrict
  have honce := reachable_finish hreach posting_waiting
  exact ⟨hreach, posting_waiting, hlength, mt endAtomic_iff.mp hclean, reachable_finish honce hagain,
    by decide +kernel⟩

/-- The same request, composed where nothing waits. -/
theorem composer_atomic_of_post :
    Composer.rest.post.lengthLines ≤ 1 ∧ Composer.rest.post.lengthLines = 0 ∧
      (EndAtomic Composer.rest.post.core ↔ CleanEnd Composer.rest.post.core) := by
  have hok : (posting.run Composer.rest.core).isOk = true := by decide +kernel
  obtain ⟨hone, hcomposing⟩ := composer_atomic (reachable_post (.init init_rest) hok)
  exact ⟨hone, hcomposing hok⟩

end KiiThing

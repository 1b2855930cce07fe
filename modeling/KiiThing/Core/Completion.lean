import KiiThing.Core.Enough
import KiiThing.Core.Fragmentation

/-!
# The end that is computed from the declared length

The engine closes the connection as soon as it has received `_response_length` bytes, which is the
length of the header plus the number that was read, in an `unsigned long`. Both the number and the sum
are computed modulo `2 ^ w`, so that a large number can put that end before the one the header
declares. `endsBehind_iff` says for which responses this happens in no run.
-/

namespace KiiThing

open Http

variable {w : Nat}

/-- From `x` to `y` the engine goes from RECV to CLOSE because `_response_length` bytes are there. -/
structure EndsByLength (x y : Exchange w) : Prop where
  recv : x.core.http.socketState = .recv
  close : y.core.http.socketState = .close
  pos : 0 < y.core.http.responseLength
  reached : y.core.http.responseLength ≤ y.core.http.receivedSize

/-- In the run, that happens behind the first `total` bytes of the response. -/
def EndsBehind (cbs : Callbacks) (k : Core w) (total : Nat) : Prop :=
  ∀ m, EndsByLength (runs cbs k m) (runs cbs k (m + 1)) →
    total ≤ (received (runs cbs k (m + 1)).trace).length

/-- In the run, nothing else is received. -/
def Receives (cbs : Callbacks) (k : Core w) (response : List Byte) : Prop :=
  ∀ m, received (runs cbs k m).trace <+: response

/-! ## The step that closes the connection -/

section

variable {k : Core w} {cbs : Callbacks} {x : Exchange w}

/-- A read after which the engine closes the connection does not end the run. -/
theorem execute_of_closes (hstate : x.core.state = .execute)
    (hrecv : x.core.http.socketState = .recv)
    (hclose : (kiiCoreRun cbs x).2.core.http.socketState = .close) :
    (kiiCoreRun cbs x).2.core.state = .execute := by
  have huntouched := (execute_untouched cbs x).state
  rw [(kiiCoreRun_execute cbs hstate).2] at hclose
  have hagain : (prvKiiHttpExecute cbs x).1 = .again := by
    rw [prvKiiHttpExecute, hrecv] at hclose ⊢
    simp only [executeRecv, Exchange.ask] at hclose ⊢
    split at hclose
    · rcases takeRead_cases { x.core with http.buffer := if x.core.http.receivedSize = 0 then
        x.core.http.buffer.clear else x.core.http.buffer } _ with ⟨_, hge, -⟩ | ⟨hagain, -⟩
      · -- the buffer is full: the engine stays in RECV
        rw [takeRead, if_pos (by simpa [Core.bufferSize] using hge)] at hclose
        rw [hrecv] at hclose
        cases hclose
      · exact hagain
    · rfl
    · cases hclose
  rcases hexec : prvKiiHttpExecute cbs x with ⟨c, z⟩
  rw [hexec] at huntouched hagain
  obtain rfl : c = .again := hagain
  rw [kiiCoreRun_again hstate hexec]
  exact huntouched.trans hstate

/-- **The step by the length**, in terms of what has been received. -/
theorem EndsByLength.scan {m : Nat} (hk : Prepared k)
    (h : EndsByLength (runs cbs k m) (runs cbs k (m + 1))) :
    (received (runs cbs k (m + 1)).trace).length < k.bufferSize ∧
      (scan w k.bufferSize (reads (runs cbs k (m + 1)).trace)).Reached
        (received (runs cbs k (m + 1)).trace).length := by
  have hstate : (runs cbs k m).core.state = .execute := by
    -- the other states leave the socket as it is
    have hclose := h.close
    rw [runs, kiiCoreRun] at hclose
    cases hstate : (runs cbs k m).core.state with
    | execute => rfl
    | _ =>
      rw [hstate] at hclose
      exact absurd (hclose.symm.trans h.recv) SocketState.noConfusion
  have hexecute := execute_of_closes hstate h.recv h.close
  have hphase : Phase k (runs cbs k (m + 1)) :=
    (runs_phase cbs hk (m + 1)).resolve_right (by rw [runs, hexecute]; exact State.noConfusion)
  obtain ⟨hsize, -, hlength⟩ := hphase.variables hk (Or.inr h.close)
  refine ⟨hphase.received_lt hk, ?_⟩
  rw [Scan.Reached, ← hlength, ← hsize]
  exact ⟨h.pos, h.reached⟩

end

/-! ## Runs and their reads -/

section

variable {k : Core w} {cbs : Callbacks}

/-- The end of a run is one of its states. -/
theorem exists_runs {fuel : Nat} {r : ErrorCode × Exchange w} (h : runToIdle cbs fuel k = some r) :
    ∃ n, runs cbs k n = r.2 := by
  obtain ⟨_, ⟨n, rfl⟩, rfl, -⟩ := Loop.doWhile_of_invariant (fun x => ∃ n, x = runs cbs k n)
    (by rintro _ ⟨n, rfl⟩ -; exact ⟨n + 1, rfl⟩) ⟨0, rfl⟩ h
  exact ⟨n + 1, rfl⟩

/-- What has been read was read by some step. -/
theorem exists_step_of_reads {rs : List (List Byte)} {r : List Byte} {n : Nat}
    (h : reads (runs cbs k n).trace = rs ++ [r]) :
    ∃ m, reads (runs cbs k m).trace = rs ∧ reads (runs cbs k (m + 1)).trace = rs ++ [r] := by
  induction n with
  | zero => simp [runs, reads] at h
  | succ n ih =>
    rcases kiiCoreRun_trace cbs (runs cbs k n) with hsame | ⟨c, hsnoc⟩
    · rw [runs, hsame] at h
      exact ih h
    · obtain hread | ⟨data, hread⟩ :=
        Option.eq_none_or_eq_some (Event.read ⟨c, cbs (runs cbs k n).trace c⟩)
      · rw [runs, hsnoc, reads_snoc_of_not_read hread] at h
        exact ih h
      · have hreads := h
        rw [runs, hsnoc, reads_snoc_read hread] at hreads
        exact ⟨n, (List.append_inj' hreads rfl).1, h⟩

/-- Some step of the run closes the connection by the length, when all that the server sends is what
the engine waits for. -/
theorem exists_endsByLength {R : List Byte} {N : Nat} (hk : Prepared k) (hserves : Serves cbs False R N)
    (hfits : R.length < k.bufferSize) (hne : R ≠ [])
    (hreached : ∀ rs : List (List Byte), rs.flatten = R →
      (scan w k.bufferSize rs).Reached rs.flatten.length) :
    ∃ m, EndsByLength (runs cbs k m) (runs cbs k (m + 1)) := by
  have hends : EndsItself w k.bufferSize False R := endsItself_of_not_declared
  obtain ⟨fuel, ⟨code, x⟩, hrun⟩ := exists_runToIdle_of_patient hk (hserves.patient hends hk)
  obtain ⟨hended, hhistory⟩ := runToIdle_ended hk hrun
  have hle : (received x.trace).length ≤ R.length := (hserves.received_isPrefix hends hhistory).length_le
  have hfinished : Finished w k.bufferSize (reads x.trace) := by
    cases hended with
    | accepted h => exact h.finished
    | socket htrace hfail _ =>
      rw [htrace] at hhistory
      exact absurd hfail (hserves.code_ne_fail hends hhistory)
    | overflow _ _ hge _ =>
      have hge : k.bufferSize ≤ (received x.trace).length := hge
      omega
    | invalid _ _ hfinished _ _ => exact hfinished
  obtain ⟨rs, r, hreads, hpending, hcompletes⟩ := hfinished
  have hr : r ≠ [] := by
    rintro rfl
    -- the last read but one had completed the response
    have hall := hserves.received_of_empty_read hends hhistory hreads
    rcases List.eq_nil_or_concat rs with rfl | ⟨rs', r', rfl⟩
    · exact hne hall.symm
    · rw [List.concat_eq_append] at hall hpending
      exact hpending rs' r' (List.prefix_refl _) (Or.inl (hreached _ hall))
  obtain ⟨n, hn⟩ := exists_runs hrun
  have hall : reads (runs cbs k n).trace = rs ++ [r] := by rw [hn, hreads]
  obtain ⟨m, hbefore, hafter⟩ := exists_step_of_reads hall
  have hlt := (hserves.received_isPrefix hends (runs_history cbs hk (m + 1))).length_le
  obtain ⟨data, -, -, hrecv, -, hphase⟩ := exists_read cbs hk m (by
    rw [received_eq, received_eq, hbefore, hafter, List.flatten_append, List.flatten_singleton]
    simpa using hr) (by omega)
  have hclose := (hphase.closing_iff hafter).mpr hcompletes
  obtain ⟨hsize, -, hlength⟩ := hphase.variables hk (Or.inr hclose)
  have hby := hcompletes.resolve_right hr
  rw [← hafter, ← received_eq] at hby
  exact ⟨m, hrecv, hclose, by rw [hlength]; exact hby.1, by rw [hlength, hsize]; exact hby.2⟩

end

/-! ## What the header shows -/

section

variable {size : Nat} {head rest : List Byte} {rs : List (List Byte)}

/-- Before the header is complete, nothing has been computed. -/
theorem scan_of_short (hhead : IsHead head) (hrs : rs.flatten <+: head ++ rest)
    (hlt : rs.flatten.length < head.length) : scan w size rs = ⟨0, false⟩ := by
  induction rs using List.reverseRecOn with
  | nil => rfl
  | append_singleton rs r ih =>
    have hflat : (rs ++ [r]).flatten = rs.flatten ++ r := by simp
    have hbefore : rs.flatten <+: (rs ++ [r]).flatten := hflat ▸ List.prefix_append ..
    rw [scan_snoc, ih (hbefore.trans hrs) (Nat.lt_of_le_of_lt hbefore.length_le hlt), Scan.step,
      scanBytes, hhead.find_prefix hrs, if_neg (Nat.not_le.mpr hlt)]
    rfl

end

namespace Opening

variable {o : Opening} {after : List Field} {body digits : List Byte} {size : Nat}
  {rs : List (List Byte)}

/-- The header of the response, with the fields behind the content-length field. -/
def header (o : Opening) (after : List Field) : List Byte := o.bytes ++ tail after []

/-- The length of the header plus the number `digits` that it shows, in an `unsigned long`. -/
def wrappedEnd (w : Nat) (o : Opening) (after : List Field) (digits : List Byte) : Nat :=
  ((o.header after).length + Decimal.read 0 digits) % 2 ^ w

/-- In a buffer of `size` bytes, this sum does not stand for an end before the declared one: a sum of 0
and a number of 0 stand for none, and the other ends come behind the header. -/
def NoWrap (w size : Nat) (o : Opening) (after : List Field) : Prop :=
  ∀ digits, Shows o.shown digits →
    2 ^ w ∣ Decimal.read 0 digits ∨ o.wrappedEnd w after digits = 0 ∨
      size ≤ max (o.header after).length (o.wrappedEnd w after digits) ∨
      (o.header after).length + o.field.number ≤
        max (o.header after).length (o.wrappedEnd w after digits)

theorem bytes_tail (o : Opening) (after : List Field) (body : List Byte) :
    o.bytes ++ tail after body = o.header after ++ body := by
  simp [header, tail]

theorem WellFormed.isHead_header (ho : o.WellFormed) (hafter : ∀ f ∈ after, f.Proper) :
    IsHead (o.header after) := by
  have hlines : o.header after =
      lines (o.statusLine :: (o.before ++ [o.field] ++ after).map Field.line) ++ CRLF := by
    simp [header, tail, bytes, lines]
  rw [hlines]
  apply isHead_lines ho.statusLine
  intro l hl
  obtain ⟨f, hf, rfl⟩ := List.mem_map.mp hl
  rw [List.mem_append] at hf
  exact ⟨(hf.elim (ho.proper f) (hafter f)).isLine, f.line_ne_nil⟩

/-- **When the engine has all it waits for**, of a response that shows a number. -/
theorem WellFormed.reached_iff (ho : o.WellFormed) (hafter : ∀ f ∈ after, f.Proper) (hw : 16 ≤ w)
    (hdigits : Shows o.shown digits) (hrs : rs.flatten <+: o.header after ++ body) :
    (scan w size rs).Reached rs.flatten.length ↔ ¬ 2 ^ w ∣ Decimal.read 0 digits ∧
      o.wrappedEnd w after digits ≠ 0 ∧
      max (o.header after).length (o.wrappedEnd w after digits) ≤ rs.flatten.length := by
  have hparse : ∀ t n, t <+: body → kiiParseContentLength w
      (o.header after ++ (t ++ List.replicate n 0)) = Decimal.read 0 digits % 2 ^ w := by
    intro t n _
    rw [header, List.append_assoc, ho.parse_of_shows hw hdigits]
  have hend : responseEnd w (o.header after) (Decimal.read 0 digits % 2 ^ w) =
      if 2 ^ w ∣ Decimal.read 0 digits then 0 else o.wrappedEnd w after digits := by
    rw [responseEnd, wrappedEnd, Nat.add_mod_mod]
    by_cases hdvd : 2 ^ w ∣ Decimal.read 0 digits
    · rw [if_pos hdvd, Nat.mod_eq_zero_of_dvd hdvd, if_neg (Nat.lt_irrefl 0)]
    · have hne : Decimal.read 0 digits % 2 ^ w ≠ 0 := fun h => hdvd (Nat.dvd_of_mod_eq_zero h)
      rw [if_neg hdvd, if_pos (Nat.pos_of_ne_zero hne)]
  rw [scan_of_isHead (ho.isHead_header hafter) hparse hrs, hend, Scan.Reached, Nat.max_le]
  generalize rs.flatten.length = received
  by_cases hle : (o.header after).length ≤ received
  · rw [if_pos hle]
    by_cases hdvd : 2 ^ w ∣ Decimal.read 0 digits
    · simp [hdvd]
    · simp [hdvd, hle, Nat.pos_iff_ne_zero]
  · simp [hle]

/-- **Behind the declared end** is where the engine has all it waits for, when nothing wraps. -/
theorem WellFormed.le_of_reached (ho : o.WellFormed) (hafter : ∀ f ∈ after, f.Proper) (hw : 16 ≤ w)
    (hno : o.NoWrap w size after) (hrs : rs.flatten <+: o.header after ++ body)
    (hlt : rs.flatten.length < size) (h : (scan w size rs).Reached rs.flatten.length) :
    (o.header after).length + o.field.number ≤ rs.flatten.length := by
  have hhead := ho.isHead_header hafter
  have hle : (o.header after).length ≤ rs.flatten.length := by
    by_contra hshort
    rw [scan_of_short hhead hrs (Nat.not_le.mp hshort)] at h
    exact Nat.lt_irrefl 0 h.1
  by_cases hshows : ∃ digits, Shows o.shown digits
  · obtain ⟨digits, hdigits⟩ := hshows
    obtain ⟨hdvd, hend, hmax⟩ := (ho.reached_iff hafter hw hdigits hrs).mp h
    rcases hno digits hdigits with h0 | h0 | hfull | hbehind
    · exact absurd h0 hdvd
    · exact absurd h0 hend
    · omega
    · exact hbehind.trans hmax
  · by_cases h0 : o.field.number = 0
    · omega
    · -- a number that is not shown is none for the parser
      have hlong := (ho.settled (Or.inl h0)).resolve_left hshows
      have hparse : ∀ t n, t <+: body →
          kiiParseContentLength w (o.header after ++ (t ++ List.replicate n 0)) = 0 := by
        intro t n _
        rw [header, List.append_assoc, ho.parse_of_long hshows hlong]
      rw [scan_of_isHead hhead hparse hrs, if_pos hle] at h
      exact absurd h.1 (Nat.lt_irrefl 0)

/-- **The end of a number of at most ten figures** wraps when the field is the first line that begins
so, the number is in reach, and the length of the response is too large for the machine. -/
theorem WellFormed.noWrap_iff (ho : o.WellFormed)
    (hfirst : ∀ f ∈ o.before, ¬ StartsWith lower f.name) {blanks zeros trail : List Byte} {n : Nat}
    (hvalue : o.field.value = blanks ++ zeros ++ Decimal.text n ++ trail) (hn : n < 10 ^ 10)
    (hblanks : ∀ b ∈ blanks, b = 32 ∨ b = 9) (hzeros : ∀ b ∈ zeros, b = 48)
    (htrail : ∀ b ∈ trail, b = 32 ∨ b = 9) :
    o.NoWrap w size after ↔ 9 < blanks.length + zeros.length ∨ 2 ^ w ∣ n ∨
      (o.header after).length + n < 2 ^ w ∨ ((o.header after).length + n) % 2 ^ w = 0 ∨
      size ≤ max (o.header after).length (((o.header after).length + n) % 2 ^ w) := by
  obtain ⟨hnumber, hshows, hread⟩ := ho.shows_iff hfirst hvalue hn hblanks hzeros htrail
  have hend : ∀ digits, Shows o.shown digits →
      o.wrappedEnd w after digits = ((o.header after).length + n) % 2 ^ w := by
    intro digits hdigits
    rw [wrappedEnd, hread digits hdigits]
  have hmod : (o.header after).length + n < 2 ^ w →
      ((o.header after).length + n) % 2 ^ w = (o.header after).length + n := Nat.mod_eq_of_lt
  have hword : ((o.header after).length + n) % 2 ^ w < 2 ^ w :=
    Nat.mod_lt _ (Nat.two_pow_pos w)
  constructor
  · intro hno
    by_cases hshown : n ≠ 0 ∧ blanks.length + zeros.length ≤ 9
    · obtain ⟨digits, hdigits⟩ := hshows.mpr hshown
      have hcases := hno digits hdigits
      rw [hend digits hdigits, hread digits hdigits, hnumber] at hcases
      rcases hcases with hdvd | h0 | hfull | hle
      · exact Or.inr (Or.inl hdvd)
      · exact Or.inr (Or.inr (Or.inr (Or.inl h0)))
      · exact Or.inr (Or.inr (Or.inr (Or.inr hfull)))
      · right; right; left
        omega
    · by_cases h0 : n = 0
      · exact Or.inr (Or.inl (h0 ▸ Nat.dvd_zero _))
      · left
        omega
  · intro h digits hdigits
    have hnear := (hshows.mp ⟨digits, hdigits⟩).2
    rw [hend digits hdigits, hread digits hdigits, hnumber]
    rcases h with hfar | hdvd | hlt | h0 | hfull
    · omega
    · exact Or.inl hdvd
    · right; right; right
      rw [hmod hlt]
      exact Nat.le_max_right _ _
    · exact Or.inr (Or.inl h0)
    · exact Or.inr (Or.inr (Or.inl hfull))

end Opening

/-! ## Runs -/

/-- **When the engine waits for all of the declared body**: in every run that receives the response,
whatever the pieces are. -/
theorem endsBehind_iff {k : Core w} {o : Opening} {after : List Field} (hk : Prepared k)
    (ho : o.WellFormed) (hafter : ∀ f ∈ after, f.Proper) :
    (∀ cbs body, Receives cbs k (o.bytes ++ Opening.tail after body) →
      EndsBehind cbs k ((o.header after).length + o.field.number)) ↔
      o.NoWrap w k.bufferSize after := by
  have hw := k.http.buffer.word_ge
  constructor
  · intro hruns digits hdigits
    by_contra hwraps
    simp only [not_or, Nat.not_le] at hwraps
    obtain ⟨hdvd, hend, hfits, hearly⟩ := hwraps
    -- a server that sends as much of the response as the engine waits for
    obtain ⟨body, hbody⟩ : ∃ body : List Byte, (o.header after ++ body).length =
        max (o.header after).length (o.wrappedEnd w after digits) :=
      ⟨List.replicate (o.wrappedEnd w after digits - (o.header after).length) 0, by
        rw [List.length_append, List.length_replicate]
        omega⟩
    have hserves := serves_byteByByte (o.header after ++ body)
    have hsent := fun m =>
      hserves.received_isPrefix endsItself_of_not_declared (runs_history _ hk m)
    obtain ⟨m, hstep⟩ := exists_endsByLength hk hserves (by omega)
      (List.append_ne_nil_of_left_ne_nil (List.ne_nil_of_length_pos
        (Nat.lt_of_lt_of_le (by decide) (ho.isHead_header hafter).four_le)) _) (by
        intro rs hrs
        rw [ho.reached_iff hafter hw hdigits (by rw [hrs]), hrs, hbody]
        exact ⟨hdvd, hend, Nat.le_refl _⟩)
    have hbehind := hruns _ body (fun m => by rw [Opening.bytes_tail]; exact hsent m) m hstep
    have hle := (hsent (m + 1)).length_le
    omega
  · intro hno cbs body hreceives m hstep
    obtain ⟨hlt, hreached⟩ := hstep.scan hk
    have hrs := hreceives (m + 1)
    rw [Opening.bytes_tail] at hrs
    exact ho.le_of_reached hafter hw hno hrs hlt hreached

theorem small_lt_half_word : 300 < 2 ^ (32 - 1) := by decide

theorem small_word : 16 ≤ 32 := by decide

/-- A device with a `long` of 32 bits and a first request: to get an object of a thing. -/
def smallDevice : Core 32 :=
  (kiiCoreGetObject (kiiCoreInit (.static 300 small_lt_half_word small_word) none (.lit "US")
    (.lit "app") (.lit "key")) ⟨.thing, .lit "th", .lit "b"⟩ (.lit "o")).core

theorem prepared_smallDevice : Prepared smallDevice := by decide +kernel

/-- `Content-Length: 4294967295`. -/
def openingMax : Opening :=
  ⟨ascii "HTTP/1.1 200 OK", [], ⟨ascii "Content-Length", ascii " 4294967295"⟩⟩

theorem openingMax_wellFormed : openingMax.WellFormed where
  statusLine := by decide
  proper := by simpa [openingMax] using ⟨by decide, by decide⟩
  first := by simp [openingMax]
  named := by decide
  decimal := ⟨[32], ascii "4294967295", [], by decide, by decide, by decide, by decide, by simp⟩

/-- The header alone is taken for the whole response: its computed end is one byte before its own. -/
theorem endsBehind_fails : Prepared smallDevice ∧ openingMax.WellFormed ∧
    openingMax.field.number = 4294967295 ∧ (openingMax.header []).length < smallDevice.bufferSize ∧
    Receives (byteByByte (openingMax.header [])) smallDevice (openingMax.header []) ∧
    ¬ EndsBehind (byteByByte (openingMax.header [])) smallDevice
      ((openingMax.header []).length + openingMax.field.number) := by
  refine ⟨prepared_smallDevice, openingMax_wellFormed, by decide, by decide +kernel, fun m => ?_,
    fun h => ?_⟩
  · exact (serves_byteByByte _).received_isPrefix endsItself_of_not_declared
      (runs_history _ prepared_smallDevice m)
  · have hstep : ((runs (byteByByte (openingMax.header [])) smallDevice 53).core.http.socketState,
        (runs (byteByByte (openingMax.header [])) smallDevice (53 + 1)).core.http.socketState,
        (runs (byteByByte (openingMax.header [])) smallDevice (53 + 1)).core.http.responseLength,
        (runs (byteByByte (openingMax.header [])) smallDevice (53 + 1)).core.http.receivedSize,
        (received (runs (byteByByte (openingMax.header [])) smallDevice (53 + 1)).trace).length) =
          (.recv, .close, 46, 47, 47) := by
      decide +kernel
    simp only [Prod.mk.injEq] at hstep
    obtain ⟨hrecv, hclose, hlength, hsize, hreceived⟩ := hstep
    have hbehind := h 53 ⟨hrecv, hclose, by omega, by omega⟩
    rw [hreceived] at hbehind
    revert hbehind
    decide

/-- A response with five bytes on the same device. -/
theorem endsBehind_of_five : openingFive.NoWrap 32 smallDevice.bufferSize [] ∧ ∀ cbs body,
    Receives cbs smallDevice (openingFive.bytes ++ Opening.tail [] body) →
      EndsBehind cbs smallDevice ((openingFive.header []).length + openingFive.field.number) := by
  have hvalue : openingFive.field.value = [32] ++ [] ++ Decimal.text 5 ++ [] := by decide
  have hfirst : ∀ f ∈ openingFive.before, ¬ StartsWith lower f.name := by simp [openingFive]
  have hfits : (openingFive.header []).length + 5 < 2 ^ 32 := by decide
  have hno : openingFive.NoWrap 32 smallDevice.bufferSize [] :=
    (openingFive_wellFormed.noWrap_iff hfirst hvalue (by simp) (by simp) (by simp)
      (by simp)).mpr (Or.inr (Or.inr (Or.inl hfits)))
  exact ⟨hno, (endsBehind_iff prepared_smallDevice openingFive_wellFormed (by simp)).mpr hno⟩

end KiiThing

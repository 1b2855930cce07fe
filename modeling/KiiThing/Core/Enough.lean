import KiiThing.Core.Locality
import KiiThing.Core.Outcome

/-!
# When the declared length is enough

A response whose last field declares the length of its body comes in any pieces. `closesAt_iff` is
about the step of a run that receives its last byte: the engine closes the connection then, without
asking for more, if and only if the number that it has read is not 0 and not too large. Where it is 0,
or none was in reach, the end of the response is the end of the connection.
-/

namespace KiiThing

open Http

variable {w : Nat}

namespace Opening

/-- The header that ends with the content-length field. -/
def head (o : Opening) : List Byte := o.bytes ++ CRLF

/-- The opening shows a number that the body does not fall short of. -/
def InTime (w : Nat) (o : Opening) : Prop :=
  ∃ digits, Shows o.shown digits ∧ 0 < Decimal.read 0 digits % 2 ^ w ∧
    0 < (o.head.length + Decimal.read 0 digits % 2 ^ w) % 2 ^ w ∧
    (o.head.length + Decimal.read 0 digits % 2 ^ w) % 2 ^ w ≤ o.head.length + o.field.number

variable {o : Opening}

theorem read_zeros {zeros : List Byte} (h : ∀ b ∈ zeros, b = 48) (s : List Byte) :
    Decimal.read 0 (zeros ++ s) = Decimal.read 0 s := by
  induction zeros with
  | nil => rfl
  | cons b zeros ih =>
    obtain rfl : b = 48 := h b List.mem_cons_self
    exact ih fun b hb => h b (List.mem_cons_of_mem _ hb)

/-- Behind lines that begin otherwise, the parser looks at the field itself. -/
theorem WellFormed.shown_of_first (ho : o.WellFormed)
    (hfirst : ∀ f ∈ o.before, ¬ StartsWith lower f.name) :
    o.shown = ascii ":" ++ o.field.value ++ CRLF := by
  rw [shown, List.dropWhile_append_of_pos (by simpa using hfirst),
    List.dropWhile_cons_of_neg (by simpa using ho.named.startsWith), behind_named ho.named,
    List.map_nil, lines_nil, List.append_nil]

section

variable (ho : o.WellFormed) (hfirst : ∀ f ∈ o.before, ¬ StartsWith lower f.name)
  {blanks zeros trail : List Byte} {n : Nat}
  (hvalue : o.field.value = blanks ++ zeros ++ Decimal.text n ++ trail) (hn : n < 10 ^ 10)
  (hblanks : ∀ b ∈ blanks, b = 32 ∨ b = 9) (hzeros : ∀ b ∈ zeros, b = 48)
  (htrail : ∀ b ∈ trail, b = 32 ∨ b = 9)
include ho hfirst hvalue hn hblanks hzeros htrail

/-- What the first line that begins with `content-length` shows: its number of at most ten figures,
where that is not 0 and in reach. -/
theorem WellFormed.shows_iff : o.field.number = n ∧
    ((∃ digits, Shows o.shown digits) ↔ n ≠ 0 ∧ blanks.length + zeros.length ≤ 9) ∧
    ∀ digits, Shows o.shown digits → Decimal.read 0 digits = n := by
  have hdigits : ∀ d ∈ zeros ++ Decimal.text n, Decimal.isDigit d = true := by
    rw [List.forall_mem_append]
    exact ⟨fun b hb => by rw [hzeros b hb]; rfl, fun _ => Decimal.isDigit_of_mem_text⟩
  have hne : zeros ++ Decimal.text n ≠ [] := by
    have := Decimal.digits_ne_nil n
    simp [Decimal.text, this]
  have hnumber : o.field.number = n := by
    rw [Field.number_of_value (by rw [hvalue, List.append_assoc blanks]) hblanks hne hdigits htrail,
      read_zeros hzeros, read_text]
  obtain ⟨sep, hsep⟩ : ∃ sep, sep = ascii ":" ++ blanks ++ zeros := ⟨_, rfl⟩
  have hlen : sep.length = 1 + blanks.length + zeros.length := by
    rw [hsep, List.length_append, List.length_append]
    rfl
  have hnone : ∀ b ∈ sep, ¬ Figure b := by
    rw [hsep, List.forall_mem_append, List.forall_mem_append]
    refine ⟨⟨not_figure_colon, fun b hb => not_figure_of_blank (hblanks b hb)⟩, fun b hb => ?_⟩
    rw [hzeros b hb]
    decide
  have hfield := ho.shown_of_first hfirst
  have hshown : o.shown = sep ++ (Decimal.text n ++ (trail ++ CRLF)) := by
    rw [hfield, hvalue, hsep]
    simp
  have hnot : (∃ digits, Shows o.shown digits) → n ≠ 0 ∧ blanks.length + zeros.length ≤ 9 := by
    intro hshows
    obtain ⟨b, hb, hfigure⟩ := exists_shows_iff.mp hshows
    constructor
    · rintro rfl
      have hb := List.mem_of_mem_take hb
      rw [hfield] at hb
      exact ho.decimal.not_figure_of_zero hnumber b hb hfigure
    · by_contra hfar
      rw [hshown, List.take_append_of_le_length (by omega)] at hb
      exact hnone b (List.mem_of_mem_take hb) hfigure
  have hshows : n ≠ 0 ∧ blanks.length + zeros.length ≤ 9 → Shows o.shown (Decimal.text n) := by
    rintro ⟨hpos, hnear⟩
    have hstop := head_trail htrail []
    rw [List.append_nil] at hstop
    rw [hshown]
    exact shows_text hnone (by omega) hpos hn hstop
  refine ⟨hnumber, ⟨hnot, fun h => ⟨_, hshows h⟩⟩, fun digits hdigits => ?_⟩
  rw [hdigits.read_eq (hshows (hnot ⟨digits, hdigits⟩)), read_text]

/-- **A number of at most ten figures is in time** when the field is the first line that begins so and
the number is in reach. -/
theorem WellFormed.inTime_iff (hfits : o.head.length + n < 2 ^ w) :
    o.InTime w ↔ n ≠ 0 ∧ blanks.length + zeros.length ≤ 9 := by
  obtain ⟨hnumber, hshows, hread⟩ := ho.shows_iff hfirst hvalue hn hblanks hzeros htrail
  rw [← hshows]
  constructor
  · rintro ⟨digits, hdigits, -⟩
    exact ⟨digits, hdigits⟩
  · rintro ⟨digits, hdigits⟩
    have hpos := (hshows.mp ⟨digits, hdigits⟩).1
    refine ⟨digits, hdigits, ?_⟩
    rw [hread digits hdigits, hnumber, Nat.mod_eq_of_lt (by omega), Nat.mod_eq_of_lt hfits]
    omega

end

theorem WellFormed.isHead (ho : o.WellFormed) : IsHead o.head := by
  apply isHead_lines ho.statusLine
  intro l hl
  obtain ⟨f, hf, rfl⟩ := List.mem_map.mp hl
  exact ⟨(ho.proper f hf).isLine, f.line_ne_nil⟩

/-- **What is read when nothing is in reach**, of a response whose body has the declared length. -/
theorem WellFormed.parse_of_not_shows (ho : o.WellFormed) (h : ¬ ∃ digits, Shows o.shown digits)
    {t : List Byte} (ht : t.length ≤ o.field.number) (n : Nat) :
    kiiParseContentLength w (o.head ++ (t ++ List.replicate n 0)) = 0 := by
  rw [head, List.append_assoc]
  by_cases hlong : 11 ≤ o.shown.length
  · exact ho.parse_of_long h hlong _
  · -- the declared number is 0, so that there is no body
    have h0 : o.field.number = 0 := by
      by_contra hpos
      exact (ho.settled (Or.inl hpos)).elim h hlong
    obtain rfl : t = [] := List.length_eq_zero_iff.mp (by omega)
    obtain ⟨name, u, hname, hshown, hfield, hparse⟩ := ho.parse (w := w)
    rw [hparse, ← hshown, hfield (Nat.not_le.mp hlong), List.nil_append]
    apply value_of_none hname
    intro b hb
    have hb := List.mem_of_mem_take hb
    rcases List.mem_append.mp hb with hb | hb
    · exact ho.decimal.not_figure_of_zero h0 b hb
    · rcases List.mem_append.mp hb with hb | hb
      · exact not_figure_crlf b hb
      · rw [List.eq_of_mem_replicate hb]
        decide

/-- **The read that completes the response** stops the engine when the number was read in time. -/
theorem WellFormed.completes_iff (ho : o.WellFormed) (hw : 16 ≤ w) {body : List Byte}
    (hbody : body.length = o.field.number) {size : Nat} {rs : List (List Byte)} {r : List Byte}
    (hall : (rs ++ [r]).flatten = o.head ++ body) (hr : r ≠ []) :
    Completes w size rs r ↔ o.InTime w := by
  have hle : o.head.length ≤ (rs ++ [r]).flatten.length := by
    rw [hall, List.length_append]
    omega
  have htotal : (rs ++ [r]).flatten.length = o.head.length + o.field.number := by
    rw [hall, List.length_append, hbody]
  have hscan : ∀ v, (∀ t n, t <+: body →
      kiiParseContentLength w (o.head ++ (t ++ List.replicate n 0)) = v) →
      (Completes w size rs r ↔ 0 < responseEnd w o.head v ∧
        responseEnd w o.head v ≤ o.head.length + o.field.number) := by
    intro v hparse
    rw [Completes, scan_of_isHead ho.isHead hparse (hall ▸ List.prefix_refl _), if_pos hle,
      Scan.Reached, htotal]
    exact or_iff_left hr
  by_cases hshows : ∃ digits, Shows o.shown digits
  · obtain ⟨digits, hdigits⟩ := hshows
    have hparse := ho.parse_of_shows hw hdigits
    rw [hscan _ fun t n _ => by rw [head, List.append_assoc, hparse]]
    constructor
    · rintro ⟨hpos, hin⟩
      refine ⟨digits, hdigits, ?_⟩
      unfold responseEnd at hpos hin
      split at hpos
      · next hv =>
        rw [if_pos hv] at hin
        exact ⟨hv, hpos, hin⟩
      · exact absurd hpos (Nat.lt_irrefl 0)
    · rintro ⟨digits', hdigits', hv, hpos, hin⟩
      rw [← ho.parse_of_shows hw hdigits' [], hparse] at hv hpos hin
      rw [responseEnd, if_pos hv]
      exact ⟨hpos, hin⟩
  · rw [hscan 0 fun t n ht => ho.parse_of_not_shows hshows (hbody ▸ ht.length_le) n]
    refine iff_of_false (fun h => ?_) fun h => hshows ⟨_, h.choose_spec.1⟩
    exact absurd h.1 (Nat.lt_irrefl 0)

end Opening

/-! ## Runs -/

/-- A call of `recv_cb`. -/
def Event.asks : Event → Bool
  | ⟨.recv _, _⟩ => true
  | _ => false

/-- After `m` calls of `kii_core_run` the engine closes the connection, and `recv_cb` is not called
any more. -/
structure ClosesAt (cbs : Callbacks) (k : Core w) (m : Nat) : Prop where
  closing : (runs cbs k m).core.http.socketState = .close
  quiet : ∀ n, (runs cbs k (m + n)).trace.countP Event.asks =
    (runs cbs k m).trace.countP Event.asks

section

variable {k : Core w} {cbs : Callbacks} {x : Exchange w}

/-- An engine that closes the connection does nothing else. -/
theorem step_closing (cbs : Callbacks) (hst : x.core.http.socketState = .close)
    (hstate : x.core.state = .execute) :
    (kiiCoreRun cbs x).2.trace = x.trace ++ [⟨.close, cbs x.trace .close⟩] ∧
      ((kiiCoreRun cbs x).2.core.state = .idle ∨ (kiiCoreRun cbs x).2.core.state = .execute ∧
        (kiiCoreRun cbs x).2.core.http.socketState = .close) := by
  have hexec : prvKiiHttpExecute cbs x = executeClose cbs x := by rw [prvKiiHttpExecute, hst]
  have htrace : (executeClose cbs x).2.trace = x.trace ++ [⟨.close, cbs x.trace .close⟩] := by
    simp only [executeClose, Exchange.ask]
    split <;> rfl
  refine ⟨by rw [(kiiCoreRun_execute cbs hstate).1, hexec, htrace], ?_⟩
  rcases hresult : prvKiiHttpExecute cbs x with ⟨_ | _ | _, z⟩
  · rw [kiiCoreRun_ok hstate hresult]
    exact Or.inl rfl
  · rw [kiiCoreRun_fail hstate hresult]
    exact Or.inl rfl
  · rw [kiiCoreRun_again hstate hresult]
    rw [hexec] at hresult
    simp only [executeClose, Exchange.ask] at hresult
    split at hresult
    · exact absurd (Prod.mk.inj hresult).1 (takeResponse_again _)
    · obtain ⟨-, rfl⟩ := Prod.mk.inj hresult
      exact Or.inr ⟨hstate, hst⟩
    · cases (Prod.mk.inj hresult).1

theorem quiet_of_closing {m : Nat} (hst : (runs cbs k m).core.http.socketState = .close)
    (hstate : (runs cbs k m).core.state = .execute) (n : Nat) :
    (runs cbs k (m + n)).trace.countP Event.asks = (runs cbs k m).trace.countP Event.asks := by
  have hall : ∀ n, (runs cbs k (m + n)).trace.countP Event.asks =
      (runs cbs k m).trace.countP Event.asks ∧ ((runs cbs k (m + n)).core.state = .idle ∨
        (runs cbs k (m + n)).core.state = .execute ∧
          (runs cbs k (m + n)).core.http.socketState = .close) := by
    intro n
    induction n with
    | zero => exact ⟨rfl, Or.inr ⟨hstate, hst⟩⟩
    | succ n ih =>
      obtain ⟨hcount, hidle | ⟨hstate', hst'⟩⟩ := ih
      · rw [← Nat.add_assoc, runs, kiiCoreRun, hidle]
        exact ⟨hcount, Or.inl hidle⟩
      · obtain ⟨htrace, hnext⟩ := step_closing cbs hst' hstate'
        rw [← Nat.add_assoc, runs, htrace, List.countP_append, hcount]
        exact ⟨rfl, hnext⟩
  exact (hall n).1

theorem received_snoc_of_not_read {tr : List Event} {e : Event} (h : e.read = none) :
    received (tr ++ [e]) = received tr := by
  rw [received_eq, reads_snoc_of_not_read h, received_eq]

/-- A step of the engine that receives something is a successful read. -/
theorem Turn.exists_read {z : Exchange w} {c : HttpCode} (h : Turn x (c, z))
    (hne : received z.trace ≠ received x.trace) :
    ∃ n data, z.trace = x.trace ++ [⟨.recv n, ⟨.ok, data⟩⟩] ∧ x.core.http.socketState = .recv ∧
      (c = .again ∨ x.core.bufferSize ≤ x.core.http.receivedSize + data.length) := by
  cases h with
  | start _ _ => exact absurd rfl hne
  | @wait k e _ hcode _ =>
    have hread : e.read = none := by
      obtain ⟨_ | _ | _ | _, code, data⟩ := e <;> cases hcode <;> rfl
    exact absurd (received_snoc_of_not_read hread) hne
  | broken hcode _ => exact absurd (received_snoc_of_not_read (read_of_fail hcode)) hne
  | connected _ _ => exact absurd (received_snoc_of_not_read rfl) hne
  | sent _ _ => exact absurd (received_snoc_of_not_read rfl) hne
  | read hst _ => exact ⟨_, _, rfl, hst, Or.inl rfl⟩
  | overflow hst hge _ => exact ⟨_, _, rfl, hst, Or.inr hge⟩
  | closed _ _ _ => exact absurd (received_snoc_of_not_read rfl) hne

/-- **A step that receives something**, and does not fill the buffer, is followed by another one. -/
theorem exists_read (cbs : Callbacks) (hk : Prepared k) (m : Nat)
    (hne : received (runs cbs k (m + 1)).trace ≠ received (runs cbs k m).trace)
    (hlt : (received (runs cbs k (m + 1)).trace).length < k.bufferSize) :
    ∃ data, data ≠ [] ∧ reads (runs cbs k (m + 1)).trace = reads (runs cbs k m).trace ++ [data] ∧
      (runs cbs k m).core.http.socketState = .recv ∧
      (runs cbs k (m + 1)).core.state = .execute ∧ Phase k (runs cbs k (m + 1)) := by
  have hnext := runs_phase cbs hk (m + 1)
  have hphase := runs_phase cbs hk m
  rw [runs] at hne hlt hnext ⊢
  generalize runs cbs k m = x at *
  have hdata : ∀ {z : Exchange w} {n : Nat} {data : List Byte},
      z.trace = x.trace ++ [⟨.recv n, ⟨.ok, data⟩⟩] →
        reads z.trace = reads x.trace ++ [data] ∧ received z.trace = received x.trace ++ data := by
    intro z n data htrace
    have hreads : reads z.trace = reads x.trace ++ [data] := by rw [htrace, reads_snoc_read rfl]
    refine ⟨hreads, ?_⟩
    rw [received_eq, hreads, List.flatten_append, List.flatten_singleton, ← received_eq]
  rcases hphase with hphase | hidle
  case inr => exact absurd (by rw [kiiCoreRun, hidle]) hne
  rcases kiiCoreRun_cases cbs (hphase.busy hk) with
    hcall | ⟨z, hcall, hturn, hstate⟩ | ⟨code, c, z, hcall, hturn, hc, -⟩
  · exact absurd (by rw [hcall]) hne
  · rw [hcall] at hne hnext ⊢
    obtain ⟨n, data, htrace, hst, -⟩ := hturn.exists_read hne
    obtain ⟨hreads, hreceived⟩ := hdata htrace
    refine ⟨data, ?_, hreads, hst, hstate, hnext.resolve_right (by
      rw [hstate]
      exact State.noConfusion)⟩
    rintro rfl
    exact hne (by rw [hreceived, List.append_nil])
  · -- the only read that ends a run fills the buffer
    rw [hcall] at hne hlt
    obtain ⟨n, data, htrace, hst, hfull⟩ := hturn.exists_read hne
    obtain ⟨hsize, hbuffer, -⟩ := hphase.variables hk (Or.inl hst)
    have hge := hfull.resolve_left hc
    rw [(hdata htrace).2, List.length_append] at hlt
    omega

/-- Where an exchange stands after its last read. -/
theorem Phase.closing_iff (h : Phase k x) {rs : List (List Byte)} {r : List Byte}
    (hreads : reads x.trace = rs ++ [r]) :
    x.core.http.socketState = .close ↔ Completes w k.bufferSize rs r := by
  have hsome : ∀ {tr : List Event}, reads tr = [] → reads tr ≠ rs ++ [r] := by
    intro tr hnil
    rw [hnil]
    exact fun h => absurd h.symm (List.append_ne_nil_of_right_ne_nil _ (List.cons_ne_nil _ _))
  cases h with
  | ready => exact absurd hreads (hsome rfl)
  | start => exact absurd hreads (hsome rfl)
  | connect hnil => exact absurd hreads (hsome hnil)
  | send hnil _ => exact absurd hreads (hsome hnil)
  | recv _ _ _ hpending =>
    rw [hreads] at hpending
    exact iff_of_false SocketState.noConfusion (hpending rs r (List.prefix_refl _))
  | close _ _ hfinished =>
    obtain ⟨rs', r', hsplit, -, hcompletes⟩ := hfinished
    obtain ⟨rfl, hr⟩ := List.append_inj' (hreads.symm.trans hsplit) rfl
    rw [List.singleton_inj.mp hr]
    exact iff_of_true rfl hcompletes

end

/-- **When the declared length is enough**: in a run that receives the last byte of the response with
its next step. -/
theorem closesAt_iff {k : Core w} {cbs : Callbacks} {o : Opening} {body : List Byte} {m : Nat}
    (hk : Prepared k) (ho : o.WellFormed) (hbody : body.length = o.field.number)
    (hsize : (o.head ++ body).length < k.bufferSize)
    (hbefore : received (runs cbs k m).trace ≠ o.head ++ body)
    (hlast : received (runs cbs k (m + 1)).trace = o.head ++ body) :
    ClosesAt cbs k (m + 1) ↔ o.InTime w := by
  obtain ⟨data, hdata, hreads, -, hstate, hphase⟩ := exists_read cbs hk m
    (by rw [hlast]; exact hbefore.symm) (by rw [hlast]; exact hsize)
  rw [received_eq, hreads] at hlast
  rw [← ho.completes_iff k.http.buffer.word_ge hbody hlast hdata, ← hphase.closing_iff hreads]
  exact ⟨ClosesAt.closing, fun hclose => ⟨hclose, quiet_of_closing hclose hstate⟩⟩

theorem closesAt_of_five : ClosesAt (serving [openingFive.head ++ ascii "hello"]) (deviceGet 300) 5 := by
  have hbody : (ascii "hello").length = openingFive.field.number := by decide
  refine (closesAt_iff prepared_deviceGet openingFive_wellFormed hbody (by decide +kernel)
    (by decide +kernel) (by decide +kernel)).mpr ?_
  have hvalue : openingFive.field.value = [32] ++ [] ++ Decimal.text 5 ++ [] := by decide
  have hfirst : ∀ f ∈ openingFive.before, ¬ StartsWith lower f.name := by simp [openingFive]
  exact (openingFive_wellFormed.inTime_iff hfirst hvalue (by simp) (by simp) (by simp) (by simp)
    (by decide)).mpr ⟨by simp, by simp⟩

/-- A response without a body that says so: `recv_cb` is called again. -/
theorem closesAt_fails : Prepared (deviceGet 300) ∧ openingZero.WellFormed ∧
    openingZero.field.number = 0 ∧ openingZero.head.length < (deviceGet 300).bufferSize ∧
    received (runs (serving [openingZero.head]) (deviceGet 300) 4).trace = [] ∧
    received (runs (serving [openingZero.head]) (deviceGet 300) 5).trace = openingZero.head ∧
    ¬ ClosesAt (serving [openingZero.head]) (deviceGet 300) 5 := by
  refine ⟨prepared_deviceGet, openingZero_wellFormed, by decide, by decide +kernel,
    by decide +kernel, by decide +kernel, fun h => ?_⟩
  have hrecv : (runs (serving [openingZero.head]) (deviceGet 300) 5).core.http.socketState = .recv := by
    decide +kernel
  rw [h.closing] at hrecv
  cases hrecv

end KiiThing

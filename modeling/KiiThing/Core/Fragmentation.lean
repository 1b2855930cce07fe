import KiiThing.Core.Declared
import KiiThing.Core.Status

/-!
# Fragmentation

A server `Serves` the bytes of a response when every read hands over the next of them, as many as it
likes. Where the header declares no length, the connection ends behind the last byte; where it does,
nothing is said about what comes behind it, so that the server may keep the connection. Whatever the
pieces are and however often the callbacks ask to be called again, a well-formed response that fits
the buffer is taken as it is (`response_taken`), and one that does not is refused
(`response_refused`).
-/

namespace KiiThing

open Http

/-- A call that a server has to answer. Behind the last byte of a response that declares its length,
there is nothing to read. -/
def Due (declared : Prop) (R : List Byte) (tr : List Event) (c : Call) : Prop :=
  ∀ n, c = .recv n → declared → received tr ≠ R

/-- The callbacks hand over the bytes `R`, in non-empty pieces that are no longer than requested;
none of them fails, and they answer `KII_SOCKETC_AGAIN` at most `N` times in all. An empty read is
the end of a response that does not declare its length. -/
structure Serves (cbs : Callbacks) (declared : Prop) (R : List Byte) (N : Nat) : Prop where
  alive : ∀ tr c, Due declared R tr c → (cbs tr c).code ≠ .fail
  again : ∀ tr c, Due declared R tr c → (cbs tr c).code = .again → agains tr < N
  read : ∀ tr n data, Due declared R tr (.recv n) → 0 < n → received tr <+: R →
    cbs tr (.recv n) = ⟨.ok, data⟩ →
    data.length ≤ n ∧ received tr ++ data <+: R ∧ (data = [] → received tr = R)

/-- The length of the body is declared by one field: its name in any mix of letter case, a blank, a
number of at most ten figures. No other field looks like it. -/
def DeclaresLength (r : Response) : Prop :=
  ∃ before name after,
    r.fields = before ++ (name ++ ascii ": " ++ Decimal.text r.body.length) :: after ∧
    name.map toLower = lower ∧ (∀ l ∈ before ++ after, ¬ StartsWith lower l) ∧
    1 ≤ r.body.length ∧ r.body.length < 10 ^ 10

/-- No field looks like a declaration of the length; the body ends with the connection. -/
def EndsWithConnection (r : Response) : Prop := ∀ l ∈ r.fields, ¬ StartsWith lower l

variable {w : Nat} {cbs : Callbacks} {declared : Prop} {R : List Byte} {N size : Nat}

/-! ## What a server hands over -/

/-- For the engine, a response that declares its length is complete as soon as it is there. -/
def EndsItself (w size : Nat) (declared : Prop) (R : List Byte) : Prop :=
  declared → R.length < size → ∀ rs : List (List Byte), rs.flatten = R → ¬ Pending w size rs

/-- So the calls that the engine makes are due. -/
theorem Timely.due {tr : List Event} {c : Call} (h : Timely w size tr c)
    (hends : EndsItself w size declared R) : Due declared R tr c := by
  intro n hc hdeclared hall
  obtain ⟨hpos, hroom, hpending⟩ := h n hc
  apply hends hdeclared _ (reads tr) hall hpending
  rw [← hall]
  omega

section

variable (hserves : Serves cbs declared R N) (hends : EndsItself w size declared R)
include hserves hends

/-- **Nothing but the response is received.** -/
theorem Serves.received_isPrefix {tr : List Event} (h : History w cbs size tr) : received tr <+: R := by
  induction h with
  | nil => exact List.nil_prefix
  | @snoc tr c h htimely ih =>
    -- only a read that succeeds adds to what was received, and such a read is due
    obtain hread | ⟨data, hread⟩ := Option.eq_none_or_eq_some (Event.read ⟨c, cbs tr c⟩)
    · rw [received_eq, reads_snoc_of_not_read hread]
      exact ih
    · obtain ⟨n, he⟩ := Event.read_eq_some hread
      obtain ⟨rfl, hreply⟩ : c = .recv n ∧ cbs tr c = ⟨.ok, data⟩ := by simpa using he
      rw [received_eq, reads_snoc_read hread, List.flatten_append, List.flatten_singleton]
      exact (hserves.read tr n data (htimely.due hends) (htimely n rfl).1 ih hreply).2.1

/-- **An empty read is the end of the response.** -/
theorem Serves.received_of_empty_read {tr : List Event} (h : History w cbs size tr)
    {rs : List (List Byte)} (hreads : reads tr = rs ++ [[]]) : rs.flatten = R := by
  induction h generalizing rs with
  | nil => simp [reads] at hreads
  | @snoc tr c h htimely ih =>
    obtain hread | ⟨data, hread⟩ := Option.eq_none_or_eq_some (Event.read ⟨c, cbs tr c⟩)
    · rw [reads_snoc_of_not_read hread] at hreads
      exact ih hreads
    · obtain ⟨n, he⟩ := Event.read_eq_some hread
      obtain ⟨rfl, hreply⟩ : c = .recv n ∧ cbs tr c = ⟨.ok, data⟩ := by simpa using he
      rw [reads_snoc_read hread] at hreads
      obtain ⟨hrs, hdata⟩ := List.append_inj' hreads rfl
      obtain rfl : data = [] := by simpa using hdata
      rw [← hrs]
      exact (hserves.read tr n [] (htimely.due hends) (htimely n rfl).1
        (hserves.received_isPrefix hends h) hreply).2.2 rfl

theorem Serves.code_ne_fail {tr : List Event} {e : Event} (h : History w cbs size (tr ++ [e])) :
    e.reply.code ≠ .fail := by
  generalize htr : tr ++ [e] = tr' at h
  cases h with
  | nil => simp at htr
  | snoc h htimely =>
    obtain ⟨rfl, he⟩ := List.append_inj' htr rfl
    obtain rfl : e = _ := by simpa using he
    exact hserves.alive _ _ (htimely.due hends)

theorem Serves.agains_le {tr : List Event} (h : History w cbs size tr) : agains tr ≤ N := by
  induction h with
  | nil => exact Nat.zero_le _
  | @snoc tr c h htimely ih =>
    rw [agains_snoc]
    split
    · next hagain => exact hserves.again _ c (htimely.due hends) hagain
    · exact ih

end

/-- **The server does not keep the engine waiting for ever.** -/
theorem Serves.patient {k : Core w} (hserves : Serves cbs declared R N)
    (hends : EndsItself w k.bufferSize declared R) (hk : Prepared k) : Patient cbs k :=
  ⟨N, fun n => hserves.agains_le hends (runs_history cbs hk n)⟩

/-! ## What the engine makes of it -/

/-- The parser on the header of a response: the length of the body where it is declared, 0 where it
is not. -/
theorem Response.kiiParseContentLength {r : Response} (hr : r.WellFormed) :
    (∀ (_ : DeclaresLength r) t, kiiParseContentLength 64 (r.head ++ t) = r.body.length) ∧
      ∀ (_ : EndsWithConnection r) t, KiiThing.kiiParseContentLength 64 (r.head ++ t) = 0 := by
  constructor
  · rintro ⟨before, name, after, hfields, hname, hothers, hpos, hfig⟩ t
    have hmem : ∀ l, l ∈ before ∨ l ∈ after → l ∈ r.fields := by
      intro l hl
      rw [hfields]
      simp only [List.mem_append, List.mem_cons]
      exact hl.imp_right Or.inr
    let h : DeclaredHead := ⟨r.statusLine, before, name, [32], r.body.length, [], after⟩
    have hh : h.WellFormed := {
      isLine := hr.isLine
      before := fun l hl => ⟨hr.fields_isLine l (hmem l (Or.inl hl)),
        hothers l (List.mem_append_left _ hl)⟩
      after := fun l hl => hr.fields_isLine l (hmem l (Or.inr hl))
      name := hname
      blanks := fun b hb => Or.inl (by simpa [h] using hb)
      trail := by simp [h]
      pos := hpos }
    have hbytes : h.bytes = r.head := by
      have hfield : h.field = name ++ ascii ": " ++ Decimal.text r.body.length := by
        simp [h, DeclaredHead.field, ascii]
      rw [DeclaredHead.bytes, Response.head, hfields, hfield]
    rw [← hbytes, hh.kiiParseContentLength, DeclaredHead.parsed, if_pos (by simp [h])]
    exact readFigures_eq (Nat.ne_of_gt hpos) hfig (Nat.lt_trans hfig (by decide))
  · intro hno t
    have h := kiiParseContentLength_no_field (w := 64) t hr.isLine hr.fields_isLine hno
    rwa [Response.head]

section

variable {r : Response} {k : Core 64} {tr : List Event}

/-- The end that the engine computes for a response which declares its length. -/
theorem responseEnd_of_declared (hd : DeclaresLength r) (hlt : r.head.length < 2 ^ 63) :
    responseEnd 64 r.head r.body.length = r.bytes.length := by
  obtain ⟨-, -, -, -, -, -, hpos, hfig⟩ := hd
  have hlen : r.bytes.length = r.head.length + r.body.length := List.length_append
  rw [responseEnd, if_pos (show 0 < r.body.length from hpos), Nat.mod_eq_of_lt (by omega), hlen]

/-- **A response that declares its length is complete with its last byte.** -/
theorem endsItself_of_response (hr : r.WellFormed) (hsize : size ≤ 2 ^ 63) :
    EndsItself 64 size (DeclaresLength r) r.bytes := by
  intro hd hlt rs hall hpending
  have hlen : r.bytes.length = r.head.length + r.body.length := List.length_append
  have hpos : 0 < r.bytes.length := by
    have := hr.isHead.four_le
    omega
  rcases List.eq_nil_or_concat rs with rfl | ⟨rs', q, hrs⟩
  · rw [← hall] at hpos
    exact Nat.lt_irrefl 0 hpos
  rw [List.concat_eq_append] at hrs
  -- with the last piece the declared end is reached, so nothing is pending behind it
  have hserver : rs.flatten <+: r.head ++ r.body := by
    rw [hall]
    exact List.prefix_refl _
  apply hpending rs' q (by rw [hrs])
  left
  rw [← hrs, scan_of_isHead hr.isHead
    (fun _ _ _ => (Response.kiiParseContentLength hr).1 hd _) hserver,
    if_pos (by rw [hall]; omega), hall, responseEnd_of_declared hd (by omega)]
  exact ⟨hpos, Nat.le_refl _⟩

/-- **Reads that complete a response are the whole response**: it declares its length, or an empty read
comes behind it. -/
theorem flatten_of_completes (hr : r.WellFormed) (hd : DeclaresLength r ∨ EndsWithConnection r)
    {rs : List (List Byte)} {q : List Byte} (hpre : (rs ++ [q]).flatten <+: r.bytes)
    (hempty : q = [] → rs.flatten = r.bytes) (hlt : (rs ++ [q]).flatten.length < 2 ^ 63)
    (hcompletes : Completes 64 size rs q) : (rs ++ [q]).flatten = r.bytes := by
  have hparse := Response.kiiParseContentLength hr
  have hreads : (rs ++ [q]).flatten <+: r.head ++ r.body := hpre
  obtain hreached | rfl := hcompletes
  · rcases hd with hd | hd
    · rw [scan_of_isHead hr.isHead (fun _ _ _ => hparse.1 hd _) hreads] at hreached
      split at hreached
      · next hle =>
        -- the declared end is the end of the response
        apply hpre.eq_of_length_le
        rw [← responseEnd_of_declared hd (Nat.lt_of_le_of_lt hle hlt)]
        exact hreached.2
      · exact absurd hreached.1 (Nat.lt_irrefl 0)
    · rw [scan_of_isHead hr.isHead (fun _ _ _ => hparse.2 hd _) hreads] at hreached
      split at hreached <;> exact absurd hreached.1 (Nat.lt_irrefl 0)
  · rw [List.flatten_append, hempty rfl]
    simp

/-- **The engine stops when it has the whole response**, and not before. -/
theorem received_of_finished (hr : r.WellFormed) (hd : DeclaresLength r ∨ EndsWithConnection r)
    (hserves : Serves cbs (DeclaresLength r) r.bytes N) (h : History 64 cbs k.bufferSize tr)
    (hlt : (received tr).length < k.bufferSize) (hfinished : Finished 64 k.bufferSize (reads tr)) :
    received tr = r.bytes := by
  have hends := endsItself_of_response hr (Nat.le_of_lt k.http.buffer.length_lt)
  have hpre := hserves.received_isPrefix hends h
  have hshort := Nat.lt_trans hlt k.http.buffer.length_lt
  obtain ⟨rs, q, hreads, -, hcompletes⟩ := hfinished
  rw [received_eq, hreads] at hpre hshort ⊢
  refine flatten_of_completes hr hd hpre ?_ hshort hcompletes
  rintro rfl
  exact hserves.received_of_empty_read hends h hreads

/-- The status of a response that has been received. -/
theorem statusCode_of_response (hr : r.WellFormed) {b : Buffer 64} {n : Nat}
    (hb : b.Contains n r.bytes) : statusCode b = some (some r.status) := by
  have hline : r.bytes = http1_1 ++ r.d₁ :: r.d₂ :: r.d₃ ::
      (r.reason ++ CRLF ++ lines r.fields ++ CRLF ++ r.body) := by
    simp [Response.bytes, Response.head, Response.statusLine, http1_1]
  have hfind : b.strstr http1_1 = some 0 := by
    apply hb.strstr_http1_1
    rw [hline]
    exact List.prefix_append ..
  have hdrop : b.bytes.drop http1_1.length = r.d₁ :: r.d₂ :: r.d₃ ::
      (r.reason ++ CRLF ++ lines r.fields ++ CRLF ++ r.body ++
        List.replicate (n - r.bytes.length) 0) := by
    rw [show b.bytes = _ from hb, Memory.pad]
    rw [hline]
    simp
  rw [statusCode, hfind, Option.map_some, Nat.zero_add, hdrop]
  simp only [hr.figure₁, hr.figure₂, hr.figure₃, and_self, if_true]
  rfl

/-- A well-formed response that fits the buffer, handed over in any pieces, is taken: the status code
is that of its status line, `response_body` points to the first byte of the body, and the length is
that of the body. -/
theorem response_taken (hk : Prepared k) (hr : r.WellFormed)
    (hd : DeclaresLength r ∨ EndsWithConnection r) (hserves : Serves cbs (DeclaresLength r) r.bytes N)
    (hlt : r.bytes.length < k.bufferSize) :
    ∃ fuel x, runToIdle cbs fuel k = some (.ok, x) ∧ x.core.state = .idle ∧
      x.core.responseCode = r.status ∧ x.core.responseBody = some r.head.length ∧
      x.core.responseBodyLength = r.body.length ∧
      Memory.slice x.core.http.buffer.bytes r.head.length r.body.length = r.body := by
  have hends := endsItself_of_response hr (Nat.le_of_lt k.http.buffer.length_lt)
  obtain ⟨fuel, ⟨code, x⟩, hrun⟩ := exists_runToIdle_of_patient hk (hserves.patient hends hk)
  obtain ⟨hended, hhistory⟩ := runToIdle_ended hk hrun
  have hpre := hserves.received_isPrefix hends hhistory
  cases hended with
  | @accepted x b code hx =>
    have hall := received_of_finished hr hd hserves hhistory hx.short hx.finished
    have hlen : r.bytes.length = r.head.length + r.body.length := List.length_append
    have hserver : received x.trace <+: r.head ++ r.body := hpre
    obtain ⟨hbody, hlength⟩ := hx.responseBodyLength hr.isHead hserver (by rw [hall]; omega)
    have hcontains := hx.contains
    rw [hall] at hcontains hlength
    have hcode : code = r.status := by
      have := hx.status.symm.trans (statusCode_of_response hr hcontains)
      simpa using this
    refine ⟨fuel, x, hrun, by rw [hx.core], by rw [hx.core]; exact hcode, hbody,
      by rw [hlength]; omega, ?_⟩
    rw [hx.core]
    show Memory.slice b.bytes _ _ = _
    rw [show b.bytes = _ from hcontains, Memory.pad, Memory.slice, Response.bytes,
      List.append_assoc, List.drop_left, List.take_left]
  | socket htrace hfail herror =>
    rw [htrace] at hhistory
    exact absurd hfail (hserves.code_ne_fail hends hhistory)
  | overflow hreads hpending hge herror =>
    -- no more than the response is received, and that is shorter than the buffer
    have hle : (received x.trace).length ≤ r.bytes.length := hpre.length_le
    omega
  | invalid hb hshort hfinished hstatus herror =>
    rw [received_of_finished hr hd hserves hhistory hshort hfinished] at hb
    exact absurd (statusCode_of_response hr hb) (hstatus _)

/-- A response that declares its length and does not fit the buffer is refused, with
`KII_HTTP_ERROR_INSUFFICIENT_BUFFER`. -/
theorem response_refused (hk : Prepared k) (hr : r.WellFormed) (hd : DeclaresLength r)
    (hserves : Serves cbs (DeclaresLength r) r.bytes N) (hge : k.bufferSize ≤ r.bytes.length) :
    ∃ fuel x, runToIdle cbs fuel k = some (.fail, x) ∧ x.core.state = .idle ∧
      x.core.http.httpError = .insufficientBuffer := by
  have hends := endsItself_of_response hr (Nat.le_of_lt k.http.buffer.length_lt)
  obtain ⟨fuel, ⟨code, x⟩, hrun⟩ := exists_runToIdle_of_patient hk (hserves.patient hends hk)
  obtain ⟨hended, hhistory⟩ := runToIdle_ended hk hrun
  have hidle := runToIdle_idle hrun
  have hnot : ∀ {tr}, History 64 cbs k.bufferSize tr → (received tr).length < k.bufferSize →
      ¬ Finished 64 k.bufferSize (reads tr) := by
    intro tr h hlt hfinished
    -- an engine that has finished has the whole response, for which there is no room
    have hall := received_of_finished hr (Or.inl hd) hserves h hlt hfinished
    rw [hall] at hlt
    omega
  cases hended with
  | accepted hx => exact absurd hx.finished (hnot hhistory hx.short)
  | socket htrace hfail herror =>
    rw [htrace] at hhistory
    exact absurd hfail (hserves.code_ne_fail hends hhistory)
  | overflow hreads hpending hge herror => exact ⟨fuel, x, hrun, hidle, herror⟩
  | invalid hb hshort hfinished hstatus herror => exact absurd hfinished (hnot hhistory hshort)

/-- **Fragmentation independence.** What a run makes of a response does not depend on how it is cut
into pieces. -/
theorem response_fragmentation (hk : Prepared k) (hr : r.WellFormed)
    (hserves : Serves cbs (DeclaresLength r) r.bytes N) :
    (DeclaresLength r ∨ EndsWithConnection r → r.bytes.length < k.bufferSize →
      ∃ fuel x, runToIdle cbs fuel k = some (.ok, x) ∧ x.core.state = .idle ∧
        x.core.responseCode = r.status ∧ x.core.responseBody = some r.head.length ∧
        x.core.responseBodyLength = r.body.length ∧
        Memory.slice x.core.http.buffer.bytes r.head.length r.body.length = r.body) ∧
    (DeclaresLength r → k.bufferSize ≤ r.bytes.length →
      ∃ fuel x, runToIdle cbs fuel k = some (.fail, x) ∧ x.core.state = .idle ∧
        x.core.http.httpError = .insufficientBuffer) :=
  ⟨fun hd hlt => response_taken hk hr hd hserves hlt,
    fun hd hge => response_refused hk hr hd hserves hge⟩

end

/-- A response whose body begins with a NUL. -/
def fiveBytesResponse : Response where
  d₁ := 50
  d₂ := 48
  d₃ := 49
  reason := ascii " Created"
  fields := [ascii "Date: today", ascii "CONTENT-length: 5"]
  body := 0 :: ascii "abcd"

/-- A server that hands over one byte at a time, and has to be asked three times before it connects.
-/
def byteByByte (R : List Byte) : Callbacks
  | tr, .connect _ _ => if agains tr < 3 then ⟨.again, []⟩ else ⟨.ok, []⟩
  | tr, .recv _ => ⟨.ok, (R.drop (received tr).length).take 1⟩
  | _, _ => ⟨.ok, []⟩

theorem serves_byteByByte (R : List Byte) : Serves (byteByByte R) False R 3 where
  alive := by
    rintro tr (_ | _ | _ | _) _
    · rw [byteByByte]
      split <;> exact nofun
    all_goals exact nofun
  again := by
    rintro tr (_ | _ | _ | _) _ h
    · rw [byteByByte] at h
      split at h
      · assumption
      · cases h
    all_goals cases h
  read := by
    rintro tr n data _ hn ⟨t, rfl⟩ hreply
    obtain rfl : ((received tr ++ t).drop (received tr).length).take 1 = data := by
      simpa [byteByByte] using hreply
    rw [List.drop_left]
    refine ⟨?_, ?_, ?_⟩
    · rw [List.length_take]
      omega
    · rw [List.prefix_append_right_inj]
      exact List.take_prefix ..
    · intro hnil
      cases t with
      | nil => simp
      | cons c t => cases hnil

theorem due_of_not_declared {R : List Byte} (tr : List Event) (c : Call) : Due False R tr c :=
  fun _ _ h => h.elim

theorem endsItself_of_not_declared {R : List Byte} : EndsItself w size False R :=
  fun h => h.elim

theorem patient_byteByByte {k : Core w} (hk : Prepared k) (R : List Byte) :
    Patient (byteByByte R) k :=
  (serves_byteByByte R).patient endsItself_of_not_declared hk

/-- The same server, where it keeps the connection: behind the last byte a read waits for ever. -/
def keepAlive (R : List Byte) : Callbacks
  | tr, .recv n => if received tr = R then ⟨.again, []⟩ else byteByByte R tr (.recv n)
  | tr, c => byteByByte R tr c

/-- A call that is due gets the same answer as without keeping the connection. -/
theorem keepAlive_eq {R : List Byte} {tr : List Event} {c : Call} (h : Due True R tr c) :
    keepAlive R tr c = byteByByte R tr c := by
  cases c with
  | recv n => exact if_neg (h n rfl trivial)
  | _ => rfl

theorem serves_keepAlive {R : List Byte} (hdeclared : declared) :
    Serves (keepAlive R) declared R 3 := by
  have hsame : ∀ {tr c}, Due declared R tr c → keepAlive R tr c = byteByByte R tr c := by
    intro tr c h
    exact keepAlive_eq fun n hc _ => h n hc hdeclared
  have hserves := serves_byteByByte R
  refine ⟨fun tr c h => ?_, fun tr c h => ?_, fun tr n data h => ?_⟩
  · rw [hsame h]
    exact hserves.alive tr c (due_of_not_declared tr c)
  · rw [hsame h]
    exact hserves.again tr c (due_of_not_declared tr c)
  · rw [hsame h]
    exact hserves.read tr n data (due_of_not_declared tr _)

theorem fiveBytesResponse_wellFormed : fiveBytesResponse.WellFormed :=
  ⟨rfl, rfl, rfl, by decide, by decide⟩

theorem declaresLength_fiveBytesResponse : DeclaresLength fiveBytesResponse :=
  ⟨[ascii "Date: today"], ascii "CONTENT-length", [], by decide, by decide, by decide, by decide,
    by decide⟩

/-- A response with a body that does not fit into 300 bytes. -/
def longResponse : Response :=
  { fiveBytesResponse with
    fields := [ascii "Content-Length: 400"]
    body := List.replicate 400 120 }

theorem longResponse_wellFormed : longResponse.WellFormed := ⟨rfl, rfl, rfl, by decide, by decide⟩

theorem declaresLength_longResponse : DeclaresLength longResponse :=
  ⟨[], ascii "Content-Length", [], by decide +kernel, by decide, by decide, by decide +kernel,
    by decide +kernel⟩

/-- On a connection that is kept, a response is taken where it fits, and refused where it does not. -/
theorem response_fragmentation_of_get :
    (∃ fuel x, runToIdle (keepAlive fiveBytesResponse.bytes) fuel (deviceGet 300) = some (.ok, x) ∧
      x.core.responseCode = 201 ∧ x.core.responseBodyLength = 5) ∧
    ∃ fuel x, runToIdle (keepAlive longResponse.bytes) fuel (deviceGet 300) = some (.fail, x) ∧
      x.core.http.httpError = .insufficientBuffer := by
  constructor
  · obtain ⟨fuel, x, hrun, -, hcode, -, hlength, -⟩ :=
      (response_fragmentation prepared_deviceGet fiveBytesResponse_wellFormed
        (serves_keepAlive declaresLength_fiveBytesResponse)).1
        (Or.inl declaresLength_fiveBytesResponse) (by decide +kernel)
    exact ⟨fuel, x, hrun, hcode, hlength⟩
  · obtain ⟨fuel, x, hrun, -, herror⟩ :=
      (response_fragmentation prepared_deviceGet longResponse_wellFormed
        (serves_keepAlive declaresLength_longResponse)).2
        declaresLength_longResponse (by decide +kernel)
    exact ⟨fuel, x, hrun, herror⟩

end KiiThing

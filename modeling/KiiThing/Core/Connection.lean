import KiiThing.Core.Outcome

/-!
# Connections

An exchange opens one connection. It is closed on the way to the state IDLE when the response was
received as a whole, and it stays open when the response fills the buffer: that failure is returned
from the middle of receiving, and the next request line resets the socket state and with it the last
trace of the connection. `closedOnce_iff` is about any sequence of exchanges.
-/

namespace KiiThing

open Http

variable {w : Nat}

/-! ## Opening and closing -/

/-- `connect_cb` has opened a connection. -/
def Event.opens : Event → Bool
  | ⟨.connect _ _, ⟨.ok, _⟩⟩ => true
  | _ => false

/-- `close_cb` has closed a connection. -/
def Event.closes : Event → Bool
  | ⟨.close, ⟨.ok, _⟩⟩ => true
  | _ => false

/-- The connections that were opened. -/
def opened (tr : List Event) : Nat := tr.countP Event.opens

/-- The connections that were closed. -/
def closed (tr : List Event) : Nat := tr.countP Event.closes

theorem opened_append (tr tr' : List Event) : opened (tr ++ tr') = opened tr + opened tr' :=
  List.countP_append

theorem closed_append (tr tr' : List Event) : closed (tr ++ tr') = closed tr + closed tr' :=
  List.countP_append

theorem opened_snoc (tr : List Event) (e : Event) :
    opened (tr ++ [e]) = opened tr + if e.opens then 1 else 0 := by
  rw [opened_append, opened, opened, List.countP_singleton]

theorem closed_snoc (tr : List Event) (e : Event) :
    closed (tr ++ [e]) = closed tr + if e.closes then 1 else 0 := by
  rw [closed_append, closed, closed, List.countP_singleton]

/-- An answer that is not a success opens and closes nothing. -/
theorem opens_closes_of_not_ok {e : Event} (h : e.reply.code ≠ .ok) :
    e.opens = false ∧ e.closes = false := by
  obtain ⟨_ | _ | _ | _, _ | _ | _, data⟩ := e
  all_goals first | exact ⟨rfl, rfl⟩ | exact absurd rfl h

/-- The socket states with an open connection. -/
def SocketState.connected : SocketState → Bool
  | .idle | .connect => false
  | .send | .recv | .close => true

/-- The connection of an exchange under way: none was closed so far, and one was opened when the
socket state says so. -/
def Linked (st : SocketState) (tr : List Event) : Prop :=
  opened tr = (if st.connected then 1 else 0) ∧ closed tr = 0

theorem Linked.snoc {st st' : SocketState} {tr : List Event} {e : Event} (h : Linked st tr)
    (hopens : (if st'.connected then 1 else 0) =
      (if st.connected then 1 else 0) + if e.opens then 1 else 0)
    (hcloses : e.closes = false) : Linked st' (tr ++ [e]) := by
  obtain ⟨hopened, hclosed⟩ := h
  constructor
  · rw [opened_snoc, hopened, hopens]
  · rw [closed_snoc, hclosed, hcloses]
    rfl

/-- **One step of the engine** that is followed by another one. -/
theorem Turn.linked {x z : Exchange w} (h : Linked x.core.http.socketState x.trace)
    (hturn : Turn x (.again, z)) : Linked z.core.http.socketState z.trace := by
  cases hturn with
  | start hst hst' =>
    rw [hst] at h
    rw [hst']
    exact h
  | wait _ hcode hst' =>
    obtain ⟨hopens, hcloses⟩ := opens_closes_of_not_ok (by rw [hcode]; exact SocketCode.noConfusion)
    apply h.snoc _ hcloses
    rw [hst', hopens]
    rfl
  | connected hst hst' =>
    apply h.snoc _ rfl
    rw [hst, hst']
    rfl
  | sent hst hst' =>
    apply h.snoc _ rfl
    rw [hst]
    rcases hst' with hst' | hst' <;> rw [hst'] <;> rfl
  | read hst hst' =>
    apply h.snoc _ rfl
    rw [hst]
    rcases hst' with hst' | hst' <;> rw [hst'] <;> rfl
  | closed _ hc _ => exact absurd rfl hc

/-! ## Sequences of exchanges -/

/-- An exchange from its prepared request to its end, in which no callback has failed. -/
structure Exchanged (w : Nat) where
  core : Core w
  cbs : Callbacks
  fuel : Nat
  code : ErrorCode
  final : Exchange w
  prepared : Prepared core
  ran : runToIdle cbs fuel core = some (code, final)
  calm : ∀ e ∈ final.trace, e.reply.code ≠ .fail

namespace Exchanged

variable (e : Exchanged w)

/-- `close_cb` has returned `KII_SOCKETC_OK` exactly once. -/
def ClosedOnce : Prop := closed e.final.trace = 1

/-- Fewer than `buffer_size` bytes were received. -/
def Fits : Prop := (received e.final.trace).length < e.core.bufferSize

/-- **The connection of one exchange.** -/
theorem connection : opened e.final.trace = 1 ∧
    ((e.Fits ∧ closed e.final.trace = 1) ∨ (¬ e.Fits ∧ closed e.final.trace = 0)) := by
  obtain ⟨y, z, c, hphase, hlinked, hturn, hc, -, htrace, -⟩ := runToIdle_last e.prepared e.ran
    Linked ⟨rfl, rfl⟩ fun _ _ h hturn => hturn.linked h
  have hlt := hphase.received_lt e.prepared
  have hcalm := e.calm
  unfold Fits
  rw [← htrace] at hcalm ⊢
  obtain ⟨hopened, hclosed⟩ := hlinked
  cases hturn with
  | broken hfail _ => exact absurd hfail (hcalm _ (by simp))
  | @overflow _ n data hst hge _ =>
    obtain ⟨hreceived, hsize, -⟩ := hphase.variables e.prepared (Or.inl hst)
    rw [hreceived, hsize] at hge
    rw [hst] at hopened
    rw [opened_snoc, closed_snoc, hopened, hclosed]
    refine ⟨rfl, Or.inr ⟨?_, rfl⟩⟩
    rw [received_eq, reads_snoc_read rfl, List.flatten_append, List.length_append]
    simpa [received_eq] using hge
  | closed hst _ _ =>
    rw [hst] at hopened
    rw [opened_snoc, closed_snoc, hopened, hclosed]
    refine ⟨rfl, Or.inl ⟨?_, rfl⟩⟩
    rw [received_eq, reads_snoc_of_not_read rfl]
    exact hlt
  | _ => exact absurd rfl hc

theorem closedOnce_iff_fits : e.ClosedOnce ↔ e.Fits := by
  rw [ClosedOnce]
  rcases e.connection.2 with ⟨hfits, hclosed⟩ | ⟨hfits, hclosed⟩
  · simp [hfits, hclosed]
  · simp [hfits, hclosed]

end Exchanged

/-- All that is called in a sequence of exchanges. -/
def calls (es : List (Exchanged w)) : List Event := es.flatMap (·.final.trace)

/-- At no time is more than one connection open. -/
def OneAtATime (tr : List Event) : Prop := ∀ tr', tr' <+: tr → opened tr' ≤ closed tr' + 1

theorem oneAtATime_calls {es : List (Exchanged w)} (h : ∀ e ∈ es, e.ClosedOnce) :
    OneAtATime (calls es) := by
  induction es with
  | nil =>
    intro tr htr
    rw [List.prefix_nil.mp htr]
    exact Nat.zero_le _
  | cons e es ih =>
    intro tr htr
    obtain ⟨hopened, -⟩ := e.connection
    rw [calls, List.flatMap_cons] at htr
    rcases List.prefix_or_prefix_of_prefix htr (List.prefix_append ..) with hp | ⟨tr', rfl⟩
    · -- the time is within this exchange
      have hle : opened tr ≤ opened e.final.trace := hp.sublist.countP_le
      omega
    · have htail := ih (fun e he => h e (List.mem_cons_of_mem _ he)) tr'
        ((List.prefix_append_right_inj _).mp htr)
      have hclosed : closed e.final.trace = 1 := h e List.mem_cons_self
      rw [opened_append, closed_append]
      omega

/-- **When every connection is closed**: in a sequence of exchanges in which no callback fails, every
connection is closed exactly once, and never more than one is open, if and only if every response
leaves room in the buffer. -/
theorem closedOnce_iff (es : List (Exchanged w)) :
    ((∀ e ∈ es, e.ClosedOnce) ∧ OneAtATime (calls es)) ↔ ∀ e ∈ es, e.Fits := by
  have hiff : (∀ e ∈ es, e.ClosedOnce) ↔ ∀ e ∈ es, e.Fits :=
    forall₂_congr fun e _ => e.closedOnce_iff_fits
  constructor
  · intro h
    exact hiff.mp h.1
  · intro h
    exact ⟨hiff.mpr h, oneAtATime_calls (hiff.mpr h)⟩

/-- A run in which no callback has failed is an exchange. -/
theorem exists_exchanged {k : Core w} {cbs : Callbacks} {fuel : Nat} {code : ErrorCode}
    {D : List Byte} (hk : Prepared k) (hrun : (runToIdle cbs fuel k).map (fun r =>
      (r.1, received r.2.trace, r.2.trace.all (·.reply.code != .fail))) = some (code, D, true)) :
    ∃ e : Exchanged w, e.core = k ∧ runToIdle cbs fuel k = some (code, e.final) ∧
      received e.final.trace = D := by
  obtain ⟨x, hx, hfields⟩ := exists_runToIdle_of_map
    (fun x => (received x.trace, x.trace.all (·.reply.code != .fail))) hrun
  obtain ⟨hreceived, hcodes⟩ := Prod.mk.inj hfields
  refine ⟨⟨k, cbs, fuel, code, x, hk, hx, ?_⟩, rfl, hx, hreceived⟩
  intro e he
  simpa using List.all_eq_true.mp hcodes e he

/-- An answer that leaves room in a buffer of 300 bytes, in two reads. -/
def shortAnswer : List (List Byte) := [ascii "HTTP/1.1 200 OK\r\n", ascii "\r\nbody"]

/-- Its connection is closed. -/
theorem closedOnce_iff_of_get : ∃ e : Exchanged 64, e.core = deviceGet 300 ∧
    received e.final.trace = shortAnswer.flatten ∧ (∀ e' ∈ [e], e'.ClosedOnce) ∧
      OneAtATime (calls [e]) := by
  obtain ⟨e, hcore, -, hreceived⟩ := exists_exchanged prepared_deviceGet
    (show (runToIdle (serving shortAnswer) 20 (deviceGet 300)).map _ =
      some (.ok, shortAnswer.flatten, true) by decide +kernel)
  refine ⟨e, hcore, hreceived, (closedOnce_iff [e]).mpr ?_⟩
  intro e' he'
  rw [List.mem_singleton.mp he', Exchanged.Fits, hcore, hreceived]
  decide +kernel

/-- The device after a response that filled its buffer. -/
def deviceOverrun : Core 64 :=
  ((runToIdle (serving tooLong) 20 (deviceGet 300 lt_word_300)).map fun r => r.2.core).getD
    (deviceGet 300 lt_word_300)

/-- An exchange that ends with a full buffer. -/
theorem exists_overrun {k : Core 64} (hk : Prepared k) (hsize : k.bufferSize = 300)
    (hrun : (runToIdle (serving tooLong) 20 k).map (fun r =>
      (r.1, received r.2.trace, r.2.trace.all (·.reply.code != .fail))) =
        some (.fail, tooLong.flatten, true)) :
    ∃ e : Exchanged 64, e.core = k ∧ runToIdle (serving tooLong) 20 k = some (.fail, e.final) ∧
      ¬ e.Fits := by
  obtain ⟨e, hcore, hx, hreceived⟩ := exists_exchanged hk hrun
  refine ⟨e, hcore, hx, ?_⟩
  rw [Exchanged.Fits, hreceived, hcore, hsize]
  decide +kernel

/-- A response that fills the buffer leaves its connection open, and the next request opens another
one. -/
theorem closedOnce_fails : ∃ e₁ e₂ : Exchanged 64, e₁.core = deviceGet 300 ∧
    e₂.core = (kiiCoreGetObject e₁.final.core ⟨.thing, .lit "th", .lit "b"⟩ (.lit "o")).core ∧
    ¬ e₁.ClosedOnce ∧ ¬ OneAtATime (calls [e₁, e₂]) := by
  obtain ⟨e₁, hcore₁, hrun₁, hfull₁⟩ := exists_overrun prepared_deviceGet
    (by decide +kernel) (by decide +kernel)
  have hfinal : e₁.final.core = deviceOverrun := by
    rw [deviceOverrun, hrun₁]
    rfl
  obtain ⟨e₂, hcore₂, -, hfull₂⟩ := exists_overrun
    (k := (kiiCoreGetObject deviceOverrun ⟨.thing, .lit "th", .lit "b"⟩ (.lit "o")).core)
    (by decide +kernel) (by decide +kernel) (by decide +kernel)
  refine ⟨e₁, e₂, hcore₁, by rw [hcore₂, hfinal], ?_, ?_⟩
  · rw [e₁.closedOnce_iff_fits]
    exact hfull₁
  · intro h
    have hle := h _ (List.prefix_refl _)
    obtain ⟨hopened₁, ⟨hfits, -⟩ | ⟨-, hclosed₁⟩⟩ := e₁.connection
    · exact hfull₁ hfits
    · obtain ⟨hopened₂, ⟨hfits, -⟩ | ⟨-, hclosed₂⟩⟩ := e₂.connection
      · exact hfull₂ hfits
      · simp only [calls, List.flatMap_cons, List.flatMap_nil, List.append_nil, opened_append,
          closed_append, hopened₁, hopened₂, hclosed₁, hclosed₂] at hle
        omega

end KiiThing

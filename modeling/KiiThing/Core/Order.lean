import KiiThing.Core.Connection
import KiiThing.Core.Waiting

/-!
# The order of the calls

Which callback the engine calls depends on whether its connection is up: `connect_cb` when it is not,
and one of the others when it is. No callback is called behind one that has failed, and a run that
returns `KIIE_OK` leaves its connection closed (`runToIdle_inOrder`).
-/

namespace KiiThing

variable {w : Nat}

/-- Whether the connection is up behind a call. A connection that could not be closed is gone as
well: the engine does not come back to it. -/
def Event.link (up : Bool) (e : Event) : Bool :=
  match e.call, e.reply.code with
  | .connect _ _, .ok => true
  | .close, .ok => false
  | .close, .fail => false
  | _, _ => up

/-- Whether the connection is up behind the calls. -/
def isUp (tr : List Event) : Bool := tr.foldl Event.link false

theorem isUp_snoc (tr : List Event) (e : Event) : isUp (tr ++ [e]) = e.link (isUp tr) := by
  rw [isUp, List.foldl_append]
  rfl

def Call.isConnect : Call → Bool
  | .connect _ _ => true
  | _ => false

/-- No callback has failed. -/
def NoneFailed (tr : List Event) : Prop := ∀ e ∈ tr, e.reply.code ≠ .fail

/-- Every call was one for a connection that is as it was. -/
inductive InOrder : List Event → Prop
  | nil : InOrder []
  | call {tr : List Event} {e : Event} (h : InOrder tr) (hnone : NoneFailed tr)
      (hcall : e.call.isConnect = !isUp tr) : InOrder (tr ++ [e])

theorem InOrder.of_prefix {tr tr' : List Event} {e : Event} (h : InOrder tr')
    (hpre : tr ++ [e] <+: tr') :
    InOrder tr ∧ NoneFailed tr ∧ e.call.isConnect = !isUp tr := by
  induction h with
  | nil => exact absurd (List.prefix_nil.mp hpre) (by simp)
  | @call tr' e' h hnone hcall ih =>
    rcases List.prefix_concat_iff.mp hpre with heq | hpre
    · obtain ⟨rfl, he⟩ := List.append_inj' heq rfl
      obtain rfl := List.singleton_inj.mp he
      exact ⟨h, hnone, hcall⟩
    · exact ih hpre

/-- The calls of an exchange under way. -/
structure Underway (x : Exchange w) : Prop where
  inOrder : InOrder x.trace
  noneFailed : NoneFailed x.trace
  up : isUp x.trace = x.core.http.socketState.connected

section

variable {x : Exchange w} {cbs : Callbacks} {k : Core w} {tr : List Event} {data : List Byte}

theorem noneFailed_snoc {e : Event} (h : NoneFailed tr) (he : e.reply.code ≠ .fail) :
    NoneFailed (tr ++ [e]) := by
  intro e' he'
  rcases List.mem_append.mp he' with hmem | hmem
  · exact h e' hmem
  · rw [List.mem_singleton.mp hmem]
    exact he

/-- The call that comes next is for a connection as the engine has it. -/
theorem isConnect_nextCall (k : Core w) :
    k.nextCall.isConnect = !k.http.socketState.connected := by
  rw [Core.nextCall]
  cases k.http.socketState <;> rfl

/-- An answer that settles nothing leaves the connection alone. -/
theorem link_again (up : Bool) (c : Call) : Event.link up ⟨c, ⟨.again, data⟩⟩ = up := by
  cases c <;> rfl

/-- A call that has succeeded. -/
theorem settle_link (h : (k.settle data).1 = .again) :
    (k.settle data).2.http.socketState.connected =
      Event.link k.http.socketState.connected ⟨k.nextCall, ⟨.ok, data⟩⟩ := by
  rw [Core.settle] at h ⊢
  rw [Core.nextCall]
  cases hst : k.http.socketState with
  | idle => rfl
  | connect => rfl
  | send =>
    rw [hst] at h
    dsimp only
    split <;> rfl
  | recv =>
    rw [hst] at h
    rcases takeRead_cases k data with ⟨hfail, -, -⟩ | ⟨-, hclose | hrecv⟩
    · exact absurd (h.symm.trans hfail) HttpCode.noConfusion
    · show (takeRead k data).2.http.socketState.connected = _
      rw [hclose]
      rfl
    · show (takeRead k data).2.http.socketState.connected = _
      rw [hrecv, hst]
      rfl
  | close =>
    rw [hst] at h
    exact absurd h (takeResponse_again k)

theorem settle_state (h : (k.settle data).1 = .again) : (k.settle data).2.state = k.state := by
  rw [Core.settle] at h ⊢
  cases hst : k.http.socketState with
  | recv =>
    show (takeRead k data).2.state = k.state
    unfold takeRead
    dsimp only
    split <;> rfl
  | close =>
    rw [hst] at h
    exact absurd h (takeResponse_again k)
  | _ => rfl

/-- Only closing ends well. -/
theorem settle_ok (h : (k.settle data).1 = .ok) : k.http.socketState = .close := by
  rw [Core.settle] at h
  cases hst : k.http.socketState with
  | close => rfl
  | recv =>
    rw [hst] at h
    rcases takeRead_cases k data with ⟨hfail, -, -⟩ | ⟨hagain, -⟩
    · exact absurd (h.symm.trans hfail) HttpCode.noConfusion
    · exact absurd (h.symm.trans hagain) HttpCode.noConfusion
  | _ =>
    rw [hst] at h
    exact absurd h HttpCode.noConfusion

/-- How an exchange has ended. -/
structure Over (code : ErrorCode) (tr : List Event) : Prop where
  inOrder : InOrder tr
  noneFailed : code = .ok → NoneFailed tr
  down : code = .ok → isUp tr = false

/-- **One step.** -/
theorem kiiCoreRun_inOrder (h : Underway x) :
    ((kiiCoreRun cbs x).2.busy = true ∧ Underway (kiiCoreRun cbs x).2) ∨
      ((kiiCoreRun cbs x).2.busy = false ∧
        Over (kiiCoreRun cbs x).1 (kiiCoreRun cbs x).2.trace) := by
  cases hstate : x.core.state with
  | idle =>
    right
    rw [kiiCoreRun, hstate]
    exact ⟨by simp [Exchange.busy, hstate], h.inOrder, ErrorCode.noConfusion, ErrorCode.noConfusion⟩
  | other _ =>
    left
    rw [kiiCoreRun, hstate]
    exact ⟨by simp [Exchange.busy, hstate], h⟩
  | ready =>
    left
    rw [kiiCoreRun, hstate]
    exact ⟨rfl, h.inOrder, h.noneFailed, h.up⟩
  | execute =>
    by_cases hidle : x.core.http.socketState = .idle
    case pos =>
      left
      have hexec : prvKiiHttpExecute cbs x = (.again, ⟨(executeIdle x).2.core, x.trace⟩) := by
        rw [prvKiiHttpExecute, hidle]
        rfl
      rw [kiiCoreRun_again hstate hexec]
      refine ⟨by rw [Exchange.busy]; simp [executeIdle, hstate], h.inOrder, h.noneFailed, ?_⟩
      rw [h.up, hidle]
      rfl
    case neg =>
      have hexec := execute_eq_answered cbs hidle x.trace
      obtain ⟨⟨code, data⟩, hreply⟩ : ∃ reply, cbs x.trace x.core.nextCall = reply := ⟨_, rfl⟩
      have hcall : x.core.nextCall.isConnect = !isUp x.trace := by
        rw [isConnect_nextCall, h.up]
      have horder : InOrder (x.trace ++ [⟨x.core.nextCall, ⟨code, data⟩⟩]) :=
        .call h.inOrder h.noneFailed hcall
      rw [hreply, answered] at hexec
      cases code with
      | again =>
        left
        rw [kiiCoreRun_again hstate hexec]
        refine ⟨by simp [Exchange.busy, hstate], horder,
          noneFailed_snoc h.noneFailed SocketCode.noConfusion, ?_⟩
        rw [isUp_snoc, link_again, h.up, Core.inCall_socketState]
      | fail =>
        right
        rw [kiiCoreRun_fail hstate hexec]
        exact ⟨rfl, horder, ErrorCode.noConfusion, ErrorCode.noConfusion⟩
      | ok =>
        have hnone : NoneFailed (x.trace ++ [⟨x.core.nextCall, ⟨.ok, data⟩⟩]) :=
          noneFailed_snoc h.noneFailed SocketCode.noConfusion
        obtain ⟨⟨c, k'⟩, hsettle⟩ : ∃ res, x.core.inCall.settle data = res := ⟨_, rfl⟩
        rw [hsettle] at hexec
        cases c with
        | again =>
          left
          rw [kiiCoreRun_again hstate hexec]
          have hstate' : k'.state = .execute := by
            have hsame := settle_state (congrArg Prod.fst hsettle)
            rw [hsettle, Core.inCall_state, hstate] at hsame
            exact hsame
          have hlink := settle_link (congrArg Prod.fst hsettle)
          rw [hsettle, Core.inCall_socketState, Core.inCall_nextCall] at hlink
          refine ⟨by simp [Exchange.busy, hstate'], horder, hnone, ?_⟩
          rw [isUp_snoc, h.up]
          exact hlink.symm
        | ok =>
          right
          rw [kiiCoreRun_ok hstate hexec]
          refine ⟨rfl, horder, fun _ => hnone, fun _ => ?_⟩
          have hclose := settle_ok (congrArg Prod.fst hsettle)
          rw [Core.inCall_socketState] at hclose
          rw [isUp_snoc, Core.nextCall, hclose]
          rfl
        | fail =>
          right
          rw [kiiCoreRun_fail hstate hexec]
          exact ⟨rfl, horder, ErrorCode.noConfusion, ErrorCode.noConfusion⟩

end

/-- **A whole run** calls the callbacks in order. -/
theorem runToIdle_inOrder {k : Core w} {cbs : Callbacks} {fuel : Nat} {code : ErrorCode}
    {x : Exchange w} (hk : Prepared k) (h : runToIdle cbs fuel k = some (code, x)) :
    Over code x.trace := by
  obtain ⟨x₀, hunderway, hlast, hidle⟩ := Loop.doWhile_of_invariant Underway (by
    intro x hx hbusy
    rcases (kiiCoreRun_inOrder hx : _ ∨ _) with ⟨-, hnext⟩ | ⟨hidle, -⟩
    · exact hnext
    · rw [hidle] at hbusy
      cases hbusy)
    ⟨.nil, fun _ he => absurd he List.not_mem_nil, by rw [hk.idle]; rfl⟩ h
  rcases (kiiCoreRun_inOrder hunderway : _ ∨ _) with ⟨hbusy, -⟩ | ⟨-, hover⟩
  · rw [hlast, hidle] at hbusy
    cases hbusy
  · rw [hlast] at hover
    exact hover

end KiiThing

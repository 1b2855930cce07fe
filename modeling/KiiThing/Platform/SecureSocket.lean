import KiiThing.Core.Order
import KiiThing.Lib.Ownership

/-!
# The secure socket of the Linux port

`s_connect_cb`, `s_send_cb`, `s_recv_cb` and `s_close_cb` over OpenSSL, as programs that call the
system. `Driven` puts them under the engine: each call that it makes is answered by a run of the
callback. What `Core.Order` says of the calls is what these callbacks rely on, which check nothing:
as long as `malloc` finds memory, no NULL pointer is read, nothing is used that was given back, and an
exchange that ends with `KIIE_OK` has given back whatever it took (`secure_exchanges`).
-/

namespace KiiThing

namespace SecureSocket

/-! ## The system -/

/-- What the callbacks hold: memory, a socket, an `SSL_CTX` or an `SSL`. -/
inductive Handle where
  | memory (address : Nat)
  | socket (sock : Nat)
  | ctx (sslCtx : Nat)
  | ssl (ssl : Nat)
  deriving DecidableEq

/-- What kind of thing it is. -/
inductive Handle.Kind where
  | memory | socket | ctx | ssl
  deriving DecidableEq

def Handle.kind : Handle → Kind
  | memory _ => .memory
  | socket _ => .socket
  | ctx _ => .ctx
  | ssl _ => .ssl

/-- What `SSL_get_error` returns, as far as it is told apart. -/
inductive SslError where
  | zeroReturn
  | wantRead
  | wantWrite
  | syscall
  | other
  deriving DecidableEq

inductive OsCall where
  | malloc
  | free (address : Nat)
  /-- Reads and writes through a pointer to memory of `malloc`. -/
  | access (address : Nat)
  /-- A read or a write through a NULL pointer. -/
  | nullAccess
  | gethostbyname (host : CString)
  | socket
  | connect (sock port : Nat)
  | close (sock : Nat)
  | sslLibraryInit
  | sslCtxNew
  | sslCtxFree (sslCtx : Nat)
  | sslNew (sslCtx : Nat)
  | sslFree (ssl : Nat)
  | sslSetFd (ssl sock : Nat)
  | sslConnect (ssl : Nat)
  | sslGetError (ssl : Nat) (ret : Int)
  | sslWrite (ssl : Nat) (data : List Byte)
  | sslRead (ssl n : Nat)
  | sslShutdown (ssl : Nat)

/-- What can be missing is an `Option`. `sslRead` returns what it has stored beside its result. -/
def OsCall.Reply : OsCall → Type
  | malloc => Option Nat
  | gethostbyname _ => Bool
  | socket => Option Nat
  | connect _ _ => Bool
  | sslCtxNew => Option Nat
  | sslNew _ => Option Nat
  | sslSetFd _ _ => Bool
  | sslConnect _ => Int
  | sslGetError _ _ => SslError
  | sslWrite _ _ => Int
  | sslRead _ _ => Int × List Byte
  | sslShutdown _ => Int
  | _ => Unit

abbrev OsProg (α : Type) := Prog OsCall OsCall.Reply α

def OsCall.uses : OsCall → List Handle
  | access address => [.memory address]
  | connect sock _ => [.socket sock]
  | sslNew sslCtx => [.ctx sslCtx]
  | sslSetFd ssl sock => [.ssl ssl, .socket sock]
  | sslConnect ssl => [.ssl ssl]
  | sslGetError ssl _ => [.ssl ssl]
  | sslWrite ssl _ => [.ssl ssl]
  | sslRead ssl _ => [.ssl ssl]
  | sslShutdown ssl => [.ssl ssl]
  | _ => []

def OsCall.frees : OsCall → Option Handle
  | free address => some (.memory address)
  | close sock => some (.socket sock)
  | sslCtxFree sslCtx => some (.ctx sslCtx)
  | sslFree ssl => some (.ssl ssl)
  | _ => none

def OsCall.makes (c : OsCall) (r : c.Reply) : List Handle :=
  match c, r with
  | malloc, address => (Option.map Handle.memory address).toList
  | socket, sock => (Option.map Handle.socket sock).toList
  | sslCtxNew, sslCtx => (Option.map Handle.ctx sslCtx).toList
  | sslNew _, ssl => (Option.map Handle.ssl ssl).toList
  | _, _ => []

/-- `malloc` finds memory: the callbacks do not look. -/
def OsCall.promised (c : OsCall) (r : c.Reply) : Prop :=
  match c, r with
  | malloc, address => Option.isSome address = true
  | _, _ => True

/-- The operating system and OpenSSL. -/
def os : Contract OsCall OsCall.Reply (List Handle) :=
  Ownership.contract
    ⟨OsCall.uses, OsCall.frees, OsCall.makes, (· = .nullAccess), OsCall.promised⟩

/-! ## The callbacks -/

/-- `ssl_context_t`, with its address. -/
structure SslContext where
  address : Nat
  ssl : Nat
  sslCtx : Nat

/-- `kii_socket_context_t`, with `app_context` as these callbacks set it. -/
structure SocketContext where
  appContext : Option SslContext
  socket : Nat

/-- A failure of `s_connect_cb`: only the context is given back. -/
def refuse (address : Nat) (c : SocketContext) : OsProg (Reply × SocketContext) :=
  .ask (.free address) fun _ => .done (⟨.fail, []⟩, c)

/-- `s_connect_cb`, with the connection made: OpenSSL is put over it. -/
def secure (address sock : Nat) (c : SocketContext) : OsProg (Reply × SocketContext) :=
  .ask .sslLibraryInit fun _ =>
  .ask .sslCtxNew fun (sslCtx : Option Nat) =>
  match sslCtx with
  | none => refuse address c
  | some sslCtx =>
    .ask (.sslNew sslCtx) fun (ssl : Option Nat) =>
    match ssl with
    | none => refuse address c
    | some ssl =>
      .ask (.sslSetFd ssl sock) fun (ret : Bool) =>
      if ret = false then refuse address c
      else
        .ask (.sslConnect ssl) fun (ret : Int) =>
        if ret ≠ 1 then .ask (.sslGetError ssl ret) fun _ => refuse address c
        else .ask (.access address) fun _ =>
          .done (⟨.ok, []⟩, ⟨some ⟨address, ssl, sslCtx⟩, sock⟩)

/-- `s_connect_cb`, with the memory for its context set to 0. -/
def establish (host : CString) (port address : Nat) (c : SocketContext) :
    OsProg (Reply × SocketContext) :=
  .ask (.gethostbyname host) fun (found : Bool) =>
  if found = false then refuse address c
  else
    .ask .socket fun (sock : Option Nat) =>
    match sock with
    | none => refuse address c
    | some sock =>
      .ask (.connect sock port) fun (connected : Bool) =>
      if connected = false then refuse address c
      else secure address sock c

/-- `s_connect_cb`. What `malloc` returns is not looked at before `memset`. -/
def sConnectCb (host : CString) (port : Nat) (c : SocketContext) : OsProg (Reply × SocketContext) :=
  .ask .malloc fun (address : Option Nat) =>
  match address with
  | none => .ask .nullAccess fun _ => .done (⟨.fail, []⟩, c)
  | some address => .ask (.access address) fun _ => establish host port address c

/-- The other callbacks read `app_context` first. -/
def withContext (c : SocketContext) (f : SslContext → OsProg (Reply × SocketContext)) :
    OsProg (Reply × SocketContext) :=
  match c.appContext with
  | none => .ask .nullAccess fun _ => .done (⟨.fail, []⟩, c)
  | some ctx => .ask (.access ctx.address) fun _ => f ctx

/-- `s_send_cb`. -/
def sSendCb (data : List Byte) (c : SocketContext) : OsProg (Reply × SocketContext) :=
  withContext c fun ctx =>
    .ask (.sslWrite ctx.ssl data) fun (ret : Int) =>
    if 0 < ret then .done (⟨.ok, []⟩, c) else .done (⟨.fail, []⟩, c)

/-- `s_recv_cb`. -/
def sRecvCb (n : Nat) (c : SocketContext) : OsProg (Reply × SocketContext) :=
  withContext c fun ctx =>
    .ask (.sslRead ctx.ssl n) fun (r : Int × List Byte) =>
    if 0 < r.1 then .done (⟨.ok, r.2⟩, c)
    else if r.1 = 0 then
      .ask (.sslGetError ctx.ssl 0) fun (error : SslError) =>
      match error with
      | .zeroReturn => .done (⟨.ok, []⟩, c)
      | .wantRead | .wantWrite => .done (⟨.again, []⟩, c)
      | _ => .done (⟨.fail, []⟩, c)
    else .done (⟨.fail, []⟩, c)

/-- The end of `s_close_cb`, with what has come of `SSL_shutdown`. -/
def tearDown (ctx : SslContext) (ret : Int) (c : SocketContext) : OsProg (Reply × SocketContext) :=
  .ask (.close c.socket) fun _ =>
  .ask (.sslFree ctx.ssl) fun _ =>
  .ask (.sslCtxFree ctx.sslCtx) fun _ =>
  if ret ≠ 1 then .done (⟨.fail, []⟩, c)
  else .ask (.free ctx.address) fun _ => .done (⟨.ok, []⟩, { c with appContext := none })

/-- `s_close_cb`. -/
def sCloseCb (c : SocketContext) : OsProg (Reply × SocketContext) :=
  withContext c fun ctx =>
    .ask (.sslShutdown ctx.ssl) fun (ret : Int) =>
    if ret ≠ 1 then
      .ask (.sslGetError ctx.ssl ret) fun (error : SslError) =>
      tearDown ctx (if error = .syscall then 1 else ret) c
    else tearDown ctx ret c

/-- The callback that a call goes to. -/
def callback (call : Call) (c : SocketContext) : OsProg (Reply × SocketContext) :=
  match call with
  | .connect host port => sConnectCb host port c
  | .send data => sSendCb data c
  | .recv n => sRecvCb n c
  | .close => sCloseCb c

/-! ## One callback -/

/-- What an open connection holds. -/
def owned (ctx : SslContext) (sock : Nat) : List Handle :=
  [.ssl ctx.ssl, .ctx ctx.sslCtx, .socket sock, .memory ctx.address]

/-- At most one of each kind. -/
def OneOfEach (live : List Handle) : Prop := (live.map Handle.kind).Nodup

theorem OneOfEach.erase {live : List Handle} (h : OneOfEach live) (handle : Handle) :
    OneOfEach (live.erase handle) :=
  List.Nodup.sublist (List.erase_sublist.map Handle.kind) h

theorem oneOfEach_owned (ctx : SslContext) (sock : Nat) : OneOfEach (owned ctx sock) := by
  simp [OneOfEach, owned, Handle.kind]

/-- What a call of `s_connect_cb` leaves: a connection, or nothing but what had to be given up. -/
def Connected (c : SocketContext) (r : Reply × SocketContext) (live : List Handle) : Prop :=
  (r.1.code = .ok ∧ ∃ ctx sock, r.2 = ⟨some ctx, sock⟩ ∧ live = owned ctx sock) ∨
    (r.1.code = .fail ∧ r.2 = c ∧ OneOfEach live)

section

variable {c : SocketContext} {ctx : SslContext} {live : List Handle}

theorem meets_ask {α : Type} {call : OsCall} {k : call.Reply → OsProg α}
    {Q : α → List Handle → Prop} (hfault : call ≠ .nullAccess) (huses : call.uses ⊆ live)
    (hfrees : ∀ h ∈ call.frees, h ∈ live)
    (h : ∀ r, call.promised r →
      (k r).Meets os (call.makes r ++ Ownership.release live call.frees) Q) :
    Prog.Meets os (.ask call k) live Q := ⟨⟨hfault, huses, hfrees⟩, fun r hr => h r hr.1⟩

/-- A call that gives nothing back. -/
theorem meets_make {α : Type} {call : OsCall} {k : call.Reply → OsProg α}
    {Q : α → List Handle → Prop} (hfault : call ≠ .nullAccess) (huses : call.uses ⊆ live)
    (hfrees : call.frees = none)
    (h : ∀ r, call.promised r → (k r).Meets os (call.makes r ++ live) Q) :
    Prog.Meets os (.ask call k) live Q := by
  apply meets_ask hfault huses (by simp [hfrees])
  intro r hr
  rw [hfrees]
  exact h r hr

/-- A call that brings nothing either. -/
theorem meets_use {α : Type} {call : OsCall} {k : call.Reply → OsProg α}
    {Q : α → List Handle → Prop} (hfault : call ≠ .nullAccess) (huses : call.uses ⊆ live)
    (hfrees : call.frees = none) (hmakes : ∀ r, call.makes r = [])
    (h : ∀ r, (k r).Meets os live Q) : Prog.Meets os (.ask call k) live Q := by
  apply meets_make hfault huses hfrees
  intro r _
  rw [hmakes]
  exact h r

/-- A call that gives a resource back. -/
theorem meets_free {α : Type} {call : OsCall} {k : call.Reply → OsProg α} {handle : Handle}
    {Q : α → List Handle → Prop} (hfrees : call.frees = some handle) (hmem : handle ∈ live)
    (h : ∀ r, (k r).Meets os (live.erase handle) Q) : Prog.Meets os (.ask call k) live Q := by
  cases call with
  | free _ | close _ | sslCtxFree _ | sslFree _ =>
    obtain rfl := Option.some.inj hfrees
    apply meets_ask OsCall.noConfusion (List.nil_subset _)
    · intro h hh
      obtain rfl := Option.some.inj hh
      exact hmem
    · exact fun r _ => h r
  | _ => cases hfrees

theorem meets_refuse {address : Nat} (hmem : .memory address ∈ live) (hone : OneOfEach live) :
    (refuse address c).Meets os live (Connected c) := by
  apply meets_free rfl hmem
  intro _
  exact .inr ⟨rfl, rfl, hone.erase _⟩

theorem meets_secure (address sock : Nat) (c : SocketContext) :
    (secure address sock c).Meets os [.socket sock, .memory address] (Connected c) := by
  apply meets_use OsCall.noConfusion (List.nil_subset _) rfl fun _ => rfl
  intro _
  apply meets_make OsCall.noConfusion (List.nil_subset _) rfl
  intro (sslCtx : Option Nat) _
  cases sslCtx with
  | none =>
    show Prog.Meets os (refuse address c) [.socket sock, .memory address] _
    exact meets_refuse (by simp) (by simp [OneOfEach, Handle.kind])
  | some sslCtx =>
    show Prog.Meets os _ [.ctx sslCtx, .socket sock, .memory address] _
    apply meets_make OsCall.noConfusion (by simp [OsCall.uses]) rfl
    intro (ssl : Option Nat) _
    cases ssl with
    | none =>
      show Prog.Meets os (refuse address c) [.ctx sslCtx, .socket sock, .memory address] _
      exact meets_refuse (by simp) (by simp [OneOfEach, Handle.kind])
    | some ssl =>
      show Prog.Meets os _ (owned ⟨address, ssl, sslCtx⟩ sock) _
      apply meets_use OsCall.noConfusion (by simp [OsCall.uses, owned]) rfl fun _ => rfl
      intro (ret : Bool)
      split
      · exact meets_refuse (by simp [owned]) (oneOfEach_owned _ _)
      apply meets_use OsCall.noConfusion (by simp [OsCall.uses, owned]) rfl fun _ => rfl
      intro (ret : Int)
      split
      · apply meets_use OsCall.noConfusion (by simp [OsCall.uses, owned]) rfl fun _ => rfl
        intro _
        exact meets_refuse (by simp [owned]) (oneOfEach_owned _ _)
      · apply meets_use OsCall.noConfusion (by simp [OsCall.uses, owned]) rfl fun _ => rfl
        intro _
        exact .inl ⟨rfl, _, _, rfl, rfl⟩

theorem meets_establish (host : CString) (port address : Nat) (c : SocketContext) :
    (establish host port address c).Meets os [.memory address] (Connected c) := by
  apply meets_use OsCall.noConfusion (List.nil_subset _) rfl fun _ => rfl
  intro (found : Bool)
  split
  · exact meets_refuse List.mem_cons_self (by simp [OneOfEach])
  apply meets_make OsCall.noConfusion (List.nil_subset _) rfl
  intro (sock : Option Nat) _
  cases sock with
  | none =>
    show Prog.Meets os (refuse address c) [.memory address] _
    exact meets_refuse List.mem_cons_self (by simp [OneOfEach])
  | some sock =>
    show Prog.Meets os _ [.socket sock, .memory address] _
    apply meets_use OsCall.noConfusion (by simp [OsCall.uses]) rfl fun _ => rfl
    intro (connected : Bool)
    split
    · exact meets_refuse (by simp) (by simp [OneOfEach, Handle.kind])
    · exact meets_secure address sock c

/-- **`s_connect_cb`** does not look at what is there. -/
theorem meets_connect (host : CString) (port : Nat) (c : SocketContext) :
    (sConnectCb host port c).Meets os [] (Connected c) := by
  apply meets_make OsCall.noConfusion (List.nil_subset _) rfl
  intro (address : Option Nat) hfound
  cases address with
  | none => cases hfound
  | some address =>
    show Prog.Meets os _ [.memory address] _
    apply meets_use OsCall.noConfusion (by simp [OsCall.uses]) rfl fun _ => rfl
    exact fun _ => meets_establish host port address c

/-- A callback in between leaves everything as it is. -/
def Kept (c : SocketContext) (ctx : SslContext) (r : Reply × SocketContext) (live : List Handle) :
    Prop := r.2 = c ∧ live = owned ctx c.socket

theorem meets_withContext {f : SslContext → OsProg (Reply × SocketContext)}
    {Q : Reply × SocketContext → List Handle → Prop} (hc : c.appContext = some ctx)
    (h : (f ctx).Meets os (owned ctx c.socket) Q) :
    (withContext c f).Meets os (owned ctx c.socket) Q := by
  rw [withContext, hc]
  apply meets_use OsCall.noConfusion (by simp [OsCall.uses, owned]) rfl fun _ => rfl
  exact fun _ => h

/-- **`s_send_cb`.** -/
theorem meets_send (hc : c.appContext = some ctx) (data : List Byte) :
    (sSendCb data c).Meets os (owned ctx c.socket) (Kept c ctx) := by
  apply meets_withContext hc
  apply meets_use OsCall.noConfusion (by simp [OsCall.uses, owned]) rfl fun _ => rfl
  intro (ret : Int)
  split <;> exact ⟨rfl, rfl⟩

/-- **`s_recv_cb`.** -/
theorem meets_recv (hc : c.appContext = some ctx) (n : Nat) :
    (sRecvCb n c).Meets os (owned ctx c.socket) (Kept c ctx) := by
  apply meets_withContext hc
  apply meets_use OsCall.noConfusion (by simp [OsCall.uses, owned]) rfl fun _ => rfl
  intro (r : Int × List Byte)
  split
  · exact ⟨rfl, rfl⟩
  split
  · apply meets_use OsCall.noConfusion (by simp [OsCall.uses, owned]) rfl fun _ => rfl
    intro (error : SslError)
    cases error <;> exact ⟨rfl, rfl⟩
  · exact ⟨rfl, rfl⟩

/-- What a call of `s_close_cb` leaves: nothing, or the memory of a context without connection. -/
def Closed (r : Reply × SocketContext) (live : List Handle) : Prop :=
  (r.1.code = .ok ∧ live = []) ∨ (r.1.code = .fail ∧ OneOfEach live)

theorem meets_tearDown (ctx : SslContext) (ret : Int) (c : SocketContext) :
    (tearDown ctx ret c).Meets os (owned ctx c.socket) Closed := by
  apply meets_free rfl (by simp [owned])
  intro _
  apply meets_free rfl (by simp [owned])
  intro _
  apply meets_free rfl (by simp [owned])
  intro _
  have hleft : (((owned ctx c.socket).erase (.socket c.socket)).erase (.ssl ctx.ssl)).erase
      (.ctx ctx.sslCtx) = [.memory ctx.address] := by simp [owned]
  rw [hleft]
  split
  · exact .inr ⟨rfl, by simp [OneOfEach]⟩
  · apply meets_free rfl List.mem_cons_self
    intro _
    exact .inl ⟨rfl, by simp⟩

/-- **`s_close_cb`.** -/
theorem meets_close (hc : c.appContext = some ctx) :
    (sCloseCb c).Meets os (owned ctx c.socket) Closed := by
  apply meets_withContext hc
  apply meets_use OsCall.noConfusion (by simp [OsCall.uses, owned]) rfl fun _ => rfl
  intro (ret : Int)
  split
  · apply meets_use OsCall.noConfusion (by simp [OsCall.uses, owned]) rfl fun _ => rfl
    intro (error : SslError)
    exact meets_tearDown ctx _ c
  · exact meets_tearDown ctx _ c

end

/-! ## The calls of the engine -/

/-- The socket context, and what there is in the system. -/
structure Secured where
  context : SocketContext
  live : List Handle

/-- The calls were answered by the callbacks, one after the other. -/
inductive Driven (s₀ : Secured) : List Event → Secured → Prop
  | nil : Driven s₀ [] s₀
  | call {tr : List Event} {s : Secured} {c : Call} {r : Reply} {context : SocketContext}
      {live : List Handle} (h : Driven s₀ tr s)
      (hrun : (callback c s.context).Runs os s.live (r, context) live) :
      Driven s₀ (tr ++ [⟨c, r⟩]) ⟨context, live⟩

/-- Behind calls of which none has failed: what there was, and the connection when it is up. -/
def Balanced (base : List Handle) (up : Bool) (s : Secured) : Prop :=
  if up then ∃ ctx, s.context.appContext = some ctx ∧ s.live = owned ctx s.context.socket ++ base
  else s.live = base

/-- What a call leaves of what there was. -/
def Leaves (base : List Handle) (up : Bool) (c : Call) (r : Reply × SocketContext)
    (live : List Handle) : Prop :=
  (r.1.code ≠ .fail → Balanced base (Event.link up ⟨c, r.1⟩) ⟨r.2, live⟩) ∧
    ∃ left, live = left ++ base ∧ OneOfEach left

/-- **A call that is in order** uses nothing but what is there. -/
theorem meets_callback {base : List Handle} {up : Bool} {s : Secured} {c : Call}
    (h : Balanced base up s) (hcall : c.isConnect = !up) :
    (callback c s.context).Meets os s.live (Leaves base up c) := by
  obtain ⟨context, live⟩ := s
  cases up with
  | false =>
    cases c with
    | connect host port =>
      obtain rfl : live = base := h
      apply (Ownership.frame (meets_connect host port context) live).mono
      rintro ⟨⟨code, data⟩, context'⟩ _ ⟨mine, rfl, ⟨hok, ctx, sock, hc, rfl⟩ | ⟨hfail, -, hone⟩⟩
      · obtain rfl : code = .ok := hok
        obtain rfl : context' = ⟨some ctx, sock⟩ := hc
        exact ⟨fun _ => ⟨ctx, rfl, rfl⟩, _, rfl, oneOfEach_owned ctx sock⟩
      · exact ⟨fun hne => absurd hfail hne, mine, rfl, hone⟩
    | _ => cases hcall
  | true =>
    obtain ⟨ctx, hc, hlive⟩ : ∃ ctx, context.appContext = some ctx ∧
      live = owned ctx context.socket ++ base := h
    subst hlive
    -- A call in between leaves the connection as it is.
    have hkept : ∀ {c : Call} {r : Reply × SocketContext} {mine : List Handle},
        c.isConnect = false → c ≠ .close → Kept context ctx r mine →
        Leaves base true c r (mine ++ base) := by
      rintro c ⟨r, context'⟩ mine hconnect hclose ⟨hcontext, rfl⟩
      obtain rfl : context' = context := hcontext
      refine ⟨fun _ => ?_, _, rfl, oneOfEach_owned ctx _⟩
      have hlink : Event.link true ⟨c, r⟩ = true := by
        cases c with
        | connect _ _ => cases hconnect
        | close => exact absurd rfl hclose
        | _ => rfl
      rw [hlink]
      exact ⟨ctx, hc, rfl⟩
    cases c with
    | connect host port => cases hcall
    | send data =>
      apply (Ownership.frame (meets_send hc data) base).mono
      rintro r _ ⟨mine, rfl, hr⟩
      exact hkept rfl Call.noConfusion hr
    | recv n =>
      apply (Ownership.frame (meets_recv hc n) base).mono
      rintro r _ ⟨mine, rfl, hr⟩
      exact hkept rfl Call.noConfusion hr
    | close =>
      apply (Ownership.frame (meets_close hc) base).mono
      rintro ⟨⟨code, data⟩, context'⟩ _ ⟨mine, rfl, ⟨hok, rfl⟩ | ⟨hfail, hone⟩⟩
      · obtain rfl : code = .ok := hok
        exact ⟨fun _ => rfl, _, rfl, List.nodup_nil⟩
      · exact ⟨fun hne => absurd hfail hne, mine, rfl, hone⟩

theorem driven_nil {s₀ s : Secured} (h : Driven s₀ [] s) : s = s₀ := by
  generalize htr : ([] : List Event) = tr at h
  cases h with
  | nil => rfl
  | call _ _ => exact absurd htr (by simp)

theorem driven_snoc {s₀ s : Secured} {tr : List Event} {e : Event} (h : Driven s₀ (tr ++ [e]) s) :
    ∃ s₁, Driven s₀ tr s₁ ∧
      (callback e.call s₁.context).Runs os s₁.live (e.reply, s.context) s.live := by
  generalize htr : tr ++ [e] = tr' at h
  cases h with
  | nil => exact absurd htr (by simp)
  | call h hrun =>
    obtain ⟨rfl, he⟩ := List.append_inj' htr rfl
    obtain rfl := List.singleton_inj.mp he
    exact ⟨_, h, hrun⟩

/-- **Calls that are in order.** -/
theorem driven_inOrder {s₀ s : Secured} {tr : List Event} (horder : InOrder tr)
    (h : Driven s₀ tr s) :
    (NoneFailed tr → Balanced s₀.live (isUp tr) s) ∧
      ∃ left, s.live = left ++ s₀.live ∧ OneOfEach left := by
  induction horder generalizing s with
  | nil =>
    obtain rfl := driven_nil h
    exact ⟨fun _ => rfl, [], rfl, List.nodup_nil⟩
  | @call tr e horder hnone hcall ih =>
    obtain ⟨s₁, hdriven, hrun⟩ := driven_snoc h
    have hmeets := meets_callback ((ih hdriven).1 hnone) hcall
    obtain ⟨hbalanced, hleft⟩ := hmeets.of_runs hrun
    refine ⟨fun hnone' => ?_, hleft⟩
    rw [isUp_snoc]
    exact hbalanced (hnone' e (by simp))

theorem driven_append {s₀ s : Secured} {tr tr' : List Event} (h : Driven s₀ (tr ++ tr') s) :
    ∃ s₁, Driven s₀ tr s₁ ∧ Driven s₁ tr' s := by
  induction tr' using List.reverseRecOn generalizing s with
  | nil =>
    rw [List.append_nil] at h
    exact ⟨s, h, .nil⟩
  | append_singleton tr' e ih =>
    rw [← List.append_assoc] at h
    obtain ⟨s₂, hdriven, hrun⟩ := driven_snoc h
    obtain ⟨s₁, h₁, h₂⟩ := ih hdriven
    exact ⟨s₁, h₁, h₂.call hrun⟩

/-- A call that is made next, where it is in order. -/
theorem meets_next {s₀ s : Secured} {tr tr' : List Event} {e : Event} (horder : InOrder tr')
    (hpre : tr ++ [e] <+: tr') (h : Driven s₀ tr s) :
    (callback e.call s.context).Meets os s.live fun _ _ => True := by
  obtain ⟨horder', hnone, hcall⟩ := horder.of_prefix hpre
  exact (meets_callback ((driven_inOrder horder' h).1 hnone) hcall).mono fun _ _ _ => trivial

end SecureSocket

open SecureSocket

/-! ## Sequences of exchanges -/

/-- An exchange from its prepared request to its end, however it ends. -/
structure Conducted (w : Nat) where
  core : Core w
  cbs : Callbacks
  fuel : Nat
  code : ErrorCode
  final : Exchange w
  prepared : Prepared core
  ran : runToIdle cbs fuel core = some (code, final)

namespace Conducted

variable {w : Nat}

/-- The exchange has not ended with `KIIE_OK`. -/
def failed (e : Conducted w) : Bool := e.code != .ok

/-- The calls of exchanges that follow each other. -/
def calls (es : List (Conducted w)) : List Event := es.flatMap (·.final.trace)

/-- What an exchange leaves in the system. -/
theorem driven_left (e : Conducted w) {s₀ s : Secured} (h : Driven s₀ e.final.trace s) :
    ∃ left, s.live = left ++ s₀.live ∧
      ∀ kind, (left.map Handle.kind).count kind ≤ if e.failed then 1 else 0 := by
  have hover := runToIdle_inOrder e.prepared e.ran
  obtain ⟨hbalanced, hleft⟩ := driven_inOrder hover.inOrder h
  by_cases hok : e.code = .ok
  · have hlive : s.live = s₀.live := by
      have hdown := hbalanced (hover.noneFailed hok)
      rw [hover.down hok] at hdown
      exact hdown
    exact ⟨[], hlive, fun _ => Nat.zero_le _⟩
  · have hfailed : e.failed = true := bne_iff_ne.mpr hok
    obtain ⟨left, hlive, hone⟩ := hleft
    rw [hfailed]
    exact ⟨left, hlive, List.nodup_iff_count_le_one.mp hone⟩

/-- **Under the engine**, and as long as `malloc` finds memory, the callbacks of the secure socket use
nothing that is not there, at any point of any sequence of exchanges. An exchange that ends with
`KIIE_OK` gives back all it took; one that fails leaves at most one context, one socket, one `SSL_CTX`
and one `SSL` behind. -/
theorem secure_exchanges (es : List (Conducted w)) (s₀ : Secured) :
    (∀ tr e s, tr ++ [e] <+: calls es → Driven s₀ tr s →
      (callback e.call s.context).Meets os s.live fun _ _ => True) ∧
    ∀ s, Driven s₀ (calls es) s →
      ∃ left, s.live = left ++ s₀.live ∧
        ∀ kind, (left.map Handle.kind).count kind ≤ es.countP failed := by
  induction es generalizing s₀ with
  | nil =>
    refine ⟨fun tr e s hpre _ => absurd (List.prefix_nil.mp hpre) (by simp), fun s h => ?_⟩
    obtain rfl := driven_nil h
    exact ⟨[], rfl, fun _ => Nat.zero_le _⟩
  | cons e es ih =>
    have hcalls : calls (e :: es) = e.final.trace ++ calls es := List.flatMap_cons
    rw [hcalls]
    refine ⟨fun tr ev s hpre h => ?_, fun s h => ?_⟩
    · have horder := (runToIdle_inOrder e.prepared e.ran).inOrder
      rcases List.prefix_or_prefix_of_prefix hpre (List.prefix_append _ _) with hfirst | hlater
      · exact meets_next horder hfirst h
      rcases List.prefix_concat_iff.mp hlater with heq | ⟨tr', rfl⟩
      · exact meets_next horder (heq ▸ List.prefix_refl _) h
      · -- The first exchange is over.
        rw [List.append_assoc, List.prefix_append_right_inj] at hpre
        obtain ⟨s₁, -, h₁⟩ := driven_append h
        exact (ih s₁).1 tr' ev s hpre h₁
    · obtain ⟨s₁, h₁, h₂⟩ := driven_append h
      obtain ⟨left₁, hlive₁, hcount₁⟩ := e.driven_left h₁
      obtain ⟨left₂, hlive₂, hcount₂⟩ := (ih s₁).2 s h₂
      refine ⟨left₂ ++ left₁, by rw [hlive₂, hlive₁, List.append_assoc], fun kind => ?_⟩
      rw [List.map_append, List.count_append, List.countP_cons]
      exact Nat.add_le_add (hcount₂ kind) (hcount₁ kind)

end Conducted

/-! ## An example -/

namespace SecureSocket

def Handle.number : Handle → Nat
  | memory n | socket n | ctx n | ssl n => n

/-- A number that no handle has. -/
def fresh (live : List Handle) : Nat := (live.map Handle.number).foldr max 0 + 1

theorem number_lt_fresh {live : List Handle} {h : Handle} (hmem : h ∈ live) :
    h.number < fresh live := by
  induction live with
  | nil => cases hmem
  | cons h' live ih =>
    have hfresh : fresh (h' :: live) = max h'.number (fresh live - 1) + 1 := rfl
    rcases List.mem_cons.mp hmem with rfl | hmem
    · rw [hfresh]
      exact Nat.lt_succ_of_le (Nat.le_max_left _ _)
    · have hlt := ih hmem
      rw [hfresh]
      omega

/-- A system that has everything, and a server that sends `data`. -/
def friendly (data : List Byte) (live : List Handle) : (c : OsCall) → c.Reply
  | .malloc => some (fresh live)
  | .gethostbyname _ => true
  | .socket => some (fresh live)
  | .connect _ _ => true
  | .sslCtxNew => some (fresh live)
  | .sslNew _ => some (fresh live)
  | .sslSetFd _ _ => true
  | .sslConnect _ => (1 : Int)
  | .sslGetError _ _ => SslError.other
  | .sslWrite _ data => (data.length : Int)
  | .sslRead _ n => (((data.take n).length : Int), data.take n)
  | .sslShutdown _ => (1 : Int)
  | .free _ | .access _ | .nullAccess | .close _ => ()
  | .sslLibraryInit | .sslCtxFree _ | .sslFree _ => ()

theorem answers_friendly (data : List Byte) (live : List Handle) (c : OsCall) :
    os.answers live c (friendly data live c) := by
  have hfresh : ∀ h : Handle, h.number = fresh live → h ∉ live := fun h hnumber hmem =>
    Nat.lt_irrefl _ (hnumber ▸ number_lt_fresh hmem)
  have hpromised : c.promised (friendly data live c) := by
    cases c with
    | malloc => rfl
    | _ => trivial
  refine ⟨hpromised, ?_⟩
  intro h hh
  cases c with
  | malloc | socket | sslCtxNew | sslNew _ =>
    obtain rfl := List.mem_singleton.mp hh
    exact hfresh _ rfl
  | _ => cases hh

/-- The callbacks on a system. -/
def callbacks (env : List Handle → (c : OsCall) → c.Reply) (s₀ : Secured) : Callbacks :=
  fun tr c => (serve (tr.foldl (fun s e => (serve s e.call).2) s₀) c).1
where
  serve (s : Secured) (c : Call) : Reply × Secured :=
    let r := (callback c s.context).result os env s.live
    (r.1.1, ⟨r.1.2, r.2⟩)

theorem exists_driven {env : List Handle → (c : OsCall) → c.Reply} {s₀ : Secured} {w size : Nat}
    {tr : List Event} (henv : ∀ live c, os.answers live c (env live c))
    (h : History w (callbacks env s₀) size tr) :
    Driven s₀ tr (tr.foldl (fun s e => (callbacks.serve env s e.call).2) s₀) := by
  induction h with
  | nil => exact .nil
  | snoc h _ ih =>
    rw [List.foldl_append]
    exact ih.call (Prog.runs_result henv _ _)

/-- No connection, and nothing taken. -/
def idle : Secured := ⟨⟨none, 0⟩, []⟩

theorem secure_exchanges_of_get : ∃ (e : Conducted 64) (s : Secured),
    e.code = .ok ∧ Driven idle (Conducted.calls [e]) s ∧ s.live = [] := by
  obtain ⟨cbs, hcbs⟩ : ∃ cbs, cbs = callbacks (friendly fiveBytesResponse.bytes) idle := ⟨_, rfl⟩
  have hcode : (runToIdle cbs 12 (deviceGet 300)).map Prod.fst = some .ok := by
    rw [hcbs]
    decide +kernel
  obtain ⟨⟨code, x⟩, hran, hok⟩ := Option.map_eq_some_iff.mp hcode
  obtain rfl : code = .ok := hok
  have hdriven := exists_driven (answers_friendly fiveBytesResponse.bytes)
    (hcbs ▸ (runToIdle_ended prepared_deviceGet hran).2)
  obtain ⟨e, he⟩ : ∃ e : Conducted 64,
      e = ⟨deviceGet 300, cbs, 12, .ok, x, prepared_deviceGet, hran⟩ := ⟨_, rfl⟩
  have hcalls : Conducted.calls [e] = x.trace := by
    rw [he]
    exact List.append_nil _
  rw [← hcalls] at hdriven
  obtain ⟨left, hlive, hcount⟩ := (Conducted.secure_exchanges [e] idle).2 _ hdriven
  have hnone : left = [] := by
    rw [he] at hcount
    apply List.eq_nil_iff_forall_not_mem.mpr
    intro h hmem
    have hpos := List.count_pos_iff.mpr (List.mem_map_of_mem (f := Handle.kind) hmem)
    exact absurd (hcount h.kind) (Nat.not_le.mpr hpos)
  refine ⟨e, _, by rw [he], hdriven, ?_⟩
  rw [hlive, hnone]
  rfl

end SecureSocket

end KiiThing

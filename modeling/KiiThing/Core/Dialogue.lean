import KiiThing.Core.Reception
import KiiThing.Core.History

/-!
# The SDK and a server

A server reads the request off the bytes that were sent to it, and answers. `Hosts` says that the
callbacks lead to such a server: they may keep the application waiting, and they hand the answer over
in pieces of any size. Then an exchange ends with the answer to just the request that was prepared
(`exchange_served`), and a sequence of requests gets its answers in order, each one for its own
request, whatever the requests before have left in the object (`dialogue_served`).
-/

namespace KiiThing

open Http

/-! ## What a response says -/

/-- The engine reads the status and the body of a response off its bytes. -/
theorem verdict_bytes {r : Response} (hr : r.WellFormed) :
    verdict r.bytes = .ok ⟨r.status, some r.body⟩ := by
  have hline : r.bytes = http1_1 ++ r.d₁ :: r.d₂ :: r.d₃ ::
      (r.reason ++ CRLF ++ lines r.fields ++ CRLF ++ r.body) := by
    simp [Response.bytes, Response.head, Response.statusLine, http1_1]
  have hnul : ∀ c ∈ http1_1, c ≠ 0 := by decide
  have hfind : Search.find http1_1 (r.bytes.takeWhile (· ≠ 0)) = some 0 := by
    rw [Search.find_eq_zero_iff, hline, List.takeWhile_append_of_pos (by simpa using hnul)]
    exact List.prefix_append ..
  have hstatus : statusOf r.bytes = some r.status := by
    rw [statusOf, hfind, Option.bind_some, Nat.zero_add, hline, List.drop_left, figures]
    simp only [hr.figure₁, hr.figure₂, hr.figure₃, and_self, if_true]
    rfl
  have hbody : bodyOf r.bytes = some r.body := by
    have hfour := Nat.sub_add_cancel hr.isHead.four_le
    have hlen : r.head.length ≤ r.bytes.length := by
      rw [Response.bytes, List.length_append]
      exact Nat.le_add_right ..
    have hend := hr.isHead.find_prefix (List.prefix_refl r.bytes)
    rw [bodyOf, hend, if_pos hlen, Option.map_some, Option.some.injEq]
    show r.bytes.drop (r.head.length - 4 + 4) = _
    rw [hfour, Response.bytes, List.drop_left]
  rw [verdict, hstatus, hbody]

/-! ## The server's side of an exchange -/

/-- What the server answers to a call: nothing fails, and a read hands over the next bytes of the
answer to the request that was sent. The connection ends behind the last one. -/
def Delivers (serve : Request → Response) (tr : List Event) (c : Call) (reply : Reply) : Prop :=
  reply.code = .ok ∧ ∀ n req, c = .recv n → 0 < n → readRequest (sentBytes tr) = some (req, []) →
    received tr <+: (serve req).bytes → reply.data.length ≤ n ∧
      received tr ++ reply.data <+: (serve req).bytes ∧
      (reply.data = [] → received tr = (serve req).bytes)

/-- The server, as what a client may rely on. -/
def hosting (serve : Request → Response) : Contract Call (fun _ => Reply) (List Event) where
  allowed _ _ := True
  answers := Delivers serve
  next tr c reply := tr ++ [⟨c, reply⟩]

namespace Transaction

variable {serve : Request → Response} {tr : List Event} {next : List Byte → Transaction}
  {Q : Except HttpError Answer → List Event → Prop}

/-- A call succeeds. -/
theorem meets_attempt {c : Call} (h : ∀ data, Delivers serve tr c ⟨.ok, data⟩ →
    (next data).Meets (hosting serve) (tr ++ [⟨c, ⟨.ok, data⟩⟩]) Q) :
    (attempt c next).Meets (hosting serve) tr Q := by
  refine ⟨trivial, ?_⟩
  rintro ⟨code, data⟩ hreply
  obtain rfl : code = .ok := hreply.1
  exact h data hreply

/-- All of the message is handed over, and nothing is read. -/
theorem meets_transmit {next : Transaction} {m : List Byte}
    (h : ∀ tr', sentBytes tr' = sentBytes tr ++ m → reads tr' = reads tr →
      next.Meets (hosting serve) tr' Q) : (transmit next m).Meets (hosting serve) tr Q := by
  induction m using transmit.induct generalizing tr with
  | case1 =>
    rw [transmit_nil]
    exact h tr (List.append_nil _).symm rfl
  | case2 b m ih =>
    rw [transmit_of_ne_nil next (List.cons_ne_nil b m)]
    apply meets_attempt
    intro data _
    apply ih
    intro tr' hsent hreads
    apply h tr'
    · rw [hsent, sentBytes_snoc, List.append_assoc]
      exact congrArg _ (List.take_append_drop ..)
    · rw [hreads, reads_snoc_of_not_read rfl]

theorem meets_conclude {D : List Byte} {v : Except HttpError Answer} (h : verdict D = v) :
    (conclude D).Meets (hosting serve) tr fun v' _ => v' = v :=
  meets_attempt fun _ _ => h

/-- All of the answer is read, and nothing else. -/
theorem meets_receive {req : Request} {size : Nat} (hr : (serve req).WellFormed)
    (hd : DeclaresLength (serve req) ∨ EndsWithConnection (serve req))
    (hlt : (serve req).bytes.length < size) (hsize : size ≤ 2 ^ 63) {rs : List (List Byte)}
    (hread : readRequest (sentBytes tr) = some (req, [])) (hreads : reads tr = rs)
    (hpre : rs.flatten <+: (serve req).bytes) :
    (receive 64 size rs).Meets (hosting serve) tr fun v _ =>
      v = .ok ⟨(serve req).status, some (serve req).body⟩ := by
  induction hn : size - rs.flatten.length using Nat.strongRecOn generalizing tr rs with
  | ind n ih =>
    subst hn
    have hroom : rs.flatten.length < size := Nat.lt_of_le_of_lt hpre.length_le hlt
    have hmax : kiiSocketMaxBuffSize = 256 := rfl
    rw [receive]
    apply meets_attempt
    intro data hdelivers
    obtain ⟨-, hpiece, hempty⟩ := hdelivers.2 _ req rfl (by omega) hread
      (by rw [received_eq, hreads]; exact hpre)
    rw [received_eq, hreads] at hpiece hempty
    have hflat : (rs ++ [data]).flatten = rs.flatten ++ data := by simp
    have hle := hpiece.length_le
    have hfits : ¬ size ≤ (rs ++ [data]).flatten.length := by
      rw [hflat]
      exact Nat.not_le.mpr (Nat.lt_of_le_of_lt hle hlt)
    rw [dif_neg hfits]
    split
    · next hmore =>
      -- a read that does not complete the response is not empty
      have hpos := List.length_pos_iff.mpr fun hnil => hmore (Or.inr hnil)
      refine ih _ ?_ ?_ ?_ (hflat ▸ hpiece) rfl
      · rw [hflat, List.length_append]
        omega
      · rw [sentBytes_snoc]
        simpa [Event.accepted] using hread
      · rw [reads_snoc_read rfl, hreads]
    · next hmore =>
      apply meets_conclude
      have hall := flatten_of_completes hr hd (hflat ▸ hpiece) hempty
        (Nat.lt_of_lt_of_le (Nat.not_le.mp hfits) hsize) (not_not.mp hmore)
      rw [hall, verdict_bytes hr]

/-- **The program gets the answer to its message.** -/
theorem meets_exchange {req : Request} {size : Nat} {host : CString} {message : List Byte}
    (hr : (serve req).WellFormed)
    (hd : DeclaresLength (serve req) ∨ EndsWithConnection (serve req))
    (hlt : (serve req).bytes.length < size) (hsize : size ≤ 2 ^ 63)
    (hread : readRequest message = some (req, [])) :
    (exchange 64 size host message).Meets (hosting serve) [] fun v _ =>
      v = .ok ⟨(serve req).status, some (serve req).body⟩ := by
  apply meets_attempt
  intro data _
  apply meets_transmit
  intro tr' hsent hreads
  apply meets_receive hr hd hlt hsize
  · have hnone : sentBytes ([] ++ [⟨.connect host kiiServerPort, ⟨.ok, data⟩⟩]) = [] := rfl
    rw [hsent, hnone]
    exact hread
  · rw [hreads]
    rfl
  · exact List.nil_prefix

/-! ## From the program to the engine -/

/-- Nothing is forgotten. -/
theorem Makes.grows {p : Transaction} {tr tr' : List Event} {v : Except HttpError Answer}
    (h : p.Makes tr v tr') : tr <+: tr' := by
  induction h with
  | done => exact List.prefix_refl _
  | ask _ _ ih => exact (List.prefix_append ..).trans ih

/-- Where every answer is one of the server, the run is one with the server. -/
theorem Makes.hosted {p : Transaction} {tr tr' : List Event} {v : Except HttpError Answer}
    (h : p.Makes tr v tr')
    (hall : ∀ tr₀ e, tr₀ ++ [e] <+: tr' → Delivers serve tr₀ e.call e.reply) :
    p.Runs (hosting serve) tr v tr' := by
  induction h with
  | done => exact .done
  | @ask c k tr tr' reply v hr h ih =>
    have hpre : tr ++ [⟨c, reply⟩] <+: tr' := Makes.grows h
    exact .ask (hall _ _ hpre) (ih hall)

end Transaction

/-- A call that a server has to answer. Behind the last byte of an answer that declares its length,
there is nothing to read. -/
def Expected (serve : Request → Response) (tr : List Event) (c : Call) : Prop :=
  ∀ req, readRequest (sentBytes tr) = some (req, []) → (serve req).WellFormed →
    Due (DeclaresLength (serve req)) (serve req).bytes tr c

/-- The callbacks lead to a server: none of them fails, they answer `KII_SOCKETC_AGAIN` at most `N`
times, and once a request was sent, `recv_cb` hands over the answer to it, in non-empty pieces that
are no longer than requested. -/
structure Hosts (cbs : Callbacks) (serve : Request → Response) (N : Nat) : Prop where
  alive : ∀ tr c, Expected serve tr c → (cbs tr c).code ≠ .fail
  again : ∀ tr c, Expected serve tr c → (cbs tr c).code = .again → agains tr < N
  read : ∀ tr n data req, Expected serve tr (.recv n) → 0 < n →
    readRequest (sentBytes tr) = some (req, []) → received tr <+: (serve req).bytes →
    cbs tr (.recv n) = ⟨.ok, data⟩ →
    data.length ≤ n ∧ received tr ++ data <+: (serve req).bytes ∧
      (data = [] → received tr = (serve req).bytes)

/-- What was sent does not depend on the waiting. -/
theorem sentBytes_settled (tr : List Event) : sentBytes (settled tr) = sentBytes tr := by
  induction tr using List.reverseRecOn with
  | nil => rfl
  | append_singleton tr e ih =>
    by_cases hcode : e.reply.code = .again
    · have haccepted : e.accepted = none := by
        obtain ⟨_ | _ | _ | _, _ | _ | _, _⟩ := e <;> first | rfl | cases hcode
      rw [settled_snoc_again hcode, ih, sentBytes_snoc, haccepted]
      exact (List.append_nil _).symm
    · rw [settled_snoc hcode, sentBytes_snoc, sentBytes_snoc, ih]

section

variable {cbs : Callbacks} {serve : Request → Response} {N size : Nat}

/-- The engine makes no other calls. -/
theorem Timely.expected {tr : List Event} {c : Call} (h : Timely 64 size tr c)
    (hsize : size ≤ 2 ^ 63) : Expected serve tr c :=
  fun _ _ hr => h.due (endsItself_of_response hr hsize)

/-- **The server does not keep the engine waiting for ever.** -/
theorem Hosts.patient (h : Hosts cbs serve N) {k : Core 64} (hk : Prepared k) : Patient cbs k := by
  refine ⟨N, ?_⟩
  intro n
  have hhistory := runs_history cbs hk n
  generalize (runs cbs k n).trace = tr at hhistory ⊢
  induction hhistory with
  | nil => exact Nat.zero_le _
  | @snoc tr c _ htimely ih =>
    rw [agains_snoc]
    split
    · next hagain =>
      exact h.again tr c (htimely.expected (Nat.le_of_lt k.http.buffer.length_lt)) hagain
    · exact ih

/-- Every settled answer of the history is one of the server. -/
theorem Hosts.delivers (h : Hosts cbs serve N) (hsize : size ≤ 2 ^ 63) {tr : List Event}
    (hhistory : History 64 cbs size tr) :
    ∀ tr₀ e, tr₀ ++ [e] <+: settled tr → Delivers serve tr₀ e.call e.reply := by
  induction hhistory with
  | nil =>
    intro tr₀ e hpre
    have := hpre.length_le
    simp [settled] at this
  | @snoc tr c hhistory htimely ih =>
    intro tr₀ e hpre
    have hexpected : Expected serve tr c := htimely.expected hsize
    -- an answer `KII_SOCKETC_AGAIN` is not settled, and adds nothing
    by_cases hcode : (cbs tr c).code = .again
    · rw [settled_snoc_again hcode] at hpre
      exact ih tr₀ e hpre
    · rw [settled_snoc hcode] at hpre
      rcases List.prefix_concat_iff.mp hpre with heq | hpre
      · obtain ⟨rfl, he⟩ := List.append_inj' heq rfl
        obtain rfl := List.singleton_inj.mp he
        have hok : (cbs tr c).code = .ok := by
          rcases h' : (cbs tr c).code with _ | _ | _
          · rfl
          · exact absurd h' (h.alive tr c hexpected)
          · exact absurd h' hcode
        refine ⟨hok, ?_⟩
        rintro n req rfl hpos hread hreceived
        rw [sentBytes_settled] at hread
        rw [received_settled] at hreceived ⊢
        apply h.read tr n _ req hexpected hpos hread hreceived
        rw [← hok]
      · exact ih tr₀ e hpre

/-- **A request that is ready** gets the answer of the server. -/
theorem runToIdle_hosted {k : Core 64} {req : Request} (hk : Prepared k)
    (hpos : 0 < k.http.totalSendSize) (hread : readRequest k.text = some (req, []))
    (h : Hosts cbs serve N) (hr : (serve req).WellFormed)
    (hd : DeclaresLength (serve req) ∨ EndsWithConnection (serve req))
    (hlt : (serve req).bytes.length < k.bufferSize) :
    ∃ fuel x, runToIdle cbs fuel k = some (.ok, x) ∧ x.core.responseCode = (serve req).status ∧
      x.core.body = some (serve req).body := by
  have hsize := Nat.le_of_lt k.http.buffer.length_lt
  obtain ⟨fuel, ⟨code, x⟩, hrun⟩ := exists_runToIdle_of_patient hk (h.patient hk)
  obtain ⟨v, hmakes, hreports⟩ := runToIdle_refines hk hpos hrun
  have hhosted := hmakes.hosted (h.delivers hsize (runToIdle_ended hk hrun).2)
  have hmeets := @Transaction.meets_exchange serve req _ (k.hostStr k.http.host) k.text hr hd hlt
    hsize hread
  have hv := hmeets.of_runs hhosted
  rw [hv] at hreports
  cases hreports with
  | answer hstatus hbody _ => exact ⟨fuel, x, hrun, hstatus, hbody⟩

/-- **An exchange with a server.** The application gets the answer to the request it has prepared. -/
theorem exchange_served {k : Core 64} {p : Preparation} (hk : k.Proper) (hvalid : p.Valid k)
    (hlegible : p.Legible k) (hok : (p.run k).code = .ok) (h : Hosts cbs serve N)
    (hr : (serve (p.message k)).WellFormed)
    (hd : DeclaresLength (serve (p.message k)) ∨ EndsWithConnection (serve (p.message k)))
    (hlt : (serve (p.message k)).bytes.length < k.bufferSize) :
    ∃ fuel x, runToIdle cbs fuel (p.run k).core = some (.ok, x) ∧
      x.core.responseCode = (serve (p.message k)).status ∧
      x.core.body = some (serve (p.message k)).body := by
  have hprep := p.prepares hvalid
  have hread := readRequest_bytes (Preparation.wellFormed_message hk hvalid hlegible) []
  rw [List.append_nil, ← hprep.sent hok] at hread
  exact runToIdle_hosted (hprep.prepared hok) (hprep.totalSendSize_pos hok) hread h hr hd
    (hprep.size.symm ▸ hlt)

end

/-! ## What stays from request to request -/

section

variable {w : Nat}

/-- The two objects belong to the same application: what was set up, the author and the size of the
buffer are the same. -/
structure SameApplication (k₁ k₂ : Core w) : Prop where
  size : k₂.bufferSize = k₁.bufferSize
  rest : k₂ = { k₁ with
    http := { k₂.http with normalizerHost := k₁.http.normalizerHost }
    responseCode := k₂.responseCode
    responseBody := k₂.responseBody
    responseBodyLength := k₂.responseBodyLength
    httpRequestPath := k₂.httpRequestPath
    state := k₂.state
    contentLength := k₂.contentLength }

theorem SameApplication.refl (k : Core w) : SameApplication k k := ⟨rfl, rfl⟩

theorem SameApplication.trans {k₁ k₂ k₃ : Core w} (h : SameApplication k₁ k₂)
    (h' : SameApplication k₂ k₃) : SameApplication k₁ k₃ := by
  refine ⟨h'.size.trans h.size, ?_⟩
  have h₂ := h.rest
  have h₃ := h'.rest
  rw [h₂] at h₃
  exact h₃

theorem Frame.sameApplication {k k' : Core w} (h : Frame k k') : SameApplication k k' := by
  refine ⟨h.size, ?_⟩
  rw [h.rest]

theorem SameApplication.ready {k : Core w} {r : Result ErrorCode w}
    (h : SameApplication k r.core) : SameApplication k r.ready.core := by
  unfold Result.ready
  split
  · refine ⟨h.size, ?_⟩
    have hrest := h.rest
    dsimp only
    rw [hrest]
  · exact h

theorem SameApplication.of_setPath {k k' : Core w} {path : CString}
    (h : SameApplication (k.setPath path) k') : SameApplication k k' := by
  have hset : SameApplication k (k.setPath path) := ⟨rfl, rfl⟩
  exact hset.trans h

/-- A preparation leaves the application alone. -/
theorem Preparation.sameApplication {k : Core w} {p : Preparation} (h : p.Valid k) :
    SameApplication k (p.run k).core := by
  have hassemble : ∀ (k' : Core w) contentType accessToken pieces,
      (∀ str ∈ pieces, CString.length str ≤ 2 ^ (w - 1)) → SameApplication k'
        (assemble k' contentType accessToken (totalLength pieces) pieces).core := by
    intro k' contentType accessToken pieces hpieces
    obtain ⟨r, hr, hbuilds⟩ := exists_builds_assemble k' contentType accessToken hpieces
    rw [hr]
    exact hbuilds.frame.sameApplication.ready
  cases p with
  | request c =>
    rw [run, c.run_eq]
    exact (builds_httpRequest (k.setPath (c.args k).resourcePath) (c.args k) h).frame
      |>.sameApplication.ready.of_setPath
  | registerThingWithId vendorThingId password thingType =>
    obtain ⟨hid, hpassword, htype⟩ := h
    rw [run, registerThingWithId_eq, Option.getD_some]
    exact (hassemble _ _ _ _ (length_le_of_mem_registrationBody k hid hpassword htype)).of_setPath
  | thingAuthentication vendorThingId password =>
    obtain ⟨hid, hpassword⟩ := h
    rw [run, thingAuthentication_eq]
    exact (hassemble _ _ _ _ (length_le_of_mem_authenticationBody k hid hpassword)).of_setPath
  | installThingPush development =>
    rw [run, installThingPush_eq]
    exact (hassemble _ _ _ _ (length_le_of_mem_installationBody k development)).of_setPath
  | apiCall a =>
    obtain ⟨r, hr, hbuilds⟩ := exists_builds_apiCall (k := k) h.1 h.2.1
    rw [run, hr]
    exact hbuilds.frame.sameApplication.ready

variable {k₁ k₂ : Core w}

theorem SameApplication.proper (h : SameApplication k₁ k₂) (hk : k₁.Proper) : k₂.Proper := by
  rw [h.rest]
  exact ⟨hk.appId, hk.appKey, hk.appHost, hk.sdkInfo, hk.host⟩

theorem SameApplication.args (h : SameApplication k₁ k₂) (c : RequestCall) :
    c.args k₂ = c.args k₁ := by
  rw [h.rest]
  cases c <;> rfl

theorem SameApplication.draft (h : SameApplication k₁ k₂) (method path : CString)
    (headers : List Header) (tail : List Byte) :
    k₂.draft method path headers tail = k₁.draft method path headers tail := by
  rw [h.rest]
  rfl

theorem SameApplication.request (h : SameApplication k₁ k₂) (method path : CString)
    (headers : List Header) (body : List Byte) :
    k₂.request method path headers body = k₁.request method path headers body := by
  rw [h.rest]
  rfl

theorem SameApplication.room (h : SameApplication k₁ k₂) (method path : CString) :
    k₂.room method path ↔ k₁.room method path := by
  have hhost : k₂.appHost = k₁.appHost := by rw [h.rest]
  rw [Core.room, Core.room, h.size, hhost]

theorem SameApplication.message (h : SameApplication k₁ k₂) (p : Preparation) :
    p.message k₂ = p.message k₁ := by
  cases p with
  | request c =>
    obtain ⟨a, ha⟩ : ∃ a, a = c.args k₁ := ⟨_, rfl⟩
    have ha₂ : c.args k₂ = a := (h.args c).trans ha.symm
    simp only [Preparation.message, ha₂, ← ha, RequestArgs.message, RequestArgs.encodingSent,
      RequestArgs.sizeBefore, h.request, h.draft, h.size]
  | _ =>
    rw [h.rest]
    rfl

theorem SameApplication.line (h : SameApplication k₁ k₂) (p : Preparation) :
    p.line k₂ = p.line k₁ := by
  cases p with
  | request c => rw [Preparation.line, Preparation.line, h.args]
  | _ =>
    rw [h.rest]
    rfl

theorem SameApplication.valid (h : SameApplication k₁ k₂) {p : Preparation} (hp : p.Valid k₁) :
    p.Valid k₂ := by
  cases p with
  | request c =>
    rw [Preparation.Valid, h.args]
    exact hp
  | _ =>
    rw [h.rest]
    exact hp

theorem SameApplication.legible (h : SameApplication k₁ k₂) {p : Preparation}
    (hp : p.Legible k₁) : p.Legible k₂ := by
  have htexts : p.texts k₂ = p.texts k₁ := by
    cases p with
    | request c => rw [Preparation.texts, Preparation.texts, h.args]
    | _ =>
      rw [h.rest]
      rfl
  refine ⟨?_, ?_, hp.additional⟩
  · rw [h.line]
    exact hp.line
  · rw [htexts]
    exact hp.texts

theorem SameApplication.pathFits (h : SameApplication k₁ k₂) {p : Preparation}
    (hp : p.PathFits k₁) : p.PathFits k₂ := by
  have hline := h.line p
  cases p with
  | apiCall a => exact hp
  | _ =>
    show (Preparation.line k₂ _).2.length < 256
    rw [hline]
    exact hp

theorem SameApplication.fits (h : SameApplication k₁ k₂) {p : Preparation} (hp : p.Fits k₁) :
    p.Fits k₂ := by
  have hchecks : p.checks k₂ ↔ p.checks k₁ := by
    cases p with
    | request c => rw [Preparation.checks, Preparation.checks, h.args]
    | _ =>
      rw [h.rest]
      exact Iff.rfl
  rw [Preparation.Fits, h.line, h.room, hchecks, h.message, h.size]
  exact hp

/-- A run that returns `KIIE_OK` leaves the application alone. -/
theorem Accepted.sameApplication {k : Core w} {x : Exchange w} {b : Buffer w} {code : Nat}
    (h : Accepted k x b code) : SameApplication k x.core := by
  refine ⟨?_, ?_⟩
  · rw [h.core]
    exact h.contains.size (Nat.le_of_lt h.short)
  · rw [h.core]
    rfl

end

/-! ## Sequences of requests -/

/-- Requests are prepared and run one after the other, and each run returns `KIIE_OK` with an
answer. -/
inductive Converses {w : Nat} : Core w → List (Preparation × Callbacks) → List Answer → Core w → Prop
  | nil {k : Core w} : Converses k [] [] k
  | cons {k k' : Core w} {p : Preparation} {cbs : Callbacks} {fuel : Nat} {x : Exchange w}
      {ps : List (Preparation × Callbacks)} {as : List Answer} (hok : (p.run k).code = .ok)
      (hrun : runToIdle cbs fuel (p.run k).core = some (.ok, x)) (h : Converses x.core ps as k') :
      Converses k ((p, cbs) :: ps) (⟨x.core.responseCode, x.core.body⟩ :: as) k'

/-- What the client sees of a response. -/
def Response.answer (r : Response) : Answer := ⟨r.status, some r.body⟩

/-- A server with a memory: its response depends on the requests it has read before. -/
abbrev Server : Type := List Request → Request → Response

/-- The answers to some requests, behind the requests `before`. -/
def Server.answers (serve : Server) (before : List Request) : List Request → List Answer
  | [] => []
  | req :: reqs =>
    Response.answer (serve before req) :: Server.answers serve (before ++ [req]) reqs

/-- A request that can be made, its path inside of its array, and a server that answers it. -/
structure Serviceable (k : Core 64) (serve : Request → Response) (p : Preparation)
    (cbs : Callbacks) : Prop where
  valid : p.Valid k
  legible : p.Legible k
  pathFits : p.PathFits k
  fits : p.Fits k
  hosts : ∃ N, Hosts cbs serve N
  wellFormed : (serve (p.message k)).WellFormed
  length : DeclaresLength (serve (p.message k)) ∨ EndsWithConnection (serve (p.message k))
  short : (serve (p.message k)).bytes.length < k.bufferSize

theorem Serviceable.later {k k' : Core 64} {serve : Request → Response} {p : Preparation}
    {cbs : Callbacks} (h : Serviceable k serve p cbs) (hsame : SameApplication k k') :
    Serviceable k' serve p cbs := by
  refine ⟨hsame.valid h.valid, hsame.legible h.legible, hsame.pathFits h.pathFits,
    hsame.fits h.fits, h.hosts, ?_, ?_, ?_⟩
  · rw [hsame.message]
    exact h.wellFormed
  · rw [hsame.message]
    exact h.length
  · rw [hsame.message, hsame.size]
    exact h.short

/-- So are all of these, one after the other. -/
def Conversation (k : Core 64) (serve : Server) :
    List Request → List (Preparation × Callbacks) → Prop
  | _, [] => True
  | before, (p, cbs) :: ps =>
    Serviceable k (serve before) p cbs ∧ Conversation k serve (before ++ [p.message k]) ps

/-- **A dialogue with a server.** Every request gets the answer to itself, in order, whatever the
object was before. -/
theorem dialogue_served {k : Core 64} {serve : Server} {ps : List (Preparation × Callbacks)}
    (hk : k.Proper) {before : List Request} (h : Conversation k serve before ps) :
    ∃ k', Converses k ps (serve.answers before (ps.map fun p => p.1.message k)) k' := by
  -- each request meets the object as the exchanges before it have left it
  suffices hlater : ∀ {k₀ : Core 64}, SameApplication k k₀ →
      ∃ k', Converses k₀ ps (serve.answers before (ps.map fun p => p.1.message k)) k' from
    hlater (SameApplication.refl k)
  induction ps generalizing before with
  | nil => exact fun _ => ⟨_, .nil⟩
  | cons pc ps ih =>
    intro k₀ hsame
    obtain ⟨p, cbs⟩ := pc
    obtain ⟨hfirst, hrest⟩ := h
    obtain ⟨hvalid, hlegible, -, hfits, ⟨N, hhosts⟩, hr, hd, hlt⟩ := hfirst.later hsame
    have hok := (p.prepares hvalid).ok_iff.mpr hfits
    obtain ⟨fuel, x, hrun, hstatus, hbody⟩ :=
      exchange_served (hsame.proper hk) hvalid hlegible hok hhosts hr hd hlt
    have hprep := (p.prepares hvalid).prepared hok
    obtain ⟨b, code, haccepted⟩ := runToIdle_ok hprep hrun
    obtain ⟨k', hconverses⟩ := ih hrest
      ((hsame.trans (Preparation.sameApplication hvalid)).trans haccepted.sameApplication)
    refine ⟨k', ?_⟩
    rw [hsame.message] at hstatus hbody
    have hanswer : (⟨x.core.responseCode, x.core.body⟩ : Answer) =
        Response.answer (serve before (p.message k)) := by
      rw [hstatus, hbody, Response.answer]
    rw [List.map_cons, Server.answers, ← hanswer]
    exact .cons hok hrun hconverses

/-- What is said to a thing that is there already. -/
def conflict : Response :=
  { fiveBytesResponse with d₁ := 52, d₂ := 48, d₃ := 57, reason := ascii " Conflict" }

/-- A server that registers a thing once. -/
def registry : Server
  | [], _ => fiveBytesResponse
  | _ :: _, _ => conflict

theorem conflict_wellFormed : conflict.WellFormed := ⟨rfl, rfl, rfl, by decide, by decide⟩

theorem registry_answers (before : List Request) (req : Request) :
    (registry before req).WellFormed ∧ DeclaresLength (registry before req) := by
  cases before with
  | nil => exact ⟨fiveBytesResponse_wellFormed, declaresLength_fiveBytesResponse⟩
  | cons _ _ => exact ⟨conflict_wellFormed, declaresLength_fiveBytesResponse⟩

theorem registry_short (before : List Request) (req : Request) :
    (registry before req).bytes.length < 512 := by
  have hfive : fiveBytesResponse.bytes.length < 512 := by decide +kernel
  have hconflict : conflict.bytes.length < 512 := by decide +kernel
  cases before with
  | nil => exact hfive
  | cons _ _ => exact hconflict

/-- Sockets that hand over one byte at a time and stay open behind the answer. The server is asked
when all of a request is there. -/
def answering (serve : Request → Response) : Callbacks := fun tr c =>
  match readRequest (sentBytes tr) with
  | some (req, []) => keepAlive (serve req).bytes tr c
  | _ => byteByByte [] tr c

theorem hosts_answering {serve : Request → Response}
    (h : ∀ req, (serve req).WellFormed ∧ DeclaresLength (serve req)) :
    Hosts (answering serve) serve 3 := by
  refine ⟨?_, ?_, ?_⟩
  · intro tr c hexpected
    unfold answering
    split
    · next req hread =>
      exact (serves_keepAlive (h req).2).alive tr c (hexpected req hread (h req).1)
    · exact (serves_byteByByte []).alive tr c (due_of_not_declared tr c)
  · intro tr c hexpected
    unfold answering
    split
    · next req hread =>
      exact (serves_keepAlive (h req).2).again tr c (hexpected req hread (h req).1)
    · exact (serves_byteByByte []).again tr c (due_of_not_declared tr c)
  · intro tr n data req hexpected hn hread hpre hreply
    rw [answering, hread] at hreply
    exact (serves_keepAlive (h req).2).read tr n data (hexpected req hread (h req).1) hn hpre hreply

/-- A device with room for the requests. -/
def device512 : Core 64 := device 512 lt_word_512

theorem serviceable_registering {before : List Request} {cbs : Callbacks}
    (h : Hosts cbs (registry before) 3) :
    Serviceable device512 (registry before) Preparation.registering cbs := by
  have hsize : device512.bufferSize = 512 := by decide +kernel
  obtain ⟨hr, hd⟩ := registry_answers before (Preparation.registering.message device512)
  have hlt := registry_short before (Preparation.registering.message device512)
  have hvalid : Preparation.registering.Valid device512 := by decide
  have hok : (Preparation.registering.run device512).code = .ok := by decide +kernel
  refine ⟨hvalid, ⟨by decide +kernel, by decide, by rintro a ⟨⟩⟩, by decide,
    (Preparation.registering.prepares hvalid).ok_iff.mp hok, ⟨3, h⟩, hr, Or.inl hd, ?_⟩
  rw [hsize]
  exact hlt

theorem dialogue_served_of_two : ∃ k', Converses device512
    [(.registering, answering (registry [])),
      (.registering, answering (registry [Preparation.registering.message device512]))]
    (registry.answers [] [Preparation.registering.message device512,
      Preparation.registering.message device512]) k' := by
  apply dialogue_served (k := device512)
  · exact ⟨by decide, by decide, by decide, by decide, by decide, by decide⟩
  · exact ⟨serviceable_registering (hosts_answering (registry_answers _)),
      serviceable_registering (hosts_answering (registry_answers _)), trivial⟩

end KiiThing

import KiiThing.Core.Dialogue

/-!
# What arrives

Connections break, servers are silent, buffers are too small. Whatever happens, a server has read
nothing off an exchange but the request that was prepared, and it has read that one where the run
returns `KIIE_OK` (`Conducted.arrived`). The object stays the one of the application
(`Conducted.sameApplication`), so that this goes for the requests to come as well, also behind a call
that has failed.
-/

namespace KiiThing

open Http

/-! ## What is sent -/

/-- The bytes that were sent are the first ones of the message, and all of them where there is an
answer. -/
def Handed (m : List Byte) (v : Except HttpError Answer) (tr : List Event) : Prop :=
  sentBytes tr <+: m ∧ ∀ a, v = .ok a → sentBytes tr = m

namespace Transaction

variable {tr : List Event} {m : List Byte}

/-- A call succeeds or fails. -/
theorem attempt_settles {c : Call} {next : List Byte → Transaction}
    {Q : Except HttpError Answer → List Event → Prop}
    (hok : ∀ data, (next data).Meets settling (tr ++ [⟨c, ⟨.ok, data⟩⟩]) Q)
    (hfail : ∀ data, Q (.error .socket) (tr ++ [⟨c, ⟨.fail, data⟩⟩])) :
    (attempt c next).Meets settling tr Q := by
  refine ⟨trivial, ?_⟩
  rintro ⟨code, data⟩ hcode
  cases code with
  | ok => exact hok data
  | fail => exact hfail data
  | again => exact absurd rfl hcode

/-- Behind the last byte nothing is sent any more. -/
theorem handed_of_eq {v : Except HttpError Answer} (h : sentBytes tr = m) : Handed m v tr :=
  ⟨h ▸ List.prefix_refl _, fun _ _ => h⟩

theorem sentBytes_fail (c : Call) (data : List Byte) :
    sentBytes (tr ++ [⟨c, ⟨.fail, data⟩⟩]) = sentBytes tr := by
  rw [sentBytes_snoc]
  cases c <;> exact List.append_nil _

theorem conclude_settles {D : List Byte} (h : sentBytes tr = m) :
    (conclude D).Meets settling tr (Handed m) := by
  apply attempt_settles
  · intro data
    apply handed_of_eq
    rw [sentBytes_snoc, h]
    exact List.append_nil _
  · intro data
    exact handed_of_eq ((sentBytes_fail _ _).trans h)

theorem receive_settles {w size : Nat} {rs : List (List Byte)} (h : sentBytes tr = m) :
    (receive w size rs).Meets settling tr (Handed m) := by
  induction hn : size - rs.flatten.length using Nat.strongRecOn generalizing tr rs with
  | ind n ih =>
    subst hn
    rw [receive]
    apply attempt_settles
    · intro data
      have hsent : sentBytes (tr ++ [⟨.recv (min (size - rs.flatten.length) kiiSocketMaxBuffSize),
          ⟨.ok, data⟩⟩]) = m := by
        rw [sentBytes_snoc, h]
        exact List.append_nil _
      split
      · exact handed_of_eq hsent
      · next hfull =>
        split
        · next hmore =>
          have hpos := List.length_pos_iff.mpr fun hnil => hmore (Or.inr hnil)
          have hflat : (rs ++ [data]).flatten.length = rs.flatten.length + data.length := by simp
          apply ih _ _ hsent rfl
          omega
        · exact conclude_settles hsent
    · intro data
      exact handed_of_eq ((sentBytes_fail _ _).trans h)

theorem transmit_settles {next : Transaction} {rest : List Byte} (h : sentBytes tr ++ rest = m)
    (hnext : ∀ tr', sentBytes tr' = m → next.Meets settling tr' (Handed m)) :
    (transmit next rest).Meets settling tr (Handed m) := by
  induction rest using transmit.induct generalizing tr with
  | case1 =>
    rw [transmit_nil]
    exact hnext tr (by rwa [List.append_nil] at h)
  | case2 b rest ih =>
    rw [transmit_of_ne_nil next (List.cons_ne_nil b rest)]
    apply attempt_settles
    · intro data
      apply ih
      rw [sentBytes_snoc, List.append_assoc]
      exact (congrArg _ (List.take_append_drop ..)).trans h
    · intro data
      rw [Handed, sentBytes_fail]
      refine ⟨⟨_, h⟩, ?_⟩
      intro a ha
      cases ha

/-- **An exchange sends its message**, as far as it gets. -/
theorem exchange_settles (w size : Nat) (host : CString) (message : List Byte) :
    (exchange w size host message).Meets settling [] (Handed message) := by
  apply attempt_settles
  · intro data
    exact transmit_settles rfl fun _ h => receive_settles h
  · intro data
    refine ⟨List.nil_prefix, ?_⟩
    intro a ha
    cases ha

end Transaction

/-- **A run sends what is prepared**, as far as it gets, and all of it when it returns `KIIE_OK`. -/
theorem runToIdle_sent {w : Nat} {k : Core w} {cbs : Callbacks} {fuel : Nat} {code : ErrorCode}
    {x : Exchange w} (hk : Prepared k) (hpos : 0 < k.http.totalSendSize)
    (h : runToIdle cbs fuel k = some (code, x)) :
    sentBytes x.trace <+: k.text ∧ (code = .ok → sentBytes x.trace = k.text) := by
  obtain ⟨v, hmakes, hreports⟩ := runToIdle_refines hk hpos h
  have hhanded := (Transaction.exchange_settles w k.bufferSize (k.hostStr k.http.host) k.text).of_runs
    hmakes
  rw [Handed, sentBytes_settled] at hhanded
  refine ⟨hhanded.1, ?_⟩
  rintro rfl
  cases hreports with
  | answer => exact hhanded.2 _ rfl

/-! ## What stays -/

section

variable {w : Nat} {k : Core w}

theorem takeRead_sameApplication (k : Core w) (data : List Byte) :
    SameApplication k (takeRead k data).2 := by
  have hwritten : ∀ (c : Prop) [Decidable c] (b : Buffer w) (n : Nat),
      (if c then b.write n [0] else b).size = b.size := by
    intro c _ b n
    split
    · exact Buffer.size_write ..
    · rfl
  refine ⟨?_, ?_⟩
  · unfold takeRead Core.bufferSize
    dsimp only
    split
    · exact Buffer.size_write ..
    · exact (hwritten _ _ _).trans (Buffer.size_write ..)
  · unfold takeRead
    dsimp only
    split <;> rfl

theorem takeResponse_sameApplication (k : Core w) : SameApplication k (takeResponse k).2 := by
  unfold takeResponse
  split <;> exact ⟨rfl, rfl⟩

theorem execute_sameApplication (cbs : Callbacks) (x : Exchange w) :
    SameApplication x.core (prvKiiHttpExecute cbs x).2.core := by
  unfold prvKiiHttpExecute
  split
  · exact ⟨rfl, rfl⟩
  · simp only [executeConnect, Exchange.ask]
    split <;> exact ⟨rfl, rfl⟩
  · simp only [executeSend, Exchange.ask]
    split <;> exact ⟨rfl, rfl⟩
  · -- the buffer may have been cleared before the read
    have hcleared : (if x.core.http.receivedSize = 0 then x.core.http.buffer.clear
        else x.core.http.buffer).size = x.core.bufferSize := by
      split
      · exact Buffer.size_clear _
      · rfl
    simp only [executeRecv, Exchange.ask]
    split
    · have hclear : SameApplication x.core { x.core with
          http.buffer := if x.core.http.receivedSize = 0 then x.core.http.buffer.clear
            else x.core.http.buffer } := ⟨hcleared, rfl⟩
      exact hclear.trans (takeRead_sameApplication _ _)
    · exact ⟨hcleared, rfl⟩
    · exact ⟨hcleared, rfl⟩
  · simp only [executeClose, Exchange.ask]
    split
    · exact takeResponse_sameApplication _
    · exact ⟨rfl, rfl⟩
    · exact ⟨rfl, rfl⟩

theorem kiiCoreRun_sameApplication (cbs : Callbacks) (x : Exchange w) :
    SameApplication x.core (kiiCoreRun cbs x).2.core := by
  have hstate : ∀ (z : Exchange w) state, SameApplication x.core z.core →
      SameApplication x.core { z.core with state := state } := by
    intro z state h
    refine ⟨h.size, ?_⟩
    have hrest := h.rest
    dsimp only
    rw [hrest]
  have hexecute := execute_sameApplication cbs x
  unfold kiiCoreRun
  split
  · exact .refl _
  · exact hstate x _ (.refl _)
  · split
    · next heq =>
      rw [heq] at hexecute
      exact hstate _ _ hexecute
    · next heq =>
      rw [heq] at hexecute
      exact hexecute
    · next heq =>
      rw [heq] at hexecute
      exact hstate _ _ hexecute
  · exact .refl _

/-- **A run leaves the application alone**, however it ends. -/
theorem runToIdle_sameApplication {cbs : Callbacks} {fuel : Nat} {r : ErrorCode × Exchange w}
    (h : runToIdle cbs fuel k = some r) : SameApplication k r.2.core := by
  obtain ⟨x, hx, rfl, -⟩ := Loop.doWhile_of_invariant (fun x => SameApplication k x.core)
    (fun x hx _ => hx.trans (kiiCoreRun_sameApplication cbs x)) (.refl k) h
  exact hx.trans (kiiCoreRun_sameApplication cbs x)

end

/-! ## One request -/

/-- A request is prepared, and run when there is one. -/
inductive Conducts {w : Nat} (k : Core w) (p : Preparation) : ErrorCode → Exchange w → Prop
  | refused (hnot : (p.run k).code ≠ .ok) : Conducts k p .fail ⟨(p.run k).core, []⟩
  | ran {cbs : Callbacks} {fuel : Nat} {code : ErrorCode} {x : Exchange w}
      (hok : (p.run k).code = .ok) (hrun : runToIdle cbs fuel (p.run k).core = some (code, x)) :
      Conducts k p code x

/-- The request that a server reads off the bytes it is sent. -/
def arrived (tr : List Event) : Option Request := (readRequest (sentBytes tr)).map Prod.fst

namespace Conducts

variable {w : Nat} {k : Core w} {p : Preparation} {code : ErrorCode} {x : Exchange w}

theorem sameApplication (h : Conducts k p code x) (hvalid : p.Valid k) :
    SameApplication k x.core := by
  cases h with
  | refused => exact Preparation.sameApplication hvalid
  | ran _ hrun => exact (Preparation.sameApplication hvalid).trans (runToIdle_sameApplication hrun)

/-- **Nothing else arrives**: a server has read the request that was prepared, or none; it has read
it if the call returns `KIIE_OK`. -/
theorem arrived (h : Conducts k p code x) (hk : k.Proper) (hvalid : p.Valid k)
    (hlegible : p.Legible k) :
    (KiiThing.arrived x.trace = none ∨ KiiThing.arrived x.trace = some (p.message k)) ∧
      (code = .ok → KiiThing.arrived x.trace = some (p.message k)) := by
  cases h with
  | refused =>
    refine ⟨Or.inl rfl, ?_⟩
    rintro ⟨⟩
  | ran hok hrun =>
    have hprep := p.prepares hvalid
    have hwell := Preparation.wellFormed_message hk hvalid hlegible
    have hsent := runToIdle_sent (hprep.prepared hok) (hprep.totalSendSize_pos hok) hrun
    have htext : (p.run k).core.text = (p.message k).bytes := hprep.sent hok
    rw [htext] at hsent
    refine ⟨?_, ?_⟩
    · cases hread : readRequest (sentBytes x.trace) with
      | none => exact Or.inl (by rw [KiiThing.arrived, hread]; rfl)
      | some r =>
        obtain ⟨-, hr, -⟩ := readRequest_of_prefix hwell hsent.1 hread
        exact Or.inr (by rw [KiiThing.arrived, hread, Option.map_some, hr])
    · intro hcode
      have hread := readRequest_bytes hwell []
      rw [List.append_nil] at hread
      rw [KiiThing.arrived, hsent.2 hcode, hread]
      rfl

end Conducts

end KiiThing

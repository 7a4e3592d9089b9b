import KubePortForward.Verified.Simulation
import KubePortForward.Mux.FailedRealization
import KubePortForward.Mux.Routing

/-!
# The connection and its peer

The connection together with a peer that honours one receive window: that of
a stream, or of the session, which is kept under the id 0.  The peer starts
with the credit of `initial_window_size`, sends DATA only as far as its credit
goes, and adds every WINDOW_UPDATE it receives for the window.  Frames the peer
has sent are `inbound` until the reader takes them; `received` counts the
frames of the wire that have reached the peer.

## Main results

* `peered_reaches` — the connection of a reachable state is reachable.
* `writer_returning` — the writer passes updates on, and loses some only when
  it leaves its loop.
* `openLog_nonzero` — no stream is registered under the id of the session.
-/

namespace KubePortForward.Mux

open KubePortForward.Codec
open KubePortForward.Verified.Channel
open KubePortForward.Verified.Transition

/-! ## What counts against window `x`, and what is returned to it -/

/-- Octets of a frame that window `x` pays for. -/
def dataBytes (x : StreamId) : Frame → Nat
  | .data id payload _ => if x = 0 ∨ id = x then payload.length else 0
  | _ => 0

/-- Credit that a written frame returns to window `x`. -/
def Outgoing.grant (x : StreamId) : Outgoing → Nat
  | .windowUpdate id delta => if id = x then delta.toNat else 0
  | _ => 0

/-- Credit that a command will return to window `x`. -/
def MuxCommand.grant (x : StreamId) : MuxCommand → Nat
  | .encodeWindowUpdate id delta => if id = x then delta.toNat else 0
  | _ => 0

/-- The connection, its peer and what is on the way between them. -/
structure Peered where
  mux : MuxState
  credit : Nat
  inbound : List Frame := []
  received : Nat := 0

inductive PeerAct where
  | send (f : Frame)
  | deliver
  | receive
  | mux (a : Act)
  deriving DecidableEq, Repr

/-- One step of the peer, of the transport or of the connection.  Frames reach
the reader only in the order the peer sent them. -/
def peeredStep (cfg : MuxConfig) (x : StreamId) (s : Peered) : PeerAct → Option Peered
  | .send f =>
      if dataBytes x f ≤ s.credit then
        some { s with credit := s.credit - dataBytes x f, inbound := s.inbound ++ [f] }
      else none
  | .deliver =>
      match s.inbound with
      | [] => none
      | f :: rest =>
          (step cfg s.mux (.reader (.receive f))).map fun m =>
            { s with mux := m, inbound := rest }
  | .receive =>
      match s.mux.writer.wire[s.received]? with
      | none => none
      | some o =>
          some { s with credit := s.credit + o.grant x, received := s.received + 1 }
  | .mux (.reader (.receive _)) => none
  | .mux a => (step cfg s.mux a).map fun m => { s with mux := m }

/-- The connection with a peer that honours window `x`. -/
def peered (cfg : MuxConfig) (x : StreamId) : System Peered PeerAct where
  init := { mux := MuxState.init cfg, credit := cfg.initialWindowSize.toNat }
  step := peeredStep cfg x

/-- The step of the connection is not the arrival of a frame. -/
def Act.isReceive : Act → Bool
  | .reader (.receive _) => true
  | _ => false

theorem peeredStep_cases {cfg : MuxConfig} {x : StreamId} {s s' : Peered} {a : PeerAct}
    (h : peeredStep cfg x s a = some s') :
    (∃ f, a = .send f ∧ dataBytes x f ≤ s.credit ∧ s' = { s with
      credit := s.credit - dataBytes x f, inbound := s.inbound ++ [f] }) ∨
    (∃ f rest m, a = .deliver ∧ s.inbound = f :: rest ∧
      step cfg s.mux (.reader (.receive f)) = some m ∧
      s' = { s with mux := m, inbound := rest }) ∨
    (∃ o, a = .receive ∧ s.mux.writer.wire[s.received]? = some o ∧ s' = { s with
      credit := s.credit + o.grant x, received := s.received + 1 }) ∨
    (∃ b m, a = .mux b ∧ b.isReceive = false ∧ step cfg s.mux b = some m ∧
      s' = { s with mux := m }) := by
  cases a with
  | send f =>
      simp only [peeredStep] at h
      split at h
      · next hle =>
          cases h
          exact .inl ⟨f, rfl, hle, rfl⟩
      · contradiction
  | deliver =>
      simp only [peeredStep] at h
      split at h
      · contradiction
      · next f rest hq =>
          obtain ⟨m, hm, rfl⟩ := Option.map_eq_some_iff.1 h
          exact .inr (.inl ⟨f, rest, m, rfl, hq, hm, rfl⟩)
  | receive =>
      simp only [peeredStep] at h
      split at h
      · contradiction
      · next o ho =>
          cases h
          exact .inr (.inr (.inl ⟨o, rfl, ho, rfl⟩))
  | mux b =>
      refine .inr (.inr (.inr ?_))
      simp only [peeredStep] at h
      split at h <;> try contradiction
      next c hno heq =>
        cases heq
        obtain ⟨m, hm, rfl⟩ := Option.map_eq_some_iff.1 h
        refine ⟨b, m, rfl, ?_, hm, rfl⟩
        unfold Act.isReceive
        split
        · next f => exact absurd rfl (hno f)
        · rfl

theorem peered_reaches (cfg : MuxConfig) (x : StreamId) :
    (peered cfg x).Invariant anyStep (fun s => (mux cfg).Reaches anyStep s.mux) := by
  have htrue : (peered cfg x).Invariant anyStep (fun _ => True) := fun _ _ _ _ => trivial
  refine simulation Peered.mux htrue rfl ?_
  intro s a s' _ _ h
  obtain ⟨f, -, -, rfl⟩ | ⟨f, rest, m, -, -, hm, rfl⟩ | ⟨o, -, -, rfl⟩ |
    ⟨b, m, -, -, hm, rfl⟩ := peeredStep_cases h
  · exact .inl rfl
  · exact .inr ⟨.reader (.receive f), trivial, hm⟩
  · exact .inl rfl
  · exact .inr ⟨b, trivial, hm⟩

/-! ## Updates on their way to the peer -/

/-- Credit in the window channel. -/
def queuedGrants (x : StreamId) (sh : Shared) : Nat :=
  (sh.window.queue.map (·.grant x)).sum

/-- Credit in the command the writer is writing. -/
def writingGrants (x : StreamId) (wr : Writer) : Nat :=
  (wr.out.map (·.frame.grant x)).sum

/-- Credit that is written and has not reached the peer. -/
def wireGrants (x : StreamId) (received : Nat) (wr : Writer) : Nat :=
  ((wr.wire.drop received).map (·.grant x)).sum

/-- Credit queued or in transit to the peer. -/
def Peered.returning (x : StreamId) (s : Peered) : Nat :=
  queuedGrants x s.mux.shared + writingGrants x s.mux.writer +
    wireGrants x s.received s.mux.writer

/-- The command returns no credit. -/
def MuxCommand.isGrant : MuxCommand → Bool
  | .encodeWindowUpdate _ _ => true
  | _ => false

theorem MuxCommand.grant_eq_zero {c : MuxCommand} (h : c.isGrant = false) (x : StreamId) :
    c.grant x = 0 := by
  cases c <;> first
    | rfl
    | contradiction

theorem processWriterCommand_grant (x : StreamId) (c : MuxCommand) :
    ((processWriterCommand c).map (·.frame.grant x)).sum = c.grant x := by
  cases c <;>
    simp [processWriterCommand, PendingWrite.plain, PendingWrite.uncounted, Outgoing.grant,
      MuxCommand.grant]

/-- Credit is returned through the window channel only. -/
structure Grantless (s : MuxState) : Prop where
  control : ∀ c ∈ s.shared.control.queue, c.isGrant = false
  cmd : ∀ c ∈ s.shared.cmd.queue, c.isGrant = false
  held : ∀ c, s.writer.pc.held = some c → c.isGrant = false

theorem WriterMove.grantless {s : MuxState} {sh : Shared} {wr : Writer}
    (h : WriterMove s.shared s.writer sh wr) (hI : Grantless s) :
    Grantless { s with shared := sh, writer := wr } := by
  obtain ⟨hcontrol, hcmd, hheld⟩ := hI
  cases h with
  | emit hout => exact ⟨hcontrol, hcmd, hheld⟩
  | fail => exact ⟨hcontrol, hcmd, by simp [WriterPc.held]⟩
  | takeWindow hout hnone hlive hrecv => exact ⟨hcontrol, hcmd, by simp [Writer.process]⟩
  | takeControl hout hsame hlive hpc hrecv hpolls =>
      rw [Chan.recv_eq_some hrecv] at hcontrol
      exact ⟨fun c hc => hcontrol c (List.mem_cons_of_mem _ hc), hcmd,
        fun c hc => hheld c (hsame.symm.trans hc)⟩
  | takeCmd left hout hnone hlive hrecv =>
      rw [Chan.recv_eq_some hrecv] at hcmd
      exact ⟨hcontrol, fun c hc => hcmd c (List.mem_cons_of_mem _ hc),
        by simp [Writer.process]⟩
  | hold hout hnone hlive hrecv =>
      rw [Chan.recv_eq_some hrecv] at hcmd
      refine ⟨hcontrol, fun c hc => hcmd c (List.mem_cons_of_mem _ hc), fun c hc => ?_⟩
      rw [← Option.some.inj hc]
      exact hcmd _ List.mem_cons_self
  | processHeld hout hpc => exact ⟨hcontrol, hcmd, by simp [Writer.process]⟩
  | own f hout hnone hlive hframe hout' hheld' hlive' hsame hfailed hcloses =>
      exact ⟨hcontrol, hcmd, by simp [hheld']⟩
  | move cancelled hout hnone hlive hout' hheld' hsame hfailed hcancel =>
      exact ⟨hcontrol, hcmd, by simp [hheld']⟩
  | sendClose hout hpc hsend =>
      unfold Shared.sendClose at hsend
      split at hsend <;> cases hsend
      exact ⟨hcontrol, hcmd, by simp⟩
  | exit hout hpc => exact ⟨by simp, by simp, by simp [WriterPc.held]⟩

theorem step_grantless {cfg : MuxConfig} {s s' : MuxState} {a : Act} (hI : Grantless s)
    (h : step cfg s a = some s') : Grantless s' := by
  obtain ⟨p, c, sh, pr, rfl, hc, rfl⟩ | ⟨p, sh, pr, z, rfl, -, -, hb, rfl⟩ |
    ⟨z, sh, pr, z', rfl, hz, hr, rfl⟩ | ⟨c, sh, r, rfl, hr, rfl⟩ |
    ⟨w, order, k, sh, rfl, hw, rfl⟩ | ⟨c, sh, wr, rfl, hw, rfl⟩ | ⟨rfl, rfl⟩ := step_cases h
  · refine ⟨?_, ?_, hI.held⟩
    · rcases client_control hc with hq | ⟨-, -, -, -, hq⟩
      · rw [hq]
        exact hI.control
      · exact forall_mem_snoc hI.control rfl hq
    · rcases client_cmd hc with hq | ⟨payload, -, -, hq⟩ | ⟨-, -, -, -, -, hq⟩
      · rw [hq]
        exact hI.cmd
      · exact forall_mem_snoc hI.cmd rfl hq
      · exact forall_mem_snoc hI.cmd rfl hq
  · obtain ⟨hcmd, hctrl⟩ := realizeBegin_writer hb
    refine ⟨?_, by rw [hcmd]; exact hI.cmd, hI.held⟩
    rcases hctrl with hq | ⟨last, hq⟩
    · rw [hq]
      exact hI.control
    · exact forall_mem_snoc hI.control rfl hq
  · obtain ⟨hctrl, hcmd⟩ := realizeStep_writer hr
    refine ⟨by rw [hctrl]; exact hI.control, ?_, hI.held⟩
    rcases hcmd with hq | ⟨-, -, -, hq⟩
    · rw [hq]
      exact hI.cmd
    · exact forall_mem_snoc hI.cmd rfl hq
  · refine ⟨?_, by rw [(reader_footprint hr).cmd]; exact hI.cmd, hI.held⟩
    rcases reader_control hr with hq | ⟨d, hq, hd⟩
    · rw [hq]
      exact hI.control
    · exact forall_mem_snoc hI.control (by cases hd <;> rfl) hq
  · have hmove := workerMove_of_step hw
    refine ⟨?_, by rw [hmove.footprint.cmd]; exact hI.cmd, hI.held⟩
    obtain ⟨added, hq, hadd⟩ := hmove.control
    intro d hd
    rw [hq, List.mem_append] at hd
    rcases hd with hd | hd
    · exact hI.control d hd
    · cases hadd d hd <;> rfl
  · exact (writerMove_of_step hw).grantless hI
  · exact ⟨hI.control, hI.cmd, hI.held⟩

theorem grantless_invariant (cfg : MuxConfig) : (mux cfg).Invariant anyStep Grantless := by
  apply Invariant.of_step
  · constructor <;>
      simp [mux, MuxState.init, Shared.init, Writer.init, WriterPc.held]
  · intro s a s' hI _ hs
    exact step_grantless hI hs

/-- The wire only grows. -/
theorem WriterMove.wire {sh sh' : Shared} {wr wr' : Writer} (h : WriterMove sh wr sh' wr') :
    wr.wire <+: wr'.wire := by
  cases h with
  | emit hout => exact List.prefix_append _ _
  | own f hout hnone hlive hframe hout' hheld' hlive' hsame hfailed hcloses =>
      rw [hsame]
  | move cancelled hout hnone hlive hout' hheld' hsame hfailed hcancel =>
      rw [hsame]
  | _ => exact List.prefix_rfl

/-- A writer that stays in its loop passes on every update; one that leaves may
lose some. -/
theorem writer_returning {s : MuxState} {sh : Shared} {wr : Writer} {received : Nat}
    (x : StreamId) (h : WriterMove s.shared s.writer sh wr) (hI : Grantless s)
    (hrecv : received ≤ s.writer.wire.length) :
    queuedGrants x sh + writingGrants x wr + wireGrants x received wr ≤
        queuedGrants x s.shared + writingGrants x s.writer +
          wireGrants x received s.writer ∧
      (wr.pc.leaving = false → queuedGrants x sh + writingGrants x wr +
        wireGrants x received wr = queuedGrants x s.shared + writingGrants x s.writer +
          wireGrants x received s.writer) := by
  cases h with
  | emit hout =>
      simp [queuedGrants, writingGrants, wireGrants, hout, List.drop_append_of_le_length hrecv]
      omega
  | fail => simp [queuedGrants, writingGrants, wireGrants]
  | takeWindow hout hnone hlive hq =>
      simp [queuedGrants, writingGrants, wireGrants, hout, Chan.recv_eq_some hq,
        Writer.process, processWriterCommand_grant]
      omega
  | takeControl hout hsame hlive hpc hq hpolls =>
      have hzero := hI.control _ (by rw [Chan.recv_eq_some hq]; exact List.mem_cons_self)
      simp [queuedGrants, writingGrants, wireGrants, hout, Writer.process,
        processWriterCommand_grant, MuxCommand.grant_eq_zero hzero]
  | takeCmd left hout hnone hlive hq =>
      have hzero := hI.cmd _ (by rw [Chan.recv_eq_some hq]; exact List.mem_cons_self)
      simp [queuedGrants, writingGrants, wireGrants, hout, Writer.process,
        processWriterCommand_grant, MuxCommand.grant_eq_zero hzero]
  | hold hout hnone hlive hq => simp [queuedGrants, writingGrants, wireGrants]
  | processHeld hout hpc =>
      have hzero := hI.held _ (by rw [hpc]; rfl)
      simp [queuedGrants, writingGrants, wireGrants, hout, Writer.process,
        processWriterCommand_grant, MuxCommand.grant_eq_zero hzero]
  | own f hout hnone hlive hframe hout' hheld' hlive' hsame hfailed hcloses =>
      obtain ⟨id, rfl⟩ | ⟨entries, rfl⟩ := hframe <;>
        simp [queuedGrants, writingGrants, wireGrants, hout, hout', hsame,
          PendingWrite.uncounted, Outgoing.grant]
  | move cancelled hout hnone hlive hout' hheld' hsame hfailed hcancel =>
      simp [queuedGrants, writingGrants, wireGrants, hout, hout', hsame]
  | sendClose hout hpc hsend =>
      unfold Shared.sendClose at hsend
      split at hsend <;> cases hsend
      simp [queuedGrants, writingGrants, wireGrants, Shared.setCloseReg]
  | exit hout hpc => simp [queuedGrants, writingGrants, wireGrants]

/-! ## Streams and the session -/

/-- Every registered id is one of a client stream. -/
def ClientIds (s : MuxState) : Prop := ∀ id ∈ s.shared.history.openLog, IsClientId id

theorem step_clientIds {cfg : MuxConfig} {s s' : MuxState} {a : Act} (hO : SynOrder s)
    (hI : ClientIds s) (h : step cfg s a = some s') : ClientIds s' := by
  unfold ClientIds
  obtain ⟨p, c, sh, pr, rfl, hc, rfl⟩ | ⟨p, sh, pr, z, rfl, -, -, hb, rfl⟩ |
    ⟨z, sh, pr, z', rfl, hz, hr, rfl⟩ | ⟨c, sh, r, rfl, hr, rfl⟩ |
    ⟨w, order, k, sh, rfl, hw, rfl⟩ | ⟨c, sh, wr, rfl, hw, rfl⟩ | ⟨rfl, rfl⟩ := step_cases h
  · rw [(client_footprint hc).openLog]
    exact hI
  · rw [(realizeBegin_pair hb).1]
    exact hI
  · obtain ⟨herror, hdata⟩ := realizing_isClientId hO hz
    rcases realizeStep_reg hr with ⟨-, hlog⟩ | ⟨-, -, -, henq, -⟩ | ⟨-, -, -, henq, -⟩
    · rw [hlog]
      exact hI
    · exact forall_mem_snoc hI herror henq.log
    · exact forall_mem_snoc hI hdata henq.log
  · rw [(reader_footprint hr).openLog]
    exact hI
  · rw [(workerMove_of_step hw).footprint.openLog]
    exact hI
  · rw [(writer_footprint hw).openLog]
    exact hI
  · exact hI

theorem clientIds_invariant (cfg : MuxConfig) : (mux cfg).Invariant anyStep ClientIds := by
  refine Invariant.of_step_using (synOrder_invariant cfg) ?_ ?_
  · intro id hid
    simp [mux, MuxState.init, Shared.init] at hid
  · intro s a s' hO hI _ hs
    exact step_clientIds hO hI hs

/-- What the account of a window uses of a reachable connection. -/
structure Sound (s : MuxState) : Prop where
  wellformed : Wellformed s
  grantless : Grantless s
  clientIds : ClientIds s
  sharded : FramesSharded s

theorem sound_of_reaches {cfg : MuxConfig} {s : MuxState} (h : (mux cfg).Reaches anyStep s) :
    Sound s :=
  ⟨Reaches.of_invariant h (wellformed_invariant cfg),
    Reaches.of_invariant h (grantless_invariant cfg),
    Reaches.of_invariant h (clientIds_invariant cfg),
    Reaches.of_invariant h (frames_sharded cfg)⟩

/-- A stream that a worker knows is not the session. -/
theorem Sound.known_ne_zero {s : MuxState} (hS : Sound s) {w : Shard} {id : StreamId}
    (h : id ∈ (s.workers w).streams) : id ≠ 0 := by
  rintro rfl
  have hclient := hS.clientIds 0 (hS.wellformed.registrations.known w 0 (.inl h)).2
  exact absurd hclient (by decide)

/-- In every reachable state the connection is sound, and the peer has received
no more than was written. -/
structure Sent (s : Peered) : Prop where
  sound : Sound s.mux
  received : s.received ≤ s.mux.writer.wire.length

theorem step_wire {cfg : MuxConfig} {s s' : MuxState} {a : Act}
    (h : step cfg s a = some s') : s.writer.wire <+: s'.writer.wire := by
  obtain ⟨p, c, sh, pr, rfl, hc, rfl⟩ | ⟨p, sh, pr, z, rfl, -, -, hb, rfl⟩ |
    ⟨z, sh, pr, z', rfl, hz, hr, rfl⟩ | ⟨c, sh, r, rfl, hr, rfl⟩ |
    ⟨w, order, k, sh, rfl, hw, rfl⟩ | ⟨c, sh, wr, rfl, hw, rfl⟩ | ⟨rfl, rfl⟩ := step_cases h
  case inr.inr.inr.inr.inr.inl => exact (writerMove_of_step hw).wire
  all_goals exact List.prefix_rfl

theorem sent_invariant (cfg : MuxConfig) (x : StreamId) :
    (peered cfg x).Invariant anyStep Sent := by
  have hreceived : (peered cfg x).Invariant anyStep
      (fun s => s.received ≤ s.mux.writer.wire.length) := by
    apply Invariant.of_step
    · exact Nat.zero_le _
    · intro s a s' hI _ hs
      obtain ⟨f, -, -, rfl⟩ | ⟨f, rest, m, -, -, hm, rfl⟩ | ⟨o, -, ho, rfl⟩ |
        ⟨b, m, -, -, hm, rfl⟩ := peeredStep_cases hs
      · exact hI
      · exact hI.trans (step_wire hm).length_le
      · exact (List.getElem?_eq_some_iff.1 ho).1
      · exact hI.trans (step_wire hm).length_le
  intro as s hrun hm
  exact ⟨sound_of_reaches (peered_reaches cfg x as s hrun hm), hreceived as s hrun hm⟩

/-- The peer receives the next frame of the wire. -/
theorem wireGrants_receive {wr : Writer} {received : Nat} {o : Outgoing} (x : StreamId)
    (h : wr.wire[received]? = some o) :
    wireGrants x received wr = o.grant x + wireGrants x (received + 1) wr := by
  obtain ⟨hlt, heq⟩ := List.getElem?_eq_some_iff.1 h
  unfold wireGrants
  rw [List.drop_eq_getElem_cons hlt, heq, List.map_cons, List.sum_cons]

end KubePortForward.Mux

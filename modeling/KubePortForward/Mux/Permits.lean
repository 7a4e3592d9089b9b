import KubePortForward.Verified.Simulation
import KubePortForward.Verified.Totals
import KubePortForward.Mux.Ownership
import KubePortForward.Mux.Pipeline

/-!
# Slots that are reserved

A stream that is realized reserves, in the bounded channels of its connection, the slots
that its guard will need: two of the control channel, and one of the close channel of each
worker that has one of its streams.  A writer reserves a slot of the command channel before
it looks at its window.  A slot is used by a send, given back by a drop, or given back by a
realization that fails half way.

## Main results

* `permits_invariant` — what is reserved in a channel is what the pairs and the realization
  in progress hold.
* `permits_conserved` — so nothing stays reserved when no stream is open.
* `guard_drop_completes` — and `StreamGuard::drop` is never refused, however full the
  channels are.
-/

namespace KubePortForward.Mux

open KubePortForward.Codec
open KubePortForward.Verified.Channel
open KubePortForward.Verified.Totals
open KubePortForward.Verified.Transition

/-! ## Who holds what -/

/-- One slot, if the condition holds. -/
def slotIf (b : Bool) : Nat := if b then 1 else 0

/-- The slot of the command channel. -/
def Pair.cmdPermits (pr : Pair) : Nat := slotIf pr.cmdPermit

/-- The slots of the control channel.  That of the data stream is used by the reset, or
given back at the end after a graceful shutdown. -/
def Pair.controlPermits (pr : Pair) : Nat :=
  match pr.phase with
  | .opened => 2
  | .dropping .releaseCtrlError => 2
  | .dropping .resetData => 1
  | .dropping _ => slotIf pr.gracefulShutdown
  | _ => 0

/-- The slots of the close channel of worker `w`. -/
def Pair.closePermits (w : Shard) (pr : Pair) : Nat :=
  match pr.phase with
  | .opened => slotIf (shardOf pr.errorId = w) + slotIf (shardOf pr.dataId = w)
  | .dropping .releaseCtrlError =>
      slotIf (shardOf pr.errorId = w) + slotIf (shardOf pr.dataId = w)
  | .dropping .resetData => slotIf (shardOf pr.errorId = w) + slotIf (shardOf pr.dataId = w)
  | .dropping .closeError => slotIf (shardOf pr.errorId = w) + slotIf (shardOf pr.dataId = w)
  | .dropping .closeData => slotIf (shardOf pr.dataId = w)
  | _ => 0

/-- What a realization has reserved of the control channel. -/
def RealizePc.controlPermits : RealizePc → Nat
  | .reserveCtrlData => 1
  | .reserveCloseError => 2
  | .reserveCloseData => 2
  | .cleanupError held => min held 2
  | .cleanupData held => min held 2
  | _ => 0

/-- Whether a realization has reserved the slot for the close of its error stream. -/
def RealizePc.holdsClose : RealizePc → Bool
  | .reserveCloseData => true
  | .cleanupError held => decide (3 ≤ held)
  | .cleanupData held => decide (3 ≤ held)
  | _ => false

def controlOf : Option Realize → Nat
  | some z => z.pc.controlPermits
  | none => 0

def closeOf (w : Shard) : Option Realize → Nat
  | some z => slotIf (z.pc.holdsClose && shardOf z.errorId = w)
  | none => 0

structure Permits (s : MuxState) : Prop where
  cmd : HasTotal Pair.cmdPermits s.pairs s.shared.cmd.reserved
  control : ∃ n, HasTotal Pair.controlPermits s.pairs n ∧
    s.shared.control.reserved = n + controlOf s.realizing
  close : ∀ w, ∃ n, HasTotal (Pair.closePermits w) s.pairs n ∧
    (s.shared.closeReg w).reserved = n + closeOf w s.realizing
  /-- Only an open stream has reserved a slot to write, and one that is about to debit its
  window or has done so has. -/
  opened : ∀ p, (s.pairs p).cmdPermit = true → (s.pairs p).phase = .opened
  writing : ∀ p buf, (s.pairs p).write = .recheck buf ∨ (s.pairs p).write = .picked buf ∨
    (s.pairs p).write = .debited buf → (s.pairs p).cmdPermit = true

/-! ## Sends and receives keep what is reserved -/

section Channels

variable {α : Type} {c c' : Chan α} {x : α}

theorem push_reserved (h : c.HasRoom) : (c.push x h).reserved = c.reserved := rfl

theorem trySend_reserved (h : c.trySend x = .ok c') : c'.reserved = c.reserved := by
  obtain ⟨-, hr, rfl⟩ := Chan.trySend_eq_ok.1 h
  exact push_reserved hr

theorem sendOrDrop_reserved (c : Chan α) (x : α) : (c.sendOrDrop x).reserved = c.reserved := by
  unfold Chan.sendOrDrop
  split
  · next h => exact trySend_reserved h
  · rfl

theorem recv_reserved (h : c.recv = some (x, c')) : c'.reserved = c.reserved := by
  unfold Chan.recv at h
  split at h
  · contradiction
  · simp only [Option.some.injEq, Prod.mk.injEq] at h
    rw [← h.2]

theorem tryReserve_reserved (h : c.tryReserve = .ok c') : c'.reserved = c.reserved + 1 := by
  unfold Chan.tryReserve at h
  split at h
  · contradiction
  · split at h
    · cases h
      rfl
    · contradiction

end Channels

/-- Nothing is reserved or given back. -/
structure KeepsReserved (sh sh' : Shared) : Prop where
  cmd : sh'.cmd.reserved = sh.cmd.reserved
  control : sh'.control.reserved = sh.control.reserved
  close : ∀ w, (sh'.closeReg w).reserved = (sh.closeReg w).reserved

theorem KeepsReserved.refl (sh : Shared) : KeepsReserved sh sh := ⟨rfl, rfl, fun _ => rfl⟩

theorem KeepsReserved.trans {sh sh' sh'' : Shared} (h : KeepsReserved sh sh')
    (h' : KeepsReserved sh' sh'') : KeepsReserved sh sh'' :=
  ⟨h'.cmd.trans h.cmd, h'.control.trans h.control, fun w => (h'.close w).trans (h.close w)⟩

theorem keepsReserved_setCloseReg {sh : Shared} {w : Shard} {c : Chan StreamRegistration}
    (h : c.reserved = (sh.closeReg w).reserved) : KeepsReserved sh (sh.setCloseReg w c) := by
  refine ⟨rfl, rfl, fun v => ?_⟩
  show (Function.update sh.closeReg w c v).reserved = _
  by_cases hv : v = w
  · rw [hv, Function.update_self, h]
  · rw [Function.update_of_ne hv]

theorem keepsReserved_sendClose {sh sh' : Shared} {id : StreamId} (h : sh.sendClose id = .ok sh') :
    KeepsReserved sh sh' := by
  unfold Shared.sendClose at h
  split at h
  · next c hsend =>
      cases h
      have hkeeps := keepsReserved_setCloseReg (trySend_reserved hsend)
      exact ⟨hkeeps.cmd, hkeeps.control, hkeeps.close⟩
  · contradiction

theorem keepsReserved_sendCloseOrDrop (sh : Shared) (id : StreamId) :
    KeepsReserved sh (sh.sendCloseOrDrop id) := by
  unfold Shared.sendCloseOrDrop
  split
  · next h => exact keepsReserved_sendClose h
  · exact .refl sh

/-! ## The tasks of the connection -/

theorem reader_keepsReserved {cfg : MuxConfig} {a : ReaderAct} {sh sh' : Shared}
    {r r' : Reader} (h : readerStep cfg a sh r = some (sh', r')) : KeepsReserved sh sh' := by
  cases a <;>
    simp only [readerStep, Reader.receive, Reader.rejectTooLarge, Reader.receiveWsPing,
      Reader.message, Reader.idleProbe, Reader.exit, Reader.step, routeFrame,
      creditSession] at h <;>
    (repeat' split at h) <;>
    first
    | contradiction
    | cases h
      first
      | exact ⟨rfl, rfl, fun _ => rfl⟩
      | exact ⟨rfl, sendOrDrop_reserved _ _, fun _ => rfl⟩
      | exact keepsReserved_setCloseReg (sendOrDrop_reserved _ _)

/-- The calls that a worker makes leave the slots of the control channel alone. -/
def KeepsControl (sh sh' : Shared) : Prop := sh'.control.reserved = sh.control.reserved

theorem keepsControl_sendControl (sh : Shared) (c : MuxCommand) :
    KeepsControl sh (sh.sendControl c) := sendOrDrop_reserved _ _

theorem keepsControl_dropTx? (sh : Shared) (r : Option ChanRef) :
    KeepsControl sh (sh.dropTx? r) := by
  cases r <;> rfl

theorem keepsControl_halfClose (id : StreamId) (k : Worker) (sh : Shared) :
    KeepsControl sh (halfClose id k sh).2 := by
  unfold halfClose
  split
  · exact keepsControl_dropTx? _ _
  · rfl

theorem keepsControl_removeStream (id : StreamId) (k : Worker) (sh : Shared) :
    KeepsControl sh (removeStream id k sh).2 := by
  unfold removeStream
  simp only
  split
  · next st _ => exact keepsControl_dropTx? sh st.dataTx
  · rfl

theorem keepsControl_deliverPayload (n : UInt32) (id : StreamId) (payload : Bytes)
    (k : Worker) (sh : Shared) : KeepsControl sh (deliverPayload n id payload k sh).2.1 := by
  unfold deliverPayload
  split
  · rfl
  · cases k.streams.lookup id with
    | none => exact keepsControl_sendControl _ _
    | some st =>
        cases hst : st.dataTx with
        | none =>
            simp only [hst]
            rfl
        | some r =>
            simp only [hst, creditPeer]
            (repeat' split) <;> first | rfl | exact sendOrDrop_reserved _ _

theorem keepsControl_dispatch (n : UInt32) (frame : Frame) (k : Worker) (sh : Shared) :
    KeepsControl sh (dispatchFrameInWorker n frame k sh).2 := by
  cases frame with
  | data id payload fin =>
      have hdeliver := keepsControl_deliverPayload n id payload k sh
      simp only [dispatchFrameInWorker]
      split
      · exact hdeliver
      · split
        · exact (keepsControl_halfClose _ _ _).trans hdeliver
        · exact hdeliver
  | synReply id headers fin =>
      have hanswer : KeepsControl sh (answerReply id k sh).2 := by
        unfold answerReply
        (repeat' split) <;> first | rfl | exact sendOrDrop_reserved _ _
      simp only [dispatchFrameInWorker]
      split
      · exact (keepsControl_halfClose _ _ _).trans hanswer
      · exact hanswer
  | rstStream id status => exact keepsControl_removeStream id k sh
  | windowUpdate id delta =>
      simp only [dispatchFrameInWorker]
      split <;> rfl
  | _ => rfl

theorem keepsControl_refuseStreams (ids : List StreamId) (k : Worker) (sh : Shared) :
    KeepsControl sh (refuseStreams ids k sh).2 := by
  induction ids generalizing k sh with
  | nil => rfl
  | cons id rest ih =>
      have hremove := keepsControl_removeStream id k sh
      exact (ih _ _).trans ((keepsControl_sendControl _ _).trans hremove)

theorem keepsControl_applyRegistration {order : List StreamId} {reg : StreamRegistration}
    {k k' : Worker} {sh sh' : Shared} (h : applyRegistration order reg k sh = some (k', sh')) :
    KeepsControl sh sh' := by
  unfold applyRegistration at h
  cases reg with
  | openStream id r =>
      cases h
      exact keepsControl_dropTx? _ _
  | close id =>
      cases h
      exact keepsControl_removeStream id k sh
  | settingsWindowDelta delta =>
      cases h
      rfl
  | goAway last status =>
      simp only at h
      split at h
      · rw [Option.some.injEq] at h
        have hrefuse := keepsControl_refuseStreams order k sh
        rwa [h] at hrefuse
      · contradiction

theorem WorkerMove.keepsReserved {cfg : MuxConfig} {order : List StreamId} {w : Shard}
    {k k' : Worker} {sh sh' : Shared} (h : WorkerMove cfg order w k sh k' sh') :
    KeepsReserved sh sh' := by
  cases h with
  | takeClose pc hpc hfrom hrecv happly =>
      have hcall := applyRegistration_callFootprint happly
      have hcontrol := keepsControl_applyRegistration happly
      refine (keepsReserved_setCloseReg (recv_reserved hrecv)).trans
        ⟨by rw [hcall.cmd], hcontrol, fun v => by rw [hcall.closeReg]⟩
  | takeReg pc hpc hfrom hrecv happly =>
      have hcall := applyRegistration_callFootprint happly
      have hcontrol := keepsControl_applyRegistration happly
      exact ⟨by rw [hcall.cmd]; rfl, hcontrol, fun v => by rw [hcall.closeReg]; rfl⟩
  | @takeFrame frame c hpc hrecv =>
      have hcall := dispatch_callFootprint cfg.initialWindowSize frame
        { k with pc := .drainClose } (sh.setFrames w c)
      exact ⟨by rw [hcall.cmd]; rfl, keepsControl_dispatch _ _ _ _,
        fun v => by rw [hcall.closeReg]; rfl⟩
  | move pc hfrom hto => exact .refl sh
  | shutdown hpc =>
      have hcall := closeAll_callFootprint k sh
      refine ⟨by rw [hcall.cmd], ?_, fun v => by rw [hcall.closeReg]⟩
      exact congrArg Chan.reserved (foldl_dropTx_control _ sh)
  | exit hpc =>
      have hcall := foldl_dropTx_callFootprint (queuedSenders (sh.reg w).queue) sh
      have hcontrol := foldl_dropTx_control (queuedSenders (sh.reg w).queue) sh
      unfold dropReceivers
      generalize (queuedSenders (sh.reg w).queue).foldl Shared.dropTx sh = sh₁ at hcall hcontrol
      have hclose : KeepsReserved sh₁ (sh₁.setCloseReg w (sh₁.closeReg w).closeReceiver) :=
        keepsReserved_setCloseReg rfl
      have hsame : KeepsReserved sh sh₁ :=
        ⟨by rw [hcall.cmd], by rw [hcontrol], fun v => by rw [hcall.closeReg]⟩
      refine hsame.trans ?_
      exact ⟨rfl, rfl, hclose.close⟩

theorem WriterMove.keepsReserved {sh sh' : Shared} {wr wr' : Writer}
    (h : WriterMove sh wr sh' wr') : KeepsReserved sh sh' := by
  cases h with
  | emit hout => exact .refl sh
  | fail => exact ⟨rfl, rfl, fun _ => rfl⟩
  | takeWindow hout hheld hlive hrecv => exact ⟨rfl, rfl, fun _ => rfl⟩
  | takeControl hout hheld hlive hpc hrecv hpolls => exact ⟨rfl, recv_reserved hrecv, fun _ => rfl⟩
  | takeCmd left hout hheld hlive hrecv => exact ⟨recv_reserved hrecv, rfl, fun _ => rfl⟩
  | hold hout hheld hlive hrecv => exact ⟨recv_reserved hrecv, rfl, fun _ => rfl⟩
  | processHeld hout hpc => exact .refl sh
  | own f hout hheld hlive hframe hout' hheld' hlive' hwire hfailed hcloses => exact .refl sh
  | move cancelled hout hheld hlive hout' hheld' hwire hfailed hcancel =>
      exact ⟨rfl, rfl, fun _ => rfl⟩
  | sendClose hout hpc hsend => exact keepsReserved_sendClose hsend
  | exit hout hpc => exact ⟨rfl, rfl, fun _ => rfl⟩

/-! ## Owners of pairs -/

/-- Slots to write are reserved by open streams, and by every write past its choice. -/
structure PairPermits (pr : Pair) : Prop where
  opened : pr.cmdPermit = true → pr.phase = .opened
  writing : ∀ buf, pr.write = .recheck buf ∨ pr.write = .picked buf ∨ pr.write = .debited buf →
    pr.cmdPermit = true

/-- A step of the owner reserves and gives back what the pair holds more or less. -/
structure PermitMove (sh : Shared) (pr : Pair) (sh' : Shared) (pr' : Pair) : Prop where
  cmd : sh'.cmd.reserved + pr.cmdPermits = sh.cmd.reserved + pr'.cmdPermits
  control : sh'.control.reserved + pr.controlPermits = sh.control.reserved + pr'.controlPermits
  close : ∀ w, (sh'.closeReg w).reserved + pr.closePermits w =
    (sh.closeReg w).reserved + pr'.closePermits w
  pair : PairPermits pr'

/-- The pair has no guard, so it holds no slot of the control and close channels. -/
def PairPhase.unguarded : PairPhase → Bool
  | .opened => false
  | .dropping _ => false
  | _ => true

theorem controlPermits_unguarded {pr : Pair} (h : pr.phase.unguarded = true) :
    pr.controlPermits = 0 := by
  unfold Pair.controlPermits
  cases hphase : pr.phase <;> simp_all [PairPhase.unguarded]

theorem closePermits_unguarded {pr : Pair} (h : pr.phase.unguarded = true) (w : Shard) :
    pr.closePermits w = 0 := by
  unfold Pair.closePermits
  cases hphase : pr.phase <;> simp_all [PairPhase.unguarded]

section

variable {cfg : MuxConfig} {p : Nat} {sh sh' : Shared} {pr pr' : Pair}

theorem PermitMove.of_unguarded (hkeeps : KeepsReserved sh sh') (h : pr.phase.unguarded = true)
    (h' : pr'.phase.unguarded = true) (hcmd : pr'.cmdPermit = pr.cmdPermit)
    (hpair : PairPermits pr') : PermitMove sh pr sh' pr' where
  cmd := by rw [hkeeps.cmd, Pair.cmdPermits, Pair.cmdPermits, hcmd]
  control := by rw [hkeeps.control, controlPermits_unguarded h, controlPermits_unguarded h']
  close := fun w => by
    rw [hkeeps.close w, closePermits_unguarded h, closePermits_unguarded h']
  pair := hpair

/-- Nothing that the slots are counted by changes. -/
theorem PermitMove.of_same (hkeeps : KeepsReserved sh sh') (hphase : pr'.phase = pr.phase)
    (herror : pr'.errorId = pr.errorId) (hdata : pr'.dataId = pr.dataId)
    (hgraceful : pr'.gracefulShutdown = pr.gracefulShutdown) (hcmd : pr'.cmdPermit = pr.cmdPermit)
    (hpair : PairPermits pr') : PermitMove sh pr sh' pr' where
  cmd := by rw [hkeeps.cmd, Pair.cmdPermits, Pair.cmdPermits, hcmd]
  control := by
    rw [hkeeps.control, Pair.controlPermits, Pair.controlPermits, hphase, hgraceful]
  close := fun w => by
    rw [hkeeps.close w, Pair.closePermits, Pair.closePermits, hphase, herror, hdata]
  pair := hpair

/-- Only the slot of the command channel changes hands. -/
theorem PermitMove.of_cmd (hcmd : sh'.cmd.reserved + pr.cmdPermits =
      sh.cmd.reserved + pr'.cmdPermits) (hcontrol : sh'.control = sh.control)
    (hclose : sh'.closeReg = sh.closeReg) (hphase : pr'.phase = pr.phase)
    (herror : pr'.errorId = pr.errorId) (hdata : pr'.dataId = pr.dataId)
    (hgraceful : pr'.phase = .opened ∨ pr'.gracefulShutdown = pr.gracefulShutdown)
    (hpair : PairPermits pr') : PermitMove sh pr sh' pr' where
  cmd := hcmd
  control := by
    rw [hcontrol]
    rcases hgraceful with hopened | hgraceful
    · rw [Pair.controlPermits, Pair.controlPermits, ← hphase, hopened]
    · rw [Pair.controlPermits, Pair.controlPermits, hphase, hgraceful]
  close := fun w => by
    rw [hclose, Pair.closePermits, Pair.closePermits, hphase, herror, hdata]
  pair := hpair

theorem PairPermits.idle (h : PairPermits pr) (hphase : pr'.phase = pr.phase)
    (hcmd : pr'.cmdPermit = pr.cmdPermit) (hwrite : pr'.write = .idle) : PairPermits pr' where
  opened := by
    rw [hcmd, hphase]
    exact h.opened
  writing := fun buf hw => by
    rw [hwrite] at hw
    rcases hw with hw | hw | hw <;> cases hw

/-- A write that has its slot. -/
theorem PairPermits.permitted (h : PairPermits pr) (hphase : pr'.phase = pr.phase)
    (hcmd : pr'.cmdPermit = pr.cmdPermit) (hpermit : pr.cmdPermit = true) : PairPermits pr' where
  opened := by
    rw [hcmd, hphase]
    exact h.opened
  writing := fun _ _ => hcmd.trans hpermit

theorem PairPermits.congr (h : PairPermits pr) (hphase : pr'.phase = pr.phase)
    (hcmd : pr'.cmdPermit = pr.cmdPermit) (hwrite : pr'.write = pr.write) : PairPermits pr' where
  opened := by
    rw [hcmd, hphase]
    exact h.opened
  writing := fun buf hw => by
    rw [hcmd]
    rw [hwrite] at hw
    exact h.writing buf hw

/-- A pair whose slot to write was never reserved. -/
theorem PairPermits.unguarded (h : PairPermits pr) (hphase : pr.phase ≠ .opened)
    (hcmd : pr'.cmdPermit = pr.cmdPermit) (hwrite : pr'.write = pr.write) : PairPermits pr' where
  opened := fun hpermit => absurd (h.opened (hcmd ▸ hpermit)) hphase
  writing := fun buf hw => by
    rw [hcmd]
    rw [hwrite] at hw
    exact h.writing buf hw

theorem openBegin_permitMove {eh dh : Headers} (hpair : PairPermits pr)
    (h : pr.openBegin eh dh sh = some (sh', pr')) : PermitMove sh pr sh' pr' := by
  unfold Pair.openBegin at h
  split at h
  · next hphase =>
      have hun : pr.phase.unguarded = true := by rw [hphase]; rfl
      have hne : pr.phase ≠ .opened := by rw [hphase]; simp
      split at h <;> cases h
      · exact .of_unguarded (.refl sh) hun rfl rfl (hpair.unguarded hne rfl rfl)
      · exact .of_unguarded ⟨rfl, rfl, fun _ => rfl⟩ hun rfl rfl (hpair.unguarded hne rfl rfl)
  · contradiction

theorem openStep_permitMove (hpair : PairPermits pr)
    (h : pr.openStep cfg p sh = some (sh', pr')) : PermitMove sh pr sh' pr' := by
  have hmove : ∀ {sh₁ : Shared} {pr₁ : Pair}, KeepsReserved sh sh₁ → pr.phase.unguarded = true →
      pr₁.phase.unguarded = true → pr₁.cmdPermit = pr.cmdPermit → pr₁.write = pr.write →
      PermitMove sh pr sh₁ pr₁ := by
    intro sh₁ pr₁ hkeeps hun hun' hcmd hwrite
    refine .of_unguarded hkeeps hun hun' hcmd (hpair.unguarded ?_ hcmd hwrite)
    intro hopened
    rw [hopened] at hun
    cases hun
  unfold Pair.openStep at h
  split at h
  · next prev hphase =>
      split at h <;> cases h <;> exact hmove (.refl sh) (by rw [hphase]; rfl) rfl rfl rfl
  · next prev hphase =>
      split at h <;> cases h <;> exact hmove (.refl sh) (by rw [hphase]; rfl) rfl rfl rfl
  · next hphase =>
      cases h
      exact hmove ⟨rfl, rfl, fun _ => rfl⟩ (by rw [hphase]; rfl) rfl rfl rfl
  · next hphase =>
      cases h
      exact hmove ⟨rfl, rfl, fun _ => rfl⟩ (by rw [hphase]; rfl) rfl rfl rfl
  · contradiction

theorem read_permitMove {kind : HalfKind} {n : Nat} (hpair : PairPermits pr)
    (h : pr.read p kind n sh = some (sh', pr')) : PermitMove sh pr sh' pr' := by
  simp only [Pair.read] at h
  split at h
  · split at h
    · cases h
      cases kind <;>
        exact .of_same ⟨rfl, rfl, fun _ => rfl⟩ rfl rfl rfl rfl rfl (hpair.congr rfl rfl rfl)
    · contradiction
  · contradiction

theorem fillBuf_permitMove (hpair : PairPermits pr) (h : pr.fillBuf p sh = some (sh', pr')) :
    PermitMove sh pr sh' pr' := by
  simp only [Pair.fillBuf] at h
  split at h
  · cases h
    exact .of_same ⟨rfl, rfl, fun _ => rfl⟩ rfl rfl rfl rfl rfl (hpair.congr rfl rfl rfl)
  · contradiction

theorem consume_permitMove {amt : Nat} (hpair : PairPermits pr)
    (h : pr.consume p amt sh = some (sh', pr')) : PermitMove sh pr sh' pr' := by
  simp only [Pair.consume] at h
  split at h
  · cases h
    exact .of_same (.refl sh) rfl rfl rfl rfl rfl (hpair.congr rfl rfl rfl)
  · contradiction

theorem dropReceiver_permitMove {kind : HalfKind} (hpair : PairPermits pr)
    (h : pr.dropReceiver p kind sh = some (sh', pr')) : PermitMove sh pr sh' pr' := by
  unfold Pair.dropReceiver at h
  split at h
  · cases h
    exact .of_same ⟨rfl, rfl, fun _ => rfl⟩ rfl rfl rfl rfl rfl (hpair.congr rfl rfl rfl)
  · contradiction

theorem writeBegin_permitMove {buf : Bytes} (hpair : PairPermits pr)
    (h : pr.writeBegin buf sh = some (sh', pr')) : PermitMove sh pr sh' pr' := by
  unfold Pair.writeBegin at h
  split at h
  · cases h
    refine .of_same (.refl sh) rfl rfl rfl rfl rfl ⟨hpair.opened, ?_⟩
    rintro buf (hw | hw | hw) <;> cases hw
  · contradiction

theorem writeReserve_permitMove (hpair : PairPermits pr)
    (h : pr.writeReserve sh = some (sh', pr')) : PermitMove sh pr sh' pr' := by
  unfold Pair.writeReserve at h
  split at h
  · next hfree =>
      have hnone : pr.cmdPermits = 0 := by rw [Pair.cmdPermits, hfree.2]; rfl
      have hreserve : ∀ c, sh.cmd.tryReserve = .ok c →
          PermitMove sh pr { sh with cmd := c } { pr with cmdPermit := true } := by
        intro c hc
        refine .of_cmd ?_ rfl rfl rfl rfl rfl (.inr rfl) ⟨fun _ => hfree.1, fun _ _ => rfl⟩
        rw [hnone]
        exact tryReserve_reserved hc
      split at h
      · next c hw hc =>
          cases h
          exact hreserve c hc
      · next buf c hw hc =>
          cases h
          exact hreserve c hc
      · next hw hc =>
          cases h
          exact .of_same (.refl sh) rfl rfl rfl rfl rfl (hpair.idle rfl rfl rfl)
      · contradiction
  · contradiction

theorem writePick_permitMove (hpair : PairPermits pr) (h : pr.writePick sh = some (sh', pr')) :
    PermitMove sh pr sh' pr' := by
  unfold Pair.writePick at h
  split at h
  · split at h
    · next hpermit =>
        simp only at h
        split at h <;> cases h <;>
          exact .of_same ⟨rfl, rfl, fun _ => rfl⟩ rfl rfl rfl rfl rfl (hpair.permitted rfl rfl hpermit)
    · contradiction
  · contradiction

theorem writeRecheck_permitMove (hpair : PairPermits pr)
    (h : pr.writeRecheck sh = some (sh', pr')) : PermitMove sh pr sh' pr' := by
  unfold Pair.writeRecheck at h
  split at h
  · next buf hw =>
      simp only at h
      split at h <;> cases h
      · exact .of_same (.refl sh) rfl rfl rfl rfl rfl (hpair.idle rfl rfl rfl)
      · exact .of_same (.refl sh) rfl rfl rfl rfl rfl
          (hpair.permitted rfl rfl (hpair.writing buf (.inl hw)))
  · contradiction

theorem writeDebit_permitMove (hpair : PairPermits pr) (h : pr.writeDebit sh = some (sh', pr')) :
    PermitMove sh pr sh' pr' := by
  unfold Pair.writeDebit at h
  split at h
  · next payload hw =>
      split at h <;> cases h
      · exact .of_same ⟨rfl, rfl, fun _ => rfl⟩ rfl rfl rfl rfl rfl
          (hpair.permitted rfl rfl (hpair.writing payload (.inr (.inl hw))))
      · exact .of_same (.refl sh) rfl rfl rfl rfl rfl (hpair.idle rfl rfl rfl)
  · contradiction

theorem writeSend_permitMove (hpair : PairPermits pr) (h : pr.writeSend sh = some (sh', pr')) :
    PermitMove sh pr sh' pr' := by
  unfold Pair.writeSend at h
  split at h
  · next payload hw =>
      have hpermit := hpair.writing payload (.inr (.inr hw))
      split at h
      · next hpos =>
          cases h
          refine .of_cmd ?_ rfl rfl rfl rfl rfl (.inr rfl) ⟨fun hp => (by cases hp), ?_⟩
          · rw [Pair.cmdPermits, hpermit]
            show sh.cmd.reserved - 1 + 1 = sh.cmd.reserved + 0
            omega
          · rintro buf (hw | hw | hw) <;> cases hw
      · contradiction
  · contradiction

theorem shutdown_permitMove (h : pr.shutdown sh = some (sh', pr')) :
    PermitMove sh pr sh' pr' := by
  unfold Pair.shutdown at h
  split at h
  · next hfree =>
      obtain ⟨hphase, hpermit, hidle, -⟩ := hfree
      split at h
      · next hpos =>
          cases h
          refine .of_cmd ?_ rfl rfl rfl rfl rfl (.inl hphase) ⟨fun hp => (by cases hp), ?_⟩
          · rw [Pair.cmdPermits, hpermit]
            show sh.cmd.reserved - 1 + 1 = sh.cmd.reserved + 0
            omega
          · rintro buf (hw | hw | hw) <;> exact absurd (hidle.symm.trans hw) (by simp)
      · contradiction
  · contradiction

/-- Whatever an idle pair whose slot to write is gone or was never reserved becomes. -/
theorem PairPermits.spent (hcmd : pr.cmdPermit = false) (hidle : pr.write = .idle) :
    PairPermits pr where
  opened := fun hpermit => by
    rw [hcmd] at hpermit
    cases hpermit
  writing := fun buf hw => by
    rw [hidle] at hw
    rcases hw with hw | hw | hw <;> cases hw

theorem dropRest_permitMove (hpair : PairPermits pr) (hcmd : pr.cmdPermits ≤ sh.cmd.reserved)
    (h : pr.dropRest p sh = some (sh', pr')) : PermitMove sh pr sh' pr' := by
  unfold Pair.dropRest at h
  split at h
  · next hgone =>
      have hidle := hgone.2.2
      split at h
      · next hphase =>
          cases h
          exact .of_unguarded ⟨rfl, rfl, fun _ => rfl⟩ (by rw [hphase]; rfl) rfl rfl
            (hpair.unguarded (by rw [hphase]; simp) rfl rfl)
      · next hphase =>
          cases h
          exact .of_unguarded ⟨rfl, rfl, fun _ => rfl⟩ (by rw [hphase]; rfl) rfl rfl
            (hpair.unguarded (by rw [hphase]; simp) rfl rfl)
      · next hphase =>
          cases h
          have hspent : PairPermits { pr with
              phase := .dropping .releaseCtrlError, cmdPermit := false } := .spent rfl hidle
          refine ⟨?_, ?_, ?_, hspent⟩
          · cases hpermit : pr.cmdPermit with
            | false =>
                rw [Pair.cmdPermits, hpermit]
                rfl
            | true =>
                rw [Pair.cmdPermits, hpermit] at hcmd ⊢
                show sh.cmd.reserved - 1 + 1 = sh.cmd.reserved + 0
                have hone : slotIf true = 1 := rfl
                omega
          · have hctrl : pr.controlPermits = 2 := by rw [Pair.controlPermits, hphase]
            rw [hctrl]
            split <;> rfl
          · intro w
            rw [Pair.closePermits, hphase]
            split <;> rfl
      · contradiction
  · contradiction

/-- A close is sent through its slot. -/
theorem sendReservedClose_reserved {id : StreamId} (h : sh.sendReservedClose id = some sh') :
    sh'.cmd = sh.cmd ∧ sh'.control = sh.control ∧
      ∀ w, (sh'.closeReg w).reserved + slotIf (shardOf id = w) = (sh.closeReg w).reserved := by
  unfold Shared.sendReservedClose at h
  split at h
  · next hpos =>
      cases h
      refine ⟨rfl, rfl, fun w => ?_⟩
      show (Function.update sh.closeReg (shardOf id) _ w).reserved + _ = _
      by_cases hw : w = shardOf id
      · subst hw
        rw [Function.update_self, slotIf, if_pos (by simp)]
        show (sh.closeReg (shardOf id)).reserved - 1 + 1 = _
        omega
      · rw [Function.update_of_ne hw, slotIf, if_neg (by simpa using fun h => hw h.symm)]
        rfl
  · contradiction

theorem dropStep_permitMove (hpair : PairPermits pr)
    (hcontrol : pr.controlPermits ≤ sh.control.reserved)
    (h : pr.dropStep sh = some (sh', pr')) : PermitMove sh pr sh' pr' := by
  have hmove : ∀ {sh₁ : Shared} {phase : PairPhase}, pr.phase ≠ .opened → sh₁.cmd = sh.cmd →
      sh₁.control.reserved + pr.controlPermits =
        sh.control.reserved + { pr with phase := phase }.controlPermits →
      (∀ w, (sh₁.closeReg w).reserved + pr.closePermits w =
        (sh.closeReg w).reserved + { pr with phase := phase }.closePermits w) →
      PermitMove sh pr sh₁ { pr with phase := phase } := by
    intro sh₁ phase hne hcmd hctrl hclose
    exact ⟨by rw [hcmd]; rfl, hctrl, hclose, hpair.unguarded hne rfl rfl⟩
  unfold Pair.dropStep at h
  split at h
  · next hphase =>
      cases h
      have hctrl : pr.controlPermits = 2 := by rw [Pair.controlPermits, hphase]
      refine hmove (by rw [hphase]; simp) rfl ?_ fun w => by rw [Pair.closePermits, hphase]; rfl
      rw [hctrl] at hcontrol ⊢
      show sh.control.reserved - 1 + 2 = sh.control.reserved + 1
      omega
  · next hphase =>
      have hctrl : pr.controlPermits = 1 := by rw [Pair.controlPermits, hphase]
      have hclose : ∀ w, pr.closePermits w =
          { pr with phase := .dropping .closeError }.closePermits w := by
        intro w
        rw [Pair.closePermits, hphase]
        rfl
      split at h
      · next hgraceful =>
          cases h
          refine hmove (by rw [hphase]; simp) rfl ?_ fun w => by rw [hclose]
          rw [hctrl]
          show _ = sh.control.reserved + slotIf pr.gracefulShutdown
          rw [hgraceful]
          rfl
      · next hgraceful =>
          split at h
          · next hpos =>
              cases h
              refine hmove (by rw [hphase]; simp) rfl ?_ fun w => by rw [hclose]
              rw [hctrl]
              show sh.control.reserved - 1 + 1 = sh.control.reserved + slotIf pr.gracefulShutdown
              rw [slotIf, if_neg hgraceful]
              omega
          · contradiction
  · next hphase =>
      obtain ⟨sh₁, hsend, heq⟩ := Option.map_eq_some_iff.mp h
      cases heq
      obtain ⟨hcmd, hctrl, hsent⟩ := sendReservedClose_reserved hsend
      refine hmove (by rw [hphase]; simp) hcmd ?_ fun w => ?_
      · rw [hctrl, Pair.controlPermits, hphase]
        rfl
      · rw [Pair.closePermits, hphase, ← hsent w]
        show _ + (_ + _) = _ + _ + slotIf (shardOf pr.dataId = w)
        omega
  · next hphase =>
      obtain ⟨sh₁, hsend, heq⟩ := Option.map_eq_some_iff.mp h
      cases heq
      obtain ⟨hcmd, hctrl, hsent⟩ := sendReservedClose_reserved hsend
      refine hmove (by rw [hphase]; simp) hcmd ?_ fun w => ?_
      · rw [hctrl, Pair.controlPermits, hphase]
        rfl
      · rw [Pair.closePermits, hphase, ← hsent w]
        rfl
  · next hphase =>
      cases h
      refine hmove (by rw [hphase]; simp) rfl ?_ fun w => ?_
      · rw [Pair.controlPermits, hphase]
        rfl
      · rw [Pair.closePermits, hphase]
        rfl
  · next hphase =>
      cases h
      have hctrl : pr.controlPermits = slotIf pr.gracefulShutdown := by
        rw [Pair.controlPermits, hphase]
      refine hmove (by rw [hphase]; simp) (by split <;> rfl) ?_ fun w => ?_
      · rw [hctrl] at hcontrol ⊢
        cases hgraceful : pr.gracefulShutdown with
        | false => rfl
        | true =>
            rw [hgraceful] at hcontrol
            show sh.control.reserved - 1 + 1 = sh.control.reserved + 0
            have hone : slotIf true = 1 := rfl
            omega
      · rw [Pair.closePermits, hphase]
        split <;> rfl
  · contradiction

theorem client_permitMove {a : ClientAct} (hpair : PairPermits pr)
    (hcmd : pr.cmdPermits ≤ sh.cmd.reserved) (hcontrol : pr.controlPermits ≤ sh.control.reserved)
    (h : clientStep cfg p a sh pr = some (sh', pr')) : PermitMove sh pr sh' pr' := by
  cases a with
  | openBegin eh dh => exact openBegin_permitMove hpair h
  | openStep => exact openStep_permitMove hpair h
  | read kind n => exact read_permitMove hpair h
  | fillBuf => exact fillBuf_permitMove hpair h
  | consume amt => exact consume_permitMove hpair h
  | writeBegin buf => exact writeBegin_permitMove hpair h
  | writeReserve => exact writeReserve_permitMove hpair h
  | writePick => exact writePick_permitMove hpair h
  | writeRecheck => exact writeRecheck_permitMove hpair h
  | writeDebit => exact writeDebit_permitMove hpair h
  | writeSend => exact writeSend_permitMove hpair h
  | shutdown => exact shutdown_permitMove h
  | dropReceiver kind => exact dropReceiver_permitMove hpair h
  | dropRest => exact dropRest_permitMove hpair hcmd h
  | dropStep => exact dropStep_permitMove hpair hcontrol h

end

/-! ## Realizations -/

theorem reserved_setCloseReg (sh : Shared) (v w : Shard) (c : Chan StreamRegistration) :
    ((sh.setCloseReg v c).closeReg w).reserved =
      if v = w then c.reserved else (sh.closeReg w).reserved := by
  show (Function.update sh.closeReg v c w).reserved = _
  by_cases hv : w = v
  · rw [hv, Function.update_self, if_pos rfl]
  · rw [Function.update_of_ne hv, if_neg fun h => hv h.symm]

/-- What a realization that fails gives back is what it has reserved. -/
theorem releaseHeld_reserved (sh : Shared) (id : StreamId) (held : Nat) :
    (sh.releaseHeld id held).cmd = sh.cmd ∧
      (sh.releaseHeld id held).control.reserved = sh.control.reserved - min held 2 ∧
      ∀ w, ((sh.releaseHeld id held).closeReg w).reserved =
        (sh.closeReg w).reserved - slotIf (decide (3 ≤ held) && shardOf id = w) := by
  refine ⟨?_, ?_, fun w => ?_⟩
  · unfold Shared.releaseHeld
    simp only
    split <;> rfl
  · have hcontrol : (sh.releaseHeld id held).control =
        if 2 ≤ held then (if 1 ≤ held then sh.control.releaseReserved else sh.control).releaseReserved
        else if 1 ≤ held then sh.control.releaseReserved else sh.control := by
      unfold Shared.releaseHeld
      simp only
      split <;> rfl
    rw [hcontrol]
    by_cases htwo : 2 ≤ held
    · rw [if_pos htwo, if_pos (by omega), Nat.min_eq_right htwo]
      exact Nat.sub_sub ..
    · rw [if_neg htwo, Nat.min_eq_left (by omega)]
      by_cases hone : 1 ≤ held
      · rw [if_pos hone, show held = 1 by omega]
        rfl
      · rw [if_neg hone, show held = 0 by omega]
        rfl
  · unfold Shared.releaseHeld
    simp only
    by_cases hheld : 3 ≤ held
    · rw [if_pos hheld, reserved_setCloseReg]
      by_cases hw : shardOf id = w
      · subst hw
        rw [if_pos rfl]
        simp [slotIf, hheld]
        rfl
      · rw [if_neg hw]
        simp [slotIf, hw]
    · rw [if_neg hheld]
      simp [slotIf, hheld]

/-- A step of a realization reserves and gives back what it then holds more or less, or
passes it on to the pair. -/
structure RealizeMove (z : Realize) (sh : Shared) (pr : Pair) (sh' : Shared) (pr' : Pair)
    (z' : Option Realize) : Prop where
  cmd : sh'.cmd.reserved = sh.cmd.reserved
  control : sh'.control.reserved + z.pc.controlPermits =
    sh.control.reserved + controlOf z' + pr'.controlPermits
  close : ∀ w, (sh'.closeReg w).reserved + closeOf w (some z) =
    (sh.closeReg w).reserved + closeOf w z' + pr'.closePermits w
  permit : pr'.cmdPermit = pr.cmdPermit
  write : pr'.write = pr.write

section

variable {z : Realize} {sh sh' : Shared} {pr pr' : Pair} {z' : Option Realize}

/-- Nothing is reserved or given back, and the pair is not opened yet. -/
theorem RealizeMove.of_keeps (hkeeps : KeepsReserved sh sh')
    (hun : pr'.phase.unguarded = true) (hcontrol : controlOf z' = z.pc.controlPermits)
    (hclose : ∀ w, closeOf w z' = closeOf w (some z)) (hpermit : pr'.cmdPermit = pr.cmdPermit)
    (hwrite : pr'.write = pr.write) : RealizeMove z sh pr sh' pr' z' where
  cmd := hkeeps.cmd
  control := by rw [hkeeps.control, hcontrol, controlPermits_unguarded hun, Nat.add_zero]
  close := fun w => by rw [hkeeps.close w, hclose, closePermits_unguarded hun, Nat.add_zero]
  permit := hpermit
  write := hwrite

theorem keepsReserved_sendOpen {id : StreamId} {r : ChanRef} (h : sh.sendOpen id r = some sh') :
    KeepsReserved sh sh' := by
  unfold Shared.sendOpen at h
  split at h
  · cases h
    exact ⟨rfl, rfl, fun _ => rfl⟩
  · contradiction

theorem realizeMove_of_step (hphase : pr.phase = .realizing) (herror : pr.errorId = z.errorId)
    (hdata : pr.dataId = z.dataId) (hcontrol : z.pc.controlPermits ≤ sh.control.reserved)
    (hclose : ∀ w, closeOf w (some z) ≤ (sh.closeReg w).reserved)
    (h : z.step sh pr = (sh', pr', z')) : RealizeMove z sh pr sh' pr' z' := by
  have hun : pr.phase.unguarded = true := by rw [hphase]; rfl
  have hnone : ∀ w, z.pc.holdsClose = false → closeOf w (some z) = 0 := by
    intro w hholds
    simp [closeOf, slotIf, hholds]
  have hgoto : ∀ {sh₁ : Shared} (pc : RealizePc), KeepsReserved sh sh₁ →
      pc.controlPermits = z.pc.controlPermits → pc.holdsClose = z.pc.holdsClose →
      RealizeMove z sh pr sh₁ pr (some { z with pc := pc }) := by
    intro sh₁ pc hkeeps hctrl hholds
    refine .of_keeps hkeeps hun hctrl (fun w => ?_) rfl rfl
    simp only [closeOf, hholds]
  have hbroken : ∀ {sh₁ : Shared}, KeepsReserved sh sh₁ → z.pc.controlPermits = 0 →
      z.pc.holdsClose = false → RealizeMove z sh pr sh₁ { pr with phase := .broken } none := by
    intro sh₁ hkeeps hctrl hholds
    exact .of_keeps hkeeps rfl hctrl.symm (fun w => (hnone w hholds).symm) rfl rfl
  unfold Realize.step at h
  cases hpc : z.pc with
  | loadErrorWindow =>
      simp only [hpc] at h
      cases h
      exact hgoto .loadDataWindow ⟨rfl, rfl, fun _ => rfl⟩ (by rw [hpc]; rfl) (by rw [hpc]; rfl)
  | loadDataWindow =>
      simp only [hpc] at h
      cases h
      exact hgoto .registerError ⟨rfl, rfl, fun _ => rfl⟩ (by rw [hpc]; rfl) (by rw [hpc]; rfl)
  | registerError =>
      simp only [hpc] at h
      split at h <;> cases h
      · exact hgoto .registerData (keepsReserved_sendOpen ‹_›) (by rw [hpc]; rfl) (by rw [hpc]; rfl)
      · exact hbroken ⟨rfl, rfl, fun _ => rfl⟩ (by rw [hpc]; rfl) (by rw [hpc]; rfl)
  | registerData =>
      simp only [hpc] at h
      split at h <;> cases h
      · exact hgoto .enqueueOpen (keepsReserved_sendOpen ‹_›) (by rw [hpc]; rfl) (by rw [hpc]; rfl)
      · exact hgoto .cleanupErrorOnly ⟨rfl, rfl, fun _ => rfl⟩ (by rw [hpc]; rfl) (by rw [hpc]; rfl)
  | enqueueOpen =>
      simp only [hpc] at h
      split at h <;> cases h
      · exact hgoto .reserveCtrlError ⟨trySend_reserved ‹_›, rfl, fun _ => rfl⟩ (by rw [hpc]; rfl)
          (by rw [hpc]; rfl)
      · exact hgoto (.cleanupError 0) (.refl sh) (by rw [hpc]; rfl) (by rw [hpc]; rfl)
  | reserveCtrlError =>
      simp only [hpc] at h
      split at h <;> cases h
      · next c hreserve =>
          have hnext := tryReserve_reserved hreserve
          refine ⟨rfl, ?_, fun w => ?_, rfl, rfl⟩
          · rw [controlPermits_unguarded hun, hpc]
            show c.reserved + 0 = sh.control.reserved + 1 + 0
            omega
          · rw [closePermits_unguarded hun, hnone w (by rw [hpc]; rfl)]
            rfl
      · exact hgoto (.cleanupError 0) (.refl sh) (by rw [hpc]; rfl) (by rw [hpc]; rfl)
  | reserveCtrlData =>
      simp only [hpc] at h
      split at h <;> cases h
      · next c hreserve =>
          have hnext := tryReserve_reserved hreserve
          refine ⟨rfl, ?_, fun w => ?_, rfl, rfl⟩
          · rw [controlPermits_unguarded hun, hpc]
            show c.reserved + 1 = sh.control.reserved + 2 + 0
            omega
          · rw [closePermits_unguarded hun, hnone w (by rw [hpc]; rfl)]
            rfl
      · exact hgoto (.cleanupError 1) (.refl sh) (by rw [hpc]; rfl) (by rw [hpc]; rfl)
  | reserveCloseError =>
      simp only [hpc] at h
      split at h <;> cases h
      · next c hreserve =>
          have hnext := tryReserve_reserved hreserve
          refine ⟨rfl, ?_, fun w => ?_, rfl, rfl⟩
          · rw [controlPermits_unguarded hun, hpc]
            rfl
          · rw [closePermits_unguarded hun, hnone w (by rw [hpc]; rfl), reserved_setCloseReg, hnext]
            show _ = _ + slotIf (true && shardOf z.errorId = w) + 0
            by_cases hw : shardOf z.errorId = w
            · subst hw
              simp [slotIf]
            · simp [slotIf, hw]
      · exact hgoto (.cleanupError 2) (.refl sh) (by rw [hpc]; rfl) (by rw [hpc]; rfl)
  | reserveCloseData =>
      simp only [hpc] at h
      split at h <;> cases h
      · next c hreserve =>
          have hnext := tryReserve_reserved hreserve
          refine ⟨rfl, ?_, fun w => ?_, rfl, rfl⟩
          · rw [hpc]
            rfl
          · rw [reserved_setCloseReg, hnext]
            have hself : closeOf w (some z) = slotIf (shardOf z.errorId = w) := by
              simp [closeOf, hpc, RealizePc.holdsClose]
            rw [hself]
            show _ = _ + 0 + (slotIf (shardOf pr.errorId = w) + slotIf (shardOf pr.dataId = w))
            rw [herror, hdata]
            by_cases hw : shardOf z.dataId = w
            · subst hw
              rw [if_pos rfl, show slotIf (shardOf z.dataId = shardOf z.dataId) = 1 by simp [slotIf]]
              omega
            · rw [if_neg hw, show slotIf (shardOf z.dataId = w) = 0 by simp [slotIf, hw]]
              omega
      · exact hgoto (.cleanupError 3) (.refl sh) (by rw [hpc]; rfl) (by rw [hpc]; rfl)
  | cleanupErrorOnly =>
      simp only [hpc] at h
      cases h
      exact hbroken (keepsReserved_sendCloseOrDrop _ _) (by rw [hpc]; rfl) (by rw [hpc]; rfl)
  | cleanupError held =>
      simp only [hpc] at h
      cases h
      exact hgoto (.cleanupData held) (keepsReserved_sendCloseOrDrop _ _) (by rw [hpc]; rfl)
        (by rw [hpc]; rfl)
  | cleanupData held =>
      simp only [hpc] at h
      cases h
      have hkeeps := keepsReserved_sendCloseOrDrop sh z.dataId
      obtain ⟨hcmd, hctrl, hcls⟩ := releaseHeld_reserved (sh.sendCloseOrDrop z.dataId) z.errorId held
      rw [hpc] at hcontrol
      have hheld : min held 2 ≤ sh.control.reserved := hcontrol
      refine ⟨by rw [hcmd, hkeeps.cmd], ?_, fun w => ?_, rfl, rfl⟩
      · rw [hctrl, hkeeps.control, hpc]
        show sh.control.reserved - min held 2 + min held 2 = sh.control.reserved + 0 + 0
        omega
      · have hself : closeOf w (some z) = slotIf (decide (3 ≤ held) && shardOf z.errorId = w) := by
          simp only [closeOf, hpc, RealizePc.holdsClose]
        have hle := hclose w
        rw [hself] at hle ⊢
        rw [hcls, hkeeps.close]
        show _ = (sh.closeReg w).reserved + 0 + 0
        omega

end

/-! ## The invariant -/

theorem permits_init (cfg : MuxConfig) : Permits (MuxState.init cfg) where
  cmd := .zero fun _ => rfl
  control := ⟨0, .zero fun _ => rfl, rfl⟩
  close := fun _ => ⟨0, .zero fun _ => rfl, rfl⟩
  opened := fun _ h => by cases h
  writing := fun _ _ h => by rcases h with h | h | h <;> cases h

section

variable {s s' : MuxState}

theorem Permits.pair (hI : Permits s) (p : Nat) : PairPermits (s.pairs p) :=
  ⟨hI.opened p, hI.writing p⟩

theorem Permits.control_le (hI : Permits s) (p : Nat) :
    (s.pairs p).controlPermits + controlOf s.realizing ≤ s.shared.control.reserved := by
  obtain ⟨n, htotal, hreserved⟩ := hI.control
  have hle := htotal.le p
  omega

theorem Permits.close_le (hI : Permits s) (p : Nat) (w : Shard) :
    (s.pairs p).closePermits w + closeOf w s.realizing ≤ (s.shared.closeReg w).reserved := by
  obtain ⟨n, htotal, hreserved⟩ := hI.close w
  have hle := htotal.le p
  omega

theorem Permits.keeps (hI : Permits s) (hkeeps : KeepsReserved s.shared s'.shared)
    (hpairs : s'.pairs = s.pairs) (hrealizing : s'.realizing = s.realizing) : Permits s' where
  cmd := by rw [hpairs, hkeeps.cmd]; exact hI.cmd
  control := by rw [hpairs, hkeeps.control, hrealizing]; exact hI.control
  close := fun w => by rw [hpairs, hkeeps.close, hrealizing]; exact hI.close w
  opened := by rw [hpairs]; exact hI.opened
  writing := by rw [hpairs]; exact hI.writing

/-- One pair changes, and the realization in progress. -/
theorem Permits.put (hI : Permits s) {p : Nat} {sh : Shared} {pr : Pair} {z : Option Realize}
    (hcmd : sh.cmd.reserved + (s.pairs p).cmdPermits = s.shared.cmd.reserved + pr.cmdPermits)
    (hcontrol : sh.control.reserved + controlOf s.realizing + (s.pairs p).controlPermits =
      s.shared.control.reserved + controlOf z + pr.controlPermits)
    (hclose : ∀ w, (sh.closeReg w).reserved + closeOf w s.realizing + (s.pairs p).closePermits w =
      (s.shared.closeReg w).reserved + closeOf w z + pr.closePermits w)
    (hpair : PairPermits pr) :
    Permits { s with shared := sh, pairs := Function.update s.pairs p pr, realizing := z } := by
  have hpairs : ∀ q, PairPermits (Function.update s.pairs p pr q) := by
    intro q
    by_cases hq : q = p
    · rw [hq, Function.update_self]
      exact hpair
    · rw [Function.update_of_ne hq]
      exact hI.pair q
  refine ⟨hI.cmd.update hcmd, ?_, fun w => ?_, fun q => (hpairs q).opened, fun q => (hpairs q).writing⟩
  · obtain ⟨n, htotal, hreserved⟩ := hI.control
    have hle := htotal.le p
    refine ⟨n + pr.controlPermits - (s.pairs p).controlPermits, htotal.update (by omega), ?_⟩
    show sh.control.reserved =
      n + pr.controlPermits - (s.pairs p).controlPermits + controlOf z
    omega
  · obtain ⟨n, htotal, hreserved⟩ := hI.close w
    have hle := htotal.le p
    have hthis := hclose w
    refine ⟨n + pr.closePermits w - (s.pairs p).closePermits w, htotal.update (by omega), ?_⟩
    show (sh.closeReg w).reserved =
      n + pr.closePermits w - (s.pairs p).closePermits w + closeOf w z
    omega

end

theorem step_permits {cfg : MuxConfig} {s s' : MuxState} {a : Act} (hO : Ownership s)
    (hI : Permits s) (h : step cfg s a = some s') : Permits s' := by
  obtain ⟨p, c, sh, pr, rfl, hc, rfl⟩ | ⟨p, sh, pr, z, rfl, hfree, hphase, hb, rfl⟩ |
    ⟨z, sh, pr, z', rfl, hz, hr, rfl⟩ | ⟨c, sh, rd, rfl, hr, rfl⟩ |
    ⟨w, order, k, sh, rfl, hw, rfl⟩ | ⟨c, sh, wr, rfl, hw, rfl⟩ | ⟨rfl, rfl⟩ := step_cases h
  · have hle := hI.control_le p
    have hmove := client_permitMove (hI.pair p) (hI.cmd.le p) (by omega) hc
    refine hI.put hmove.cmd ?_ (fun w => ?_) hmove.pair
    · have := hmove.control
      omega
    · have := hmove.close w
      omega
  · have hun : (s.pairs p).phase.unguarded = true := by rw [hphase]; rfl
    have hne : (s.pairs p).phase ≠ .opened := by rw [hphase]; simp
    have hput : ∀ {sh : Shared} {pr : Pair} {z : Option Realize}, KeepsReserved s.shared sh →
        pr.phase.unguarded = true → pr.cmdPermit = (s.pairs p).cmdPermit →
        pr.write = (s.pairs p).write → controlOf z = 0 → (∀ w, closeOf w z = 0) →
        Permits { s with shared := sh, pairs := Function.update s.pairs p pr, realizing := z } := by
      intro sh pr z hkeeps hun' hpermit hwrite hcontrol hclose
      refine hI.put ?_ ?_ (fun w => ?_) ((hI.pair p).unguarded hne hpermit hwrite)
      · rw [hkeeps.cmd, Pair.cmdPermits, Pair.cmdPermits, hpermit]
      · rw [hkeeps.control, hfree, hcontrol, controlPermits_unguarded hun,
          controlPermits_unguarded hun']
        rfl
      · rw [hkeeps.close, hfree, hclose, closePermits_unguarded hun, closePermits_unguarded hun']
        rfl
    simp only [realizeBegin] at hb
    split at hb
    · cases hb
      exact hput ⟨rfl, rfl, fun _ => rfl⟩ rfl rfl rfl rfl fun _ => rfl
    · split at hb <;> cases hb
      · exact hput ⟨rfl, sendOrDrop_reserved _ _, fun _ => rfl⟩ rfl rfl rfl rfl fun _ => rfl
      · exact hput ⟨rfl, rfl, fun _ => rfl⟩ rfl rfl rfl rfl fun _ => rfl
  · obtain ⟨hphase, herror, hdata⟩ := hO.realizing z hz
    have hun : (s.pairs z.pair).phase.unguarded = true := by rw [hphase]; rfl
    have hne : (s.pairs z.pair).phase ≠ .opened := by rw [hphase]; simp
    have hcontrol := hI.control_le z.pair
    have hclose := hI.close_le z.pair
    rw [hz] at hcontrol hclose
    have hmove := realizeMove_of_step hphase herror hdata
      (Nat.le_trans (Nat.le_add_left ..) hcontrol)
      (fun w => Nat.le_trans (Nat.le_add_left ..) (hclose w)) hr
    refine hI.put ?_ ?_ (fun w => ?_) ((hI.pair z.pair).unguarded hne hmove.permit hmove.write)
    · rw [hmove.cmd, Pair.cmdPermits, Pair.cmdPermits, hmove.permit]
    · rw [hz, controlPermits_unguarded hun]
      exact hmove.control
    · rw [hz, closePermits_unguarded hun]
      exact hmove.close w
  · exact hI.keeps (reader_keepsReserved hr) rfl rfl
  · exact hI.keeps (workerMove_of_step hw).keepsReserved rfl rfl
  · exact hI.keeps (writerMove_of_step hw).keepsReserved rfl rfl
  · exact hI.keeps ⟨rfl, rfl, fun _ => rfl⟩ rfl rfl

theorem permits_invariant (cfg : MuxConfig) : (mux cfg).Invariant anyStep Permits :=
  Invariant.of_step_using (ownership_invariant cfg) (permits_init cfg)
    fun _ _ _ hO hI _ h => step_permits hO hI h

/-- In every run, whatever fails on the way: the slots that are reserved in the command,
control and close channels are those of the streams that are open or being dropped and of the
realization in progress.  So none is left reserved when there is no such stream. -/
theorem permits_conserved (cfg : MuxConfig) (as : List Act) (s : MuxState)
    (hrun : (mux cfg).run (mux cfg).init as = some s) :
    HasTotal Pair.cmdPermits s.pairs s.shared.cmd.reserved ∧
      (∃ n, HasTotal Pair.controlPermits s.pairs n ∧
        s.shared.control.reserved = n + controlOf s.realizing) ∧
      (∀ w, ∃ n, HasTotal (Pair.closePermits w) s.pairs n ∧
        (s.shared.closeReg w).reserved = n + closeOf w s.realizing) ∧
      (s.realizing = none → (∀ p, (s.pairs p).phase.unguarded = true) →
        s.shared.cmd.reserved = 0 ∧ s.shared.control.reserved = 0 ∧
          ∀ w, (s.shared.closeReg w).reserved = 0) := by
  have hI := permits_invariant cfg as s hrun (meets_anyStep _ _)
  refine ⟨hI.cmd, hI.control, hI.close, fun hfree hnone => ⟨?_, ?_, fun w => ?_⟩⟩
  · refine hI.cmd.eq_zero fun p => ?_
    cases hpermit : (s.pairs p).cmdPermit with
    | false =>
        rw [Pair.cmdPermits, hpermit]
        rfl
    | true =>
        have hun := hnone p
        rw [hI.opened p hpermit] at hun
        cases hun
  · obtain ⟨n, htotal, hreserved⟩ := hI.control
    rw [hreserved, hfree, htotal.eq_zero fun p => controlPermits_unguarded (hnone p)]
    rfl
  · obtain ⟨n, htotal, hreserved⟩ := hI.close w
    rw [hreserved, hfree, htotal.eq_zero fun p => closePermits_unguarded (hnone p) w]
    rfl

/-- Channels that the slots of one stream pair fill. -/
def tightConfig : MuxConfig :=
  { MuxConfig.default with controlBufferSize := 2, closeRegBufferSize := 1 }

/-- A stream pair is opened and dropped, up to the drop of its guard. -/
def guardActs : List Act :=
  startActs ++ openActs 0 ++ realizeActs 0 ++
    [.client 0 (.dropReceiver .data), .client 0 (.dropReceiver .error), .client 0 .dropRest]

theorem permits_conserved_tight :
    ∃ s, (mux tightConfig).run (mux tightConfig).init guardActs = some s ∧
      s.shared.control.reserved = 2 ∧ ¬ s.shared.control.HasRoom ∧
      ∃ n, HasTotal Pair.controlPermits s.pairs n ∧ 2 = n + controlOf s.realizing := by
  have hobs : ((mux tightConfig).run (mux tightConfig).init guardActs).map
      (fun s => (s.shared.control.reserved, decide s.shared.control.HasRoom)) =
      some (2, false) := by decide +kernel
  obtain ⟨s, hrun, hs⟩ := Option.map_eq_some_iff.1 hobs
  simp only [Prod.mk.injEq, decide_eq_false_iff_not] at hs
  have hcontrol := (permits_conserved _ _ s hrun).2.1
  rw [hs.1] at hcontrol
  exact ⟨s, hrun, hs.1, hs.2, hcontrol⟩

/-! ## The drop of a guard -/

/-- The phase after a step of the drop. -/
def DropPc.next : DropPc → PairPhase
  | .releaseCtrlError => .dropping .resetData
  | .resetData => .dropping .closeError
  | .closeError => .dropping .closeData
  | .closeData => .dropping .releasePair
  | .releasePair => .dropping .releaseCtrlData
  | .releaseCtrlData => .dropped

/-- How many steps are left. -/
def DropPc.left : DropPc → Nat
  | .releaseCtrlError => 6
  | .resetData => 5
  | .closeError => 4
  | .closeData => 3
  | .releasePair => 2
  | .releaseCtrlData => 1

theorem sendReservedClose_enabled {sh : Shared} {id : StreamId}
    (h : 0 < (sh.closeReg (shardOf id)).reserved) : ∃ sh', sh.sendReservedClose id = some sh' := by
  unfold Shared.sendReservedClose
  rw [dif_pos h]
  exact ⟨_, rfl⟩

/-- A guard that is being dropped finds its slots. -/
theorem dropStep_enabled {s : MuxState} (hI : Permits s) {p : Nat} {pc : DropPc}
    (hphase : (s.pairs p).phase = .dropping pc) :
    ∃ sh pr, (s.pairs p).dropStep s.shared = some (sh, pr) ∧ pr.phase = pc.next := by
  have hcontrol := hI.control_le p
  have hclose := hI.close_le p
  have hself : ∀ id, slotIf (shardOf id = shardOf id) = 1 := fun id => by simp [slotIf]
  unfold Pair.dropStep
  rw [hphase]
  cases pc with
  | releaseCtrlError => exact ⟨_, _, rfl, rfl⟩
  | resetData =>
      have hone : (s.pairs p).controlPermits = 1 := by rw [Pair.controlPermits, hphase]
      have hpos : 0 < s.shared.control.reserved := by omega
      simp only [hpos, dite_true]
      split <;> exact ⟨_, _, rfl, rfl⟩
  | closeError =>
      have hle := hclose (shardOf (s.pairs p).errorId)
      have hheld : (s.pairs p).closePermits (shardOf (s.pairs p).errorId) =
          slotIf (shardOf (s.pairs p).errorId = shardOf (s.pairs p).errorId) +
          slotIf (shardOf (s.pairs p).dataId = shardOf (s.pairs p).errorId) := by
        rw [Pair.closePermits, hphase]
      rw [hself] at hheld
      have hpos : 0 < (s.shared.closeReg (shardOf (s.pairs p).errorId)).reserved := by omega
      obtain ⟨sh, hsend⟩ := sendReservedClose_enabled hpos
      simp only [hsend]
      exact ⟨_, _, rfl, rfl⟩
  | closeData =>
      have hle := hclose (shardOf (s.pairs p).dataId)
      have hheld : (s.pairs p).closePermits (shardOf (s.pairs p).dataId) =
          slotIf (shardOf (s.pairs p).dataId = shardOf (s.pairs p).dataId) := by
        rw [Pair.closePermits, hphase]
      rw [hself] at hheld
      have hpos : 0 < (s.shared.closeReg (shardOf (s.pairs p).dataId)).reserved := by omega
      obtain ⟨sh, hsend⟩ := sendReservedClose_enabled hpos
      simp only [hsend]
      exact ⟨_, _, rfl, rfl⟩
  | releasePair => exact ⟨_, _, rfl, rfl⟩
  | releaseCtrlData => exact ⟨_, _, rfl, rfl⟩

theorem drop_steps {cfg : MuxConfig} {p : Nat} (n : Nat) {s : MuxState}
    (hreach : (mux cfg).Reaches anyStep s) {pc : DropPc} (hleft : pc.left = n)
    (hphase : (s.pairs p).phase = .dropping pc) :
    ∃ s', (mux cfg).run s (List.replicate n (.client p .dropStep)) = some s' ∧
      (s'.pairs p).phase = .dropped := by
  induction n generalizing s pc with
  | zero => cases pc <;> cases hleft
  | succ n ih =>
      have hI := Reaches.of_invariant hreach (permits_invariant cfg)
      obtain ⟨sh, pr, hdrop, hnext⟩ := dropStep_enabled hI hphase
      have hstep : (mux cfg).step s (.client p .dropStep) =
          some { s with shared := sh, pairs := Function.update s.pairs p pr } := by
        show ((s.pairs p).dropStep s.shared).map _ = _
        rw [hdrop]
        rfl
      have hself : (Function.update s.pairs p pr p).phase = pc.next := by
        rw [Function.update_self, hnext]
      have hreach' := Reaches.step hreach trivial hstep
      have hgo : ∀ pc' : DropPc, pc.next = .dropping pc' → pc'.left = n →
          ∃ s', (mux cfg).run s (List.replicate (n + 1) (.client p .dropStep)) = some s' ∧
            (s'.pairs p).phase = .dropped := by
        intro pc' hpc' hleft'
        obtain ⟨s', hrun, hdone⟩ := ih hreach' hleft' (hself.trans hpc')
        exact ⟨s', by rw [List.replicate_succ, run_cons hstep]; exact hrun, hdone⟩
      cases pc with
      | releaseCtrlError => exact hgo .resetData rfl (by cases hleft; rfl)
      | resetData => exact hgo .closeError rfl (by cases hleft; rfl)
      | closeError => exact hgo .closeData rfl (by cases hleft; rfl)
      | closeData => exact hgo .releasePair rfl (by cases hleft; rfl)
      | releasePair => exact hgo .releaseCtrlData rfl (by cases hleft; rfl)
      | releaseCtrlData =>
          cases hleft
          exact ⟨_, by rw [List.replicate_succ, run_cons hstep]; rfl, hself⟩

/-- However full the channels of a connection are and whatever its other tasks are doing,
`StreamGuard::drop` is not held up in any reachable state: its next step can be taken, and it
is done after the steps that are left. -/
theorem guard_drop_completes (cfg : MuxConfig) (as : List Act) (s : MuxState)
    (hrun : (mux cfg).run (mux cfg).init as = some s) (p : Nat) (pc : DropPc)
    (hphase : (s.pairs p).phase = .dropping pc) :
    ∃ s', (mux cfg).run s (List.replicate pc.left (.client p .dropStep)) = some s' ∧
      (s'.pairs p).phase = .dropped :=
  drop_steps pc.left ⟨as, hrun, meets_anyStep _ _⟩ rfl hphase

theorem guard_drop_completes_tight :
    ∃ s s', (mux tightConfig).run (mux tightConfig).init guardActs = some s ∧
      (s.pairs 0).phase = .dropping .releaseCtrlError ∧
      (mux tightConfig).run s (List.replicate 6 (.client 0 .dropStep)) = some s' ∧
      (s'.pairs 0).phase = .dropped := by
  have hobs : ((mux tightConfig).run (mux tightConfig).init guardActs).map
      (fun s => (s.pairs 0).phase) = some (.dropping .releaseCtrlError) := by decide +kernel
  obtain ⟨s, hrun, hphase⟩ := Option.map_eq_some_iff.1 hobs
  obtain ⟨s', hdrop, hdone⟩ := guard_drop_completes _ _ s hrun 0 .releaseCtrlError hphase
  exact ⟨s, s', hrun, hphase, hdrop, hdone⟩

end KubePortForward.Mux

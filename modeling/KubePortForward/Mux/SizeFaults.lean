import KubePortForward.Codec.FrameHeader
import KubePortForward.Mux.Inbound

/-!
# Frames above the size limit

`decode_frame` rejects a frame whose length field exceeds the limit, and the
reader answers with a CloseStream command for the id the error carries.  The
command goes through the control channel to the writer, which resets the
stream on the wire and, once the batch is flushed, registers its close with a
worker.  The id is the first word of the header, whatever the kind of the
frame: of a DATA frame that is its stream, of a control frame it is made of the
version and the type.

`sized` is the connection with the rejection of a byte string in place of the
rejection of an id.

## Main results

* `Clear` — no step of the way from the control channel to a worker holds
  anything that closes a given stream.
* `sized_clear` — that stays so as long as nothing asks for the stream to be
  closed and no rejected frame has its id in the first word.
-/

namespace KubePortForward.Mux

open KubePortForward.Codec
open KubePortForward.Verified.Channel
open KubePortForward.Verified.Transition

inductive SizedAct where
  | mux (a : Act)
  | reject (maxFrameSize : UInt32) (buf : Bytes)
  deriving DecidableEq, Repr

/-- A frame at the front of the buffer is rejected under any negotiated limit;
everything else is a step of the connection. -/
def sizedStep (cfg : MuxConfig) (s : MuxState) : SizedAct → Option MuxState
  | .mux (.reader (.tooLarge _)) => none
  | .mux a => step cfg s a
  | .reject maxFrameSize buf =>
      match frameTooLarge maxFrameSize buf with
      | some id => step cfg s (.reader (.tooLarge id))
      | none => none

def sized (cfg : MuxConfig) : System MuxState SizedAct where
  init := MuxState.init cfg
  step := sizedStep cfg

/-! ## Who asks for a close -/

/-- The command closes stream `x`. -/
def MuxCommand.closes (x : StreamId) : MuxCommand → Bool
  | .closeStream id _ => id == x
  | _ => false

/-- The CloseStream commands for `x` in the control channel. -/
def closeCommands (x : StreamId) (s : MuxState) : Nat :=
  s.shared.control.queue.countP (·.closes x)

/-- The step puts a CloseStream command for `x` into the control channel, or,
not being the writer that follows one up, registers the close of `x`. -/
def asksClose (cfg : MuxConfig) (x : StreamId) (s : MuxState) (a : Act) : Bool :=
  match step cfg s a with
  | none => false
  | some s' =>
      decide (closeCommands x s < closeCommands x s') ||
        (match a with
          | .writer _ => false
          | _ => decide (s.shared.history.closeLog.count x <
              s'.shared.history.closeLog.count x))

/-- Nothing that concerns `x` itself: no rejected DATA frame names it, and no
other step asks for it to be closed. -/
def Unrelated (cfg : MuxConfig) (x : StreamId) (s : MuxState) : SizedAct → Prop
  | .mux a => asksClose cfg x s a = false
  | .reject _ buf => isControl buf = false → headerStreamId buf ≠ x

/-- The header of a rejected control frame does not spell `x`. -/
def HeaderMisses (x : StreamId) (_ : MuxState) : SizedAct → Prop
  | .mux _ => True
  | .reject _ buf => isControl buf = true → headerStreamId buf ≠ x

instance (cfg : MuxConfig) (x : StreamId) (s : MuxState) (a : SizedAct) :
    Decidable (Unrelated cfg x s a) := by
  cases a <;> unfold Unrelated <;> infer_instance

instance (x : StreamId) (s : MuxState) (a : SizedAct) : Decidable (HeaderMisses x s a) := by
  cases a <;> unfold HeaderMisses <;> infer_instance

/-! ## The way of a CloseStream command -/

/-- The streams whose close the writer is about to register. -/
def WriterPc.closing : WriterPc → List StreamId
  | .closes todo requeued => todo ++ requeued
  | _ => []

/-- The write neither resets `x` nor is followed by its close. -/
def PendingWrite.Spares (x : StreamId) (p : PendingWrite) : Prop :=
  (∀ status, p.frame ≠ .rstStream x status) ∧ p.close ≠ some x

/-- Nothing between the control channel and the workers closes `x`. -/
structure Clear (x : StreamId) (s : MuxState) : Prop where
  control : ∀ c ∈ s.shared.control.queue, c.closes x = false
  cmd : ∀ c ∈ s.shared.cmd.queue, c.closes x = false
  window : ∀ c ∈ s.shared.window.queue, c.closes x = false
  held : ∀ c, s.writer.pc.held = some c → c.closes x = false
  out : ∀ p ∈ s.writer.out, p.Spares x
  wire : ∀ status, Outgoing.rstStream x status ∉ s.writer.wire
  pending : x ∉ s.writer.pendingCloses
  closing : x ∉ s.writer.pc.closing
  log : x ∉ s.shared.history.closeLog

theorem processWriterCommand_spares {x : StreamId} {c : MuxCommand}
    (h : c.closes x = false) : ∀ p ∈ processWriterCommand c, p.Spares x := by
  cases c with
  | closeStream id status =>
      have hne : id ≠ x := by simpa [MuxCommand.closes] using h
      simp [processWriterCommand, PendingWrite.Spares, hne]
  | _ =>
      simp [processWriterCommand, PendingWrite.Spares, PendingWrite.plain,
        PendingWrite.uncounted]

theorem init_clear (cfg : MuxConfig) (x : StreamId) : Clear x (MuxState.init cfg) := by
  constructor <;>
    simp [MuxState.init, Shared.init, Writer.init, WriterPc.held, WriterPc.closing,
      PendingWrite.Spares, PendingWrite.uncounted]

/-- The closes the writer owes come from the resets it has written. -/
structure OwesCloses (wr wr' : Writer) : Prop where
  pending : ∀ x ∈ wr'.pendingCloses,
    x ∈ wr.pendingCloses ∨ x ∈ wr.pc.closing ∨ ∃ p ∈ wr.out, p.close = some x
  closing : ∀ x ∈ wr'.pc.closing, x ∈ wr.pendingCloses ∨ x ∈ wr.pc.closing

theorem writer_owesCloses {cfg : MuxConfig} {a : WriterAct} {sh sh' : Shared}
    {wr wr' : Writer} (h : writerStep cfg a sh wr = some (sh', wr')) : OwesCloses wr wr' := by
  cases a with
  | emit ok =>
      simp only [writerStep, Writer.emit] at h
      (repeat' split at h) <;> cases h <;> constructor <;> simp_all [WriterPc.closing]
      grind
  | flush ok =>
      simp only [writerStep, Writer.flush, Writer.afterFlush] at h
      (repeat' split at h) <;> cases h <;> constructor <;>
        simp_all [WriterPc.closing] <;> grind
  | pingTick =>
      simp only [writerStep, Writer.pingTick] at h
      split at h <;> cases h
      constructor <;> simp_all [WriterPc.closing]
  | stallTick =>
      simp only [writerStep, Writer.stallTick] at h
      split at h <;> cases h
      constructor <;> simp_all [WriterPc.closing]
  | step =>
      simp only [writerStep, Writer.step] at h
      (repeat' split at h) <;> cases h <;> constructor <;>
        simp_all [WriterPc.closing, Writer.process]
      grind

/-- A poll of the writer adds no close of `x` to what it carries. -/
theorem Clear.writer {cfg : MuxConfig} {x : StreamId} {s : MuxState} {a : WriterAct}
    {sh : Shared} {wr : Writer} (h : Clear x s)
    (hw : writerStep cfg a s.shared s.writer = some (sh, wr)) :
    Clear x { s with shared := sh, writer := wr } := by
  have howes := writer_owesCloses hw
  have hmove := writerMove_of_step hw
  have hpending : x ∉ wr.pendingCloses := by
    intro hmem
    rcases howes.pending x hmem with hin | hin | ⟨p, hp, hclose⟩
    · exact h.pending hin
    · exact h.closing hin
    · exact (h.out p hp).2 hclose
  have hclosing : x ∉ wr.pc.closing := by
    intro hmem
    rcases howes.closing x hmem with hin | hin
    · exact h.pending hin
    · exact h.closing hin
  have hlog : x ∉ sh.history.closeLog := by
    rcases hmove.closes with hk | ⟨id, rest, requeued, hpc, hk⟩
    · rw [hk.log]
      exact h.log
    · rw [hk.log, List.mem_append, List.mem_singleton]
      rintro (hin | rfl)
      · exact h.log hin
      · refine h.closing ?_
        rw [hpc]
        simp [WriterPc.closing]
  obtain ⟨hcontrol, hcmd, hwindow, hheld, hout, hwire, -, -, -⟩ := h
  cases hmove with
  | @emit p rest hp =>
      rw [hp] at hout
      refine ⟨hcontrol, hcmd, hwindow, hheld,
        fun q hq => hout q (List.mem_cons_of_mem p hq), fun status hmem => ?_, hpending,
        hclosing, hlog⟩
      rcases List.mem_append.1 hmem with hin | hin
      · exact hwire status hin
      · exact (hout p List.mem_cons_self).1 status (List.mem_singleton.1 hin).symm
  | fail =>
      exact ⟨hcontrol, hcmd, hwindow, by simp [WriterPc.held], by simp, hwire, hpending,
        hclosing, hlog⟩
  | takeWindow hnil hnone hlive hrecv =>
      rw [Chan.recv_eq_some hrecv] at hwindow
      exact ⟨hcontrol, hcmd, fun c hc => hwindow c (List.mem_cons_of_mem _ hc),
        by simp [Writer.process], processWriterCommand_spares
          (hwindow _ List.mem_cons_self), hwire, hpending, hclosing, hlog⟩
  | takeControl hnil hsame hlive hpc hrecv hpolls =>
      rw [Chan.recv_eq_some hrecv] at hcontrol
      exact ⟨fun c hc => hcontrol c (List.mem_cons_of_mem _ hc), hcmd, hwindow,
        fun c hc => hheld c (hsame.symm.trans hc), processWriterCommand_spares
          (hcontrol _ List.mem_cons_self), hwire, hpending, hclosing, hlog⟩
  | takeCmd left hnil hnone hlive hrecv =>
      rw [Chan.recv_eq_some hrecv] at hcmd
      exact ⟨hcontrol, fun c hc => hcmd c (List.mem_cons_of_mem _ hc), hwindow,
        by simp [Writer.process], processWriterCommand_spares
          (hcmd _ List.mem_cons_self), hwire, hpending, hclosing, hlog⟩
  | hold hnil hnone hlive hrecv =>
      rw [Chan.recv_eq_some hrecv] at hcmd
      refine ⟨hcontrol, fun c hc => hcmd c (List.mem_cons_of_mem _ hc), hwindow, ?_, hout,
        hwire, hpending, hclosing, hlog⟩
      intro c hc
      rw [← Option.some.inj hc]
      exact hcmd _ List.mem_cons_self
  | processHeld hnil hpc =>
      have hspare := hheld _ (by rw [hpc]; rfl)
      exact ⟨hcontrol, hcmd, hwindow, by simp [Writer.process],
        processWriterCommand_spares hspare, hwire, hpending, hclosing, hlog⟩
  | own f hnil hnone hlive hframe hout' hheld' hlive' hsame hfailed hcloses =>
      refine ⟨hcontrol, hcmd, hwindow, by simp [hheld'], ?_, by rw [hsame]; exact hwire,
        hpending, hclosing, hlog⟩
      obtain ⟨id, rfl⟩ | ⟨entries, rfl⟩ := hframe <;>
        simp [hout', PendingWrite.Spares, PendingWrite.uncounted]
  | move cancelled hnil hnone hlive hout' hheld' hsame hfailed hcancel =>
      exact ⟨hcontrol, hcmd, hwindow, by simp [hheld'], by simp [hout'],
        by rw [hsame]; exact hwire, hpending, hclosing, hlog⟩
  | sendClose hnil hpc hsend =>
      have hkeep : sh.control = s.shared.control ∧ sh.cmd = s.shared.cmd ∧
          sh.window = s.shared.window := by
        unfold Shared.sendClose at hsend
        split at hsend <;> cases hsend
        exact ⟨rfl, rfl, rfl⟩
      refine ⟨by rw [hkeep.1]; exact hcontrol, by rw [hkeep.2.1]; exact hcmd,
        by rw [hkeep.2.2]; exact hwindow, by simp, hout, hwire, hpending, hclosing, hlog⟩
  | exit hnil hpc =>
      exact ⟨by simp, by simp, by simp, by simp [WriterPc.held], hout, hwire, hpending,
        hclosing, hlog⟩

/-- The command and the window channel are not used to close streams. -/
theorem Clear.commands {cfg : MuxConfig} {x : StreamId} {s s' : MuxState} {a : Act}
    (h : Clear x s) (hs : step cfg s a = some s') (hother : ∀ c, a ≠ .writer c) :
    s'.writer = s.writer ∧ (∀ c ∈ s'.shared.cmd.queue, c.closes x = false) ∧
      ∀ c ∈ s'.shared.window.queue, c.closes x = false := by
  obtain ⟨p, c, sh, pr, rfl, hc, rfl⟩ | ⟨p, sh, pr, z, rfl, -, -, hb, rfl⟩ |
    ⟨z, sh, pr, z', rfl, hz, hr, rfl⟩ | ⟨c, sh, r, rfl, hr, rfl⟩ |
    ⟨w, order, k, sh, rfl, hw, rfl⟩ | ⟨c, sh, wr, rfl, hw, rfl⟩ | ⟨rfl, rfl⟩ := step_cases hs
  · refine ⟨rfl, ?_, by rw [(client_footprint hc).window]; exact h.window⟩
    rcases client_cmd hc with hq | ⟨payload, -, -, hq⟩ | ⟨-, -, -, -, -, hq⟩
    · rw [hq]
      exact h.cmd
    · exact forall_mem_snoc h.cmd rfl hq
    · exact forall_mem_snoc h.cmd rfl hq
  · exact ⟨rfl, by rw [(realizeBegin_writer hb).1]; exact h.cmd,
      by rw [(realizeBegin_footprint hb).window]; exact h.window⟩
  · refine ⟨rfl, ?_, by rw [(realizeStep_footprint hr).window]; exact h.window⟩
    rcases (realizeStep_writer hr).2 with hq | ⟨-, -, -, hq⟩
    · rw [hq]
      exact h.cmd
    · exact forall_mem_snoc h.cmd rfl hq
  · refine ⟨rfl, by rw [(reader_footprint hr).cmd]; exact h.cmd, ?_⟩
    rcases reader_window hr with hq | ⟨n, hq⟩
    · rw [hq]
      exact h.window
    · exact forall_mem_snoc h.window rfl hq
  · have hmove := workerMove_of_step hw
    refine ⟨rfl, by rw [hmove.footprint.cmd]; exact h.cmd, ?_⟩
    rcases hmove.window with hq | ⟨f, rest, id, m, -, -, -, hq⟩
    · rw [hq]
      exact h.window
    · exact forall_mem_snoc h.window rfl hq
  · exact absurd rfl (hother c)
  · exact ⟨rfl, h.cmd, h.window⟩

/-- A step that neither is the writer's nor asks for the close of `x`. -/
theorem Clear.other {cfg : MuxConfig} {x : StreamId} {s s' : MuxState} {a : Act}
    (h : Clear x s) (hs : step cfg s a = some s') (hother : ∀ c, a ≠ .writer c)
    (hcontrol : closeCommands x s' ≤ closeCommands x s)
    (hlog : s'.shared.history.closeLog.count x ≤ s.shared.history.closeLog.count x) :
    Clear x s' := by
  obtain ⟨hwriter, hcmd, hwindow⟩ := h.commands hs hother
  have hzero : closeCommands x s = 0 := by
    simp only [closeCommands, List.countP_eq_zero]
    intro c hc
    simp [h.control c hc]
  have hcount : s.shared.history.closeLog.count x = 0 := List.count_eq_zero.2 h.log
  constructor
  · intro c hc
    have hnone : closeCommands x s' = 0 := by omega
    simp only [closeCommands, List.countP_eq_zero] at hnone
    simpa using hnone c hc
  · exact hcmd
  · exact hwindow
  · rw [hwriter]
    exact h.held
  · rw [hwriter]
    exact h.out
  · rw [hwriter]
    exact h.wire
  · rw [hwriter]
    exact h.pending
  · rw [hwriter]
    exact h.closing
  · exact List.count_eq_zero.1 (by omega)

/-- The rejection of a frame asks for the close of the stream its first word
spells, and of no other. -/
theorem Clear.reject {cfg : MuxConfig} {x id : StreamId} {s s' : MuxState}
    (h : Clear x s) (hs : step cfg s (.reader (.tooLarge id)) = some s') (hne : id ≠ x) :
    Clear x s' := by
  refine h.other hs (by simp) ?_ ?_
  · simp only [step, readerStep, Reader.rejectTooLarge] at hs
    split at hs
    · cases hs
      simp only [closeCommands]
      rcases sendControl_queue s.shared (.closeStream id RST_STATUS_FLOW_CONTROL) with
        hq | hq <;> simp [hq, MuxCommand.closes, hne]
    · contradiction
  · obtain ⟨p, c, sh, pr, heq, -, -⟩ | ⟨p, sh, pr, z, heq, -⟩ |
      ⟨z, sh, pr, z', heq, -⟩ | ⟨c, sh, r, -, hr, rfl⟩ |
      ⟨w, order, k, sh, heq, -⟩ | ⟨c, sh, wr, heq, -⟩ | ⟨heq, -⟩ := step_cases hs
    all_goals first
      | contradiction
      | rw [(reader_footprint hr).closeLog]

theorem sizedStep_clear {cfg : MuxConfig} {x : StreamId} {s s' : MuxState} {a : SizedAct}
    (h : Clear x s) (hun : Unrelated cfg x s a) (hmiss : HeaderMisses x s a)
    (hs : sizedStep cfg s a = some s') : Clear x s' := by
  cases a with
  | mux a =>
      have hstep : step cfg s a = some s' := by
        simp only [sizedStep] at hs
        split at hs
        · contradiction
        · next heq =>
            cases heq
            exact hs
        · next heq => cases heq
      have hask : asksClose cfg x s a = false := hun
      simp only [asksClose, hstep, Bool.or_eq_false_iff, decide_eq_false_iff_not,
        Nat.not_lt] at hask
      cases a with
      | writer c =>
          obtain ⟨p, c, sh, pr, heq, -, -⟩ | ⟨p, sh, pr, z, heq, -⟩ |
            ⟨z, sh, pr, z', heq, -⟩ | ⟨c, sh, r, heq, -⟩ |
            ⟨w, order, k, sh, heq, -⟩ | ⟨c, sh, wr, -, hw, rfl⟩ | ⟨heq, -⟩ :=
            step_cases hstep
          all_goals first
            | contradiction
            | exact h.writer hw
      | _ => exact h.other hstep (by simp) hask.1 (by simpa using hask.2)
  | reject maxFrameSize buf =>
      simp only [sizedStep, frameTooLarge] at hs
      have hne : headerStreamId buf ≠ x := by
        cases hkind : isControl buf with
        | true => exact hmiss hkind
        | false => exact hun hkind
      split at hs
      · next id hid =>
          have heq : headerStreamId buf = id := by
            (repeat' split at hid) <;> first
              | contradiction
              | exact Option.some.inj hid
          exact h.reject hs (heq ▸ hne)
      · contradiction

theorem sized_clear (cfg : MuxConfig) (x : StreamId) :
    (sized cfg).Invariant (fun s a => Unrelated cfg x s a ∧ HeaderMisses x s a)
      (Clear x) := by
  apply Invariant.of_step
  · exact init_clear cfg x
  · intro s a s' h hok hs
    exact sizedStep_clear h hok.1 hok.2 hs

/-! ## Size faults and other streams -/

/-- A pair is open and the worker of its error stream has taken it over. -/
def openedActs : List Act :=
  startActs ++ openActs 0 ++ realizeActs 0 ++ List.replicate 2 (.worker (shardOf 1) [])

/-- The writer resets what it was told to and registers the close, which the
worker of stream 1 takes. -/
def followUpActs : List Act :=
  List.replicate 3 (Act.writer .step) ++ [Act.writer (.emit true), .writer .step,
    .writer (.flush true), .writer .step] ++ List.replicate 3 (Act.worker (shardOf 1) [])

/-- A DATA frame on stream 3, longer than a limit of one octet. -/
def largeData : Bytes := [0, 0, 0, 3, 0, 0, 0, 2, 7, 7]

/-- A control frame of type SYN_STREAM and version 0, longer than the limit of
control frames, whose payload names stream 5. -/
def largeControl : Bytes := [0x80, 0, 0, 1, 0, 0x10, 0, 1, 0, 0, 0, 5]

/-- The pair is opened, a frame is rejected and its rejection is followed up. -/
def rejectActs (maxFrameSize : UInt32) (buf : Bytes) : List SizedAct :=
  openedActs.map SizedAct.mux ++ [SizedAct.reject maxFrameSize buf] ++ followUpActs.map SizedAct.mux

end KubePortForward.Mux

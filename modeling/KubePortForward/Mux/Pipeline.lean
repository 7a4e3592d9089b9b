import KubePortForward.Mux.Footprint

/-!
# What is on its way to the wire

The commands of the stream owners and of the realizations reach the transport
in the order of the command channel: first what the writer has written, then
the frames of the command it is writing, then the data command it holds back
while it drains the control channel, then the queue.  `pipeline` is that
sequence; what the writer takes from the window and control channels, and its
own PINGs and SETTINGS, are inserted right behind what is already written.
A writer that is leaving its loop writes nothing more.

## Main results

* `writerMove_of_step` — the cases of the writer's loop.
* `WriterMove.pipeline_cases` — what a move of the writer does to the pipeline.
-/

namespace KubePortForward.Mux

open KubePortForward.Codec
open KubePortForward.Verified.Channel

/-- The command the writer has taken but not started. -/
def WriterPc.held : WriterPc → Option MuxCommand
  | .holdCmd cmd => some cmd
  | _ => none

/-- The writer is out of its loop. -/
def WriterPc.leaving : WriterPc → Bool
  | .exiting => true
  | .stopped => true
  | _ => false

/-- The next poll of the loop is one of the control channel. -/
def WriterPc.pollsControl : WriterPc → Bool
  | .selectControl => true
  | .controlDrain (_ + 1) => true
  | .holdCmd _ => true
  | _ => false

@[simp] theorem held_holdCmd (cmd : MuxCommand) :
    (WriterPc.holdCmd cmd).held = some cmd := rfl

@[simp] theorem held_windowDrain : WriterPc.windowDrain.held = none := rfl

@[simp] theorem held_cmdDrain (n : Nat) : (WriterPc.cmdDrain n).held = none := rfl

@[simp] theorem held_closes (todo requeued : List StreamId) :
    (WriterPc.closes todo requeued).held = none := rfl

@[simp] theorem leaving_holdCmd (cmd : MuxCommand) :
    (WriterPc.holdCmd cmd).leaving = false := rfl

@[simp] theorem leaving_windowDrain : WriterPc.windowDrain.leaving = false := rfl

@[simp] theorem leaving_cmdDrain (n : Nat) : (WriterPc.cmdDrain n).leaving = false := rfl

@[simp] theorem leaving_closes (todo requeued : List StreamId) :
    (WriterPc.closes todo requeued).leaving = false := rfl

@[simp] theorem leaving_exiting : WriterPc.exiting.leaving = true := rfl

@[simp] theorem leaving_stopped : WriterPc.stopped.leaving = true := rfl

/-- The frames a command puts on the wire. -/
def cmdFrames (cmd : MuxCommand) : List Outgoing :=
  (processWriterCommand cmd).map (·.frame)

/-- Frames of the command being written, of the one held back and of those
queued behind it. -/
def backlog (sh : Shared) (wr : Writer) : List Outgoing :=
  wr.out.map (·.frame) ++ (wr.pc.held.toList ++ sh.cmd.queue).flatMap cmdFrames

/-- What is on the wire and what will follow it from the command channel. -/
def pipeline (sh : Shared) (wr : Writer) : List Outgoing :=
  if wr.pc.leaving then wr.wire else wr.wire ++ backlog sh wr

theorem pipeline_of_leaving {sh : Shared} {wr : Writer} (h : wr.pc.leaving = true) :
    pipeline sh wr = wr.wire := by
  rw [pipeline, if_pos h]

theorem pipeline_of_running {sh : Shared} {wr : Writer} (h : wr.pc.leaving = false) :
    pipeline sh wr = wr.wire ++ backlog sh wr := by
  rw [pipeline, if_neg (by simp [h])]

/-- What has been written is always the front of the pipeline. -/
theorem wire_prefix_pipeline (sh : Shared) (wr : Writer) :
    wr.wire <+: pipeline sh wr := by
  unfold pipeline
  split
  · exact List.prefix_rfl
  · exact List.prefix_append _ _

/-- The pipeline depends on the shared memory only through the command queue. -/
theorem pipeline_congr {sh sh' : Shared} (wr : Writer)
    (h : sh'.cmd.queue = sh.cmd.queue) : pipeline sh' wr = pipeline sh wr := by
  simp [pipeline, backlog, h]

/-- A command that is enqueued goes to the end of the pipeline of a running
writer. -/
theorem pipeline_push {sh sh' : Shared} {cmd : MuxCommand} (wr : Writer)
    (h : sh'.cmd.queue = sh.cmd.queue ++ [cmd]) :
    pipeline sh' wr = pipeline sh wr ∨ pipeline sh' wr = pipeline sh wr ++ cmdFrames cmd := by
  cases hl : wr.pc.leaving with
  | true => exact .inl (by rw [pipeline_of_leaving hl, pipeline_of_leaving hl])
  | false =>
      refine .inr ?_
      rw [pipeline_of_running hl, pipeline_of_running hl]
      simp [backlog, h]

/-! ## The writer's loop -/

/-- Which poll of its loop the writer took. -/
inductive WriterMove (sh : Shared) (wr : Writer) : Shared → Writer → Prop
  | emit {p rest} (hout : wr.out = p :: rest) :
      WriterMove sh wr sh { wr with
        out := rest
        wire := wr.wire ++ [p.frame]
        bytesSinceFlush := wr.bytesSinceFlush || p.counted
        pendingCloses := wr.pendingCloses ++ p.close.toList }
  | fail :
      WriterMove sh wr { sh with cancelled := true }
        { wr with out := [], pc := .exiting, writeFailed := true }
  | takeWindow {cmd c} (hout : wr.out = []) (hheld : wr.pc.held = none)
      (hlive : wr.pc.leaving = false) (hrecv : sh.window.recv = some (cmd, c)) :
      WriterMove sh wr { sh with window := c } (wr.process cmd .windowDrain)
  | takeControl {cmd c pc} (hout : wr.out = []) (hheld : pc.held = wr.pc.held)
      (hlive : wr.pc.leaving = false) (hpc : pc.leaving = false)
      (hrecv : sh.control.recv = some (cmd, c)) (hpolls : wr.pc.pollsControl = true) :
      WriterMove sh wr { sh with control := c } (wr.process cmd pc)
  | takeCmd {cmd c} (left : Nat) (hout : wr.out = []) (hheld : wr.pc.held = none)
      (hlive : wr.pc.leaving = false) (hrecv : sh.cmd.recv = some (cmd, c)) :
      WriterMove sh wr { sh with cmd := c } (wr.process cmd (.cmdDrain left))
  | hold {cmd c} (hout : wr.out = []) (hheld : wr.pc.held = none)
      (hlive : wr.pc.leaving = false) (hrecv : sh.cmd.recv = some (cmd, c)) :
      WriterMove sh wr { sh with cmd := c } { wr with pc := .holdCmd cmd }
  | processHeld {cmd} (hout : wr.out = []) (hpc : wr.pc = .holdCmd cmd) :
      WriterMove sh wr sh (wr.process cmd (.cmdDrain OPPORTUNISTIC_CAP))
  | own {wr'} (f : Outgoing) (hout : wr.out = []) (hheld : wr.pc.held = none)
      (hlive : wr.pc.leaving = false)
      (hframe : (∃ id, f = .ping id) ∨ ∃ entries, f = .settings entries)
      (hout' : wr'.out = [.uncounted f]) (hheld' : wr'.pc.held = none)
      (hlive' : wr'.pc.leaving = false) (hwire : wr'.wire = wr.wire)
      (hfailed : wr'.writeFailed = wr.writeFailed)
      (hcloses : wr'.pendingCloses = wr.pendingCloses) : WriterMove sh wr sh wr'
  | move {wr'} (cancelled : Bool) (hout : wr.out = []) (hheld : wr.pc.held = none)
      (hlive : wr.pc.leaving = false) (hout' : wr'.out = []) (hheld' : wr'.pc.held = none)
      (hwire : wr'.wire = wr.wire) (hfailed : wr'.writeFailed = wr.writeFailed)
      (hcancel : (cancelled = sh.cancelled ∧ wr'.pc.leaving = false) ∨ cancelled = true) :
      WriterMove sh wr { sh with cancelled := cancelled } wr'
  | sendClose {id rest requeued sh'} (hout : wr.out = [])
      (hpc : wr.pc = .closes (id :: rest) requeued) (hsend : sh.sendClose id = .ok sh') :
      WriterMove sh wr sh' { wr with pc := .closes rest requeued }
  | exit (hout : wr.out = []) (hpc : wr.pc = .exiting) :
      WriterMove sh wr
        { sh with
          cancelled := true
          cmd := sh.cmd.closeReceiver
          control := sh.control.closeReceiver
          window := sh.window.closeReceiver }
        { wr with pc := .stopped }

theorem writerMove_of_emit {sh sh' : Shared} {wr wr' : Writer} {ok : Bool}
    (h : wr.emit ok sh = some (sh', wr')) : WriterMove sh wr sh' wr' := by
  unfold Writer.emit at h
  split at h
  · contradiction
  · next p rest hout =>
      split at h
      · cases h
        exact .emit hout
      · cases h
        exact .fail

theorem writerMove_of_flush {cfg : MuxConfig} {sh sh' : Shared} {wr wr' : Writer}
    {ok : Bool} (h : wr.flush cfg ok sh = some (sh', wr')) : WriterMove sh wr sh' wr' := by
  unfold Writer.flush at h
  split at h
  · contradiction
  · next hout =>
      have hout : wr.out = [] := by simpa using hout
      split at h
      · contradiction
      · next wr'' hafter =>
          split at h
          · cases h
            unfold Writer.afterFlush at hafter
            split at hafter
            · next hpc =>
                cases hafter
                exact .own _ hout (by simp [hpc, WriterPc.held])
                  (by simp [hpc, WriterPc.leaving]) (.inr ⟨_, rfl⟩) rfl rfl rfl rfl rfl rfl
            · next hpc =>
                cases hafter
                exact .move sh.cancelled hout (by simp [hpc, WriterPc.held])
                  (by simp [hpc, WriterPc.leaving]) hout rfl rfl rfl (.inl ⟨rfl, rfl⟩)
            · next hpc =>
                split at hafter
                · cases hafter
                  exact .move sh.cancelled hout (by simp [hpc, WriterPc.held])
                    (by simp [hpc, WriterPc.leaving]) hout rfl rfl rfl (.inl ⟨rfl, rfl⟩)
                · contradiction
            · contradiction
          · cases h
            have hfail := @WriterMove.fail sh wr
            rwa [← hout] at hfail

theorem writerMove_of_ticks {sh sh' : Shared} {wr wr' : Writer}
    (h : wr.pingTick sh = some (sh', wr') ∨ wr.stallTick sh = some (sh', wr')) :
    WriterMove sh wr sh' wr' := by
  rcases h with h | h
  · unfold Writer.pingTick at h
    split at h
    · next hg =>
        cases h
        exact .own _ hg.1 (by simp [hg.2, WriterPc.held]) (by simp [hg.2, WriterPc.leaving])
          (.inl ⟨_, rfl⟩) rfl rfl rfl rfl rfl rfl
    · contradiction
  · unfold Writer.stallTick at h
    split at h
    · next hg =>
        cases h
        exact .move true hg.1 (by simp [hg.2.1, WriterPc.held])
          (by simp [hg.2.1, WriterPc.leaving]) hg.1 rfl rfl rfl (.inr rfl)
    · contradiction

theorem writerMove_of_select {sh sh' : Shared} {wr wr' : Writer}
    (h : wr.step sh = some (sh', wr')) : WriterMove sh wr sh' wr' := by
  unfold Writer.step at h
  split at h
  · contradiction
  · next hne =>
      have hout : wr.out = [] := by simpa using hne
      -- A poll that found nothing only changes where the loop stands.
      have hidle : ∀ pc : WriterPc, wr.pc.held = none → wr.pc.leaving = false →
          pc.held = none → pc.leaving = false → WriterMove sh wr sh { wr with pc := pc } :=
        fun pc hh hl hh' hl' =>
          .move sh.cancelled hout hh hl hout hh' rfl rfl (.inl ⟨rfl, hl'⟩)
      cases hpc : wr.pc with
      | startPing => simp [hpc] at h
      | startSettings => simp [hpc] at h
      | selectCancel =>
          simp only [hpc] at h
          split at h
          · next hcancel =>
              cases h
              exact .move sh.cancelled hout (by simp [hpc, WriterPc.held])
                (by simp [hpc, WriterPc.leaving]) hout rfl rfl rfl (.inr hcancel)
          · cases h
            exact hidle _ (by simp [hpc, WriterPc.held]) (by simp [hpc, WriterPc.leaving])
              rfl rfl
      | selectWindow =>
          simp only [hpc] at h
          split at h
          · next cmd c hr =>
              cases h
              exact .takeWindow hout (by simp [hpc, WriterPc.held])
                (by simp [hpc, WriterPc.leaving]) hr
          · cases h
            exact hidle _ (by simp [hpc, WriterPc.held]) (by simp [hpc, WriterPc.leaving])
              rfl rfl
      | selectControl =>
          simp only [hpc] at h
          split at h
          · next cmd c hr =>
              cases h
              exact .takeControl hout (by simp [hpc, WriterPc.held])
                (by simp [hpc, WriterPc.leaving]) rfl hr (by rw [hpc]; rfl)
          · cases h
            exact hidle _ (by simp [hpc, WriterPc.held]) (by simp [hpc, WriterPc.leaving])
              rfl rfl
      | selectCmd =>
          simp only [hpc] at h
          split at h
          · next cmd c hr =>
              cases h
              exact .hold hout (by simp [hpc, WriterPc.held])
                (by simp [hpc, WriterPc.leaving]) hr
          · cases h
            exact hidle _ (by simp [hpc, WriterPc.held]) (by simp [hpc, WriterPc.leaving])
              rfl rfl
      | selectTimers =>
          simp only [hpc] at h
          cases h
          exact hidle _ (by simp [hpc, WriterPc.held]) (by simp [hpc, WriterPc.leaving])
            rfl rfl
      | windowDrain =>
          simp only [hpc] at h
          split at h
          · next cmd c hr =>
              cases h
              exact .takeWindow hout (by simp [hpc, WriterPc.held])
                (by simp [hpc, WriterPc.leaving]) hr
          · cases h
            exact hidle _ (by simp [hpc, WriterPc.held]) (by simp [hpc, WriterPc.leaving])
              rfl rfl
      | controlDrain left =>
          cases left with
          | zero =>
              simp only [hpc] at h
              cases h
              exact hidle _ (by simp [hpc, WriterPc.held])
                (by simp [hpc, WriterPc.leaving]) rfl rfl
          | succ left =>
              simp only [hpc] at h
              split at h
              · next cmd c hr =>
                  cases h
                  exact .takeControl hout (by simp [hpc, WriterPc.held])
                    (by simp [hpc, WriterPc.leaving]) rfl hr (by rw [hpc]; rfl)
              · cases h
                exact hidle _ (by simp [hpc, WriterPc.held])
                  (by simp [hpc, WriterPc.leaving]) rfl rfl
      | holdCmd held =>
          simp only [hpc] at h
          split at h
          · next cmd c hr =>
              cases h
              exact .takeControl hout (by simp [hpc, WriterPc.held])
                (by simp [hpc, WriterPc.leaving]) rfl hr (by rw [hpc]; rfl)
          · cases h
            exact .processHeld hout hpc
      | cmdDrain left =>
          cases left with
          | zero =>
              simp only [hpc] at h
              cases h
              exact hidle _ (by simp [hpc, WriterPc.held])
                (by simp [hpc, WriterPc.leaving]) rfl rfl
          | succ left =>
              simp only [hpc] at h
              split at h
              · next cmd c hr =>
                  cases h
                  exact .takeCmd left hout (by simp [hpc, WriterPc.held])
                    (by simp [hpc, WriterPc.leaving]) hr
              · cases h
                exact hidle _ (by simp [hpc, WriterPc.held])
                  (by simp [hpc, WriterPc.leaving]) rfl rfl
      | finish =>
          simp only [hpc] at h
          split at h
          · contradiction
          · cases h
            exact .move sh.cancelled hout (by simp [hpc, WriterPc.held])
              (by simp [hpc, WriterPc.leaving]) hout rfl rfl rfl (.inl ⟨rfl, rfl⟩)
      | closes todo requeued =>
          cases todo with
          | nil =>
              simp only [hpc] at h
              cases h
              exact .move sh.cancelled hout (by simp [hpc, WriterPc.held])
                (by simp [hpc, WriterPc.leaving]) hout rfl rfl rfl (.inl ⟨rfl, rfl⟩)
          | cons id rest =>
              simp only [hpc] at h
              split at h
              · next sh'' hs =>
                  cases h
                  exact .sendClose hout hpc hs
              · cases h
                exact hidle _ (by simp [hpc, WriterPc.held])
                  (by simp [hpc, WriterPc.leaving]) rfl rfl
              · cases h
                exact .move true hout (by simp [hpc, WriterPc.held])
                  (by simp [hpc, WriterPc.leaving]) hout rfl rfl rfl (.inr rfl)
      | exiting =>
          simp only [hpc] at h
          cases h
          exact .exit hout hpc
      | stopped => simp [hpc] at h

theorem writerMove_of_step {cfg : MuxConfig} {a : WriterAct} {sh sh' : Shared}
    {wr wr' : Writer} (h : writerStep cfg a sh wr = some (sh', wr')) :
    WriterMove sh wr sh' wr' := by
  cases a with
  | emit ok => exact writerMove_of_emit h
  | flush ok => exact writerMove_of_flush h
  | pingTick => exact writerMove_of_ticks (.inl h)
  | stallTick => exact writerMove_of_ticks (.inr h)
  | step => exact writerMove_of_select h

/-! ## What the writer does to the pipeline -/

/-- Frames the writer puts in front of the command channel: those of a command
at the head of the control or the window channel, and its own. -/
inductive Inserted (sh : Shared) (wr : Writer) : List Outgoing → Prop
  | control {cmd rest} (hpolls : wr.pc.pollsControl = true)
      (h : sh.control.queue = cmd :: rest) : Inserted sh wr (cmdFrames cmd)
  | window {cmd rest} (h : sh.window.queue = cmd :: rest) : Inserted sh wr (cmdFrames cmd)
  | ping (id : UInt32) : Inserted sh wr [.ping id]
  | settings (entries : List (UInt32 × UInt32)) : Inserted sh wr [.settings entries]

/-- A move of the writer ends the wire, keeps the pipeline, or inserts frames
between what is written and what is queued. -/
theorem WriterMove.pipeline_cases {sh sh' : Shared} {wr wr' : Writer}
    (h : WriterMove sh wr sh' wr') (hquiet : wr.pc.leaving = true → wr.out = []) :
    (wr'.pc.leaving = true ∧ pipeline sh' wr' = wr.wire) ∨
    (wr'.pc.leaving = wr.pc.leaving ∧ pipeline sh' wr' = pipeline sh wr) ∨
    (∃ frames rest, wr.pc.leaving = false ∧ wr'.pc.leaving = false ∧ wr.out = [] ∧
      Inserted sh wr frames ∧ pipeline sh wr = wr.wire ++ rest ∧
      pipeline sh' wr' = wr.wire ++ (frames ++ rest)) := by
  cases h with
  | emit hout =>
      refine .inr (.inl ⟨rfl, ?_⟩)
      have hlive : wr.pc.leaving = false := by
        cases hl : wr.pc.leaving with
        | false => rfl
        | true => rw [hquiet hl] at hout; contradiction
      simp [pipeline, backlog, hlive, hout]
  | fail => exact .inl ⟨rfl, rfl⟩
  | takeWindow hout hheld hlive hrecv =>
      refine .inr (.inr ⟨_, _, hlive, rfl, hout, .window (Chan.recv_eq_some hrecv),
        pipeline_of_running hlive, ?_⟩)
      simp [pipeline, backlog, Writer.process, cmdFrames, hout, hheld]
  | takeControl hout hheld hlive hpc hrecv hpolls =>
      refine .inr (.inr ⟨_, _, hlive, hpc, hout, .control hpolls (Chan.recv_eq_some hrecv),
        pipeline_of_running hlive, ?_⟩)
      simp [pipeline, backlog, Writer.process, cmdFrames, hout, hheld, hpc]
  | takeCmd left hout hheld hlive hrecv =>
      refine .inr (.inl ⟨by simp [Writer.process, hlive], ?_⟩)
      rw [pipeline_of_running hlive]
      simp [pipeline, backlog, Writer.process, cmdFrames, hout, hheld,
        Chan.recv_eq_some hrecv]
  | hold hout hheld hlive hrecv =>
      refine .inr (.inl ⟨by simp [hlive], ?_⟩)
      rw [pipeline_of_running hlive]
      simp [pipeline, backlog, hout, hheld,
        Chan.recv_eq_some hrecv]
  | processHeld hout hpc =>
      refine .inr (.inl ⟨by simp [Writer.process, hpc], ?_⟩)
      simp [pipeline, backlog, Writer.process, cmdFrames, hout, hpc]
  | own f hout hheld hlive hframe hout' hheld' hlive' hwire hfailed hcloses =>
      refine .inr (.inr ⟨[f], _, hlive, hlive', hout, ?_, pipeline_of_running hlive, ?_⟩)
      · obtain ⟨id, rfl⟩ | ⟨entries, rfl⟩ := hframe
        · exact .ping id
        · exact .settings entries
      · simp [pipeline, backlog, hlive', hwire, hout, hout', hheld, hheld',
          PendingWrite.uncounted]
  | move cancelled hout hheld hlive hout' hheld' hwire hfailed hcancel =>
      cases hl : wr'.pc.leaving with
      | true => exact .inl ⟨rfl, by rw [pipeline_of_leaving hl, hwire]⟩
      | false =>
          refine .inr (.inl ⟨hlive.symm, ?_⟩)
          rw [pipeline_of_running hl, pipeline_of_running hlive]
          simp [backlog, hwire, hout, hout', hheld, hheld']
  | sendClose hout hpc hsend =>
      refine .inr (.inl ⟨by simp [hpc], ?_⟩)
      have hcmd : sh'.cmd = sh.cmd := by
        unfold Shared.sendClose at hsend
        split at hsend <;> cases hsend
        rfl
      simp [pipeline, backlog, hpc, hout, hcmd]
  | exit hout hpc => exact .inl ⟨rfl, rfl⟩

end KubePortForward.Mux

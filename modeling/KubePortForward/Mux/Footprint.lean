import KubePortForward.Mux.System

/-!
# What each task leaves alone

Every task owns a part of the shared memory and never writes the rest.  One
record per task lists the fields a step of that task keeps; an invariant over
those fields is then preserved by the step for free.  The worker's loop is
also inverted here, once: `WorkerMove` says which poll was taken and what it
called.

## Main results

* `client_footprint`, `realizeBegin_footprint`, `realizeStep_footprint`,
  `reader_footprint`, `writer_footprint`, `worker_footprint`.
* `workerMove_of_step` — the cases of the worker's loop.
-/

namespace KubePortForward.Mux

open KubePortForward.Codec
open KubePortForward.Verified.Channel

/-! ## Owners of pairs -/

structure ClientFootprint (sh sh' : Shared) : Prop where
  cancelled : sh'.cancelled = sh.cancelled
  goawayReceived : sh'.goawayReceived = sh.goawayReceived
  nextStreamId : sh'.nextStreamId = sh.nextStreamId
  peerInitialWindow : sh'.peerInitialWindow = sh.peerInitialWindow
  peerMaxConcurrent : sh'.peerMaxConcurrent = sh.peerMaxConcurrent
  window : sh'.window = sh.window
  frames : sh'.frames = sh.frames
  reg : sh'.reg = sh.reg
  routed : sh'.history.routed = sh.history.routed
  openLog : sh'.history.openLog = sh.history.openLog
  credited : sh'.history.credited = sh.history.credited

theorem client_footprint {cfg : MuxConfig} {p : Nat} {a : ClientAct} {sh sh' : Shared}
    {pr pr' : Pair} (h : clientStep cfg p a sh pr = some (sh', pr')) :
    ClientFootprint sh sh' := by
  cases a <;>
    simp only [clientStep, Pair.openBegin, Pair.openStep, Pair.read, Pair.fillBuf,
      Pair.consume, Pair.writeBegin, Pair.writeReserve, Pair.writePick,
      Pair.writeRecheck, Pair.writeDebit, Pair.writeSend, Pair.shutdown,
      Pair.dropReceiver, Pair.dropRest, Pair.dropStep, Shared.sendReservedClose] at h <;>
    (repeat' split at h) <;>
    first
    | contradiction
    | cases h
      constructor <;> rfl

/-! ## Realizations -/

structure RealizeFootprint (sh sh' : Shared) : Prop where
  activePairs : sh'.activePairs = sh.activePairs
  cancelled : sh'.cancelled = sh.cancelled
  goawayReceived : sh'.goawayReceived = sh.goawayReceived
  peerInitialWindow : sh'.peerInitialWindow = sh.peerInitialWindow
  peerMaxConcurrent : sh'.peerMaxConcurrent = sh.peerMaxConcurrent
  window : sh'.window = sh.window
  frames : sh'.frames = sh.frames
  routed : sh'.history.routed = sh.history.routed
  credited : sh'.history.credited = sh.history.credited
  written : sh'.history.written = sh.history.written

theorem realizeBegin_footprint {p : Nat} {sh sh' : Shared} {pr pr' : Pair}
    {z : Option Realize} (h : realizeBegin p sh pr = (sh', pr', z)) :
    RealizeFootprint sh sh' := by
  simp only [realizeBegin] at h
  split at h
  · cases h
    constructor <;> rfl
  · split at h <;> cases h <;> constructor <;> rfl

theorem RealizeFootprint.trans {sh sh' sh'' : Shared} (h : RealizeFootprint sh sh')
    (h' : RealizeFootprint sh' sh'') : RealizeFootprint sh sh'' where
  activePairs := h'.activePairs.trans h.activePairs
  cancelled := h'.cancelled.trans h.cancelled
  goawayReceived := h'.goawayReceived.trans h.goawayReceived
  peerInitialWindow := h'.peerInitialWindow.trans h.peerInitialWindow
  peerMaxConcurrent := h'.peerMaxConcurrent.trans h.peerMaxConcurrent
  window := h'.window.trans h.window
  frames := h'.frames.trans h.frames
  routed := h'.routed.trans h.routed
  credited := h'.credited.trans h.credited
  written := h'.written.trans h.written

theorem sendOpen_footprint {sh sh' : Shared} {id : StreamId} {r : ChanRef}
    (h : sh.sendOpen id r = some sh') : RealizeFootprint sh sh' := by
  unfold Shared.sendOpen at h
  split at h
  · cases h
    constructor <;> rfl
  · contradiction

/-- A close registration that was taken is in the channel and in the log. -/
theorem sendClose_shape {sh sh' : Shared} {id : StreamId} (h : sh.sendClose id = .ok sh') :
    ∃ c, sh' = { sh.setCloseReg (shardOf id) c with
      history := { sh.history with closeLog := sh.history.closeLog ++ [id] } } := by
  unfold Shared.sendClose at h
  split at h
  · cases h
    exact ⟨_, rfl⟩
  · contradiction

theorem sendCloseOrDrop_footprint (sh : Shared) (id : StreamId) :
    RealizeFootprint sh (sh.sendCloseOrDrop id) := by
  unfold Shared.sendCloseOrDrop
  split
  · next hsend =>
      obtain ⟨c, rfl⟩ := sendClose_shape hsend
      constructor <;> rfl
  · constructor <;> rfl

theorem releaseHeld_footprint (sh : Shared) (id : StreamId) (held : Nat) :
    RealizeFootprint sh (sh.releaseHeld id held) := by
  unfold Shared.releaseHeld
  simp only
  split <;> constructor <;> rfl

theorem realizeStep_footprint {z : Realize} {sh sh' : Shared} {pr pr' : Pair}
    {z' : Option Realize} (h : z.step sh pr = (sh', pr', z')) :
    RealizeFootprint sh sh' := by
  unfold Realize.step at h
  cases hz : z.pc <;> simp only [hz] at h <;> (repeat' split at h) <;> cases h <;>
    first
    | exact sendOpen_footprint ‹_›
    | exact sendCloseOrDrop_footprint _ _
    | exact (sendCloseOrDrop_footprint _ _).trans (releaseHeld_footprint _ _ _)
    | constructor <;> rfl

/-! ## The reader -/

structure ReaderFootprint (sh sh' : Shared) : Prop where
  activePairs : sh'.activePairs = sh.activePairs
  nextStreamId : sh'.nextStreamId = sh.nextStreamId
  cmd : sh'.cmd = sh.cmd
  chans : sh'.chans = sh.chans
  windows : sh'.windows = sh.windows
  openLog : sh'.history.openLog = sh.history.openLog
  closeLog : sh'.history.closeLog = sh.history.closeLog
  credited : sh'.history.credited = sh.history.credited
  written : sh'.history.written = sh.history.written

theorem reader_footprint {cfg : MuxConfig} {a : ReaderAct} {sh sh' : Shared}
    {r r' : Reader} (h : readerStep cfg a sh r = some (sh', r')) :
    ReaderFootprint sh sh' := by
  cases a <;>
    simp only [readerStep, Reader.receive, Reader.rejectTooLarge, Reader.receiveWsPing,
      Reader.message, Reader.idleProbe, Reader.exit, Reader.step, routeFrame,
      creditSession] at h <;>
    (repeat' split at h) <;>
    first
    | contradiction
    | cases h
      constructor <;> rfl

/-! ## The writer -/

structure WriterFootprint (sh sh' : Shared) : Prop where
  activePairs : sh'.activePairs = sh.activePairs
  goawayReceived : sh'.goawayReceived = sh.goawayReceived
  nextStreamId : sh'.nextStreamId = sh.nextStreamId
  peerInitialWindow : sh'.peerInitialWindow = sh.peerInitialWindow
  peerMaxConcurrent : sh'.peerMaxConcurrent = sh.peerMaxConcurrent
  frames : sh'.frames = sh.frames
  reg : sh'.reg = sh.reg
  chans : sh'.chans = sh.chans
  windows : sh'.windows = sh.windows
  routed : sh'.history.routed = sh.history.routed
  openLog : sh'.history.openLog = sh.history.openLog
  credited : sh'.history.credited = sh.history.credited
  written : sh'.history.written = sh.history.written

theorem writer_footprint {cfg : MuxConfig} {a : WriterAct} {sh sh' : Shared}
    {wr wr' : Writer} (h : writerStep cfg a sh wr = some (sh', wr')) :
    WriterFootprint sh sh' := by
  cases a <;>
    simp only [writerStep, Writer.emit, Writer.flush, Writer.pingTick, Writer.stallTick,
      Writer.step] at h <;>
    (repeat' split at h) <;>
    first
    | contradiction
    | cases h
      first
      | constructor <;> rfl
      | obtain ⟨c, rfl⟩ := sendClose_shape ‹_›
        constructor <;> rfl

/-! ## The workers -/

structure WorkerFootprint (sh sh' : Shared) : Prop where
  activePairs : sh'.activePairs = sh.activePairs
  cancelled : sh'.cancelled = sh.cancelled
  goawayReceived : sh'.goawayReceived = sh.goawayReceived
  nextStreamId : sh'.nextStreamId = sh.nextStreamId
  peerInitialWindow : sh'.peerInitialWindow = sh.peerInitialWindow
  peerMaxConcurrent : sh'.peerMaxConcurrent = sh.peerMaxConcurrent
  cmd : sh'.cmd = sh.cmd
  routed : sh'.history.routed = sh.history.routed
  openLog : sh'.history.openLog = sh.history.openLog
  closeLog : sh'.history.closeLog = sh.history.closeLog
  written : sh'.history.written = sh.history.written

/-- The calls a worker makes leave its own channels alone as well; the loop
takes items off them before the call. -/
structure CallFootprint (sh sh' : Shared) : Prop where
  activePairs : sh'.activePairs = sh.activePairs
  cancelled : sh'.cancelled = sh.cancelled
  goawayReceived : sh'.goawayReceived = sh.goawayReceived
  nextStreamId : sh'.nextStreamId = sh.nextStreamId
  peerInitialWindow : sh'.peerInitialWindow = sh.peerInitialWindow
  peerMaxConcurrent : sh'.peerMaxConcurrent = sh.peerMaxConcurrent
  cmd : sh'.cmd = sh.cmd
  frames : sh'.frames = sh.frames
  reg : sh'.reg = sh.reg
  closeReg : sh'.closeReg = sh.closeReg
  routed : sh'.history.routed = sh.history.routed
  openLog : sh'.history.openLog = sh.history.openLog
  closeLog : sh'.history.closeLog = sh.history.closeLog
  written : sh'.history.written = sh.history.written

theorem CallFootprint.rfl {sh : Shared} : CallFootprint sh sh := by
  constructor <;> rfl

theorem CallFootprint.trans {sh sh' sh'' : Shared} (h : CallFootprint sh sh')
    (h' : CallFootprint sh' sh'') : CallFootprint sh sh'' := by
  constructor <;> grind [CallFootprint]

theorem dropTx?_callFootprint (sh : Shared) (r : Option ChanRef) :
    CallFootprint sh (sh.dropTx? r) := by
  cases r <;> constructor <;> rfl

theorem sendControl_callFootprint (sh : Shared) (c : MuxCommand) :
    CallFootprint sh (sh.sendControl c) := by
  constructor <;> rfl

theorem halfClose_callFootprint (id : StreamId) (k : Worker) (sh : Shared) :
    CallFootprint sh (halfClose id k sh).2 := by
  unfold halfClose
  split
  · exact dropTx?_callFootprint _ _
  · exact CallFootprint.rfl

theorem removeStream_callFootprint (id : StreamId) (k : Worker) (sh : Shared) :
    CallFootprint sh (removeStream id k sh).2 := by
  unfold removeStream
  simp only
  split
  · next st _ =>
      refine (dropTx?_callFootprint sh st.dataTx).trans ?_
      constructor <;> rfl
  · exact CallFootprint.rfl

theorem deliverPayload_callFootprint (n : UInt32) (id : StreamId) (payload : Bytes)
    (k : Worker) (sh : Shared) :
    CallFootprint sh (deliverPayload n id payload k sh).2.1 := by
  unfold deliverPayload
  split
  · exact CallFootprint.rfl
  · cases k.streams.lookup id with
    | none => exact sendControl_callFootprint _ _
    | some st =>
        cases hst : st.dataTx with
        | none => simpa only [hst] using CallFootprint.rfl
        | some r =>
            simp only [hst, creditPeer]
            (repeat' split) <;> constructor <;> rfl

theorem answerReply_callFootprint (id : StreamId) (k : Worker) (sh : Shared) :
    CallFootprint sh (answerReply id k sh).2 := by
  unfold answerReply
  (repeat' split) <;> constructor <;> rfl

theorem dispatch_callFootprint (n : UInt32) (frame : Frame) (k : Worker) (sh : Shared) :
    CallFootprint sh (dispatchFrameInWorker n frame k sh).2 := by
  cases frame with
  | data id payload fin =>
      have hdeliver := deliverPayload_callFootprint n id payload k sh
      simp only [dispatchFrameInWorker]
      split
      · exact hdeliver
      · split
        · exact hdeliver.trans (halfClose_callFootprint _ _ _)
        · exact hdeliver
  | synReply id headers fin =>
      have hanswer := answerReply_callFootprint id k sh
      simp only [dispatchFrameInWorker]
      split
      · exact hanswer.trans (halfClose_callFootprint _ _ _)
      · exact hanswer
  | rstStream id status => exact removeStream_callFootprint id k sh
  | windowUpdate id delta =>
      simp only [dispatchFrameInWorker]
      split <;> constructor <;> rfl
  | _ => exact CallFootprint.rfl

theorem refuseStreams_callFootprint (ids : List StreamId) (k : Worker) (sh : Shared) :
    CallFootprint sh (refuseStreams ids k sh).2 := by
  induction ids generalizing k sh with
  | nil => exact CallFootprint.rfl
  | cons id rest ih =>
      have hremove := removeStream_callFootprint id k sh
      exact (hremove.trans (sendControl_callFootprint _ _)).trans (ih _ _)

theorem applyRegistration_callFootprint {order : List StreamId} {reg : StreamRegistration}
    {k k' : Worker} {sh sh' : Shared}
    (h : applyRegistration order reg k sh = some (k', sh')) : CallFootprint sh sh' := by
  unfold applyRegistration at h
  cases reg with
  | openStream id r =>
      cases h
      exact dropTx?_callFootprint _ _
  | close id =>
      cases h
      exact removeStream_callFootprint id k sh
  | settingsWindowDelta delta =>
      cases h
      constructor <;> rfl
  | goAway last status =>
      simp only at h
      split at h
      · rw [Option.some.injEq] at h
        have hrefuse := refuseStreams_callFootprint order k sh
        rwa [h] at hrefuse
      · contradiction

theorem foldl_dropTx_callFootprint (refs : List ChanRef) (sh : Shared) :
    CallFootprint sh (refs.foldl Shared.dropTx sh) := by
  induction refs generalizing sh with
  | nil => exact CallFootprint.rfl
  | cons r refs ih => exact (dropTx?_callFootprint sh (some r)).trans (ih _)

theorem closeAll_callFootprint (k : Worker) (sh : Shared) :
    CallFootprint sh (closeAll k sh) := by
  refine (foldl_dropTx_callFootprint
    (k.streams.entries.filterMap (fun e => e.2.dataTx)) sh).trans ?_
  constructor <;> rfl

/-- Which poll of its loop a worker took, and what it did with what it found. -/
inductive WorkerMove (cfg : MuxConfig) (order : List StreamId) (w : Shard) (k : Worker)
    (sh : Shared) : Worker → Shared → Prop
  | takeClose {reg c k' sh'} (pc : WorkerPc) (hpc : pc = .drainClose)
      (hfrom : k.pc = .drainClose ∨ k.pc = .selectClose)
      (hrecv : (sh.closeReg w).recv = some (reg, c))
      (happly : applyRegistration order reg { k with pc := pc } (sh.setCloseReg w c) =
        some (k', sh')) : WorkerMove cfg order w k sh k' sh'
  | takeReg {reg c k' sh'} (pc : WorkerPc) (hpc : pc = .drainReg ∨ pc = .drainClose)
      (hfrom : k.pc = .drainReg ∨ k.pc = .selectReg)
      (hrecv : (sh.reg w).recv = some (reg, c))
      (happly : applyRegistration order reg { k with pc := pc } (sh.setReg w c) =
        some (k', sh')) : WorkerMove cfg order w k sh k' sh'
  | takeFrame {frame c} (hpc : k.pc = .selectFrame)
      (hrecv : (sh.frames w).recv = some (frame, c)) :
      WorkerMove cfg order w k sh
        (dispatchFrameInWorker cfg.initialWindowSize frame { k with pc := .drainClose }
          (sh.setFrames w c)).1
        (dispatchFrameInWorker cfg.initialWindowSize frame { k with pc := .drainClose }
          (sh.setFrames w c)).2
  | move (pc : WorkerPc) (hfrom : k.pc ≠ .exiting ∧ k.pc ≠ .stopped)
      (hto : pc ≠ .exiting ∧ pc ≠ .stopped) :
      WorkerMove cfg order w k sh { k with pc := pc } sh
  | shutdown (hpc : k.pc = .shutdown) :
      WorkerMove cfg order w k sh
        { pc := .exiting, streams := ∅, pendingReplies := ∅ } (closeAll k sh)
  | exit (hpc : k.pc = .exiting) :
      WorkerMove cfg order w k sh { k with pc := .stopped } (dropReceivers w sh)

theorem workerMove_of_step {cfg : MuxConfig} {gone : Bool} {order : List StreamId}
    {w : Shard} {k k' : Worker} {sh sh' : Shared}
    (h : k.step cfg gone order w sh = some (k', sh')) :
    WorkerMove cfg order w k sh k' sh' := by
  unfold Worker.step at h
  cases hpc : k.pc with
  | drainClose =>
      simp only [hpc] at h
      split at h
      · next reg c hr =>
          refine .takeClose .drainClose rfl (.inl hpc) hr ?_
          rwa [← hpc]
      · cases h
        exact .move _ (by simp [hpc]) (by simp)
  | drainReg =>
      simp only [hpc] at h
      split at h
      · next reg c hr =>
          refine .takeReg .drainReg (.inl rfl) (.inl hpc) hr ?_
          rwa [← hpc]
      · cases h
        exact .move _ (by simp [hpc]) (by simp)
  | selectCancel =>
      simp only [hpc] at h
      split at h <;> cases h <;> exact .move _ (by simp [hpc]) (by simp)
  | selectClose =>
      simp only [hpc] at h
      split at h
      · next reg c hr => exact .takeClose .drainClose rfl (.inr hpc) hr h
      · cases h
        exact .move _ (by simp [hpc]) (by simp)
  | selectReg =>
      simp only [hpc] at h
      split at h
      · next reg c hr => exact .takeReg .drainClose (.inr rfl) (.inr hpc) hr h
      · cases h
        exact .move _ (by simp [hpc]) (by simp)
  | selectFrame =>
      simp only [hpc] at h
      split at h
      · next frame c hr =>
          rw [Option.some.injEq] at h
          rw [← show _ = k' from congrArg Prod.fst h, ← show _ = sh' from congrArg Prod.snd h]
          exact .takeFrame hpc hr
      · split at h <;> cases h <;> exact .move _ (by simp [hpc]) (by simp)
  | shutdown =>
      simp only [hpc] at h
      cases h
      exact .shutdown hpc
  | exiting =>
      simp only [hpc] at h
      cases h
      exact .exit hpc
  | stopped => simp [hpc] at h

/-- A call made after an item was taken off one of the worker's channels. -/
theorem CallFootprint.toWorker {sh₀ sh sh' : Shared} (h : CallFootprint sh sh')
    (h₀ : WorkerFootprint sh₀ sh) : WorkerFootprint sh₀ sh' := by
  constructor <;> grind [CallFootprint, WorkerFootprint]

theorem WorkerMove.footprint {cfg : MuxConfig} {order : List StreamId} {w : Shard}
    {k k' : Worker} {sh sh' : Shared} (h : WorkerMove cfg order w k sh k' sh') :
    WorkerFootprint sh sh' := by
  cases h with
  | takeClose pc hpc hfrom hrecv happly =>
      exact (applyRegistration_callFootprint happly).toWorker (by constructor <;> rfl)
  | takeReg pc hpc hfrom hrecv happly =>
      exact (applyRegistration_callFootprint happly).toWorker (by constructor <;> rfl)
  | takeFrame hpc hrecv =>
      exact (dispatch_callFootprint _ _ _ _).toWorker (by constructor <;> rfl)
  | move pc hfrom hto => exact CallFootprint.rfl.toWorker (by constructor <;> rfl)
  | shutdown hpc => exact (closeAll_callFootprint k sh).toWorker (by constructor <;> rfl)
  | exit hpc =>
      have hdrop := foldl_dropTx_callFootprint (queuedSenders (sh.reg w).queue) sh
      constructor <;> grind [CallFootprint, dropReceivers, Shared.setReg,
        Shared.setCloseReg, Shared.setFrames]

end KubePortForward.Mux

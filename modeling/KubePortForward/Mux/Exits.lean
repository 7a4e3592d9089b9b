import KubePortForward.Mux.Delivery
import KubePortForward.Mux.FailedRealization
import KubePortForward.Mux.UnknownStreams
import KubePortForward.Mux.WindowResize

/-!
# What a task leaves behind when it exits

A worker that leaves its loop poisons the windows of the streams it has, and then
drops its receivers, whatever they still hold; the writer cancels the connection
and drops its receivers.  Nothing that happens afterwards undoes any of this.

A stream that is removed from a worker while somebody still receives from it has
its window poisoned, whichever way it is removed.

## Main results

* `exits_invariant` — a stopped worker takes no registration any more, and a
  stopped writer has cancelled the connection.
* `WorkerMove.kept` — a worker that does not exit keeps a stream or poisons its
  window.
-/

namespace KubePortForward.Mux

open KubePortForward.Codec
open KubePortForward.Verified.Channel
open KubePortForward.Verified.Transition

/-! ## What a task leaves behind -/

/-- Nothing gets into a channel without a receiver. -/
def Unreachable (c : Chan StreamRegistration) : Prop := c.closed = true ∧ c.queue = []

theorem Unreachable.sendOrDrop {c : Chan StreamRegistration} (h : Unreachable c)
    (reg : StreamRegistration) : Unreachable (c.sendOrDrop reg) := by
  have hkeep : c.sendOrDrop reg = c := by simp [Chan.sendOrDrop, Chan.trySend, h.1]
  rw [hkeep]
  exact h

structure Exits (s : MuxState) : Prop where
  opens : ∀ w, (s.workers w).pc = .stopped → Unreachable (s.shared.reg w)
  closes : ∀ w, (s.workers w).pc = .stopped → (s.shared.closeReg w).closed = true
  cancelled : s.writer.pc = .stopped → s.shared.cancelled = true

theorem exits_init (cfg : MuxConfig) : Exits (MuxState.init cfg) := by
  constructor <;> simp [MuxState.init, Worker.init, Writer.init]

theorem sendReservedClose_closed {sh sh' : Shared} {id : StreamId}
    (h : sh.sendReservedClose id = some sh') (w : Shard) :
    (sh'.closeReg w).closed = (sh.closeReg w).closed := by
  unfold Shared.sendReservedClose at h
  split at h
  · cases h
    by_cases hw : w = shardOf id
    · subst hw
      simp [Shared.setCloseReg, Chan.sendReserved]
    · simp [Shared.setCloseReg, hw]
  · contradiction

theorem client_closeReg_closed {cfg : MuxConfig} {p : Nat} {a : ClientAct} {sh sh' : Shared}
    {pr pr' : Pair} (h : clientStep cfg p a sh pr = some (sh', pr')) (w : Shard) :
    (sh'.closeReg w).closed = (sh.closeReg w).closed := by
  cases a with
  | dropStep =>
      simp only [clientStep, Pair.dropStep] at h
      (repeat' split at h) <;> first
        | contradiction
        | simp only [Option.map_eq_some_iff, Prod.mk.injEq] at h
          obtain ⟨sh₁, hsend, rfl, -⟩ := h
          exact sendReservedClose_closed hsend w
        | cases h
          rfl
  | _ =>
      simp only [clientStep, Pair.openBegin, Pair.openStep, Pair.read, Pair.fillBuf,
        Pair.consume, Pair.writeBegin, Pair.writeReserve, Pair.writePick,
        Pair.writeRecheck, Pair.writeDebit, Pair.writeSend, Pair.shutdown,
        Pair.dropReceiver, Pair.dropRest] at h
      (repeat' split at h) <;> first
        | contradiction
        | cases h
          rfl

theorem sendClose_closed {sh sh' : Shared} {id : StreamId} (h : sh.sendClose id = .ok sh')
    (w : Shard) : (sh'.closeReg w).closed = (sh.closeReg w).closed := by
  unfold Shared.sendClose at h
  split at h
  · next c hsend =>
      cases h
      obtain ⟨-, hroom, rfl⟩ := Chan.trySend_eq_ok.1 hsend
      by_cases hw : w = shardOf id
      · subst hw
        simp [Shared.setCloseReg, Chan.push]
      · simp [Shared.setCloseReg, hw]
  · contradiction

theorem sendCloseOrDrop_closed (sh : Shared) (id : StreamId) (w : Shard) :
    ((sh.sendCloseOrDrop id).closeReg w).closed = (sh.closeReg w).closed := by
  unfold Shared.sendCloseOrDrop
  split
  · next sh' hsend => exact sendClose_closed hsend w
  · rfl

theorem sendOpen_channels {sh sh' : Shared} {id : StreamId} {r : ChanRef}
    (h : sh.sendOpen id r = some sh') (w : Shard) :
    sh'.closeReg = sh.closeReg ∧ (Unreachable (sh.reg w) → sh'.reg w = sh.reg w) := by
  unfold Shared.sendOpen at h
  split at h
  · next c hsend =>
      cases h
      refine ⟨rfl, fun hgone => ?_⟩
      by_cases hw : w = shardOf id
      · subst hw
        have hlive := (Chan.trySend_eq_ok.1 hsend).1
        rw [hgone.1] at hlive
        contradiction
      · simp [Shared.setReg, hw]
  · contradiction

theorem releaseHeld_closed (sh : Shared) (id : StreamId) (held : Nat) (w : Shard) :
    ((sh.releaseHeld id held).closeReg w).closed = (sh.closeReg w).closed := by
  unfold Shared.releaseHeld
  simp only
  split
  · by_cases hw : w = shardOf id
    · subst hw
      simp [Shared.setCloseReg, Chan.releaseReserved]
    · simp [Shared.setCloseReg, hw]
  · rfl

theorem setCloseReg_closed {sh : Shared} {v : Shard} {c : Chan StreamRegistration}
    (h : (sh.closeReg v).tryReserve = .ok c) (w : Shard) :
    ((sh.setCloseReg v c).closeReg w).closed = (sh.closeReg w).closed := by
  by_cases hw : w = v
  · subst hw
    obtain ⟨hbefore, hafter⟩ := Chan.tryReserve_live h
    simp [Shared.setCloseReg, hbefore, hafter]
  · simp [Shared.setCloseReg, hw]

/-- A realization ends no channel, and gets nothing into one that has ended. -/
theorem realizeStep_channels {z : Realize} {sh sh' : Shared} {pr pr' : Pair}
    {z' : Option Realize} (h : z.step sh pr = (sh', pr', z')) (w : Shard) :
    (sh'.closeReg w).closed = (sh.closeReg w).closed ∧
      (Unreachable (sh.reg w) → Unreachable (sh'.reg w)) := by
  unfold Realize.step at h
  cases hz : z.pc with
  | registerError =>
      simp only [hz] at h
      split at h <;> cases h
      · next hsend =>
          obtain ⟨hclose, hopen⟩ := sendOpen_channels hsend w
          exact ⟨by rw [hclose], fun hgone => by rw [hopen hgone]; exact hgone⟩
      · exact ⟨rfl, id⟩
  | registerData =>
      simp only [hz] at h
      split at h <;> cases h
      · next hsend =>
          obtain ⟨hclose, hopen⟩ := sendOpen_channels hsend w
          exact ⟨by rw [hclose], fun hgone => by rw [hopen hgone]; exact hgone⟩
      · exact ⟨rfl, id⟩
  | reserveCloseError =>
      simp only [hz] at h
      split at h <;> cases h
      · next hreserve => exact ⟨setCloseReg_closed hreserve w, id⟩
      · exact ⟨rfl, id⟩
  | reserveCloseData =>
      simp only [hz] at h
      split at h <;> cases h
      · next hreserve => exact ⟨setCloseReg_closed hreserve w, id⟩
      · exact ⟨rfl, id⟩
  | cleanupData held =>
      simp only [hz] at h
      cases h
      refine ⟨by rw [releaseHeld_closed, sendCloseOrDrop_closed], fun hgone => ?_⟩
      rw [releaseHeld_reg, sendCloseOrDrop_reg]
      exact hgone
  | cleanupErrorOnly =>
      simp only [hz] at h
      cases h
      exact ⟨sendCloseOrDrop_closed _ _ w, fun hgone => by rwa [sendCloseOrDrop_reg]⟩
  | cleanupError held =>
      simp only [hz] at h
      cases h
      exact ⟨sendCloseOrDrop_closed _ _ w, fun hgone => by rwa [sendCloseOrDrop_reg]⟩
  | _ =>
      simp only [hz] at h
      (repeat' split at h) <;> cases h <;> exact ⟨rfl, id⟩

theorem reader_channels {cfg : MuxConfig} {a : ReaderAct} {sh sh' : Shared} {r r' : Reader}
    (h : readerStep cfg a sh r = some (sh', r')) (w : Shard) :
    (sh'.closeReg w).closed = (sh.closeReg w).closed ∧
      (Unreachable (sh.reg w) → Unreachable (sh'.reg w)) := by
  constructor
  · rcases reader_closes h with hkeep | ⟨v, last, status, -, hsend⟩
    · rw [hkeep]
    · rw [hsend]
      by_cases hw : w = v
      · subst hw
        rw [Function.update_self, Chan.sendOrDrop_closed]
      · rw [Function.update_of_ne hw]
  · intro hgone
    rcases reader_reg h with hkeep | ⟨v, delta, mc, mf, -, -, -, rfl⟩
    · rwa [hkeep]
    · by_cases hw : w = v
      · subst hw
        simpa only [Shared.setReg, Function.update_self] using hgone.sendOrDrop _
      · simpa only [Shared.setReg, Function.update_of_ne hw] using hgone

/-- A worker leaves the registration channels of the others alone. -/
theorem WorkerMove.other_channels {cfg : MuxConfig} {order : List StreamId} {w v : Shard}
    {k k' : Worker} {sh sh' : Shared} (h : WorkerMove cfg order w k sh k' sh') (hv : v ≠ w) :
    sh'.reg v = sh.reg v ∧ sh'.closeReg v = sh.closeReg v := by
  cases h with
  | takeClose pc hpc hfrom hrecv happly =>
      have hcall := applyRegistration_callFootprint happly
      simp [hcall.reg, hcall.closeReg, Shared.setCloseReg, hv]
  | takeReg pc hpc hfrom hrecv happly =>
      have hcall := applyRegistration_callFootprint happly
      simp [hcall.reg, hcall.closeReg, Shared.setReg, hv]
  | @takeFrame frame c hpc hrecv =>
      have hcall := dispatch_callFootprint cfg.initialWindowSize frame
        { k with pc := .drainClose } (sh.setFrames w c)
      rw [hcall.reg, hcall.closeReg]
      exact ⟨rfl, rfl⟩
  | move pc hfrom hto => exact ⟨rfl, rfl⟩
  | shutdown hpc =>
      have hcall := closeAll_callFootprint k sh
      simp [hcall.reg, hcall.closeReg]
  | exit hpc =>
      have hcall := foldl_dropTx_callFootprint (queuedSenders (sh.reg w).queue) sh
      simp [dropReceivers, Shared.setReg, Shared.setCloseReg, Shared.setFrames, hv, hcall.reg,
        hcall.closeReg]

/-- A worker that has stopped has dropped its receivers. -/
theorem WorkerMove.stopped {cfg : MuxConfig} {order : List StreamId} {w : Shard}
    {k k' : Worker} {sh sh' : Shared} (h : WorkerMove cfg order w k sh k' sh')
    (hstop : k'.pc = .stopped) :
    Unreachable (sh'.reg w) ∧ (sh'.closeReg w).closed = true := by
  cases h with
  | takeClose pc hpc hfrom hrecv happly =>
      rw [applyRegistration_pc happly, hpc] at hstop
      contradiction
  | takeReg pc hpc hfrom hrecv happly =>
      rw [applyRegistration_pc happly] at hstop
      rcases hpc with rfl | rfl <;> contradiction
  | takeFrame hpc hrecv =>
      rw [dispatch_pc] at hstop
      contradiction
  | move pc hfrom hto => exact absurd hstop hto.2
  | shutdown hpc => contradiction
  | exit hpc =>
      simp [dropReceivers, Unreachable, Shared.setReg, Shared.setCloseReg, Shared.setFrames]

theorem WriterMove.closeReg_closed {sh sh' : Shared} {wr wr' : Writer}
    (h : WriterMove sh wr sh' wr') (w : Shard) :
    (sh'.closeReg w).closed = (sh.closeReg w).closed := by
  cases h with
  | sendClose hout hpc hsend => exact sendClose_closed hsend w
  | _ => rfl

/-- The writer never takes a cancellation back, and has cancelled when it stops. -/
theorem WriterMove.cancelled {sh sh' : Shared} {wr wr' : Writer}
    (h : WriterMove sh wr sh' wr') (hold : wr.pc = .stopped → sh.cancelled = true)
    (hstop : wr'.pc = .stopped) : sh'.cancelled = true := by
  cases h with
  | emit hout => exact hold hstop
  | fail => rfl
  | takeWindow hout hheld hlive hrecv => contradiction
  | @takeControl cmd c pc hout hheld hlive hpc hrecv hpolls =>
      rw [show pc = .stopped from hstop] at hpc
      contradiction
  | takeCmd left hout hheld hlive hrecv => contradiction
  | hold hout hheld hlive hrecv => contradiction
  | processHeld hout hpc => contradiction
  | own f hout hheld hlive hframe hout' hheld' hlive' hwire hfailed hcloses =>
      rw [hstop] at hlive'
      contradiction
  | move cancelled hout hheld hlive hout' hheld' hwire hfailed hcancel =>
      rcases hcancel with ⟨-, hrun⟩ | hcancel
      · rw [hstop] at hrun
        contradiction
      · exact hcancel
  | sendClose hout hpc hsend => contradiction
  | exit hout hpc => rfl

/-- A step that lets no worker stop and no channel return. -/
theorem Exits.of_channels {s s' : MuxState} (hI : Exits s) (hworkers : s'.workers = s.workers)
    (hchannels : ∀ w, (s'.shared.closeReg w).closed = (s.shared.closeReg w).closed ∧
      (Unreachable (s.shared.reg w) → Unreachable (s'.shared.reg w)))
    (hcancelled : s'.writer.pc = .stopped → s'.shared.cancelled = true) : Exits s' where
  opens w hw := (hchannels w).2 (hI.opens w (hworkers ▸ hw))
  closes w hw := (hchannels w).1.trans (hI.closes w (hworkers ▸ hw))
  cancelled := hcancelled

theorem step_exits {cfg : MuxConfig} {s s' : MuxState} {a : Act} (hI : Exits s)
    (h : step cfg s a = some s') : Exits s' := by
  obtain ⟨p, c, sh, pr, rfl, hc, rfl⟩ | ⟨p, sh, pr, z, rfl, -, -, hb, rfl⟩ |
    ⟨z, sh, pr, z', rfl, hz, hr, rfl⟩ | ⟨c, sh, r, rfl, hr, rfl⟩ |
    ⟨w, order, k, sh, rfl, hw, rfl⟩ | ⟨c, sh, wr, rfl, hw, rfl⟩ | ⟨rfl, rfl⟩ := step_cases h
  · have hfoot := client_footprint hc
    refine hI.of_channels rfl (fun w => ⟨client_closeReg_closed hc w, ?_⟩) fun hstop => ?_
    · rw [hfoot.reg]
      exact id
    · rw [hfoot.cancelled]
      exact hI.cancelled hstop
  · obtain ⟨hreg, hclose⟩ := realizeBegin_regs hb
    refine hI.of_channels rfl (fun w => ?_) fun hstop => ?_
    · rw [hreg, hclose]
      exact ⟨rfl, id⟩
    · rw [(realizeBegin_footprint hb).cancelled]
      exact hI.cancelled hstop
  · refine hI.of_channels rfl (realizeStep_channels hr) fun hstop => ?_
    rw [(realizeStep_footprint hr).cancelled]
    exact hI.cancelled hstop
  · exact hI.of_channels rfl (reader_channels hr) fun hstop =>
      reader_cancelled hr (hI.cancelled hstop)
  · have hmove := workerMove_of_step hw
    have hall : ∀ v, (Function.update s.workers w k v).pc = .stopped →
        Unreachable (sh.reg v) ∧ (sh.closeReg v).closed = true := by
      intro v hstop
      by_cases hv : v = w
      · subst hv
        rw [Function.update_self] at hstop
        exact hmove.stopped hstop
      · rw [Function.update_of_ne hv] at hstop
        rw [(hmove.other_channels hv).1, (hmove.other_channels hv).2]
        exact ⟨hI.opens v hstop, hI.closes v hstop⟩
    refine ⟨fun v hv => (hall v hv).1, fun v hv => (hall v hv).2, fun hstop => ?_⟩
    rw [hmove.footprint.cancelled]
    exact hI.cancelled hstop
  · have hmove := writerMove_of_step hw
    refine hI.of_channels rfl (fun v => ⟨hmove.closeReg_closed v, ?_⟩) ?_
    · rw [(writer_footprint hw).reg]
      exact id
    · exact hmove.cancelled hI.cancelled
  · exact hI.of_channels rfl (fun _ => ⟨rfl, id⟩) fun _ => rfl

theorem exits_invariant (cfg : MuxConfig) : (mux cfg).Invariant anyStep Exits :=
  Invariant.of_step (exits_init cfg) fun _ _ _ hI _ h => step_exits hI h

/-! ## Poisoned windows -/

/-- The window is poisoned and nobody waits for it. -/
def Released (w : SendWindow) : Prop := w.isClosed = true ∧ w.waker.registered = false

theorem close_released (w : SendWindow) : Released w.close := by
  refine ⟨by simp [SendWindow.close, SendWindow.isClosed], ?_⟩
  simp only [SendWindow.close, AtomicWaker.wake]
  split
  · rfl
  · next hnone => simpa using hnone

/-- A stream that is removed has its window poisoned. -/
theorem removeStream_released (i : StreamId) (k : Worker) (sh : Shared) {id : StreamId}
    (hid : id ∈ k.streams) :
    id ∈ (removeStream i k sh).1.streams ∨ Released ((removeStream i k sh).2.windows id) := by
  by_cases hi : id = i
  · subst hi
    obtain ⟨st, hst⟩ := Option.isSome_iff_exists.1 (AList.lookup_isSome.2 hid)
    refine .inr ?_
    simp only [removeStream, hst, Shared.updWindow, Function.update_self]
    exact close_released _
  · exact .inl (AList.mem_erase.2 ⟨hi, hid⟩)

theorem refuseStreams_released (ids : List StreamId) (k : Worker) (sh : Shared) {id : StreamId}
    (hid : id ∈ k.streams) :
    id ∈ (refuseStreams ids k sh).1.streams ∨
      Released ((refuseStreams ids k sh).2.windows id) := by
  induction ids generalizing k sh with
  | nil => exact .inl hid
  | cons i rest ih =>
      rw [refuseStreams]
      by_cases hin : id ∈ (removeStream i k sh).1.streams
      · exact ih _ _ hin
      · refine .inr ?_
        rw [(refuseStreams_windows rest _ _).windows id (.inr hin)]
        exact (removeStream_released i k sh hid).resolve_left hin

theorem applyRegistration_released {order : List StreamId} {reg : StreamRegistration}
    {k k' : Worker} {sh sh' : Shared} {id : StreamId}
    (h : applyRegistration order reg k sh = some (k', sh')) (hid : id ∈ k.streams) :
    id ∈ k'.streams ∨ Released (sh'.windows id) := by
  unfold applyRegistration at h
  cases reg with
  | openStream i r =>
      cases h
      exact .inl (AList.mem_insert _ |>.2 (.inr hid))
  | close i =>
      cases h
      exact removeStream_released i k sh hid
  | settingsWindowDelta delta =>
      cases h
      exact .inl hid
  | goAway last status =>
      simp only at h
      split at h
      · rw [Option.some.injEq] at h
        have hrefuse := refuseStreams_released order k sh hid
        rwa [h] at hrefuse
      · contradiction

/-- A frame removes no stream that is still received from without poisoning it. -/
theorem dispatch_released (n : UInt32) (frame : Frame) (k : Worker) (sh : Shared)
    {id : StreamId} (hid : id ∈ k.streams)
    (hopen : ∀ r, k.sender id = some r → (sh.chans r).chan.closed = false) :
    id ∈ (dispatchFrameInWorker n frame k sh).1.streams ∨
      Released ((dispatchFrameInWorker n frame k sh).2.windows id) := by
  cases hends : frameEnds id k sh frame with
  | false => exact .inl (dispatch_keeps n hends hid)
  | true =>
      cases frame with
      | rstStream i status => exact removeStream_released i k sh hid
      | data i payload fin =>
          simp only [frameEnds, Bool.and_eq_true, beq_iff_eq] at hends
          obtain ⟨rfl, hclosed⟩ := hends
          split at hclosed
          · next r hr =>
              rw [hopen r hr] at hclosed
              contradiction
          · contradiction
      | _ => contradiction

theorem closeAll_released (k : Worker) (sh : Shared) {id : StreamId} (hid : id ∈ k.streams) :
    Released ((closeAll k sh).windows id) := by
  simp only [closeAll, if_pos hid]
  exact close_released _

/-- The worker has the stream, or its `Open` is waiting for the worker. -/
def Kept (w : Shard) (k : Worker) (sh : Shared) (id : StreamId) : Prop :=
  id ∈ openIds (sh.reg w).queue ∨ id ∈ k.streams

/-- A worker keeps a stream or poisons its window, unless it drops the `Open`. -/
theorem WorkerMove.kept {cfg : MuxConfig} {order : List StreamId} {w : Shard}
    {k k' : Worker} {sh sh' : Shared} (h : WorkerMove cfg order w k sh k' sh') {id : StreamId}
    (hopen : ∀ r, k.sender id = some r → (sh.chans r).chan.closed = false)
    (hexit : k.pc ≠ .exiting) (hkept : Kept w k sh id) :
    Kept w k' sh' id ∨ Released (sh'.windows id) := by
  cases h with
  | takeClose pc hpc hfrom hrecv happly =>
      have hcall := applyRegistration_callFootprint happly
      rcases hkept with hq | hid
      · refine .inl (.inl ?_)
        rw [hcall.reg]
        exact hq
      · exact (applyRegistration_released happly hid).imp_left .inr
  | @takeReg reg c _ _ pc hpc hfrom hrecv happly =>
      have hcall := applyRegistration_callFootprint happly
      rcases hkept with hq | hid
      · rw [Chan.recv_eq_some hrecv, mem_openIds] at hq
        obtain ⟨r, hr⟩ := hq
        refine .inl ?_
        rcases List.mem_cons.1 hr with rfl | hr
        · simp only [applyRegistration] at happly
          cases happly
          exact .inr (AList.mem_insert _ |>.2 (.inl rfl))
        · refine .inl ?_
          rw [hcall.reg]
          simp only [Shared.setReg, Function.update_self]
          exact mem_openIds.2 ⟨r, hr⟩
      · exact (applyRegistration_released happly hid).imp_left .inr
  | @takeFrame frame c hpc hrecv =>
      have hcall := dispatch_callFootprint cfg.initialWindowSize frame
        { k with pc := .drainClose } (sh.setFrames w c)
      rcases hkept with hq | hid
      · refine .inl (.inl ?_)
        rw [hcall.reg]
        exact hq
      · exact (dispatch_released cfg.initialWindowSize frame { k with pc := .drainClose }
          (sh.setFrames w c) hid hopen).imp_left .inr
  | move pc hfrom hto => exact .inl hkept
  | shutdown hpc =>
      have hcall := closeAll_callFootprint k sh
      rcases hkept with hq | hid
      · refine .inl (.inl ?_)
        rw [hcall.reg]
        exact hq
      · exact .inr (closeAll_released k sh hid)
  | exit hpc => exact absurd hpc hexit

/-- A worker leaves the windows of streams it does not have alone. -/
theorem WorkerMove.windows_other {cfg : MuxConfig} {order : List StreamId} {w : Shard}
    {k k' : Worker} {sh sh' : Shared} (h : WorkerMove cfg order w k sh k' sh') {id : StreamId}
    (hid : id ∉ k.streams) : sh'.windows id = sh.windows id := by
  have happly : ∀ {reg pc sh₀ k' sh'},
      applyRegistration order reg { k with pc := pc } sh₀ = some (k', sh') →
        sh'.windows id = sh₀.windows id := by
    intro reg pc sh₀ k' sh' happly
    rcases applyRegistration_windows happly with ⟨hkeep, -⟩ | ⟨i, r, -, -, hsame, -⟩ |
      ⟨delta, -, -, rfl⟩
    · exact hkeep.windows id (.inr hid)
    · rw [hsame]
    · simp [hid]
  cases h with
  | takeClose pc hpc hfrom hrecv h =>
      rw [happly h]
      rfl
  | takeReg pc hpc hfrom hrecv h =>
      rw [happly h]
      rfl
  | @takeFrame frame c hpc hrecv =>
      rcases dispatch_windows cfg.initialWindowSize frame { k with pc := .drainClose }
        (sh.setFrames w c) with hkeep | ⟨i, delta, -, hin, -, hsh⟩
      · exact hkeep.windows id (.inr hid)
      · have hne : id ≠ i := by
          rintro rfl
          exact hid hin
        rw [hsh]
        simp [Shared.updWindow, Shared.setFrames, hne]
  | move pc hfrom hto => rfl
  | shutdown hpc =>
      exact (closeAll_windows k ⟨.exiting, ∅, ∅⟩ sh fun _ => AList.notMem_empty _).windows id
        (.inr hid)
  | exit hpc =>
      exact congrFun (foldl_dropTx_windows (queuedSenders (sh.reg w).queue) sh).1 id

end KubePortForward.Mux

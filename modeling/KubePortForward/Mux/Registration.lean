import KubePortForward.Mux.Ownership

/-!
# Registrations of streams with their workers

Realizations enqueue `Open`, guards and the writer enqueue `Close`, the reader
broadcasts window deltas with the opens and GOAWAYs with the closes.  A worker
drains its closes before its opens.

## Main results

* `client_closes`, `realizeStep_closes`, `realizeStep_reg`, `reader_reg`,
  `reader_closes`, `WriterMove.closes` — what each task enqueues.
* `WorkerMove.regs` — what a worker takes.
* `registrations_invariant` — an id is registered once, with the worker of its
  shard.
-/

namespace KubePortForward.Mux

open KubePortForward.Codec
open KubePortForward.Verified.Channel
open KubePortForward.Verified.Transition

/-! ## What each task adds to the registration channels -/

/-- The `Close` of `id` is enqueued with its worker, and nothing else. -/
structure EnqueuesClose (sh sh' : Shared) (id : StreamId) : Prop where
  queue : ∀ w, (sh'.closeReg w).queue =
    (sh.closeReg w).queue ++ if w = shardOf id then [.close id] else []
  log : sh'.history.closeLog = sh.history.closeLog ++ [id]

/-- No registration is enqueued for closing. -/
structure KeepsCloses (sh sh' : Shared) : Prop where
  queue : ∀ w, (sh'.closeReg w).queue = (sh.closeReg w).queue
  log : sh'.history.closeLog = sh.history.closeLog

theorem KeepsCloses.mem {sh sh' : Shared} (h : KeepsCloses sh sh') (w : Shard) :
    ∀ reg ∈ (sh.closeReg w).queue, reg ∈ (sh'.closeReg w).queue := by
  intro reg hreg
  rw [h.queue]
  exact hreg

theorem EnqueuesClose.mem {sh sh' : Shared} {id : StreamId} (h : EnqueuesClose sh sh' id)
    (w : Shard) : ∀ reg ∈ (sh.closeReg w).queue, reg ∈ (sh'.closeReg w).queue := by
  intro reg hreg
  rw [h.queue]
  exact List.mem_append_left _ hreg

theorem sendClose_enqueues {sh sh' : Shared} {id : StreamId}
    (h : sh.sendClose id = .ok sh') : EnqueuesClose sh sh' id := by
  unfold Shared.sendClose at h
  split at h
  · next c hsend =>
      cases h
      refine ⟨fun w => ?_, rfl⟩
      by_cases hw : w = shardOf id
      · subst hw
        simp [Shared.setCloseReg, Chan.trySend_queue hsend]
      · simp [Shared.setCloseReg, hw]
  · contradiction

theorem sendReservedClose_enqueues {sh sh' : Shared} {id : StreamId}
    (h : sh.sendReservedClose id = some sh') : EnqueuesClose sh sh' id := by
  unfold Shared.sendReservedClose at h
  split at h
  · cases h
    refine ⟨fun w => ?_, rfl⟩
    by_cases hw : w = shardOf id
    · subst hw
      simp [Shared.setCloseReg]
    · simp [Shared.setCloseReg, hw]
  · contradiction

/-- A guard closes the two streams it guards. -/
theorem client_closes {cfg : MuxConfig} {p : Nat} {a : ClientAct} {sh sh' : Shared}
    {pr pr' : Pair} (h : clientStep cfg p a sh pr = some (sh', pr')) :
    KeepsCloses sh sh' ∨
      (pr.phase.guarded = true ∧ ∃ kind, EnqueuesClose sh sh' (pr.idOf kind)) := by
  cases a with
  | dropStep =>
      simp only [clientStep, Pair.dropStep] at h
      split at h
      · cases h
        exact .inl ⟨fun _ => rfl, rfl⟩
      · (repeat' split at h) <;> cases h <;> exact .inl ⟨fun _ => rfl, rfl⟩
      · next hphase =>
          obtain ⟨sh'', hsend, heq⟩ := Option.map_eq_some_iff.1 h
          cases heq
          exact .inr ⟨by rw [hphase]; rfl, .error, sendReservedClose_enqueues hsend⟩
      · next hphase =>
          obtain ⟨sh'', hsend, heq⟩ := Option.map_eq_some_iff.1 h
          cases heq
          exact .inr ⟨by rw [hphase]; rfl, .data, sendReservedClose_enqueues hsend⟩
      · cases h
        exact .inl ⟨fun _ => rfl, rfl⟩
      · cases h
        refine .inl ⟨fun _ => ?_, ?_⟩ <;> split <;> rfl
      · contradiction
  | dropRest =>
      simp only [clientStep, Pair.dropRest] at h
      (repeat' split at h) <;> first
        | contradiction
        | cases h
          exact .inl ⟨fun _ => rfl, rfl⟩
  | _ =>
      refine .inl ?_
      simp only [clientStep, Pair.openBegin, Pair.openStep, Pair.read, Pair.fillBuf,
        Pair.consume, Pair.writeBegin, Pair.writeReserve, Pair.writePick,
        Pair.writeRecheck, Pair.writeDebit, Pair.writeSend, Pair.shutdown,
        Pair.dropReceiver] at h
      (repeat' split at h) <;> first
        | contradiction
        | cases h
          exact ⟨fun _ => rfl, rfl⟩

/-- The `Open` of `id` is enqueued with its worker, and nothing else. -/
structure EnqueuesOpen (sh sh' : Shared) (id : StreamId) (r : ChanRef) : Prop where
  queue : ∀ w, (sh'.reg w).queue =
    (sh.reg w).queue ++ if w = shardOf id then [.openStream id r] else []
  log : sh'.history.openLog = sh.history.openLog ++ [id]

theorem sendOpen_enqueues {sh sh' : Shared} {id : StreamId} {r : ChanRef}
    (h : sh.sendOpen id r = some sh') : EnqueuesOpen sh sh' id r := by
  unfold Shared.sendOpen at h
  split at h
  · next c hsend =>
      cases h
      refine ⟨fun w => ?_, rfl⟩
      by_cases hw : w = shardOf id
      · subst hw
        simp [Shared.setReg, Chan.trySend_queue hsend]
      · simp [Shared.setReg, hw]
  · contradiction

theorem sendOpen_keepsCloses {sh sh' : Shared} {id : StreamId} {r : ChanRef}
    (h : sh.sendOpen id r = some sh') : KeepsCloses sh sh' := by
  unfold Shared.sendOpen at h
  split at h
  · cases h
    exact ⟨fun _ => rfl, rfl⟩
  · contradiction

theorem sendCloseOrDrop_closes (sh : Shared) (id : StreamId) :
    KeepsCloses sh (sh.sendCloseOrDrop id) ∨
      EnqueuesClose sh (sh.sendCloseOrDrop id) id := by
  unfold Shared.sendCloseOrDrop
  split
  · next hsend => exact .inr (sendClose_enqueues hsend)
  · exact .inl ⟨fun _ => rfl, rfl⟩

theorem setCloseReg_keepsCloses {sh : Shared} {w : Shard} {c : Chan StreamRegistration}
    (h : c.queue = (sh.closeReg w).queue) : KeepsCloses sh (sh.setCloseReg w c) := by
  refine ⟨fun v => ?_, rfl⟩
  by_cases hv : v = w
  · subst hv
    simp [Shared.setCloseReg, h]
  · simp [Shared.setCloseReg, hv]

theorem releaseHeld_keepsCloses (sh : Shared) (id : StreamId) (held : Nat) :
    KeepsCloses sh (sh.releaseHeld id held) := by
  unfold Shared.releaseHeld
  simp only
  split
  · have hk := setCloseReg_keepsCloses (Chan.releaseReserved_queue (sh.closeReg (shardOf id)))
    exact ⟨hk.queue, hk.log⟩
  · exact ⟨fun _ => rfl, rfl⟩

/-- A realization that fails closes what it had registered. -/
theorem realizeStep_closes {z : Realize} {sh sh' : Shared} {pr pr' : Pair}
    {z' : Option Realize} (h : z.step sh pr = (sh', pr', z')) :
    KeepsCloses sh sh' ∨
      (z.pc.errorRegistered = true ∧ EnqueuesClose sh sh' z.errorId) ∨
      (z.pc.dataRegistered = true ∧ EnqueuesClose sh sh' z.dataId) := by
  unfold Realize.step at h
  cases hz : z.pc with
  | loadErrorWindow =>
      simp only [hz] at h
      cases h
      exact .inl ⟨fun _ => rfl, rfl⟩
  | loadDataWindow =>
      simp only [hz] at h
      cases h
      exact .inl ⟨fun _ => rfl, rfl⟩
  | registerError =>
      simp only [hz] at h
      split at h
      · next hsend =>
          cases h
          exact .inl (sendOpen_keepsCloses hsend)
      · cases h
        exact .inl ⟨fun _ => rfl, rfl⟩
  | registerData =>
      simp only [hz] at h
      split at h
      · next hsend =>
          cases h
          exact .inl (sendOpen_keepsCloses hsend)
      · cases h
        exact .inl ⟨fun _ => rfl, rfl⟩
  | enqueueOpen =>
      simp only [hz] at h
      split at h <;> cases h <;> exact .inl ⟨fun _ => rfl, rfl⟩
  | reserveCtrlError =>
      simp only [hz] at h
      split at h <;> cases h <;> exact .inl ⟨fun _ => rfl, rfl⟩
  | reserveCtrlData =>
      simp only [hz] at h
      split at h <;> cases h <;> exact .inl ⟨fun _ => rfl, rfl⟩
  | reserveCloseError =>
      simp only [hz] at h
      split at h
      · next hres =>
          cases h
          exact .inl (setCloseReg_keepsCloses (Chan.tryReserve_queue hres))
      · cases h
        exact .inl ⟨fun _ => rfl, rfl⟩
  | reserveCloseData =>
      simp only [hz] at h
      split at h
      · next hres =>
          cases h
          exact .inl (setCloseReg_keepsCloses (Chan.tryReserve_queue hres))
      · cases h
        exact .inl ⟨fun _ => rfl, rfl⟩
  | cleanupErrorOnly =>
      simp only [hz] at h
      cases h
      rcases sendCloseOrDrop_closes sh z.errorId with hk | hk
      · exact .inl hk
      · exact .inr (.inl ⟨rfl, hk⟩)
  | cleanupError held =>
      simp only [hz] at h
      cases h
      rcases sendCloseOrDrop_closes sh z.errorId with hk | hk
      · exact .inl hk
      · exact .inr (.inl ⟨rfl, hk⟩)
  | cleanupData held =>
      simp only [hz] at h
      cases h
      have hrel := releaseHeld_keepsCloses (sh.sendCloseOrDrop z.dataId) z.errorId held
      rcases sendCloseOrDrop_closes sh z.dataId with hk | hk
      · exact .inl ⟨fun w => (hrel.queue w).trans (hk.queue w), hrel.log.trans hk.log⟩
      · exact .inr (.inr ⟨rfl, fun w => (hrel.queue w).trans (hk.queue w),
          hrel.log.trans hk.log⟩)

/-- The `Open`s of a pair are enqueued in turn, each naming its own half. -/
theorem realizeStep_reg {z : Realize} {sh sh' : Shared} {pr pr' : Pair}
    {z' : Option Realize} (h : z.step sh pr = (sh', pr', z')) :
    (sh'.reg = sh.reg ∧ sh'.history.openLog = sh.history.openLog) ∨
    (z.pc = .registerError ∧ z' = some { z with pc := .registerData } ∧ pr' = pr ∧
      EnqueuesOpen sh sh' z.errorId ⟨z.pair, .error⟩ ∧ KeepsCloses sh sh') ∨
    (z.pc = .registerData ∧ z' = some { z with pc := .enqueueOpen } ∧ pr' = pr ∧
      EnqueuesOpen sh sh' z.dataId ⟨z.pair, .data⟩ ∧ KeepsCloses sh sh') := by
  unfold Realize.step at h
  cases hz : z.pc with
  | registerError =>
      simp only [hz] at h
      split at h
      · next hsend =>
          cases h
          exact .inr (.inl ⟨rfl, rfl, rfl, sendOpen_enqueues hsend,
            sendOpen_keepsCloses hsend⟩)
      · cases h
        exact .inl ⟨rfl, rfl⟩
  | registerData =>
      simp only [hz] at h
      split at h
      · next hsend =>
          cases h
          exact .inr (.inr ⟨rfl, rfl, rfl, sendOpen_enqueues hsend,
            sendOpen_keepsCloses hsend⟩)
      · cases h
        exact .inl ⟨rfl, rfl⟩
  | _ =>
      refine .inl ?_
      simp only [hz, Shared.releaseHeld, Shared.sendCloseOrDrop, Shared.sendClose] at h
      (repeat' split at h) <;> cases h <;>
        grind [Shared.updChan, Shared.updWindow, Shared.dropTx, Shared.setCloseReg,
          Shared.dropPairTx]

theorem realizeBegin_regs {p : Nat} {sh sh' : Shared} {pr pr' : Pair}
    {z : Option Realize} (h : realizeBegin p sh pr = (sh', pr', z)) :
    sh'.reg = sh.reg ∧ sh'.closeReg = sh.closeReg := by
  simp only [realizeBegin] at h
  (repeat' split at h) <;> cases h <;> exact ⟨rfl, rfl⟩

/-- The reader broadcasts a window delta, one worker at a time. -/
theorem reader_reg {cfg : MuxConfig} {a : ReaderAct} {sh sh' : Shared} {r r' : Reader}
    (h : readerStep cfg a sh r = some (sh', r')) :
    sh'.reg = sh.reg ∨
    ∃ (w : Shard) (delta : Int) (mc mf : Option UInt32), a = .step ∧
      r.pc = .settingsDelta delta w mc mf ∧ r'.pc = .settingsDelta delta (w + 1) mc mf ∧
      sh' = sh.setReg w ((sh.reg w).sendOrDrop (.settingsWindowDelta delta)) := by
  cases a with
  | step =>
      simp only [readerStep, Reader.step] at h
      cases hpc : r.pc with
      | settingsDelta delta next mc mf =>
          simp only [hpc] at h
          split at h
          · next hlt =>
              cases h
              exact .inr ⟨⟨next, hlt⟩, delta, mc, mf, rfl, rfl, rfl, rfl⟩
          · cases h
            exact .inl rfl
      | _ =>
          simp only [hpc] at h
          (repeat' split at h) <;> cases h <;> exact .inl rfl
  | _ =>
      refine .inl ?_
      simp only [readerStep, Reader.receive, Reader.rejectTooLarge, Reader.receiveWsPing,
        Reader.message, Reader.idleProbe, Reader.exit, routeFrame, creditSession] at h
      (repeat' split at h) <;> first
        | contradiction
        | cases h
          rfl

/-- The reader broadcasts a GOAWAY, one worker at a time. -/
theorem reader_closes {cfg : MuxConfig} {a : ReaderAct} {sh sh' : Shared} {r r' : Reader}
    (h : readerStep cfg a sh r = some (sh', r')) :
    sh'.closeReg = sh.closeReg ∨
    ∃ (w : Shard) (last : StreamId) (status : UInt32),
      r.pc = .goAway last status w ∧
      sh'.closeReg = Function.update sh.closeReg w
        ((sh.closeReg w).sendOrDrop (.goAway last status)) := by
  cases a with
  | step =>
      simp only [readerStep, Reader.step] at h
      cases hpc : r.pc with
      | goAway last status next =>
          simp only [hpc] at h
          split at h
          · next hlt =>
              cases h
              exact .inr ⟨⟨next, hlt⟩, last, status, rfl, rfl⟩
          · cases h
            exact .inl rfl
      | _ =>
          simp only [hpc] at h
          (repeat' split at h) <;> cases h <;> exact .inl rfl
  | _ =>
      refine .inl ?_
      simp only [readerStep, Reader.receive, Reader.rejectTooLarge, Reader.receiveWsPing,
        Reader.message, Reader.idleProbe, Reader.exit, routeFrame, creditSession] at h
      (repeat' split at h) <;> first
        | contradiction
        | cases h
          rfl

/-- The writer tells the workers about the streams it has reset. -/
theorem WriterMove.closes {sh sh' : Shared} {wr wr' : Writer}
    (h : WriterMove sh wr sh' wr') :
    KeepsCloses sh sh' ∨ ∃ id rest requeued,
      wr.pc = .closes (id :: rest) requeued ∧ EnqueuesClose sh sh' id := by
  cases h with
  | sendClose hout hpc hsend => exact .inr ⟨_, _, _, hpc, sendClose_enqueues hsend⟩
  | _ => exact .inl ⟨fun _ => rfl, rfl⟩

/-! ## Which streams a worker knows -/

/-- The stream has an entry in one of the worker's maps. -/
def Worker.knows (k : Worker) (id : StreamId) : Prop :=
  id ∈ k.streams ∨ id ∈ k.pendingReplies

/-- Neither of the worker's maps gains an entry. -/
structure Shrinks (k k' : Worker) : Prop where
  streams : ∀ id ∈ k'.streams, id ∈ k.streams
  replies : k'.pendingReplies ⊆ k.pendingReplies

theorem Shrinks.rfl {k : Worker} : Shrinks k k :=
  ⟨fun _ h => h, fun _ h => h⟩

theorem Shrinks.trans {k k' k'' : Worker} (h : Shrinks k k') (h' : Shrinks k' k'') :
    Shrinks k k'' :=
  ⟨fun id hid => h.streams id (h'.streams id hid), h'.replies.trans h.replies⟩

theorem Shrinks.knows {k k' : Worker} {id : StreamId} (h : Shrinks k k')
    (hk : k'.knows id) : k.knows id :=
  hk.imp (h.streams id) fun hid => h.replies hid

/-- Rewriting an entry that exists adds none. -/
theorem mem_streams_of_insert {k : Worker} {id id' : StreamId} {st st' : StreamState}
    (hst : k.streams.lookup id = some st) (h : id' ∈ k.streams.insert id st') :
    id' ∈ k.streams := by
  rw [AList.mem_insert] at h
  rcases h with rfl | h
  · apply AList.lookup_isSome.1
    rw [hst]
    rfl
  · exact h

theorem removeStream_knows {id id' : StreamId} {k : Worker} (sh : Shared)
    (h : (removeStream id k sh).1.knows id') : k.knows id' ∧ id' ≠ id := by
  simp only [removeStream, Worker.knows, AList.mem_erase, Finset.mem_erase] at h
  rcases h with ⟨hne, h⟩ | ⟨hne, h⟩
  · exact ⟨.inl h, hne⟩
  · exact ⟨.inr h, hne⟩

theorem removeStream_shrinks (id : StreamId) (k : Worker) (sh : Shared) :
    Shrinks k (removeStream id k sh).1 :=
  ⟨fun _ h => (AList.mem_erase.1 h).2, Finset.erase_subset _ _⟩

theorem refuseStreams_shrinks (ids : List StreamId) (k : Worker) (sh : Shared) :
    Shrinks k (refuseStreams ids k sh).1 := by
  induction ids generalizing k sh with
  | nil => exact Shrinks.rfl
  | cons i ids ih => exact (removeStream_shrinks i k sh).trans (ih _ _)

theorem halfClose_shrinks (id : StreamId) (k : Worker) (sh : Shared) :
    Shrinks k (halfClose id k sh).1 := by
  unfold halfClose
  split
  · next st hst => exact ⟨fun _ h => mem_streams_of_insert hst h, fun _ h => h⟩
  · exact Shrinks.rfl

theorem deliverPayload_shrinks (n : UInt32) (id : StreamId) (payload : Bytes)
    (k : Worker) (sh : Shared) : Shrinks k (deliverPayload n id payload k sh).1 := by
  unfold deliverPayload
  split
  · exact Shrinks.rfl
  · cases hst : k.streams.lookup id with
    | none => exact Shrinks.rfl
    | some st =>
        simp only
        (repeat' split)
        · exact Shrinks.rfl
        · exact ⟨fun _ h => mem_streams_of_insert hst h, fun _ h => h⟩
        · exact Shrinks.rfl
        · exact ⟨fun _ h => (AList.mem_erase.1 h).2, fun _ h => h⟩

theorem answerReply_shrinks (id : StreamId) (k : Worker) (sh : Shared) :
    Shrinks k (answerReply id k sh).1 := by
  unfold answerReply
  split
  · exact ⟨fun _ h => h, Finset.erase_subset _ _⟩
  · split <;> exact Shrinks.rfl

/-- Dispatching a frame registers nothing. -/
theorem dispatch_shrinks (n : UInt32) (frame : Frame) (k : Worker) (sh : Shared) :
    Shrinks k (dispatchFrameInWorker n frame k sh).1 := by
  cases frame with
  | data id' payload fin =>
      have hdeliver := deliverPayload_shrinks n id' payload k sh
      simp only [dispatchFrameInWorker]
      split
      · exact hdeliver
      · split
        · exact hdeliver.trans (halfClose_shrinks _ _ _)
        · exact hdeliver
  | synReply id' headers fin =>
      have hanswer := answerReply_shrinks id' k sh
      simp only [dispatchFrameInWorker]
      split
      · exact hanswer.trans (halfClose_shrinks _ _ _)
      · exact hanswer
  | rstStream id' status => exact removeStream_shrinks id' k sh
  | windowUpdate id' delta =>
      simp only [dispatchFrameInWorker]
      split <;> exact Shrinks.rfl
  | _ => exact Shrinks.rfl

/-- Only an `Open` makes a stream known, and a `Close` forgets it. -/
theorem applyRegistration_knows {order : List StreamId} {reg : StreamRegistration}
    {k k' : Worker} {sh sh' : Shared} {id : StreamId}
    (h : applyRegistration order reg k sh = some (k', sh')) (hk : k'.knows id) :
    reg ≠ .close id ∧ (k.knows id ∨ ∃ r, reg = .openStream id r) := by
  unfold applyRegistration at h
  cases reg with
  | openStream id' r =>
      cases h
      refine ⟨by simp, ?_⟩
      simp only [Worker.knows, AList.mem_insert, Finset.mem_insert] at hk
      rcases hk with (rfl | hk) | (rfl | hk)
      · exact .inr ⟨r, rfl⟩
      · exact .inl (.inl hk)
      · exact .inr ⟨r, rfl⟩
      · exact .inl (.inr hk)
  | close id' =>
      cases h
      obtain ⟨hknown, hne⟩ := removeStream_knows sh hk
      exact ⟨by simpa using hne.symm, .inl hknown⟩
  | settingsWindowDelta delta =>
      cases h
      exact ⟨by simp, .inl hk⟩
  | goAway last status =>
      simp only at h
      split at h
      · rw [Option.some.injEq] at h
        refine ⟨by simp, .inl ?_⟩
        have hk' : (refuseStreams order k sh).1.knows id := by rw [h]; exact hk
        exact (refuseStreams_shrinks order k sh).knows hk'
      · contradiction

/-! ## Where a worker's calls leave its loop -/

theorem refuseStreams_pc (ids : List StreamId) (k : Worker) (sh : Shared) :
    (refuseStreams ids k sh).1.pc = k.pc := by
  induction ids generalizing k sh with
  | nil => rfl
  | cons id ids ih =>
      rw [refuseStreams]
      exact ih _ _

theorem applyRegistration_pc {order : List StreamId} {reg : StreamRegistration}
    {k k' : Worker} {sh sh' : Shared}
    (h : applyRegistration order reg k sh = some (k', sh')) : k'.pc = k.pc := by
  unfold applyRegistration at h
  cases reg with
  | goAway last status =>
      simp only at h
      split at h
      · rw [Option.some.injEq] at h
        have hpc := refuseStreams_pc order k sh
        rwa [h] at hpc
      · contradiction
  | _ =>
      cases h
      rfl

theorem halfClose_pc (id : StreamId) (k : Worker) (sh : Shared) :
    (halfClose id k sh).1.pc = k.pc := by
  unfold halfClose
  split <;> rfl

theorem deliverPayload_pc (n : UInt32) (id : StreamId) (payload : Bytes) (k : Worker)
    (sh : Shared) : (deliverPayload n id payload k sh).1.pc = k.pc := by
  unfold deliverPayload
  (repeat' split) <;> rfl

theorem answerReply_pc (id : StreamId) (k : Worker) (sh : Shared) :
    (answerReply id k sh).1.pc = k.pc := by
  unfold answerReply
  (repeat' split) <;> rfl

theorem dispatch_pc (n : UInt32) (frame : Frame) (k : Worker) (sh : Shared) :
    (dispatchFrameInWorker n frame k sh).1.pc = k.pc := by
  cases frame with
  | data id payload fin =>
      have hdeliver := deliverPayload_pc n id payload k sh
      simp only [dispatchFrameInWorker]
      (repeat' split) <;> simp only [halfClose_pc, hdeliver]
  | synReply id headers fin =>
      have hanswer := answerReply_pc id k sh
      simp only [dispatchFrameInWorker]
      split <;> simp only [halfClose_pc, hanswer]
  | windowUpdate id delta =>
      simp only [dispatchFrameInWorker]
      split <;> rfl
  | _ => rfl

/-- The worker has shut down. -/
def WorkerPc.gone : WorkerPc → Bool
  | .exiting => true
  | .stopped => true
  | _ => false

/-! ## The invariant of the registration channels -/

/-- The ids of the `Open`s in a queue, in order. -/
def openIds (q : List StreamRegistration) : List StreamId :=
  q.filterMap fun
    | .openStream id _ => some id
    | _ => none

@[simp] theorem openIds_append (xs ys : List StreamRegistration) :
    openIds (xs ++ ys) = openIds xs ++ openIds ys :=
  List.filterMap_append ..

theorem mem_openIds {q : List StreamRegistration} {id : StreamId} :
    id ∈ openIds q ↔ ∃ r, .openStream id r ∈ q := by
  simp only [openIds, List.mem_filterMap]
  constructor
  · rintro ⟨reg, hreg, heq⟩
    cases reg <;> simp only [Option.some.injEq, reduceCtorEq] at heq
    exact ⟨_, heq ▸ hreg⟩
  · rintro ⟨r, hr⟩
    exact ⟨_, hr, rfl⟩

/-- The reader queues no registration of a stream. -/
theorem reader_openIds {cfg : MuxConfig} {a : ReaderAct} {sh sh' : Shared} {r r' : Reader}
    (h : readerStep cfg a sh r = some (sh', r')) (w : Shard) :
    openIds (sh'.reg w).queue = openIds (sh.reg w).queue := by
  rcases reader_reg h with hreg | ⟨v, delta, mc, mf, -, -, -, rfl⟩
  · rw [hreg]
  · by_cases hv : w = v
    · subst hv
      rcases Chan.sendOrDrop_queue (sh.reg w) (.settingsWindowDelta delta) with hq | hq <;>
        simp [Shared.setReg, hq, openIds]
    · simp [Shared.setReg, hv]

/-- Which registrations travel with the opens. -/
def StreamRegistration.isOpening : StreamRegistration → Bool
  | .openStream _ _ => true
  | .settingsWindowDelta _ => true
  | _ => false

/-- Every id is registered once, with the worker of its shard: it waits in the
queue or is known, never both. -/
structure Registrations (s : MuxState) : Prop where
  regKinds : ∀ w, ∀ reg ∈ (s.shared.reg w).queue, reg.isOpening = true
  closeKinds : ∀ w, ∀ reg ∈ (s.shared.closeReg w).queue, reg.isOpening = false
  nodup : ∀ w, (openIds (s.shared.reg w).queue).Nodup
  queued : ∀ w, ∀ id ∈ openIds (s.shared.reg w).queue,
    shardOf id = w ∧ id ∈ s.shared.history.openLog ∧ ¬ (s.workers w).knows id
  known : ∀ w id, (s.workers w).knows id → shardOf id = w ∧ id ∈ s.shared.history.openLog
  gone : ∀ w, (s.workers w).pc.gone = true → ∀ id, ¬ (s.workers w).knows id

theorem registrations_init (cfg : MuxConfig) : Registrations (MuxState.init cfg) := by
  constructor <;> simp [MuxState.init, Shared.init, openIds, Worker.init, Worker.knows]

theorem sendOrDrop_mem {α : Type} {c : Chan α} {x y : α}
    (h : y ∈ (c.sendOrDrop x).queue) : y ∈ c.queue ∨ y = x := by
  rcases Chan.sendOrDrop_queue c x with hq | hq <;> rw [hq] at h
  · exact .inl h
  · simpa using h

/-- A step that enqueues no `Open` and keeps the two kinds of registrations
apart keeps the invariant, as long as no worker learns a stream. -/
theorem Registrations.of_opens_eq {s s' : MuxState} (hI : Registrations s)
    (hopens : ∀ w, openIds (s'.shared.reg w).queue = openIds (s.shared.reg w).queue)
    (hreg : ∀ w, ∀ reg ∈ (s'.shared.reg w).queue,
      reg ∈ (s.shared.reg w).queue ∨ reg.isOpening = true)
    (hclose : ∀ w, ∀ reg ∈ (s'.shared.closeReg w).queue,
      reg ∈ (s.shared.closeReg w).queue ∨ reg.isOpening = false)
    (hlog : s'.shared.history.openLog = s.shared.history.openLog)
    (hworkers : s'.workers = s.workers) : Registrations s' where
  regKinds w reg h := (hreg w reg h).elim (hI.regKinds w reg) id
  closeKinds w reg h := (hclose w reg h).elim (hI.closeKinds w reg) id
  nodup := by
    intro w
    rw [hopens]
    exact hI.nodup w
  queued := by
    intro w id h
    rw [hopens] at h
    rw [hlog, hworkers]
    exact hI.queued w id h
  known := by
    intro w id h
    rw [hworkers] at h
    rw [hlog]
    exact hI.known w id h
  gone := by
    rw [hworkers]
    exact hI.gone

/-- In particular a step that leaves the opens' channels alone. -/
theorem Registrations.of_reg_eq {s s' : MuxState} (hI : Registrations s)
    (hreg : s'.shared.reg = s.shared.reg)
    (hclose : ∀ w, ∀ reg ∈ (s'.shared.closeReg w).queue,
      reg ∈ (s.shared.closeReg w).queue ∨ reg.isOpening = false)
    (hlog : s'.shared.history.openLog = s.shared.history.openLog)
    (hworkers : s'.workers = s.workers) : Registrations s' :=
  hI.of_opens_eq (fun w => by rw [hreg]) (fun w reg h => .inl (hreg ▸ h)) hclose hlog
    hworkers

theorem EnqueuesClose.closing {sh sh' : Shared} {id : StreamId} (h : EnqueuesClose sh sh' id)
    (w : Shard) : ∀ reg ∈ (sh'.closeReg w).queue,
      reg ∈ (sh.closeReg w).queue ∨ reg.isOpening = false := by
  intro reg hreg
  rw [h.queue, List.mem_append] at hreg
  rcases hreg with hreg | hreg
  · exact .inl hreg
  · split at hreg
    · rw [List.mem_singleton.1 hreg]
      exact .inr rfl
    · simp at hreg

theorem KeepsCloses.closing {sh sh' : Shared} (h : KeepsCloses sh sh') (w : Shard) :
    ∀ reg ∈ (sh'.closeReg w).queue,
      reg ∈ (sh.closeReg w).queue ∨ reg.isOpening = false := by
  intro reg hreg
  rw [h.queue] at hreg
  exact .inl hreg

/-- Enqueueing the `Open` of an id that was never registered. -/
theorem Registrations.enqueue {s s' : MuxState} {id : StreamId} {r : ChanRef}
    (hI : Registrations s) (hopen : EnqueuesOpen s.shared s'.shared id r)
    (hnew : id ∉ s.shared.history.openLog)
    (hclose : KeepsCloses s.shared s'.shared) (hworkers : s'.workers = s.workers) :
    Registrations s' := by
  have hfresh : ∀ w, id ∉ openIds (s.shared.reg w).queue := fun w h =>
    hnew (hI.queued w id h).2.1
  have hunknown : ∀ w, ¬ (s.workers w).knows id := fun w h => hnew (hI.known w id h).2
  have hopens : ∀ w, openIds (s'.shared.reg w).queue =
      openIds (s.shared.reg w).queue ++ if w = shardOf id then [id] else [] := by
    intro w
    rw [hopen.queue, openIds_append]
    split <;> rfl
  constructor
  · intro w reg h
    rw [hopen.queue, List.mem_append] at h
    rcases h with h | h
    · exact hI.regKinds w reg h
    · split at h
      · rw [List.mem_singleton.1 h]
        rfl
      · simp at h
  · intro w reg h
    rcases hclose.closing w reg h with h | h
    · exact hI.closeKinds w reg h
    · exact h
  · intro w
    rw [hopens]
    split
    · rw [List.nodup_append]
      refine ⟨hI.nodup w, by simp, ?_⟩
      simp only [List.mem_singleton, forall_eq]
      rintro x hx rfl
      exact hfresh w hx
    · simpa using hI.nodup w
  · intro w id' h
    rw [hopens, List.mem_append] at h
    rw [hopen.log, hworkers, List.mem_append]
    rcases h with h | h
    · obtain ⟨hshard, hlog, hun⟩ := hI.queued w id' h
      exact ⟨hshard, .inl hlog, hun⟩
    · split at h
      · next hw =>
          rw [List.mem_singleton.1 h]
          exact ⟨hw.symm, .inr (by simp), hunknown w⟩
      · simp at h
  · intro w id' h
    rw [hworkers] at h
    rw [hopen.log, List.mem_append]
    exact ⟨(hI.known w id' h).1, .inl (hI.known w id' h).2⟩
  · rw [hworkers]
    exact hI.gone

/-- What a worker's move does to registrations: it takes a `Close` side one, it
takes an `Open` side one, it leaves with both channels emptied, or it touches
neither channel and learns nothing. -/
inductive WorkerRegs (w : Shard) (k : Worker) (sh : Shared) (k' : Worker) (sh' : Shared) :
    Prop
  | takeClose (reg : StreamRegistration) (rest : List StreamRegistration)
      (hfrom : k.pc = .drainClose ∨ k.pc = .selectClose)
      (hqueue : (sh.closeReg w).queue = reg :: rest)
      (hclose : ∀ v, (sh'.closeReg v).queue = if v = w then rest else (sh.closeReg v).queue)
      (hreg : ∀ v, (sh'.reg v).queue = (sh.reg v).queue)
      (hknows : ∀ id, k'.knows id →
        reg ≠ .close id ∧ (k.knows id ∨ ∃ r, reg = .openStream id r))
      (hpc : k'.pc.gone = false)
  | takeReg (reg : StreamRegistration) (rest : List StreamRegistration)
      (hqueue : (sh.reg w).queue = reg :: rest)
      (hreg : ∀ v, (sh'.reg v).queue = if v = w then rest else (sh.reg v).queue)
      (hclose : ∀ v, (sh'.closeReg v).queue = (sh.closeReg v).queue)
      (hknows : ∀ id, k'.knows id →
        reg ≠ .close id ∧ (k.knows id ∨ ∃ r, reg = .openStream id r))
      (hpc : k'.pc.gone = false)
  | keep (hreg : ∀ v, (sh'.reg v).queue = (sh.reg v).queue)
      (hclose : ∀ v, (sh'.closeReg v).queue = (sh.closeReg v).queue)
      (hknows : ∀ id, k'.knows id → k.knows id)
      (hpc : k'.pc.gone = true → ∀ id, ¬ k'.knows id)
  | exit (hpc : k.pc = .exiting) (hk : k' = { k with pc := .stopped })
      (hreg : ∀ v, (sh'.reg v).queue = if v = w then [] else (sh.reg v).queue)
      (hclose : ∀ v, (sh'.closeReg v).queue = if v = w then [] else (sh.closeReg v).queue)

theorem WorkerMove.regs {cfg : MuxConfig} {order : List StreamId} {w : Shard}
    {k k' : Worker} {sh sh' : Shared} (h : WorkerMove cfg order w k sh k' sh') :
    WorkerRegs w k sh k' sh' := by
  cases h with
  | takeClose pc hpc hfrom hrecv happly =>
      have hcall := applyRegistration_callFootprint happly
      have hknows := fun id (hk : k'.knows id) => applyRegistration_knows happly hk
      refine .takeClose _ _ hfrom (Chan.recv_eq_some hrecv) (fun v => ?_) (fun v => ?_) hknows
        (by rw [applyRegistration_pc happly, hpc]; rfl)
      · rw [hcall.closeReg]
        by_cases hv : v = w
        · subst hv
          simp [Shared.setCloseReg]
        · simp [Shared.setCloseReg, hv]
      · rw [hcall.reg]
        rfl
  | takeReg pc hpc hfrom hrecv happly =>
      have hcall := applyRegistration_callFootprint happly
      have hknows := fun id (hk : k'.knows id) => applyRegistration_knows happly hk
      refine .takeReg _ _ (Chan.recv_eq_some hrecv) (fun v => ?_) (fun v => ?_) hknows
        (by rw [applyRegistration_pc happly]; rcases hpc with rfl | rfl <;> rfl)
      · rw [hcall.reg]
        by_cases hv : v = w
        · subst hv
          simp [Shared.setReg]
        · simp [Shared.setReg, hv]
      · rw [hcall.closeReg]
        rfl
  | @takeFrame frame c hpc hrecv =>
      have hcall := dispatch_callFootprint cfg.initialWindowSize frame
        { k with pc := .drainClose } (sh.setFrames w c)
      refine .keep (fun v => by rw [hcall.reg]; rfl) (fun v => by rw [hcall.closeReg]; rfl)
        (fun id hk => ?_) fun hgone => ?_
      · exact (dispatch_shrinks cfg.initialWindowSize frame { k with pc := .drainClose }
          (sh.setFrames w c)).knows hk
      · rw [dispatch_pc] at hgone
        contradiction
  | move pc hfrom hto =>
      refine .keep (fun _ => rfl) (fun _ => rfl) (fun _ hk => hk) fun hgone => ?_
      cases pc <;> simp_all [WorkerPc.gone]
  | shutdown hpc =>
      have hcall := closeAll_callFootprint k sh
      have hnone : ∀ id, ¬ Worker.knows ⟨.exiting, ∅, ∅⟩ id := by simp [Worker.knows]
      exact .keep (fun v => by rw [hcall.reg]) (fun v => by rw [hcall.closeReg])
        (fun id hk => absurd hk (hnone id)) fun _ => hnone
  | exit hpc =>
      have hcall := foldl_dropTx_callFootprint (queuedSenders (sh.reg w).queue) sh
      refine .exit hpc rfl (fun v => ?_) (fun v => ?_)
      · by_cases hv : v = w
        · subst hv
          simp [dropReceivers, Shared.setReg, Shared.setCloseReg, Shared.setFrames]
        · simp [dropReceivers, Shared.setReg, Shared.setCloseReg, Shared.setFrames, hv,
            hcall.reg]
      · by_cases hv : v = w
        · subst hv
          simp [dropReceivers, Shared.setReg, Shared.setCloseReg, Shared.setFrames]
        · simp [dropReceivers, Shared.setReg, Shared.setCloseReg, Shared.setFrames, hv,
            hcall.closeReg]

/-- Queues that only lose registrations from the front keep the invariant when
a worker learns at most the ids that left its queue. -/
theorem Registrations.of_suffix {s s' : MuxState} (hI : Registrations s)
    (hreg : ∀ v, (s'.shared.reg v).queue <:+ (s.shared.reg v).queue)
    (hclose : ∀ v, (s'.shared.closeReg v).queue <:+ (s.shared.closeReg v).queue)
    (hknows : ∀ v id, (s'.workers v).knows id → (s.workers v).knows id ∨
      id ∈ openIds (s.shared.reg v).queue ∧ id ∉ openIds (s'.shared.reg v).queue)
    (hgone : ∀ v, (s'.workers v).pc.gone = true → ∀ id, ¬ (s'.workers v).knows id)
    (hlog : s'.shared.history.openLog = s.shared.history.openLog) : Registrations s' := by
  have hopens : ∀ v, (openIds (s'.shared.reg v).queue).Sublist
      (openIds (s.shared.reg v).queue) := fun v => (hreg v).sublist.filterMap _
  constructor
  · exact fun v x hx => hI.regKinds v x ((hreg v).subset hx)
  · exact fun v x hx => hI.closeKinds v x ((hclose v).subset hx)
  · exact fun v => (hI.nodup v).sublist (hopens v)
  · intro v id hid
    obtain ⟨hshard, hin, hun⟩ := hI.queued v id ((hopens v).subset hid)
    refine ⟨hshard, hlog ▸ hin, fun hk => ?_⟩
    rcases hknows v id hk with hk | ⟨-, hgone⟩
    · exact hun hk
    · exact hgone hid
  · intro v id hk
    rw [hlog]
    rcases hknows v id hk with hk | ⟨hq, -⟩
    · exact hI.known v id hk
    · exact ⟨(hI.queued v id hq).1, (hI.queued v id hq).2.1⟩
  · exact hgone

theorem suffix_of_ite {α : Type} {xs rest : List α} {v w : Shard} {q : Shard → List α}
    (hq : q w = xs ++ rest) : (if v = w then rest else q v) <:+ q v := by
  split
  · next hv => exact ⟨xs, by rw [hv, hq]⟩
  · exact List.suffix_rfl

theorem WorkerRegs.registrations {s : MuxState} {w : Shard} {k' : Worker} {sh' : Shared}
    (h : WorkerRegs w (s.workers w) s.shared k' sh') (hI : Registrations s)
    (hlog : sh'.history.openLog = s.shared.history.openLog) :
    Registrations { s with shared := sh', workers := Function.update s.workers w k' } := by
  -- A worker that did not move knows what it knew.
  have hothers : ∀ (P : StreamId → Prop), (∀ id, k'.knows id → (s.workers w).knows id ∨ P id) →
      ∀ v id, (Function.update s.workers w k' v).knows id →
        (s.workers v).knows id ∨ v = w ∧ P id := by
    intro P hP v id hk
    by_cases hv : v = w
    · subst hv
      rw [Function.update_self] at hk
      exact (hP id hk).imp_right fun hp => ⟨rfl, hp⟩
    · rw [Function.update_of_ne hv] at hk
      exact .inl hk
  have hgone : (k'.pc.gone = true → ∀ id, ¬ k'.knows id) →
      ∀ v, (Function.update s.workers w k' v).pc.gone = true →
        ∀ id, ¬ (Function.update s.workers w k' v).knows id := by
    intro hk v
    by_cases hv : v = w
    · subst hv
      rw [Function.update_self]
      exact hk
    · rw [Function.update_of_ne hv]
      exact hI.gone v
  cases h with
  | takeClose reg rest hfrom hqueue hclose hreg hknows hpc =>
      have hkind : reg.isOpening = false := hI.closeKinds w reg (by simp [hqueue])
      refine hI.of_suffix (fun v => ?_) (fun v => ?_) (fun v id hk => ?_)
        (hgone (by simp [hpc])) hlog
      · simp only [hreg]
        exact List.suffix_rfl
      · simp only [hclose]
        exact suffix_of_ite (q := fun v => (s.shared.closeReg v).queue)
          (show _ = [reg] ++ rest from hqueue)
      · refine .inl ?_
        rcases hothers (fun id => ∃ r, reg = .openStream id r)
          (fun id hk => (hknows id hk).2) v id hk with hk | ⟨-, r, rfl⟩
        · exact hk
        · simp [StreamRegistration.isOpening] at hkind
  | takeReg reg rest hqueue hreg hclose hknows hpc =>
      have hnodup := hI.nodup w
      refine hI.of_suffix (fun v => ?_) (fun v => ?_) (fun v id hk => ?_)
        (hgone (by simp [hpc])) hlog
      · simp only [hreg]
        exact suffix_of_ite (q := fun v => (s.shared.reg v).queue)
          (show _ = [reg] ++ rest from hqueue)
      · simp only [hclose]
        exact List.suffix_rfl
      · rcases hothers (fun id => ∃ r, reg = .openStream id r)
          (fun id hk => (hknows id hk).2) v id hk with hk | ⟨rfl, r, rfl⟩
        · exact .inl hk
        · rw [hqueue] at hnodup
          refine .inr ⟨by rw [hqueue]; exact List.mem_cons_self .., ?_⟩
          simp only [hreg, if_true]
          exact (List.nodup_cons.1 hnodup).1
  | keep hreg hclose hknows hpc =>
      refine hI.of_suffix (fun v => ?_) (fun v => ?_) (fun v id hk => ?_) (hgone hpc) hlog
      · simp only [hreg]
        exact List.suffix_rfl
      · simp only [hclose]
        exact List.suffix_rfl
      · rcases hothers (fun _ => False) (fun id hk => .inl (hknows id hk)) v id hk with
          hk | ⟨-, hf⟩
        · exact .inl hk
        · exact hf.elim
  | exit hpc hk hreg hclose =>
      have hnone : ∀ id, ¬ k'.knows id := by
        rw [hk]
        exact hI.gone w (by rw [hpc]; rfl)
      refine hI.of_suffix (fun v => ?_) (fun v => ?_) (fun v id hkn => ?_)
        (hgone fun _ => hnone) hlog
      · simp only [hreg]
        exact suffix_of_ite (q := fun v => (s.shared.reg v).queue) (List.append_nil _).symm
      · simp only [hclose]
        exact suffix_of_ite (q := fun v => (s.shared.closeReg v).queue)
          (List.append_nil _).symm
      · rcases hothers (fun _ => False) (fun id hkn => absurd hkn (hnone id)) v id hkn with
          hkn | ⟨-, hf⟩
        · exact .inl hkn
        · exact hf.elim

theorem step_registrations {cfg : MuxConfig} {s s' : MuxState} {a : Act} (hO : Ownership s)
    (hI : Registrations s) (h : step cfg s a = some s') : Registrations s' := by
  obtain ⟨p, c, sh, pr, rfl, hc, rfl⟩ | ⟨p, sh, pr, z, rfl, -, -, hb, rfl⟩ |
    ⟨z, sh, pr, z', rfl, hz, hr, rfl⟩ | ⟨c, sh, r, rfl, hr, rfl⟩ |
    ⟨w, order, k, sh, rfl, hw, rfl⟩ | ⟨c, sh, wr, rfl, hw, rfl⟩ | ⟨rfl, rfl⟩ := step_cases h
  · have hfoot := client_footprint hc
    refine hI.of_reg_eq hfoot.reg (fun w => ?_) hfoot.openLog rfl
    rcases client_closes hc with hk | ⟨-, kind, hk⟩
    · exact hk.closing w
    · exact hk.closing w
  · obtain ⟨hreg, hclose⟩ := realizeBegin_regs hb
    refine hI.of_reg_eq hreg (fun w reg hreg => ?_) (by rw [(realizeBegin_pair hb).1]) rfl
    rw [hclose] at hreg
    exact .inl hreg
  · have hprog := hO.progress z hz
    have hkeep : ∀ w, ∀ reg ∈ (sh.closeReg w).queue,
        reg ∈ (s.shared.closeReg w).queue ∨ reg.isOpening = false := by
      intro w
      rcases realizeStep_closes hr with hk | ⟨-, hk⟩ | ⟨-, hk⟩ <;> exact hk.closing w
    rcases realizeStep_reg hr with ⟨hreg, hlog⟩ | ⟨hpc, -, -, hopen, hcl⟩ |
      ⟨hpc, -, -, hopen, hcl⟩
    · exact hI.of_reg_eq hreg hkeep hlog rfl
    · have hnew : z.errorId ∉ s.shared.history.openLog := by
        rw [hprog.1, hpc]
        simp [RealizePc.errorRegistered]
      exact hI.enqueue hopen hnew hcl rfl
    · have hnew : z.dataId ∉ s.shared.history.openLog := by
        rw [hprog.2, hpc]
        simp [RealizePc.dataRegistered]
      exact hI.enqueue hopen hnew hcl rfl
  · have hfoot := reader_footprint hr
    have hclose : ∀ w, ∀ reg ∈ (sh.closeReg w).queue,
        reg ∈ (s.shared.closeReg w).queue ∨ reg.isOpening = false := by
      intro w reg hmem
      rcases reader_closes hr with hc | ⟨v, last, status, -, hc⟩
      · exact .inl (hc ▸ hmem)
      · rw [hc] at hmem
        by_cases hw : w = v
        · subst hw
          rw [Function.update_self] at hmem
          rcases sendOrDrop_mem hmem with hmem | rfl
          · exact .inl hmem
          · exact .inr rfl
        · rw [Function.update_of_ne hw] at hmem
          exact .inl hmem
    rcases reader_reg hr with hreg | ⟨v, delta, mc, mf, -, -, -, rfl⟩
    · exact hI.of_reg_eq hreg hclose hfoot.openLog rfl
    · refine hI.of_opens_eq (fun w => ?_) (fun w reg hmem => ?_) hclose rfl rfl
      · by_cases hw : w = v
        · subst hw
          rcases Chan.sendOrDrop_queue (s.shared.reg w) (.settingsWindowDelta delta) with
            hq | hq <;> simp [Shared.setReg, hq, openIds]
        · simp [Shared.setReg, hw]
      · by_cases hw : w = v
        · subst hw
          simp only [Shared.setReg, Function.update_self] at hmem
          rcases sendOrDrop_mem hmem with hmem | rfl
          · exact .inl hmem
          · exact .inr rfl
        · simp only [Shared.setReg, Function.update_of_ne hw] at hmem
          exact .inl hmem
  · have hmove := workerMove_of_step hw
    exact hmove.regs.registrations hI hmove.footprint.openLog
  · have hfoot := writer_footprint hw
    refine hI.of_reg_eq hfoot.reg (fun w => ?_) hfoot.openLog rfl
    rcases (writerMove_of_step hw).closes with hk | ⟨id, rest, requeued, -, hk⟩
    · exact hk.closing w
    · exact hk.closing w
  · exact hI.of_reg_eq rfl (fun _ _ h => .inl h) rfl rfl

theorem registrations_invariant (cfg : MuxConfig) :
    (mux cfg).Invariant anyStep Registrations :=
  Invariant.of_step_using (ownership_invariant cfg) (registrations_init cfg)
    fun _ _ _ hO hI _ h => step_registrations hO hI h

end KubePortForward.Mux

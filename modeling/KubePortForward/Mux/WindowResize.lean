import KubePortForward.Mux.Zombies

/-!
# A SETTINGS resize reaches every stream once

A realization loads the peer's initial window, then registers the stream; the
reader swaps the initial window, then sends the difference to one worker after
the other.  The two do not exclude each other, so what keeps a window right is
the order in which the `Open` of its stream and the difference enter the
worker's channel.

`broadcastWindow` is the initial window a worker will have been told about once
it has drained its channel.  `Shared.baseWindow` is the initial window that a
stream's counter stands for: what is left of it, without the credit and with the
bytes already written.  The invariant relates the two.

## Main results

* `windowsFollow_invariant` — the base window of a registered stream is the
  broadcast window less the differences its worker has not taken yet.
* `windows_follow_settings` — so it is the latest initial window once nothing is
  in flight.
* `stale_window` — a run in which a stream misses a difference.
-/

namespace KubePortForward.Mux

open KubePortForward.Codec
open KubePortForward.Verified.Channel
open KubePortForward.Verified.Transition

/-! ## What is in flight -/

/-- The initial window of which worker `w` is or will be told by the
registrations sent so far. -/
def broadcastWindow (peer : UInt32) (pc : ReaderPc) (w : Shard) : Int :=
  match pc with
  | .settingsDelta delta next _ _ => if w.val < next then peer.toNat else peer.toNat - delta
  | _ => peer.toNat

/-- The differences in a queue. -/
def pendingDeltas : List StreamRegistration → Int
  | [] => 0
  | .settingsWindowDelta delta :: q => delta + pendingDeltas q
  | _ :: q => pendingDeltas q

/-- The differences behind the `Open` of `id` in a queue. -/
def deltasAfter (id : StreamId) : List StreamRegistration → Int
  | [] => 0
  | .openStream id' _ :: q => if id' = id then pendingDeltas q else deltasAfter id q
  | _ :: q => deltasAfter id q

/-- The initial window that the counter of a stream stands for. -/
def Shared.baseWindow (sh : Shared) (id : StreamId) : Int :=
  (sh.windows id).remaining - sh.history.credited id + sh.history.written id

theorem pendingDeltas_append (xs ys : List StreamRegistration) :
    pendingDeltas (xs ++ ys) = pendingDeltas xs + pendingDeltas ys := by
  induction xs with
  | nil => simp [pendingDeltas]
  | cons reg xs ih =>
      cases reg <;> (simp only [List.cons_append, pendingDeltas, ih]; try omega)

/-- What is appended behind a queued `Open`. -/
theorem deltasAfter_append {id : StreamId} {xs : List StreamRegistration}
    (ys : List StreamRegistration) (h : id ∈ openIds xs) :
    deltasAfter id (xs ++ ys) = deltasAfter id xs + pendingDeltas ys := by
  induction xs with
  | nil => simp [openIds] at h
  | cons reg xs ih =>
      cases reg with
      | openStream id' r =>
          simp only [List.cons_append, deltasAfter]
          split
          · exact pendingDeltas_append xs ys
          · next hne =>
              refine ih ?_
              simpa [openIds, Ne.symm hne] using h
      | _ =>
          simp only [List.cons_append, deltasAfter]
          exact ih (by simpa [openIds] using h)

/-- An `Open` that was not queued yet has only what follows it behind it. -/
theorem deltasAfter_new {id : StreamId} {xs : List StreamRegistration} (r : ChanRef)
    (h : id ∉ openIds xs) : deltasAfter id (xs ++ [.openStream id r]) = 0 := by
  induction xs with
  | nil => simp [deltasAfter, pendingDeltas]
  | cons reg xs ih =>
      cases reg with
      | openStream id' r' =>
          have hne : ¬ id' = id := by
            rintro rfl
            simp [openIds] at h
          simp only [List.cons_append, deltasAfter, if_neg hne]
          refine ih fun hin => h ?_
          rw [show StreamRegistration.openStream id' r' :: xs = [.openStream id' r'] ++ xs
            from rfl, openIds_append]
          exact List.mem_append_right _ hin
      | _ =>
          simp only [List.cons_append, deltasAfter]
          exact ih (by simpa [openIds] using h)

/-! ## The conditions -/

/-- A value an `AtomicI64` can hold. -/
def InI64 (x : Int) : Prop := -(2 ^ 63) ≤ x ∧ x < 2 ^ 63

instance (x : Int) : Decidable (InI64 x) := by
  unfold InI64
  infer_instance

/-- If the worker of `id` accepts its `Open` now, the window loaded for it is the
initial window that worker has been or will have been told about. -/
def LoadedCurrent (s : MuxState) (id : StreamId) : Prop :=
  (s.shared.reg (shardOf id)).closed = false ∧ (s.shared.reg (shardOf id)).HasRoom →
    (s.shared.windows id).remaining =
      broadcastWindow s.shared.peerInitialWindow s.reader.pc (shardOf id)

instance (s : MuxState) (id : StreamId) : Decidable (LoadedCurrent s id) := by
  unfold LoadedCurrent
  infer_instance

/-- Every `Open` that is accepted carries a current window. -/
def LoadedInTime (s : MuxState) : Act → Prop
  | .realizeStep =>
      match s.realizing with
      | some ⟨_, errorId, _, .registerError⟩ => LoadedCurrent s errorId
      | some ⟨_, _, dataId, .registerData⟩ => LoadedCurrent s dataId
      | _ => True
  | _ => True

instance (s : MuxState) (a : Act) : Decidable (LoadedInTime s a) := by
  unfold LoadedInTime
  induction a using Act.casesOn with
  | realizeStep =>
      generalize s.realizing = z
      induction z using Option.casesOn with
      | none => infer_instance
      | some z =>
          induction z using Realize.casesOn with
          | mk pair errorId dataId pc => induction pc using RealizePc.casesOn <;> infer_instance
  | _ => infer_instance

/-- A difference is accepted by every worker that has a stream or is about to. -/
def DeltasAccepted (s : MuxState) : Act → Prop
  | .reader .step =>
      match s.reader.pc with
      | .settingsDelta _ next _ _ =>
          ∀ w : Shard, w.val = next →
            (s.shared.reg w).closed = false ∧ (s.shared.reg w).HasRoom ∨
              (s.workers w).streams.keys = [] ∧ openIds (s.shared.reg w).queue = []
      | _ => True
  | _ => True

instance (s : MuxState) (a : Act) : Decidable (DeltasAccepted s a) := by
  unfold DeltasAccepted
  induction a using Act.casesOn with
  | reader r =>
      induction r using ReaderAct.casesOn with
      | step =>
          generalize s.reader.pc = pc
          induction pc using ReaderPc.casesOn <;> infer_instance
      | _ => infer_instance
  | _ => infer_instance

/-- No addition to a window leaves the range of its counter. -/
def NoWindowOverflow (s : MuxState) : Act → Prop
  | .client p .writeDebit =>
      match (s.pairs p).write with
      | .picked payload =>
          InI64 ((s.shared.windows (s.pairs p).dataId).remaining - payload.length)
      | _ => True
  | .worker w _ =>
      ((s.workers w).pc = .drainReg ∨ (s.workers w).pc = .selectReg →
        match (s.shared.reg w).queue with
        | .settingsWindowDelta delta :: _ =>
            ∀ id ∈ (s.workers w).streams.keys,
              InI64 ((s.shared.windows id).remaining + delta)
        | _ => True) ∧
      ((s.workers w).pc = .selectFrame →
        match (s.shared.frames w).queue with
        | .windowUpdate id delta :: _ =>
            id ∈ (s.workers w).streams →
              InI64 ((s.shared.windows id).remaining + delta.toNat)
        | _ => True)
  | _ => True

instance (s : MuxState) (a : Act) : Decidable (NoWindowOverflow s a) := by
  unfold NoWindowOverflow
  induction a using Act.casesOn with
  | client p c =>
      induction c using ClientAct.casesOn with
      | writeDebit =>
          dsimp only
          generalize (s.pairs p).write = w
          induction w using WritePc.casesOn <;> infer_instance
      | _ => infer_instance
  | worker w order =>
      refine @instDecidableAnd _ _ (@instDecidableForall _ _ inferInstance ?_)
        (@instDecidableForall _ _ inferInstance ?_)
      · generalize (s.shared.reg w).queue = q
        induction q using List.casesOn with
        | nil => infer_instance
        | cons reg rest => induction reg using StreamRegistration.casesOn <;> infer_instance
      · generalize (s.shared.frames w).queue = q
        induction q using List.casesOn with
        | nil => infer_instance
        | cons frame rest => induction frame using Frame.casesOn <;> infer_instance
  | _ => infer_instance

/-- The three conditions on a step under which windows follow SETTINGS. -/
def ResizesInTime (s : MuxState) (a : Act) : Prop :=
  LoadedInTime s a ∧ DeltasAccepted s a ∧ NoWindowOverflow s a

instance (s : MuxState) (a : Act) : Decidable (ResizesInTime s a) := by
  unfold ResizesInTime
  infer_instance

/-! ## What each task does to base windows -/

theorem baseWindow_congr {sh sh' : Shared} (hw : sh'.windows = sh.windows)
    (hc : sh'.history.credited = sh.history.credited)
    (hr : sh'.history.written = sh.history.written) (id : StreamId) :
    sh'.baseWindow id = sh.baseWindow id := by
  simp only [Shared.baseWindow, hw, hc, hr]

/-- Writing moves bytes from the window to the written ones. -/
theorem client_baseWindow {cfg : MuxConfig} {s : MuxState} {p : Nat} {c : ClientAct}
    {sh : Shared} {pr : Pair} (hrange : NoWindowOverflow s (.client p c))
    (h : clientStep cfg p c s.shared (s.pairs p) = some (sh, pr)) (id : StreamId) :
    sh.baseWindow id = s.shared.baseWindow id := by
  cases c with
  | writeDebit =>
      simp only [clientStep, Pair.writeDebit] at h
      simp only [NoWindowOverflow] at hrange
      split at h
      · next payload hpick =>
          simp only [hpick, InI64] at hrange
          simp only [SendWindow.consume] at h
          split at h
          · next w hw =>
              cases h
              split at hw
              · simp at hw
              · simp only [Prod.mk.injEq, true_and] at hw
                subst hw
                by_cases hid : id = (s.pairs p).dataId
                · subst hid
                  simp only [Shared.baseWindow, Shared.updWindow, Function.update_self,
                    wrapI64_eq hrange.1 hrange.2]
                  omega
                · simp [Shared.baseWindow, Shared.updWindow, Function.update_of_ne hid]
          · cases h
            rfl
      · contradiction
  | writePick =>
      simp only [clientStep, Pair.writePick] at h
      (repeat' split at h) <;> first
        | contradiction
        | cases h
          by_cases hid : id = (s.pairs p).dataId
          · subst hid
            simp [Shared.baseWindow, Shared.updWindow, SendWindow.registerWaker]
          · simp [Shared.baseWindow, Shared.updWindow, Function.update_of_ne hid]
  | _ =>
      simp only [clientStep, Pair.openBegin, Pair.openStep, Pair.read, Pair.fillBuf,
        Pair.consume, Pair.writeBegin, Pair.writeReserve, Pair.writeRecheck,
        Pair.writeSend, Pair.shutdown, Pair.dropReceiver, Pair.dropRest, Pair.dropStep,
        Shared.sendReservedClose] at h
      (repeat' split at h) <;> first
        | contradiction
        | simp only [Option.map_eq_some_iff, Option.some.injEq, Prod.mk.injEq] at h
          refine baseWindow_congr ?_ ?_ ?_ id <;>
            grind [Shared.updChan, Shared.dropTx, Shared.setCloseReg]

/-- Only a pair that was registered writes. -/
theorem client_written {cfg : MuxConfig} {p : Nat} {c : ClientAct} {sh sh' : Shared}
    {pr pr' : Pair} (h : clientStep cfg p c sh pr = some (sh', pr')) (id : StreamId) :
    sh'.history.written id = sh.history.written id ∨ (pr.write ≠ .idle ∧ id = pr.dataId) := by
  cases c with
  | writeDebit =>
      simp only [clientStep, Pair.writeDebit] at h
      split at h
      · next payload hpick =>
          split at h <;> cases h
          · by_cases hid : id = pr.dataId
            · exact .inr ⟨by simp [hpick], hid⟩
            · exact .inl (by simp [Function.update_of_ne hid])
          · exact .inl rfl
      · contradiction
  | _ =>
      refine .inl ?_
      simp only [clientStep, Pair.openBegin, Pair.openStep, Pair.read, Pair.fillBuf,
        Pair.consume, Pair.writeBegin, Pair.writeReserve, Pair.writePick,
        Pair.writeRecheck, Pair.writeSend, Pair.shutdown, Pair.dropReceiver, Pair.dropRest,
        Pair.dropStep, Shared.sendReservedClose] at h
      (repeat' split at h) <;> first
        | contradiction
        | simp only [Option.map_eq_some_iff, Option.some.injEq, Prod.mk.injEq] at h
          grind [Shared.updChan, Shared.updWindow, Shared.dropTx, Shared.setCloseReg]

/-- A realization gives its own two streams a window before it registers them. -/
theorem realizeStep_baseWindow {z : Realize} {sh sh' : Shared} {pr pr' : Pair}
    {z' : Option Realize} (h : z.step sh pr = (sh', pr', z')) {id : StreamId}
    (he : id = z.errorId → z.pc ≠ .loadErrorWindow)
    (hd : id = z.dataId → z.pc ≠ .loadDataWindow) :
    sh'.baseWindow id = sh.baseWindow id := by
  unfold Realize.step at h
  cases hz : z.pc with
  | loadErrorWindow =>
      have hne : id ≠ z.errorId := fun heq => he heq hz
      simp only [hz] at h
      cases h
      simp [Shared.baseWindow, Shared.updWindow, Function.update_of_ne hne]
  | loadDataWindow =>
      have hne : id ≠ z.dataId := fun heq => hd heq hz
      simp only [hz] at h
      cases h
      simp [Shared.baseWindow, Shared.updWindow, Function.update_of_ne hne]
  | _ =>
      simp only [hz, Shared.sendOpen, Shared.releaseHeld, Shared.sendCloseOrDrop,
        Shared.sendClose] at h
      (repeat' split at h) <;> cases h <;> refine baseWindow_congr ?_ ?_ ?_ id <;>
        grind [Shared.updChan, Shared.dropTx, Shared.setCloseReg, Shared.setReg,
          Shared.dropPairTx]

/-- Swapping the initial window tells no worker anything yet; each difference
that is sent tells one. -/
theorem reader_broadcast {cfg : MuxConfig} {a : ReaderAct} {sh sh' : Shared} {r r' : Reader}
    (h : readerStep cfg a sh r = some (sh', r')) :
    (sh'.reg = sh.reg ∧ ∀ w, broadcastWindow sh'.peerInitialWindow r'.pc w =
      broadcastWindow sh.peerInitialWindow r.pc w) ∨
    ∃ (v : Shard) (delta : Int) (mc mf : Option UInt32), a = .step ∧
      r.pc = .settingsDelta delta v mc mf ∧
      sh'.reg = Function.update sh.reg v
        ((sh.reg v).sendOrDrop (.settingsWindowDelta delta)) ∧
      ∀ w, broadcastWindow sh'.peerInitialWindow r'.pc w =
        broadcastWindow sh.peerInitialWindow r.pc w + if w = v then delta else 0 := by
  cases a with
  | receive frame =>
      refine .inl ?_
      simp only [readerStep, Reader.receive] at h
      split at h
      · next hidle =>
          cases frame <;> simp only [routeFrame, creditSession] at h <;>
            (repeat' split at h) <;> cases h <;>
            simp [broadcastWindow, hidle, Shared.sendControl]
          next hsame => omega
      · contradiction
  | step =>
      simp only [readerStep, Reader.step] at h
      cases hpc : r.pc with
      | settingsDelta delta next mc mf =>
          simp only [hpc] at h
          split at h
          · next hlt =>
              cases h
              refine .inr ⟨⟨next, hlt⟩, delta, mc, mf, rfl, rfl, rfl, fun w => ?_⟩
              simp only [broadcastWindow, Shared.setReg, Fin.ext_iff]
              (repeat' split) <;> omega
          · next hge =>
              cases h
              refine .inl ⟨rfl, fun w => ?_⟩
              have hw := w.isLt
              simp only [broadcastWindow]
              rw [if_pos (by omega)]
      | _ =>
          refine .inl ?_
          simp only [hpc] at h
          (repeat' split at h) <;> cases h <;>
            simp [broadcastWindow, Shared.sendControl, Shared.setFrames, Shared.setCloseReg]
  | _ =>
      refine .inl ?_
      simp only [readerStep, Reader.rejectTooLarge, Reader.receiveWsPing, Reader.message,
        Reader.idleProbe, Reader.exit] at h
      split at h
      · next hidle =>
          cases h
          simp [broadcastWindow, hidle, Shared.sendControl]
      · contradiction

/-! ## What a worker's calls do to windows -/

/-- The call registers nothing, credits nothing and at most poisons the windows of
streams it removes. -/
structure KeepsWindows (k k' : Worker) (sh sh' : Shared) : Prop where
  streams : ∀ id ∈ k'.streams, id ∈ k.streams
  windows : ∀ id, id ∈ k'.streams ∨ id ∉ k.streams → sh'.windows id = sh.windows id
  credited : sh'.history.credited = sh.history.credited

theorem KeepsWindows.rfl {k : Worker} {sh : Shared} : KeepsWindows k k sh sh :=
  ⟨fun _ h => h, fun _ _ => Eq.refl _, Eq.refl _⟩

theorem KeepsWindows.trans {k k' k'' : Worker} {sh sh' sh'' : Shared}
    (h : KeepsWindows k k' sh sh') (h' : KeepsWindows k' k'' sh' sh'') :
    KeepsWindows k k'' sh sh'' where
  streams id hid := h.streams id (h'.streams id hid)
  windows := by
    rintro id (hid | hid)
    · rw [h'.windows id (.inl hid), h.windows id (.inl (h'.streams id hid))]
    · rw [h'.windows id (.inr fun hin => hid (h.streams id hin)), h.windows id (.inr hid)]
  credited := h'.credited.trans h.credited

/-- A call that keeps all windows. -/
theorem KeepsWindows.of_eq {k k' : Worker} {sh sh' : Shared}
    (hstreams : ∀ id ∈ k'.streams, id ∈ k.streams) (hw : sh'.windows = sh.windows)
    (hc : sh'.history.credited = sh.history.credited) : KeepsWindows k k' sh sh' :=
  ⟨hstreams, fun id _ => by rw [hw], hc⟩

theorem mem_insert_of_lookup {k : Worker} {id id' : StreamId} {st st' : StreamState}
    (hst : k.streams.lookup id = some st) (h : id' ∈ k.streams.insert id st') :
    id' ∈ k.streams := by
  rcases AList.mem_insert _ |>.1 h with rfl | h
  · exact AList.lookup_isSome.1 (by rw [hst]; rfl)
  · exact h

theorem halfClose_windows (id : StreamId) (k : Worker) (sh : Shared) :
    KeepsWindows k (halfClose id k sh).1 sh (halfClose id k sh).2 := by
  unfold halfClose
  split
  · next st hst =>
      refine .of_eq (fun _ h => mem_insert_of_lookup hst h) ?_ ?_ <;>
        cases st.dataTx <;> rfl
  · exact .rfl

theorem removeStream_windows (id : StreamId) (k : Worker) (sh : Shared) :
    KeepsWindows k (removeStream id k sh).1 sh (removeStream id k sh).2 := by
  unfold removeStream
  refine ⟨fun _ h => (AList.mem_erase.1 h).2, ?_, ?_⟩
  · intro id' hid'
    simp only
    split
    · next st hst =>
        have hmem : id ∈ k.streams := AList.lookup_isSome.1 (by rw [hst]; rfl)
        have hne : id' ≠ id := by
          rintro rfl
          rcases hid' with hid' | hid'
          · exact (AList.mem_erase.1 hid').1 (Eq.refl _)
          · exact hid' hmem
        cases st.dataTx <;> simp [Shared.updWindow, Shared.dropTx?, Shared.dropTx,
          Shared.updChan, Function.update_of_ne hne]
    · rfl
  · simp only
    split
    · next st hst => cases st.dataTx <;> rfl
    · rfl

theorem deliverPayload_windows (n : UInt32) (id : StreamId) (payload : Bytes) (k : Worker)
    (sh : Shared) :
    KeepsWindows k (deliverPayload n id payload k sh).1 sh
      (deliverPayload n id payload k sh).2.1 := by
  unfold deliverPayload
  split
  · exact .rfl
  · cases hst : k.streams.lookup id with
    | none => exact .of_eq (fun _ h => h) (by rfl) (by rfl)
    | some st =>
        simp only [creditPeer]
        (repeat' split)
        · exact .rfl
        · exact .of_eq (fun _ h => mem_insert_of_lookup hst h) (by rfl) (by rfl)
        · exact .of_eq (fun _ h => mem_insert_of_lookup hst h) (by rfl) (by rfl)
        · exact .of_eq (fun _ h => mem_insert_of_lookup hst h) (by rfl) (by rfl)
        · exact .rfl
        · exact .of_eq (fun _ h => (AList.mem_erase.1 h).2) (by rfl) (by rfl)

theorem answerReply_windows (id : StreamId) (k : Worker) (sh : Shared) :
    KeepsWindows k (answerReply id k sh).1 sh (answerReply id k sh).2 := by
  unfold answerReply
  (repeat' split) <;> exact .of_eq (fun _ h => h) (by rfl) (by rfl)

theorem refuseStreams_windows (ids : List StreamId) (k : Worker) (sh : Shared) :
    KeepsWindows k (refuseStreams ids k sh).1 sh (refuseStreams ids k sh).2 := by
  induction ids generalizing k sh with
  | nil => exact .rfl
  | cons id rest ih =>
      refine (removeStream_windows id k sh).trans ?_
      refine KeepsWindows.trans ?_ (ih _ _)
      exact .of_eq (fun _ h => h) (by rfl) (by rfl)

/-- Only a WINDOW_UPDATE for a registered stream credits, and it credits that. -/
theorem dispatch_windows (n : UInt32) (frame : Frame) (k : Worker) (sh : Shared) :
    KeepsWindows k (dispatchFrameInWorker n frame k sh).1 sh
      (dispatchFrameInWorker n frame k sh).2 ∨
    ∃ id delta, frame = .windowUpdate id delta ∧ id ∈ k.streams ∧
      (dispatchFrameInWorker n frame k sh).1 = k ∧
      (dispatchFrameInWorker n frame k sh).2 =
        { sh.updWindow id (·.replenish delta) with
          history := { sh.history with
            credited := Function.update sh.history.credited id
              (sh.history.credited id + delta.toNat) } } := by
  cases frame with
  | data id payload fin =>
      have hdeliver := deliverPayload_windows n id payload k sh
      refine .inl ?_
      simp only [dispatchFrameInWorker]
      split
      · exact hdeliver
      · split
        · exact hdeliver.trans (halfClose_windows _ _ _)
        · exact hdeliver
  | synReply id headers fin =>
      have hanswer := answerReply_windows id k sh
      refine .inl ?_
      simp only [dispatchFrameInWorker]
      split
      · exact hanswer.trans (halfClose_windows _ _ _)
      · exact hanswer
  | rstStream id status => exact .inl (removeStream_windows id k sh)
  | windowUpdate id delta =>
      simp only [dispatchFrameInWorker]
      split
      · next hin => exact .inr ⟨id, delta, rfl, hin, rfl, rfl⟩
      · exact .inl .rfl
  | _ => exact .inl .rfl

/-- What applying a registration does to windows. -/
theorem applyRegistration_windows {order : List StreamId} {reg : StreamRegistration}
    {k k' : Worker} {sh sh' : Shared}
    (h : applyRegistration order reg k sh = some (k', sh')) :
    (KeepsWindows k k' sh sh' ∧ reg.isOpening = false) ∨
    (∃ id r, reg = .openStream id r ∧ (∀ id' ∈ k'.streams, id' = id ∨ id' ∈ k.streams) ∧
      sh'.windows = sh.windows ∧ sh'.history.credited = sh.history.credited) ∨
    (∃ delta, reg = .settingsWindowDelta delta ∧ k' = k ∧
      sh' = { sh with windows := fun id =>
        if id ∈ k.streams then (sh.windows id).applyDelta delta else sh.windows id }) := by
  unfold applyRegistration at h
  cases reg with
  | openStream id r =>
      cases h
      refine .inr (.inl ⟨id, r, rfl, fun id' hid' => AList.mem_insert _ |>.1 hid', ?_, ?_⟩) <;>
        cases (k.streams.lookup id).bind (·.dataTx) <;> rfl
  | close id =>
      cases h
      exact .inl ⟨removeStream_windows id k sh, rfl⟩
  | settingsWindowDelta delta =>
      cases h
      exact .inr (.inr ⟨delta, rfl, rfl, rfl⟩)
  | goAway last status =>
      simp only at h
      split at h
      · rw [Option.some.injEq] at h
        have hrefuse := refuseStreams_windows order k sh
        rw [h] at hrefuse
        exact .inl ⟨hrefuse, rfl⟩
      · contradiction

theorem foldl_dropTx_windows (refs : List ChanRef) (sh : Shared) :
    (refs.foldl Shared.dropTx sh).windows = sh.windows ∧
      (refs.foldl Shared.dropTx sh).history = sh.history := by
  induction refs generalizing sh with
  | nil => exact ⟨rfl, rfl⟩
  | cons r refs ih => exact ih (sh.dropTx r)

theorem closeAll_windows (k k' : Worker) (sh : Shared) (hk : ∀ id, id ∉ k'.streams) :
    KeepsWindows k k' sh (closeAll k sh) := by
  obtain ⟨hw, hh⟩ := foldl_dropTx_windows
    (k.streams.entries.filterMap (fun e => e.2.dataTx)) sh
  refine ⟨fun id hid => absurd hid (hk id), fun id hid => ?_, ?_⟩
  · have hout : id ∉ k.streams := hid.resolve_left (hk id)
    simp only [closeAll, if_neg hout, hw]
  · simp only [closeAll, hh]

/-- What a worker's move does to the windows of its streams and to its queue. -/
inductive WorkerBase (w : Shard) (k : Worker) (sh : Shared) (k' : Worker) (sh' : Shared) :
    Prop
  | keep (hstreams : ∀ id ∈ k'.streams, id ∈ k.streams)
      (hbase : ∀ id, id ∈ k'.streams ∨ id ∉ k.streams → sh'.baseWindow id = sh.baseWindow id)
      (hreg : ∀ v, (sh'.reg v).queue = (sh.reg v).queue ∨
        v = w ∧ (sh'.reg v).queue = [] ∧ ∀ id, id ∉ k'.streams)
  | takeOpen (id : StreamId) (r : ChanRef) (rest : List StreamRegistration)
      (hqueue : (sh.reg w).queue = .openStream id r :: rest)
      (hreg : ∀ v, (sh'.reg v).queue = if v = w then rest else (sh.reg v).queue)
      (hstreams : ∀ id' ∈ k'.streams, id' = id ∨ id' ∈ k.streams)
      (hbase : ∀ id', sh'.baseWindow id' = sh.baseWindow id')
  | takeDelta (delta : Int) (rest : List StreamRegistration)
      (hqueue : (sh.reg w).queue = .settingsWindowDelta delta :: rest)
      (hreg : ∀ v, (sh'.reg v).queue = if v = w then rest else (sh.reg v).queue)
      (hstreams : ∀ id ∈ k'.streams, id ∈ k.streams)
      (hbase : ∀ id, sh'.baseWindow id =
        sh.baseWindow id + if id ∈ k.streams then delta else 0)

theorem KeepsWindows.baseWindow {k k' : Worker} {sh sh' : Shared}
    (h : KeepsWindows k k' sh sh') (hw : sh'.history.written = sh.history.written)
    {id : StreamId} (hid : id ∈ k'.streams ∨ id ∉ k.streams) :
    sh'.baseWindow id = sh.baseWindow id := by
  simp only [Shared.baseWindow, h.windows id hid, h.credited, hw]

theorem mem_keys_of_mem {k : Worker} {id : StreamId} (h : id ∈ k.streams) :
    id ∈ k.streams.keys :=
  AList.mem_keys.1 h

theorem WorkerMove.base {cfg : MuxConfig} {order : List StreamId} {w : Shard}
    {s : MuxState} {k' : Worker} {sh' : Shared} (hR : Registrations s)
    (hrange : NoWindowOverflow s (.worker w order))
    (h : WorkerMove cfg order w (s.workers w) s.shared k' sh') :
    WorkerBase w (s.workers w) s.shared k' sh' := by
  have hwritten := h.footprint.written
  obtain ⟨hdelta, hupdate⟩ := hrange
  cases h with
  | takeClose pc hpc hfrom hrecv happly =>
      have hcall := applyRegistration_callFootprint happly
      have hkind := hR.closeKinds w _ (by rw [Chan.recv_eq_some hrecv]; exact List.mem_cons_self ..)
      rcases applyRegistration_windows happly with ⟨hkeep, -⟩ | ⟨id, r, rfl, -⟩ |
        ⟨delta, rfl, -⟩
      · refine .keep hkeep.streams (fun id hid => ?_) fun v => .inl (by rw [hcall.reg]; rfl)
        exact hkeep.baseWindow hwritten hid
      · simp [StreamRegistration.isOpening] at hkind
      · simp [StreamRegistration.isOpening] at hkind
  | @takeReg reg c _ _ pc hpc hfrom hrecv happly =>
      have hcall := applyRegistration_callFootprint happly
      have hqueue := Chan.recv_eq_some hrecv
      have hkind := hR.regKinds w reg (by rw [hqueue]; exact List.mem_cons_self ..)
      have hreg : ∀ v, (sh'.reg v).queue = if v = w then c.queue else (s.shared.reg v).queue := by
        intro v
        rw [hcall.reg]
        by_cases hv : v = w
        · subst hv
          simp [Shared.setReg]
        · simp [Shared.setReg, hv]
      rcases applyRegistration_windows happly with ⟨-, hno⟩ | ⟨id, r, rfl, hstreams, hw, hc⟩ |
        ⟨delta, rfl, rfl, rfl⟩
      · rw [hkind] at hno
        contradiction
      · exact .takeOpen id r c.queue hqueue hreg hstreams (baseWindow_congr hw hc hwritten)
      · refine .takeDelta delta c.queue hqueue hreg (fun _ hid => hid) fun id => ?_
        have hdelta' := hdelta hfrom
        simp only [hqueue, InI64] at hdelta'
        simp only [Shared.baseWindow, Shared.setReg]
        by_cases hid : id ∈ (s.workers w).streams
        · have hin := hdelta' id (mem_keys_of_mem hid)
          simp only [if_pos hid, SendWindow.applyDelta, wrapI64_eq hin.1 hin.2]
          omega
        · simp [hid]
  | @takeFrame frame c hpc hrecv =>
      have hcall := dispatch_callFootprint cfg.initialWindowSize frame
        { s.workers w with pc := .drainClose } (s.shared.setFrames w c)
      have hreg : ∀ v, ((dispatchFrameInWorker cfg.initialWindowSize frame
          { s.workers w with pc := .drainClose } (s.shared.setFrames w c)).2.reg v).queue =
          (s.shared.reg v).queue := fun v => by rw [hcall.reg]; rfl
      have hupdate' := hupdate hpc
      simp only [Chan.recv_eq_some hrecv, InI64] at hupdate'
      rcases dispatch_windows cfg.initialWindowSize frame
        { s.workers w with pc := .drainClose } (s.shared.setFrames w c) with
        hkeep | ⟨id, delta, rfl, hin, hk, hsh⟩
      · exact .keep hkeep.streams (fun id hid => hkeep.baseWindow hwritten hid)
          fun v => .inl (hreg v)
      · obtain ⟨hlo, hhi⟩ := hupdate' hin
        refine .keep (fun id' hid' => by rw [hk] at hid'; exact hid') (fun id' _ => ?_)
          fun v => .inl (hreg v)
        rw [hsh]
        by_cases hid : id' = id
        · subst hid
          simp only [Shared.baseWindow, Shared.updWindow, Shared.setFrames,
            Function.update_self, SendWindow.replenish, wrapI64_eq hlo hhi]
          omega
        · simp [Shared.baseWindow, Shared.updWindow, Shared.setFrames,
            Function.update_of_ne hid]
  | move pc hfrom hto =>
      exact .keep (fun _ hid => hid) (fun _ _ => rfl) fun _ => .inl rfl
  | shutdown hpc =>
      have hcall := closeAll_callFootprint (s.workers w) s.shared
      have hkeep := closeAll_windows (s.workers w) ⟨.exiting, ∅, ∅⟩ s.shared
        (fun _ => AList.notMem_empty _)
      exact .keep hkeep.streams (fun id hid => hkeep.baseWindow hwritten hid)
        fun v => .inl (by rw [hcall.reg])
  | exit hpc =>
      have hempty : ∀ id, id ∉ (s.workers w).streams := fun id hid =>
        hR.gone w (by rw [hpc]; rfl) id (.inl hid)
      obtain ⟨hw, hh⟩ := foldl_dropTx_windows (queuedSenders (s.shared.reg w).queue) s.shared
      have hcall := foldl_dropTx_callFootprint (queuedSenders (s.shared.reg w).queue) s.shared
      refine .keep (fun _ hid => hid) (fun id _ => baseWindow_congr ?_ ?_ ?_ id) fun v => ?_
      · exact hw
      · exact congrArg History.credited hh
      · exact congrArg History.written hh
      · by_cases hv : v = w
        · subst hv
          exact .inr ⟨rfl, by simp [dropReceivers, Shared.setReg, Shared.setCloseReg,
            Shared.setFrames], hempty⟩
        · exact .inl (by simp [dropReceivers, Shared.setReg, Shared.setCloseReg,
            Shared.setFrames, hv, hcall.reg])

/-! ## The invariant -/

structure WindowsFollow (s : MuxState) : Prop where
  /-- A stream that was never registered was neither credited nor written. -/
  untouched : ∀ id ∉ s.shared.history.openLog,
    s.shared.history.credited id = 0 ∧ s.shared.history.written id = 0
  known : ∀ w, ∀ id ∈ (s.workers w).streams, s.shared.baseWindow id =
    broadcastWindow s.shared.peerInitialWindow s.reader.pc w -
      pendingDeltas (s.shared.reg w).queue
  queued : ∀ w, ∀ id ∈ openIds (s.shared.reg w).queue, s.shared.baseWindow id =
    broadcastWindow s.shared.peerInitialWindow s.reader.pc w -
      deltasAfter id (s.shared.reg w).queue

theorem windowsFollow_init (cfg : MuxConfig) : WindowsFollow (MuxState.init cfg) := by
  constructor <;> simp [MuxState.init, Shared.init, openIds, Worker.init]

/-- A step that leaves the workers, their queues and the base windows of registered
streams alone. -/
theorem WindowsFollow.of_keep {s s' : MuxState} (hR : Registrations s)
    (hI : WindowsFollow s) (hworkers : s'.workers = s.workers)
    (hreg : ∀ w, (s'.shared.reg w).queue = (s.shared.reg w).queue)
    (hbroadcast : ∀ w, broadcastWindow s'.shared.peerInitialWindow s'.reader.pc w =
      broadcastWindow s.shared.peerInitialWindow s.reader.pc w)
    (hbase : ∀ id ∈ s.shared.history.openLog,
      s'.shared.baseWindow id = s.shared.baseWindow id)
    (huntouched : ∀ id ∉ s'.shared.history.openLog,
      s'.shared.history.credited id = 0 ∧ s'.shared.history.written id = 0) :
    WindowsFollow s' where
  untouched := huntouched
  known := by
    intro w id hid
    rw [hworkers] at hid
    rw [hbase id (hR.known w id (.inl hid)).2, hreg, hbroadcast]
    exact hI.known w id hid
  queued := by
    intro w id hid
    rw [hreg] at hid
    rw [hbase id (hR.queued w id hid).2.1, hreg, hbroadcast]
    exact hI.queued w id hid

/-- The `Open` of a stream with a current window. -/
theorem WindowsFollow.open {s s' : MuxState} {id : StreamId} {r : ChanRef}
    (hR : Registrations s) (hI : WindowsFollow s) (hworkers : s'.workers = s.workers)
    (hopen : EnqueuesOpen s.shared s'.shared id r) (hnew : id ∉ s.shared.history.openLog)
    (hbroadcast : ∀ w, broadcastWindow s'.shared.peerInitialWindow s'.reader.pc w =
      broadcastWindow s.shared.peerInitialWindow s.reader.pc w)
    (hbase : ∀ id, s'.shared.baseWindow id = s.shared.baseWindow id)
    (hcredited : s'.shared.history.credited = s.shared.history.credited)
    (hwritten : s'.shared.history.written = s.shared.history.written)
    (hcurrent : (s.shared.windows id).remaining =
      broadcastWindow s.shared.peerInitialWindow s.reader.pc (shardOf id)) :
    WindowsFollow s' where
  untouched := by
    intro id' hid'
    rw [hopen.log] at hid'
    rw [hcredited, hwritten]
    exact hI.untouched id' fun h => hid' (List.mem_append_left _ h)
  known := by
    intro w id' hid'
    rw [hworkers] at hid'
    have hold := hI.known w id' hid'
    rw [hbase, hbroadcast, hopen.queue, pendingDeltas_append, hold]
    split <;> simp [pendingDeltas]
  queued := by
    intro w id' hid'
    obtain ⟨hc, hw⟩ := hI.untouched id hnew
    have hout : ∀ w, id ∉ openIds (s.shared.reg w).queue := fun w hin =>
      hnew (hR.queued w id hin).2.1
    rw [hbase, hbroadcast]
    rw [hopen.queue, openIds_append, List.mem_append] at hid'
    rw [hopen.queue]
    by_cases hold : id' ∈ openIds (s.shared.reg w).queue
    · rw [deltasAfter_append _ hold, hI.queued w id' hold]
      split <;> simp [pendingDeltas]
    · have hin := hid'.resolve_left hold
      split at hin
      · next hshard =>
          have hid : id' = id := by simpa [openIds] using hin
          subst hid
          rw [if_pos hshard, deltasAfter_new r (hout w)]
          simp only [Shared.baseWindow, hc, hw, hcurrent, hshard]
          omega
      · simp [openIds] at hin

/-- A difference is sent to one worker. -/
theorem WindowsFollow.delta {s s' : MuxState} {v : Shard} {delta : Int}
    (hI : WindowsFollow s) (hworkers : s'.workers = s.workers)
    (hreg : s'.shared.reg = Function.update s.shared.reg v
      ((s.shared.reg v).sendOrDrop (.settingsWindowDelta delta)))
    (haccept : (s.shared.reg v).closed = false ∧ (s.shared.reg v).HasRoom ∨
      (s.workers v).streams.keys = [] ∧ openIds (s.shared.reg v).queue = [])
    (hbroadcast : ∀ w, broadcastWindow s'.shared.peerInitialWindow s'.reader.pc w =
      broadcastWindow s.shared.peerInitialWindow s.reader.pc w + if w = v then delta else 0)
    (hbase : ∀ id, s'.shared.baseWindow id = s.shared.baseWindow id)
    (huntouched : ∀ id ∉ s'.shared.history.openLog,
      s'.shared.history.credited id = 0 ∧ s'.shared.history.written id = 0) :
    WindowsFollow s' := by
  have hother : ∀ w, w ≠ v → (s'.shared.reg w).queue = (s.shared.reg w).queue := by
    intro w hw
    rw [hreg, Function.update_of_ne hw]
  refine ⟨huntouched, fun w id hid => ?_, fun w id hid => ?_⟩
  · rw [hworkers] at hid
    by_cases hw : w = v
    · subst hw
      rcases haccept with ⟨hopen, hroom⟩ | ⟨hnone, -⟩
      · have hq : (s'.shared.reg w).queue =
            (s.shared.reg w).queue ++ [.settingsWindowDelta delta] := by
          rw [hreg, Function.update_self, Chan.sendOrDrop_of_room _ hopen hroom]
        rw [hbase, hbroadcast, if_pos rfl, hq, pendingDeltas_append, hI.known w id hid]
        simp only [pendingDeltas]
        omega
      · have hin := mem_keys_of_mem hid
        rw [hnone] at hin
        simp at hin
    · rw [hbase, hbroadcast, if_neg hw, hother w hw, hI.known w id hid]
      omega
  · by_cases hw : w = v
    · subst hw
      rcases haccept with ⟨hopen, hroom⟩ | ⟨-, hnone⟩
      · have hq : (s'.shared.reg w).queue =
            (s.shared.reg w).queue ++ [.settingsWindowDelta delta] := by
          rw [hreg, Function.update_self, Chan.sendOrDrop_of_room _ hopen hroom]
        rw [hq] at hid ⊢
        have hold : id ∈ openIds (s.shared.reg w).queue := by simpa [openIds] using hid
        rw [hbase, hbroadcast, if_pos rfl, deltasAfter_append _ hold, hI.queued w id hold]
        simp only [pendingDeltas]
        omega
      · rw [hreg, Function.update_self] at hid
        rcases Chan.sendOrDrop_queue (s.shared.reg w) (.settingsWindowDelta delta) with
          hq | hq <;> rw [hq] at hid
        · simp [hnone] at hid
        · rw [openIds_append, hnone] at hid
          simp [openIds] at hid
    · rw [hother w hw] at hid ⊢
      rw [hbase, hbroadcast, if_neg hw, hI.queued w id hid]
      omega

/-- A worker takes an `Open`, a difference, or nothing that concerns windows. -/
theorem WorkerBase.follow {s : MuxState} {w : Shard} {k' : Worker} {sh' : Shared}
    (h : WorkerBase w (s.workers w) s.shared k' sh') (hR : Registrations s)
    (hI : WindowsFollow s) (hpeer : sh'.peerInitialWindow = s.shared.peerInitialWindow)
    (huntouched : ∀ id ∉ sh'.history.openLog,
      sh'.history.credited id = 0 ∧ sh'.history.written id = 0) :
    WindowsFollow { s with shared := sh', workers := Function.update s.workers w k' } := by
  -- Another worker's streams are of another shard.
  have hforeign : ∀ v, v ≠ w → ∀ id, shardOf id = v → id ∉ (s.workers w).streams := by
    rintro v hv id rfl hin
    exact hv (hR.known w id (.inl hin)).1
  refine ⟨huntouched, fun v id hid => ?_, fun v id hid => ?_⟩
  · simp only [hpeer]
    by_cases hv : v = w
    · subst hv
      simp only [Function.update_self] at hid
      cases h with
      | keep hstreams hbase hreg =>
          rcases hreg v with hq | ⟨-, -, hnone⟩
          · rw [hbase id (.inl hid), hq]
            exact hI.known v id (hstreams id hid)
          · exact absurd hid (hnone id)
      | takeOpen id' r rest hqueue hreg hstreams hbase =>
          rw [hbase, hreg, if_pos rfl]
          rcases hstreams id hid with rfl | hin
          · have hq := hI.queued v id (by rw [hqueue]; exact List.mem_cons_self ..)
            rwa [hqueue, deltasAfter, if_pos rfl] at hq
          · have hk := hI.known v id hin
            rwa [hqueue, pendingDeltas] at hk
            simp
      | takeDelta delta rest hqueue hreg hstreams hbase =>
          have hk := hI.known v id (hstreams id hid)
          rw [hqueue, pendingDeltas] at hk
          rw [hbase, hreg, if_pos rfl, if_pos (hstreams id hid), hk]
          omega
    · simp only [Function.update_of_ne hv] at hid
      have hout := hforeign v hv id (hR.known v id (.inl hid)).1
      have hk := hI.known v id hid
      cases h with
      | keep hstreams hbase hreg =>
          rcases hreg v with hq | ⟨hvw, -, -⟩
          · rw [hbase id (.inr hout), hq]
            exact hk
          · exact absurd hvw hv
      | takeOpen id' r rest hqueue hreg hstreams hbase => rwa [hbase, hreg, if_neg hv]
      | takeDelta delta rest hqueue hreg hstreams hbase =>
          rwa [hbase, hreg, if_neg hv, if_neg hout, Int.add_zero]
  · simp only [hpeer]
    -- A queued stream is not known yet, and it was queued before.
    have hqueued : id ∈ openIds (s.shared.reg v).queue → id ∉ (s.workers w).streams := by
      intro hin
      obtain ⟨hshard, -, hun⟩ := hR.queued v id hin
      by_cases hv : v = w
      · subst hv
        exact fun h => hun (.inl h)
      · exact hforeign v hv id hshard
    cases h with
    | keep hstreams hbase hreg =>
        rcases hreg v with hq | ⟨-, hq, -⟩
        · simp only [hq] at hid ⊢
          rw [hbase id (.inr (hqueued hid))]
          exact hI.queued v id hid
        · simp [hq, openIds] at hid
    | takeOpen id' r rest hqueue hreg hstreams hbase =>
        simp only [hbase, hreg] at hid ⊢
        split at hid
        · next hv =>
            subst hv
            have hnodup := hR.nodup v
            rw [hqueue] at hnodup
            have hne : ¬ id' = id := by
              rintro rfl
              exact (List.nodup_cons.1 hnodup).1 hid
            have hq := hI.queued v id (by rw [hqueue]; exact List.mem_cons_of_mem _ hid)
            rw [hqueue, deltasAfter, if_neg hne] at hq
            rwa [if_pos rfl]
        · next hv =>
            rw [if_neg hv]
            exact hI.queued v id hid
    | takeDelta delta rest hqueue hreg hstreams hbase =>
        simp only [hbase, hreg] at hid ⊢
        split at hid
        · next hv =>
            subst hv
            have hin : id ∈ openIds (s.shared.reg v).queue := by
              rw [hqueue]
              exact hid
            have hq := hI.queued v id hin
            rw [if_neg (hqueued hin), Int.add_zero, if_pos rfl]
            rwa [hqueue, deltasAfter] at hq
            simp
        · next hv =>
            rw [if_neg (hqueued hid), Int.add_zero, if_neg hv]
            exact hI.queued v id hid

/-- A WINDOW_UPDATE credits a registered stream only. -/
theorem WorkerMove.credited {cfg : MuxConfig} {order : List StreamId} {w : Shard}
    {k k' : Worker} {sh sh' : Shared} (h : WorkerMove cfg order w k sh k' sh')
    {id : StreamId} (hid : id ∉ k.streams) :
    sh'.history.credited id = sh.history.credited id := by
  cases h with
  | takeClose pc hpc hfrom hrecv happly =>
      rcases applyRegistration_windows happly with ⟨hkeep, -⟩ | ⟨_, _, -, -, -, hc⟩ |
        ⟨_, -, -, rfl⟩
      · rw [hkeep.credited]
        rfl
      · rw [hc]
        rfl
      · rfl
  | takeReg pc hpc hfrom hrecv happly =>
      rcases applyRegistration_windows happly with ⟨hkeep, -⟩ | ⟨_, _, -, -, -, hc⟩ |
        ⟨_, -, -, rfl⟩
      · rw [hkeep.credited]
        rfl
      · rw [hc]
        rfl
      · rfl
  | @takeFrame frame c hpc hrecv =>
      rcases dispatch_windows cfg.initialWindowSize frame { k with pc := .drainClose }
        (sh.setFrames w c) with hkeep | ⟨id', delta, -, hin, -, hsh⟩
      · rw [hkeep.credited]
        rfl
      · have hne : id ≠ id' := by
          rintro rfl
          exact hid hin
        rw [hsh]
        simp [Shared.setFrames, Function.update_of_ne hne]
  | move pc hfrom hto => rfl
  | shutdown hpc =>
      have hkeep := closeAll_windows k ⟨.exiting, ∅, ∅⟩ sh (fun _ => AList.notMem_empty _)
      rw [hkeep.credited]
  | exit hpc =>
      obtain ⟨-, hh⟩ := foldl_dropTx_windows (queuedSenders (sh.reg w).queue) sh
      exact congrFun (congrArg History.credited hh) id

/-- An `Open` is enqueued only if the worker accepts it, so with a current window. -/
theorem registering_current {s : MuxState} {z : Realize} {sh : Shared} {pr : Pair}
    {z' : Option Realize} (hz : s.realizing = some z) (hload : LoadedInTime s .realizeStep)
    (h : z.step s.shared (s.pairs z.pair) = (sh, pr, z')) :
    (∀ r, z.pc = .registerError → EnqueuesOpen s.shared sh z.errorId r →
      (s.shared.windows z.errorId).remaining =
        broadcastWindow s.shared.peerInitialWindow s.reader.pc (shardOf z.errorId)) ∧
    (∀ r, z.pc = .registerData → EnqueuesOpen s.shared sh z.dataId r →
      (s.shared.windows z.dataId).remaining =
        broadcastWindow s.shared.peerInitialWindow s.reader.pc (shardOf z.dataId)) := by
  obtain ⟨pair, errorId, dataId, pc⟩ := z
  simp only [LoadedInTime, hz] at hload
  have hlog : ∀ id r, EnqueuesOpen s.shared s.shared id r → False := by
    intro id r hopen
    have := congrArg List.length hopen.log
    simp at this
  have hsent : ∀ (id : StreamId) (r : ChanRef) (sh' : Shared),
      s.shared.sendOpen id r = some sh' → LoadedCurrent s id →
      (s.shared.windows id).remaining =
        broadcastWindow s.shared.peerInitialWindow s.reader.pc (shardOf id) := by
    intro id r sh' hsend hcur
    unfold Shared.sendOpen at hsend
    split at hsend
    · next c hc =>
        obtain ⟨hopen, hroom, -⟩ := Chan.trySend_eq_ok.1 hc
        exact hcur ⟨hopen, hroom⟩
    · contradiction
  unfold Realize.step at h
  refine ⟨fun r hpc hopen => ?_, fun r hpc hopen => ?_⟩ <;> simp only at hpc <;> subst hpc
  · simp only at h hload
    split at h
    · next hsend => exact hsent _ _ _ hsend hload
    · cases h
      exact (hlog errorId r ⟨hopen.queue, hopen.log⟩).elim
  · simp only at h hload
    split at h
    · next hsend => exact hsent _ _ _ hsend hload
    · cases h
      exact (hlog dataId r ⟨hopen.queue, hopen.log⟩).elim

theorem step_windowsFollow {cfg : MuxConfig} {s s' : MuxState} {a : Act}
    (hW : Ownership s) (hR : Registrations s) (hI : WindowsFollow s)
    (hok : ResizesInTime s a) (h : step cfg s a = some s') : WindowsFollow s' := by
  obtain ⟨hload, haccept, hrange⟩ := hok
  obtain ⟨p, c, sh, pr, rfl, hc, rfl⟩ | ⟨p, sh, pr, z, rfl, -, -, hb, rfl⟩ |
    ⟨z, sh, pr, z', rfl, hz, hr, rfl⟩ | ⟨c, sh, r, rfl, hr, rfl⟩ |
    ⟨w, order, k, sh, rfl, hw, rfl⟩ | ⟨c, sh, wr, rfl, hw, rfl⟩ | ⟨rfl, rfl⟩ := step_cases h
  · have hfoot := client_footprint hc
    refine hI.of_keep hR rfl (fun w => by rw [hfoot.reg])
      (fun w => by rw [hfoot.peerInitialWindow])
      (fun id _ => client_baseWindow hrange hc id) fun id hid => ?_
    simp only [hfoot.openLog, hfoot.credited] at hid ⊢
    obtain ⟨hcr, hwr⟩ := hI.untouched id hid
    rcases client_written hc id with hsame | ⟨hwrite, rfl⟩
    · exact ⟨hcr, hsame.trans hwr⟩
    · have hopened := hW.writing p hwrite
      exact absurd (hW.guarded p (by rw [hopened]; rfl)).2.2 hid
  · have hfoot := realizeBegin_footprint hb
    obtain ⟨hreg, -⟩ := realizeBegin_regs hb
    have hhist := (realizeBegin_pair hb).1
    refine hI.of_keep hR rfl (fun w => by rw [hreg]) (fun w => by rw [hfoot.peerInitialWindow])
      (fun id _ => baseWindow_congr ?_ hfoot.credited hfoot.written id) fun id hid => ?_
    · simp only [realizeBegin] at hb
      (repeat' split at hb) <;> cases hb <;> rfl
    · simp only [hhist] at hid ⊢
      exact hI.untouched id hid
  · have hfoot := realizeStep_footprint hr
    obtain ⟨herr, hdata⟩ := hW.progress z hz
    have hbase : ∀ id ∈ s.shared.history.openLog, sh.baseWindow id = s.shared.baseWindow id :=
      fun id hid => realizeStep_baseWindow hr
        (fun heq hpc => by simpa [hpc, RealizePc.errorRegistered] using herr.1 (heq ▸ hid))
        (fun heq hpc => by simpa [hpc, RealizePc.dataRegistered] using hdata.1 (heq ▸ hid))
    obtain ⟨hcurE, hcurD⟩ := registering_current hz hload hr
    rcases realizeStep_reg hr with ⟨hreg, hlog⟩ | ⟨hpc, -, -, hopen, -⟩ |
      ⟨hpc, -, -, hopen, -⟩
    · refine hI.of_keep hR rfl (fun w => by rw [hreg])
        (fun w => by rw [hfoot.peerInitialWindow]) hbase fun id hid => ?_
      simp only [hlog, hfoot.credited, hfoot.written] at hid ⊢
      exact hI.untouched id hid
    · refine hI.open hR rfl hopen ?_ (fun w => by rw [hfoot.peerInitialWindow])
        (fun id => realizeStep_baseWindow hr (by simp [hpc]) (by simp [hpc]))
        hfoot.credited hfoot.written (hcurE _ hpc hopen)
      rw [herr, hpc]
      simp [RealizePc.errorRegistered]
    · refine hI.open hR rfl hopen ?_ (fun w => by rw [hfoot.peerInitialWindow])
        (fun id => realizeStep_baseWindow hr (by simp [hpc]) (by simp [hpc]))
        hfoot.credited hfoot.written (hcurD _ hpc hopen)
      rw [hdata, hpc]
      simp [RealizePc.dataRegistered]
  · have hfoot := reader_footprint hr
    have huntouched : ∀ id ∉ sh.history.openLog,
        sh.history.credited id = 0 ∧ sh.history.written id = 0 := by
      rw [hfoot.openLog, hfoot.credited, hfoot.written]
      exact hI.untouched
    have hbase := baseWindow_congr hfoot.windows hfoot.credited hfoot.written
    rcases reader_broadcast hr with ⟨hreg, hbroad⟩ | ⟨v, delta, mc, mf, rfl, hpc, hreg, hbroad⟩
    · exact hI.of_keep hR rfl (fun w => by rw [hreg]) hbroad (fun id _ => hbase id) huntouched
    · simp only [DeltasAccepted, hpc] at haccept
      exact hI.delta rfl hreg (haccept v rfl) hbroad hbase huntouched
  · have hmove := workerMove_of_step hw
    have hfoot := hmove.footprint
    refine (hmove.base hR hrange).follow hR hI hfoot.peerInitialWindow fun id hid => ?_
    rw [hfoot.openLog] at hid
    have hout : id ∉ (s.workers w).streams := fun hin => hid (hR.known w id (.inl hin)).2
    rw [hmove.credited hout, hfoot.written]
    exact hI.untouched id hid
  · have hfoot := writer_footprint hw
    refine hI.of_keep hR rfl (fun w => by rw [hfoot.reg])
      (fun w => by rw [hfoot.peerInitialWindow])
      (fun id _ => baseWindow_congr hfoot.windows hfoot.credited hfoot.written id) ?_
    simp only [hfoot.openLog, hfoot.credited, hfoot.written]
    exact hI.untouched
  · exact hI.of_keep hR rfl (fun _ => rfl) (fun _ => rfl) (fun _ _ => rfl) hI.untouched

theorem windowsFollow_invariant (cfg : MuxConfig) :
    (mux cfg).Invariant ResizesInTime WindowsFollow := by
  have hbase := Invariant.and (ownership_invariant cfg) (registrations_invariant cfg)
  exact Invariant.of_step_using (Invariant.restrict hbase fun _ _ _ => trivial)
    (windowsFollow_init cfg) fun s a s' hJ hI hok h =>
      step_windowsFollow hJ.1 hJ.2 hI hok h

/-! ## Resized windows -/

/-- With every registration channel empty, no realization and no SETTINGS under
way, the window of every registered stream is the latest initial window, plus what
it was credited, minus what was written on it. -/
def WindowsResized (s : MuxState) : Prop :=
  (∀ w, (s.shared.reg w).queue = [] ∧ (s.shared.closeReg w).queue = []) →
    s.realizing = none → (∀ delta next mc mf, s.reader.pc ≠ .settingsDelta delta next mc mf) →
    ∀ w, ∀ id ∈ (s.workers w).streams,
      (s.shared.windows id).available =
        s.shared.peerInitialWindow.toNat + s.shared.history.credited id -
          s.shared.history.written id

/-- Any number of realizations, SETTINGS frames, credits and writes, in any
interleaving: as long as every `Open` carries the initial window its worker knows
and no difference is refused, windows follow SETTINGS. -/
theorem windows_follow_settings (cfg : MuxConfig) (acts : List Act) (s : MuxState)
    (hrun : (mux cfg).run (mux cfg).init acts = some s)
    (hmeets : (mux cfg).Meets ResizesInTime (mux cfg).init acts) : WindowsResized s := by
  have hI := windowsFollow_invariant cfg acts s hrun hmeets
  intro hqueues _ hpc w id hid
  have hk := hI.known w id hid
  have hpeer : broadcastWindow s.shared.peerInitialWindow s.reader.pc w =
      s.shared.peerInitialWindow.toNat := by
    unfold broadcastWindow
    split
    · next delta next mc mf heq => exact absurd heq (hpc delta next mc mf)
    · rfl
  rw [(hqueues w).1, hpeer] at hk
  simp only [Shared.baseWindow, pendingDeltas] at hk
  simp only [SendWindow.available]
  omega

/-- The reader handles a SETTINGS with the given initial window: the swap, five
differences, and the two remaining parameters. -/
def settingsActs (window : UInt32) : List Act :=
  .reader (.receive (.settings (some window) none none)) ::
    List.replicate 8 (.reader .step)

/-- A worker takes what is in its two registration channels. -/
def takeRegsActs (w : Shard) : List Act := List.replicate 6 (.worker w [])

/-- A pair is opened, its data stream's worker takes it, the peer shrinks the
windows and the worker takes the difference. -/
def resizedActs : List Act :=
  openActs 0 ++ realizeActs 0 ++ takeRegsActs (shardOf 3) ++ settingsActs 100 ++
    (List.finRange 5).flatMap takeRegsActs

theorem windows_follow_settings_shrunk :
    ∃ s, (mux MuxConfig.default).run (mux MuxConfig.default).init resizedActs = some s ∧
      (s.shared.windows 3).available = 100 ∧ WindowsResized s := by
  have hobs : ((mux MuxConfig.default).run (mux MuxConfig.default).init resizedActs).map
      (fun s => (s.shared.windows 3).available) = some 100 := by decide +kernel
  have hmeets : (mux MuxConfig.default).Meets ResizesInTime (mux MuxConfig.default).init
      resizedActs := meets_of_check (by decide +kernel)
  obtain ⟨s, hrun, hs⟩ := Option.map_eq_some_iff.1 hobs
  exact ⟨s, hrun, hs, windows_follow_settings _ _ s hrun hmeets⟩

/-- The SETTINGS is handled after the realization has loaded the initial window
and before it registers the two streams. -/
def staleActs : List Act :=
  openActs 0 ++ [Act.realizeBegin 0, .realizeStep, .realizeStep] ++ settingsActs 100 ++
    List.replicate 7 Act.realizeStep ++ (List.finRange 5).flatMap takeRegsActs

/-- The data stream keeps the window of 1 MiB that the peer has taken back. -/
theorem stale_window :
    ¬ ∀ (cfg : MuxConfig) (acts : List Act) (s : MuxState),
      (mux cfg).run (mux cfg).init acts = some s → WindowsResized s := by
  intro hall
  have hobs : ((mux MuxConfig.default).run (mux MuxConfig.default).init staleActs).map
      (fun s => (decide ((∀ w, (s.shared.reg w).queue = [] ∧ (s.shared.closeReg w).queue = []) ∧
          s.realizing = none ∧ s.reader.pc = .idle ∧ 3 ∈ (s.workers (shardOf 3)).streams),
        (s.shared.windows 3).available, s.shared.peerInitialWindow,
        s.shared.history.credited 3, s.shared.history.written 3)) =
      some (true, 1024 * 1024, 100, 0, 0) := by decide +kernel
  obtain ⟨s, hrun, hs⟩ := Option.map_eq_some_iff.1 hobs
  simp only [Prod.mk.injEq, decide_eq_true_eq] at hs
  obtain ⟨⟨hqueues, hnone, hpc, hin⟩, havail, hpeer, hcred, hwritten⟩ := hs
  have hwrong := hall _ _ s hrun hqueues hnone (by simp [hpc]) (shardOf 3) 3 hin
  rw [havail, hpeer, hcred, hwritten] at hwrong
  simp at hwrong

end KubePortForward.Mux

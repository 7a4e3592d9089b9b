import KubePortForward.Mux.Footprint

/-!
# What each task adds to the writer's channels

The writer is fed through three channels.  Stream owners and realizations fill
the command channel, the reader and the workers the window channel, and
everybody the control channel.  One lemma per task and channel says which
commands a step can add, and under what circumstances.

## Main results

* `client_cmd`, `realizeStep_writer` — the command channel.
* `client_control`, `realizeBegin_writer`, `reader_control`,
  `WorkerMove.control` — the control channel.
* `reader_window`, `WorkerMove.window` — the window channel.
-/

namespace KubePortForward.Mux

open KubePortForward.Codec
open KubePortForward.Verified.Channel

/-! ## Owners and realizations -/

/-- An owner adds DATA frames and its final DATA+FIN to the command channel. -/
theorem client_cmd {cfg : MuxConfig} {p : Nat} {a : ClientAct} {sh sh' : Shared}
    {pr pr' : Pair} (h : clientStep cfg p a sh pr = some (sh', pr')) :
    sh'.cmd.queue = sh.cmd.queue ∨
    (∃ payload, a = .writeSend ∧ pr.write = .debited payload ∧
      sh'.cmd.queue = sh.cmd.queue ++ [.sendRawFrame (rawDataFrame pr.dataId payload)]) ∨
    (a = .shutdown ∧ pr.phase = .opened ∧ pr.write = .idle ∧ pr.gracefulShutdown = false ∧
      pr'.gracefulShutdown = true ∧
      sh'.cmd.queue = sh.cmd.queue ++ [.sendData pr.dataId [] true]) := by
  cases a <;>
    simp only [clientStep, Pair.openBegin, Pair.openStep, Pair.read, Pair.fillBuf,
      Pair.consume, Pair.writeBegin, Pair.writeReserve, Pair.writePick,
      Pair.writeRecheck, Pair.writeDebit, Pair.writeSend, Pair.shutdown,
      Pair.dropReceiver, Pair.dropRest, Pair.dropStep, Shared.sendReservedClose] at h <;>
    (repeat' split at h) <;>
    first
    | contradiction
    | simp only [Option.map_eq_some_iff, Option.some.injEq, Prod.mk.injEq] at h
      grind [Shared.updChan, Shared.updWindow, Shared.dropTx, Shared.setCloseReg,
        Chan.tryReserve_queue, Chan.sendReserved_queue, Chan.releaseReserved_queue]

/-- An owner adds the reset of its data stream to the control channel, unless it
was shut down gracefully. -/
theorem client_control {cfg : MuxConfig} {p : Nat} {a : ClientAct} {sh sh' : Shared}
    {pr pr' : Pair} (h : clientStep cfg p a sh pr = some (sh', pr')) :
    sh'.control.queue = sh.control.queue ∨
    (a = .dropStep ∧ pr.phase = .dropping .resetData ∧ pr.gracefulShutdown = false ∧
      pr' = { pr with phase := .dropping .closeError } ∧
      sh'.control.queue =
        sh.control.queue ++ [.closeStream pr.dataId RST_STATUS_CANCEL]) := by
  cases a <;>
    simp only [clientStep, Pair.openBegin, Pair.openStep, Pair.read, Pair.fillBuf,
      Pair.consume, Pair.writeBegin, Pair.writeReserve, Pair.writePick,
      Pair.writeRecheck, Pair.writeDebit, Pair.writeSend, Pair.shutdown,
      Pair.dropReceiver, Pair.dropRest, Pair.dropStep, Shared.sendReservedClose] at h <;>
    (repeat' split at h) <;>
    first
    | contradiction
    | simp only [Option.map_eq_some_iff, Option.some.injEq, Prod.mk.injEq] at h
      grind [Shared.updChan, Shared.updWindow, Shared.dropTx, Shared.setCloseReg,
        Chan.sendReserved_queue, Chan.releaseReserved_queue]

theorem sendControl_queue (sh : Shared) (c : MuxCommand) :
    (sh.sendControl c).control.queue = sh.control.queue ∨
      (sh.sendControl c).control.queue = sh.control.queue ++ [c] :=
  Chan.sendOrDrop_queue _ _

/-- A realization that finds the id space exhausted announces it. -/
theorem realizeBegin_writer {p : Nat} {sh sh' : Shared} {pr pr' : Pair}
    {z : Option Realize} (h : realizeBegin p sh pr = (sh', pr', z)) :
    sh'.cmd = sh.cmd ∧
      (sh'.control.queue = sh.control.queue ∨
        ∃ last, sh'.control.queue = sh.control.queue ++ [.goAway last]) := by
  simp only [realizeBegin] at h
  split at h
  · cases h
    exact ⟨rfl, .inl rfl⟩
  · split at h
    · cases h
      refine ⟨rfl, ?_⟩
      rcases sendControl_queue (sh.dropPairTx p) (.goAway (sh.nextStreamId - 2)) with hq | hq
      · exact .inl hq
      · exact .inr ⟨_, hq⟩
    · cases h
      exact ⟨rfl, .inl rfl⟩

/-- The open command is enqueued once, between the registrations and the
reservations. -/
theorem realizeStep_writer {z : Realize} {sh sh' : Shared} {pr pr' : Pair}
    {z' : Option Realize} (h : z.step sh pr = (sh', pr', z')) :
    sh'.control.queue = sh.control.queue ∧
      (sh'.cmd = sh.cmd ∨
        (z.pc = .enqueueOpen ∧ z' = some { z with pc := .reserveCtrlError } ∧ pr' = pr ∧
          sh'.cmd.queue = sh.cmd.queue ++
            [.openStreamPair z.errorId z.dataId pr.errorHeaders pr.dataHeaders])) := by
  unfold Realize.step at h
  cases hz : z.pc <;>
    simp only [hz, Shared.sendOpen, Shared.releaseHeld, Shared.sendCloseOrDrop,
      Shared.sendClose] at h <;>
    (repeat' split at h) <;> cases h <;>
    grind [Shared.updChan, Shared.updWindow, Shared.dropTx, Shared.setCloseReg,
      Shared.setReg, Shared.dropPairTx, Chan.trySend_queue, Chan.tryReserve_queue,
      Chan.releaseReserved_queue]

/-! ## The reader -/

/-- What the reader adds to the control channel: answers to PINGs, its idle
probe, and resets of the streams it was told about. -/
inductive ReaderControl (a : ReaderAct) (r : Reader) : MuxCommand → Prop
  | ping (id : UInt32) : ReaderControl a r (.encodePing id)
  | pong (payload : Bytes) : ReaderControl a r (.sendWsPong payload)
  | tooLarge (id : StreamId) (h : a = .tooLarge id) :
      ReaderControl a r (.closeStream id RST_STATUS_FLOW_CONTROL)
  | reject (id : StreamId) (h : r.pc = .reject id) :
      ReaderControl a r (.closeStream id RST_STATUS_FLOW_CONTROL)
  | refuse (id : StreamId) (headers : Headers) (fin : Bool)
      (h : a = .receive (.synStream id headers fin)) :
      ReaderControl a r (.closeStream id RST_STATUS_REFUSED_STREAM)

theorem routeFrame_control (cfg : MuxConfig) (frame : Frame) (sh : Shared) (r : Reader) :
    (routeFrame cfg frame sh r).1.control.queue = sh.control.queue ∨
    ∃ c, (routeFrame cfg frame sh r).1.control.queue = sh.control.queue ++ [c] ∧
      ReaderControl (.receive frame) r c := by
  cases frame with
  | data id payload fin =>
      simp only [routeFrame, creditSession]
      (repeat' split) <;> exact .inl rfl
  | ping id =>
      simp only [routeFrame]
      split
      · exact .inl rfl
      · split
        · rcases sendControl_queue sh (.encodePing id) with hq | hq
          · exact .inl hq
          · exact .inr ⟨_, hq, .ping id⟩
        · exact .inl rfl
  | synStream id headers fin =>
      simp only [routeFrame]
      rcases sendControl_queue sh (.closeStream id RST_STATUS_REFUSED_STREAM) with hq | hq
      · exact .inl hq
      · exact .inr ⟨_, hq, .refuse id headers fin rfl⟩
  | windowUpdate id delta =>
      simp only [routeFrame]
      split <;> exact .inl rfl
  | settings size maxConcurrent maxFrame =>
      cases size <;> exact .inl rfl
  | _ => exact .inl rfl

theorem reader_control {cfg : MuxConfig} {a : ReaderAct} {sh sh' : Shared}
    {r r' : Reader} (h : readerStep cfg a sh r = some (sh', r')) :
    sh'.control.queue = sh.control.queue ∨
    ∃ c, sh'.control.queue = sh.control.queue ++ [c] ∧ ReaderControl a r c := by
  have hsend : ∀ c, ReaderControl a r c → sh'.control = (sh.sendControl c).control →
      sh'.control.queue = sh.control.queue ∨
        ∃ c, sh'.control.queue = sh.control.queue ++ [c] ∧ ReaderControl a r c := by
    intro c hc heq
    rw [heq]
    rcases sendControl_queue sh c with hq | hq
    · exact .inl hq
    · exact .inr ⟨c, hq, hc⟩
  cases a with
  | receive frame =>
      simp only [readerStep, Reader.receive] at h
      split at h
      · rw [Option.some.injEq] at h
        have hroute := routeFrame_control cfg frame { sh with
          history := { sh.history with routed := sh.history.routed ++ [frame] } } r
        rwa [h] at hroute
      · contradiction
  | tooLarge id =>
      simp only [readerStep, Reader.rejectTooLarge] at h
      split at h
      · cases h
        exact hsend _ (.tooLarge id rfl) rfl
      · contradiction
  | wsPing payload =>
      simp only [readerStep, Reader.receiveWsPing] at h
      split at h
      · cases h
        exact hsend _ (.pong payload) rfl
      · contradiction
  | message =>
      simp only [readerStep, Reader.message] at h
      split at h
      · cases h
        exact .inl rfl
      · contradiction
  | idleProbe =>
      simp only [readerStep, Reader.idleProbe] at h
      split at h
      · cases h
        exact hsend _ (.ping _) rfl
      · contradiction
  | exit =>
      simp only [readerStep, Reader.exit] at h
      split at h
      · cases h
        exact .inl rfl
      · contradiction
  | step =>
      simp only [readerStep, Reader.step] at h
      cases hpc : r.pc with
      | reject id =>
          simp only [hpc] at h
          cases h
          exact hsend _ (.reject id hpc) rfl
      | _ =>
          simp only [hpc] at h
          (repeat' split at h) <;> cases h <;> exact .inl rfl

/-- The reader returns session-level credit through the window channel. -/
theorem reader_window {cfg : MuxConfig} {a : ReaderAct} {sh sh' : Shared}
    {r r' : Reader} (h : readerStep cfg a sh r = some (sh', r')) :
    sh'.window.queue = sh.window.queue ∨
      ∃ n, sh'.window.queue = sh.window.queue ++ [.encodeWindowUpdate 0 n] := by
  cases a <;>
    simp only [readerStep, Reader.receive, Reader.rejectTooLarge, Reader.receiveWsPing,
      Reader.message, Reader.idleProbe, Reader.exit, Reader.step, routeFrame,
      creditSession] at h <;>
    (repeat' split at h) <;>
    first
    | contradiction
    | simp only [Option.some.injEq, Prod.mk.injEq] at h
      grind [Shared.setCloseReg, Shared.setReg, Shared.setFrames, Shared.sendControl,
        Chan.trySend_queue]

/-! ## The workers -/

/-- What a worker's calls add to the control channel. -/
def AddsControl (sh sh' : Shared) (P : MuxCommand → Prop) : Prop :=
  ∃ added, sh'.control.queue = sh.control.queue ++ added ∧ ∀ c ∈ added, P c

theorem AddsControl.none {sh sh' : Shared} {P : MuxCommand → Prop}
    (h : sh'.control = sh.control) : AddsControl sh sh' P :=
  ⟨[], by simp [h], by simp⟩

theorem AddsControl.send {sh sh' : Shared} {P : MuxCommand → Prop} {c : MuxCommand}
    (h : sh'.control = (sh.sendControl c).control) (hc : P c) : AddsControl sh sh' P := by
  rcases sendControl_queue sh c with hq | hq
  · exact ⟨[], by rw [h, hq, List.append_nil], by simp⟩
  · exact ⟨[c], by rw [h, hq], by simpa using hc⟩

theorem AddsControl.trans {sh sh' sh'' : Shared} {P : MuxCommand → Prop}
    (h : AddsControl sh sh' P) (h' : AddsControl sh' sh'' P) : AddsControl sh sh'' P := by
  obtain ⟨xs, hxs, hP⟩ := h
  obtain ⟨ys, hys, hQ⟩ := h'
  refine ⟨xs ++ ys, by rw [hys, hxs, List.append_assoc], ?_⟩
  simp only [List.mem_append]
  rintro c (hc | hc)
  · exact hP c hc
  · exact hQ c hc

theorem dropTx?_control (sh : Shared) (r : Option ChanRef) :
    (sh.dropTx? r).control = sh.control := by
  cases r <;> rfl

theorem halfClose_control (id : StreamId) (k : Worker) (sh : Shared) :
    (halfClose id k sh).2.control = sh.control := by
  unfold halfClose
  split
  · exact dropTx?_control _ _
  · rfl

theorem removeStream_control (id : StreamId) (k : Worker) (sh : Shared) :
    (removeStream id k sh).2.control = sh.control := by
  unfold removeStream
  simp only
  split
  · exact dropTx?_control _ _
  · rfl

theorem deliverPayload_control (n : UInt32) (id : StreamId) (payload : Bytes) (k : Worker)
    (sh : Shared) : AddsControl sh (deliverPayload n id payload k sh).2.1
      (fun c => ∃ status, c = .closeStream id status) := by
  unfold deliverPayload
  split
  · exact .none rfl
  · cases k.streams.lookup id with
    | none => exact .send rfl ⟨_, rfl⟩
    | some st =>
        cases hst : st.dataTx with
        | none =>
            simp only [hst]
            exact .none rfl
        | some r =>
            simp only [hst, creditPeer]
            split
            · (repeat' split) <;> exact .none rfl
            · exact .none rfl
            · exact .send rfl ⟨_, rfl⟩

theorem dispatch_control (n : UInt32) (frame : Frame) (k : Worker) (sh : Shared) :
    AddsControl sh (dispatchFrameInWorker n frame k sh).2
      (fun c => ∃ id status, workerKey frame = some id ∧ c = .closeStream id status) := by
  cases frame with
  | data id payload fin =>
      have hdeliver : AddsControl sh (deliverPayload n id payload k sh).2.1
          (fun c => ∃ id' status,
            workerKey (.data id payload fin) = some id' ∧ c = .closeStream id' status) := by
        obtain ⟨added, hq, hP⟩ := deliverPayload_control n id payload k sh
        refine ⟨added, hq, fun c hc => ?_⟩
        obtain ⟨status, rfl⟩ := hP c hc
        exact ⟨id, status, rfl, rfl⟩
      simp only [dispatchFrameInWorker]
      split
      · exact hdeliver
      · split
        · exact hdeliver.trans (.none (halfClose_control _ _ _))
        · exact hdeliver
  | synReply id headers fin =>
      have hanswer : AddsControl sh (answerReply id k sh).2
          (fun c => ∃ id' status,
            workerKey (.synReply id headers fin) = some id' ∧ c = .closeStream id' status) := by
        unfold answerReply
        split
        · exact .none rfl
        · split
          · exact .none rfl
          · exact .send rfl ⟨id, _, rfl, rfl⟩
      simp only [dispatchFrameInWorker]
      split
      · exact hanswer.trans (.none (halfClose_control _ _ _))
      · exact hanswer
  | rstStream id status => exact .none (removeStream_control id k sh)
  | windowUpdate id delta =>
      simp only [dispatchFrameInWorker]
      split <;> exact .none rfl
  | _ => exact .none rfl

theorem refuseStreams_control (ids : List StreamId) (k : Worker) (sh : Shared) :
    AddsControl sh (refuseStreams ids k sh).2
      (fun c => ∃ id ∈ ids, ∃ status, c = .closeStream id status) := by
  induction ids generalizing k sh with
  | nil => exact .none rfl
  | cons id rest ih =>
      have hremove : AddsControl sh (removeStream id k sh).2
          (fun c => ∃ id' ∈ id :: rest, ∃ status, c = .closeStream id' status) :=
        .none (removeStream_control id k sh)
      have hreset : AddsControl (removeStream id k sh).2
          ((removeStream id k sh).2.sendControl (.closeStream id RST_STATUS_CANCEL))
          (fun c => ∃ id' ∈ id :: rest, ∃ status, c = .closeStream id' status) :=
        .send rfl ⟨id, by simp, _, rfl⟩
      refine (hremove.trans hreset).trans ?_
      obtain ⟨added, hq, hP⟩ := ih (removeStream id k sh).1
        ((removeStream id k sh).2.sendControl (.closeStream id RST_STATUS_CANCEL))
      refine ⟨added, hq, fun c hc => ?_⟩
      obtain ⟨id', hid', status, rfl⟩ := hP c hc
      exact ⟨id', List.mem_cons_of_mem _ hid', status, rfl⟩

theorem applyRegistration_control {order : List StreamId} {reg : StreamRegistration}
    {k k' : Worker} {sh sh' : Shared}
    (h : applyRegistration order reg k sh = some (k', sh')) :
    AddsControl sh sh' (fun c => ∃ last status id st,
      reg = .goAway last status ∧ last < id ∧ c = .closeStream id st) := by
  unfold applyRegistration at h
  cases reg with
  | openStream id r =>
      cases h
      exact .none (dropTx?_control _ _)
  | close id =>
      cases h
      exact .none (removeStream_control id k sh)
  | settingsWindowDelta delta =>
      cases h
      exact .none rfl
  | goAway last status =>
      simp only at h
      split at h
      · next hperm =>
          rw [Option.some.injEq] at h
          obtain ⟨added, hq, hP⟩ := refuseStreams_control order k sh
          rw [h] at hq
          refine ⟨added, hq, fun c hc => ?_⟩
          obtain ⟨id, hid, st, rfl⟩ := hP c hc
          have hbad : id ∈ badIds last k := hperm.mem_iff.1 hid
          exact ⟨last, status, id, st, rfl, by simpa using (List.mem_filter.1 hbad).2, rfl⟩
      · contradiction

/-- A worker resets streams named by the frame it dispatches and streams refused
by a GOAWAY. -/
inductive WorkerControl (w : Shard) (sh : Shared) : MuxCommand → Prop
  | frame {f rest id status} (hhead : (sh.frames w).queue = f :: rest)
      (hkey : workerKey f = some id) : WorkerControl w sh (.closeStream id status)
  | refuse {last id st} (status : UInt32)
      (hreg : .goAway last status ∈ (sh.closeReg w).queue ++ (sh.reg w).queue)
      (hid : last < id) : WorkerControl w sh (.closeStream id st)

theorem foldl_dropTx_control (refs : List ChanRef) (sh : Shared) :
    (refs.foldl Shared.dropTx sh).control = sh.control := by
  induction refs generalizing sh with
  | nil => rfl
  | cons r refs ih => exact ih _

theorem foldl_dropTx_window (refs : List ChanRef) (sh : Shared) :
    (refs.foldl Shared.dropTx sh).window = sh.window := by
  induction refs generalizing sh with
  | nil => rfl
  | cons r refs ih => exact ih _

theorem WorkerMove.control {cfg : MuxConfig} {order : List StreamId} {w : Shard}
    {k k' : Worker} {sh sh' : Shared} (h : WorkerMove cfg order w k sh k' sh') :
    AddsControl sh sh' (WorkerControl w sh) := by
  cases h with
  | takeClose pc hpc hfrom hrecv happly =>
      obtain ⟨added, hq, hP⟩ := applyRegistration_control happly
      refine ⟨added, hq, fun c hc => ?_⟩
      obtain ⟨last, status, id, st, rfl, hid, rfl⟩ := hP c hc
      exact .refuse status (by simp [Chan.recv_eq_some hrecv]) hid
  | takeReg pc hpc hfrom hrecv happly =>
      obtain ⟨added, hq, hP⟩ := applyRegistration_control happly
      refine ⟨added, hq, fun c hc => ?_⟩
      obtain ⟨last, status, id, st, rfl, hid, rfl⟩ := hP c hc
      exact .refuse status (by simp [Chan.recv_eq_some hrecv]) hid
  | takeFrame hpc hrecv =>
      obtain ⟨added, hq, hP⟩ := dispatch_control cfg.initialWindowSize _ _ _
      refine ⟨added, hq, fun c hc => ?_⟩
      obtain ⟨id, status, hkey, rfl⟩ := hP c hc
      exact .frame (Chan.recv_eq_some hrecv) hkey
  | move pc hfrom hto => exact .none rfl
  | shutdown hpc => exact .none (foldl_dropTx_control _ sh)
  | exit hpc => exact .none (foldl_dropTx_control _ sh)

theorem dropTx?_window (sh : Shared) (r : Option ChanRef) :
    (sh.dropTx? r).window = sh.window := by
  cases r <;> rfl

theorem halfClose_window (id : StreamId) (k : Worker) (sh : Shared) :
    (halfClose id k sh).2.window = sh.window := by
  unfold halfClose
  split
  · exact dropTx?_window _ _
  · rfl

theorem removeStream_window (id : StreamId) (k : Worker) (sh : Shared) :
    (removeStream id k sh).2.window = sh.window := by
  unfold removeStream
  simp only
  split
  · exact dropTx?_window _ _
  · rfl

theorem refuseStreams_window (ids : List StreamId) (k : Worker) (sh : Shared) :
    (refuseStreams ids k sh).2.window = sh.window := by
  induction ids generalizing k sh with
  | nil => rfl
  | cons id rest ih =>
      rw [refuseStreams, ih]
      exact removeStream_window id k sh

theorem applyRegistration_window {order : List StreamId} {reg : StreamRegistration}
    {k k' : Worker} {sh sh' : Shared}
    (h : applyRegistration order reg k sh = some (k', sh')) :
    sh'.window = sh.window := by
  unfold applyRegistration at h
  cases reg with
  | openStream id r =>
      cases h
      exact dropTx?_window _ _
  | close id =>
      cases h
      exact removeStream_window id k sh
  | settingsWindowDelta delta =>
      cases h
      rfl
  | goAway last status =>
      simp only at h
      split at h
      · rw [Option.some.injEq] at h
        have hrefuse := refuseStreams_window order k sh
        rwa [h] at hrefuse
      · contradiction

theorem deliverPayload_window (n : UInt32) (id : StreamId) (payload : Bytes) (k : Worker)
    (sh : Shared) :
    (deliverPayload n id payload k sh).2.1.window.queue = sh.window.queue ∨
      (id ∈ k.streams ∧ ∃ m, (deliverPayload n id payload k sh).2.1.window.queue =
        sh.window.queue ++ [.encodeWindowUpdate id m]) := by
  unfold deliverPayload
  split
  · exact .inl rfl
  · cases hlookup : k.streams.lookup id with
    | none => exact .inl rfl
    | some st =>
        have hknown : id ∈ k.streams := by
          apply AList.lookup_isSome.1
          rw [hlookup]
          rfl
        cases hst : st.dataTx with
        | none => exact .inl (by simp only [hst])
        | some r =>
            simp only [hst, creditPeer]
            split
            · split
              · split
                · next hsend => exact .inr ⟨hknown, _, Chan.trySend_queue hsend⟩
                · exact .inl rfl
              · exact .inl rfl
            · exact .inl rfl
            · exact .inl rfl

/-- A worker returns the credit of a stream it knows and delivers to. -/
theorem WorkerMove.window {cfg : MuxConfig} {order : List StreamId} {w : Shard}
    {k k' : Worker} {sh sh' : Shared} (h : WorkerMove cfg order w k sh k' sh') :
    sh'.window.queue = sh.window.queue ∨
      ∃ f rest id m, (sh.frames w).queue = f :: rest ∧ workerKey f = some id ∧
        id ∈ k.streams ∧ sh'.window.queue = sh.window.queue ++ [.encodeWindowUpdate id m] := by
  cases h with
  | takeClose pc hpc hfrom hrecv happly =>
      exact .inl (by rw [applyRegistration_window happly]; rfl)
  | takeReg pc hpc hfrom hrecv happly =>
      exact .inl (by rw [applyRegistration_window happly]; rfl)
  | @takeFrame frame c hpc hrecv =>
      have hhead := Chan.recv_eq_some hrecv
      cases frame with
      | data id payload fin =>
          have hdeliver := deliverPayload_window cfg.initialWindowSize id payload
            { k with pc := .drainClose } (sh.setFrames w c)
          have hgo : (dispatchFrameInWorker cfg.initialWindowSize (.data id payload fin)
              { k with pc := .drainClose } (sh.setFrames w c)).2.window =
              (deliverPayload cfg.initialWindowSize id payload
                { k with pc := .drainClose } (sh.setFrames w c)).2.1.window := by
            simp only [dispatchFrameInWorker]
            split
            · rfl
            · split
              · exact halfClose_window _ _ _
              · rfl
          rw [hgo]
          rcases hdeliver with hq | ⟨hknown, m, hq⟩
          · exact .inl hq
          · exact .inr ⟨_, _, id, m, hhead, rfl, hknown, hq⟩
      | synReply id headers fin =>
          refine .inl (congrArg Chan.queue ?_)
          have hanswer : ∀ k sh, (answerReply id k sh).2.window = sh.window := by
            intro k sh
            unfold answerReply
            (repeat' split) <;> rfl
          simp only [dispatchFrameInWorker]
          split
          · rw [halfClose_window, hanswer]
            rfl
          · rw [hanswer]
            rfl
      | rstStream id status => exact .inl (congrArg Chan.queue (removeStream_window _ _ _))
      | windowUpdate id delta =>
          simp only [dispatchFrameInWorker]
          split <;> exact .inl rfl
      | _ => exact .inl rfl
  | move pc hfrom hto => exact .inl rfl
  | shutdown hpc =>
      refine .inl (congrArg Chan.queue ?_)
      exact foldl_dropTx_window _ sh
  | exit hpc =>
      refine .inl (congrArg Chan.queue ?_)
      exact foldl_dropTx_window _ sh

end KubePortForward.Mux

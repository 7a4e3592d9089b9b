import KubePortForward.Verified.Conveyor
import KubePortForward.Mux.Consumption

/-!
# Bytes from the peer to the owner of a stream

A DATA frame goes from the reader to its worker's queue and from there to the
inbound channel of its stream.  Neither send waits: a frame that finds the worker's
queue full is dropped by the reader, and a payload that finds the inbound channel
full is dropped by the worker, while the stream goes on.  As long as neither
happens to a stream that can still receive, its owner obtains the payloads in the
order in which they arrived, without a hole.

## Main results

* `reader_flight` — what the reader does to the frames on their way to a worker.
* `inbound_invariant` — payloads delivered and in flight make up those received.
* `inbound_bytes_in_order` — what an owner obtains is a prefix of what arrived.
-/

namespace KubePortForward.Mux

open KubePortForward.Codec
open KubePortForward.Verified.Channel
open KubePortForward.Verified.Conveyor
open KubePortForward.Verified.Transition

/-! ## Frames in flight -/

/-- The frame the reader holds between taking it and offering it to a worker. -/
def ReaderPc.carried : ReaderPc → List Frame
  | .dispatch f => [f]
  | _ => []

/-- Frames on their way to a worker. -/
def inFlight (w : Shard) (s : MuxState) : List Frame :=
  (s.shared.frames w).queue ++ s.reader.pc.carried

/-- What a step of the reader does to the frames on their way to worker `w`. -/
inductive ReaderFlight (w : Shard) (a : ReaderAct) (sh : Shared) (r : Reader) (sh' : Shared)
    (r' : Reader) : Prop
  | keep (hrouted : sh'.history.routed = sh.history.routed)
      (hflight : (sh'.frames w).queue ++ r'.pc.carried =
        (sh.frames w).queue ++ r.pc.carried)
  | receive (f : Frame) (joined : List Frame) (ha : a = .receive f)
      (hj : joined = [f] ∨ joined = [] ∧ ∀ id, framePayload id f = none)
      (hrouted : sh'.history.routed = sh.history.routed ++ [f])
      (hflight : (sh'.frames w).queue ++ r'.pc.carried =
        (sh.frames w).queue ++ r.pc.carried ++ joined)
  | lose (f : Frame) (id : StreamId) (ha : a = .step) (hpc : r.pc = .dispatch f)
      (hkey : workerKey f = some id)
      (hwhy : shardOf id = w → ¬ ((sh.frames w).closed = false ∧ (sh.frames w).HasRoom))
      (hrouted : sh'.history.routed = sh.history.routed)
      (hflight : (sh'.frames w).queue ++ r'.pc.carried = (sh.frames w).queue)

theorem routeFrame_carried (cfg : MuxConfig) (f : Frame) (sh : Shared) (r : Reader)
    (hidle : r.pc = .idle) :
    (routeFrame cfg f sh r).2.pc.carried = [f] ∨
      (routeFrame cfg f sh r).2.pc.carried = [] ∧ ∀ id, framePayload id f = none := by
  cases f with
  | data i payload fin => exact .inl rfl
  | synReply i headers fin => exact .inl rfl
  | rstStream i status => exact .inl rfl
  | windowUpdate i delta =>
      simp only [routeFrame]
      split
      · exact .inr ⟨by rw [hidle]; rfl, fun _ => rfl⟩
      · exact .inl rfl
  | ping i =>
      refine .inr ⟨?_, fun _ => rfl⟩
      simp only [routeFrame]
      (repeat' split) <;> rw [hidle] <;> rfl
  | settings initialWindow maxConcurrent maxFrame =>
      refine .inr ⟨?_, fun _ => rfl⟩
      cases initialWindow with
      | none => rfl
      | some new =>
          simp only [routeFrame]
          split <;> rfl
  | goAway last status => exact .inr ⟨rfl, fun _ => rfl⟩
  | synStream i headers fin =>
      exact .inr ⟨by simp [routeFrame, hidle, ReaderPc.carried], fun _ => rfl⟩
  | unknown => exact .inr ⟨by simp [routeFrame, hidle, ReaderPc.carried], fun _ => rfl⟩

theorem reader_flight {cfg : MuxConfig} {a : ReaderAct} {sh sh' : Shared} {r r' : Reader}
    (h : readerStep cfg a sh r = some (sh', r')) (w : Shard) :
    ReaderFlight w a sh r sh' r' := by
  have hrouted := reader_routed h
  cases a with
  | receive f =>
      have hframes : sh'.frames = sh.frames := by
        rcases reader_frames h with heq | ⟨-, -, -, ha, -⟩
        · exact heq
        · contradiction
      simp only [readerStep, Reader.receive] at h
      split at h
      · next hidle =>
          have hcar := routeFrame_carried cfg f { sh with
            history := { sh.history with routed := sh.history.routed ++ [f] } } r hidle
          rw [Option.some.injEq] at h
          rw [h] at hcar
          refine .receive f r'.pc.carried rfl hcar hrouted ?_
          rw [hframes, hidle]
          simp [ReaderPc.carried]
      · contradiction
  | step =>
      rw [List.append_nil] at hrouted
      simp only [readerStep, Reader.step] at h
      cases hpc : r.pc with
      | dispatch f =>
          simp only [hpc] at h
          split at h
          · contradiction
          · next id hkey =>
              split at h
              · next c hsend =>
                  obtain ⟨-, hroom, rfl⟩ := Chan.trySend_eq_ok.1 hsend
                  cases h
                  by_cases hw : w = shardOf id
                  · refine .keep hrouted ?_
                    simp [Shared.setFrames, hw, Chan.push, hpc, ReaderPc.carried]
                  · refine .lose f id rfl hpc hkey (fun heq => absurd heq.symm hw) hrouted ?_
                    simp [Shared.setFrames, hw, ReaderPc.carried]
              · next e hsend =>
                  have hwhy : shardOf id = w →
                      ¬ ((sh.frames w).closed = false ∧ (sh.frames w).HasRoom) := by
                    rintro rfl ⟨hopen, hroom⟩
                    rw [Chan.trySend_eq_ok.2 ⟨hopen, hroom, rfl⟩] at hsend
                    contradiction
                  split at h <;> cases h <;>
                    exact .lose _ id rfl hpc hkey hwhy hrouted (List.append_nil _)
      | _ =>
          simp only [hpc] at h
          (repeat' split at h) <;> cases h <;> refine .keep hrouted ?_ <;>
            simp [ReaderPc.carried, hpc, Shared.setCloseReg, Shared.setReg, Shared.sendControl]
  | _ =>
      rw [List.append_nil] at hrouted
      simp only [readerStep, Reader.rejectTooLarge, Reader.receiveWsPing, Reader.message,
        Reader.idleProbe, Reader.exit] at h
      split at h
      · cases h
        refine .keep hrouted ?_
        simp_all [ReaderPc.carried, Shared.sendControl]
      · contradiction

/-! ## What is delivered to a channel -/

theorem pollReadChannel_delivered (c : DataChan) (h : ReadHalf) (n : Nat) :
    (pollReadChannel c h n).2.1.delivered = c.delivered := by
  unfold pollReadChannel
  (repeat' split) <;> rfl

theorem pollFillBufChannel_delivered (fuel : Nat) (c : DataChan) (h : ReadHalf) :
    (pollFillBufChannel fuel c h).2.1.delivered = c.delivered := by
  induction fuel generalizing c h with
  | zero => rfl
  | succ fuel ih =>
      rw [pollFillBufChannel]
      (repeat' split) <;> first
        | rfl
        | rw [ih]

/-- An owner delivers nothing to itself; a channel is created empty. -/
theorem HalfMove.delivered {sh : Shared} {pr : Pair} {p : Nat} {kind : HalfKind}
    {c' : DataChan} {h' : ReadHalf} (hm : HalfMove sh pr p kind c' h') :
    c'.delivered = (sh.chans ⟨p, kind⟩).delivered ∨
      pr.phase = .granting ∧ c'.delivered = [] := by
  cases hm with
  | keep hgrow hhalf => exact .inl (by rw [hgrow.delivered, List.append_nil])
  | read n bytes hn hcan hread =>
      have hkeep := pollReadChannel_delivered (sh.chans ⟨p, kind⟩) (pr.half kind) n
      rw [hread] at hkeep
      exact .inl hkeep
  | fill fuel hcan => exact .inl (pollFillBufChannel_delivered ..)
  | consume amt hcan => exact .inl rfl
  | drop => exact .inl rfl
  | create n hphase => exact .inr ⟨hphase, rfl⟩

/-- A worker takes a frame for a stream whose sender leads to `r`, and the channel
accepts the payload. -/
structure Delivers (s s' : MuxState) (w : Shard) (r : ChanRef) (id : StreamId) (f : Frame)
    (rest : List Frame) (payload : Bytes) : Prop where
  pc : (s.workers w).pc = .selectFrame
  queue : (s.shared.frames w).queue = f :: rest
  sender : (s.workers w).sender id = some r
  load : framePayload id f = some payload
  delivered : (s'.shared.chans r).delivered = (s.shared.chans r).delivered ++ [payload]

/-- What a step adds to the payloads delivered to a channel. -/
theorem step_delivered {cfg : MuxConfig} {s s' : MuxState} {a : Act} (hW : Ownership s)
    (hR : Registrations s) (h : step cfg s a = some s') (r : ChanRef) :
    (s'.shared.chans r).delivered = (s.shared.chans r).delivered ∨
    (s.pairs r.pair).errorId = 0 ∧ (s'.shared.chans r).delivered = [] ∨
    ∃ w order id f rest payload, a = .worker w order ∧ Delivers s s' w r id f rest payload := by
  obtain ⟨p, c, sh, pr, rfl, hc, rfl⟩ | ⟨p, sh, pr, z, rfl, -, -, hb, rfl⟩ |
    ⟨z, sh, pr, z', rfl, hz, hr, rfl⟩ | ⟨c, sh, rd, rfl, hr, rfl⟩ |
    ⟨w, order, k, sh, rfl, hw, rfl⟩ | ⟨c, sh, wr, rfl, hw, rfl⟩ | ⟨rfl, rfl⟩ := step_cases h
  · by_cases hp : r.pair = p
    · subst hp
      rcases (halfMove_of_client hc r.half).delivered with heq | ⟨hphase, heq⟩
      · exact .inl heq
      · exact .inr (.inl ⟨hW.fresh _ (by rw [hphase]; rfl), heq⟩)
    · exact .inl (by rw [client_chans_other hc hp])
  · exact .inl (by rw [(realizeBegin_grows hb r).delivered, List.append_nil])
  · exact .inl (by rw [(realizeStep_grows hr r).delivered, List.append_nil])
  · exact .inl (by rw [(reader_footprint hr).chans])
  · have hmove := workerMove_of_step hw
    cases hmove with
    | @takeFrame frame c hpc hrecv =>
        by_cases hkey : ∃ i, workerKey frame = some i ∧ (s.workers w).sender i = some r
        · obtain ⟨i, hkey, hs⟩ := hkey
          obtain ⟨added, hgrow, hadded, -⟩ := dispatch_sender cfg.initialWindowSize
            (s.shared.setFrames w c) (k := { s.workers w with pc := .drainClose }) hs hkey
          cases hload : framePayload i frame with
          | none =>
              have hnil : added = [] := by
                rcases hadded with hadded | ⟨hadded, -⟩
                · rw [hadded, hload]
                  rfl
                · exact hadded
              refine .inl ?_
              rw [hnil] at hgrow
              exact hgrow.delivered.trans (List.append_nil _)
          | some payload =>
              rcases hadded with hadded | ⟨hadded, -⟩
              · rw [hadded, hload] at hgrow
                exact .inr (.inr ⟨w, order, i, frame, c.queue, payload, rfl, hpc,
                  Chan.recv_eq_some hrecv, hs, hload, hgrow.delivered⟩)
              · refine .inl ?_
                rw [hadded] at hgrow
                exact hgrow.delivered.trans (List.append_nil _)
        · refine .inl ?_
          rw [(dispatch_other cfg.initialWindowSize frame
            { s.workers w with pc := .drainClose } (s.shared.setFrames w c)).2 r
            fun i hi hs => hkey ⟨i, hi, hs⟩]
          rfl
    | @takeClose reg c _ _ pc hpc hfrom hrecv happly =>
        have hmem : reg ∈ (s.shared.closeReg w).queue := by simp [Chan.recv_eq_some hrecv]
        have happ := applyRegistration_sender happly fun i r' heq =>
          absurd (heq ▸ hmem) (hR.not_closing w i r')
        exact .inl ((happ.grows r).delivered.trans (List.append_nil _))
    | @takeReg reg c _ _ pc hpc hfrom hrecv happly =>
        have hmem : reg ∈ (s.shared.reg w).queue := by simp [Chan.recv_eq_some hrecv]
        have happ := applyRegistration_sender happly fun i r' heq =>
          hR.queued_sender (heq ▸ hmem)
        exact .inl ((happ.grows r).delivered.trans (List.append_nil _))
    | move pc hfrom hto => exact .inl rfl
    | shutdown hpc =>
        exact .inl ((closeAll_chans _ _ r).2.delivered.trans (List.append_nil _))
    | exit hpc =>
        exact .inl ((foldl_dropTx_chans (queuedSenders (s.shared.reg w).queue) s.shared
          r).2.delivered.trans (List.append_nil _))
  · exact .inl (by rw [(writer_footprint hw).chans])
  · exact .inl rfl

/-! ## Who still has a sender -/

/-- The sender to `r` is in the entry of stream `id` or registered under it. -/
def Registered (s : MuxState) (id : StreamId) (r : ChanRef) : Prop :=
  (s.workers (shardOf id)).sender id = some r ∨
    .openStream id r ∈ (s.shared.reg (shardOf id)).queue

theorem Senders.registered {s : MuxState} (hS : Senders s) {id : StreamId} {r : ChanRef}
    (h : Registered s id r) : Names s r id :=
  h.elim (hS.entries _ _ _) (hS.queued _ _ _)

/-- A sender is registered when the `Open` of its stream is enqueued, which happens
once. -/
theorem step_registered {cfg : MuxConfig} {s s' : MuxState} {a : Act} (hW : Ownership s)
    (hR : Registrations s) (h : step cfg s a = some s') {id : StreamId} {r : ChanRef}
    (hreg : Registered s' id r) :
    Registered s id r ∨ a = .realizeStep ∧ id ∉ s.shared.history.openLog := by
  obtain ⟨p, c, sh, pr, rfl, hc, rfl⟩ | ⟨p, sh, pr, z, rfl, -, -, hb, rfl⟩ |
    ⟨z, sh, pr, z', rfl, hz, hr, rfl⟩ | ⟨c, sh, rd, rfl, hr, rfl⟩ |
    ⟨w, order, k, sh, rfl, hw, rfl⟩ | ⟨c, sh, wr, rfl, hw, rfl⟩ | ⟨rfl, rfl⟩ := step_cases h
  · simp only [Registered, (client_footprint hc).reg] at hreg
    exact .inl hreg
  · simp only [Registered, (realizeBegin_regs hb).1] at hreg
    exact .inl hreg
  · obtain ⟨herr, hdata⟩ := hW.progress z hz
    rcases hreg with hreg | hreg
    · exact .inl (.inl hreg)
    · rcases realizeStep_reg hr with ⟨hsame, -⟩ | ⟨hpc, -, -, hopen, -⟩ | ⟨hpc, -, -, hopen, -⟩
      · exact .inl (.inr (by simpa only [hsame] using hreg))
      · rcases hopen.mem hreg with hreg | ⟨rfl, -⟩
        · exact .inl (.inr hreg)
        · exact .inr ⟨rfl, fun hin => absurd (herr.1 hin) (by rw [hpc]; decide)⟩
      · rcases hopen.mem hreg with hreg | ⟨rfl, -⟩
        · exact .inl (.inr hreg)
        · exact .inr ⟨rfl, fun hin => absurd (hdata.1 hin) (by rw [hpc]; decide)⟩
  · refine .inl (hreg.imp_right fun hreg => ?_)
    rcases reader_reg hr with heq | ⟨v, delta, mc, mf, -, -, -, rfl⟩
    · exact heq ▸ hreg
    · by_cases hv : shardOf id = v
      · subst hv
        simp only [Shared.setReg, Function.update_self] at hreg
        rcases sendOrDrop_mem hreg with hreg | hreg
        · exact hreg
        · contradiction
      · simpa only [Shared.setReg, Function.update_of_ne hv] using hreg
  · have hmove := workerMove_of_step hw
    refine .inl ?_
    rcases hreg with hreg | hreg
    · by_cases hv : shardOf id = w
      · subst hv
        simp only [Function.update_self] at hreg
        exact hmove.sender_back hreg (fun _ _ => hR.queued_sender) (hR.not_closing _)
      · simp only [Function.update_of_ne hv] at hreg
        exact .inl hreg
    · exact .inr (hmove.regs.regs_subset _ _ hreg)
  · simp only [Registered, (writer_footprint hw).reg] at hreg
    exact .inl hreg
  · exact .inl hreg

/-! ## When nothing is lost -/

/-- Stream `id` can still receive: its worker holds a sender or will be given one. -/
def CanReceive (id : StreamId) (s : MuxState) : Prop :=
  (s.workers (shardOf id)).sender id ≠ none ∨
    id ∈ openIds (s.shared.reg (shardOf id)).queue

instance (id : StreamId) (s : MuxState) : Decidable (CanReceive id s) := by
  unfold CanReceive
  infer_instance

/-- The first payload arrives after the stream was registered. -/
def DataAfterOpen (id : StreamId) (s : MuxState) : Act → Prop
  | .reader (.receive f) => framePayload id f ≠ none → id ∈ s.shared.history.openLog
  | _ => True

instance (id : StreamId) (s : MuxState) (a : Act) : Decidable (DataAfterOpen id s a) := by
  unfold DataAfterOpen
  split <;> infer_instance

/-- The worker's queue has room for the payload the reader offers it. -/
def QueueTakesData (id : StreamId) (s : MuxState) : Act → Prop
  | .reader .step =>
      CanReceive id s → ∀ f ∈ s.reader.pc.carried, framePayload id f ≠ none →
        (s.shared.frames (shardOf id)).closed = false ∧
          (s.shared.frames (shardOf id)).HasRoom
  | _ => True

instance (id : StreamId) (s : MuxState) (a : Act) : Decidable (QueueTakesData id s a) := by
  unfold QueueTakesData
  induction a using Act.casesOn with
  | reader r => induction r using ReaderAct.casesOn <;> infer_instance
  | _ => infer_instance

/-- The channel has room for a payload the worker takes off its queue, unless its
receiver is gone; and the worker has seen the stream's registration by then. -/
def ChannelTakesData (id : StreamId) (s : MuxState) : Act → Prop
  | .worker w _ =>
      w = shardOf id → (s.workers w).pc = .selectFrame →
        ∀ f ∈ (s.shared.frames w).queue.head?, framePayload id f ≠ none →
          id ∉ openIds (s.shared.reg w).queue ∧
          ∀ r ∈ (s.workers w).sender id,
            (s.shared.chans r).chan.closed = true ∨ (s.shared.chans r).chan.HasRoom
  | _ => True

instance (id : StreamId) (s : MuxState) (a : Act) : Decidable (ChannelTakesData id s a) := by
  unfold ChannelTakesData
  induction a using Act.casesOn <;> infer_instance

/-- No payload for stream `id` is dropped on its way while the stream can receive. -/
def NothingDropped (id : StreamId) (s : MuxState) (a : Act) : Prop :=
  DataAfterOpen id s a ∧ QueueTakesData id s a ∧ ChannelTakesData id s a

instance (id : StreamId) (s : MuxState) (a : Act) : Decidable (NothingDropped id s a) := by
  unfold NothingDropped
  infer_instance

theorem Registered.canReceive {s : MuxState} {id : StreamId} {r : ChanRef}
    (h : Registered s id r) : CanReceive id s :=
  h.imp (fun hs => by rw [hs]; simp) fun hq => mem_openIds.2 ⟨r, hq⟩

/-! ## The invariant -/

structure Inbound (id : StreamId) (s : MuxState) : Prop where
  flight : (inFlight (shardOf id) s).Sublist s.shared.history.routed
  unopened : id ∉ s.shared.history.openLog → payloadsOf id s.shared.history.routed = []
  conveys : ∀ r, Registered s id r → Conveys (framePayload id)
    (s.shared.chans r).delivered (inFlight (shardOf id) s) s.shared.history.routed
  delivered : ∀ r, Names s r id →
    (s.shared.chans r).delivered <+: payloadsOf id s.shared.history.routed
  untouched : ∀ r : ChanRef, (s.pairs r.pair).errorId = 0 → (s.shared.chans r).delivered = []

theorem inbound_init (cfg : MuxConfig) (id : StreamId) : Inbound id (MuxState.init cfg) := by
  constructor <;> simp [MuxState.init, Shared.init, Reader.init, Worker.init, inFlight,
    ReaderPc.carried, payloadsOf, Registered, Worker.sender, DataChan.absent]

/-- Ids are given out when a realization begins, and kept. -/
theorem step_names_back {cfg : MuxConfig} {s s' : MuxState} {a : Act}
    (h : step cfg s a = some s') {r : ChanRef} (hne : (s.pairs r.pair).errorId ≠ 0)
    {id : StreamId} (hW : Ownership s) (hn : Names s' r id) : Names s r id := by
  have hold : Names s' r ((s.pairs r.pair).idOf r.half) := step_names hW h ⟨hne, rfl⟩
  exact ⟨hne, hold.2.symm.trans hn.2⟩

theorem step_routed {cfg : MuxConfig} {s s' : MuxState} {a : Act}
    (h : step cfg s a = some s') :
    s'.shared.history.routed = s.shared.history.routed ++
      match a with
      | .reader (.receive f) => [f]
      | _ => [] := by
  obtain ⟨p, c, sh, pr, rfl, hc, rfl⟩ | ⟨p, sh, pr, z, rfl, -, -, hb, rfl⟩ |
    ⟨z, sh, pr, z', rfl, hz, hr, rfl⟩ | ⟨c, sh, rd, rfl, hr, rfl⟩ |
    ⟨w, order, k, sh, rfl, hw, rfl⟩ | ⟨c, sh, wr, rfl, hw, rfl⟩ | ⟨rfl, rfl⟩ := step_cases h
  · simpa using (client_footprint hc).routed
  · simpa using (realizeBegin_footprint hb).routed
  · simpa using (realizeStep_footprint hr).routed
  · have hrouted := reader_routed hr
    cases c <;> exact hrouted
  · simpa using (workerMove_of_step hw).footprint.routed
  · simpa using (writer_footprint hw).routed
  · simp

theorem step_payloads {cfg : MuxConfig} {s s' : MuxState} {a : Act}
    (h : step cfg s a = some s') (id : StreamId) :
    payloadsOf id s.shared.history.routed <+: payloadsOf id s'.shared.history.routed := by
  rw [step_routed h, payloadsOf_append]
  exact List.prefix_append _ _

/-- What a step that is neither the reader's nor the worker's leaves in flight. -/
theorem step_flight_same {cfg : MuxConfig} {s s' : MuxState} {a : Act}
    (h : step cfg s a = some s') (w : Shard) (hreader : ∀ c, a ≠ .reader c)
    (hworker : ∀ order, a ≠ .worker w order) : inFlight w s' = inFlight w s := by
  obtain ⟨p, c, sh, pr, rfl, hc, rfl⟩ | ⟨p, sh, pr, z, rfl, -, -, hb, rfl⟩ |
    ⟨z, sh, pr, z', rfl, hz, hr, rfl⟩ | ⟨c, sh, rd, rfl, hr, rfl⟩ |
    ⟨v, order, k, sh, rfl, hw, rfl⟩ | ⟨c, sh, wr, rfl, hw, rfl⟩ | ⟨rfl, rfl⟩ := step_cases h
  · simp only [inFlight, (client_footprint hc).frames]
  · simp only [inFlight, (realizeBegin_footprint hb).frames]
  · simp only [inFlight, (realizeStep_footprint hr).frames]
  · exact absurd rfl (hreader c)
  · have hne : w ≠ v := by
      rintro rfl
      exact hworker order rfl
    simp only [inFlight]
    rcases (workerMove_of_step hw).frames_queue with hq | ⟨f, rest, -, hq⟩ | ⟨-, hq⟩
    · rw [hq]
    · rw [hq, if_neg hne]
    · rw [hq, if_neg hne]
  · simp only [inFlight, (writer_footprint hw).frames]
  · rfl

/-- A frame the reader or the worker loses carries nothing for the stream. -/
theorem framePayload_lost {id i : StreamId} {f : Frame} {w : Shard} (hkey : workerKey f = some i)
    (hw : w = shardOf id) (h : shardOf i = w → framePayload id f = none) :
    framePayload id f = none := by
  by_cases hi : i = id
  · exact h (by rw [hi, hw])
  · exact framePayload_eq_none (by rw [hkey]; simpa using hi)

/-- The frames in flight after a step of the reader, seen from the worker of `id`. -/
theorem Inbound.reader {cfg : MuxConfig} {s : MuxState} {c : ReaderAct} {sh : Shared}
    {rd : Reader} {id : StreamId} (hI : Inbound id s)
    (hr : readerStep cfg c s.shared s.reader = some (sh, rd))
    (htakes : QueueTakesData id s (.reader c)) :
    (inFlight (shardOf id) { s with shared := sh, reader := rd }).Sublist sh.history.routed ∧
      ∀ r, Registered s id r → Conveys (framePayload id) (s.shared.chans r).delivered
        (inFlight (shardOf id) { s with shared := sh, reader := rd }) sh.history.routed := by
  rcases reader_flight hr (shardOf id) with ⟨hrouted, hflight⟩ |
    ⟨f, joined, -, hj, hrouted, hflight⟩ | ⟨f, i, rfl, hpc, hkey, hwhy, hrouted, hflight⟩
  · rw [hrouted, inFlight, hflight]
    exact ⟨hI.flight, hI.conveys⟩
  · rw [hrouted, inFlight, hflight]
    refine ⟨hI.flight.append ?_, fun r hreg => (hI.conveys r hreg).arrive ?_⟩
    · rcases hj with rfl | ⟨rfl, -⟩
      · exact List.Sublist.refl _
      · exact List.nil_sublist _
    · exact hj.imp_right fun hj => ⟨hj.1, hj.2 id⟩
  · have hcar : inFlight (shardOf id) s = (s.shared.frames (shardOf id)).queue ++ [f] := by
      rw [inFlight, hpc]
      rfl
    have hsub : (s.shared.frames (shardOf id)).queue.Sublist (inFlight (shardOf id) s) := by
      rw [hcar]
      exact List.sublist_append_left _ _
    rw [hrouted, inFlight, hflight]
    refine ⟨hsub.trans hI.flight, fun r hreg => (hI.conveys r hreg).lose hsub ?_⟩
    have hnone : framePayload id f = none := by
      refine framePayload_lost hkey rfl fun hshard => ?_
      by_contra hload
      exact hwhy hshard (htakes hreg.canReceive f (by rw [hpc]; exact List.mem_singleton_self f)
        hload)
    rw [hcar, List.filterMap_append]
    simp [hnone]

/-- A frame is dispatched: its payload for the stream is handed on, unless the stream
loses its sender over it. -/
theorem dispatch_conveys (n : UInt32) {f : Frame} {k : Worker} {sh : Shared} {id : StreamId}
    {r : ChanRef} {rest seen : List Frame}
    (hconv : Conveys (framePayload id) (sh.chans r).delivered (f :: rest) seen)
    (honly : ∀ i, k.sender i = some r → i = id)
    (hsender : framePayload id f ≠ none → k.sender id = some r ∧
      ((sh.chans r).chan.closed = true ∨ (sh.chans r).chan.HasRoom))
    (hkept : (dispatchFrameInWorker n f k sh).1.sender id = some r ∨ k.sender id = none) :
    Conveys (framePayload id) ((dispatchFrameInWorker n f k sh).2.chans r).delivered rest
      seen := by
  by_cases hhit : workerKey f = some id ∧ k.sender id = some r
  · obtain ⟨hkey, hs⟩ := hhit
    obtain ⟨added, hgrow, hadded, -⟩ := dispatch_sender n sh hs hkey
    have hall : added = (framePayload id f).toList := by
      rcases hadded with hadded | ⟨rfl, ⟨-, hgone⟩ | ⟨hopen, hfull⟩⟩
      · exact hadded
      · rw [hgone, hs] at hkept
        simp at hkept
      · cases hload : framePayload id f with
        | none => rfl
        | some payload =>
            rcases (hsender (by simp [hload])).2 with hclosed | hroom
            · rw [hclosed] at hopen
              contradiction
            · exact absurd hroom hfull
    rw [hgrow.delivered, hall]
    exact hconv.take
  · -- The frame is about another stream, or this one has no sender yet.
    have hnone : framePayload id f = none := by
      by_contra hload
      refine hhit ⟨?_, (hsender hload).1⟩
      by_contra hkey
      exact hload (framePayload_eq_none hkey)
    have hother : ∀ i, workerKey f = some i → k.sender i ≠ some r := by
      intro i hkey hs
      obtain rfl := honly i hs
      exact hhit ⟨hkey, hs⟩
    rw [(dispatch_other n f k sh).2 r hother]
    have htake := hconv.take
    rwa [hnone, Option.toList_none, List.append_nil] at htake

/-- The frames in flight and the payloads delivered after a step of the worker. -/
theorem Inbound.worker {cfg : MuxConfig} {s : MuxState} {order : List StreamId} {k : Worker}
    {sh : Shared} {id : StreamId} (hR : Registrations s) (hS : Senders s) (hI : Inbound id s)
    (hmove : WorkerMove cfg order (shardOf id) (s.workers (shardOf id)) s.shared k sh)
    (htakes : ChannelTakesData id s (.worker (shardOf id) order)) :
    ((sh.frames (shardOf id)).queue ++ s.reader.pc.carried).Sublist
        (inFlight (shardOf id) s) ∧
      ∀ r, Registered s id r →
        k.sender id = some r ∨ .openStream id r ∈ (sh.reg (shardOf id)).queue →
        Conveys (framePayload id) (sh.chans r).delivered
          ((sh.frames (shardOf id)).queue ++ s.reader.pc.carried) s.shared.history.routed := by
  have hkeep : ∀ {sh' : Shared}, sh'.frames = s.shared.frames →
      (∀ r, Grows (s.shared.chans r) (sh'.chans r) []) →
      ((sh'.frames (shardOf id)).queue ++ s.reader.pc.carried).Sublist
          (inFlight (shardOf id) s) ∧
        ∀ r, Registered s id r → Conveys (framePayload id) (sh'.chans r).delivered
          ((sh'.frames (shardOf id)).queue ++ s.reader.pc.carried)
          s.shared.history.routed := by
    intro sh' hframes hgrows
    rw [hframes]
    refine ⟨List.Sublist.refl _, fun r hreg => ?_⟩
    rw [(hgrows r).delivered, List.append_nil]
    exact hI.conveys r hreg
  cases hmove with
  | @takeClose reg c _ _ pc hpc hfrom hrecv happly =>
      have hmem : reg ∈ (s.shared.closeReg (shardOf id)).queue := by
        simp [Chan.recv_eq_some hrecv]
      have happ := applyRegistration_sender happly fun i r' heq =>
        absurd (heq ▸ hmem) (hR.not_closing _ i r')
      obtain ⟨hsub, hconv⟩ := hkeep (applyRegistration_callFootprint happly).frames happ.grows
      exact ⟨hsub, fun r hreg _ => hconv r hreg⟩
  | @takeReg reg c _ _ pc hpc hfrom hrecv happly =>
      have hmem : reg ∈ (s.shared.reg (shardOf id)).queue := by simp [Chan.recv_eq_some hrecv]
      have happ := applyRegistration_sender happly fun i r' heq =>
        hR.queued_sender (heq ▸ hmem)
      obtain ⟨hsub, hconv⟩ := hkeep (applyRegistration_callFootprint happly).frames happ.grows
      exact ⟨hsub, fun r hreg _ => hconv r hreg⟩
  | @takeFrame f c hpc hrecv =>
      have hqueue := Chan.recv_eq_some hrecv
      have hcall := dispatch_callFootprint cfg.initialWindowSize f
        { s.workers (shardOf id) with pc := .drainClose } (s.shared.setFrames (shardOf id) c)
      have hflight : inFlight (shardOf id) s = f :: (c.queue ++ s.reader.pc.carried) := by
        rw [inFlight, hqueue, List.cons_append]
      have htakes := htakes rfl hpc f (by rw [hqueue]; rfl)
      have htaken : (s.shared.setFrames (shardOf id) c).frames (shardOf id) = c := by
        simp [Shared.setFrames]
      rw [hcall.frames, hcall.reg, htaken]
      refine ⟨by rw [hflight]; exact List.sublist_cons_self _ _, fun r hreg hafter => ?_⟩
      have hconv := hI.conveys r hreg
      rw [hflight] at hconv
      refine dispatch_conveys _ hconv
        (fun i hs => (hS.entries _ i r hs).2.symm.trans (hS.registered hreg).2)
        (fun hload => ?_) (hafter.imp_right hR.queued_sender)
      rcases hreg with hs | hq
      · exact ⟨hs, (htakes hload).2 r hs⟩
      · exact absurd (mem_openIds.2 ⟨r, hq⟩) (htakes hload).1
  | move pc hfrom hto =>
      obtain ⟨hsub, hconv⟩ := hkeep rfl fun _ => .rfl
      exact ⟨hsub, fun r hreg _ => hconv r hreg⟩
  | shutdown hpc =>
      obtain ⟨hsub, hconv⟩ := hkeep (closeAll_callFootprint _ _).frames
        fun r => (closeAll_chans _ _ r).2
      exact ⟨hsub, fun r hreg _ => hconv r hreg⟩
  | exit hpc =>
      refine ⟨?_, fun r hreg hafter => ?_⟩
      · simp [dropReceivers, Shared.setFrames, inFlight]
      · have hgone := hR.gone (shardOf id) (by rw [hpc]; rfl) id
        rcases hafter with hs | hq
        · exact absurd (Worker.knows_of_sender hs) hgone
        · simp [dropReceivers, Shared.setFrames, Shared.setReg, Shared.setCloseReg] at hq

/-- Frames in flight, and what they and the record of a channel make up. -/
theorem step_conveys {cfg : MuxConfig} {s s' : MuxState} {a : Act} {id : StreamId}
    (hW : Ownership s) (hR : Registrations s) (hS : Senders s) (hI : Inbound id s)
    (hqueue : QueueTakesData id s a) (hchan : ChannelTakesData id s a)
    (h : step cfg s a = some s') :
    (inFlight (shardOf id) s').Sublist s'.shared.history.routed ∧
      ∀ r, Registered s id r → Registered s' id r → Conveys (framePayload id)
        (s'.shared.chans r).delivered (inFlight (shardOf id) s') s'.shared.history.routed := by
  have hrouted := step_routed h
  have hkept : ∀ r, Registered s id r → (∀ order, a ≠ .worker (shardOf id) order) →
      (s'.shared.chans r).delivered = (s.shared.chans r).delivered := by
    intro r hreg hne
    have hname := hS.registered hreg
    rcases step_delivered hW hR h r with heq | ⟨hzero, -⟩ | ⟨w, order, i, f, rest, x, ha, hd⟩
    · exact heq
    · exact absurd hzero hname.1
    · obtain rfl : i = id := (hS.entries w i r hd.sender).2.symm.trans hname.2
      obtain ⟨rfl, -⟩ := hR.known w i (Worker.knows_of_sender hd.sender)
      exact absurd ha (hne order)
  by_cases hreader : ∃ c, a = .reader c
  · obtain ⟨c, rfl⟩ := hreader
    simp only [step, Option.map_eq_some_iff, Prod.exists] at h
    obtain ⟨sh, rd, hr, rfl⟩ := h
    obtain ⟨hsub, hconv⟩ := hI.reader hr hqueue
    refine ⟨hsub, fun r hreg _ => ?_⟩
    rw [hkept r hreg (by simp)]
    exact hconv r hreg
  · by_cases hworker : ∃ order, a = .worker (shardOf id) order
    · obtain ⟨order, rfl⟩ := hworker
      rw [List.append_nil] at hrouted
      simp only [step, Option.map_eq_some_iff, Prod.exists] at h
      obtain ⟨k, sh, hw, rfl⟩ := h
      obtain ⟨hsub, hconv⟩ := hI.worker hR hS (workerMove_of_step hw) hchan
      refine ⟨?_, fun r hreg hreg' => ?_⟩
      · rw [hrouted]
        exact hsub.trans hI.flight
      · rw [hrouted]
        simp only [Registered, Function.update_self] at hreg'
        exact hconv r hreg hreg'
    · have hflight := step_flight_same h (shardOf id) (fun c hc => hreader ⟨c, hc⟩)
        fun order ho => hworker ⟨order, ho⟩
      have hsame : s'.shared.history.routed = s.shared.history.routed := by
        rw [hrouted]
        split
        · next f _ _ _ => exact absurd ⟨_, rfl⟩ hreader
        · exact List.append_nil _
      rw [hflight, hsame]
      refine ⟨hI.flight, fun r hreg _ => ?_⟩
      rw [hkept r hreg fun order ho => hworker ⟨order, ho⟩]
      exact hI.conveys r hreg

theorem step_inbound {cfg : MuxConfig} {s s' : MuxState} {a : Act} {id : StreamId}
    (hW : Ownership s) (hR : Registrations s) (hS : Senders s) (hS' : Senders s')
    (hI : Inbound id s) (hok : NothingDropped id s a) (h : step cfg s a = some s') : Inbound id s' := by
  obtain ⟨hafter, hqueue, hchan⟩ := hok
  obtain ⟨hflight, hconv⟩ := step_conveys hW hR hS hI hqueue hchan h
  -- The record of a channel is kept, reset while the pair has no ids, or fed.
  have hdelivered : ∀ r, Names s' r id →
      (s'.shared.chans r).delivered <+: payloadsOf id s'.shared.history.routed := by
    intro r hn
    refine List.IsPrefix.trans ?_ (step_payloads h id)
    rcases step_delivered hW hR h r with heq | ⟨-, heq⟩ | ⟨w, order, i, f, rest, x, -, hd⟩
    · rw [heq]
      by_cases hne : (s.pairs r.pair).errorId = 0
      · rw [hI.untouched r hne]
        exact List.nil_prefix
      · exact hI.delivered r (step_names_back h hne hW hn)
    · rw [heq]
      exact List.nil_prefix
    · have hname := hS.entries w i r hd.sender
      obtain rfl : i = id := hname.2.symm.trans (step_names_back h hname.1 hW hn).2
      obtain ⟨rfl, -⟩ := hR.known w i (Worker.knows_of_sender hd.sender)
      have htotal := (hI.conveys r (.inl hd.sender)).total
      rw [inFlight, hd.queue, List.cons_append, List.filterMap_cons, hd.load] at htotal
      rw [hd.delivered]
      refine ⟨(rest ++ s.reader.pc.carried).filterMap (framePayload i), ?_⟩
      rw [List.append_assoc]
      exact htotal
  have hconveys : ∀ r, Registered s' id r → Conveys (framePayload id)
      (s'.shared.chans r).delivered (inFlight (shardOf id) s') s'.shared.history.routed := by
    intro r hreg'
    rcases step_registered hW hR h hreg' with hreg | ⟨rfl, hnew⟩
    · exact hconv r hreg hreg'
    · have hnone : payloadsOf id s'.shared.history.routed = [] := by
        rw [step_routed h, List.append_nil]
        exact hI.unopened hnew
      have hnil : (s'.shared.chans r).delivered = [] := by
        have hpre := hdelivered r (hS'.registered hreg')
        rw [hnone] at hpre
        exact List.prefix_nil.1 hpre
      rw [hnil]
      exact .start hflight hnone
  refine ⟨hflight, ?_, hconveys, hdelivered, ?_⟩
  · intro hid
    have hold : id ∉ s.shared.history.openLog := fun hin => hid (step_openLog h hin)
    rw [step_routed h, payloadsOf_append, hI.unopened hold, List.nil_append]
    split
    · next f _ =>
        have hnone : framePayload id f = none := by
          by_contra hload
          exact hold (hafter hload)
        simp [payloadsOf, hnone]
    · rfl
  · intro r hzero
    have hold : (s.pairs r.pair).errorId = 0 := by
      by_contra hne
      exact (step_names hW h ⟨hne, rfl⟩).1 hzero
    rcases step_delivered hW hR h r with heq | ⟨-, heq⟩ | ⟨w, order, i, f, rest, x, -, hd⟩
    · rw [heq]
      exact hI.untouched r hold
    · exact heq
    · exact absurd hold (hS.entries w i r hd.sender).1

theorem inbound_invariant (cfg : MuxConfig) (id : StreamId) :
    (mux cfg).Invariant (NothingDropped id) (Inbound id) := by
  have hbase := Invariant.and (synOrder_invariant cfg) (Invariant.and (ownership_invariant cfg)
    (Invariant.and (registrations_invariant cfg) (senders_invariant cfg)))
  refine Invariant.of_step_using (Invariant.restrict hbase fun _ _ _ => trivial)
    (inbound_init cfg id) ?_
  intro s a s' ⟨hO, hW, hR, hS⟩ hI hok h
  exact step_inbound hW hR hS (step_senders hO hW hR hS h) hI hok h

/-! ## The bytes an owner obtains -/

/-- What arrived for stream `id`, in order of arrival. -/
def bytesFor (id : StreamId) (s : MuxState) : Bytes :=
  (payloadsOf id s.shared.history.routed).flatten

theorem flatten_isPrefix {α : Type} {xs ys : List (List α)} (h : xs <+: ys) :
    xs.flatten <+: ys.flatten := by
  obtain ⟨zs, rfl⟩ := h
  rw [List.flatten_append]
  exact List.prefix_append _ _

/-- Whatever the peer sends and however the tasks interleave: a half has been
delivered a prefix of the payloads that arrived for its stream, and its owner has
obtained a prefix of their bytes, as long as no payload finds a queue full. -/
theorem inbound_bytes_in_order (cfg : MuxConfig) (acts : List Act) (s : MuxState)
    (p : Nat) (kind : HalfKind) (hrun : (mux cfg).run (mux cfg).init acts = some s)
    (halloc : (s.pairs p).errorId ≠ 0)
    (hmeets : (mux cfg).Meets (NothingDropped ((s.pairs p).idOf kind))
      (mux cfg).init acts) :
    ((s.pairs p).half kind).obtained <+: bytesFor ((s.pairs p).idOf kind) s ∧
      (s.shared.chans ⟨p, kind⟩).delivered <+:
        payloadsOf ((s.pairs p).idOf kind) s.shared.history.routed := by
  have hI := inbound_invariant cfg _ acts s hrun hmeets
  have hC := consumed_invariant cfg acts s hrun (meets_anyStep _ _)
  have hdelivered := hI.delivered ⟨p, kind⟩ ⟨halloc, rfl⟩
  exact ⟨(hC.halves ⟨p, kind⟩).taken.trans (flatten_isPrefix hdelivered), hdelivered⟩

/-- One round of a worker: it drains its registrations, looks at all its channels and
takes a frame, if there is one. -/
def workerRound (w : Shard) : List Act := List.replicate 6 (.worker w [])

/-- A DATA frame arrives and is offered to its worker. -/
def receiveActs (f : Frame) : List Act := [.reader (.receive f), .reader .step]

/-- A pair is opened, a payload arrives for its data stream and part of it is read. -/
def readActs : List Act :=
  startActs ++ openActs 0 ++ realizeActs 0 ++ workerRound (shardOf 3) ++
    receiveActs (.data 3 [1, 2, 3] false) ++ [Act.worker (shardOf 3) []] ++
    [Act.client 0 (.read .data 2)]

theorem inbound_bytes_in_order_read :
    ∃ s, (mux MuxConfig.default).run (mux MuxConfig.default).init readActs = some s ∧
      (s.pairs 0).data.obtained = [1, 2] ∧ (s.pairs 0).data.obtained <+: bytesFor 3 s := by
  have hobs : ((mux MuxConfig.default).run (mux MuxConfig.default).init readActs).map
      (fun s => ((s.pairs 0).data.obtained, (s.pairs 0).errorId, (s.pairs 0).dataId)) =
      some ([1, 2], 1, 3) := by decide +kernel
  have hmeets : (mux MuxConfig.default).Meets (NothingDropped 3)
      (mux MuxConfig.default).init readActs := meets_of_check (by decide +kernel)
  obtain ⟨s, hrun, hs⟩ := Option.map_eq_some_iff.1 hobs
  simp only [Prod.mk.injEq] at hs
  obtain ⟨hgot, herr, hid⟩ := hs
  have hdata : (s.pairs 0).idOf .data = 3 := hid
  refine ⟨s, hrun, hgot, ?_⟩
  rw [← hdata]
  exact (inbound_bytes_in_order _ _ s 0 .data hrun (by rw [herr]; decide)
    (by rw [hdata]; exact hmeets)).1

/-- The channel of a stream takes 64 chunks.  The owner is late, so the 65th is
dropped; then the owner reads one chunk, and the 66th is delivered. -/
def lateReaderActs : List Act :=
  startActs ++ openActs 0 ++ realizeActs 0 ++ workerRound (shardOf 3) ++
    (List.replicate 64 (receiveActs (.data 3 [0] false))).flatten ++
    receiveActs (.data 3 [1] false) ++ [Act.worker (shardOf 3) []] ++
    (List.replicate 64 (workerRound (shardOf 3))).flatten ++ [Act.client 0 (.read .data 8)] ++
    receiveActs (.data 3 [2] false) ++ workerRound (shardOf 3) ++
    List.replicate 64 (Act.client 0 (.read .data 8))

/-- The owner of stream 3 obtains the byte of the 66th chunk right after that of the
64th. -/
theorem skipped_payload :
    ¬ ∀ (cfg : MuxConfig) (acts : List Act) (s : MuxState) (p : Nat) (kind : HalfKind),
      (mux cfg).run (mux cfg).init acts = some s → (s.pairs p).errorId ≠ 0 →
      (mux cfg).Meets (DataAfterOpen ((s.pairs p).idOf kind)) (mux cfg).init acts →
      ((s.pairs p).half kind).obtained <+: bytesFor ((s.pairs p).idOf kind) s := by
  intro hall
  have hobs : ((mux MuxConfig.default).run (mux MuxConfig.default).init lateReaderActs).map
      (fun s => ((s.pairs 0).data.obtained, bytesFor 3 s, (s.pairs 0).errorId,
        (s.pairs 0).dataId)) =
      some (List.replicate 64 0 ++ [2], List.replicate 64 0 ++ [1, 2], 1, 3) := by
    decide +kernel
  have hmeets : (mux MuxConfig.default).Meets (DataAfterOpen 3)
      (mux MuxConfig.default).init lateReaderActs := meets_of_check (by decide +kernel)
  obtain ⟨s, hrun, hs⟩ := Option.map_eq_some_iff.1 hobs
  simp only [Prod.mk.injEq] at hs
  obtain ⟨hgot, hsent, herr, hid⟩ := hs
  have hdata : (s.pairs 0).idOf .data = 3 := hid
  have hwrong := hall _ _ s 0 .data hrun (by rw [herr]; decide) (by rw [hdata]; exact hmeets)
  rw [hdata, hsent, show (s.pairs 0).half .data = (s.pairs 0).data from rfl, hgot] at hwrong
  exact absurd hwrong (by decide)

end KubePortForward.Mux

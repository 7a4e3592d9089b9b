import KubePortForward.Mux.LiveSenders

/-!
# What ends a stream

A read returns zero bytes once the sender of the half's channel is gone and the
channel is drained.  The sender goes when the peer's FIN is dispatched, but also with
a reset, a GOAWAY, a `Close` registration and with the worker itself, and the reader
of the half cannot tell these apart.

## Main results

* `drained_invariant` — a half that has seen the end has nothing left to read.
* `endOfStream_invariant` — a half that is still read has its sender, or the FIN was
  dispatched after everything that arrived before it.
* `end_of_stream_is_fin` — zero bytes mean the FIN, and everything before it was read.
-/

namespace KubePortForward.Mux

open KubePortForward.Codec
open KubePortForward.Verified.Channel
open KubePortForward.Verified.Conveyor
open KubePortForward.Verified.Transition

/-! ## A half that has seen the end -/

/-- The end was seen with an empty channel, an empty buffer and no sender. -/
def EofOk (c : DataChan) (h : ReadHalf) : Prop :=
  h.readEof = true → c.chan.queue = [] ∧ h.readBuf = none ∧ c.txAlive = false

theorem EofOk.read {c c' : DataChan} {h h' : ReadHalf} {n : Nat} {bytes : Bytes}
    (hI : EofOk c h) (hr : pollReadChannel c h n = (.ready bytes, c', h')) :
    EofOk c' { h' with obtained := h'.obtained ++ bytes } := by
  unfold pollReadChannel at hr
  split at hr
  · cases hr
    exact hI
  · next hno =>
      split at hr
      · cases hr
        exact fun heof => absurd heof hno
      · next hbuf =>
          split at hr
          · cases hr
            exact fun heof => absurd heof hno
          · next hrecv =>
              split at hr
              · cases hr
              · next htx =>
                  cases hr
                  exact fun _ => ⟨Chan.recv_eq_none hrecv, hbuf, by simpa using htx⟩

theorem EofOk.fill {c : DataChan} {h : ReadHalf} (fuel : Nat) (hI : EofOk c h) :
    EofOk (pollFillBufChannel fuel c h).2.1 (pollFillBufChannel fuel c h).2.2 := by
  induction fuel generalizing c h with
  | zero => exact hI
  | succ fuel ih =>
      rw [pollFillBufChannel]
      split
      · exact hI
      · split
        · exact fun heof => ⟨(hI heof).1, rfl, (hI heof).2.2⟩
        · next hno =>
            split
            · exact ih fun heof => absurd heof hno
            · next hrecv =>
                split
                · exact fun heof => absurd heof hno
                · next htx =>
                    exact fun _ => ⟨Chan.recv_eq_none hrecv, rfl, by simpa using htx⟩

theorem EofOk.consume {c : DataChan} {h : ReadHalf} (amt : Nat) (hI : EofOk c h) :
    EofOk c { (consumeChannelBuf h amt).2 with
      obtained := (consumeChannelBuf h amt).2.obtained ++ (consumeChannelBuf h amt).1 } := by
  unfold consumeChannelBuf
  split
  · next bytes hbuf =>
      intro heof
      rw [(hI heof).2.1] at hbuf
      contradiction
  · exact hI

theorem EofOk.grows {c c' : DataChan} {h : ReadHalf} (hI : EofOk c h)
    (hg : Grows c c' []) : EofOk c' h := by
  intro heof
  obtain ⟨hqueue, hbuf, htx⟩ := hI heof
  refine ⟨by rw [hg.queue, hqueue]; rfl, hbuf, ?_⟩
  cases htx' : c'.txAlive with
  | false => rfl
  | true => exact absurd (hg.alive htx') (by rw [htx]; decide)

theorem HalfMove.eof {sh : Shared} {pr : Pair} {p : Nat} {kind : HalfKind} {c' : DataChan}
    {h' : ReadHalf} (hm : HalfMove sh pr p kind c' h')
    (hI : EofOk (sh.chans ⟨p, kind⟩) (pr.half kind))
    (hfresh : pr.phase.fresh = true → pr.half kind = {}) : EofOk c' h' := by
  cases hm with
  | keep hgrow hhalf => exact hhalf ▸ hI.grows hgrow
  | read n bytes hn hcan hread => exact hI.read hread
  | fill fuel hcan => exact hI.fill fuel
  | consume amt hcan => exact hI.consume amt
  | drop => exact fun heof => ⟨rfl, (hI heof).2⟩
  | create n hphase =>
      intro heof
      rw [hfresh (by rw [hphase]; rfl)] at heof
      contradiction

/-- Every half that has seen the end has nothing left to read. -/
def Drained (s : MuxState) : Prop :=
  ∀ r : ChanRef, EofOk (s.shared.chans r) ((s.pairs r.pair).half r.half)

/-- A channel without a sender does not grow. -/
theorem step_grows_dead {cfg : MuxConfig} {s s' : MuxState} {a : Act} (hW : Ownership s)
    (hR : Registrations s) (hL : LiveSenders s) (h : step cfg s a = some s') {r : ChanRef}
    (hdead : (s.shared.chans r).txAlive = false) {added : List Bytes}
    (hg : Grows (s.shared.chans r) (s'.shared.chans r) added) : added = [] := by
  rcases step_delivered hW hR h r with heq | ⟨-, heq⟩ | ⟨w, order, i, f, rest, x, -, hd⟩
  · rw [hg.delivered] at heq
    exact List.append_right_eq_self.1 heq
  · rw [hg.delivered] at heq
    exact (List.append_eq_nil_iff.1 heq).2
  · obtain ⟨rfl, -⟩ := hR.known w i (Worker.knows_of_sender hd.sender)
    rw [hL.registered i r (.inl hd.sender)] at hdead
    contradiction

theorem step_drained {cfg : MuxConfig} {s s' : MuxState} {a : Act} (hW : Ownership s)
    (hR : Registrations s) (hC : Consumed s) (hL : LiveSenders s) (hI : Drained s)
    (h : step cfg s a = some s') : Drained s' := by
  intro r
  rcases step_half hR h r with ⟨added, hgrow, hhalf⟩ | hmove
  · rw [hhalf]
    intro heof
    have hnil := step_grows_dead hW hR hL h (hI r heof).2.2 hgrow
    subst hnil
    exact (hI r).grows hgrow heof
  · exact hmove.eof (hI r) (hC.fresh r.pair r.half)

theorem drained_init (cfg : MuxConfig) : Drained (MuxState.init cfg) := by
  intro r heof
  cases hk : r.half <;> simp [MuxState.init, Pair.half, hk] at heof

theorem drained_invariant (cfg : MuxConfig) : (mux cfg).Invariant anyStep Drained :=
  Invariant.of_step_using
    (Invariant.and (ownership_invariant cfg) (Invariant.and (registrations_invariant cfg)
      (Invariant.and (consumed_invariant cfg) (liveSenders_invariant cfg))))
    (drained_init cfg) fun _ _ _ hJ hI _ h => step_drained hJ.1 hJ.2.1 hJ.2.2.1 hJ.2.2.2 hI h

/-! ## Halves that are still read -/

/-- The realization is giving back what it has done. -/
def RealizePc.failing : RealizePc → Bool
  | .cleanupErrorOnly => true
  | .cleanupError _ => true
  | .cleanupData _ => true
  | _ => false

/-- The half is read, or will be unless its realization fails. -/
def Expected (s : MuxState) (r : ChanRef) : Prop :=
  (s.shared.chans r).chan.closed = false ∧
    ((s.pairs r.pair).phase = .opened ∨
      ∃ z ∈ s.realizing, z.pair = r.pair ∧ z.pc.failing = false)

instance (s : MuxState) (r : ChanRef) : Decidable (Expected s r) := by
  unfold Expected
  infer_instance

theorem client_opened {cfg : MuxConfig} {p : Nat} {a : ClientAct} {sh sh' : Shared}
    {pr pr' : Pair} (h : clientStep cfg p a sh pr = some (sh', pr'))
    (hp : pr'.phase = .opened) : pr.phase = .opened := by
  cases a <;>
    simp only [clientStep, Pair.openBegin, Pair.openStep, Pair.read, Pair.fillBuf,
      Pair.consume, Pair.writeBegin, Pair.writeReserve, Pair.writePick,
      Pair.writeRecheck, Pair.writeDebit, Pair.writeSend, Pair.shutdown,
      Pair.dropReceiver, Pair.dropRest, Pair.dropStep, Shared.sendReservedClose] at h <;>
    (repeat' split at h) <;>
    first
    | contradiction
    | simp only [Option.map_eq_some_iff, Option.some.injEq, Prod.mk.injEq] at h
      grind

theorem realizeStep_failing {z y : Realize} {sh sh' : Shared} {pr pr' : Pair}
    (h : z.step sh pr = (sh', pr', some y)) (hy : y.pc.failing = false) :
    y.pair = z.pair ∧ z.pc.failing = false := by
  unfold Realize.step at h
  cases hz : z.pc <;> simp only [hz] at h <;> (repeat' split at h) <;> cases h <;> first
    | exact ⟨rfl, rfl⟩
    | contradiction

theorem pollReadChannel_closed (c : DataChan) (h : ReadHalf) (n : Nat) :
    (pollReadChannel c h n).2.1.chan.closed = c.chan.closed := by
  unfold pollReadChannel
  (repeat' split) <;> first
    | rfl
    | next hrecv => exact Chan.recv_closed hrecv

theorem pollFillBufChannel_closed (fuel : Nat) (c : DataChan) (h : ReadHalf) :
    (pollFillBufChannel fuel c h).2.1.chan.closed = c.chan.closed := by
  induction fuel generalizing c h with
  | zero => rfl
  | succ fuel ih =>
      rw [pollFillBufChannel]
      split
      · rfl
      · split
        · rfl
        · split
          · next hrecv => rw [ih, Chan.recv_closed hrecv]
          · split <;> rfl

/-- A receiver that is alive after the owner's move was alive before. -/
theorem HalfMove.closed {sh : Shared} {pr : Pair} {p : Nat} {kind : HalfKind} {c' : DataChan}
    {h' : ReadHalf} (hm : HalfMove sh pr p kind c' h') (hphase : pr.phase ≠ .granting)
    (hc : c'.chan.closed = false) : (sh.chans ⟨p, kind⟩).chan.closed = false := by
  cases hm with
  | keep hgrow hhalf => rw [← hgrow.closed, hc]
  | read n bytes hn hcan hread =>
      have hkeep := pollReadChannel_closed (sh.chans ⟨p, kind⟩) (pr.half kind) n
      rw [hread] at hkeep
      rw [← hkeep, hc]
  | fill fuel hcan => rw [← pollFillBufChannel_closed fuel (sh.chans ⟨p, kind⟩), hc]
  | consume amt hcan => exact hc
  | drop => simp at hc
  | create n hgrant => exact absurd hgrant hphase

/-- An owner does not bring a sender back. -/
theorem HalfMove.dead {sh : Shared} {pr : Pair} {p : Nat} {kind : HalfKind} {c' : DataChan}
    {h' : ReadHalf} (hm : HalfMove sh pr p kind c' h') (hphase : pr.phase ≠ .granting)
    (hdead : (sh.chans ⟨p, kind⟩).txAlive = false) : c'.txAlive = false := by
  cases hm with
  | keep hgrow hhalf =>
      cases htx : c'.txAlive with
      | false => rfl
      | true => exact absurd (hgrow.alive htx) (by rw [hdead]; decide)
  | read n bytes hn hcan hread =>
      have hkeep := pollReadChannel_txAlive (sh.chans ⟨p, kind⟩) (pr.half kind) n
      rw [hread] at hkeep
      exact hkeep.trans hdead
  | fill fuel hcan => exact (pollFillBufChannel_txAlive ..).trans hdead
  | consume amt hcan => exact hdead
  | drop => exact hdead
  | create n hgrant => exact absurd hgrant hphase

/-- A half that is expected after a step was expected before. -/
theorem step_expected {cfg : MuxConfig} {s s' : MuxState} {a : Act} (hW : Ownership s)
    (hR : Registrations s) (h : step cfg s a = some s') {r : ChanRef}
    (hne : (s.pairs r.pair).errorId ≠ 0) (he : Expected s' r) : Expected s r := by
  obtain ⟨hclosed, hphase⟩ := he
  refine ⟨?_, ?_⟩
  · rcases step_half hR h r with ⟨added, hgrow, -⟩ | hmove
    · rw [← hgrow.closed, hclosed]
    · exact hmove.closed (fun hg => hne (hW.fresh _ (by rw [hg]; rfl))) hclosed
  · obtain ⟨p, c, sh, pr, rfl, hc, rfl⟩ | ⟨p, sh, pr, z, rfl, -, hunop, hb, rfl⟩ |
      ⟨z, sh, pr, z', rfl, hz, hr, rfl⟩ | ⟨c, sh, rd, rfl, hr, rfl⟩ |
      ⟨w, order, k, sh, rfl, hw, rfl⟩ | ⟨c, sh, wr, rfl, hw, rfl⟩ | ⟨rfl, rfl⟩ := step_cases h
    · refine hphase.imp_left fun hop => ?_
      by_cases hp : r.pair = p
      · subst hp
        simp only [Function.update_self] at hop
        exact client_opened hc hop
      · simpa only [Function.update_of_ne hp] using hop
    · -- The pair that begins its realization has no ids yet.
      have hp : r.pair ≠ p := fun hp => hne (hW.fresh _ (by rw [hp, hunop]; rfl))
      rcases hphase with hop | ⟨y, hy, hpair, -⟩
      · exact .inl (by simpa only [Function.update_of_ne hp] using hop)
      · simp only [realizeBegin] at hb
        (repeat' split at hb) <;> cases hb <;> cases hy
        exact absurd hpair.symm hp
    · rcases hphase with hop | ⟨y, hy, hpair, hfail⟩
      · by_cases hp : r.pair = z.pair
        · simp only [hp, Function.update_self] at hop
          rcases realizeStep_pair hr with ⟨rfl, -⟩ | ⟨rfl, -⟩ | ⟨-, -, hpc⟩
          · exact .inl (by rw [hp]; exact hop)
          · contradiction
          · exact .inr ⟨z, hz, hp.symm, by rw [hpc]; rfl⟩
        · exact .inl (by simpa only [Function.update_of_ne hp] using hop)
      · simp only [Option.mem_def] at hy
        subst hy
        obtain ⟨hsame, hold⟩ := realizeStep_failing hr hfail
        exact .inr ⟨z, hz, hsame.symm.trans hpair, hold⟩
    · exact hphase
    · exact hphase
    · exact hphase
    · exact hphase

/-! ## When only a FIN ends a half that is read -/

/-- What the worker does next removes the entry of stream `id`, and not for a FIN. -/
def Worker.cutsOff (id : StreamId) (w : Shard) (k : Worker) (sh : Shared) : Bool :=
  match k.pc with
  | .drainClose | .selectClose =>
      match (sh.closeReg w).queue.head? with
      | some (.close i) => i == id
      | some (.goAway last _) => decide (last < id)
      | _ => false
  | .selectFrame =>
      match (sh.frames w).queue.head? with
      | some (.rstStream i _) => i == id
      | _ => false
  | .shutdown => true
  | _ => false

/-- The senders registered under stream `id`. -/
def sendersFor (id : StreamId) (q : List StreamRegistration) : List ChanRef :=
  q.filterMap fun
    | .openStream i r => if i = id then some r else none
    | _ => none

theorem mem_sendersFor {id : StreamId} {q : List StreamRegistration} {r : ChanRef}
    (h : .openStream id r ∈ q) : r ∈ sendersFor id q :=
  List.mem_filterMap.2 ⟨_, h, by simp⟩

/-- The worker does not drop the sender of a half that is still read, except for a
FIN. -/
def OnlyFinEnds (id : StreamId) (s : MuxState) : Act → Prop
  | .worker w _ =>
      w = shardOf id →
        (∀ r ∈ (s.workers w).sender id, Expected s r →
          (s.workers w).cutsOff id w s.shared = false) ∧
        ((s.workers w).pc = .exiting →
          ∀ r ∈ sendersFor id (s.shared.reg w).queue, ¬ Expected s r)
  | _ => True

instance (id : StreamId) (s : MuxState) (a : Act) : Decidable (OnlyFinEnds id s a) := by
  unfold OnlyFinEnds
  induction a using Act.casesOn <;> infer_instance

/-- The FIN of the stream was dispatched after everything that arrived before it. -/
def Ended (id : StreamId) (s : MuxState) (r : ChanRef) : Prop :=
  (s.shared.chans r).txAlive = false ∧
    ∃ before f after, s.shared.history.routed = before ++ f :: after ∧ isFin id f = true ∧
      (s.shared.chans r).delivered = payloadsOf id (before ++ [f])

/-- A half that is still read has its sender, or the FIN was dispatched. -/
def EndOfStream (id : StreamId) (s : MuxState) : Prop :=
  ∀ r, Names s r id → Expected s r → id ∈ s.shared.history.openLog →
    Registered s id r ∨ Ended id s r

theorem endOfStream_init (cfg : MuxConfig) (id : StreamId) :
    EndOfStream id (MuxState.init cfg) := by
  intro r hn
  exact absurd rfl hn.1

theorem WorkerRegs.reg_other {w v : Shard} {k k' : Worker} {sh sh' : Shared}
    (h : WorkerRegs w k sh k' sh') (hv : v ≠ w) : (sh'.reg v).queue = (sh.reg v).queue := by
  cases h with
  | takeClose taken rest hfrom hqueue _ hregs hknows hpc => exact hregs v
  | takeReg taken rest hqueue hregs _ hknows hpc => rw [hregs, if_neg hv]
  | keep hregs _ hknows hpc => exact hregs v
  | exit hpc hk hregs _ => rw [hregs, if_neg hv]

/-- Only its worker unregisters a stream. -/
theorem step_registered_kept {cfg : MuxConfig} {s s' : MuxState} {a : Act}
    (h : step cfg s a = some s') {id : StreamId} {r : ChanRef} (hreg : Registered s id r)
    (hworker : ∀ order, a ≠ .worker (shardOf id) order) : Registered s' id r := by
  obtain ⟨p, c, sh, pr, rfl, hc, rfl⟩ | ⟨p, sh, pr, z, rfl, -, -, hb, rfl⟩ |
    ⟨z, sh, pr, z', rfl, hz, hr, rfl⟩ | ⟨c, sh, rd, rfl, hr, rfl⟩ |
    ⟨w, order, k, sh, rfl, hw, rfl⟩ | ⟨c, sh, wr, rfl, hw, rfl⟩ | ⟨rfl, rfl⟩ := step_cases h
  · simpa only [Registered, (client_footprint hc).reg] using hreg
  · simpa only [Registered, (realizeBegin_regs hb).1] using hreg
  · refine hreg.imp_right fun hq => ?_
    rcases realizeStep_reg hr with ⟨hsame, -⟩ | ⟨-, -, -, hopen, -⟩ | ⟨-, -, -, hopen, -⟩
    · simpa only [hsame] using hq
    · simp only [hopen.queue]
      exact List.mem_append_left _ hq
    · simp only [hopen.queue]
      exact List.mem_append_left _ hq
  · refine hreg.imp_right fun hq => ?_
    rcases reader_reg hr with heq | ⟨v, delta, mc, mf, -, -, -, rfl⟩
    · simpa only [heq] using hq
    · by_cases hv : shardOf id = v
      · subst hv
        simp only [Shared.setReg, Function.update_self]
        rcases Chan.sendOrDrop_queue (s.shared.reg (shardOf id)) (.settingsWindowDelta delta)
          with heq | heq <;> rw [heq]
        · exact hq
        · exact List.mem_append_left _ hq
      · simpa only [Shared.setReg, Function.update_of_ne hv] using hq
  · have hv : shardOf id ≠ w := by
      rintro rfl
      exact hworker order rfl
    simpa only [Registered, Function.update_of_ne hv,
      (workerMove_of_step hw).regs.reg_other hv] using hreg
  · simpa only [Registered, (writer_footprint hw).reg] using hreg
  · exact hreg

/-- Dispatching a frame: the stream keeps its sender, or the frame is its FIN and the
record of the channel ends with it. -/
theorem dispatch_ends (n : UInt32) (sh : Shared) {f : Frame} {k : Worker} {id : StreamId}
    {r : ChanRef} {rest seen : List Frame} (hs : k.sender id = some r)
    (hconv : Conveys (framePayload id) (sh.chans r).delivered (f :: rest) seen)
    (hopen : (sh.chans r).chan.closed = false)
    (hroom : framePayload id f ≠ none → (sh.chans r).chan.HasRoom)
    (hreset : ∀ status, f ≠ .rstStream id status) :
    (dispatchFrameInWorker n f k sh).1.sender id = some r ∨
      ((dispatchFrameInWorker n f k sh).2.chans r).txAlive = false ∧
        ∃ before after, seen = before ++ f :: after ∧ isFin id f = true ∧
          ((dispatchFrameInWorker n f k sh).2.chans r).delivered =
            payloadsOf id (before ++ [f]) := by
  by_cases hkey : workerKey f = some id
  · obtain ⟨added, hgrow, hadded, ⟨hkept, -⟩ | ⟨-, hdead, hwhy⟩⟩ := dispatch_sender n sh hs hkey
    · exact .inl hkept
    · refine .inr ⟨hdead, ?_⟩
      obtain ⟨before, after, hseen, hbefore, -⟩ := hconv.position
      have hfin : isFin id f = true := by
        rcases hwhy with hfin | ⟨status, rfl⟩ | hclosed
        · exact hfin
        · exact absurd rfl (hreset status)
        · rw [hopen] at hclosed
          contradiction
      have hall : added = (framePayload id f).toList := by
        rcases hadded with hadded | ⟨rfl, ⟨hclosed, -⟩ | ⟨-, hfull⟩⟩
        · exact hadded
        · rw [hopen] at hclosed
          contradiction
        · cases hload : framePayload id f with
          | none => rfl
          | some payload => exact absurd (hroom (by simp [hload])) hfull
      refine ⟨before, after, hseen, hfin, ?_⟩
      rw [hgrow.delivered, hall, payloadsOf_append, ← hbefore]
      cases hload : framePayload id f <;> simp [payloadsOf, hload]
  · exact .inl (by rw [(dispatch_other n f k sh).1 id hkey, hs])

/-- The worker of a stream that is still read keeps its sender or ends it with the
FIN. -/
theorem worker_ends {cfg : MuxConfig} {s : MuxState} {order : List StreamId} {k : Worker}
    {sh : Shared} {id : StreamId} {r : ChanRef} (hR : Registrations s) (hI : Inbound id s)
    (hmove : WorkerMove cfg order (shardOf id) (s.workers (shardOf id)) s.shared k sh)
    (htakes : ChannelTakesData id s (.worker (shardOf id) order))
    (hfin : OnlyFinEnds id s (.worker (shardOf id) order)) (hreg : Registered s id r)
    (hexp : Expected s r) :
    Registered { s with
        shared := sh, workers := Function.update s.workers (shardOf id) k } id r ∨
      Ended id { s with
        shared := sh, workers := Function.update s.workers (shardOf id) k } r := by
  obtain ⟨hcut, hexit⟩ := hfin rfl
  simp only [Registered, Ended, Function.update_self, hmove.footprint.routed]
  rcases hreg with hs | hq
  · have hkeeps := hcut r hs hexp
    cases hmove with
    | @takeClose reg c _ _ pc hpc hfrom hrecv happly =>
        have hqueue := Chan.recv_eq_some hrecv
        have hmem : reg ∈ (s.shared.closeReg (shardOf id)).queue := by simp [hqueue]
        have happ := applyRegistration_sender happly fun i r' heq =>
          absurd (heq ▸ hmem) (hR.not_closing _ i r')
        rcases happ.keep id r hs with hs' | ⟨-, hwhy⟩
        · exact .inl (.inl hs')
        · rcases hfrom with hfrom | hfrom <;> rcases hwhy with rfl | ⟨last, status, rfl, hlt⟩ <;>
            simp_all [Worker.cutsOff]
    | @takeReg reg c _ _ pc hpc hfrom hrecv happly =>
        have hmem : reg ∈ (s.shared.reg (shardOf id)).queue := by
          simp [Chan.recv_eq_some hrecv]
        have happ := applyRegistration_sender happly fun i r' heq =>
          hR.queued_sender (heq ▸ hmem)
        have hkind := hR.regKinds _ reg hmem
        rcases happ.keep id r hs with hs' | ⟨-, rfl | ⟨last, status, rfl, -⟩⟩
        · exact .inl (.inl hs')
        · contradiction
        · contradiction
    | @takeFrame f c hpc hrecv =>
        have hqueue := Chan.recv_eq_some hrecv
        have hconv := hI.conveys r (.inl hs)
        rw [inFlight, hqueue, List.cons_append] at hconv
        have hroom : framePayload id f ≠ none → (s.shared.chans r).chan.HasRoom := by
          intro hload
          rcases (htakes rfl hpc f (by rw [hqueue]; rfl) hload).2 r hs with hclosed | hroom
          · rw [hexp.1] at hclosed
            contradiction
          · exact hroom
        have hreset : ∀ status, f ≠ .rstStream id status := by
          rintro status rfl
          simp [Worker.cutsOff, hpc, hqueue] at hkeeps
        rcases dispatch_ends cfg.initialWindowSize (s.shared.setFrames (shardOf id) c)
          (k := { s.workers (shardOf id) with pc := .drainClose }) hs hconv hexp.1 hroom hreset
          with hs' | ⟨hdead, before, after, hseen, hfin, hdel⟩
        · exact .inl (.inl hs')
        · exact .inr ⟨hdead, before, f, after, hseen, hfin, hdel⟩
    | move pc hfrom hto => exact .inl (.inl hs)
    | shutdown hpc => simp [Worker.cutsOff, hpc] at hkeeps
    | exit hpc => exact absurd (Worker.knows_of_sender hs) (hR.gone _ (by rw [hpc]; rfl) id)
  · cases hmove with
    | takeClose pc hpc hfrom hrecv happly =>
        exact .inl (.inr (by rw [(applyRegistration_callFootprint happly).reg]; exact hq))
    | @takeReg reg c _ _ pc hpc hfrom hrecv happly =>
        have hqueue := Chan.recv_eq_some hrecv
        have hmem : reg ∈ (s.shared.reg (shardOf id)).queue := by simp [hqueue]
        have happ := applyRegistration_sender happly fun i r' heq =>
          hR.queued_sender (heq ▸ hmem)
        rw [hqueue, List.mem_cons] at hq
        rcases hq with rfl | hq
        · exact .inl (.inl (happ.opens id r rfl))
        · refine .inl (.inr ?_)
          rw [(applyRegistration_callFootprint happly).reg]
          simpa [Shared.setReg] using hq
    | takeFrame hpc hrecv =>
        exact .inl (.inr (by rw [(dispatch_callFootprint _ _ _ _).reg]; exact hq))
    | move pc hfrom hto => exact .inl (.inr hq)
    | shutdown hpc => exact .inl (.inr (by rw [(closeAll_callFootprint _ _).reg]; exact hq))
    | exit hpc => exact absurd hexp (hexit hpc r (mem_sendersFor hq))

/-- A stream that ended stays ended: nothing is delivered to it any more. -/
theorem Ended.step {cfg : MuxConfig} {s s' : MuxState} {a : Act} {id : StreamId} {r : ChanRef}
    (hW : Ownership s) (hR : Registrations s) (hL : LiveSenders s)
    (hne : (s.pairs r.pair).errorId ≠ 0) (hI : Ended id s r) (h : step cfg s a = some s') :
    Ended id s' r := by
  obtain ⟨hdead, before, f, after, hseen, hfin, hdel⟩ := hI
  refine ⟨?_, before, f, ?_⟩
  · rcases step_half hR h r with ⟨added, hgrow, -⟩ | hmove
    · cases htx : (s'.shared.chans r).txAlive with
      | false => rfl
      | true => exact absurd (hgrow.alive htx) (by rw [hdead]; decide)
    · exact hmove.dead (fun hg => hne (hW.fresh _ (by rw [hg]; rfl))) hdead
  · have hrouted := step_routed h
    refine ⟨_, by rw [hrouted, hseen, List.append_assoc, List.cons_append], hfin, ?_⟩
    rcases step_delivered hW hR h r with heq | ⟨hzero, -⟩ | ⟨w, order, i, g, rest, x, -, hd⟩
    · rw [heq, hdel]
    · exact absurd hzero hne
    · obtain ⟨rfl, -⟩ := hR.known w i (Worker.knows_of_sender hd.sender)
      rw [hL.registered i r (.inl hd.sender)] at hdead
      contradiction

/-- An id that is given out now was not registered before. -/
theorem step_names_new {cfg : MuxConfig} {s s' : MuxState} {a : Act} {id : StreamId}
    {r : ChanRef} (hO : SynOrder s) (hW : Ownership s) (h : step cfg s a = some s')
    (hzero : (s.pairs r.pair).errorId = 0) (hn : Names s' r id) :
    id ∉ s.shared.history.openLog := by
  intro hlog
  have hbound := hW.registered id hlog
  obtain ⟨p, c, sh, pr, rfl, hc, rfl⟩ | ⟨p, sh, pr, z, rfl, -, -, hb, rfl⟩ |
    ⟨z, sh, pr, z', rfl, hz, hr, rfl⟩ | ⟨c, sh, rd, rfl, hr, rfl⟩ |
    ⟨w, order, k, sh, rfl, hw, rfl⟩ | ⟨c, sh, wr, rfl, hw, rfl⟩ | ⟨rfl, rfl⟩ := step_cases h
  · by_cases hp : r.pair = p
    · subst hp
      simp only [Names, Function.update_self, (client_pair hc).1] at hn
      exact hn.1 hzero
    · simp only [Names, Function.update_of_ne hp] at hn
      exact hn.1 hzero
  · by_cases hp : r.pair = p
    · subst hp
      simp only [Names, Function.update_self] at hn
      rcases (realizeBegin_pair hb).2 with ⟨rfl, -⟩ | ⟨y, rfl, rfl⟩
      · exact hn.1 hzero
      · obtain ⟨herr, hdata, -⟩ := realizeBegin_opening hb
        have hsum : (s.shared.nextStreamId + 2).toNat = s.shared.nextStreamId.toNat + 2 := by
          have := hO.next_le
          rw [UInt32.toNat_add, show (2 : UInt32).toNat = 2 from rfl]
          omega
        have hid := congrArg UInt32.toNat hn.2
        cases hk : r.half with
        | error =>
            simp only [hk, Pair.idOf, herr] at hid
            omega
        | data =>
            simp only [hk, Pair.idOf, hdata, hsum] at hid
            omega
    · simp only [Names, Function.update_of_ne hp] at hn
      exact hn.1 hzero
  · by_cases hp : r.pair = z.pair
    · simp only [Names, hp, Function.update_self] at hn hzero
      rcases realizeStep_pair hr with ⟨rfl, -⟩ | ⟨rfl, -⟩ | ⟨rfl, -, -⟩ <;> exact hn.1 hzero
    · simp only [Names, Function.update_of_ne hp] at hn
      exact hn.1 hzero
  · exact hn.1 hzero
  · exact hn.1 hzero
  · exact hn.1 hzero
  · exact hn.1 hzero

/-- A stream that is registered now is registered with the half it names. -/
theorem step_opened_log {cfg : MuxConfig} {s s' : MuxState} {a : Act} {id : StreamId}
    (h : step cfg s a = some s') (hold : id ∉ s.shared.history.openLog)
    (hnew : id ∈ s'.shared.history.openLog) : ∃ r, Registered s' id r := by
  obtain ⟨p, c, sh, pr, rfl, hc, rfl⟩ | ⟨p, sh, pr, z, rfl, -, -, hb, rfl⟩ |
    ⟨z, sh, pr, z', rfl, hz, hr, rfl⟩ | ⟨c, sh, rd, rfl, hr, rfl⟩ |
    ⟨w, order, k, sh, rfl, hw, rfl⟩ | ⟨c, sh, wr, rfl, hw, rfl⟩ | ⟨rfl, rfl⟩ := step_cases h
  · rw [(client_footprint hc).openLog] at hnew
    exact absurd hnew hold
  · rw [(realizeBegin_pair hb).1] at hnew
    exact absurd hnew hold
  · rcases realizeStep_reg hr with ⟨-, hsame⟩ | ⟨-, -, -, hopen, -⟩ | ⟨-, -, -, hopen, -⟩
    · rw [hsame] at hnew
      exact absurd hnew hold
    · rw [hopen.log, List.mem_append, List.mem_singleton] at hnew
      obtain rfl := hnew.resolve_left hold
      exact ⟨⟨z.pair, .error⟩, .inr (by simp only [hopen.queue]; simp)⟩
    · rw [hopen.log, List.mem_append, List.mem_singleton] at hnew
      obtain rfl := hnew.resolve_left hold
      exact ⟨⟨z.pair, .data⟩, .inr (by simp only [hopen.queue]; simp)⟩
  · rw [(reader_footprint hr).openLog] at hnew
    exact absurd hnew hold
  · rw [(workerMove_of_step hw).footprint.openLog] at hnew
    exact absurd hnew hold
  · rw [(writer_footprint hw).openLog] at hnew
    exact absurd hnew hold
  · exact absurd hnew hold

theorem step_endOfStream {cfg : MuxConfig} {s s' : MuxState} {a : Act} {id : StreamId}
    (hO : SynOrder s) (hW : Ownership s) (hW' : Ownership s') (hR : Registrations s)
    (hS' : Senders s') (hL : LiveSenders s) (hIn : Inbound id s) (hI : EndOfStream id s)
    (hdrop : NothingDropped id s a) (hfin : OnlyFinEnds id s a)
    (h : step cfg s a = some s') : EndOfStream id s' := by
  intro r hn hexp hlog
  by_cases hold : id ∈ s.shared.history.openLog
  · have hne : (s.pairs r.pair).errorId ≠ 0 := fun hzero =>
      step_names_new hO hW h hzero hn hold
    have hexp' := step_expected hW hR h hne hexp
    rcases hI r (step_names_back h hne hW hn) hexp' hold with hreg | hended
    · by_cases hworker : ∃ order, a = .worker (shardOf id) order
      · obtain ⟨order, rfl⟩ := hworker
        simp only [step, Option.map_eq_some_iff, Prod.exists] at h
        obtain ⟨k, sh, hw, rfl⟩ := h
        exact worker_ends hR hIn (workerMove_of_step hw) hdrop.2.2 hfin hreg hexp'
      · exact .inl (step_registered_kept h hreg fun order ho => hworker ⟨order, ho⟩)
    · exact .inr (hended.step hW hR hL hne h)
  · obtain ⟨r', hreg⟩ := step_opened_log h hold hlog
    rw [hW'.names_unique hn (hS'.registered hreg)]
    exact .inl hreg

theorem endOfStream_invariant (cfg : MuxConfig) (id : StreamId) :
    (mux cfg).Invariant (fun s a => NothingDropped id s a ∧ OnlyFinEnds id s a)
      (EndOfStream id) := by
  have hbase := Invariant.and (feeds_invariant cfg) (Invariant.and (synOrder_invariant cfg)
    (Invariant.and (ownership_invariant cfg) (Invariant.and (registrations_invariant cfg)
      (Invariant.and (senders_invariant cfg) (liveSenders_invariant cfg)))))
  have hin := Invariant.restrict (inbound_invariant cfg id)
    fun s a (h : NothingDropped id s a ∧ OnlyFinEnds id s a) => h.1
  refine Invariant.of_step_using
    (Invariant.and (Invariant.restrict hbase fun _ _ _ => trivial) hin)
    (endOfStream_init cfg id) ?_
  intro s a s' ⟨⟨hF, hO, hW, hR, hS, hL⟩, hIn⟩ hI hok h
  exact step_endOfStream hO hW (step_ownership hO hW h) hR (step_senders hO hW hR hS h) hL hIn
    hI hok.1 hok.2 h

/-! ## Zero bytes -/

/-- A read with room that returns nothing found the end: the half had seen it, or the
channel is drained and its sender gone. -/
theorem pollReadChannel_empty {c c' : DataChan} {h h' : ReadHalf} {n : Nat}
    (hC : HalfOk c h) (hD : EofOk c h) (hn : 0 < n)
    (hr : pollReadChannel c h n = (.ready [], c', h')) :
    c.chan.queue = [] ∧ h.readBuf = none ∧ c.txAlive = false := by
  have hnil : ∀ {xs : Bytes}, xs ≠ [] → xs.take (min xs.length n) ≠ [] := by
    intro xs hxs htake
    have hlen := congrArg List.length htake
    have hpos := List.length_pos_of_ne_nil hxs
    simp only [List.length_take, List.length_nil] at hlen
    omega
  unfold pollReadChannel at hr
  split at hr
  · next heof => exact hD heof
  · split at hr
    · next remaining hbuf =>
        simp only [Prod.mk.injEq, Poll.ready.injEq] at hr
        exact absurd hr.1 (hnil fun heq => hC.buffered (by rw [hbuf, heq]))
    · next hbuf =>
        split at hr
        · next data ch hrecv =>
            simp only [Prod.mk.injEq, Poll.ready.injEq] at hr
            refine absurd hr.1 (hnil (hC.chunks data ?_))
            simp [Chan.recv_eq_some hrecv]
        · next hrecv =>
            split at hr
            · cases hr
            · next htx => exact ⟨Chan.recv_eq_none hrecv, hbuf, by simpa using htx⟩

/-- Two payloads arrive for stream 3, the second with a FIN, and both are read. -/
def readToEndActs : List Act :=
  startActs ++ openActs 0 ++ realizeActs 0 ++ workerRound (shardOf 3) ++
    receiveActs (.data 3 [1, 2] false) ++ [Act.worker (shardOf 3) []] ++
    receiveActs (.data 3 [3] true) ++ workerRound (shardOf 3) ++
    List.replicate 2 (Act.client 0 (.read .data 8))

/-- A pair is opened; then the transport closes and the worker of stream 3 ends. -/
def transportClosedActs : List Act :=
  startActs ++ openActs 0 ++ realizeActs 0 ++ workerRound (shardOf 3) ++ [Act.reader .exit] ++
    List.replicate 2 (Act.worker (shardOf 3) [])

end KubePortForward.Mux

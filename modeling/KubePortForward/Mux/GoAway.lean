import KubePortForward.Mux.Registration
import KubePortForward.Mux.Routing

/-!
# A GOAWAY terminates the streams it refuses

The reader sets a flag that stops new realizations and then sends every worker
a notice through its close channel; a worker that takes the notice removes
the streams above the last good one.  A stream escapes in three ways: a
realization that passed the flag check registers it afterwards, the notice is
dropped on a full channel, or the notice overtakes the registration, because
the close channel is drained first.

## Main results

* `goaway_terminates_refused` — in a run in which none of the three happens,
  once the GOAWAY is processed and the registration channels are empty, no
  worker holds a stream above the last good one.
* `goaway_overtakes_open` — a run in which the notice overtakes.
-/

namespace KubePortForward.Mux

open KubePortForward.Codec
open KubePortForward.Verified.Channel
open KubePortForward.Verified.Transition

/-- The worker holds no stream above `last`, and none waits to be registered. -/
def Cleared (s : MuxState) (w : Shard) (last : StreamId) : Prop :=
  (∀ id ∈ (s.workers w).streams.keys, id ≤ last) ∧
    ∀ id ∈ openIds (s.shared.reg w).queue, id ≤ last

instance (s : MuxState) (w : Shard) (last : StreamId) : Decidable (Cleared s w last) := by
  unfold Cleared
  infer_instance

/-- Some GOAWAY received so far refuses the stream. -/
def refusedBy (routed : List Frame) (id : StreamId) : Bool :=
  routed.any fun
    | .goAway last _ => decide (last < id)
    | _ => false

theorem refusedBy_eq_false {routed : List Frame} {id : StreamId}
    (h : refusedBy routed id = false) {last : StreamId} {status : UInt32}
    (hmem : .goAway last status ∈ routed) : id ≤ last := by
  apply UInt32.not_lt.mp
  intro hlt
  have htrue : refusedBy routed id = true :=
    List.any_eq_true.mpr ⟨_, hmem, by simpa using hlt⟩
  rw [h] at htrue
  contradiction

/-! ## The three conditions -/

/-- A worker's notice is dropped only where there is nothing to refuse. -/
def NoticeReaches (s : MuxState) : Act → Prop
  | .reader .step =>
      match s.reader.pc with
      | .goAway last _ next =>
          ∀ h : next < FRAME_WORKERS,
            ((s.shared.closeReg ⟨next, h⟩).closed = false ∧
              (s.shared.closeReg ⟨next, h⟩).HasRoom) ∨ Cleared s ⟨next, h⟩ last
      | _ => True
  | _ => True

/-- No stream is registered after a GOAWAY that refuses it was received. -/
def NoLateRegistration (s : MuxState) : Act → Prop
  | .realizeStep =>
      match s.realizing with
      | some z =>
          (z.pc = .registerError → refusedBy s.shared.history.routed z.errorId = false) ∧
            (z.pc = .registerData → refusedBy s.shared.history.routed z.dataId = false)
      | none => True
  | _ => True

/-- No worker takes a notice while a stream it refuses waits to be registered. -/
def NoNoticeOvertaking (s : MuxState) : Act → Prop
  | .worker w _ =>
      (s.workers w).pc = .drainClose ∨ (s.workers w).pc = .selectClose →
        match (s.shared.closeReg w).queue with
        | .goAway last _ :: _ => ∀ id ∈ openIds (s.shared.reg w).queue, id ≤ last
        | _ => True
  | _ => True

def RefusesAll (s : MuxState) (a : Act) : Prop :=
  NoticeReaches s a ∧ NoLateRegistration s a ∧ NoNoticeOvertaking s a

instance (s : MuxState) (a : Act) : Decidable (NoticeReaches s a) := by
  unfold NoticeReaches
  (repeat' split) <;> infer_instance

instance (s : MuxState) (a : Act) : Decidable (NoLateRegistration s a) := by
  unfold NoLateRegistration
  (repeat' split) <;> infer_instance

instance (s : MuxState) (a : Act) : Decidable (NoNoticeOvertaking s a) := by
  unfold NoNoticeOvertaking
  split
  · refine @instDecidableForall _ _ inferInstance ?_
    split <;> infer_instance
  · infer_instance

instance (s : MuxState) (a : Act) : Decidable (RefusesAll s a) := by
  unfold RefusesAll
  infer_instance

/-! ## What a worker does with the streams above a bound -/

theorem refuseStreams_streams {ids : List StreamId} {id : StreamId} {k : Worker}
    {sh : Shared} (h : id ∈ (refuseStreams ids k sh).1.streams) :
    id ∈ k.streams ∧ id ∉ ids := by
  induction ids generalizing k sh with
  | nil => exact ⟨h, by simp⟩
  | cons i ids ih =>
      obtain ⟨hmem, hnot⟩ := ih h
      obtain ⟨hne, hmem⟩ := AList.mem_erase.1 hmem
      exact ⟨hmem, by simp [hne, hnot]⟩

/-- A notice leaves nothing above the last good stream. -/
theorem goAway_clears {order : List StreamId} {last : StreamId} {status : UInt32}
    {k k' : Worker} {sh sh' : Shared}
    (h : applyRegistration order (.goAway last status) k sh = some (k', sh')) :
    ∀ id ∈ k'.streams.keys, id ≤ last := by
  intro id hid
  simp only [applyRegistration] at h
  split at h
  · next hperm =>
      rw [Option.some.injEq] at h
      have hk : (refuseStreams order k sh).1 = k' := by rw [h]
      rw [← hk] at hid
      obtain ⟨hmem, hnot⟩ := refuseStreams_streams (AList.mem_keys.2 hid)
      apply UInt32.not_lt.mp
      intro hlt
      apply hnot
      rw [hperm.mem_iff, badIds, List.mem_filter]
      exact ⟨AList.mem_keys.1 hmem, by simpa using hlt⟩
  · contradiction

/-- Only an `Open` adds an entry. -/
theorem applyRegistration_streams {order : List StreamId} {reg : StreamRegistration}
    {k k' : Worker} {sh sh' : Shared} {id : StreamId}
    (h : applyRegistration order reg k sh = some (k', sh')) (hid : id ∈ k'.streams.keys) :
    id ∈ k.streams.keys ∨ ∃ r, reg = .openStream id r := by
  rw [← AList.mem_keys] at hid
  cases reg with
  | openStream id' r =>
      cases h
      rcases (AList.mem_insert _).1 hid with rfl | hid
      · exact .inr ⟨r, rfl⟩
      · exact .inl (AList.mem_keys.1 hid)
  | close id' =>
      cases h
      exact .inl (AList.mem_keys.1 ((removeStream_shrinks id' k sh).streams id hid))
  | settingsWindowDelta delta =>
      cases h
      exact .inl (AList.mem_keys.1 hid)
  | goAway last status =>
      simp only [applyRegistration] at h
      split at h
      · rw [Option.some.injEq] at h
        have hk : (refuseStreams order k sh).1 = k' := by rw [h]
        rw [← hk] at hid
        exact .inl (AList.mem_keys.1 (refuseStreams_streams hid).1)
      · contradiction

/-! ## The invariant -/

/-- The notice for the worker is still to be sent, or waits in its channel. -/
def Announced (s : MuxState) (w : Shard) (last : StreamId) : Prop :=
  (∃ status next, s.reader.pc = .goAway last status next ∧ next ≤ w.val) ∨
    ∃ status, .goAway last status ∈ (s.shared.closeReg w).queue

/-- Every GOAWAY received so far is announced to a worker or has cleared it. -/
def GoAwayOk (s : MuxState) : Prop :=
  ∀ last status, .goAway last status ∈ s.shared.history.routed →
    ∀ w, Announced s w last ∨ Cleared s w last

/-- A step of some other task: no notice is lost, and what is newly queued for
registration is refused by no GOAWAY. -/
theorem GoAwayOk.of_keep {s s' : MuxState} (hI : GoAwayOk s)
    (hrouted : s'.shared.history.routed = s.shared.history.routed)
    (hreader : s'.reader = s.reader) (hworkers : s'.workers = s.workers)
    (hclose : ∀ w, ∀ reg ∈ (s.shared.closeReg w).queue, reg ∈ (s'.shared.closeReg w).queue)
    (hopens : ∀ w, ∀ id ∈ openIds (s'.shared.reg w).queue,
      id ∈ openIds (s.shared.reg w).queue ∨ refusedBy s.shared.history.routed id = false) :
    GoAwayOk s' := by
  intro last status hmem w
  rw [hrouted] at hmem
  rcases hI last status hmem w with (⟨st, next, hpc, hle⟩ | ⟨st, hq⟩) | ⟨hstreams, hqueue⟩
  · exact .inl (.inl ⟨st, next, by rw [hreader]; exact hpc, hle⟩)
  · exact .inl (.inr ⟨st, hclose w _ hq⟩)
  · refine .inr ⟨by rw [hworkers]; exact hstreams, fun id hid => ?_⟩
    rcases hopens w id hid with hid | hid
    · exact hqueue id hid
    · exact refusedBy_eq_false hid hmem

theorem GoAwayOk.realize {s : MuxState} {z : Realize} {sh : Shared} {pr : Pair}
    {z' : Option Realize} (hI : GoAwayOk s) (hz : s.realizing = some z)
    (hlate : NoLateRegistration s .realizeStep)
    (hr : z.step s.shared (s.pairs z.pair) = (sh, pr, z')) :
    GoAwayOk { s with
      shared := sh, pairs := Function.update s.pairs z.pair pr, realizing := z' } := by
  simp only [NoLateRegistration, hz] at hlate
  have hclose : ∀ w, ∀ reg ∈ (s.shared.closeReg w).queue, reg ∈ (sh.closeReg w).queue := by
    intro w
    rcases realizeStep_closes hr with hk | ⟨-, hk⟩ | ⟨-, hk⟩
    · exact hk.mem w
    · exact hk.mem w
    · exact hk.mem w
  refine hI.of_keep (realizeStep_footprint hr).routed rfl rfl hclose fun w id hid => ?_
  -- Only the two registrations put an id into a queue.
  have henqueued : ∀ {id' : StreamId} {r : ChanRef}, EnqueuesOpen s.shared sh id' r →
      refusedBy s.shared.history.routed id' = false →
      id ∈ openIds (s.shared.reg w).queue ∨ refusedBy s.shared.history.routed id = false := by
    intro id' r hopen hok
    rw [hopen.queue, openIds_append, List.mem_append] at hid
    rcases hid with hid | hid
    · exact .inl hid
    · split at hid
      · have hid' : id = id' := by simpa [openIds] using hid
        rw [hid']
        exact .inr hok
      · simp [openIds] at hid
  rcases realizeStep_reg hr with ⟨hreg, -⟩ | ⟨hpc, -, -, hopen, -⟩ | ⟨hpc, -, -, hopen, -⟩
  · rw [hreg] at hid
    exact .inl hid
  · exact henqueued hopen (hlate.1 hpc)
  · exact henqueued hopen (hlate.2 hpc)

/-! ## The reader -/

/-- What the reader does about a GOAWAY: it starts the broadcast, sends one
notice, ends the broadcast, or has none under way. -/
inductive ReaderNotice (sh : Shared) (r : Reader) (sh' : Shared) (r' : Reader) : Prop
  | start (last : StreamId) (status : UInt32) (hidle : r.pc = .idle)
      (hpc : r'.pc = .goAway last status 0) (hclose : sh'.closeReg = sh.closeReg)
      (hrouted : sh'.history.routed = sh.history.routed ++ [.goAway last status])
  | notify (w : Shard) (last : StreamId) (status : UInt32)
      (hfrom : r.pc = .goAway last status w) (hpc : r'.pc = .goAway last status (w + 1))
      (hclose : sh'.closeReg = Function.update sh.closeReg w
        ((sh.closeReg w).sendOrDrop (.goAway last status)))
      (hrouted : sh'.history.routed = sh.history.routed)
  | finish (last : StreamId) (status : UInt32) (next : Nat) (hge : FRAME_WORKERS ≤ next)
      (hfrom : r.pc = .goAway last status next) (hclose : sh'.closeReg = sh.closeReg)
      (hrouted : sh'.history.routed = sh.history.routed)
  | other (hfrom : ∀ last status next, r.pc ≠ .goAway last status next)
      (hclose : sh'.closeReg = sh.closeReg)
      (hrouted : ∀ last status, .goAway last status ∈ sh'.history.routed →
        .goAway last status ∈ sh.history.routed)

theorem readerNotice_of_step {cfg : MuxConfig} {a : ReaderAct} {sh sh' : Shared}
    {r r' : Reader} (h : readerStep cfg a sh r = some (sh', r')) :
    ReaderNotice sh r sh' r' := by
  have hrouted := reader_routed h
  cases a with
  | receive frame =>
      simp only [readerStep, Reader.receive] at h
      split at h
      · next hidle =>
          cases frame with
          | goAway last status =>
              cases h
              exact .start last status hidle rfl rfl hrouted
          | _ =>
              refine .other (by simp [hidle]) ?_ fun last status hmem => ?_
              · simp only [routeFrame, creditSession] at h
                (repeat' split at h) <;> cases h <;> rfl
              · rw [hrouted] at hmem
                simpa using hmem
      · contradiction
  | step =>
      simp only [readerStep, Reader.step] at h
      cases hpc : r.pc with
      | goAway last status next =>
          simp only [hpc] at h
          split at h
          · next hlt =>
              cases h
              exact .notify ⟨next, hlt⟩ last status hpc rfl rfl (by simpa using hrouted)
          · next hge =>
              cases h
              exact .finish last status next (Nat.not_lt.mp hge) hpc rfl (by simp)
      | _ =>
          refine .other (by simp [hpc]) ?_ fun last status hmem => ?_
          · simp only [hpc] at h
            (repeat' split at h) <;> cases h <;> rfl
          · rw [hrouted] at hmem
            simpa using hmem
  | _ =>
      simp only [readerStep, Reader.rejectTooLarge, Reader.receiveWsPing, Reader.message,
        Reader.idleProbe, Reader.exit] at h
      split at h
      · next hg =>
          refine .other ?_ ?_ fun last status hmem => ?_
          · simp [hg]
          · cases h
            rfl
          · rw [hrouted] at hmem
            simpa using hmem
      · contradiction

theorem GoAwayOk.reader {cfg : MuxConfig} {s : MuxState} {c : ReaderAct} {sh : Shared}
    {r : Reader} (hI : GoAwayOk s) (hreach : NoticeReaches s (.reader c))
    (hr : readerStep cfg c s.shared s.reader = some (sh, r)) :
    GoAwayOk { s with shared := sh, reader := r } := by
  intro last status hmem w
  have hcleared : Cleared s w last → Cleared { s with shared := sh, reader := r } w last :=
    fun hc => ⟨hc.1, fun id hid => hc.2 id (by rw [← reader_openIds hr]; exact hid)⟩
  cases readerNotice_of_step hr with
  | start last' status' hidle hpc hclose hrouted =>
      rw [hrouted, List.mem_append, List.mem_singleton] at hmem
      rcases hmem with hmem | hmem
      · rcases hI last status hmem w with (⟨st, next, hfrom, -⟩ | ⟨st, hq⟩) | hc
        · rw [hidle] at hfrom
          contradiction
        · exact .inl (.inr ⟨st, by rw [hclose]; exact hq⟩)
        · exact .inr (hcleared hc)
      · cases hmem
        exact .inl (.inl ⟨status, 0, hpc, Nat.zero_le _⟩)
  | notify v last' status' hfrom hpc hclose hrouted =>
      rw [hrouted] at hmem
      have hgrow : ∀ reg ∈ (s.shared.closeReg w).queue, reg ∈ (sh.closeReg w).queue := by
        intro reg hreg
        rw [hclose]
        by_cases hv : w = v
        · subst hv
          rw [Function.update_self]
          rcases Chan.sendOrDrop_queue (s.shared.closeReg w) (.goAway last' status') with
            hq | hq <;> simp [hq, hreg]
        · rwa [Function.update_of_ne hv]
      rcases hI last status hmem w with (⟨st, next, hpc', hle⟩ | ⟨st, hq⟩) | hc
      · rw [hfrom] at hpc'
        cases hpc'
        rcases Nat.lt_or_ge v.val w.val with hlt | hge
        · exact .inl (.inl ⟨_, _, hpc, hlt⟩)
        · -- It is this worker's turn.
          have hv : w = v := Fin.ext (by omega)
          subst hv
          have hstep : c = .step := by
            cases c <;> simp [readerStep, Reader.receive, Reader.rejectTooLarge,
              Reader.receiveWsPing, Reader.message, Reader.idleProbe, Reader.exit,
              hfrom] at hr ⊢
          subst hstep
          simp only [NoticeReaches, hfrom] at hreach
          rcases hreach w.isLt with ⟨hopen, hroom⟩ | hc
          · refine .inl (.inr ⟨status', ?_⟩)
            rw [hclose, Function.update_self, Chan.sendOrDrop_of_room _ hopen hroom]
            simp
          · exact .inr (hcleared hc)
      · exact .inl (.inr ⟨st, hgrow _ hq⟩)
      · exact .inr (hcleared hc)
  | finish last' status' next hge hfrom hclose hrouted =>
      rw [hrouted] at hmem
      rcases hI last status hmem w with (⟨st, next', hpc', hle⟩ | ⟨st, hq⟩) | hc
      · rw [hfrom] at hpc'
        cases hpc'
        have hlt := w.isLt
        omega
      · exact .inl (.inr ⟨st, by rw [hclose]; exact hq⟩)
      · exact .inr (hcleared hc)
  | other hfrom hclose hrouted =>
      rcases hI last status (hrouted last status hmem) w with
        (⟨st, next, hpc', -⟩ | ⟨st, hq⟩) | hc
      · exact absurd hpc' (hfrom _ _ _)
      · exact .inl (.inr ⟨st, by rw [hclose]; exact hq⟩)
      · exact .inr (hcleared hc)

/-! ## The workers -/

/-- A move that loses no notice and holds nothing that was not held or queued. -/
theorem notice_of_shrink {s s' : MuxState} {w : Shard} {last : StreamId}
    (hI : Announced s w last ∨ Cleared s w last) (hreader : s'.reader = s.reader)
    (hnotice : ∀ status, .goAway last status ∈ (s.shared.closeReg w).queue →
      .goAway last status ∈ (s'.shared.closeReg w).queue)
    (hstreams : ∀ id ∈ (s'.workers w).streams.keys,
      id ∈ (s.workers w).streams.keys ∨ id ∈ openIds (s.shared.reg w).queue)
    (hopens : ∀ id ∈ openIds (s'.shared.reg w).queue, id ∈ openIds (s.shared.reg w).queue) :
    Announced s' w last ∨ Cleared s' w last := by
  rcases hI with (⟨status, next, hpc, hle⟩ | ⟨status, hq⟩) | ⟨hheld, hqueued⟩
  · exact .inl (.inl ⟨status, next, by rw [hreader]; exact hpc, hle⟩)
  · exact .inl (.inr ⟨status, hnotice status hq⟩)
  · refine .inr ⟨fun id hid => ?_, fun id hid => hqueued id (hopens id hid)⟩
    rcases hstreams id hid with hid | hid
    · exact hheld id hid
    · exact hqueued id hid

/-- A worker's move keeps the notices in its channel or clears what they refuse. -/
theorem WorkerMove.notice {cfg : MuxConfig} {s : MuxState} {order : List StreamId}
    {w : Shard} {k' : Worker} {sh' : Shared} {last : StreamId}
    (h : WorkerMove cfg order w (s.workers w) s.shared k' sh') (hR : Registrations s)
    (hover : NoNoticeOvertaking s (.worker w order))
    (hI : Announced s w last ∨ Cleared s w last) :
    Announced { s with shared := sh', workers := Function.update s.workers w k' } w last ∨
      Cleared { s with shared := sh', workers := Function.update s.workers w k' } w last := by
  cases h with
  | @takeClose reg c k' sh' pc hpc hfrom hrecv happly =>
      have hcall := applyRegistration_callFootprint happly
      have hqueue := Chan.recv_eq_some hrecv
      have hreg : (sh'.reg w).queue = (s.shared.reg w).queue := by rw [hcall.reg]; rfl
      have hclose : (sh'.closeReg w).queue = c.queue := by
        rw [hcall.closeReg]
        simp [Shared.setCloseReg]
      have hkind : reg.isOpening = false := hR.closeKinds w reg (by simp [hqueue])
      by_cases hhead : ∃ status, reg = .goAway last status
      · obtain ⟨status, rfl⟩ := hhead
        simp only [NoNoticeOvertaking, hqueue] at hover
        refine .inr ⟨fun id hid => ?_, fun id hid => ?_⟩
        · simp only [Function.update_self] at hid
          exact goAway_clears happly id hid
        · exact hover hfrom id (by rw [← hreg]; exact hid)
      · refine notice_of_shrink hI rfl (fun status hmem => ?_) (fun id hid => ?_)
          (fun id hid => by rw [← hreg]; exact hid)
        · rw [hqueue] at hmem
          rcases List.mem_cons.1 hmem with heq | hmem
          · exact absurd ⟨status, heq.symm⟩ hhead
          · exact hclose ▸ hmem
        · simp only [Function.update_self] at hid
          rcases applyRegistration_streams happly hid with hid | ⟨r, rfl⟩
          · exact .inl hid
          · simp [StreamRegistration.isOpening] at hkind
  | @takeReg reg c k' sh' pc hpc hfrom hrecv happly =>
      have hcall := applyRegistration_callFootprint happly
      have hqueue := Chan.recv_eq_some hrecv
      have hreg : (sh'.reg w).queue = c.queue := by
        rw [hcall.reg]
        simp [Shared.setReg]
      refine notice_of_shrink hI rfl (fun status hmem => ?_) (fun id hid => ?_)
        (fun id hid => ?_)
      · show _ ∈ (sh'.closeReg w).queue
        rw [hcall.closeReg]
        exact hmem
      · simp only [Function.update_self] at hid
        rcases applyRegistration_streams happly hid with hid | ⟨r, rfl⟩
        · exact .inl hid
        · exact .inr (mem_openIds.2 ⟨r, by simp [hqueue]⟩)
      · obtain ⟨r, hr⟩ := mem_openIds.1 (hreg ▸ hid)
        exact mem_openIds.2 ⟨r, by simp [hqueue, hr]⟩
  | @takeFrame frame c hpc hrecv =>
      have hcall := dispatch_callFootprint cfg.initialWindowSize frame
        { s.workers w with pc := .drainClose } (s.shared.setFrames w c)
      refine notice_of_shrink hI rfl (fun status hmem => ?_) (fun id hid => ?_)
        (fun id hid => ?_)
      · simp only [hcall.closeReg]
        exact hmem
      · simp only [Function.update_self] at hid
        have hshrink := dispatch_shrinks cfg.initialWindowSize frame
          { s.workers w with pc := .drainClose } (s.shared.setFrames w c)
        exact .inl (AList.mem_keys.1 (hshrink.streams id (AList.mem_keys.2 hid)))
      · simp only [hcall.reg] at hid
        exact hid
  | move pc hfrom hto =>
      refine notice_of_shrink hI rfl (fun status hmem => hmem) (fun id hid => ?_)
        (fun id hid => hid)
      simp only [Function.update_self] at hid
      exact .inl hid
  | shutdown hpc =>
      have hcall := closeAll_callFootprint (s.workers w) s.shared
      refine notice_of_shrink hI rfl (fun status hmem => ?_) (fun id hid => ?_)
        (fun id hid => ?_)
      · simp only [hcall.closeReg]
        exact hmem
      · simp at hid
      · simp only [hcall.reg] at hid
        exact hid
  | exit hpc =>
      refine .inr ⟨fun id hid => ?_, fun id hid => ?_⟩
      · simp only [Function.update_self] at hid
        exact absurd (.inl (AList.mem_keys.2 hid)) (hR.gone w (by rw [hpc]; rfl) id)
      · simp [dropReceivers, Shared.setReg, Shared.setCloseReg, Shared.setFrames, openIds] at hid

/-- A worker's move concerns no other worker. -/
theorem WorkerRegs.notice_other {s : MuxState} {w v : Shard} {k' : Worker} {sh' : Shared}
    {last : StreamId} (h : WorkerRegs w (s.workers w) s.shared k' sh') (hv : v ≠ w)
    (hI : Announced s v last ∨ Cleared s v last) :
    Announced { s with shared := sh', workers := Function.update s.workers w k' } v last ∨
      Cleared { s with shared := sh', workers := Function.update s.workers w k' } v last := by
  have hqueues : (sh'.closeReg v).queue = (s.shared.closeReg v).queue ∧
      (sh'.reg v).queue = (s.shared.reg v).queue := by
    cases h with
    | takeClose reg rest hfrom hqueue hclose hreg hknows hpc =>
        exact ⟨by rw [hclose, if_neg hv], hreg v⟩
    | takeReg reg rest hqueue hreg hclose hknows hpc =>
        exact ⟨hclose v, by rw [hreg, if_neg hv]⟩
    | keep hreg hclose hknows hpc => exact ⟨hclose v, hreg v⟩
    | exit hpc hk hreg hclose => exact ⟨by rw [hclose, if_neg hv], by rw [hreg, if_neg hv]⟩
  refine notice_of_shrink hI rfl (fun status hmem => ?_) (fun id hid => ?_) (fun id hid => ?_)
  · simp only [hqueues.1]
    exact hmem
  · simp only [Function.update_of_ne hv] at hid
    exact .inl hid
  · simp only [hqueues.2] at hid
    exact hid

theorem step_goAwayOk {cfg : MuxConfig} {s s' : MuxState} {a : Act} (hR : Registrations s)
    (hI : GoAwayOk s) (hok : RefusesAll s a) (h : step cfg s a = some s') : GoAwayOk s' := by
  obtain ⟨hreach, hlate, hover⟩ := hok
  obtain ⟨p, c, sh, pr, rfl, hc, rfl⟩ | ⟨p, sh, pr, z, rfl, -, -, hb, rfl⟩ |
    ⟨z, sh, pr, z', rfl, hz, hr, rfl⟩ | ⟨c, sh, r, rfl, hr, rfl⟩ |
    ⟨w, order, k, sh, rfl, hw, rfl⟩ | ⟨c, sh, wr, rfl, hw, rfl⟩ | ⟨rfl, rfl⟩ := step_cases h
  · have hfoot := client_footprint hc
    refine hI.of_keep hfoot.routed rfl rfl (fun w => ?_) fun w id hid => .inl ?_
    · rcases client_closes hc with hk | ⟨-, kind, hk⟩
      · exact hk.mem w
      · exact hk.mem w
    · rw [← hfoot.reg]
      exact hid
  · obtain ⟨hreg, hclose⟩ := realizeBegin_regs hb
    exact hI.of_keep (realizeBegin_footprint hb).routed rfl rfl
      (fun w reg hmem => by rw [hclose]; exact hmem)
      fun w id hid => .inl (by rw [← hreg]; exact hid)
  · exact hI.realize hz hlate hr
  · exact hI.reader hreach hr
  · have hmove := workerMove_of_step hw
    intro last status hmem v
    have hold := hI last status (by rw [← hmove.footprint.routed]; exact hmem) v
    by_cases hv : v = w
    · subst hv
      exact hmove.notice hR hover hold
    · exact hmove.regs.notice_other hv hold
  · have hfoot := writer_footprint hw
    refine hI.of_keep hfoot.routed rfl rfl (fun v => ?_) fun v id hid => .inl ?_
    · rcases (writerMove_of_step hw).closes with hk | ⟨id, rest, requeued, -, hk⟩
      · exact hk.mem v
      · exact hk.mem v
    · rw [← hfoot.reg]
      exact hid
  · exact hI.of_keep rfl rfl rfl (fun _ _ hmem => hmem) fun _ _ hid => .inl hid

theorem goAwayOk_invariant (cfg : MuxConfig) : (mux cfg).Invariant RefusesAll GoAwayOk := by
  refine Invariant.of_step_using
    (Invariant.restrict (registrations_invariant cfg) fun _ _ _ => trivial) ?_ ?_
  · intro last status hmem
    simp [mux, MuxState.init, Shared.init] at hmem
  · intro s a s' hR hI hok h
    exact step_goAwayOk hR hI hok h

/-! ## Processed GOAWAYs -/

/-- Once every GOAWAY is processed, no realization is in progress and the
registration channels are empty, no worker holds a stream above the last good
one. -/
def NoRefusedStreams (s : MuxState) : Prop :=
  ∀ last status, .goAway last status ∈ s.shared.history.routed →
    (∀ last' status' next, s.reader.pc ≠ .goAway last' status' next) →
    s.realizing = none →
    (∀ w, (s.shared.reg w).queue = [] ∧ (s.shared.closeReg w).queue = []) →
    ∀ w, ∀ id ∈ (s.workers w).streams.keys, id ≤ last

/-- Realizations of any number of pairs interleaved with the broadcast of any
number of GOAWAYs: as long as no stream is registered after the GOAWAY that
refuses it, no notice is dropped where it matters and none overtakes a
registration, every refused stream is terminated. -/
theorem goaway_terminates_refused (cfg : MuxConfig) (acts : List Act) (s : MuxState)
    (hrun : (mux cfg).run (mux cfg).init acts = some s)
    (hmeets : (mux cfg).Meets RefusesAll (mux cfg).init acts) : NoRefusedStreams s := by
  intro last status hmem hdone _ hempty w
  rcases goAwayOk_invariant cfg acts s hrun hmeets last status hmem w with
    (⟨st, next, hpc, -⟩ | ⟨st, hq⟩) | hc
  · exact absurd hpc (hdone _ _ _)
  · rw [(hempty w).2] at hq
    contradiction
  · exact hc.1

/-- A GOAWAY that refuses every stream is received and broadcast. -/
def goAwayActs : List Act :=
  .reader (.receive (.goAway 0 0)) :: List.replicate 6 (.reader .step)

/-- Worker `w` drains its two registration channels, then looks at them again;
`order` is what a notice makes it refuse. -/
def drainActs (w : Shard) (order : List StreamId) (polls : Nat) : List Act :=
  List.replicate polls (.worker w order)

/-- The pair is registered before the GOAWAY arrives. -/
def refusedActs : List Act :=
  openActs 0 ++ realizeActs 0 ++ drainActs (shardOf 1) [] 3 ++ drainActs (shardOf 3) [] 3 ++
    goAwayActs ++ drainActs (shardOf 1) [1] 3 ++ drainActs (shardOf 3) [3] 3 ++
    drainActs (shardOf 0) [] 1 ++ drainActs (shardOf 2) [] 1 ++ drainActs (shardOf 4) [] 1

theorem goaway_terminates_refused_pair :
    ∃ s, (mux MuxConfig.default).run (mux MuxConfig.default).init refusedActs = some s ∧
      s.shared.history.openLog = [1, 3] ∧ NoRefusedStreams s := by
  have hlog : ((mux MuxConfig.default).run (mux MuxConfig.default).init refusedActs).map
      (fun s => s.shared.history.openLog) = some [1, 3] := by decide +kernel
  have hmeets : (mux MuxConfig.default).Meets RefusesAll (mux MuxConfig.default).init
      refusedActs := meets_of_check (by decide +kernel)
  obtain ⟨s, hrun, hs⟩ := Option.map_eq_some_iff.1 hlog
  exact ⟨s, hrun, hs, goaway_terminates_refused _ _ s hrun hmeets⟩

/-- The GOAWAY arrives while both registrations still wait. -/
def escapedActs : List Act :=
  openActs 0 ++ realizeActs 0 ++ goAwayActs ++ drainActs (shardOf 1) [] 4 ++
    drainActs (shardOf 3) [] 4 ++ drainActs (shardOf 0) [] 1 ++ drainActs (shardOf 2) [] 1 ++
    drainActs (shardOf 4) [] 1

/-- The notice is taken before the registration of stream 3, which then stays
registered although the GOAWAY refused it. -/
theorem goaway_overtakes_open :
    ¬ ∀ (cfg : MuxConfig) (acts : List Act) (s : MuxState),
      (mux cfg).run (mux cfg).init acts = some s → NoRefusedStreams s := by
  intro hall
  have hobs : ((mux MuxConfig.default).run (mux MuxConfig.default).init escapedActs).map
      (fun s => (s.reader.pc, s.realizing,
        (List.finRange FRAME_WORKERS).all (fun w =>
          (s.shared.reg w).queue.isEmpty && (s.shared.closeReg w).queue.isEmpty),
        s.shared.history.routed, decide (3 ∈ (s.workers (shardOf 3)).streams.keys))) =
      some (.idle, none, true, [.goAway 0 0], true) := by decide +kernel
  obtain ⟨s, hrun, hs⟩ := Option.map_eq_some_iff.1 hobs
  simp only [Prod.mk.injEq, decide_eq_true_eq, List.all_eq_true, List.mem_finRange,
    Bool.and_eq_true, List.isEmpty_iff, true_implies] at hs
  obtain ⟨hpc, hreal, hempty, hrouted, hin⟩ := hs
  have hle := hall _ _ s hrun 0 0 (by rw [hrouted]; simp) (by simp [hpc]) hreal hempty
    (shardOf 3) 3 hin
  exact absurd hle (by decide)

end KubePortForward.Mux

import KubePortForward.Mux.EndOfStream
import KubePortForward.Mux.Exits
import KubePortForward.Mux.FlowControl
import KubePortForward.Mux.OwnerRefinement

/-!
# Writers at teardown

A worker that leaves its loop poisons the windows of the streams it has, so that
a writer parked on one of them is woken and told `BrokenPipe`.  It has only the
streams whose `Open` it took; the queue of registrations is dropped with what is
still in it, and nobody poisons the windows of those.

`parkable` adds to the connection which writers are parked: whose last
`poll_write` returned `Pending` after it had registered its waker.

## Main results

* `followed_invariant` — the data stream of an opened pair is registered with its
  worker or its window is poisoned and its writer woken, provided no worker drops
  the `Open` of such a stream.
* `writers_released` — then every writer is released once all tasks have exited.
* `writer_stranded` — a run in which the `Open` is dropped and the writer is not.
-/

namespace KubePortForward.Mux

open KubePortForward.Codec
open KubePortForward.Verified.Channel
open KubePortForward.Verified.Transition

/-! ## Parked writers -/

/-- The connection, and which writers are parked. -/
structure Parkable where
  mux : MuxState
  parked : Nat → Bool

/-- The second look of a `poll_write` finds a live window that is still exhausted. -/
def parks (s : MuxState) (p : Nat) : Bool :=
  let pr := s.pairs p
  let window := s.shared.windows pr.dataId
  match pr.write with
  | .recheck buf => !window.isClosed && decide (writeSize pr.maxFrameSize window buf = 0)
  | _ => false

/-- A writer is parked from the call that parks it to its next call. -/
def parkedAfter (s : MuxState) (parked : Nat → Bool) : Act → Nat → Bool
  | .client p .writeRecheck => Function.update parked p (parks s p)
  | .client p (.writeBegin _) => Function.update parked p false
  | _ => parked

def parkable (cfg : MuxConfig) : System Parkable Act where
  init := { mux := MuxState.init cfg, parked := fun _ => false }
  step s a := (step cfg s.mux a).map fun m =>
    { mux := m, parked := parkedAfter s.mux s.parked a }

/-! ## The next call -/

/-- A call of `poll_write_via_sender` runs to its end undisturbed. -/
def SendState.finishCall (id : StreamId) (maxFrameSize : UInt32) :
    Nat → SendState → Option WriteReturn
  | 0, s => s.returned
  | fuel + 1, s =>
      match s.step id maxFrameSize with
      | some s' => finishCall id maxFrameSize fuel s'
      | none => s.returned

/-- `poll_write_via_sender` for the pair, which makes at most eight accesses after
the closed check. -/
def pollWriteViaSender (sh : Shared) (pr : Pair) (buf : Bytes) : Option WriteReturn :=
  let call : SendState :=
    { window := sh.windows pr.dataId, cmd := sh.cmd, permit := pr.cmdPermit }
  (call.poll buf).bind (SendState.finishCall pr.dataId pr.maxFrameSize 8)

/-- A realization runs to its end undisturbed. -/
def finishRealize : Nat → Shared × Pair × Option Realize → Shared × Pair
  | fuel + 1, (sh, pr, some z) => finishRealize fuel (z.step sh pr)
  | _, (sh, pr, _) => (sh, pr)

/-- `ensure_open` and `ensure_shared_open`: the pair is realized now, or by the half
that holds the mutex. -/
def ensureOpen (s : MuxState) (p : Nat) : Shared × Pair :=
  match (s.pairs p).phase, s.realizing with
  | .unopened, _ => finishRealize 11 (realizeBegin p s.shared (s.pairs p))
  | .realizing, some z => finishRealize 11 (s.shared, s.pairs p, some z)
  | _, _ => (s.shared, s.pairs p)

/-- What `poll_write` with a non-empty buffer returns when it is called now. -/
def pollWrite (s : MuxState) (p : Nat) (buf : Bytes) : Option WriteReturn :=
  let (sh, pr) := ensureOpen s p
  match pr.phase with
  | .broken => some .brokenPipe
  | .opened =>
      if pr.gracefulShutdown then some .brokenPipe else pollWriteViaSender sh pr buf
  | _ => none

/-- The caller has the data half of the pair. -/
def HoldsData (s : MuxState) (p : Nat) : Prop :=
  ((s.pairs p).phase = .unopened ∨ (s.pairs p).phase = .realizing ∨
    (s.pairs p).phase = .opened ∨ (s.pairs p).phase = .broken) ∧
  (s.shared.chans ⟨p, .data⟩).chan.closed = false

instance (s : MuxState) (p : Nat) : Decidable (HoldsData s p) := by
  unfold HoldsData
  infer_instance

/-- All tasks of the connection have exited. -/
def Exited (s : MuxState) : Prop :=
  s.reader.pc = .stopped ∧ s.writer.pc = .stopped ∧ ∀ w, (s.workers w).pc = .stopped

instance (s : MuxState) : Decidable (Exited s) := by
  unfold Exited
  infer_instance

/-- A parked writer was woken since, and the next call of any writer fails. -/
structure WritersReleased (s : Parkable) : Prop where
  woken : ∀ p, HoldsData s.mux p → s.parked p = true →
    (s.mux.shared.windows (s.mux.pairs p).dataId).waker.registered = false
  broken : ∀ p, HoldsData s.mux p → ∀ buf, buf ≠ [] →
    pollWrite s.mux p buf = some .brokenPipe

/-- A worker that drops its channels has taken the `Open` of every data stream whose
pair is opened and still held. -/
def OpensTaken (s : MuxState) : Act → Prop
  | .worker w _ =>
      (s.workers w).pc = .exiting → ∀ r ∈ queuedSenders (s.shared.reg w).queue,
        r.half = .data → (s.pairs r.pair).phase = .opened →
          (s.shared.chans r).chan.closed = true
  | _ => True

instance (s : MuxState) (a : Act) : Decidable (OpensTaken s a) := by
  unfold OpensTaken
  induction a using Act.casesOn <;> infer_instance

/-! ## What an owner does to its window -/

/-- Only a writer in the middle of a call touches a window, and it revives none. -/
theorem client_windows {cfg : MuxConfig} {p : Nat} {c : ClientAct} {sh sh' : Shared}
    {pr pr' : Pair} (h : clientStep cfg p c sh pr = some (sh', pr')) (id : StreamId) :
    sh'.windows id = sh.windows id ∨ (id = pr.dataId ∧ pr.write ≠ .idle ∧
      ((sh.windows id).isClosed = true → (sh'.windows id).isClosed = true)) := by
  cases c with
  | writePick =>
      simp only [clientStep, Pair.writePick] at h
      (repeat' split at h) <;> first
        | contradiction
        | cases h
          by_cases hid : id = pr.dataId
          · subst hid
            refine .inr ⟨rfl, by simp [*], fun hclosed => ?_⟩
            simpa [Shared.updWindow, SendWindow.registerWaker, SendWindow.isClosed] using hclosed
          · exact .inl (by simp [Shared.updWindow, Function.update_of_ne hid])
  | writeDebit =>
      simp only [clientStep, Pair.writeDebit] at h
      split at h
      · next payload hpick =>
          split at h <;> cases h
          · next w hw =>
              by_cases hid : id = pr.dataId
              · subst hid
                refine .inr ⟨rfl, by simp [hpick], fun hclosed => ?_⟩
                simp only [SendWindow.isClosed, decide_eq_true_eq] at hclosed
                simp [SendWindow.consume, hclosed] at hw
              · exact .inl (by simp [Shared.updWindow, Function.update_of_ne hid])
          · exact .inl rfl
      · contradiction
  | _ =>
      refine .inl (congrFun ?_ id)
      simp only [clientStep, Pair.openBegin, Pair.openStep, Pair.read, Pair.fillBuf,
        Pair.consume, Pair.writeBegin, Pair.writeReserve, Pair.writeRecheck,
        Pair.writeSend, Pair.shutdown, Pair.dropReceiver, Pair.dropRest, Pair.dropStep,
        Shared.sendReservedClose] at h
      (repeat' split at h) <;> first
        | contradiction
        | simp only [Option.map_eq_some_iff, Option.some.injEq, Prod.mk.injEq] at h
          grind [Shared.updChan, Shared.dropTx, Shared.setCloseReg]

/-- Only `poll_write` begins a write. -/
theorem client_write_idle {cfg : MuxConfig} {p : Nat} {c : ClientAct} {sh sh' : Shared}
    {pr pr' : Pair} (h : clientStep cfg p c sh pr = some (sh', pr'))
    (hc : ∀ buf, c ≠ .writeBegin buf) (hidle : pr.write = .idle) : pr'.write = .idle := by
  cases c with
  | writeBegin buf => exact absurd rfl (hc buf)
  | _ =>
      simp only [clientStep, Pair.openBegin, Pair.openStep, Pair.read, Pair.fillBuf,
        Pair.consume, Pair.writeReserve, Pair.writePick, Pair.writeRecheck, Pair.writeDebit,
        Pair.writeSend, Pair.shutdown, Pair.dropReceiver, Pair.dropRest, Pair.dropStep,
        Shared.sendReservedClose] at h
      (repeat' split at h) <;> first
        | contradiction
        | simp only [Option.map_eq_some_iff, Option.some.injEq, Prod.mk.injEq] at h
          grind

/-- The pair was opened, whatever became of it. -/
def PairPhase.wasOpened : PairPhase → Bool
  | .opened => true
  | .dropping _ => true
  | .dropped => true
  | _ => false

theorem client_wasOpened {cfg : MuxConfig} {p : Nat} {c : ClientAct} {sh sh' : Shared}
    {pr pr' : Pair} (h : clientStep cfg p c sh pr = some (sh', pr'))
    (hp : pr.phase.wasOpened = true) : pr'.phase.wasOpened = true := by
  cases c <;>
    simp only [clientStep, Pair.openBegin, Pair.openStep, Pair.read, Pair.fillBuf,
      Pair.consume, Pair.writeBegin, Pair.writeReserve, Pair.writePick,
      Pair.writeRecheck, Pair.writeDebit, Pair.writeSend, Pair.shutdown,
      Pair.dropReceiver, Pair.dropRest, Pair.dropStep, Shared.sendReservedClose] at h <;>
    (repeat' split at h) <;>
    first
    | contradiction
    | simp only [Option.map_eq_some_iff, Option.some.injEq, Prod.mk.injEq] at h
      grind [PairPhase.wasOpened]

/-- A call that parks has ended, and its window was live. -/
theorem parks_spec {s : MuxState} {cfg : MuxConfig} {p : Nat} {sh : Shared} {pr : Pair}
    (h : clientStep cfg p .writeRecheck s.shared (s.pairs p) = some (sh, pr))
    (hparks : parks s p = true) :
    pr.write = .idle ∧ (s.pairs p).write ≠ .idle ∧
      (s.shared.windows (s.pairs p).dataId).isClosed = false := by
  simp only [clientStep, Pair.writeRecheck] at h
  simp only [parks] at hparks
  split at h
  · next buf hbuf =>
      simp only [hbuf, Bool.and_eq_true, Bool.not_eq_true', decide_eq_true_eq] at hparks
      rw [if_pos (.inr hparks.2)] at h
      cases h
      exact ⟨rfl, by simp [hbuf], hparks.1⟩
  · contradiction

/-! ## The invariant -/

/-- The worker of the pair's data stream will poison its window, or the window is
poisoned and the writer, if it was parked, woken. -/
def Tracked (s : Parkable) (p : Nat) : Prop :=
  Kept (shardOf (s.mux.pairs p).dataId) (s.mux.workers (shardOf (s.mux.pairs p).dataId))
      s.mux.shared (s.mux.pairs p).dataId ∨
    (s.mux.shared.windows (s.mux.pairs p).dataId).isClosed = true ∧
      (s.parked p = true →
        (s.mux.shared.windows (s.mux.pairs p).dataId).waker.registered = false)

/-- The pair is opened, or being opened. -/
def PairPhase.inUse : PairPhase → Bool
  | .opened => true
  | .realizing => true
  | _ => false

structure Followed (s : Parkable) : Prop where
  waiting : ∀ p, s.parked p = true →
    (s.mux.pairs p).write = .idle ∧ (s.mux.pairs p).phase.wasOpened = true
  /-- A realization whose worker stopped cannot succeed any more. -/
  tracked : ∀ p, (s.mux.pairs p).phase.inUse = true →
    (s.mux.pairs p).dataId ∈ s.mux.shared.history.openLog →
    (s.mux.shared.chans ⟨p, .data⟩).chan.closed = false →
    Tracked s p ∨ (s.mux.pairs p).phase = .realizing ∧
      (s.mux.workers (shardOf (s.mux.pairs p).dataId)).pc = .stopped

/-- What is known of every reachable state of the connection. -/
structure TeardownFacts (s : MuxState) : Prop extends Wellformed s where
  senders : Senders s
  exits : Exits s

theorem teardownFacts_invariant (cfg : MuxConfig) :
    (mux cfg).Invariant anyStep TeardownFacts :=
  fun as s hrun hm => ⟨wellformed_invariant cfg as s hrun hm, senders_invariant cfg as s hrun hm,
    exits_invariant cfg as s hrun hm⟩

/-- The data half of a pair in use owns its stream. -/
theorem Wellformed.names {s : MuxState} (hW : Wellformed s) {p : Nat}
    (huse : (s.pairs p).phase.inUse = true) : Names s ⟨p, .data⟩ (s.pairs p).dataId := by
  refine ⟨?_, rfl⟩
  cases hphase : (s.pairs p).phase with
  | opened => exact (hW.ownership.guarded p (by rw [hphase]; rfl)).1
  | realizing =>
      obtain ⟨z, hz, rfl⟩ := hW.ownership.inProgress p hphase
      have hmod := (hW.synOrder.opening z hz).1
      intro hzero
      rw [← (hW.ownership.realizing z hz).2.1, hzero] at hmod
      simp at hmod
  | _ => simp [hphase, PairPhase.inUse] at huse

theorem inUse_not_granting {pr : Pair} (h : pr.phase.inUse = true) : pr.phase ≠ .granting := by
  intro hgranting
  simp [hgranting, PairPhase.inUse] at h

/-- A data half that is held after a step was held before it. -/
theorem inUse_open_before {cfg : MuxConfig} {s s' : MuxState} {a : Act} {p : Nat}
    (hR : Registrations s) (h : step cfg s a = some s')
    (huse : (s.pairs p).phase.inUse = true)
    (hopen : (s'.shared.chans ⟨p, .data⟩).chan.closed = false) :
    (s.shared.chans ⟨p, .data⟩).chan.closed = false := by
  by_contra hclosed
  have hstays := step_closed hR h ⟨p, .data⟩ (inUse_not_granting huse) (by simpa using hclosed)
  rw [hopen] at hstays
  contradiction

/-- What a step that leaves the workers alone has to keep. -/
theorem Tracked.of_keep {s s' : Parkable} {p : Nat} (h : Tracked s p)
    (hid : (s'.mux.pairs p).dataId = (s.mux.pairs p).dataId)
    (hworkers : s'.mux.workers = s.mux.workers)
    (hopens : ∀ w, ∀ id ∈ openIds (s.mux.shared.reg w).queue,
      id ∈ openIds (s'.mux.shared.reg w).queue)
    (hwindow : s'.mux.shared.windows (s.mux.pairs p).dataId =
      s.mux.shared.windows (s.mux.pairs p).dataId)
    (hparked : s'.parked p = s.parked p) : Tracked s' p := by
  unfold Tracked at h ⊢
  rw [hid, hworkers, hwindow, hparked]
  rcases h with (hq | hk) | hclosed
  · exact .inl (.inl (hopens _ _ hq))
  · exact .inl (.inr hk)
  · exact .inr hclosed

theorem parkedAfter_other {s : MuxState} {parked : Nat → Bool} {p q : Nat} {c : ClientAct}
    (h : p ≠ q) : parkedAfter s parked (.client q c) p = parked p := by
  cases c <;> simp [parkedAfter, Function.update_of_ne h]

/-- A writer is parked after its own step when it was before and does not call again,
or when this step parks it. -/
theorem parkedAfter_self {s : MuxState} {parked : Nat → Bool} {p : Nat} {c : ClientAct}
    (h : parkedAfter s parked (.client p c) p = true) :
    (c = .writeRecheck ∧ parks s p = true) ∨
      (parked p = true ∧ ∀ buf, c ≠ .writeBegin buf) := by
  cases c <;> simp_all [parkedAfter]

/-- A step of the pair's own owner. -/
theorem Tracked.own {s : Parkable} {cfg : MuxConfig} {p : Nat} {c : ClientAct} {sh : Shared}
    {pr : Pair} (hI : Followed s) (h : Tracked s p)
    (hc : clientStep cfg p c s.mux.shared (s.mux.pairs p) = some (sh, pr)) :
    Tracked
      { mux := { s.mux with shared := sh, pairs := Function.update s.mux.pairs p pr }
        parked := parkedAfter s.mux s.parked (.client p c) } p := by
  have hid := (client_pair hc).2.1
  have hfoot := client_footprint hc
  simp only [Tracked, Function.update_self, hid] at h ⊢
  rcases h with hkept | ⟨hclosed, hwoken⟩
  · refine .inl ?_
    unfold Kept at hkept ⊢
    rwa [hfoot.reg]
  · refine .inr ⟨?_, fun hparked => ?_⟩
    · rcases client_windows hc (s.mux.pairs p).dataId with hsame | ⟨-, -, hkeep⟩
      · rw [hsame]
        exact hclosed
      · exact hkeep hclosed
    · rcases parkedAfter_self hparked with ⟨rfl, hparks⟩ | ⟨hold, -⟩
      · rw [(parks_spec hc hparks).2.2] at hclosed
        contradiction
      · rcases client_windows hc (s.mux.pairs p).dataId with hsame | ⟨-, hwriting, -⟩
        · rw [hsame]
          exact hwoken hold
        · exact absurd (hI.waiting p hold).1 hwriting

theorem Followed.client {s : Parkable} {cfg : MuxConfig} {q : Nat} {c : ClientAct}
    {m : MuxState} (hF : TeardownFacts s.mux) (hI : Followed s)
    (h : step cfg s.mux (.client q c) = some m) :
    Followed { mux := m, parked := parkedAfter s.mux s.parked (.client q c) } := by
  have hstep := h
  simp only [step, Option.map_eq_some_iff, Prod.exists] at h
  obtain ⟨sh, pr, hc, rfl⟩ := h
  have hfoot := client_footprint hc
  obtain ⟨herr, hdata, hreal, -⟩ := client_pair hc
  constructor
  · intro p hparked
    by_cases hp : p = q
    · subst hp
      simp only [Function.update_self]
      rcases parkedAfter_self hparked with ⟨rfl, hparks⟩ | ⟨hold, hne⟩
      · obtain ⟨hidle, hwriting, -⟩ := parks_spec hc hparks
        have hopened := hF.ownership.writing p hwriting
        exact ⟨hidle, client_wasOpened hc (by rw [hopened]; rfl)⟩
      · obtain ⟨hidle, hwas⟩ := hI.waiting p hold
        exact ⟨client_write_idle hc hne hidle, client_wasOpened hc hwas⟩
    · simp only [parkedAfter_other hp] at hparked
      simp only [Function.update_of_ne hp]
      exact hI.waiting p hparked
  · intro p huse hlog hopen
    have hbefore : (s.mux.pairs p).phase.inUse = true ∧
        (Function.update s.mux.pairs q pr p).dataId = (s.mux.pairs p).dataId ∧
        ((s.mux.pairs p).phase = .realizing →
          (Function.update s.mux.pairs q pr p).phase = .realizing) := by
      by_cases hp : p = q
      · subst hp
        simp only [Function.update_self] at huse ⊢
        refine ⟨?_, hdata, hreal.2⟩
        cases hphase : pr.phase with
        | opened => rw [client_opened hc hphase]; rfl
        | realizing => rw [hreal.1 hphase]; rfl
        | _ => simp [hphase, PairPhase.inUse] at huse
      · simp only [Function.update_of_ne hp] at huse ⊢
        exact ⟨huse, trivial, id⟩
    obtain ⟨huse', hid, hphase⟩ := hbefore
    simp only [hid, hfoot.openLog] at hlog
    have hopen' := inUse_open_before hF.registrations hstep huse' hopen
    rcases hI.tracked p huse' hlog hopen' with htracked | ⟨hreal', hstopped⟩
    · refine .inl ?_
      by_cases hp : p = q
      · subst hp
        exact htracked.own hI hc
      · refine htracked.of_keep hid rfl (fun w => by rw [hfoot.reg]; exact fun _ h => h) ?_
          (parkedAfter_other hp)
        rcases client_windows hc (s.mux.pairs p).dataId with hsame | ⟨hsame, hwriting, -⟩
        · exact hsame
        · have hq : Names s.mux ⟨q, .data⟩ (s.mux.pairs q).dataId := by
            refine hF.names ?_
            rw [hF.ownership.writing q hwriting]
            rfl
          have hnames := hF.names huse'
          rw [hsame] at hnames
          exact absurd (ChanRef.mk.inj (hF.ownership.names_unique hnames hq)).1 hp
    · refine .inr ⟨hphase hreal', ?_⟩
      simp only [hid]
      exact hstopped

theorem realizeBegin_windows {p : Nat} {sh sh' : Shared} {pr pr' : Pair}
    {z : Option Realize} (h : realizeBegin p sh pr = (sh', pr', z)) :
    sh'.windows = sh.windows := by
  simp only [realizeBegin] at h
  (repeat' split at h) <;> cases h <;> rfl

theorem Followed.begin {s : Parkable} {cfg : MuxConfig} {q : Nat} {sh : Shared} {pr : Pair}
    {z : Option Realize} (hF : TeardownFacts s.mux) (hI : Followed s)
    (hnone : s.mux.realizing = none) (hunopened : (s.mux.pairs q).phase = .unopened)
    (hb : realizeBegin q s.mux.shared (s.mux.pairs q) = (sh, pr, z))
    (hstep : step cfg s.mux (.realizeBegin q) = some { s.mux with
      shared := sh, pairs := Function.update s.mux.pairs q pr, realizing := z }) :
    Followed { s with mux := { s.mux with
      shared := sh, pairs := Function.update s.mux.pairs q pr, realizing := z } } := by
  obtain ⟨hhist, hpair⟩ := realizeBegin_pair hb
  constructor
  · intro p hparked
    obtain ⟨hidle, hwas⟩ := hI.waiting p hparked
    have hp : p ≠ q := by
      rintro rfl
      rw [hunopened] at hwas
      contradiction
    simp only [Function.update_of_ne hp]
    exact ⟨hidle, hwas⟩
  · intro p huse hlog hopen
    simp only [hhist] at hlog
    by_cases hp : p = q
    · -- The ids it was just given are above every registered one.
      subst hp
      simp only [Function.update_self] at huse hlog
      obtain ⟨rfl, -⟩ | ⟨y, rfl, rfl⟩ := hpair
      · contradiction
      · have hnew := (hF.synOrder.allocate hnone hb).opening y rfl
        have hold := hF.ownership.registered _ hlog
        have herr := congrArg UInt32.toNat (realizeBegin_opening hb).1
        simp only at hnew hold
        omega
    · simp only [Function.update_of_ne hp] at huse hlog ⊢
      have hopen' := inUse_open_before hF.registrations hstep huse hopen
      rcases hI.tracked p huse hlog hopen' with htracked | hstopped
      · refine .inl (htracked.of_keep (by simp [hp]) rfl (fun w => ?_) ?_ rfl)
        · rw [(realizeBegin_regs hb).1]
          exact fun _ h => h
        · rw [realizeBegin_windows hb]
      · exact .inr hstopped

/-- A realization sets the windows of its own two streams before it registers them. -/
theorem realizeStep_windows {z : Realize} {sh sh' : Shared} {pr pr' : Pair}
    {z' : Option Realize} (h : z.step sh pr = (sh', pr', z')) {id : StreamId}
    (he : id ≠ z.errorId) (hd : id = z.dataId → z.pc ≠ .loadDataWindow) :
    sh'.windows id = sh.windows id := by
  unfold Realize.step at h
  cases hz : z.pc with
  | loadErrorWindow =>
      simp only [hz] at h
      cases h
      simp [Shared.updWindow, Function.update_of_ne he]
  | loadDataWindow =>
      have hne : id ≠ z.dataId := fun heq => hd heq hz
      simp only [hz] at h
      cases h
      simp [Shared.updWindow, Function.update_of_ne hne]
  | _ =>
      refine congrFun ?_ id
      simp only [hz, Shared.sendOpen, Shared.releaseHeld, Shared.sendCloseOrDrop,
        Shared.sendClose] at h
      (repeat' split at h) <;> cases h <;>
        grind [Shared.updChan, Shared.dropTx, Shared.setCloseReg, Shared.setReg,
          Shared.dropPairTx]

/-- A realization takes no `Open` out of a queue. -/
theorem realizeStep_openIds {z : Realize} {sh sh' : Shared} {pr pr' : Pair}
    {z' : Option Realize} (h : z.step sh pr = (sh', pr', z')) (w : Shard) :
    ∀ id ∈ openIds (sh.reg w).queue, id ∈ openIds (sh'.reg w).queue := by
  intro id hid
  rcases realizeStep_reg h with ⟨hkeep, -⟩ | ⟨-, -, -, hopen, -⟩ | ⟨-, -, -, hopen, -⟩
  · rwa [hkeep]
  · rw [hopen.queue, openIds_append]
    exact List.mem_append_left _ hid
  · rw [hopen.queue, openIds_append]
    exact List.mem_append_left _ hid

/-- A pair is opened only while the worker of its data stream runs. -/
theorem realizeStep_opened {z : Realize} {sh sh' : Shared} {pr pr' : Pair}
    {z' : Option Realize} (h : z.step sh pr = (sh', pr', z')) (hpr : pr.phase ≠ .opened)
    (hopened : pr'.phase = .opened) : (sh.closeReg (shardOf z.dataId)).closed = false := by
  rcases realizeStep_pair h with ⟨rfl, -⟩ | ⟨rfl, -⟩ | ⟨-, -, hpc⟩
  · exact absurd hopened hpr
  · contradiction
  · simp only [Realize.step, hpc] at h
    split at h
    · next c hreserve => exact (Chan.tryReserve_live hreserve).1
    · cases h
      exact absurd hopened hpr

/-- The ids in progress belong to the pair that is realized. -/
theorem Wellformed.names_realizing {s : MuxState} (hW : Wellformed s) {z : Realize}
    (hz : s.realizing = some z) :
    Names s ⟨z.pair, .error⟩ z.errorId ∧ Names s ⟨z.pair, .data⟩ z.dataId := by
  obtain ⟨hphase, herr, hdata⟩ := hW.ownership.realizing z hz
  have hne := (hW.names (p := z.pair) (by rw [hphase]; rfl)).1
  exact ⟨⟨hne, herr⟩, hne, hdata⟩

/-- The window of a registered stream is not set again. -/
theorem Wellformed.realizeStep_window {s : MuxState} (hW : Wellformed s) {z : Realize}
    (hz : s.realizing = some z) {sh : Shared} {pr : Pair} {z' : Option Realize}
    (hr : z.step s.shared (s.pairs z.pair) = (sh, pr, z')) {p : Nat}
    (huse : (s.pairs p).phase.inUse = true)
    (hlog : (s.pairs p).dataId ∈ s.shared.history.openLog) :
    sh.windows (s.pairs p).dataId = s.shared.windows (s.pairs p).dataId := by
  have hnames := hW.names huse
  refine realizeStep_windows hr (fun heq => ?_) fun heq hpc => ?_
  · rw [heq] at hnames
    have := hW.ownership.names_unique hnames (hW.names_realizing hz).1
    simp at this
  · rw [heq, (hW.ownership.progress z hz).2, hpc] at hlog
    contradiction

theorem Followed.realize {s : Parkable} {cfg : MuxConfig} {z : Realize} {sh : Shared}
    {pr : Pair} {z' : Option Realize} (hF : TeardownFacts s.mux) (hI : Followed s)
    (hz : s.mux.realizing = some z)
    (hr : z.step s.mux.shared (s.mux.pairs z.pair) = (sh, pr, z'))
    (hstep : step cfg s.mux .realizeStep = some { s.mux with
      shared := sh, pairs := Function.update s.mux.pairs z.pair pr, realizing := z' }) :
    Followed { s with mux := { s.mux with
      shared := sh, pairs := Function.update s.mux.pairs z.pair pr, realizing := z' } } := by
  obtain ⟨hphase, -, hdata⟩ := hF.ownership.realizing z hz
  constructor
  · intro p hparked
    obtain ⟨hidle, hwas⟩ := hI.waiting p hparked
    have hp : p ≠ z.pair := by
      rintro rfl
      rw [hphase] at hwas
      contradiction
    simp only [Function.update_of_ne hp]
    exact ⟨hidle, hwas⟩
  · intro p huse hlog hopen
    have hbefore : (s.mux.pairs p).phase.inUse = true ∧
        (Function.update s.mux.pairs z.pair pr p).dataId = (s.mux.pairs p).dataId := by
      by_cases hp : p = z.pair
      · subst hp
        rw [hphase]
        refine ⟨rfl, ?_⟩
        rcases realizeStep_pair hr with ⟨rfl, -⟩ | ⟨rfl, -⟩ | ⟨rfl, -, -⟩ <;> simp
      · simp only [Function.update_of_ne hp] at huse ⊢
        exact ⟨huse, trivial⟩
    obtain ⟨huse', hid⟩ := hbefore
    have hopen' := inUse_open_before hF.registrations hstep huse' hopen
    simp only [hid] at hlog ⊢
    by_cases hold : (s.mux.pairs p).dataId ∈ s.mux.shared.history.openLog
    · rcases hI.tracked p huse' hold hopen' with htracked | ⟨hreal, hstopped⟩
      · exact .inl (htracked.of_keep hid rfl (realizeStep_openIds hr)
          (hF.realizeStep_window hz hr huse' hold) rfl)
      · obtain ⟨y, hy, rfl⟩ := hF.ownership.inProgress p hreal
        rw [hz, Option.some.injEq] at hy
        subst hy
        refine .inr ⟨?_, hstopped⟩
        simp only [Function.update_self] at huse ⊢
        cases hafter : pr.phase with
        | realizing => rfl
        | opened =>
            have huse := realizeStep_opened hr (by rw [hreal]; simp) hafter
            rw [← hdata, hF.exits.closes _ hstopped] at huse
            contradiction
        | _ => simp [hafter, PairPhase.inUse] at huse
    · -- The `Open` has just been enqueued.
      refine .inl (.inl (.inl ?_))
      simp only [hid]
      rcases realizeStep_reg hr with ⟨-, hsame⟩ | ⟨-, -, -, hopens, -⟩ | ⟨-, -, -, hopens, -⟩
      · rw [hsame] at hlog
        exact absurd hlog hold
      · have hnew : (s.mux.pairs p).dataId = z.errorId := by
          rw [hopens.log, List.mem_append, List.mem_singleton] at hlog
          exact hlog.resolve_left hold
        have hnames := hF.names huse'
        rw [hnew] at hnames
        have := hF.ownership.names_unique hnames (hF.names_realizing hz).1
        simp at this
      · have hnew : (s.mux.pairs p).dataId = z.dataId := by
          rw [hopens.log, List.mem_append, List.mem_singleton] at hlog
          exact hlog.resolve_left hold
        rw [hnew, hopens.queue, openIds_append, if_pos rfl]
        exact List.mem_append_right _ (by simp [openIds])

/-- A step of the reader, of the writer or of the environment. -/
theorem Followed.of_windows {s s' : Parkable} {cfg : MuxConfig} {a : Act}
    (hF : TeardownFacts s.mux) (hI : Followed s) (hstep : step cfg s.mux a = some s'.mux)
    (hpairs : s'.mux.pairs = s.mux.pairs) (hworkers : s'.mux.workers = s.mux.workers)
    (hopens : ∀ w, openIds (s'.mux.shared.reg w).queue = openIds (s.mux.shared.reg w).queue)
    (hwindows : s'.mux.shared.windows = s.mux.shared.windows)
    (hlog : s'.mux.shared.history.openLog = s.mux.shared.history.openLog)
    (hparked : s'.parked = s.parked) : Followed s' where
  waiting p hp := by
    rw [hpairs]
    exact hI.waiting p (hparked ▸ hp)
  tracked p huse hreg hopen := by
    rw [hpairs] at huse
    rw [hpairs, hlog] at hreg
    have hopen' := inUse_open_before hF.registrations hstep huse hopen
    rcases hI.tracked p huse hreg hopen' with htracked | hstopped
    · refine .inl (htracked.of_keep (by rw [hpairs]) hworkers (fun w id hid => ?_)
        (by rw [hwindows]) (by rw [hparked]))
      rw [hopens]
      exact hid
    · rw [hpairs, hworkers]
      exact .inr hstopped

theorem WorkerMove.exits {cfg : MuxConfig} {order : List StreamId} {w : Shard}
    {k k' : Worker} {sh sh' : Shared} (h : WorkerMove cfg order w k sh k' sh')
    (hpc : k.pc = .exiting) : k'.pc = .stopped := by
  cases h with
  | takeClose pc hpc' hfrom hrecv happly => simp [hpc] at hfrom
  | takeReg pc hpc' hfrom hrecv happly => simp [hpc] at hfrom
  | takeFrame hframe hrecv => simp [hpc] at hframe
  | move pc hfrom hto => exact absurd hpc hfrom.1
  | shutdown hshut => simp [hpc] at hshut
  | exit hexit => rfl

theorem WorkerMove.not_stopped {cfg : MuxConfig} {order : List StreamId} {w : Shard}
    {k k' : Worker} {sh sh' : Shared} (h : WorkerMove cfg order w k sh k' sh') :
    k.pc ≠ .stopped := by
  intro hpc
  cases h with
  | takeClose pc hpc' hfrom hrecv happly => simp [hpc] at hfrom
  | takeReg pc hpc' hfrom hrecv happly => simp [hpc] at hfrom
  | takeFrame hframe hrecv => simp [hpc] at hframe
  | move pc hfrom hto => exact absurd hpc hfrom.2
  | shutdown hshut => simp [hpc] at hshut
  | exit hexit => simp [hpc] at hexit

/-- A worker that exits has only dropped the `Open` of a data stream whose pair is not
opened yet. -/
theorem TeardownFacts.exiting {s : MuxState} {p : Nat} {order : List StreamId}
    (hF : TeardownFacts s) (huse : (s.pairs p).phase.inUse = true)
    (hopen : (s.shared.chans ⟨p, .data⟩).chan.closed = false)
    (htaken : OpensTaken s (.worker (shardOf (s.pairs p).dataId) order))
    (hpc : (s.workers (shardOf (s.pairs p).dataId)).pc = .exiting)
    (hkept : Kept (shardOf (s.pairs p).dataId) (s.workers (shardOf (s.pairs p).dataId))
      s.shared (s.pairs p).dataId) : (s.pairs p).phase = .realizing := by
  rcases hkept with hq | hin
  · obtain ⟨r, hr⟩ := mem_openIds.1 hq
    have hsame := hF.ownership.names_unique (hF.senders.queued _ _ r hr) (hF.names huse)
    subst hsame
    have hqueued : ⟨p, .data⟩ ∈ queuedSenders
        (s.shared.reg (shardOf (s.pairs p).dataId)).queue :=
      List.mem_filterMap.2 ⟨_, hr, rfl⟩
    cases hphase : (s.pairs p).phase with
    | realizing => rfl
    | opened =>
        have hclosed := htaken hpc _ hqueued rfl hphase
        rw [hopen] at hclosed
        contradiction
    | _ => simp [hphase, PairPhase.inUse] at huse
  · exact absurd (.inl hin) (hF.registrations.gone _ (by rw [hpc]; rfl) _)

/-- A move of a worker that has taken up what it must. -/
theorem Followed.worker {s : Parkable} {cfg : MuxConfig} {w : Shard} {order : List StreamId}
    {k : Worker} {sh : Shared} (hF : TeardownFacts s.mux) (hI : Followed s)
    (htaken : OpensTaken s.mux (.worker w order))
    (hmove : WorkerMove cfg order w (s.mux.workers w) s.mux.shared k sh)
    (hstep : step cfg s.mux (.worker w order) = some { s.mux with
      shared := sh, workers := Function.update s.mux.workers w k }) :
    Followed { s with mux := { s.mux with
      shared := sh, workers := Function.update s.mux.workers w k } } := by
  refine ⟨hI.waiting, fun p huse hlog hopen => ?_⟩
  have hopen' := inUse_open_before hF.registrations hstep huse hopen
  simp only [hmove.footprint.openLog] at hlog
  have hbefore := hI.tracked p huse hlog hopen'
  simp only [Tracked] at hbefore ⊢
  by_cases hw : shardOf (s.mux.pairs p).dataId = w
  · subst hw
    simp only [Function.update_self]
    rcases hbefore with htracked | ⟨-, hstopped⟩
    · by_cases hkept : Kept (shardOf (s.mux.pairs p).dataId)
          (s.mux.workers (shardOf (s.mux.pairs p).dataId)) s.mux.shared (s.mux.pairs p).dataId
      · by_cases hpc : (s.mux.workers (shardOf (s.mux.pairs p).dataId)).pc = .exiting
        · exact .inr ⟨hF.exiting huse hopen' htaken hpc hkept, hmove.exits hpc⟩
        · refine .inl ((hmove.kept (fun r hr => ?_) hpc hkept).imp_right fun h =>
            ⟨h.1, fun _ => h.2⟩)
          have hsame := hF.ownership.names_unique (hF.senders.entries _ _ r hr)
            (hF.names huse)
          rw [hsame]
          exact hopen'
      · have hout : (s.mux.pairs p).dataId ∉
            (s.mux.workers (shardOf (s.mux.pairs p).dataId)).streams := fun h =>
          hkept (.inr h)
        refine .inl (.inr ?_)
        rw [hmove.windows_other hout]
        exact htracked.resolve_left hkept
    · exact absurd hstopped hmove.not_stopped
  · have hout : (s.mux.pairs p).dataId ∉ (s.mux.workers w).streams := fun h =>
      hw (hF.registrations.known w _ (.inl h)).1
    simp only [Function.update_of_ne hw, hmove.windows_other hout, Kept,
      (hmove.other_channels hw).1] at hbefore ⊢
    exact hbefore

theorem step_followed {cfg : MuxConfig} {s s' : Parkable} {a : Act}
    (hF : TeardownFacts s.mux) (hI : Followed s) (htaken : OpensTaken s.mux a)
    (h : (parkable cfg).step s a = some s') : Followed s' := by
  simp only [parkable, Option.map_eq_some_iff] at h
  obtain ⟨m, hm, rfl⟩ := h
  obtain ⟨p, c, sh, pr, rfl, -, -⟩ | ⟨p, sh, pr, z, rfl, hnone, hphase, hb, rfl⟩ |
    ⟨z, sh, pr, z', rfl, hz, hr, rfl⟩ | ⟨c, sh, r, rfl, hr, rfl⟩ |
    ⟨w, order, k, sh, rfl, hw, rfl⟩ | ⟨c, sh, wr, rfl, hw, rfl⟩ | ⟨rfl, rfl⟩ := step_cases hm
  · exact hI.client hF hm
  · exact hI.begin hF hnone hphase hb hm
  · exact hI.realize hF hz hr hm
  · have hfoot := reader_footprint hr
    exact hI.of_windows hF hm rfl rfl (reader_openIds hr) hfoot.windows hfoot.openLog rfl
  · exact hI.worker hF htaken (workerMove_of_step hw) hm
  · have hfoot := writer_footprint hw
    exact hI.of_windows hF hm rfl rfl (fun v => by rw [hfoot.reg]) hfoot.windows hfoot.openLog
      rfl
  · exact hI.of_windows hF hm rfl rfl (fun _ => rfl) rfl rfl rfl

/-- The connection in a run with parked writers runs as it does without. -/
theorem parkable_reaches (cfg : MuxConfig) :
    (parkable cfg).Invariant anyStep (fun s => (mux cfg).Reaches anyStep s.mux) :=
  simulation Parkable.mux (fun _ _ _ _ => trivial : (parkable cfg).Invariant anyStep
    fun _ => True) rfl fun s a s' _ _ h => by
      simp only [parkable, Option.map_eq_some_iff] at h
      obtain ⟨m, hm, rfl⟩ := h
      exact .inr ⟨a, trivial, hm⟩

theorem followed_invariant (cfg : MuxConfig) :
    (parkable cfg).Invariant (fun s a => OpensTaken s.mux a) Followed := by
  refine Invariant.of_step_using (Invariant.restrict (parkable_reaches cfg)
    fun _ _ _ => trivial) ?_ fun s a s' hreach hI htaken h =>
      step_followed (Reaches.of_invariant hreach (teardownFacts_invariant cfg)) hI htaken h
  constructor <;> simp [parkable, MuxState.init, PairPhase.inUse]

/-! ## After the exit of all tasks -/

/-- How many accesses a realization has before it at most. -/
def RealizePc.remaining : RealizePc → Nat
  | .loadErrorWindow => 11
  | .loadDataWindow => 10
  | .registerError => 9
  | .registerData => 8
  | .enqueueOpen => 7
  | .reserveCtrlError => 6
  | .reserveCtrlData => 5
  | .reserveCloseError => 4
  | .reserveCloseData => 3
  | .cleanupErrorOnly => 1
  | .cleanupError _ => 2
  | .cleanupData _ => 1

theorem realizeStep_remaining {z y : Realize} {sh sh' : Shared} {pr pr' : Pair}
    (h : z.step sh pr = (sh', pr', some y)) : y.pc.remaining < z.pc.remaining := by
  unfold Realize.step at h
  cases hz : z.pc <;> simp only [hz] at h <;> (repeat' split at h) <;> cases h <;>
    simp [RealizePc.remaining]

/-- A realization fails when the worker of its data stream has stopped. -/
theorem finishRealize_broken {fuel : Nat} {z : Realize} {sh : Shared} {pr : Pair}
    (hfuel : z.pc.remaining ≤ fuel) (hpr : pr.phase ≠ .opened)
    (hclosed : (sh.closeReg (shardOf z.dataId)).closed = true) :
    (finishRealize fuel (sh, pr, some z)).2.phase = .broken := by
  induction fuel generalizing z sh pr with
  | zero =>
      cases hpc : z.pc <;> simp [hpc, RealizePc.remaining] at hfuel
  | succ fuel ih =>
      rw [finishRealize]
      obtain ⟨sh', pr', z', hstep⟩ : ∃ sh' pr' z', z.step sh pr = (sh', pr', z') :=
        ⟨_, _, _, rfl⟩
      have hclosed' := (realizeStep_channels hstep (shardOf z.dataId)).1.trans hclosed
      rw [hstep]
      rcases realizeStep_pair hstep with ⟨rfl, y, rfl⟩ | ⟨rfl, rfl⟩ | ⟨rfl, rfl, -⟩
      · have hless := realizeStep_remaining hstep
        refine ih (by omega) hpr ?_
        rw [(realizeStep_same hstep).2.2]
        exact hclosed'
      · cases fuel <;> rfl
      · have huse := realizeStep_opened hstep hpr rfl
        rw [hclosed] at huse
        contradiction

/-- A poisoned window ends a call at once. -/
theorem pollWriteViaSender_closed {sh : Shared} {pr : Pair} {buf : Bytes} (hbuf : buf ≠ [])
    (hclosed : (sh.windows pr.dataId).isClosed = true) :
    pollWriteViaSender sh pr buf = some .brokenPipe := by
  simp [pollWriteViaSender, SendState.poll, hbuf, hclosed, SendState.finish,
    SendState.finishCall, SendState.step]

/-- The window of every opened stream that is held is poisoned, and nobody who was
parked on it was left waiting. -/
theorem Followed.released {s : Parkable} (hF : TeardownFacts s.mux) (hI : Followed s)
    (hexit : Exited s.mux) {p : Nat} (hphase : (s.mux.pairs p).phase = .opened)
    (hopen : (s.mux.shared.chans ⟨p, .data⟩).chan.closed = false) :
    (s.mux.shared.windows (s.mux.pairs p).dataId).isClosed = true ∧
      (s.parked p = true →
        (s.mux.shared.windows (s.mux.pairs p).dataId).waker.registered = false) := by
  obtain ⟨-, -, hlog⟩ := hF.ownership.guarded p (by rw [hphase]; rfl)
  rcases hI.tracked p (by rw [hphase]; rfl) hlog hopen with (⟨hq | hin⟩ | hpoisoned) | ⟨hreal, -⟩
  · rw [(hF.exits.opens _ (hexit.2.2 _)).2] at hq
    contradiction
  · exact absurd (.inl hin) (hF.registrations.gone _ (by rw [hexit.2.2]; rfl) _)
  · exact hpoisoned
  · rw [hphase] at hreal
    contradiction

theorem Followed.pollWrite_brokenPipe {s : Parkable} (hF : TeardownFacts s.mux)
    (hI : Followed s) (hexit : Exited s.mux) {p : Nat} (hheld : HoldsData s.mux p) {buf : Bytes}
    (hbuf : buf ≠ []) : pollWrite s.mux p buf = some .brokenPipe := by
  obtain ⟨hphase, hopen⟩ := hheld
  rcases hphase with hphase | hphase | hphase | hphase
  · have hcancelled := hF.exits.cancelled hexit.2.1
    simp [pollWrite, ensureOpen, hphase, Mux.realizeBegin, hcancelled, finishRealize]
  · obtain ⟨z, hz, rfl⟩ := hF.ownership.inProgress p hphase
    have hbroken : (ensureOpen s.mux z.pair).2.phase = .broken := by
      simp only [ensureOpen, hphase, hz]
      refine finishRealize_broken ?_ (by simp [hphase]) (hF.exits.closes _ (hexit.2.2 _))
      cases z.pc <;> simp [RealizePc.remaining]
    simp [pollWrite, hbroken]
  · have hclosed := (hI.released hF hexit hphase hopen).1
    simp only [pollWrite, ensureOpen, hphase]
    split
    · rfl
    · exact pollWriteViaSender_closed hbuf hclosed
  · simp [pollWrite, ensureOpen, hphase]

/-- Once all tasks have exited, every writer that was parked has been woken, and every
`poll_write` fails, provided no worker dropped the `Open` of an opened stream. -/
theorem writers_released (cfg : MuxConfig) (as : List Act) (s : Parkable)
    (hrun : (parkable cfg).run (parkable cfg).init as = some s)
    (hmeets : (parkable cfg).Meets (fun s a => OpensTaken s.mux a) (parkable cfg).init as)
    (hexit : Exited s.mux) : WritersReleased s := by
  have hI := followed_invariant cfg as s hrun hmeets
  have hreach := parkable_reaches cfg as s hrun (meets_anyStep _ _)
  have hF := Reaches.of_invariant hreach (teardownFacts_invariant cfg)
  refine ⟨fun p hheld hparked => ?_, fun p hheld buf hbuf => ?_⟩
  · have hwas := (hI.waiting p hparked).2
    have hphase : (s.mux.pairs p).phase = .opened := by
      rcases hheld.1 with h | h | h | h
      · rw [h] at hwas
        contradiction
      · rw [h] at hwas
        contradiction
      · exact h
      · rw [h] at hwas
        contradiction
    exact (hI.released hF hexit hphase hheld.2).2 hparked
  · exact hI.pollWrite_brokenPipe hF hexit hheld hbuf

/-- The peer allows no bytes yet, and the workers wait for something to do. -/
def idleWorkersActs : List Act :=
  startActs ++ settingsActs 0 ++ openActs 0 ++
    (List.finRange 5).flatMap fun w => List.replicate 7 (.worker w [])

/-- A write of one byte parks. -/
def parkActs (p : Nat) : List Act :=
  [.client p (.writeBegin [0]), .client p .writeReserve, .client p .writePick,
    .client p .writeRecheck]

/-- The connection is cancelled and every task exits. -/
def exitActs : List Act :=
  [Act.cancel, .reader .exit] ++ List.replicate 2 (Act.writer .step) ++
    (List.finRange 5).flatMap fun w => List.replicate 3 (Act.worker w [])

/-- The worker takes the `Open` and waits again before the connection is cancelled. -/
def releasedActs : List Act :=
  idleWorkersActs ++ realizeActs 0 ++ parkActs 0 ++ List.replicate 5 (.worker (shardOf 3) []) ++
    exitActs

/-- The connection is cancelled before the worker has been woken by the `Open`. -/
def strandedActs : List Act :=
  idleWorkersActs ++ realizeActs 0 ++ parkActs 0 ++ exitActs

theorem writers_released_woken :
    ∃ s, (parkable MuxConfig.default).run (parkable MuxConfig.default).init releasedActs =
        some s ∧ Exited s.mux ∧ HoldsData s.mux 0 ∧ s.parked 0 = true ∧ WritersReleased s := by
  have hrun : ((parkable MuxConfig.default).run (parkable MuxConfig.default).init
      releasedActs).map (fun s => (decide (Exited s.mux), decide (HoldsData s.mux 0),
        s.parked 0)) = some (true, true, true) := by
    decide +kernel
  obtain ⟨s, hs, hfinal⟩ := Option.map_eq_some_iff.1 hrun
  simp only [Prod.mk.injEq, decide_eq_true_eq] at hfinal
  obtain ⟨hexit, hheld, hparked⟩ := hfinal
  have hmeets : (parkable MuxConfig.default).Meets (fun s a => OpensTaken s.mux a)
      (parkable MuxConfig.default).init releasedActs :=
    meets_of_check (by decide +kernel)
  exact ⟨s, hs, hexit, hheld, hparked, writers_released _ _ _ hs hmeets hexit⟩

/-- A writer whose `Open` was still queued when its worker left stays parked for good,
and its next call is parked as well. -/
theorem writer_stranded :
    ¬ ∀ (cfg : MuxConfig) (as : List Act) (s : Parkable),
      (parkable cfg).run (parkable cfg).init as = some s → Exited s.mux →
        WritersReleased s := by
  intro hall
  have hrun : ((parkable MuxConfig.default).run (parkable MuxConfig.default).init
      strandedActs).map (fun s => (decide (Exited s.mux), decide (HoldsData s.mux 0),
        s.parked 0, (s.mux.shared.windows (s.mux.pairs 0).dataId).waker.registered,
        pollWrite s.mux 0 [0])) = some (true, true, true, true, some .pending) := by
    decide +kernel
  obtain ⟨s, hs, hfinal⟩ := Option.map_eq_some_iff.1 hrun
  simp only [Prod.mk.injEq, decide_eq_true_eq] at hfinal
  obtain ⟨hexit, hheld, hparked, hwaiting, -⟩ := hfinal
  have hwoken := (hall _ _ s hs hexit).woken 0 hheld hparked
  exact absurd (hwaiting.symm.trans hwoken) (by simp)

end KubePortForward.Mux

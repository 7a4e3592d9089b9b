import KubePortForward.Mux.Owner

/-!
# What an owner's step can be, and what it keeps

`OwnerMove` lists the steps of an owner once; the invariants of streams and
guards are then kept by each of them.  The phases of `Mux.Stream` turn out to be
what the guards and the open state of a stream say, so the detailed system
refines the multiplexed connection.

## Main results

* `ownerMove_of_step` — the cases of an owner's step.
-/

namespace KubePortForward.Mux

open KubePortForward.Codec
open KubePortForward.Verified.Channel
open KubePortForward.Verified.Transition

/-- `open_stream_pair` has not granted the pair. -/
def PairPhase.ungranted : PairPhase → Bool
  | .absent => true
  | .checkOperating _ => true
  | .checkHard _ => true
  | .undo => true
  | .granting => true
  | .refused => true
  | _ => false

/-- Nothing that decides about opening, writing and dropping has changed. -/
structure Pair.Same (pr pr' : Pair) : Prop where
  phase : pr'.phase = pr.phase
  write : pr'.write = pr.write
  gracefulShutdown : pr'.gracefulShutdown = pr.gracefulShutdown
  errorId : pr'.errorId = pr.errorId
  dataId : pr'.dataId = pr.dataId
  errorHeaders : pr'.errorHeaders = pr.errorHeaders
  dataHeaders : pr'.dataHeaders = pr.dataHeaders

theorem Pair.Same.rfl {pr : Pair} : pr.Same pr :=
  ⟨Eq.refl _, Eq.refl _, Eq.refl _, Eq.refl _, Eq.refl _, Eq.refl _, Eq.refl _⟩

theorem Pair.setHalf_same (pr : Pair) (h : ReadHalf) (kind : HalfKind) :
    pr.Same (pr.setHalf h kind) := by
  cases kind <;> exact ⟨rfl, rfl, rfl, rfl, rfl, rfl, rfl⟩

/-- What a write that is under way still carries is a prefix of its buffer. -/
def WritePc.From (buf : Bytes) : WritePc → Prop
  | .idle => False
  | .checked b => b = buf
  | .recheck b => b = buf
  | .picked payload => payload = buf.take payload.length
  | .debited payload => payload = buf.take payload.length

/-! ## The accesses of a poll -/

section

variable {cfg : MuxConfig} {p : Nat} {sh sh' : Shared} {pr pr' : Pair}

/-- Reading and dropping a receiver send nothing. -/
theorem read_same {kind : HalfKind} {n : Nat}
    (h : clientStep cfg p (.read kind n) sh pr = some (sh', pr')) :
    pr.Same pr' ∧ sh'.cmd = sh.cmd := by
  simp only [clientStep, Pair.read] at h
  split at h
  · split at h <;> cases h
    exact ⟨pr.setHalf_same _ kind, rfl⟩
  · contradiction

theorem fillBuf_same (h : clientStep cfg p .fillBuf sh pr = some (sh', pr')) :
    pr.Same pr' ∧ sh'.cmd = sh.cmd := by
  simp only [clientStep, Pair.fillBuf] at h
  split at h <;> cases h
  exact ⟨⟨rfl, rfl, rfl, rfl, rfl, rfl, rfl⟩, rfl⟩

theorem consume_same {amt : Nat}
    (h : clientStep cfg p (.consume amt) sh pr = some (sh', pr')) :
    pr.Same pr' ∧ sh'.cmd = sh.cmd := by
  simp only [clientStep, Pair.consume] at h
  split at h <;> cases h
  exact ⟨⟨rfl, rfl, rfl, rfl, rfl, rfl, rfl⟩, rfl⟩

theorem dropReceiver_same {kind : HalfKind}
    (h : clientStep cfg p (.dropReceiver kind) sh pr = some (sh', pr')) :
    pr' = pr ∧ sh'.cmd = sh.cmd ∧ (sh'.chans ⟨p, kind⟩).chan.closed = true := by
  simp only [clientStep, Pair.dropReceiver] at h
  split at h <;> cases h
  exact ⟨rfl, rfl, by simp [Shared.updChan]⟩

/-- A slot is reserved, or the write that needs one ends. -/
theorem writeReserve_cases (h : clientStep cfg p .writeReserve sh pr = some (sh', pr')) :
    sh'.cmd.queue = sh.cmd.queue ∧ (pr.Same pr' ∨
      (∃ buf, pr.write = .checked buf) ∧ pr.Same { pr' with write := pr.write } ∧
        pr'.write = .idle) := by
  simp only [clientStep, Pair.writeReserve] at h
  split at h
  · split at h <;> cases h
    · next hw c hc =>
        exact ⟨Chan.tryReserve_queue hc, .inl ⟨rfl, rfl, rfl, rfl, rfl, rfl, rfl⟩⟩
    · next hw c hc =>
        exact ⟨Chan.tryReserve_queue hc, .inl ⟨rfl, rfl, rfl, rfl, rfl, rfl, rfl⟩⟩
    · next e hw he =>
        exact ⟨rfl, .inr ⟨⟨_, hw⟩, ⟨rfl, rfl, rfl, rfl, rfl, rfl, rfl⟩, rfl⟩⟩
  · contradiction

theorem writeBegin_cases {buf : Bytes}
    (h : clientStep cfg p (.writeBegin buf) sh pr = some (sh', pr')) :
    sh' = sh ∧ pr' = { pr with write := .checked buf } ∧ pr.write = .idle ∧
      pr.gracefulShutdown = false := by
  simp only [clientStep, Pair.writeBegin] at h
  split at h
  · next hg =>
      cases h
      exact ⟨rfl, rfl, hg.2.1, hg.2.2.2.1⟩
  · contradiction

theorem shutdown_cases (h : clientStep cfg p .shutdown sh pr = some (sh', pr')) :
    sh'.cmd.queue = sh.cmd.queue ++ [.sendData pr.dataId [] true] ∧
      pr' = { pr with gracefulShutdown := true, cmdPermit := false } ∧ pr.write = .idle ∧
      pr.gracefulShutdown = false ∧ pr.phase = .opened := by
  simp only [clientStep, Pair.shutdown] at h
  split at h
  · next hg =>
      split at h <;> cases h
      exact ⟨rfl, rfl, hg.2.2.1, hg.2.2.2, hg.1⟩
  · contradiction

/-- A step of a write goes on with a prefix of what it had, ends, or sends. -/
theorem nextWrite_cases
    (h : clientStep cfg p (Owner.nextWrite pr) sh pr = some (sh', pr')) :
    pr.Same { pr' with write := pr.write } ∧
    ((sh'.cmd.queue = sh.cmd.queue ∧ pr'.write ≠ .idle ∧
        ∀ buf, pr.write.From buf → pr'.write.From buf) ∨
      (sh'.cmd.queue = sh.cmd.queue ∧ pr'.write = .idle ∧
        ∀ payload, pr.write ≠ .debited payload) ∨
      ∃ payload, pr.write = .debited payload ∧ pr'.write = .idle ∧
        sh'.cmd.queue = sh.cmd.queue ++ [.sendRawFrame (rawDataFrame pr.dataId payload)]) := by
  have htaken : ∀ (buf : Bytes) (n : Nat),
      buf.take n = buf.take (buf.take n).length := by
    intro buf n
    rw [List.length_take, List.take_eq_take_iff]
    omega
  unfold Owner.nextWrite at h
  cases hw : pr.write with
  | idle =>
      simp only [hw, clientStep, Pair.writeSend] at h
      contradiction
  | checked buf =>
      simp only [hw] at h
      split at h
      · next hpermit =>
          simp only [clientStep, Pair.writePick, hw, hpermit, if_true] at h
          split at h <;> cases h
          · exact ⟨⟨rfl, hw.symm, rfl, rfl, rfl, rfl, rfl⟩, .inl ⟨rfl, by simp, fun b hb => hb⟩⟩
          · refine ⟨⟨rfl, hw.symm, rfl, rfl, rfl, rfl, rfl⟩, .inl ⟨rfl, by simp, fun b hb => ?_⟩⟩
            obtain rfl : buf = b := hb
            exact htaken buf _
      · obtain ⟨hqueue, hsame | ⟨-, hsame, hidle⟩⟩ := writeReserve_cases h
        · refine ⟨⟨hsame.phase, hw.symm, hsame.gracefulShutdown, hsame.errorId, hsame.dataId,
            hsame.errorHeaders, hsame.dataHeaders⟩, .inl ⟨hqueue, ?_, fun b hb => ?_⟩⟩
          · rw [hsame.write, hw]
            simp
          · rw [hsame.write, hw]
            exact hb
        · rw [hw] at hsame
          exact ⟨hsame, .inr (.inl ⟨hqueue, hidle, by simp⟩)⟩
  | recheck buf =>
      simp only [hw, clientStep, Pair.writeRecheck] at h
      split at h <;> cases h
      · exact ⟨⟨rfl, hw.symm, rfl, rfl, rfl, rfl, rfl⟩, .inr (.inl ⟨rfl, rfl, by simp⟩)⟩
      · refine ⟨⟨rfl, hw.symm, rfl, rfl, rfl, rfl, rfl⟩, .inl ⟨rfl, by simp, fun b hb => ?_⟩⟩
        obtain rfl : buf = b := hb
        exact htaken buf _
  | picked payload =>
      simp only [hw, clientStep, Pair.writeDebit] at h
      split at h <;> cases h
      · exact ⟨⟨rfl, hw.symm, rfl, rfl, rfl, rfl, rfl⟩, .inl ⟨rfl, by simp, fun b hb => hb⟩⟩
      · exact ⟨⟨rfl, hw.symm, rfl, rfl, rfl, rfl, rfl⟩, .inr (.inl ⟨rfl, rfl, by simp⟩)⟩
  | debited payload =>
      simp only [hw, clientStep, Pair.writeSend] at h
      split at h <;> cases h
      exact ⟨⟨rfl, hw.symm, rfl, rfl, rfl, rfl, rfl⟩, .inr (.inr ⟨payload, rfl, rfl, rfl⟩)⟩

/-- An attempt goes on, and is not granted yet. -/
theorem openBegin_cases {eh dh : Headers}
    (h : clientStep cfg p (.openBegin eh dh) sh pr = some (sh', pr')) :
    pr.phase.ungranted = true ∧ pr'.phase.ungranted = true ∧ pr'.write = pr.write ∧
      pr'.gracefulShutdown = pr.gracefulShutdown ∧ sh'.cmd = sh.cmd := by
  simp only [clientStep, Pair.openBegin] at h
  split at h
  · next hphase =>
      rw [hphase]
      split at h <;> cases h <;> exact ⟨rfl, rfl, rfl, rfl, rfl⟩
  · contradiction

theorem openStep_cases (h : clientStep cfg p .openStep sh pr = some (sh', pr')) :
    pr.phase.ungranted = true ∧ pr'.write = pr.write ∧
      pr'.gracefulShutdown = pr.gracefulShutdown ∧ sh'.cmd = sh.cmd ∧
      ((pr.phase = .granting ∧ pr'.phase = .unopened) ∨
        (pr.phase ≠ .granting ∧ pr'.phase.ungranted = true)) := by
  simp only [clientStep, Pair.openStep] at h
  split at h
  · next hphase =>
      rw [hphase]
      split at h <;> cases h <;> exact ⟨rfl, rfl, rfl, rfl, .inr ⟨by simp, rfl⟩⟩
  · next hphase =>
      rw [hphase]
      split at h <;> cases h <;> exact ⟨rfl, rfl, rfl, rfl, .inr ⟨by simp, rfl⟩⟩
  · next hphase =>
      rw [hphase]
      cases h
      exact ⟨rfl, rfl, rfl, rfl, .inr ⟨by simp, rfl⟩⟩
  · next hphase =>
      rw [hphase]
      cases h
      exact ⟨rfl, rfl, rfl, rfl, .inl ⟨rfl, rfl⟩⟩
  · contradiction

/-- The guard of an opened pair begins to run. -/
theorem dropRest_cases (h : clientStep cfg p .dropRest sh pr = some (sh', pr')) :
    sh'.cmd.queue = sh.cmd.queue ∧ (pr.phase = .opened → pr.write = .idle ∧
      pr' = { pr with phase := .dropping .releaseCtrlError, cmdPermit := false }) := by
  simp only [clientStep, Pair.dropRest] at h
  split at h
  · next hg =>
      split at h <;> cases h
      · next hphase => exact ⟨rfl, by simp [hphase]⟩
      · next hphase => exact ⟨rfl, by simp [hphase]⟩
      · next hphase =>
          refine ⟨?_, fun _ => ⟨hg.2.2, rfl⟩⟩
          split <;> rfl
  · contradiction

/-- The guard releases the slot in its last but one step. -/
theorem dropStep_cases (h : clientStep cfg p .dropStep sh pr = some (sh', pr')) :
    sh'.cmd = sh.cmd ∧ (∃ phase, pr' = { pr with phase := phase }) ∧
      ∃ pc, pr.phase = .dropping pc ∧
        ((pc = .releaseCtrlData ∧ pr'.phase = .dropped) ∨
          ∃ pc', pc ≠ .releaseCtrlData ∧ pr'.phase = .dropping pc' ∧
            (pc' = .releaseCtrlData ↔ pc = .releasePair)) := by
  have hclose : ∀ {id : StreamId} {u : Shared}, sh.sendReservedClose id = some u →
      u.cmd = sh.cmd := by
    intro id u hu
    unfold Shared.sendReservedClose at hu
    split at hu <;> cases hu
    rfl
  simp only [clientStep, Pair.dropStep] at h
  split at h
  · next hphase =>
      cases h
      exact ⟨rfl, ⟨_, rfl⟩, _, hphase, .inr ⟨_, by simp, rfl, by simp⟩⟩
  · next hphase =>
      split at h
      · cases h
        exact ⟨rfl, ⟨_, rfl⟩, _, hphase, .inr ⟨_, by simp, rfl, by simp⟩⟩
      · split at h <;> cases h
        exact ⟨rfl, ⟨_, rfl⟩, _, hphase, .inr ⟨_, by simp, rfl, by simp⟩⟩
  · next hphase =>
      obtain ⟨u, hu, heq⟩ := Option.map_eq_some_iff.1 h
      cases heq
      exact ⟨hclose hu, ⟨_, rfl⟩, _, hphase, .inr ⟨_, by simp, rfl, by simp⟩⟩
  · next hphase =>
      obtain ⟨u, hu, heq⟩ := Option.map_eq_some_iff.1 h
      cases heq
      exact ⟨hclose hu, ⟨_, rfl⟩, _, hphase, .inr ⟨_, by simp, rfl, by simp⟩⟩
  · next hphase =>
      cases h
      exact ⟨rfl, ⟨_, rfl⟩, _, hphase, .inr ⟨_, by simp, rfl, by simp⟩⟩
  · next hphase =>
      cases h
      refine ⟨?_, ⟨_, rfl⟩, _, hphase, .inl ⟨rfl, rfl⟩⟩
      split <;> rfl
  · contradiction

end

/-! ## The steps of an owner -/

/-- How often the drop of a release guard releases the slot. -/
def guardReleases : Option PairReleaseGuard → Nat
  | some g => if g.armed then 1 else 0
  | none => 0

theorem dropReleaseGuard_eq (g : Option PairReleaseGuard) (sh : Shared) :
    dropReleaseGuard g sh =
      ({ sh with activePairs := sh.activePairs - guardReleases g }, guardReleases g) := by
  cases g with
  | none => rfl
  | some g =>
      cases harmed : g.armed <;>
        simp [dropReleaseGuard, guardReleases, harmed, Shared.releasePair]

/-- What a step of the owner of pair `p` does to the pair and to the owner, and
which commands it sends; `sh` is the memory afterwards. -/
inductive OwnerMove (p : Nat) (sh : Shared) (pr : Pair) (o : Owner) :
    Pair → Owner → List MuxCommand → Prop
  | attempt (pr' : Pair) (hfrom : pr.phase.ungranted = true) (hto : pr'.phase.ungranted = true)
      (hwrite : pr'.write = pr.write)
      (hshut : pr'.gracefulShutdown = pr.gracefulShutdown) :
      OwnerMove p sh pr o pr' o []
  | grant (pr' : Pair) (hfrom : pr.phase = .granting) (hto : pr'.phase = .unopened)
      (hwrite : pr'.write = pr.write)
      (hshut : pr'.gracefulShutdown = pr.gracefulShutdown) :
      OwnerMove p sh pr o pr' .granted []
  | split (h : o.calls .stream = .idle) : OwnerMove p sh pr o pr o.split []
  | begins (h : Holder) (op : Op) (hcall : o.calls h = .idle) (hopens : op.opens = true) :
      OwnerMove p sh pr o pr { o.setCall h (.ensuring op) with touched := true } []
  | emptyWrite (h : Holder) (hcall : o.calls h = .idle) :
      OwnerMove p sh pr o pr { o with accepted := o.accepted ++ [[]] } []
  | quiet (pr' : Pair) (hsame : pr.Same pr') : OwnerMove p sh pr o pr' o []
  | ends (pr' : Pair) (h : Holder) (op : Op) (hcall : o.calls h = .body op)
      (hsame : pr.Same pr') : OwnerMove p sh pr o pr' (o.setCall h .idle) []
  | writeBegins (h : Holder) (buf : Bytes) (hcall : o.calls h = .body (.write buf))
      (hmutex : o.mutex = none) (hidle : pr.write = .idle)
      (hshut : pr.gracefulShutdown = false) :
      OwnerMove p sh pr o { pr with write := .checked buf }
        { o.setCall h (.writing buf) with mutex := some h } []
  | writesOn (pr' : Pair) (h : Holder) (buf : Bytes) (hcall : o.calls h = .writing buf)
      (hsame : pr.Same { pr' with write := pr.write }) (hbusy : pr'.write ≠ .idle)
      (hfrom : ∀ buf, pr.write.From buf → pr'.write.From buf) : OwnerMove p sh pr o pr' o []
  | writeEnds (pr' : Pair) (h : Holder) (buf : Bytes) (hcall : o.calls h = .writing buf)
      (hsame : pr.Same { pr' with write := pr.write }) (hidle : pr'.write = .idle) :
      OwnerMove p sh pr o pr' (o.leave h) []
  | writeSent (pr' : Pair) (h : Holder) (buf payload : Bytes)
      (hcall : o.calls h = .writing buf) (hwrite : pr.write = .debited payload)
      (hsame : pr.Same { pr' with write := pr.write }) (hidle : pr'.write = .idle) :
      OwnerMove p sh pr o pr'
        { o.leave h with accepted := o.accepted ++ [buf.take payload.length] }
        [.sendRawFrame (rawDataFrame pr.dataId payload)]
  | reserves (pr' : Pair) (h : Holder) (hcall : o.calls h = .body .shutdown)
      (hmutex : o.mutex = none) (hsame : pr.Same pr') :
      OwnerMove p sh pr o pr' { o.setCall h .finishing with mutex := some h } []
  | shuts (pr' : Pair) (h : Holder) (hcall : o.calls h = .finishing)
      (hpr : pr' = { pr with gracefulShutdown := true, cmdPermit := false })
      (hidle : pr.write = .idle) (hshut : pr.gracefulShutdown = false) :
      OwnerMove p sh pr o pr' (o.leave h) [.sendData pr.dataId [] true]
  | drops (h : Holder) (hcall : o.calls h = .idle) :
      OwnerMove p sh pr o pr (o.setCall h (.dropping h.receivers)) []
  | dropsReceiver (h : Holder) (kind : HalfKind) (todo : List HalfKind)
      (hcall : o.calls h = .dropping (kind :: todo))
      (hclosed : (sh.chans ⟨p, kind⟩).chan.closed = true) :
      OwnerMove p sh pr o pr (o.setCall h (.dropping todo)) []
  | dropsRef (h : Holder) (hcall : o.calls h = .dropping []) (hrefs : o.refs ≠ 1) :
      OwnerMove p sh pr o pr { o.setCall h .absent with refs := o.refs - 1 } []
  | dropsUnopened (h : Holder) (pendingTx : Bool) (g : Option PairReleaseGuard)
      (hcall : o.calls h = .dropping []) (hrefs : o.refs = 1)
      (hstate : o.state = .unopened pendingTx g) :
      OwnerMove p sh pr o { pr with phase := .dropped }
        { o.setCall h .absent with
          refs := 0, state := .gone, released := o.released + guardReleases g } []
  | dropsOpened (pr' : Pair) (h : Holder) (hcall : o.calls h = .dropping [])
      (hrefs : o.refs = 1) (hstate : o.state = .opened)
      (hpr : pr.phase = .opened → pr.write = .idle ∧
        pr' = { pr with phase := .dropping .releaseCtrlError, cmdPermit := false }) :
      OwnerMove p sh pr o pr' { o.setCall h .closing with state := .closing } []
  | closes (h : Holder) (pc pc' : DropPc) (hcall : o.calls h = .closing)
      (hphase : pr.phase = .dropping pc) (hpc : pc ≠ .releaseCtrlData)
      (hreleases : pc' = .releaseCtrlData ↔ pc = .releasePair) :
      OwnerMove p sh pr o { pr with phase := .dropping pc' }
        { o with released := o.released + Owner.releases pr } []
  | closed (h : Holder) (hcall : o.calls h = .closing)
      (hphase : pr.phase = .dropping .releaseCtrlData) :
      OwnerMove p sh pr o { pr with phase := .dropped }
        { o.setCall h .absent with state := .gone, refs := 0 } []

section

variable {cfg : MuxConfig} {p : Nat} {sh sh' : Shared} {pr pr' : Pair} {o o' : Owner}

/-- The steps of a call that found the stream open. -/
theorem ownerMove_of_proceed {h : Holder} (hfree : o.mutex = none → pr.write = .idle)
    (hs : o.proceed cfg p h sh pr = some (sh', pr', o')) :
    ∃ sent, OwnerMove p sh' pr o pr' o' sent ∧ sh'.cmd.queue = sh.cmd.queue ++ sent := by
  have hends : ∀ {op : Op}, o.calls h = .body op →
      OwnerMove p sh pr o pr (o.setCall h .idle) [] := fun hcall => .ends pr h _ hcall .rfl
  unfold Owner.proceed at hs
  split at hs
  · next n hcall =>
      split at hs <;> cases hs
      · next hc =>
          obtain ⟨hsame, hcmd⟩ := read_same hc
          exact ⟨[], .ends _ h _ hcall hsame, by simp [hcmd]⟩
      · exact ⟨[], hends hcall, by simp⟩
  · next hcall =>
      split at hs <;> cases hs
      · next hc =>
          obtain ⟨hsame, hcmd⟩ := fillBuf_same hc
          exact ⟨[], .ends _ h _ hcall hsame, by simp [hcmd]⟩
      · exact ⟨[], hends hcall, by simp⟩
  · next buf hcall =>
      split at hs
      · next hmutex =>
          split at hs <;> cases hs
          · next hc =>
              obtain ⟨rfl, rfl, hidle, hshut⟩ := writeBegin_cases hc
              exact ⟨[], .writeBegins h buf hcall hmutex hidle hshut, by simp⟩
          · exact ⟨[], hends hcall, by simp⟩
      · contradiction
  · next buf hcall =>
      obtain ⟨⟨sh₁, pr₁⟩, hc, heq⟩ := Option.map_eq_some_iff.1 hs
      simp only [Prod.mk.injEq] at heq
      obtain ⟨rfl, rfl, rfl⟩ := heq
      obtain ⟨hsame, ⟨hqueue, hbusy, hfrom⟩ | ⟨hqueue, hidle, hnot⟩ |
        ⟨payload, hw, hidle, hqueue⟩⟩ := nextWrite_cases hc
      · rw [if_neg hbusy]
        exact ⟨[], .writesOn _ h buf hcall hsame hbusy hfrom, by simp [hqueue]⟩
      · have hquiet : o.accept pr buf = o := by
          unfold Owner.accept
          split
          · next payload hw => exact absurd hw (hnot payload)
          · rfl
        rw [if_pos hidle, hquiet]
        exact ⟨[], .writeEnds _ h buf hcall hsame hidle, by simp [hqueue]⟩
      · have haccept : (o.accept pr buf).leave h =
            { o.leave h with accepted := o.accepted ++ [buf.take payload.length] } := by
          simp only [Owner.accept, hw, Owner.leave]
        rw [if_pos hidle, haccept]
        exact ⟨_, .writeSent _ h buf payload hcall hw hsame hidle, hqueue⟩
  · next hcall =>
      split at hs
      · next hmutex =>
          split at hs
          · cases hs
            exact ⟨[], hends hcall, by simp⟩
          · next hshut =>
              split at hs
              · cases hs
                exact ⟨[], .reserves _ h hcall hmutex .rfl, by simp⟩
              · split at hs <;> cases hs
                · next hc =>
                    obtain ⟨hqueue, hsame | ⟨⟨buf, hw⟩, -, -⟩⟩ := writeReserve_cases hc
                    · exact ⟨[], .reserves _ h hcall hmutex hsame, by simp [hqueue]⟩
                    · rw [hfree hmutex] at hw
                      contradiction
                · exact ⟨[], hends hcall, by simp⟩
      · contradiction
  · next hcall =>
      obtain ⟨⟨sh₁, pr₁⟩, hc, heq⟩ := Option.map_eq_some_iff.1 hs
      simp only [Prod.mk.injEq] at heq
      obtain ⟨rfl, rfl, rfl⟩ := heq
      obtain ⟨hqueue, hpr, hidle, hshut, -⟩ := shutdown_cases hc
      exact ⟨_, .shuts _ h hcall hpr hidle hshut, hqueue⟩
  · contradiction

theorem ownerMove_of_dropNext {h : Holder}
    (hs : o.dropNext cfg p h sh pr = some (sh', pr', o')) :
    ∃ sent, OwnerMove p sh' pr o pr' o' sent ∧ sh'.cmd.queue = sh.cmd.queue ++ sent := by
  unfold Owner.dropNext at hs
  split at hs
  · next kind todo hcall =>
      obtain ⟨⟨sh₁, pr₁⟩, hc, heq⟩ := Option.map_eq_some_iff.1 hs
      simp only [Prod.mk.injEq] at heq
      obtain ⟨rfl, rfl, rfl⟩ := heq
      obtain ⟨rfl, hcmd, hclosed⟩ := dropReceiver_same hc
      exact ⟨[], .dropsReceiver h kind todo hcall hclosed, by simp [hcmd]⟩
  · next hcall =>
      split at hs
      · next hrefs =>
          split at hs
          · next pendingTx g hstate =>
              simp only [Owner.dropUnopened, dropReleaseGuard_eq, Option.some.injEq,
                Prod.mk.injEq] at hs
              obtain ⟨rfl, rfl, rfl⟩ := hs
              refine ⟨[], .dropsUnopened h pendingTx g hcall hrefs hstate, ?_⟩
              split <;> simp [Shared.dropPairTx, Shared.dropTx, Shared.updChan]
          · next hstate =>
              obtain ⟨⟨sh₁, pr₁⟩, hc, heq⟩ := Option.map_eq_some_iff.1 hs
              simp only [Prod.mk.injEq] at heq
              obtain ⟨rfl, rfl, rfl⟩ := heq
              obtain ⟨hqueue, hpr⟩ := dropRest_cases hc
              exact ⟨[], .dropsOpened _ h hcall hrefs hstate hpr, by simp [hqueue]⟩
          · contradiction
      · next hrefs =>
          cases hs
          exact ⟨[], .dropsRef h hcall hrefs, by simp⟩
  · next hcall =>
      obtain ⟨⟨sh₁, pr₁⟩, hc, heq⟩ := Option.map_eq_some_iff.1 hs
      simp only [Prod.mk.injEq] at heq
      obtain ⟨rfl, rfl, rfl⟩ := heq
      obtain ⟨hcmd, ⟨phase, rfl⟩, pc, hphase, ⟨rfl, hdone⟩ | ⟨pc', hpc, hnext, hiff⟩⟩ :=
        dropStep_cases hc
      · simp only at hdone
        subst hdone
        refine ⟨[], ?_, by simp [hcmd]⟩
        have hzero : Owner.releases pr = 0 := by simp [Owner.releases, hphase]
        simp only [hzero, if_true, Nat.add_zero]
        exact .closed h hcall hphase
      · simp only at hnext
        subst hnext
        refine ⟨[], ?_, by simp [hcmd]⟩
        simp only [reduceCtorEq, if_false]
        exact .closes h pc pc' hcall hphase hpc hiff
  · contradiction

theorem ownerMove_of_call {h : Holder} {op : Op} (hcall : o.calls h = .idle)
    (hs : o.call cfg p h op sh pr = (sh', pr', o')) :
    OwnerMove p sh' pr o pr' o' [] ∧ sh'.cmd = sh.cmd := by
  unfold Owner.call at hs
  split at hs
  · next hopens =>
      cases hs
      exact ⟨.begins h op hcall hopens, rfl⟩
  · split at hs
    · split at hs <;> cases hs
      · next hc =>
          obtain ⟨hsame, hcmd⟩ := consume_same hc
          exact ⟨.quiet _ hsame, hcmd⟩
      · exact ⟨.quiet _ .rfl, rfl⟩
    · cases hs
      exact ⟨.emptyWrite h hcall, rfl⟩
    · cases hs
      exact ⟨.quiet _ .rfl, rfl⟩

/-- The cases of an owner's step. -/
theorem ownerMove_of_step {a : OwnerAct} (hfree : o.mutex = none → pr.write = .idle)
    (hs : o.step cfg p a sh pr = some (sh', pr', o')) :
    ∃ sent, OwnerMove p sh' pr o pr' o' sent ∧ sh'.cmd.queue = sh.cmd.queue ++ sent := by
  cases a with
  | openBegin eh dh =>
      obtain ⟨⟨sh₁, pr₁⟩, hc, heq⟩ := Option.map_eq_some_iff.1 hs
      simp only [Prod.mk.injEq] at heq
      obtain ⟨rfl, rfl, rfl⟩ := heq
      obtain ⟨hfrom, hto, hwrite, hshut, hcmd⟩ := openBegin_cases hc
      exact ⟨[], .attempt _ hfrom hto hwrite hshut, by simp [hcmd]⟩
  | openStep =>
      obtain ⟨⟨sh₁, pr₁⟩, hc, heq⟩ := Option.map_eq_some_iff.1 hs
      simp only [Prod.mk.injEq] at heq
      obtain ⟨rfl, rfl, rfl⟩ := heq
      obtain ⟨hfrom, hwrite, hshut, hcmd, ⟨hgrant, hto⟩ | ⟨hne, hto⟩⟩ := openStep_cases hc
      · rw [if_pos hgrant]
        exact ⟨[], .grant _ hgrant hto hwrite hshut, by simp [hcmd]⟩
      · rw [if_neg hne]
        exact ⟨[], .attempt _ hfrom hto hwrite hshut, by simp [hcmd]⟩
  | split =>
      simp only [Owner.step] at hs
      split at hs
      · next hcall =>
          cases hs
          exact ⟨[], .split hcall, by simp⟩
      · contradiction
  | call h op =>
      simp only [Owner.step] at hs
      split at hs
      · next hcall =>
          obtain ⟨hmove, hcmd⟩ := ownerMove_of_call hcall.1 (Option.some.inj hs)
          exact ⟨[], hmove, by simp [hcmd]⟩
      · contradiction
  | proceed h => exact ownerMove_of_proceed hfree hs
  | permit =>
      simp only [Owner.step] at hs
      split at hs
      · next hidle =>
          obtain ⟨⟨sh₁, pr₁⟩, hc, heq⟩ := Option.map_eq_some_iff.1 hs
          simp only [Prod.mk.injEq] at heq
          obtain ⟨rfl, rfl, rfl⟩ := heq
          obtain ⟨hqueue, hsame | ⟨⟨buf, hw⟩, -, -⟩⟩ := writeReserve_cases hc
          · exact ⟨[], .quiet _ hsame, by simp [hqueue]⟩
          · rw [hidle.2] at hw
            contradiction
      · contradiction
  | drop h =>
      simp only [Owner.step] at hs
      split at hs
      · next hcall =>
          cases hs
          exact ⟨[], .drops h hcall, by simp⟩
      · contradiction
  | dropNext h => exact ownerMove_of_dropNext hs

end

/-! ## Streams and guards -/

/-- The open state and the phase of the pair say the same: while the stream is
not open, an armed release guard holds the slot. -/
def OpenState.Agrees : OpenState → PairPhase → Prop
  | .none, phase => phase.ungranted = true
  | .unopened true g, phase => g = some .new ∧ phase = .unopened
  | .unopened false g, phase => g = some .new ∧ (phase = .realizing ∨ phase = .broken)
  | .opened, phase => phase = .opened
  | .closing, phase => ∃ pc, phase = .dropping pc
  | .gone, phase => phase = .dropped

/-- The stream can be used. -/
def OpenState.alive : OpenState → Bool
  | .unopened _ _ => true
  | .opened => true
  | _ => false

namespace CallPc

/-- What a call has found out about the open state, and whether it has exclusive
access to it. -/
def Ok (state : OpenState) (mutex : Option Holder) (h : Holder) : CallPc → Prop
  | .absent => True
  | .idle => state.alive = true
  | .ensuring _ => state.alive = true
  | .dropping _ => state.alive = true
  | .realizing _ => state.alive = true ∧ mutex = some h
  | .body _ => state = .opened
  | .writing _ => state = .opened ∧ mutex = some h
  | .finishing => state = .opened ∧ mutex = some h
  | .closing => state = .closing

/-- Where the pair stands under a call with exclusive access. -/
def Accesses (pr : Pair) : CallPc → Prop
  | .realizing _ => pr.phase = .realizing ∧ pr.write = .idle
  | .writing buf => pr.phase = .opened ∧ pr.write.From buf
  | .finishing => pr.phase = .opened ∧ pr.write = .idle
  | _ => False

/-- The call needs nothing but its holder. -/
def plain : CallPc → Bool
  | .idle => true
  | .ensuring _ => true
  | .dropping _ => true
  | _ => false

theorem Ok.of_plain {state : OpenState} {mutex : Option Holder} {h : Holder} {c : CallPc}
    (hc : c.plain = true) (hstate : state.alive = true) : c.Ok state mutex h := by
  cases c <;> first | contradiction | exact hstate

theorem ne_absent_of_plain {c : CallPc} (hc : c.plain = true) : c ≠ .absent := by
  cases c <;> simp_all [plain]

/-- The other holders do not notice that the mutex is taken or released. -/
theorem Ok.other {state : OpenState} {mutex m : Option Holder} {h i : Holder} {c : CallPc}
    (hc : c.Ok state mutex i) (hi : i ≠ h) (hm : mutex = none ∨ mutex = some h) :
    c.Ok state m i := by
  have hnot : mutex ≠ some i := by
    rcases hm with rfl | rfl
    · simp
    · simpa using hi.symm
  cases c with
  | realizing op => exact absurd hc.2 hnot
  | writing buf => exact absurd hc.2 hnot
  | finishing => exact absurd hc.2 hnot
  | _ => exact hc

/-- A call that is there belongs to a stream that is there. -/
theorem Ok.alive {state : OpenState} {mutex : Option Holder} {h : Holder} {c : CallPc}
    (hc : c.Ok state mutex h) (hpresent : c ≠ .absent) (hclosing : c ≠ .closing) :
    state.alive = true := by
  cases c with
  | absent => contradiction
  | closing => contradiction
  | realizing op => exact hc.1
  | body op =>
      rw [show state = .opened from hc]
      rfl
  | writing buf =>
      rw [hc.1]
      rfl
  | finishing =>
      rw [hc.1]
      rfl
  | _ => exact hc

theorem Accesses.ne {pr : Pair} {c : CallPc} (hc : c.Accesses pr) :
    c ≠ .absent ∧ c ≠ .closing := by
  cases c <;> first | exact hc.elim | simp

end CallPc

namespace Owner

/-- Who has exclusive access, and where the pair stands meanwhile. -/
def Access (o : Owner) (pr : Pair) : Prop :=
  match o.mutex with
  | none => pr.write = .idle ∧ pr.phase ≠ .realizing
  | some h => (o.calls h).Accesses pr

/-- The holders there are. -/
def holders (o : Owner) : Nat :=
  [Holder.stream, .data, .error].countP fun h => o.calls h ≠ .absent

/-- An unsplit stream has no halves. -/
def Whole (o : Owner) : Prop :=
  o.calls .stream ≠ .absent → o.calls .data = .absent ∧ o.calls .error = .absent

end Owner

/-- How often the slot of the pair has been released. -/
def PairPhase.releases : PairPhase → Nat
  | .dropping .releaseCtrlData => 1
  | .dropped => 1
  | _ => 0

structure OwnerInv (o : Owner) (pr : Pair) : Prop where
  state : o.state.Agrees pr.phase
  calls : ∀ h, (o.calls h).Ok o.state o.mutex h
  access : o.Access pr
  closing : o.state = .closing → o.refs = 1
  refs : o.refs = o.holders
  whole : o.Whole
  released : o.released = pr.phase.releases

theorem ownerInv_init : OwnerInv {} {} where
  state := rfl
  calls := fun _ => trivial
  access := ⟨rfl, by simp⟩
  closing := by simp
  refs := by simp [Owner.holders]
  whole := fun h => absurd rfl h
  released := rfl

section

variable {o : Owner} {pr pr' : Pair} {h i : Holder} {c : CallPc}

theorem setCall_self : (o.setCall h c).calls h = c := by
  simp [Owner.setCall]

theorem setCall_other (hi : i ≠ h) : (o.setCall h c).calls i = o.calls i := by
  simp [Owner.setCall, hi]

theorem holders_setCall (hfrom : o.calls h ≠ .absent) (hc : c ≠ .absent) :
    (o.setCall h c).holders = o.holders := by
  cases h <;> simp [Owner.holders, Owner.setCall, Function.update, hfrom, hc, List.countP_cons]

theorem holders_drop (hfrom : o.calls h ≠ .absent) :
    (o.setCall h .absent).holders + 1 = o.holders := by
  cases h <;> simp [Owner.holders, Owner.setCall, Function.update, hfrom, List.countP_cons] <;>
    omega

theorem Owner.Whole.setCall (hI : o.Whole) (hfrom : o.calls h ≠ .absent) :
    (o.setCall h c).Whole := by
  intro hstream
  cases h with
  | stream =>
      rw [setCall_other (by simp), setCall_other (by simp)]
      exact hI hfrom
  | data =>
      rw [setCall_other (by simp)] at hstream
      exact absurd (hI hstream).1 hfrom
  | error =>
      rw [setCall_other (by simp)] at hstream
      exact absurd (hI hstream).2 hfrom

/-- A fact about every call is checked for the one that changes and for the
others. -/
theorem forall_setCall {Q : CallPc → Holder → Prop} (hc : Q c h)
    (hother : ∀ i, i ≠ h → Q (o.calls i) i) : ∀ i, Q ((o.setCall h c).calls i) i := by
  intro i
  by_cases hi : i = h
  · subst hi
    rw [setCall_self]
    exact hc
  · rw [setCall_other hi]
    exact hother i hi

/-- The last holder is alone. -/
theorem OwnerInv.alone (hI : OwnerInv o pr) (hrefs : o.refs = 1) (hfrom : o.calls h ≠ .absent)
    (hi : i ≠ h) : o.calls i = .absent := by
  have hzero : (o.setCall h .absent).holders = 0 := by
    have hdrop := holders_drop hfrom
    have hcount := hI.refs
    omega
  have habsent := List.countP_eq_zero.1 hzero i (by cases i <;> simp)
  rw [setCall_other hi] at habsent
  simpa using habsent

theorem Owner.Access.of_none (hmutex : o.mutex = none)
    (hpr : pr.write = .idle ∧ pr.phase ≠ .realizing) : o.Access pr := by
  rw [Owner.Access, hmutex]
  exact hpr

theorem Owner.Access.of_some (hmutex : o.mutex = some h) (hcall : (o.calls h).Accesses pr) :
    o.Access pr := by
  rw [Owner.Access, hmutex]
  exact hcall

/-- While nobody has exclusive access, nothing is being written. -/
theorem OwnerInv.free (hI : OwnerInv o pr) (hmutex : o.mutex = none) :
    pr.write = .idle ∧ pr.phase ≠ .realizing := by
  have haccess := hI.access
  rw [Owner.Access, hmutex] at haccess
  exact haccess

/-- A call with exclusive access is the one the mutex names. -/
theorem OwnerInv.accesses (hI : OwnerInv o pr) (hmutex : o.mutex = some h) :
    (o.calls h).Accesses pr := by
  have haccess := hI.access
  rw [Owner.Access, hmutex] at haccess
  exact haccess

theorem Pair.Same.accesses (hsame : pr.Same pr') (hc : c.Accesses pr) : c.Accesses pr' := by
  cases c <;> simp only [CallPc.Accesses, hsame.phase, hsame.write] at hc ⊢ <;> exact hc

/-- A step that concerns neither the calls nor the open state. -/
theorem OwnerInv.same (hI : OwnerInv o pr) (hsame : pr.Same pr') : OwnerInv o pr' where
  state := by
    rw [hsame.phase]
    exact hI.state
  calls := hI.calls
  access := by
    cases hm : o.mutex with
    | none =>
        apply Owner.Access.of_none hm
        rw [hsame.write, hsame.phase]
        exact hI.free hm
    | some i => exact .of_some hm (hsame.accesses (hI.accesses hm))
  closing := hI.closing
  refs := hI.refs
  whole := hI.whole
  released := by
    rw [hsame.phase]
    exact hI.released

/-- A call without exclusive access goes on without it. -/
theorem OwnerInv.goto (hI : OwnerInv o pr)
    (hfrom : o.calls h ≠ .absent ∧ o.calls h ≠ .closing)
    (hshared : ∀ pr, ¬ (o.calls h).Accesses pr) (hc : c.plain = true) :
    OwnerInv (o.setCall h c) pr where
  state := hI.state
  calls := forall_setCall (Q := fun c i => c.Ok o.state o.mutex i)
    (.of_plain hc ((hI.calls h).alive hfrom.1 hfrom.2)) fun i _ => hI.calls i
  access := by
    cases hm : o.mutex with
    | none => exact .of_none hm (hI.free hm)
    | some i =>
        have haccess := hI.accesses hm
        have hi : i ≠ h := by
          rintro rfl
          exact hshared pr haccess
        refine .of_some hm ?_
        rw [setCall_other hi]
        exact haccess
  closing := hI.closing
  refs := by
    rw [holders_setCall hfrom.1 (CallPc.ne_absent_of_plain hc)]
    exact hI.refs
  whole := hI.whole.setCall hfrom.1
  released := hI.released

/-- A call takes exclusive access. -/
theorem OwnerInv.take (hI : OwnerInv o pr) (hmutex : o.mutex = none)
    (hfrom : o.calls h ≠ .absent) (hpresent : c ≠ .absent)
    (hstate : o.state.Agrees pr'.phase) (hok : c.Ok o.state (some h) h)
    (haccess : c.Accesses pr') (hreleased : pr'.phase.releases = pr.phase.releases) :
    OwnerInv { o.setCall h c with mutex := some h } pr' where
  state := hstate
  calls := forall_setCall (Q := fun c i => c.Ok o.state (some h) i) hok
    fun i hi => (hI.calls i).other hi (.inl hmutex)
  access := by
    show ((o.setCall h c).calls h).Accesses pr'
    rw [setCall_self]
    exact haccess
  closing := hI.closing
  refs := by
    show o.refs = (o.setCall h c).holders
    rw [holders_setCall hfrom hpresent]
    exact hI.refs
  whole := hI.whole.setCall hfrom
  released := by
    rw [hreleased]
    exact hI.released

/-- A call with exclusive access returns. -/
theorem OwnerInv.leave (hI : OwnerInv o pr) (hmutex : o.mutex = some h)
    (hstate : o.state.Agrees pr'.phase) (hidle : pr'.write = .idle)
    (hphase : pr'.phase ≠ .realizing) (hreleased : pr'.phase.releases = pr.phase.releases) :
    OwnerInv (o.leave h) pr' := by
  obtain ⟨hfrom, hnot⟩ := (hI.accesses hmutex).ne
  have halive := (hI.calls h).alive hfrom hnot
  refine ⟨hstate, ?_, ⟨hidle, hphase⟩, hI.closing, ?_, hI.whole.setCall hfrom,
    hreleased ▸ hI.released⟩
  · exact forall_setCall (c := .idle) (Q := fun c i => c.Ok o.state none i) halive
      fun i hi => (hI.calls i).other hi (.inr hmutex)
  · show o.refs = (o.setCall h .idle).holders
    rw [holders_setCall hfrom (by simp)]
    exact hI.refs

/-- Before the grant there is no stream. -/
theorem OwnerInv.unborn (hI : OwnerInv o pr) (hphase : pr.phase.ungranted = true) :
    o.state = .none ∧ o.mutex = none := by
  have hstate : o.state = .none := by
    have hagrees := hI.state
    cases hs : o.state with
    | none => rfl
    | unopened pendingTx g =>
        rw [hs] at hagrees
        cases pendingTx with
        | true =>
            rw [hagrees.2] at hphase
            contradiction
        | false => rcases hagrees.2 with heq | heq <;> rw [heq] at hphase <;> contradiction
    | opened =>
        rw [hs] at hagrees
        rw [show pr.phase = .opened from hagrees] at hphase
        contradiction
    | closing =>
        rw [hs] at hagrees
        obtain ⟨pc, heq⟩ := hagrees
        rw [heq] at hphase
        contradiction
    | gone =>
        rw [hs] at hagrees
        rw [show pr.phase = .dropped from hagrees] at hphase
        contradiction
  refine ⟨hstate, ?_⟩
  cases hm : o.mutex with
  | none => rfl
  | some h =>
      obtain ⟨hfrom, hnot⟩ := (hI.accesses hm).ne
      have halive := (hI.calls h).alive hfrom hnot
      rw [hstate] at halive
      contradiction

theorem PairPhase.releases_of_ungranted {phase : PairPhase} (h : phase.ungranted = true) :
    phase.releases = 0 ∧ phase ≠ .realizing := by
  cases phase <;> simp_all [PairPhase.ungranted, PairPhase.releases]

/-- A holder lets go of the open state. -/
theorem OwnerInv.absent (hI : OwnerInv o pr) (hcall : o.calls h = .dropping []) :
    OwnerInv { o.setCall h .absent with refs := o.refs - 1 } pr := by
  have hfrom : o.calls h ≠ .absent := by simp [hcall]
  refine ⟨hI.state, ?_, ?_, fun hclosing => ?_, ?_, hI.whole.setCall hfrom, hI.released⟩
  · exact forall_setCall (Q := fun c i => c.Ok o.state o.mutex i) trivial fun i _ => hI.calls i
  · cases hm : o.mutex with
    | none => exact .of_none hm (hI.free hm)
    | some i =>
        have haccess := hI.accesses hm
        have hi : i ≠ h := by
          rintro rfl
          rw [hcall] at haccess
          exact haccess
        refine .of_some hm ?_
        show ((o.setCall h .absent).calls i).Accesses pr
        rw [setCall_other hi]
        exact haccess
  · have halive := (hI.calls h).alive hfrom (by simp [hcall])
    rw [show o.state = .closing from hclosing] at halive
    contradiction
  · show o.refs - 1 = (o.setCall h .absent).holders
    have hdrop := holders_drop hfrom
    have hrefs := hI.refs
    omega

/-- The holder `h` is the last one and is not in a call, so nobody has access. -/
theorem OwnerInv.unaccessed (hI : OwnerInv o pr) (hrefs : o.refs = 1)
    (hcall : o.calls h ≠ .absent) (hshared : ∀ pr, ¬ (o.calls h).Accesses pr) :
    o.mutex = none := by
  cases hm : o.mutex with
  | none => rfl
  | some i =>
      have haccess := hI.accesses hm
      by_cases hi : i = h
      · subst hi
        exact absurd haccess (hshared pr)
      · rw [hI.alone hrefs hcall hi] at haccess
        exact haccess.elim

/-- The last holder and the open state are gone. -/
theorem OwnerInv.last (hI : OwnerInv o pr) (hrefs : o.refs = 1) (hcall : o.calls h ≠ .absent)
    (hshared : ∀ pr, ¬ (o.calls h).Accesses pr) {released : Nat} (hreleased : released = 1) :
    OwnerInv { o.setCall h .absent with refs := 0, state := .gone, released := released }
      { pr with phase := .dropped } := by
  have hmutex := hI.unaccessed hrefs hcall hshared
  refine ⟨rfl, ?_, ?_, by simp, ?_, hI.whole.setCall hcall, hreleased⟩
  · exact forall_setCall (Q := fun c i => c.Ok .gone o.mutex i) trivial fun i hi => by
      rw [hI.alone hrefs hcall hi]
      trivial
  · exact .of_none hmutex ⟨(hI.free hmutex).1, by simp⟩
  · show 0 = (o.setCall h .absent).holders
    have hdrop := holders_drop hcall
    have hcount := hI.refs
    omega

/-- A call that found the stream open. -/
theorem OwnerInv.opened_of_body {op : Op} (hI : OwnerInv o pr) (hcall : o.calls h = .body op) :
    o.state = .opened ∧ pr.phase = .opened := by
  have hok := hI.calls h
  rw [hcall] at hok
  have hstate : o.state = .opened := hok
  have hagrees := hI.state
  rw [hstate] at hagrees
  exact ⟨hstate, hagrees⟩

theorem OwnerInv.opened_of_writing {buf : Bytes} (hI : OwnerInv o pr)
    (hcall : o.calls h = .writing buf) :
    o.state = .opened ∧ o.mutex = some h ∧ pr.phase = .opened ∧ pr.write.From buf := by
  have hok := hI.calls h
  rw [hcall] at hok
  have haccess := hI.accesses hok.2
  rw [hcall] at haccess
  exact ⟨hok.1, hok.2, haccess.1, haccess.2⟩

theorem OwnerInv.opened_of_finishing (hI : OwnerInv o pr) (hcall : o.calls h = .finishing) :
    o.state = .opened ∧ o.mutex = some h ∧ pr.phase = .opened := by
  have hok := hI.calls h
  rw [hcall] at hok
  have haccess := hI.accesses hok.2
  rw [hcall] at haccess
  exact ⟨hok.1, hok.2, haccess.1⟩

/-- A write returns. -/
theorem OwnerInv.leaveWrite {buf : Bytes} (hI : OwnerInv o pr) (hcall : o.calls h = .writing buf)
    (hsame : pr.Same { pr' with write := pr.write }) (hidle : pr'.write = .idle) :
    OwnerInv (o.leave h) pr' := by
  obtain ⟨hstate, hmutex, hphase, -⟩ := hI.opened_of_writing hcall
  have hphase' : pr'.phase = .opened := hsame.phase.trans hphase
  refine hI.leave hmutex ?_ hidle (by simp [hphase']) (by rw [hphase', hphase])
  rw [hstate, hphase']
  rfl

/-- Every step of an owner keeps streams, guards and phases in agreement. -/
theorem OwnerMove.ownerInv {p : Nat} {sh : Shared} {o' : Owner} {sent : List MuxCommand}
    (hmove : OwnerMove p sh pr o pr' o' sent) (hI : OwnerInv o pr) : OwnerInv o' pr' := by
  cases hmove with
  | attempt pr' hfrom hto hwrite hshut =>
      obtain ⟨hstate, hmutex⟩ := hI.unborn hfrom
      obtain ⟨hzero, -⟩ := PairPhase.releases_of_ungranted hfrom
      obtain ⟨hzero', hne⟩ := PairPhase.releases_of_ungranted hto
      refine ⟨?_, hI.calls, .of_none hmutex ⟨?_, hne⟩, hI.closing, hI.refs, hI.whole, ?_⟩
      · rw [hstate]
        exact hto
      · rw [hwrite]
        exact (hI.free hmutex).1
      · rw [hzero', ← hzero]
        exact hI.released
  | grant pr' hfrom hto hwrite hshut =>
      obtain ⟨-, hmutex⟩ := hI.unborn (by rw [hfrom]; rfl)
      refine ⟨⟨rfl, hto⟩, ?_, .of_none rfl ⟨?_, by simp [hto]⟩, fun _ => rfl, rfl, ?_,
        by rw [hto]; rfl⟩
      · intro i
        cases i <;> simp [Owner.granted, CallPc.Ok, OpenState.alive]
      · rw [hwrite]
        exact (hI.free hmutex).1
      · intro _
        exact ⟨rfl, rfl⟩
  | split hcall =>
      have hfrom : o.calls .stream ≠ .absent := by simp [hcall]
      obtain ⟨hdata, herror⟩ := hI.whole hfrom
      have halive := (hI.calls .stream).alive hfrom (by simp [hcall])
      have hmutex : o.mutex = none := by
        refine hI.unaccessed ?_ hfrom (by simp [hcall, CallPc.Accesses])
        rw [hI.refs]
        simp [Owner.holders, hfrom, hdata, herror]
      refine ⟨hI.state, ?_, .of_none hmutex (hI.free hmutex), fun hclosing => ?_, ?_, ?_,
        hI.released⟩
      · intro i
        cases i
        · trivial
        · exact halive
        · exact halive
      · rw [show o.state = .closing from hclosing] at halive
        contradiction
      · simp [Owner.split, Owner.holders]
      · intro hstream
        exact absurd rfl hstream
  | begins h op hcall hopens =>
      have hgoto := hI.goto (h := h) (c := .ensuring op) (by simp [hcall])
        (by simp [hcall, CallPc.Accesses]) rfl
      exact ⟨hgoto.state, hgoto.calls, hgoto.access, hgoto.closing, hgoto.refs, hgoto.whole,
        hgoto.released⟩
  | emptyWrite h hcall =>
      exact ⟨hI.state, hI.calls, hI.access, hI.closing, hI.refs, hI.whole, hI.released⟩
  | quiet pr' hsame => exact hI.same hsame
  | ends pr' h op hcall hsame =>
      exact (hI.same hsame).goto (by simp [hcall]) (by simp [hcall, CallPc.Accesses]) rfl
  | writeBegins h buf hcall hmutex hidle hshut =>
      obtain ⟨hstate, hphase⟩ := hI.opened_of_body hcall
      exact hI.take hmutex (by simp [hcall]) (by simp) hI.state ⟨hstate, rfl⟩ ⟨hphase, rfl⟩ rfl
  | writesOn pr' h buf hcall hsame hbusy hfrom =>
      obtain ⟨hstate, hmutex, hphase, hbuf⟩ := hI.opened_of_writing hcall
      have hphase' : pr'.phase = .opened := hsame.phase.trans hphase
      refine ⟨?_, hI.calls, .of_some hmutex ?_, hI.closing, hI.refs, hI.whole, ?_⟩
      · rw [hstate, hphase']
        rfl
      · rw [hcall]
        exact ⟨hphase', hfrom buf hbuf⟩
      · rw [hphase', ← hphase]
        exact hI.released
  | writeEnds pr' h buf hcall hsame hidle => exact hI.leaveWrite hcall hsame hidle
  | writeSent pr' h buf payload hcall hwrite hsame hidle =>
      have hleave := hI.leaveWrite hcall hsame hidle
      exact ⟨hleave.state, hleave.calls, hleave.access, hleave.closing, hleave.refs, hleave.whole,
        hleave.released⟩
  | reserves pr' h hcall hmutex hsame =>
      obtain ⟨hstate, hphase⟩ := hI.opened_of_body hcall
      exact (hI.same hsame).take hmutex (by simp [hcall]) (by simp) (hI.same hsame).state
        ⟨hstate, rfl⟩ ⟨by rw [hsame.phase, hphase], by rw [hsame.write, (hI.free hmutex).1]⟩ rfl
  | shuts pr' h hcall hpr hidle hshut =>
      subst hpr
      obtain ⟨-, hmutex, hphase⟩ := hI.opened_of_finishing hcall
      exact hI.leave hmutex hI.state hidle (by simp [hphase]) rfl
  | drops h hcall =>
      exact hI.goto (by simp [hcall]) (by simp [hcall, CallPc.Accesses]) rfl
  | dropsReceiver h kind todo hcall hclosed =>
      exact hI.goto (by simp [hcall]) (by simp [hcall, CallPc.Accesses]) rfl
  | dropsRef h hcall hrefs => exact hI.absent hcall
  | dropsUnopened h pendingTx g hcall hrefs hstate =>
      have hagrees := hI.state
      rw [hstate] at hagrees
      have hguard : g = some .new ∧ pr.phase.releases = 0 := by
        cases pendingTx with
        | true =>
            rw [hagrees.2]
            exact ⟨hagrees.1, rfl⟩
        | false => rcases hagrees.2 with heq | heq <;> rw [heq] <;> exact ⟨hagrees.1, rfl⟩
      refine hI.last hrefs (by simp [hcall]) (by simp [hcall, CallPc.Accesses]) ?_
      rw [hI.released, hguard.2, hguard.1]
      rfl
  | dropsOpened pr' h hcall hrefs hstate hpr =>
      have hfrom : o.calls h ≠ .absent := by simp [hcall]
      have hphase : pr.phase = .opened := by
        have hagrees := hI.state
        rw [hstate] at hagrees
        exact hagrees
      obtain ⟨hidle, rfl⟩ := hpr hphase
      have hmutex := hI.unaccessed hrefs hfrom (by simp [hcall, CallPc.Accesses])
      refine ⟨⟨_, rfl⟩, ?_, .of_none hmutex ⟨hidle, by simp⟩, fun _ => hrefs, ?_,
        hI.whole.setCall hfrom, ?_⟩
      · refine forall_setCall (Q := fun c i => c.Ok .closing o.mutex i) rfl fun i hi => ?_
        rw [hI.alone hrefs hfrom hi]
        trivial
      · show o.refs = (o.setCall h .closing).holders
        rw [holders_setCall hfrom (by simp)]
        exact hI.refs
      · show o.released = 0
        rw [hI.released, hphase]
        rfl
  | closes h pc pc' hcall hphase hpc hreleases =>
      have hstate : o.state = .closing := by
        have hok := hI.calls h
        rw [hcall] at hok
        exact hok
      have hmutex := hI.unaccessed (h := h) (hI.closing hstate) (by simp [hcall])
        (by simp [hcall, CallPc.Accesses])
      refine ⟨?_, hI.calls, .of_none hmutex ⟨(hI.free hmutex).1, by simp⟩, hI.closing, hI.refs,
        hI.whole, ?_⟩
      · rw [hstate]
        exact ⟨_, rfl⟩
      · show o.released + Owner.releases pr = PairPhase.releases (.dropping pc')
        rw [hI.released, Owner.releases, hphase]
        cases pc <;> cases pc' <;> simp_all [PairPhase.releases]
  | closed h hcall hphase =>
      have hstate : o.state = .closing := by
        have hok := hI.calls h
        rw [hcall] at hok
        exact hok
      refine hI.last (hI.closing hstate) (by simp [hcall]) (by simp [hcall, CallPc.Accesses]) ?_
      show o.released = 1
      rw [hI.released, hphase]
      rfl

end

end KubePortForward.Mux

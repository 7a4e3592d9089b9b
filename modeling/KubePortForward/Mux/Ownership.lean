import KubePortForward.Mux.SynOrder

/-!
# Who owns which stream id

Ids are handed out once, in pairs, and stay with the pair they were allocated
to.  A pair that its owner can use has had both of its `Open` registrations
enqueued; a realization that is under way knows which of the two it has
enqueued already.

## Main results

* `ownership_invariant` — ids are allocated once, and only ids below the
  counter were ever registered.
* `Ownership.idOf_inj` — two halves with the same id are the same half.
-/

namespace KubePortForward.Mux

open KubePortForward.Codec
open KubePortForward.Verified.Channel
open KubePortForward.Verified.Transition

/-- The pair has not been realized yet. -/
def PairPhase.fresh : PairPhase → Bool
  | .absent => true
  | .checkOperating _ => true
  | .checkHard _ => true
  | .undo => true
  | .granting => true
  | .refused => true
  | .unopened => true
  | _ => false

/-- The pair was realized with success; its guard exists or is running. -/
def PairPhase.guarded : PairPhase → Bool
  | .opened => true
  | .dropping _ => true
  | _ => false

/-- The realization has enqueued the `Open` of the error stream. -/
def RealizePc.errorRegistered : RealizePc → Bool
  | .loadErrorWindow => false
  | .loadDataWindow => false
  | .registerError => false
  | _ => true

/-- The realization has enqueued the `Open` of the data stream. -/
def RealizePc.dataRegistered : RealizePc → Bool
  | .loadErrorWindow => false
  | .loadDataWindow => false
  | .registerError => false
  | .registerData => false
  | .cleanupErrorOnly => false
  | _ => true

/-! ## What a step does to the pair it moves -/

/-- An owner never changes the ids, and only takes a pair forward. -/
theorem client_pair {cfg : MuxConfig} {p : Nat} {a : ClientAct} {sh sh' : Shared}
    {pr pr' : Pair} (h : clientStep cfg p a sh pr = some (sh', pr')) :
    pr'.errorId = pr.errorId ∧ pr'.dataId = pr.dataId ∧
      (pr'.phase = .realizing ↔ pr.phase = .realizing) ∧
      (pr'.phase.guarded = true → pr.phase.guarded = true) ∧
      (pr'.phase.fresh = true → pr.phase.fresh = true) ∧
      ((pr.write ≠ .idle → pr.phase = .opened) →
        pr'.write ≠ .idle → pr'.phase = .opened) := by
  cases a <;>
    simp only [clientStep, Pair.openBegin, Pair.openStep, Pair.read, Pair.fillBuf,
      Pair.consume, Pair.writeBegin, Pair.writeReserve, Pair.writePick,
      Pair.writeRecheck, Pair.writeDebit, Pair.writeSend, Pair.shutdown,
      Pair.dropReceiver, Pair.dropRest, Pair.dropStep, Shared.sendReservedClose] at h <;>
    (repeat' split at h) <;>
    first
    | contradiction
    | simp only [Option.map_eq_some_iff, Option.some.injEq, Prod.mk.injEq] at h
      grind [PairPhase.fresh, PairPhase.guarded]

/-- A realization leaves its pair alone until it ends, as `opened` after the
last reservation and as `broken` otherwise. -/
theorem realizeStep_pair {z : Realize} {sh sh' : Shared} {pr pr' : Pair}
    {z' : Option Realize} (h : z.step sh pr = (sh', pr', z')) :
    (pr' = pr ∧ ∃ y, z' = some y) ∨ (pr' = { pr with phase := .broken } ∧ z' = none) ∨
      (pr' = { pr with phase := .opened } ∧ z' = none ∧ z.pc = .reserveCloseData) := by
  unfold Realize.step at h
  cases hz : z.pc <;> simp only [hz] at h <;> (repeat' split at h) <;> cases h <;> simp

/-- The two registrations are enqueued in turn. -/
theorem realizeStep_openLog {z : Realize} {sh sh' : Shared} {pr pr' : Pair}
    {z' : Option Realize} (h : z.step sh pr = (sh', pr', z')) :
    (sh'.history.openLog = sh.history.openLog ∧
      ∀ y, z' = some y → y.pc.errorRegistered = z.pc.errorRegistered ∧
        y.pc.dataRegistered = z.pc.dataRegistered) ∨
    (z.pc = .registerError ∧ z' = some { z with pc := .registerData } ∧
      sh'.history.openLog = sh.history.openLog ++ [z.errorId]) ∨
    (z.pc = .registerData ∧ z' = some { z with pc := .enqueueOpen } ∧
      sh'.history.openLog = sh.history.openLog ++ [z.dataId]) := by
  unfold Realize.step at h
  cases hz : z.pc <;>
    simp only [hz, Shared.sendOpen, Shared.releaseHeld, Shared.sendCloseOrDrop,
      Shared.sendClose] at h <;>
    (repeat' split at h) <;> cases h <;>
    grind [Shared.updChan, Shared.updWindow, Shared.dropTx, Shared.setCloseReg,
      Shared.setReg, Shared.dropPairTx, RealizePc.errorRegistered, RealizePc.dataRegistered]

theorem realizeBegin_pair {p : Nat} {sh sh' : Shared} {pr pr' : Pair}
    {z : Option Realize} (h : realizeBegin p sh pr = (sh', pr', z)) :
    sh'.history = sh.history ∧
    ((pr' = { pr with phase := .broken } ∧ z = none) ∨
      ∃ y, z = some y ∧
        pr' = { pr with phase := .realizing, errorId := y.errorId, dataId := y.dataId }) := by
  simp only [realizeBegin] at h
  (repeat' split at h) <;> cases h
  · exact ⟨rfl, .inl ⟨rfl, rfl⟩⟩
  · exact ⟨rfl, .inl ⟨rfl, rfl⟩⟩
  · exact ⟨rfl, .inr ⟨_, rfl, rfl⟩⟩

/-! ## The invariant -/

structure Ownership (s : MuxState) : Prop where
  /-- Allocated ids are a pair below the counter. -/
  ids : ∀ p, (s.pairs p).errorId ≠ 0 →
    (s.pairs p).errorId.toNat % 4 = 1 ∧
      (s.pairs p).dataId.toNat = (s.pairs p).errorId.toNat + 2 ∧
      (s.pairs p).errorId.toNat + 4 ≤ s.shared.nextStreamId.toNat
  /-- An id is allocated once. -/
  once : ∀ p q, (s.pairs p).errorId ≠ 0 → (s.pairs p).errorId = (s.pairs q).errorId → p = q
  fresh : ∀ p, (s.pairs p).phase.fresh = true → (s.pairs p).errorId = 0
  realizing : ∀ z, s.realizing = some z → (s.pairs z.pair).phase = .realizing ∧
    (s.pairs z.pair).errorId = z.errorId ∧ (s.pairs z.pair).dataId = z.dataId
  inProgress : ∀ p, (s.pairs p).phase = .realizing → ∃ z, s.realizing = some z ∧ z.pair = p
  /-- Only allocated ids were ever registered. -/
  registered : ∀ id ∈ s.shared.history.openLog, id.toNat < s.shared.nextStreamId.toNat
  guarded : ∀ p, (s.pairs p).phase.guarded = true →
    (s.pairs p).errorId ≠ 0 ∧ (s.pairs p).errorId ∈ s.shared.history.openLog ∧
      (s.pairs p).dataId ∈ s.shared.history.openLog
  progress : ∀ z, s.realizing = some z →
    (z.errorId ∈ s.shared.history.openLog ↔ z.pc.errorRegistered = true) ∧
      (z.dataId ∈ s.shared.history.openLog ↔ z.pc.dataRegistered = true)
  /-- Only an opened pair is in the middle of a write. -/
  writing : ∀ p, (s.pairs p).write ≠ .idle → (s.pairs p).phase = .opened

theorem ownership_init (cfg : MuxConfig) : Ownership (MuxState.init cfg) := by
  constructor <;> simp [MuxState.init, Shared.init, PairPhase.guarded]

/-- A step that keeps the counter, the registrations and every pair's ids, and
takes no pair back, keeps the invariant. -/
theorem Ownership.of_pairs {s s' : MuxState} (hI : Ownership s)
    (hnext : s'.shared.nextStreamId = s.shared.nextStreamId)
    (hlog : s'.shared.history.openLog = s.shared.history.openLog)
    (hreal : s'.realizing = s.realizing)
    (hpairs : ∀ p, (s'.pairs p).errorId = (s.pairs p).errorId ∧
      (s'.pairs p).dataId = (s.pairs p).dataId ∧
      ((s'.pairs p).phase = .realizing ↔ (s.pairs p).phase = .realizing) ∧
      ((s'.pairs p).phase.guarded = true → (s.pairs p).phase.guarded = true) ∧
      ((s'.pairs p).phase.fresh = true → (s.pairs p).phase.fresh = true) ∧
      (((s.pairs p).write ≠ .idle → (s.pairs p).phase = .opened) →
        (s'.pairs p).write ≠ .idle → (s'.pairs p).phase = .opened)) :
    Ownership s' where
  ids := by
    intro p hp
    obtain ⟨herr, hdata, -⟩ := hpairs p
    rw [herr] at hp
    rw [herr, hdata, hnext]
    exact hI.ids p hp
  once := by
    intro p q hp hpq
    rw [(hpairs p).1] at hp
    rw [(hpairs p).1, (hpairs q).1] at hpq
    exact hI.once p q hp hpq
  fresh := by
    intro p hp
    rw [(hpairs p).1]
    exact hI.fresh p ((hpairs p).2.2.2.2.1 hp)
  realizing := by
    intro z hz
    obtain ⟨herr, hdata, hphase, -⟩ := hpairs z.pair
    rw [herr, hdata, hphase]
    exact hI.realizing z (hreal ▸ hz)
  inProgress := by
    intro p hp
    rw [hreal]
    exact hI.inProgress p ((hpairs p).2.2.1.1 hp)
  registered := by
    rw [hlog, hnext]
    exact hI.registered
  guarded := by
    intro p hp
    obtain ⟨herr, hdata, -, hguard, -⟩ := hpairs p
    rw [herr, hdata, hlog]
    exact hI.guarded p (hguard hp)
  progress := by
    rw [hlog, hreal]
    exact hI.progress
  writing p := (hpairs p).2.2.2.2.2 (hI.writing p)

/-- Allocation: the two ids are above every id that exists. -/
theorem Ownership.allocate {s : MuxState} {p : Nat} {sh : Shared} {pr : Pair}
    {z : Option Realize} (hI : Ownership s) (hO : SynOrder s) (hnone : s.realizing = none)
    (hphase : (s.pairs p).phase = .unopened)
    (h : realizeBegin p s.shared (s.pairs p) = (sh, pr, z)) :
    Ownership { s with
      shared := sh, pairs := Function.update s.pairs p pr, realizing := z } := by
  obtain ⟨hhist, hpair⟩ := realizeBegin_pair h
  have hzero := hI.fresh p (by rw [hphase]; rfl)
  have hquiet : (s.pairs p).write = .idle := by
    by_contra hw
    have := hI.writing p hw
    rw [hphase] at this
    contradiction
  have hidle : ∀ q, (s.pairs q).phase ≠ .realizing := by
    intro q hq
    obtain ⟨y, hy, -⟩ := hI.inProgress q hq
    rw [hnone] at hy
    contradiction
  obtain ⟨rfl, rfl⟩ | ⟨y, rfl, rfl⟩ := hpair
  · refine hI.of_pairs (realizeBegin_refused h) (by rw [hhist]) hnone.symm fun q => ?_
    by_cases hq : q = p
    · subst hq
      simp [hphase, hquiet, PairPhase.guarded, PairPhase.fresh]
    · simp [Function.update_of_ne hq]
  · obtain ⟨herr, hdata, hnext, hmax, -, hpc, hp⟩ := realizeBegin_opening h
    have hO' := (hO.allocate hnone h).opening y rfl
    simp only at hO'
    -- The new error id is the old counter, which no pair and no record reaches.
    have hnew : y.errorId.toNat = s.shared.nextStreamId.toNat := by rw [herr]
    have hne : y.errorId ≠ 0 := by
      intro h0
      rw [h0] at hO'
      simp at hO'
    have hbelow : ∀ id ∈ s.shared.history.openLog, id.toNat < y.errorId.toNat := by
      intro id hid
      have := hI.registered id hid
      omega
    constructor
    · intro q hq
      by_cases hqp : q = p
      · subst hqp
        simp only [Function.update_self]
        omega
      · simp only [Function.update_of_ne hqp] at hq ⊢
        have := hI.ids q hq
        omega
    · intro q r hq hqr
      have hold : ∀ t, t ≠ p → (s.pairs t).errorId ≠ y.errorId := by
        intro t ht heq
        have := hI.ids t (by rw [heq]; exact hne)
        rw [heq] at this
        omega
      by_cases hqp : q = p <;> by_cases hrp : r = p
      · rw [hqp, hrp]
      · subst hqp
        simp only [Function.update_self, Function.update_of_ne hrp] at hqr
        exact absurd hqr.symm (hold r hrp)
      · subst hrp
        simp only [Function.update_self, Function.update_of_ne hqp] at hqr
        exact absurd hqr (hold q hqp)
      · simp only [Function.update_of_ne hqp, Function.update_of_ne hrp] at hq hqr
        exact hI.once q r hq hqr
    · intro q hq
      by_cases hqp : q = p
      · subst hqp
        simp [PairPhase.fresh] at hq
      · simp only [Function.update_of_ne hqp] at hq ⊢
        exact hI.fresh q hq
    · rintro z' ⟨⟩
      simp [hp]
    · intro q hq
      by_cases hqp : q = p
      · exact ⟨y, rfl, hp.trans hqp.symm⟩
      · simp only [Function.update_of_ne hqp] at hq
        exact absurd hq (hidle q)
    · intro id hid
      have := hbelow id (by simpa [hhist] using hid)
      simp only
      omega
    · intro q hq
      by_cases hqp : q = p
      · subst hqp
        simp [PairPhase.guarded] at hq
      · simp only [Function.update_of_ne hqp, hhist] at hq ⊢
        exact hI.guarded q hq
    · rintro z' ⟨⟩
      simp only [hhist, hpc, RealizePc.errorRegistered, RealizePc.dataRegistered,
        Bool.false_eq_true, iff_false]
      refine ⟨fun hid => ?_, fun hid => ?_⟩
      · exact absurd (hbelow _ hid) (by omega)
      · exact absurd (hbelow _ hid) (by omega)
    · intro q hq
      by_cases hqp : q = p
      · subst hqp
        simp [hquiet] at hq
      · simp only [Function.update_of_ne hqp] at hq ⊢
        exact hI.writing q hq

/-- What a registration adds to the log is one of the two ids in progress. -/
theorem realizeStep_log_subset {z : Realize} {sh sh' : Shared} {pr pr' : Pair}
    {z' : Option Realize} (h : z.step sh pr = (sh', pr', z')) :
    (∀ id ∈ sh.history.openLog, id ∈ sh'.history.openLog) ∧
      ∀ id ∈ sh'.history.openLog,
        id ∈ sh.history.openLog ∨ id = z.errorId ∨ id = z.dataId := by
  rcases realizeStep_openLog h with ⟨hlog, -⟩ | ⟨-, -, hlog⟩ | ⟨-, -, hlog⟩
  · simp only [hlog]
    exact ⟨fun _ hid => hid, fun _ hid => .inl hid⟩
  · simp only [hlog, List.mem_append, List.mem_singleton]
    exact ⟨fun _ hid => .inl hid, fun _ hid => hid.imp id .inl⟩
  · simp only [hlog, List.mem_append, List.mem_singleton]
    exact ⟨fun _ hid => .inl hid, fun _ hid => hid.imp id .inr⟩

/-- A step of the realization: which registrations are enqueued follows its
program counter, and the pair it opens has both. -/
theorem Ownership.realize {s : MuxState} {z : Realize} {sh : Shared} {pr : Pair}
    {z' : Option Realize} (hI : Ownership s) (hO : SynOrder s) (hz : s.realizing = some z)
    (h : z.step s.shared (s.pairs z.pair) = (sh, pr, z')) :
    Ownership { s with
      shared := sh, pairs := Function.update s.pairs z.pair pr, realizing := z' } := by
  have hnext := realizeStep_nextStreamId h
  obtain ⟨hphase, herr, hdata⟩ := hI.realizing z hz
  obtain ⟨hmod, hsum, hcount⟩ := hO.opening z hz
  obtain ⟨herrLog, hdataLog⟩ := hI.progress z hz
  obtain ⟨hkeep, hadd⟩ := realizeStep_log_subset h
  have hne : z.errorId ≠ 0 := by
    intro h0
    rw [h0] at hmod
    simp at hmod
  have hdiff : z.dataId ≠ z.errorId := by
    intro heq
    rw [heq] at hsum
    omega
  have honly : ∀ q, (s.pairs q).phase = .realizing → q = z.pair := by
    intro q hq
    obtain ⟨y, hy, hyq⟩ := hI.inProgress q hq
    rw [hz, Option.some.injEq] at hy
    rw [hy]
    exact hyq.symm
  -- The pair keeps its ids whatever its phase becomes.
  have hids : pr.errorId = z.errorId ∧ pr.dataId = z.dataId := by
    rcases realizeStep_pair h with ⟨rfl, -⟩ | ⟨rfl, -⟩ | ⟨rfl, -, -⟩ <;> exact ⟨herr, hdata⟩
  have hsame : ∀ q, (Function.update s.pairs z.pair pr q).errorId = (s.pairs q).errorId ∧
      (Function.update s.pairs z.pair pr q).dataId = (s.pairs q).dataId := by
    intro q
    by_cases hq : q = z.pair
    · subst hq
      simp only [Function.update_self]
      exact ⟨hids.1.trans herr.symm, hids.2.trans hdata.symm⟩
    · simp [Function.update_of_ne hq]
  constructor
  · intro q hq
    obtain ⟨hqe, hqd⟩ := hsame q
    simp only [hqe, hqd, hnext] at hq ⊢
    exact hI.ids q hq
  · intro q r hq hqr
    simp only [(hsame q).1, (hsame r).1] at hq hqr
    exact hI.once q r hq hqr
  · intro q hq
    simp only [(hsame q).1]
    by_cases hqz : q = z.pair
    · subst hqz
      simp only [Function.update_self] at hq
      rcases realizeStep_pair h with ⟨rfl, -⟩ | ⟨rfl, -⟩ | ⟨rfl, -, -⟩ <;>
        simp [hphase, PairPhase.fresh] at hq
    · simp only [Function.update_of_ne hqz] at hq
      exact hI.fresh q hq
  · intro y hy
    simp only at hy
    subst hy
    obtain ⟨hypair, hyerr, hydata⟩ := realizeStep_same h
    rcases realizeStep_pair h with ⟨rfl, -⟩ | ⟨-, hn⟩ | ⟨-, hn, -⟩
    · simp only [hypair, hyerr, hydata, Function.update_self]
      exact ⟨hphase, herr, hdata⟩
    · contradiction
    · contradiction
  · intro q hq
    by_cases hqz : q = z.pair
    · subst hqz
      simp only [Function.update_self] at hq
      rcases realizeStep_pair h with ⟨rfl, y, rfl⟩ | ⟨rfl, -⟩ | ⟨rfl, -, -⟩
      · exact ⟨y, rfl, (realizeStep_same h).1⟩
      · simp at hq
      · simp at hq
    · simp only [Function.update_of_ne hqz] at hq
      exact absurd (honly q hq) hqz
  · intro id hid
    simp only [hnext]
    rcases hadd id hid with hid | rfl | rfl
    · exact hI.registered id hid
    · omega
    · omega
  · intro q hq
    simp only [hsame q]
    by_cases hqz : q = z.pair
    · subst hqz
      simp only [Function.update_self] at hq
      rcases realizeStep_pair h with ⟨rfl, -⟩ | ⟨rfl, -⟩ | ⟨rfl, -, hpc⟩
      · simp [hphase, PairPhase.guarded] at hq
      · simp [PairPhase.guarded] at hq
      · simp only [herr, hdata]
        refine ⟨hne, hkeep _ (herrLog.2 ?_), hkeep _ (hdataLog.2 ?_)⟩ <;>
          rw [hpc] <;> rfl
    · simp only [Function.update_of_ne hqz] at hq
      obtain ⟨h0, he, hd⟩ := hI.guarded q hq
      exact ⟨h0, hkeep _ he, hkeep _ hd⟩
  · intro y hy
    simp only at hy
    subst hy
    obtain ⟨-, hyerr, hydata⟩ := realizeStep_same h
    rw [hyerr, hydata]
    rcases realizeStep_openLog h with ⟨hlog, hpc⟩ | ⟨hpc, hy, hlog⟩ | ⟨hpc, hy, hlog⟩
    · obtain ⟨hpe, hpd⟩ := hpc y rfl
      rw [hlog, hpe, hpd]
      exact ⟨herrLog, hdataLog⟩
    · cases hy
      simp only [hpc, RealizePc.dataRegistered, Bool.false_eq_true, iff_false] at hdataLog
      simp [hlog, RealizePc.errorRegistered, RealizePc.dataRegistered, hdataLog, hdiff]
    · cases hy
      simp only [hpc, RealizePc.errorRegistered, iff_true] at herrLog
      simp [hlog, RealizePc.errorRegistered, RealizePc.dataRegistered, herrLog]
  · intro q hq
    by_cases hqz : q = z.pair
    · have hquiet : (s.pairs z.pair).write = .idle := by
        by_contra hw
        have := hI.writing z.pair hw
        rw [hphase] at this
        contradiction
      subst hqz
      rcases realizeStep_pair h with ⟨rfl, -⟩ | ⟨rfl, -⟩ | ⟨rfl, -, -⟩ <;>
        simp [hquiet] at hq
    · simp only [Function.update_of_ne hqz] at hq ⊢
      exact hI.writing q hq

/-- The log of registrations only grows. -/
theorem step_openLog {cfg : MuxConfig} {s s' : MuxState} {a : Act}
    (h : step cfg s a = some s') {id : StreamId} (hid : id ∈ s.shared.history.openLog) :
    id ∈ s'.shared.history.openLog := by
  obtain ⟨p, c, sh, pr, rfl, hc, rfl⟩ | ⟨p, sh, pr, z, rfl, -, -, hb, rfl⟩ |
    ⟨z, sh, pr, z', rfl, hz, hr, rfl⟩ | ⟨c, sh, rd, rfl, hr, rfl⟩ |
    ⟨w, order, k, sh, rfl, hw, rfl⟩ | ⟨c, sh, wr, rfl, hw, rfl⟩ | ⟨rfl, rfl⟩ := step_cases h
  · simpa only [(client_footprint hc).openLog] using hid
  · rw [← (realizeBegin_pair hb).1] at hid
    exact hid
  · exact (realizeStep_log_subset hr).1 id hid
  · simpa only [(reader_footprint hr).openLog] using hid
  · simpa only [(workerMove_of_step hw).footprint.openLog] using hid
  · simpa only [(writer_footprint hw).openLog] using hid
  · exact hid

theorem step_ownership {cfg : MuxConfig} {s s' : MuxState} {a : Act} (hO : SynOrder s)
    (hI : Ownership s) (h : step cfg s a = some s') : Ownership s' := by
  obtain ⟨p, c, sh, pr, rfl, hc, rfl⟩ | ⟨p, sh, pr, z, rfl, hnone, hphase, hb, rfl⟩ |
    ⟨z, sh, pr, z', rfl, hz, hr, rfl⟩ | ⟨c, sh, r, rfl, hr, rfl⟩ |
    ⟨w, order, k, sh, rfl, hw, rfl⟩ | ⟨c, sh, wr, rfl, hw, rfl⟩ | ⟨rfl, rfl⟩ := step_cases h
  · have hfoot := client_footprint hc
    refine hI.of_pairs hfoot.nextStreamId hfoot.openLog rfl fun q => ?_
    by_cases hq : q = p
    · subst hq
      simpa using client_pair hc
    · simp [Function.update_of_ne hq]
  · exact hI.allocate hO hnone hphase hb
  · exact hI.realize hO hz hr
  · have hfoot := reader_footprint hr
    exact hI.of_pairs hfoot.nextStreamId hfoot.openLog rfl fun q => by simp
  · have hfoot := (workerMove_of_step hw).footprint
    exact hI.of_pairs hfoot.nextStreamId hfoot.openLog rfl fun q => by simp
  · have hfoot := writer_footprint hw
    exact hI.of_pairs hfoot.nextStreamId hfoot.openLog rfl fun q => by simp
  · exact hI.of_pairs rfl rfl rfl fun q => by simp

theorem ownership_invariant (cfg : MuxConfig) : (mux cfg).Invariant anyStep Ownership :=
  Invariant.of_step_using (synOrder_invariant cfg) (ownership_init cfg)
    fun _ _ _ hO hI _ h => step_ownership hO hI h

/-! ## Consequences -/

/-- The halves of allocated pairs have different ids. -/
theorem Ownership.idOf_inj {s : MuxState} (hI : Ownership s) {p q : Nat}
    {kind kind' : HalfKind} (hp : (s.pairs p).errorId ≠ 0) (hq : (s.pairs q).errorId ≠ 0)
    (h : (s.pairs p).idOf kind = (s.pairs q).idOf kind') : p = q ∧ kind = kind' := by
  have hip := hI.ids p hp
  have hiq := hI.ids q hq
  have hnat := congrArg UInt32.toNat h
  cases kind <;> cases kind' <;> simp only [Pair.idOf] at h hnat
  · refine ⟨hI.once p q hp (UInt32.toNat_inj.1 (by omega)), rfl⟩
  · omega
  · omega
  · exact ⟨hI.once p q hp h, rfl⟩

end KubePortForward.Mux

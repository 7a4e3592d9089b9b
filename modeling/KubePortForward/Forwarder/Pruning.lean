import KubePortForward.Verified.Extraction
import KubePortForward.Forwarder.Occupancy
import KubePortForward.Forwarder.PoolInvariant

/-!
# Which sessions pruning removes

`prune_once` takes cancelled and idle sessions out of the pool, all but one entry at most.
It reads idleness off `in_use`, which counts the spare streams that
`replenish_spare_streams` has reserved as well as those that callers hold.  A session that
nobody uses any more but that has spares queued is therefore never idle, however old it is.

## Main results

* `pruning_run` — the loop under the lock, run without interruption, is the limited
  extraction `pruneOnce`.
* `prune_removes_idle_iff` — pruning leaves no session behind that is cancelled, or old and
  without streams of callers, exactly when at most one entry has to stay for another reason,
  or no such session has spares.
* `spares_keep_idle_sessions` — two old sessions with one spare each, and nothing removed.
-/

namespace KubePortForward.Forwarder

open KubePortForward.Verified.Transition
open KubePortForward.Verified.Extraction

/-! ## The loop under the lock -/

/-- `prune_once`: the entries dropped, and those that stay. -/
def State.pruneOnce (cfg : ForwarderConfig) (s : State) :
    List PooledSession × List PooledSession :=
  extractIf (s.isIdle cfg) (s.pool.entries.length - 1) s.pool.entries

/-- Task `t` has left the lock, with `dropped` to be cancelled. -/
structure Pruned (s : State) (t : TaskId) (dropped kept : List PooledSession) (v : State) :
    Prop where
  entries : v.pool.entries = kept
  todo : (v.tasks[t]?).map Task.pc = some (.cancelling (dropped.map (·.session)) .finish)
  unlocked : v.lock = none
  published : dropped ≠ [] → v.pool.snapshot = v.pool.sessions
  sessions : v.sessions = s.sessions

section

variable {cfg : ForwarderConfig} {t : TaskId} {s : State} {k : Task}

theorem step_locked {sec : Section} (hk : s.tasks[t]? = some k) (hpc : k.pc = .locked sec) :
    (forwarder cfg).step s (.task t .go) = lockedStep cfg t k s sec .go := by
  show step cfg s (.task t .go) = _
  simp only [step, hk, taskStep, hpc]

theorem run_go {n : Nat} {u v : State} (hstep : (forwarder cfg).step s (.task t .go) = some u)
    (hrest : (forwarder cfg).run u (goActs t n) = some v) :
    (forwarder cfg).run s (goActs t (n + 1)) = some v := by
  show (forwarder cfg).run s (.task t .go :: goActs t n) = _
  rw [System.run, hstep]
  exact hrest

/-- The iterator is exhausted or stopped: what it did not visit is kept. -/
theorem pruning_finish {left : Nat} {kept rest dropped : List PooledSession}
    (hk : s.tasks[t]? = some k)
    (hpc : k.pc = .locked (.pruning left kept rest (dropped.map (·.session))))
    (hdone : left = 0 ∨ rest = []) :
    ∃ n v, (forwarder cfg).run s (goActs t n) = some v ∧
      Pruned s t dropped (kept ++ rest) v := by
  have hlocked : lockedStep cfg t k s (.pruning left kept rest (dropped.map (·.session))) .go =
      (let s' := (s.setPool { s.pool with entries := kept ++ rest }).logRemoved t
        (dropped.map (·.session))
      if dropped.map (·.session) = [] then
        some (s'.unlock.setTask t { k with pc := .cancelling [] .finish })
      else some (s'.setTask t
        { k with pc := .locked (.publish (dropped.map (·.session)) .finish) })) := by
    rcases hdone with rfl | rfl
    · rfl
    · cases left <;> rfl
  cases dropped with
  | nil =>
      refine ⟨1, _, run_go ((step_locked hk hpc).trans hlocked) rfl, ?_⟩
      exact ⟨rfl, by rw [setTask_self (by exact hk)]; rfl, rfl, fun h => absurd rfl h, rfl⟩
  | cons e dropped =>
      let s' := (s.setPool { s.pool with entries := kept ++ rest }).logRemoved t
        ((e :: dropped).map (·.session))
      let k' : Task :=
        { k with pc := .locked (.publish ((e :: dropped).map (·.session)) .finish) }
      have hself : (s'.setTask t k').tasks[t]? = some k' := setTask_self (u := s') hk
      refine ⟨2, _, run_go ((step_locked hk hpc).trans hlocked)
        (run_go (step_locked hself rfl) rfl), ?_⟩
      exact ⟨rfl, by rw [setTask_self (by exact hself)]; rfl, rfl, fun _ => rfl, rfl⟩

/-- Once it is under way, the loop extracts from what is left of the entries. -/
theorem pruning_run (rest : List PooledSession) :
    ∀ {s : State} {k : Task} {left : Nat} {kept dropped : List PooledSession},
      s.tasks[t]? = some k →
      k.pc = .locked (.pruning left kept rest (dropped.map (·.session))) →
      ∃ n v, (forwarder cfg).run s (goActs t n) = some v ∧
        Pruned s t (dropped ++ (extractIf (s.isIdle cfg) left rest).1)
          (kept ++ (extractIf (s.isIdle cfg) left rest).2) v := by
  induction rest with
  | nil =>
      intro s k left kept dropped hk hpc
      simpa [extractIf] using pruning_finish hk hpc (.inr rfl)
  | cons e rest ih =>
      intro s k left kept dropped hk hpc
      cases left with
      | zero => simpa using pruning_finish hk hpc (.inl rfl)
      | succ left =>
          have hstep := @step_locked cfg _ _ _ _ hk hpc
          by_cases hidle : s.isIdle cfg e = true
          · let k' : Task := { k with pc := .locked (.pruning left kept rest
              ((dropped ++ [e]).map (·.session))) }
            have hnext : (forwarder cfg).step s (.task t .go) = some (s.setTask t k') := by
              rw [hstep, lockedStep, if_pos hidle]
              simp only [k', List.map_append]
              rfl
            obtain ⟨n, v, hrun, hv⟩ := ih (s := s.setTask t k') (k := k') (setTask_self hk) rfl
            refine ⟨n + 1, v, run_go hnext hrun, ?_⟩
            simp only [extractIf_cons_pos hidle]
            rw [List.append_cons]
            exact ⟨hv.entries, hv.todo, hv.unlocked, hv.published, hv.sessions⟩
          · let k' : Task := { k with pc := .locked (.pruning (left + 1) (kept ++ [e]) rest
              (dropped.map (·.session))) }
            have hnext : (forwarder cfg).step s (.task t .go) = some (s.setTask t k') := by
              rw [hstep, lockedStep, if_neg hidle]
            obtain ⟨n, v, hrun, hv⟩ := ih (s := s.setTask t k') (k := k') (setTask_self hk) rfl
            refine ⟨n + 1, v, run_go hnext hrun, ?_⟩
            simp only [extractIf_cons_neg hidle]
            rw [List.append_cons kept]
            exact ⟨hv.entries, hv.todo, hv.unlocked, hv.published, hv.sessions⟩

/-- A prune task that has the lock to itself does what `pruneOnce` says. -/
theorem pruneOnce_run (hk : s.tasks[t]? = some k) (hpc : k.pc = .locked .prune) :
    ∃ n v, (forwarder cfg).run s (goActs t n) = some v ∧
      Pruned s t (s.pruneOnce cfg).1 (s.pruneOnce cfg).2 v := by
  let k' : Task := { k with pc := .locked (.pruning (s.pool.entries.length - 1) []
    s.pool.entries (([] : List PooledSession).map (·.session))) }
  have hnext : (forwarder cfg).step s (.task t .go) = some (s.setTask t k') := by
    rw [step_locked hk hpc]
    rfl
  obtain ⟨n, v, hrun, hv⟩ :=
    pruning_run s.pool.entries (s := s.setTask t k') (k := k') (setTask_self hk) rfl
  exact ⟨n + 1, v, run_go hnext hrun, hv.entries, hv.todo, hv.unlocked, hv.published,
    hv.sessions⟩

end

/-! ## Sessions that somebody uses -/

/-- A forwarder whose sessions have their accounts in balance. -/
structure OccupiedPool where
  state : State
  usage : SessionId → Usage
  accounted : ∀ x, Accounted (usage x)
  agrees : ∀ x, (usage x).session = state.sessions x

namespace OccupiedPool

variable (cfg : ForwarderConfig) (P : OccupiedPool) (e : PooledSession)

def cancelled : Bool := (P.state.sessions e.session).cancelled

/-- `created_at.elapsed() > idle_age`. -/
def old : Bool := decide (cfg.pruneIdleAge < P.state.now - e.createdAt)

/-- The streams of the session that callers hold. -/
def heldBy : Nat := (P.usage e.session).held.length

/-- The spare streams queued in the session. -/
def spareCount : Nat := (P.state.sessions e.session).spareStreams.length

/-- The session is not cancelled, and has a stream of any kind or is not old. -/
def stays : Bool :=
  !P.cancelled e && (decide (0 < P.heldBy e + P.spareCount e) || !P.old cfg e)

/-- What pruning is for: sessions that are cancelled, or old and not used by a caller, go,
as long as one is left. -/
structure PrunesIdle (dropped kept : List PooledSession) : Prop where
  only : ∀ e ∈ dropped, P.cancelled e = true ∨ (P.heldBy e = 0 ∧ P.old cfg e = true)
  rest : (dropped ++ kept).Perm P.state.pool.entries
  order : kept.Sublist P.state.pool.entries
  nonempty : P.state.pool.entries ≠ [] → kept ≠ []
  settled : 2 ≤ kept.length →
    ∀ e ∈ kept, P.cancelled e = false ∧ (0 < P.heldBy e ∨ P.old cfg e = false)

theorem inUse_eq : (P.state.sessions e.session).inUse = P.heldBy e + P.spareCount e := by
  rw [← P.agrees e.session, (P.accounted e.session).inUse_eq, spareCount, ← P.agrees]
  rfl

/-- The predicate of `prune_once`. -/
theorem isIdle_eq : P.state.isIdle cfg e = !P.stays cfg e := by
  unfold State.isIdle stays
  rw [P.inUse_eq e]
  show (P.cancelled e || (P.heldBy e + P.spareCount e == 0 && P.old cfg e)) = _
  rcases Nat.eq_zero_or_pos (P.heldBy e + P.spareCount e) with h | h
  · rw [h]
    cases P.cancelled e <;> cases P.old cfg e <;> rfl
  · have hne : (P.heldBy e + P.spareCount e == 0) = false := by
      rw [beq_eq_false_iff_ne]
      omega
    rw [hne, decide_eq_true h]
    cases P.cancelled e <;> cases P.old cfg e <;> rfl

/-- A session that nobody uses and that is old goes unless it has spares. -/
theorem stays_of_unused (hc : P.cancelled e = false) (hold : P.old cfg e = true)
    (hheld : P.heldBy e = 0) : P.stays cfg e = decide (0 < P.spareCount e) := by
  simp [stays, hc, hold, hheld]

/-- Whatever the accounts, nothing is dropped that should stay, and something is left. -/
theorem prunesIdle_iff_settled :
    P.PrunesIdle cfg (P.state.pruneOnce cfg).1 (P.state.pruneOnce cfg).2 ↔
      (2 ≤ (P.state.pruneOnce cfg).2.length → ∀ e ∈ (P.state.pruneOnce cfg).2,
        P.cancelled e = false ∧ (0 < P.heldBy e ∨ P.old cfg e = false)) := by
  refine ⟨PrunesIdle.settled, fun hsettled => ⟨?_, ?_, ?_, kept_ne_nil, hsettled⟩⟩
  · intro e he
    have hidle := extractIf_taken e he
    rw [P.isIdle_eq cfg e] at hidle
    cases hc : P.cancelled e with
    | true => exact .inl rfl
    | false =>
        simp only [stays, hc, Bool.not_false, Bool.true_and, Bool.not_or, Bool.and_eq_true,
          Bool.not_not, Bool.not_eq_true', decide_eq_false_iff_not] at hidle
        exact .inr ⟨by omega, hidle.2⟩
  · exact extractIf_perm _ _
  · exact extractIf_kept_sublist _ _

/-- Pruning does all it is for exactly when at most one session stays for its streams or
its age, or no session that is old and not cancelled has spares but no caller. -/
theorem prune_removes_idle_iff :
    P.PrunesIdle cfg (P.state.pruneOnce cfg).1 (P.state.pruneOnce cfg).2 ↔
      (P.state.pool.entries.filter (P.stays cfg)).length ≤ 1 ∨
      ∀ e ∈ P.state.pool.entries, P.cancelled e = false → P.old cfg e = true →
        P.heldBy e = 0 → P.spareCount e = 0 := by
  have hpred : (fun e => !P.state.isIdle cfg e) = P.stays cfg := by
    funext e
    rw [P.isIdle_eq cfg e, Bool.not_not]
  have htwo : 2 ≤ (P.state.pruneOnce cfg).2.length ↔
      2 ≤ (P.state.pool.entries.filter (P.stays cfg)).length := by
    rw [← hpred]
    exact one_lt_kept_iff
  have hkept : 2 ≤ (P.state.pruneOnce cfg).2.length →
      (P.state.pruneOnce cfg).2 = P.state.pool.entries.filter (P.stays cfg) := by
    rw [← hpred]
    exact kept_eq_filter
  rw [prunesIdle_iff_settled]
  constructor
  · intro hsettled
    by_cases hfew : (P.state.pool.entries.filter (P.stays cfg)).length ≤ 1
    · exact .inl hfew
    · right
      intro e he hc hold hheld
      have hmany : 2 ≤ (P.state.pruneOnce cfg).2.length := htwo.2 (by omega)
      by_contra hspares
      -- With a spare it stays, and then it should have had a caller or been young.
      have hstays : P.stays cfg e = true := by
        rw [P.stays_of_unused cfg e hc hold hheld, decide_eq_true_iff]
        omega
      have hmem : e ∈ (P.state.pruneOnce cfg).2 := by
        rw [hkept hmany]
        exact List.mem_filter.2 ⟨he, hstays⟩
      rcases (hsettled hmany e hmem).2 with hpos | hyoung
      · omega
      · rw [hold] at hyoung
        contradiction
  · rintro (hfew | hnone) hmany e he
    · have := htwo.1 hmany
      omega
    · rw [hkept hmany] at he
      obtain ⟨hin, hstays⟩ := List.mem_filter.1 he
      have hc : P.cancelled e = false := by
        cases hc : P.cancelled e with
        | true => simp [stays, hc] at hstays
        | false => rfl
      refine ⟨hc, ?_⟩
      by_contra hunused
      rw [not_or, Nat.not_lt, Nat.le_zero, Bool.not_eq_false] at hunused
      have hzero := hnone e hin hc hunused.2 hunused.1
      rw [P.stays_of_unused cfg e hc hunused.2 hunused.1, hzero] at hstays
      contradiction

end OccupiedPool

/-! ## Spares that nobody takes -/

/-- A session of port 8080 over one idle connection. -/
def freshUsage : Usage where
  session := .fromSpdy idleSession 8080 ⟨"web-0", some "a"⟩
  held := []
  spares := []

/-- The same session after `replenish_spare_streams` has opened one spare. -/
def sparedUsage : Usage := (freshUsage.replenish 0).getD freshUsage

theorem sparedUsage_accounted : Accounted sparedUsage := by
  have hfresh : Accounted freshUsage := by
    refine ⟨rfl, fun i => ?_⟩
    cases i <;> rfl
  unfold sparedUsage
  cases h : freshUsage.replenish 0 with
  | none => exact hfresh
  | some u => exact hfresh.replenish h

/-- Two such sessions, both opened 100 seconds ago. -/
def sparedPool : OccupiedPool where
  state := { State.init with
    pool := { SessionPool.new with
      entries := [{ session := 0, createdAt := 0 }, { session := 1, createdAt := 0 }]
      snapshot := [0, 1] }
    sessions := fun _ => sparedUsage.session
    nextSession := 2
    now := 100 }
  usage := fun _ => sparedUsage
  accounted := fun _ => sparedUsage_accounted
  agrees := fun _ => rfl

/-- Nobody holds a stream of either session and both are older than the idle age of a
minute, but each has a spare, and neither is removed. -/
theorem spares_keep_idle_sessions :
    (∀ e ∈ sparedPool.state.pool.entries, sparedPool.cancelled e = false ∧
      sparedPool.old .default e = true ∧ sparedPool.heldBy e = 0 ∧
      sparedPool.spareCount e = 1) ∧
    (sparedPool.state.pruneOnce .default).2 = sparedPool.state.pool.entries ∧
    ¬ sparedPool.PrunesIdle .default (sparedPool.state.pruneOnce .default).1
      (sparedPool.state.pruneOnce .default).2 := by
  have hkept : (sparedPool.state.pruneOnce .default).2 = sparedPool.state.pool.entries := by
    decide +kernel
  have hunused : ∀ e ∈ sparedPool.state.pool.entries, sparedPool.cancelled e = false ∧
      sparedPool.old .default e = true ∧ sparedPool.heldBy e = 0 ∧
      sparedPool.spareCount e = 1 := by
    decide +kernel
  refine ⟨hunused, hkept, fun h => ?_⟩
  have hsettled := h.settled (by decide +kernel) { session := 0, createdAt := 0 }
    (by decide +kernel)
  have hfirst := hunused { session := 0, createdAt := 0 } (by decide +kernel)
  rcases hsettled.2 with hpos | hyoung
  · rw [hfirst.2.2.1] at hpos
    exact Nat.lt_irrefl 0 hpos
  · rw [hfirst.2.1] at hyoung
    contradiction

end KubePortForward.Forwarder

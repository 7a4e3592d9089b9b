import KubePortForward.Forwarder.PoolInvariant

/-!
# Capacity fail-over

`connect_on_pod` goes on to the next round when `Session::connect` reports
`Error::CapacityExhausted`.  No session reports it: what the mux refuses arrives
wrapped, as `Error::Spdy`, and ends the call.  A session counts as full at its
hard limits while the mux refuses at its operating limits, so the call is led
to such a session in the first place.

## Main results

* `mux_refusal_returned` — whenever the mux refuses the pair for capacity, the
  call returns that failure.
* `saturated_session_ends_call` — a call that fails with one session of 128 in
  the pool.
-/

namespace KubePortForward.Forwarder

open KubePortForward.Verified.Transition

/-- What the mux answers to `connect` when it refuses the pair for capacity: the
pairs in use and the limit.  A session with a usable spare stream does not ask
the mux. -/
def Session.muxRefusal (x : Session) (ns : UInt64) : Option (Nat × UInt32) :=
  match (Session.popSpare x.spareStreams).1,
    (x.inner.openStreamPair x.portforwardHeaders.1 x.portforwardHeaders.2 ns).1 with
  | none, .error (.capacityExhausted inUse capacity) => some (inUse, capacity)
  | _, _ => none

/-- The refusal reaches the caller of `Session::connect` wrapped. -/
theorem Session.connect_refused {x : Session} {ns : UInt64} {inUse : Nat} {capacity : UInt32}
    (h : x.muxRefusal ns = some (inUse, capacity)) :
    (x.connect ns).1 = .error (.spdy (.capacityExhausted inUse capacity)) := by
  unfold Session.muxRefusal at h
  split at h
  · next hspare hopen =>
      cases h
      unfold Session.connect
      split
      · next stream rest hpop =>
          rw [hpop] at hspare
          contradiction
      · unfold Session.openNewStream
        simp only [Session.portforwardHeaders] at hopen ⊢
        rw [hopen]
        rfl
  · contradiction

/-! ## A call that has returned -/

/-- A section changes no other task. -/
theorem lockedStep_other {cfg : ForwarderConfig} {t i : TaskId} {k : Task} {s s' : State}
    {sec : Section} {c : Choice} (h : lockedStep cfg t k s sec c = some s') (hi : i ≠ t) :
    s'.tasks[i]? = s.tasks[i]? := by
  unfold lockedStep at h
  simp only at h
  (repeat' split at h) <;> first | contradiction | (cases h; exact setTask_other hi)

theorem spawn_other {s : State} {i : TaskId} {k k' : Task} (h : s.tasks[i]? = some k) :
    (s.spawn k').tasks[i]? = some k := by
  have hlt : i < s.tasks.length := (List.getElem?_eq_some_iff.1 h).1
  simp only [State.spawn]
  rw [List.getElem?_append_left hlt]
  exact h

/-- A step of a task changes no other task. -/
theorem taskStep_other {cfg : ForwarderConfig} {t i : TaskId} {k y : Task} {s s' : State}
    {c : Choice} (h : taskStep cfg t k s c = some s') (hi : i ≠ t)
    (hy : s.tasks[i]? = some y) : s'.tasks[i]? = some y := by
  obtain ⟨sec, -, hl⟩ | ⟨sec, -, -, rfl⟩ | ⟨x, -, rfl⟩ | ⟨u, k', hmove, rfl⟩ := taskStep_cases h
  · rw [lockedStep_other hl hi]
    exact hy
  · rw [setTask_other hi]
    exact hy
  · apply spawn_other
    rw [setTask_other hi]
    exact hy
  · rw [setTask_other hi, hmove.extends.tasks]
    exact hy

/-- A call that has returned an error takes no further step. -/
theorem step_failed {cfg : ForwarderConfig} {s s' : State} {a : Act} {t : TaskId} {k : Task}
    {e : Error} (h : step cfg s a = some s') (hk : s.tasks[t]? = some k)
    (hpc : k.pc = .failed e) : s'.tasks[t]? = some k := by
  cases a with
  | connect port =>
      cases h
      exact spawn_other hk
  | prune =>
      cases h
      exact spawn_other hk
  | podDied name =>
      cases h
      exact spawn_other hk
  | shutdown =>
      cases h
      exact spawn_other hk
  | task i c =>
      simp only [step] at h
      split at h
      · next y hy =>
          by_cases hi : t = i
          · subst hi
            obtain rfl : y = k := Option.some.inj (hy.symm.trans hk)
            simp [taskStep, hpc] at h
          · exact taskStep_other h hi hk
      · contradiction
  | abandon i =>
      simp only [step] at h
      split at h
      · next y hy =>
          by_cases hi : t = i
          · subst hi
            obtain rfl : y = k := Option.some.inj (hy.symm.trans hk)
            simp [hpc, Pc.awaits] at h
          · split at h <;> cases h
            rw [setTask_other hi]
            exact hk
      · contradiction
  | session x inner spares cancel =>
      cases h
      exact hk
  | tick =>
      cases h
      exact hk

/-- Nothing that happens later makes the call take its error back. -/
theorem run_failed {cfg : ForwarderConfig} {t : TaskId} {k : Task} {e : Error}
    (hpc : k.pc = .failed e) (acts : List Act) :
    ∀ {s s' : State}, (forwarder cfg).run s acts = some s' → s.tasks[t]? = some k →
      s'.tasks[t]? = some k := by
  induction acts with
  | nil =>
      intro s s' hrun hk
      cases hrun
      exact hk
  | cons a acts ih =>
      intro s s' hrun hk
      obtain ⟨u, hstep, hrest⟩ := run_cons_some hrun
      exact ih hrest (step_failed hstep hk hpc)

/-! ## The refusal -/

/-- The step of `connect_on_pod` after a refusal. -/
theorem step_refused {cfg : ForwarderConfig} {s : State} {t : TaskId} {k : Task}
    {x : SessionId} {ns : UInt64} {inUse : Nat} {capacity : UInt32}
    (hk : s.tasks[t]? = some k) (hpc : k.pc = .connect x)
    (hrefused : (s.sessions x).muxRefusal ns = some (inUse, capacity)) :
    step cfg s (.task t (.elapsed ns)) =
      some ((s.updSession x fun _ => ((s.sessions x).connect ns).2).setTask t
        { k with pc := .failed (.spdy (.capacityExhausted inUse capacity)) }) := by
  have hconnect := Session.connect_refused hrefused
  simp [step, hk, taskStep, hpc, hconnect]

/-- In every state: when the mux refuses the pair of a call for capacity, the
call returns that failure, whatever else the pool could have served it with. -/
theorem mux_refusal_returned (cfg : ForwarderConfig) (s : State) (t : TaskId) (k : Task)
    (x : SessionId) (ns : UInt64) (inUse : Nat) (capacity : UInt32)
    (hk : s.tasks[t]? = some k) (hpc : k.pc = .connect x)
    (hrefused : (s.sessions x).muxRefusal ns = some (inUse, capacity)) :
    ∃ s', step cfg s (.task t (.elapsed ns)) = some s' ∧
      ∀ acts s'', (forwarder cfg).run s' acts = some s'' →
        ∃ k', s''.tasks[t]? = some k' ∧
          k'.pc = .failed (.spdy (.capacityExhausted inUse capacity)) := by
  refine ⟨_, step_refused hk hpc hrefused, fun acts s'' hrun => ?_⟩
  exact ⟨_, run_failed rfl acts hrun (setTask_self (u := s.updSession x _) hk), rfl⟩

/-- A session over one connection that carries as many pairs as its operating
limit allows. -/
def saturatedSession : Mux.Session :=
  { idleSession with pool :=
      [{ shared := { Mux.Shared.init .default with activePairs := 64 }, opened := 64, rttNs := 0 }] }

/-- Call 0 opens a session, which other callers then use up to its operating
limit.  Call 1 is led to it. -/
def saturatedActs : List Act :=
  [Act.connect 8080] ++ openForActs 0 ⟨"web-0", some "a"⟩ ++
    [Act.session 0 saturatedSession [] false, .connect 8080, .task 1 .go,
      .task 1 (.pod (some ⟨"web-0", some "a"⟩))] ++ goActs 1 5

/-- The session that the call is about to connect on. -/
def Task.connecting (k : Task) : Option SessionId :=
  match k.pc with
  | .connect x => some x
  | _ => none

theorem Task.connecting_eq_some {k : Task} {x : SessionId} (h : k.connecting = some x) :
    k.pc = .connect x := by
  unfold Task.connecting at h
  split at h
  · next hpc =>
      cases h
      exact hpc
  · contradiction

/-- The pool has one session of at most 128, the pod is the target, and the mux
refuses the 65th pair. -/
theorem saturatedActs_refused : ∃ s k, (forwarder .default).run (forwarder .default).init
      saturatedActs = some s ∧ s.tasks[1]? = some k ∧ k.pc = .connect 0 ∧
    s.pool.target = some k.ready ∧
    s.pool.entries.length + s.pool.openingCount < ForwarderConfig.default.maxSessions ∧
    (s.sessions 0).muxRefusal 0 = some (64, 100) := by
  have hcall : ((forwarder .default).run (forwarder .default).init saturatedActs).map
      (fun s => (s.tasks[1]?).map fun k => (k.connecting, k.ready)) =
      some (some (some 0, ⟨"web-0", some "a"⟩)) := by
    decide +kernel
  have hpool : ((forwarder .default).run (forwarder .default).init saturatedActs).map
      (fun s => (s.pool.target, s.pool.entries.length + s.pool.openingCount,
        (s.sessions 0).muxRefusal 0)) =
      some (some ⟨"web-0", some "a"⟩, 1, some (64, 100)) := by
    decide +kernel
  obtain ⟨s, hrun, htask⟩ := Option.map_eq_some_iff.1 hcall
  obtain ⟨k, hk, hview⟩ := Option.map_eq_some_iff.1 htask
  obtain ⟨hconnecting, hready⟩ := Prod.mk.inj hview
  rw [hrun, Option.map_some, Option.some.injEq, Prod.mk.injEq, Prod.mk.injEq] at hpool
  obtain ⟨htarget, hroom, hrefused⟩ := hpool
  refine ⟨s, k, hrun, hk, Task.connecting_eq_some hconnecting, ?_, ?_, hrefused⟩
  · rw [htarget, hready]
  · rw [hroom]
    decide

theorem mux_refusal_returned_saturated :
    ∃ s k, (forwarder .default).run (forwarder .default).init saturatedActs = some s ∧
      s.tasks[1]? = some k ∧ k.pc = .connect 0 ∧
      (s.sessions 0).muxRefusal 0 = some (64, 100) ∧
      ∃ s', step .default s (.task 1 (.elapsed 0)) = some s' ∧
        ∀ acts s'', (forwarder .default).run s' acts = some s'' →
          ∃ k', s''.tasks[1]? = some k' ∧ k'.pc = .failed (.spdy (.capacityExhausted 64 100)) := by
  obtain ⟨s, k, hrun, hk, hpc, -, -, hrefused⟩ := saturatedActs_refused
  exact ⟨s, k, hrun, hk, hpc, hrefused,
    mux_refusal_returned .default s 1 k 0 0 64 100 hk hpc hrefused⟩

/-- The pod is stable and there is room for 127 more sessions, but the call that
the mux refuses fails. -/
theorem saturated_session_ends_call :
    ¬ ∀ (cfg : ForwarderConfig) (acts : List Act) (s : State) (t : TaskId) (k : Task)
        (x : SessionId) (ns : UInt64) (refusal : Nat × UInt32),
      (forwarder cfg).run (forwarder cfg).init acts = some s →
      s.tasks[t]? = some k → k.pc = .connect x → s.pool.target = some k.ready →
      s.pool.entries.length + s.pool.openingCount < cfg.maxSessions →
      (s.sessions x).muxRefusal ns = some refusal →
      ∀ s', step cfg s (.task t (.elapsed ns)) = some s' →
        ∀ k' e, s'.tasks[t]? = some k' → k'.pc ≠ .failed e := by
  intro hall
  obtain ⟨s, k, hrun, hk, hpc, htarget, hroom, hrefused⟩ := saturatedActs_refused
  exact hall .default saturatedActs s 1 k 0 0 _ hrun hk hpc htarget hroom hrefused _
    (step_refused hk hpc hrefused) _ _ (setTask_self (u := s.updSession 0 _) hk) rfl

end KubePortForward.Forwarder

import KubePortForward.Forwarder.Bound
import KubePortForward.Forwarder.FailOver

/-!
# The prefetch flag

`maybe_prefetch` sets `prefetch_in_flight` under the write lock, lets go of the
lock, waits for `background_tasks` and spawns the prefetch, which clears the
flag once it has an answer.  A call that is dropped while it waits for
`background_tasks` has set the flag and spawned nothing.

## Main results

* `prefetch_flag_owned` — in a run in which no call is dropped there and no
  prefetch is aborted, a set flag belongs to a call about to spawn its prefetch
  or to a prefetch that will clear it.
* `prefetch_flag_stuck` — a run in which a call is dropped there.
-/

namespace KubePortForward.Forwarder

open KubePortForward.Verified.Transition

/-! ## Who owns the flag -/

/-- A call inside `maybe_prefetch` that has set the flag and spawned nothing yet. -/
def Pc.aboutToSpawn : Pc → Bool
  | .spawnPrefetch _ => true
  | _ => false

/-- A spawned prefetch that has not cleared the flag yet. -/
def Pc.clearsFlag : Pc → Bool
  | .prefetching => true
  | .acquire (.prefetchInstall _) => true
  | .locked (.prefetchInstall _) => true
  | _ => false

def Pc.ownsFlag (pc : Pc) : Bool := pc.aboutToSpawn || pc.clearsFlag

/-- The call has returned or was dropped, or the background task is done. -/
def Pc.ended : Pc → Bool
  | .returned _ _ => true
  | .failed _ => true
  | .finished => true
  | _ => false

theorem Pc.ended_ownsFlag {pc : Pc} (h : pc.ended = true) : pc.ownsFlag = false := by
  cases pc <;> first
    | rfl
    | contradiction

/-- Some task owns the flag. -/
def Owned (s : State) : Prop := ∃ (t : TaskId) (k : Task), s.tasks[t]? = some k ∧
  k.pc.ownsFlag = true

/-- Nobody is dropped while it owns the flag. -/
def KeepsFlag (s : State) : Act → Prop
  | .abandon t => ∀ k ∈ s.tasks[t]?, k.pc.ownsFlag = false
  | _ => True

instance (s : State) (a : Act) : Decidable (KeepsFlag s a) := by
  unfold KeepsFlag
  split <;> infer_instance

/-! ## Steps -/

theorem Owned.of_self {u : State} {t : TaskId} {k k' : Task} (hk : u.tasks[t]? = some k)
    (h : k'.pc.ownsFlag = true) : Owned (u.setTask t k') :=
  ⟨t, k', setTask_self hk, h⟩

/-- A step of a task outside the lock leaves the flag alone. -/
theorem TaskMove.flag {s u : State} {k k' : Task} (h : TaskMove s k u k') :
    u.pool.prefetchInFlight = s.pool.prefetchInFlight := by
  cases h <;> rfl

/-- A section leaves the flag alone, clears it, or sets it for its own task. -/
theorem lockedStep_flag {cfg : ForwarderConfig} {t : TaskId} {k : Task} {s s' : State}
    {sec : Section} {c : Choice} (hk : s.tasks[t]? = some k)
    (h : lockedStep cfg t k s sec c = some s') :
    s'.pool.prefetchInFlight = false ∨ Owned s' ∨
      s'.pool.prefetchInFlight = s.pool.prefetchInFlight := by
  have hown : ∀ {u : State} {k' : Task}, u.tasks = s.tasks → k'.pc.ownsFlag = true →
      Owned (u.setTask t k') := by
    intro u k' htasks hpc
    exact Owned.of_self (htasks ▸ hk) hpc
  unfold lockedStep at h
  simp only at h
  (repeat' split at h) <;> first
    | contradiction
    | (cases h; exact .inr (.inr rfl))
    | (cases h; exact .inl rfl)
    | (cases h; exact .inr (.inl (hown rfl rfl)))

/-- A step of a prefetch takes it on towards clearing the flag, or clears it. -/
theorem taskStep_clearsFlag {cfg : ForwarderConfig} {t : TaskId} {k : Task} {s s' : State}
    {c : Choice} (hk : s.tasks[t]? = some k) (h : taskStep cfg t k s c = some s')
    (hclears : k.pc.clearsFlag = true) :
    s'.pool.prefetchInFlight = false ∨
      ∃ k', s'.tasks[t]? = some k' ∧ k'.pc.clearsFlag = true := by
  cases hpc : k.pc with
  | prefetching =>
      right
      cases c with
      | opened result =>
          cases result <;> simp only [taskStep, hpc] at h <;> cases h <;>
            exact ⟨_, setTask_self hk, rfl⟩
      | _ => simp [taskStep, hpc] at h
  | acquire sec =>
      cases sec with
      | prefetchInstall opened =>
          right
          cases c <;> simp only [taskStep, hpc] at h <;> try contradiction
          split at h <;> cases h
          exact ⟨_, setTask_self hk, rfl⟩
      | _ => simp [hpc, Pc.clearsFlag] at hclears
  | locked sec =>
      cases sec with
      | prefetchInstall opened =>
          left
          cases c <;> simp only [taskStep, hpc, lockedStep] at h <;> try contradiction
          (repeat' split at h) <;> cases h <;> rfl
      | _ => simp [hpc, Pc.clearsFlag] at hclears
  | _ => simp [hpc, Pc.clearsFlag] at hclears

theorem taskStep_flag {cfg : ForwarderConfig} {t : TaskId} {k : Task} {s s' : State}
    {c : Choice} (hk : s.tasks[t]? = some k) (h : taskStep cfg t k s c = some s') :
    s'.pool.prefetchInFlight = false ∨ Owned s' ∨
      (s'.pool.prefetchInFlight = s.pool.prefetchInFlight ∧ k.pc.ownsFlag = false) := by
  have hsteps := taskStep_cases h
  cases howns : k.pc.ownsFlag with
  | false =>
      obtain ⟨sec, hpc, hl⟩ | ⟨sec, hpc, hlock, rfl⟩ | ⟨x, hpc, rfl⟩ | ⟨u, k', hmove, rfl⟩ :=
        hsteps
      · rcases lockedStep_flag hk hl with hclear | hown | hsame
        · exact .inl hclear
        · exact .inr (.inl hown)
        · exact .inr (.inr ⟨hsame, rfl⟩)
      · exact .inr (.inr ⟨rfl, rfl⟩)
      · exact .inr (.inr ⟨rfl, rfl⟩)
      · exact .inr (.inr ⟨hmove.flag, rfl⟩)
  | true =>
      cases hclears : k.pc.clearsFlag with
      | true =>
          rcases taskStep_clearsFlag hk h hclears with hclear | ⟨k', hk', hclears'⟩
          · exact .inl hclear
          · exact .inr (.inl ⟨t, k', hk', by simp [Pc.ownsFlag, hclears']⟩)
      | false =>
          right; left
          have habout : k.pc.aboutToSpawn = true := by
            simpa [Pc.ownsFlag, hclears] using howns
          cases hpc : k.pc with
          | spawnPrefetch x =>
              cases c <;> simp only [taskStep, hpc] at h <;> cases h
              refine ⟨(s.setTask t { k with pc := .leave (.ok x) }).tasks.length,
                { pc := .prefetching, port := k.port, ready := k.ready }, ?_, rfl⟩
              simp [State.spawn]
          | _ => simp [hpc, Pc.aboutToSpawn] at habout

/-- While nobody who owns the flag is dropped, a set flag is owned. -/
theorem step_owned {cfg : ForwarderConfig} {s s' : State} {a : Act}
    (hI : s.pool.prefetchInFlight = true → Owned s) (hok : KeepsFlag s a)
    (h : step cfg s a = some s') : s'.pool.prefetchInFlight = true → Owned s' := by
  have hspawn : ∀ {k : Task}, (s.spawn k).pool.prefetchInFlight = true → Owned (s.spawn k) := by
    intro k hflag
    obtain ⟨t, y, hy, howns⟩ := hI hflag
    exact ⟨t, y, spawn_other hy, howns⟩
  intro hflag
  cases a with
  | connect port =>
      cases h
      exact hspawn hflag
  | prune =>
      cases h
      exact hspawn hflag
  | podDied name =>
      cases h
      exact hspawn hflag
  | shutdown =>
      cases h
      exact hspawn hflag
  | task i c =>
      simp only [step] at h
      split at h
      · next k hk =>
          rcases taskStep_flag hk h with hclear | hown | ⟨hsame, hnot⟩
          · rw [hclear] at hflag
            contradiction
          · exact hown
          · obtain ⟨t, y, hy, howns⟩ := hI (hsame ▸ hflag)
            have hti : t ≠ i := by
              rintro rfl
              rw [hk] at hy
              cases hy
              rw [hnot] at howns
              contradiction
            exact ⟨t, y, taskStep_other h hti hy, howns⟩
      · contradiction
  | abandon i =>
      simp only [step] at h
      split at h
      · next k hk =>
          split at h <;> cases h
          obtain ⟨t, y, hy, howns⟩ := hI hflag
          have hti : t ≠ i := by
            rintro rfl
            rw [hok y hy] at howns
            contradiction
          exact ⟨t, y, (setTask_other hti).trans hy, howns⟩
      · contradiction
  | session x inner spares cancel =>
      cases h
      exact hI hflag
  | tick =>
      cases h
      exact hI hflag

/-- A prefetch goes on until it has cleared the flag. -/
theorem step_clearsFlag {cfg : ForwarderConfig} {s s' : State} {a : Act} {t : TaskId} {k : Task}
    (hok : KeepsFlag s a) (h : step cfg s a = some s') (hk : s.tasks[t]? = some k)
    (hclears : k.pc.clearsFlag = true) :
    s'.pool.prefetchInFlight = false ∨
      ∃ k', s'.tasks[t]? = some k' ∧ k'.pc.clearsFlag = true := by
  cases a with
  | connect port =>
      cases h
      exact .inr ⟨k, spawn_other hk, hclears⟩
  | prune =>
      cases h
      exact .inr ⟨k, spawn_other hk, hclears⟩
  | podDied name =>
      cases h
      exact .inr ⟨k, spawn_other hk, hclears⟩
  | shutdown =>
      cases h
      exact .inr ⟨k, spawn_other hk, hclears⟩
  | task i c =>
      simp only [step] at h
      split at h
      · next y hy =>
          by_cases hti : t = i
          · subst hti
            obtain rfl : y = k := Option.some.inj (hy.symm.trans hk)
            exact taskStep_clearsFlag hk h hclears
          · exact .inr ⟨k, taskStep_other h hti hk, hclears⟩
      · contradiction
  | abandon i =>
      simp only [step] at h
      split at h
      · next y hy =>
          split at h <;> cases h
          have hti : t ≠ i := by
            rintro rfl
            have hnot := hok k hk
            simp [Pc.ownsFlag, hclears] at hnot
          exact .inr ⟨k, (setTask_other hti).trans hk, hclears⟩
      · contradiction
  | session x inner spares cancel =>
      cases h
      exact .inr ⟨k, hk, hclears⟩
  | tick =>
      cases h
      exact .inr ⟨k, hk, hclears⟩

/-! ## The flag over whole runs -/

theorem owned_invariant (cfg : ForwarderConfig) : (forwarder cfg).Invariant KeepsFlag
    (fun s => s.pool.prefetchInFlight = true → Owned s) := by
  apply Invariant.of_step
  · intro hflag
    contradiction
  · intro s a s' hI hok hs
    exact step_owned hI hok hs

/-- In every run in which nobody who owns the flag is dropped: a set flag belongs
to a call about to spawn its prefetch or to a spawned prefetch; a prefetch goes on
until it has cleared the flag; and once everybody is done the flag is clear. -/
theorem prefetch_flag_owned (cfg : ForwarderConfig) (acts : List Act) (s : State)
    (hrun : (forwarder cfg).run (forwarder cfg).init acts = some s)
    (hkeeps : (forwarder cfg).Meets KeepsFlag (forwarder cfg).init acts) :
    (s.pool.prefetchInFlight = true → ∃ (t : TaskId) (k : Task), s.tasks[t]? = some k ∧
      (k.pc.aboutToSpawn = true ∨ k.pc.clearsFlag = true)) ∧
    (∀ (t : TaskId) (k : Task) (a : Act) (s' : State), s.tasks[t]? = some k →
      k.pc.clearsFlag = true → KeepsFlag s a → step cfg s a = some s' →
      s'.pool.prefetchInFlight = false ∨
        ∃ k', s'.tasks[t]? = some k' ∧ k'.pc.clearsFlag = true) ∧
    ((∀ (t : TaskId) (k : Task), s.tasks[t]? = some k → k.pc.ended = true) →
      s.pool.prefetchInFlight = false) := by
  have howned := owned_invariant cfg acts s hrun hkeeps
  refine ⟨fun hflag => ?_, fun t k a s' hk hclears hok hs => ?_, fun hended => ?_⟩
  · obtain ⟨t, k, hk, howns⟩ := howned hflag
    exact ⟨t, k, hk, by simpa [Pc.ownsFlag] using howns⟩
  · exact step_clearsFlag hok hs hk hclears
  · cases hflag : s.pool.prefetchInFlight with
    | false => rfl
    | true =>
        obtain ⟨t, k, hk, howns⟩ := howned hflag
        rw [Pc.ended_ownsFlag (hended t k hk)] at howns
        contradiction

theorem prefetch_flag_owned_prefetching :
    ∃ s, (forwarder smallPool).run (forwarder smallPool).init prefetchActs = some s ∧
      s.pool.prefetchInFlight = true ∧ ∃ (t : TaskId) (k : Task), s.tasks[t]? = some k ∧
        (k.pc.aboutToSpawn = true ∨ k.pc.clearsFlag = true) := by
  have hflag : ((forwarder smallPool).run (forwarder smallPool).init prefetchActs).map
      (fun s => s.pool.prefetchInFlight) = some true := by decide +kernel
  have hkeeps : (forwarder smallPool).Meets KeepsFlag (forwarder smallPool).init
      prefetchActs := meets_of_check (by decide +kernel)
  obtain ⟨s, hrun, hs⟩ := Option.map_eq_some_iff.1 hflag
  exact ⟨s, hrun, hs, (prefetch_flag_owned smallPool prefetchActs s hrun hkeeps).1 hs⟩

/-- Only callers are dropped, no prefetch is aborted. -/
def PrefetchesRun (s : State) : Act → Prop
  | .abandon t => ∀ k ∈ s.tasks[t]?, k.pc.clearsFlag = false
  | _ => True

instance (s : State) (a : Act) : Decidable (PrefetchesRun s a) := by
  unfold PrefetchesRun
  split <;> infer_instance

/-- Call 1 sets the flag and is dropped while it waits for `background_tasks`; call
0 returns its stream. -/
def droppedCallActs : List Act :=
  prefetchActs.dropLast ++ [Act.abandon 1, .task 1 .go, .task 0 (.elapsed 0)]

/-- Everybody is done, no prefetch was ever spawned, and the flag is set. -/
theorem prefetch_flag_stuck :
    ¬ ∀ (cfg : ForwarderConfig) (acts : List Act) (s : State),
      (forwarder cfg).run (forwarder cfg).init acts = some s →
      (forwarder cfg).Meets PrefetchesRun (forwarder cfg).init acts →
      (s.pool.prefetchInFlight = true → ∃ (t : TaskId) (k : Task), s.tasks[t]? = some k ∧
        (k.pc.aboutToSpawn = true ∨ k.pc.clearsFlag = true)) ∧
      ((∀ (t : TaskId) (k : Task), s.tasks[t]? = some k → k.pc.ended = true) →
        s.pool.prefetchInFlight = false) := by
  intro hall
  have hobs : ((forwarder smallPool).run (forwarder smallPool).init droppedCallActs).map
      (fun s => (s.tasks.map (·.pc.ended), s.pool.prefetchInFlight)) =
      some ([true, true], true) := by decide +kernel
  have hcallers : (forwarder smallPool).Meets PrefetchesRun (forwarder smallPool).init
      droppedCallActs := meets_of_check (by decide +kernel)
  obtain ⟨s, hrun, hs⟩ := Option.map_eq_some_iff.1 hobs
  simp only [Prod.mk.injEq] at hs
  obtain ⟨hended, hflag⟩ := hs
  have hclear := (hall smallPool droppedCallActs s hrun hcallers).2 fun t k hk => by
    have hin : k.pc.ended ∈ s.tasks.map (·.pc.ended) :=
      List.mem_map.2 ⟨k, List.mem_of_getElem? hk, rfl⟩
    rw [hended] at hin
    simpa using hin
  rw [hflag] at hclear
  exact absurd hclear (by simp)

end KubePortForward.Forwarder

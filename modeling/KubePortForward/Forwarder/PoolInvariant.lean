import KubePortForward.Forwarder.System

/-!
# The pool invariant

Whoever holds the write lock may have the target, the entries and the snapshot
out of step; before it lets go they agree again.  `Section.Holds` says for
every step of every locked section what it still owes.  Removed sessions are
cancelled after the lock is released, without a point at which the task could
be dropped.

## Main results

* `pool_invariant` — while nobody holds the lock, the snapshot lists the
  sessions of the entries in order and every entry was opened for the current
  target; and what a task has removed it has cancelled.
-/

namespace KubePortForward.Forwarder

open KubePortForward.Verified.Transition

/-! ## What the pool owes while it is locked -/

/-- Every entry was opened for the current target. -/
def Targeted (s : State) : Prop :=
  ∀ e ∈ s.pool.entries, some (s.sessions e.session).openedFor = s.pool.target

structure Consistent (s : State) : Prop where
  published : s.pool.snapshot = s.pool.sessions
  targeted : Targeted s

/-- An `extract_if` has moved entries to `kept` and `removed` and has `rest`
before it. -/
structure Extracting (s : State) (kept rest : List PooledSession) (removed : List SessionId) :
    Prop where
  consistent : Consistent s
  left : ∀ e ∈ kept ++ rest, e ∈ s.pool.entries
  taken : ∀ x ∈ removed, x ∈ s.pool.sessions
  untouched : removed = [] → kept ++ rest = s.pool.entries

/-- What holds before the next access of a locked section. -/
def Section.Holds (s : State) : Section → Prop
  | .takeAll _ => True
  | .publish _ _ => Targeted s
  | .publishInstalled _ => Targeted s
  | .publishPrefetched => Targeted s
  | .retiring kept rest removed => Extracting s kept rest removed
  | .pruning _ kept rest removed => Extracting s kept rest removed
  | _ => Consistent s

/-- What a task carries into the pool it has opened for the pod it resolved;
what it took out of the pool is cancelled or about to be. -/
structure Tidy (s : State) (t : TaskId) (k : Task) : Prop where
  carried : ∀ x, k.pc.carried = some x → x < s.nextSession ∧
    (s.sessions x).openedFor = k.ready ∧ (s.sessions x).port = k.port
  removed : ∀ x ∈ s.history.removed t, x < s.nextSession ∧
    ((s.sessions x).cancelled = true ∨ x ∈ k.pc.pending)

structure PoolInv (s : State) : Prop where
  allocated : ∀ e ∈ s.pool.entries, e.session < s.nextSession
  lockers : ∀ t k, s.tasks[t]? = some k → k.pc.isLocked = true → s.lock = some t
  held : ∀ t, s.lock = some t → ∃ k sec, s.tasks[t]? = some k ∧ k.pc = .locked sec ∧
    sec.Holds s
  free : s.lock = none → Consistent s
  tidy : ∀ t k, s.tasks[t]? = some k → Tidy s t k
  enters : ∀ (t : TaskId) (k : Task), s.tasks[t]? = some k → k.pc.enters = true
  unborn : ∀ t, s.tasks.length ≤ t → s.history.removed t = []

theorem poolInv_init : PoolInv State.init := by
  refine ⟨by simp [State.init, SessionPool.new], by simp [State.init], by simp [State.init],
    fun _ => ⟨rfl, ?_⟩, by simp [State.init], by simp [State.init], by simp [State.init]⟩
  intro e he
  simp [State.init, SessionPool.new] at he

/-! ## Steps that leave the pool alone -/

/-- The pool behind the lock is as before; sessions may have been opened, used
and cancelled. -/
structure Extends (s u : State) : Prop where
  entries : u.pool.entries = s.pool.entries
  target : u.pool.target = s.pool.target
  snapshot : u.pool.snapshot = s.pool.snapshot
  lock : u.lock = s.lock
  tasks : u.tasks = s.tasks
  removed : u.history.removed = s.history.removed
  published : u.history.publishedFor = s.history.publishedFor
  next : s.nextSession ≤ u.nextSession
  openedFor : ∀ x < s.nextSession, (u.sessions x).openedFor = (s.sessions x).openedFor
  port : ∀ x < s.nextSession, (u.sessions x).port = (s.sessions x).port
  cancelled : ∀ x < s.nextSession, (s.sessions x).cancelled = true →
    (u.sessions x).cancelled = true

theorem Extends.of_eq {s u : State} (hpool : u.pool.entries = s.pool.entries ∧
      u.pool.target = s.pool.target ∧ u.pool.snapshot = s.pool.snapshot)
    (hlock : u.lock = s.lock) (htasks : u.tasks = s.tasks)
    (hremoved : u.history.removed = s.history.removed)
    (hpublished : u.history.publishedFor = s.history.publishedFor)
    (hnext : u.nextSession = s.nextSession) (hsessions : u.sessions = s.sessions) :
    Extends s u := by
  refine ⟨hpool.1, hpool.2.1, hpool.2.2, hlock, htasks, hremoved, hpublished, hnext.ge, ?_, ?_, ?_⟩
  all_goals
    intro x _
    rw [hsessions]
  exact id

/-- A session changes, but neither its pod nor its port, and it stays cancelled. -/
theorem updSession_extends (s : State) (x : SessionId) (f : Session → Session)
    (hpod : (f (s.sessions x)).openedFor = (s.sessions x).openedFor)
    (hport : (f (s.sessions x)).port = (s.sessions x).port)
    (hcancelled : (s.sessions x).cancelled = true → (f (s.sessions x)).cancelled = true) :
    Extends s (s.updSession x f) := by
  refine ⟨rfl, rfl, rfl, rfl, rfl, rfl, rfl, le_rfl, ?_, ?_, ?_⟩
  all_goals
    intro y _
    by_cases hy : y = x
    · subst hy
      simpa [State.updSession] using by assumption
    · simp [State.updSession, Function.update_of_ne hy]

theorem openSession_extends (s : State) (inner : Mux.Session) (port : UInt16)
    (ready : ReadyPod) : Extends s (s.openSession inner port ready) := by
  refine ⟨rfl, rfl, rfl, rfl, rfl, rfl, rfl, Nat.le_succ _, ?_, ?_, ?_⟩
  all_goals
    intro y hy
    have hne : y ≠ s.nextSession := Nat.ne_of_lt hy
    simp [State.openSession, Function.update_of_ne hne]

theorem Session.connect_same (ns : UInt64) (x : Session) :
    (x.connect ns).2.openedFor = x.openedFor ∧ (x.connect ns).2.port = x.port ∧
      (x.connect ns).2.cancelled = x.cancelled := by
  unfold Session.connect
  split
  · exact ⟨rfl, rfl, rfl⟩
  · unfold Session.openNewStream
    simp only
    split <;> exact ⟨rfl, rfl, rfl⟩

theorem TaskMove.extends {s u : State} {k k' : Task} (h : TaskMove s k u k') :
    Extends s u := by
  cases h with
  | movesOn permits k' h => exact .of_eq ⟨rfl, rfl, rfl⟩ rfl rfl rfl rfl rfl rfl
  | lookup ready h => exact .of_eq ⟨rfl, rfl, rfl⟩ rfl rfl rfl rfl rfl rfl
  | load look h => exact .of_eq ⟨rfl, rfl, rfl⟩ rfl rfl rfl rfl rfl rfl
  | choose look x rest h hserves => exact .of_eq ⟨rfl, rfl, rfl⟩ rfl rfl rfl rfl rfl rfl
  | cancel x todo after h => exact updSession_extends s x _ rfl rfl fun _ => rfl
  | opened inner h => exact openSession_extends s inner _ _
  | prefetched inner h => exact openSession_extends s inner _ _
  | releaseSlot out h hslot => exact .of_eq ⟨rfl, rfl, rfl⟩ rfl rfl rfl rfl rfl rfl
  | ensured x h hslot => exact .of_eq ⟨rfl, rfl, rfl⟩ rfl rfl rfl rfl rfl rfl
  | connect x ns pc' h hpc =>
      obtain ⟨hpod, hport, hcancelled⟩ := Session.connect_same ns (s.sessions x)
      exact updSession_extends s x _ hpod hport fun hc => hcancelled.trans hc

theorem Extends.targeted {s u : State} (h : Extends s u)
    (hall : ∀ e ∈ s.pool.entries, e.session < s.nextSession) (ht : Targeted s) :
    Targeted u := by
  intro e he
  rw [h.entries] at he
  rw [h.openedFor _ (hall e he), h.target]
  exact ht e he

theorem Extends.consistent {s u : State} (h : Extends s u)
    (hall : ∀ e ∈ s.pool.entries, e.session < s.nextSession) (hc : Consistent s) :
    Consistent u := by
  refine ⟨?_, h.targeted hall hc.targeted⟩
  rw [h.snapshot, hc.published, SessionPool.sessions, SessionPool.sessions, h.entries]

theorem Extends.extracting {s u : State} {kept rest : List PooledSession}
    {removed : List SessionId} (h : Extends s u)
    (hall : ∀ e ∈ s.pool.entries, e.session < s.nextSession)
    (hx : Extracting s kept rest removed) : Extracting u kept rest removed where
  consistent := h.consistent hall hx.consistent
  left := by
    rw [h.entries]
    exact hx.left
  taken := by
    rw [SessionPool.sessions, h.entries]
    exact hx.taken
  untouched := by
    rw [h.entries]
    exact hx.untouched

theorem Extends.holds {s u : State} {sec : Section} (h : Extends s u)
    (hall : ∀ e ∈ s.pool.entries, e.session < s.nextSession) (hs : sec.Holds s) :
    sec.Holds u := by
  cases sec with
  | takeAll after => trivial
  | publish removed after => exact h.targeted hall hs
  | publishInstalled x => exact h.targeted hall hs
  | publishPrefetched => exact h.targeted hall hs
  | retiring kept rest removed => exact h.extracting hall hs
  | pruning left kept rest removed => exact h.extracting hall hs
  | _ => exact h.consistent hall hs

theorem Extends.tidy {s u : State} {t : TaskId} {k : Task} (h : Extends s u)
    (ht : Tidy s t k) : Tidy u t k where
  carried := by
    intro x hx
    obtain ⟨hlt, hpod, hport⟩ := ht.carried x hx
    rw [h.openedFor x hlt, h.port x hlt]
    exact ⟨hlt.trans_le h.next, hpod, hport⟩
  removed := by
    intro x hx
    rw [h.removed] at hx
    obtain ⟨hlt, hcase⟩ := ht.removed x hx
    exact ⟨hlt.trans_le h.next, hcase.imp_left (h.cancelled x hlt)⟩

/-! ## Moving one task -/

theorem Consistent.withTasks {u : State} (h : Consistent u) (ts : List Task) :
    Consistent { u with tasks := ts } :=
  ⟨h.published, h.targeted⟩

theorem Section.Holds.withTasks {u : State} {sec : Section} (h : sec.Holds u)
    (ts : List Task) : sec.Holds { u with tasks := ts } := by
  cases sec with
  | retiring kept rest removed => exact ⟨h.consistent.withTasks ts, h.left, h.taken, h.untouched⟩
  | pruning n kept rest removed => exact ⟨h.consistent.withTasks ts, h.left, h.taken, h.untouched⟩
  | takeAll after => trivial
  | publish removed after => exact h
  | publishInstalled x => exact h
  | publishPrefetched => exact h
  | _ => exact Consistent.withTasks h ts

theorem Tidy.withTasks {u : State} {t : TaskId} {k : Task} (h : Tidy u t k)
    (ts : List Task) : Tidy { u with tasks := ts } t k :=
  ⟨h.carried, h.removed⟩

/-- A task of the new list is the one that moved or an old one. -/
theorem setTask_tasks {u : State} {t i : TaskId} {k' y : Task}
    (h : (u.setTask t k').tasks[i]? = some y) :
    (i = t ∧ y = k') ∨ (i ≠ t ∧ u.tasks[i]? = some y) := by
  simp only [State.setTask] at h
  by_cases hi : t = i
  · subst hi
    rw [List.getElem?_set_self'] at h
    obtain ⟨x, -, hx⟩ := Option.map_eq_some_iff.1 h
    exact .inl ⟨rfl, hx.symm⟩
  · rw [List.getElem?_set_ne hi] at h
    exact .inr ⟨fun heq => hi heq.symm, h⟩

theorem setTask_self {u : State} {t : TaskId} {k k' : Task} (h : u.tasks[t]? = some k) :
    (u.setTask t k').tasks[t]? = some k' := by
  have hlt : t < u.tasks.length := (List.getElem?_eq_some_iff.1 h).1
  simp [State.setTask, hlt]

theorem setTask_other {u : State} {t i : TaskId} {k' : Task} (h : i ≠ t) :
    (u.setTask t k').tasks[i]? = u.tasks[i]? := by
  simp only [State.setTask]
  exact List.getElem?_set_ne h.symm

/-- A task outside the lock moves and keeps outside it. -/
theorem PoolInv.move {s u : State} {t : TaskId} {k k' : Task} (hI : PoolInv s)
    (hk : s.tasks[t]? = some k) (hout : k.pc.isLocked = false) (hu : Extends s u)
    (htidy : Tidy u t k') (hout' : k'.pc.isLocked = false) (henters : k'.pc.enters = true) :
    PoolInv (u.setTask t k') where
  allocated := by
    intro e he
    exact (hI.allocated e (by rw [← hu.entries]; exact he)).trans_le hu.next
  lockers := by
    intro i y hy hlocked
    rcases setTask_tasks hy with ⟨-, rfl⟩ | ⟨-, hy⟩
    · rw [hout'] at hlocked
      contradiction
    · rw [hu.tasks] at hy
      exact hu.lock.trans (hI.lockers i y hy hlocked)
  held := by
    intro i hi
    obtain ⟨y, sec, hy, hpc, hholds⟩ := hI.held i (hu.lock.symm.trans hi)
    have hne : i ≠ t := by
      intro heq
      rw [heq, hk, Option.some.injEq] at hy
      rw [← hy] at hpc
      rw [hpc] at hout
      contradiction
    refine ⟨y, sec, ?_, hpc, (hu.holds hI.allocated hholds).withTasks _⟩
    rw [setTask_other hne, hu.tasks]
    exact hy
  free := by
    intro hfree
    exact (hu.consistent hI.allocated (hI.free (hu.lock.symm.trans hfree))).withTasks _
  tidy := by
    intro i y hy
    rcases setTask_tasks hy with ⟨rfl, rfl⟩ | ⟨-, hy⟩
    · exact htidy.withTasks _
    · rw [hu.tasks] at hy
      exact (hu.tidy (hI.tidy i y hy)).withTasks _
  enters := by
    intro i y hy
    rcases setTask_tasks hy with ⟨-, rfl⟩ | ⟨-, hy⟩
    · exact henters
    · rw [hu.tasks] at hy
      exact hI.enters i y hy
  unborn := by
    intro i hi
    refine Eq.trans (congrFun hu.removed i) (hI.unborn i ?_)
    simpa [State.setTask, hu.tasks] using hi

/-- Nobody moves. -/
theorem PoolInv.extend {s u : State} (hI : PoolInv s) (hu : Extends s u) : PoolInv u where
  allocated := by
    rw [hu.entries]
    exact fun e he => (hI.allocated e he).trans_le hu.next
  lockers := by
    rw [hu.tasks, hu.lock]
    exact hI.lockers
  held := by
    rw [hu.tasks, hu.lock]
    intro t ht
    obtain ⟨k, sec, hk, hpc, hholds⟩ := hI.held t ht
    exact ⟨k, sec, hk, hpc, hu.holds hI.allocated hholds⟩
  free := by
    rw [hu.lock]
    exact fun h => hu.consistent hI.allocated (hI.free h)
  tidy := by
    rw [hu.tasks]
    exact fun t k hk => hu.tidy (hI.tidy t k hk)
  enters := by
    rw [hu.tasks]
    exact hI.enters
  unborn := by
    rw [hu.tasks, hu.removed]
    exact hI.unborn

/-- What the holder of the lock may change. -/
structure UnderLock (t : TaskId) (s u : State) : Prop where
  sessions : u.sessions = s.sessions
  next : u.nextSession = s.nextSession
  tasks : u.tasks = s.tasks
  removed : ∀ i, i ≠ t → u.history.removed i = s.history.removed i
  allocated : ∀ e ∈ u.pool.entries, e.session < u.nextSession

/-- The holder of the lock takes a step: it keeps the lock and what the section
owes, or it releases a consistent pool. -/
theorem PoolInv.locked {s u : State} {t : TaskId} {k k' : Task} (hI : PoolInv s)
    (hk : s.tasks[t]? = some k) (hin : k.pc.isLocked = true) (hu : UnderLock t s u)
    (htidy : Tidy u t k') (henters : k'.pc.enters = true)
    (hlock : (∃ sec, u.lock = some t ∧ k'.pc = .locked sec ∧ sec.Holds u) ∨
      (u.lock = none ∧ k'.pc.isLocked = false ∧ Consistent u)) :
    PoolInv (u.setTask t k') where
  allocated := hu.allocated
  lockers := by
    intro i y hy hlocked
    rcases setTask_tasks hy with ⟨rfl, rfl⟩ | ⟨hne, hy⟩
    · rcases hlock with ⟨sec, hl, -, -⟩ | ⟨-, hout, -⟩
      · exact hl
      · rw [hout] at hlocked
        contradiction
    · rw [hu.tasks] at hy
      have hother := hI.lockers i y hy hlocked
      rw [hI.lockers t k hk hin, Option.some.injEq] at hother
      exact absurd hother.symm hne
  held := by
    intro i hi
    rcases hlock with ⟨sec, hl, hpc, hholds⟩ | ⟨hl, -, -⟩
    · obtain rfl : t = i := Option.some.inj (hl.symm.trans hi)
      exact ⟨k', sec, setTask_self (by rw [hu.tasks]; exact hk), hpc, hholds.withTasks _⟩
    · exact absurd (hl.symm.trans hi) (by simp)
  free := by
    intro hfree
    rcases hlock with ⟨sec, hl, -, -⟩ | ⟨-, -, hc⟩
    · exact absurd (hl.symm.trans hfree) (by simp)
    · exact hc.withTasks _
  tidy := by
    intro i y hy
    rcases setTask_tasks hy with ⟨rfl, rfl⟩ | ⟨hne, hy⟩
    · exact htidy.withTasks _
    · rw [hu.tasks] at hy
      have hold := hI.tidy i y hy
      refine ⟨fun x hx => ?_, fun x hx => ?_⟩
      · show x < u.nextSession ∧ (u.sessions x).openedFor = _ ∧ (u.sessions x).port = _
        rw [hu.next, hu.sessions]
        exact hold.carried x hx
      · have hx' : x ∈ s.history.removed i := by
          rw [← hu.removed i hne]
          exact hx
        show x < u.nextSession ∧ ((u.sessions x).cancelled = true ∨ _)
        rw [hu.next, hu.sessions]
        exact hold.removed x hx'
  enters := by
    intro i y hy
    rcases setTask_tasks hy with ⟨-, rfl⟩ | ⟨-, hy⟩
    · exact henters
    · rw [hu.tasks] at hy
      exact hI.enters i y hy
  unborn := by
    intro i hi
    have hlen : s.tasks.length ≤ i := by simpa [State.setTask, hu.tasks] using hi
    have hne : i ≠ t := by
      have := (List.getElem?_eq_some_iff.1 hk).1
      omega
    exact (hu.removed i hne).trans (hI.unborn i hlen)

/-- A task of the longer list is an old one or the new one. -/
theorem spawn_tasks {s : State} {i : TaskId} {k y : Task}
    (h : (s.spawn k).tasks[i]? = some y) :
    s.tasks[i]? = some y ∨ (i = s.tasks.length ∧ y = k) := by
  simp only [State.spawn] at h
  by_cases hi : i < s.tasks.length
  · rw [List.getElem?_append_left hi] at h
    exact .inl h
  · rw [List.getElem?_append_right (Nat.le_of_not_lt hi)] at h
    obtain ⟨hlt, hy⟩ := List.getElem?_eq_some_iff.1 h
    have hzero : i - s.tasks.length = 0 := Nat.lt_one_iff.1 hlt
    refine .inr ⟨?_, by simpa [hzero] using hy.symm⟩
    exact Nat.le_antisymm (Nat.sub_eq_zero_iff_le.1 hzero) (Nat.le_of_not_lt hi)

theorem PoolInv.spawn {s : State} {k : Task} (hI : PoolInv s) (hk : k.Starts) :
    PoolInv (s.spawn k) where
  allocated := hI.allocated
  lockers := by
    intro i y hy hlocked
    rcases spawn_tasks hy with hy | ⟨-, rfl⟩
    · exact hI.lockers i y hy hlocked
    · rw [hk.plain.unlocked] at hlocked
      contradiction
  held := by
    intro i hi
    obtain ⟨y, sec, hy, hpc, hholds⟩ := hI.held i hi
    refine ⟨y, sec, ?_, hpc, hholds.withTasks _⟩
    show (s.tasks ++ [k])[i]? = some y
    rw [List.getElem?_append_left (List.getElem?_eq_some_iff.1 hy).1]
    exact hy
  free := fun h => (hI.free h).withTasks _
  tidy := by
    intro i y hy
    rcases spawn_tasks hy with hy | ⟨rfl, rfl⟩
    · exact (hI.tidy i y hy).withTasks _
    · refine ⟨fun x hx => ?_, fun x hx => ?_⟩
      · rw [hk.plain.carried] at hx
        contradiction
      · rw [show (s.spawn y).history.removed s.tasks.length = [] from hI.unborn _ le_rfl] at hx
        contradiction
  enters := by
    intro i y hy
    rcases spawn_tasks hy with hy | ⟨-, rfl⟩
    · exact hI.enters i y hy
    · exact hk.plain.enters
  unborn := by
    intro i hi
    refine hI.unborn i ?_
    simp only [State.spawn, List.length_append, List.length_singleton] at hi
    omega

/-- What the moving task is left with. -/
theorem TaskMove.tidy {s u : State} {t : TaskId} {k k' : Task} (h : TaskMove s k u k')
    (ht : Tidy s t k) : Tidy u t k' := by
  have hu := h.extends.tidy ht
  cases h with
  | movesOn permits k' h =>
      refine ⟨fun x hx => ?_, fun x hx => ?_⟩
      · rw [h.carried] at hx
        contradiction
      · obtain ⟨hlt, hcase⟩ := hu.removed x hx
        rw [h.settled] at hcase
        exact ⟨hlt, .inl (hcase.resolve_right (by simp))⟩
  | lookup ready h =>
      refine ⟨fun x hx => by contradiction, fun x hx => ?_⟩
      simpa [h] using hu.removed x hx
  | load look h =>
      refine ⟨fun x hx => by contradiction, fun x hx => ?_⟩
      simpa [h] using hu.removed x hx
  | choose look x rest h hserves =>
      refine ⟨fun x hx => by contradiction, fun x hx => ?_⟩
      simpa [h] using hu.removed x hx
  | cancel x todo after h =>
      refine ⟨fun y hy => by contradiction, fun y hy => ?_⟩
      obtain ⟨hlt, hcase⟩ := hu.removed y hy
      refine ⟨hlt, ?_⟩
      rcases hcase with hc | hin
      · exact .inl hc
      · rw [h] at hin
        rcases List.mem_cons.1 hin with rfl | hin
        · exact .inl (by simp [State.updSession, Session.cancel])
        · exact .inr hin
  | opened inner h =>
      refine ⟨fun x hx => ?_, fun x hx => ?_⟩
      · simp only [Pc.carried, Option.some.injEq] at hx
        subst hx
        simp [State.openSession, Session.fromSpdy]
      · simpa [h] using hu.removed x hx
  | prefetched inner h =>
      refine ⟨fun x hx => ?_, fun x hx => ?_⟩
      · simp only [Pc.carried, Option.some.injEq] at hx
        subst hx
        simp [State.openSession, Session.fromSpdy]
      · simpa [h] using hu.removed x hx
  | releaseSlot out h hslot => exact ⟨hu.carried, hu.removed⟩
  | ensured x h hslot =>
      refine ⟨fun x hx => by contradiction, fun x hx => ?_⟩
      simpa [h] using hu.removed x hx
  | connect x ns pc' h hpc =>
      have hplain : pc'.carried = none := by
        rcases hpc with rfl | ⟨e, rfl⟩ | ⟨stream, pod, rfl⟩ <;> rfl
      refine ⟨fun y hy => ?_, fun y hy => ?_⟩
      · rw [show ({ k with pc := pc' } : Task).pc.carried = pc'.carried from rfl, hplain] at hy
        contradiction
      · obtain ⟨hlt, hcase⟩ := hu.removed y hy
        rw [h] at hcase
        exact ⟨hlt, .inl (hcase.resolve_right (by simp))⟩

theorem TaskMove.unlocked {s u : State} {k k' : Task} (h : TaskMove s k u k') :
    k.pc.isLocked = false ∧ k'.pc.isLocked = false ∧ k'.pc.enters = true := by
  cases h with
  | movesOn permits k' h => exact ⟨h.outside, h.unlocked, h.enters⟩
  | connect x ns pc' h hpc =>
      refine ⟨by rw [h]; rfl, ?_⟩
      rcases hpc with rfl | ⟨e, rfl⟩ | ⟨stream, pod, rfl⟩ <;> exact ⟨rfl, rfl⟩
  | _ => simp_all

/-! ## The locked sections -/

theorem PoolInv.sessions_lt {s : State} {x : SessionId} (hI : PoolInv s)
    (hx : x ∈ s.pool.sessions) : x < s.nextSession := by
  obtain ⟨e, he, rfl⟩ := List.mem_map.1 hx
  exact hI.allocated e he

section

variable {cfg : ForwarderConfig} {s s' : State} {t : TaskId} {k : Task} {c : Choice}

/-- The removals of the holder are as they were. -/
theorem Tidy.goto {u : State} (ht : Tidy s t k) (hu : UnderLock t s u) {k' : Task}
    (hremoved : u.history.removed t = s.history.removed t)
    (hpending : ∀ x ∈ k.pc.pending, x ∈ k'.pc.pending)
    (hready : k'.ready = k.ready ∧ k'.port = k.port)
    (hcarried : ∀ x, k'.pc.carried = some x → k.pc.carried = some x) : Tidy u t k' where
  carried := by
    intro x hx
    rw [hu.next, hu.sessions, hready.1, hready.2]
    exact ht.carried x (hcarried x hx)
  removed := by
    intro x hx
    rw [hremoved] at hx
    rw [hu.next, hu.sessions]
    obtain ⟨hlt, hcase⟩ := ht.removed x hx
    exact ⟨hlt, hcase.imp_right (hpending x)⟩

/-- A section goes on with the same entries. -/
theorem PoolInv.stay {u : State} {k' : Task} {sec' : Section} (hI : PoolInv s)
    (hk : s.tasks[t]? = some k) (hin : k.pc.isLocked = true) (hu : UnderLock t s u)
    (hlock : u.lock = s.lock) (htidy : Tidy u t k') (hpc' : k'.pc = .locked sec')
    (hholds : sec'.Holds u) : PoolInv (u.setTask t k') :=
  hI.locked hk hin hu htidy (by rw [hpc']; rfl)
    (.inl ⟨sec', hlock.trans (hI.lockers t k hk hin), hpc', hholds⟩)

/-- The lock is released over entries, target and snapshot that agree. -/
theorem PoolInv.release {u : State} {k' : Task} (hI : PoolInv s)
    (hk : s.tasks[t]? = some k) (hin : k.pc.isLocked = true) (hu : UnderLock t s u)
    (htidy : Tidy u t k') (hpc' : k'.pc.isLocked = false ∧ k'.pc.enters = true)
    (hc : Consistent u) : PoolInv (u.unlock.setTask t k') :=
  hI.locked hk hin (u := u.unlock) ⟨hu.sessions, hu.next, hu.tasks, hu.removed, hu.allocated⟩
    ⟨htidy.carried, htidy.removed⟩ hpc'.2 (.inr ⟨rfl, hpc'.1, hc.published, hc.targeted⟩)

theorem UnderLock.rfl (hI : PoolInv s) : UnderLock t s s :=
  ⟨Eq.refl _, Eq.refl _, Eq.refl _, fun _ _ => Eq.refl _, hI.allocated⟩

/-- Pools with other contents, but with entries that exist. -/
theorem setPool_underLock {pool : SessionPool}
    (hall : ∀ e ∈ pool.entries, e.session < s.nextSession) :
    UnderLock t s (s.setPool pool) :=
  ⟨rfl, rfl, rfl, fun _ _ => rfl, hall⟩

theorem logRemoved_underLock {pool : SessionPool} {removed : List SessionId}
    (hall : ∀ e ∈ pool.entries, e.session < s.nextSession) :
    UnderLock t s ((s.setPool pool).logRemoved t removed) :=
  ⟨rfl, rfl, rfl, fun _ hi => Function.update_of_ne hi _ _, hall⟩

/-- The holder has just taken sessions out of the entries. -/
theorem Tidy.remove (hI : PoolInv s) (ht : Tidy s t k) {pool : SessionPool}
    {removed : List SessionId} {k' : Task} (hfrom : ∀ x ∈ removed, x ∈ s.pool.sessions)
    (hsettled : k.pc.pending = []) (hpending : k'.pc.pending = removed)
    (hcarried : k'.pc.carried = none) :
    Tidy ((s.setPool pool).logRemoved t removed) t k' where
  carried := by
    intro x hx
    rw [hcarried] at hx
    contradiction
  removed := by
    intro x hx
    have hx' : x ∈ s.history.removed t ++ removed := by
      simpa [State.logRemoved, State.setPool] using hx
    rcases List.mem_append.1 hx' with hx | hx
    · obtain ⟨hlt, hcase⟩ := ht.removed x hx
      rw [hsettled] at hcase
      exact ⟨hlt, .inl (hcase.resolve_right (by simp))⟩
    · exact ⟨hI.sessions_lt (hfrom x hx), .inr (by rw [hpending]; exact hx)⟩

/-- An `extract_if` that is done leaves what it kept. -/
theorem Extracting.finish {kept rest : List PooledSession} {removed : List SessionId}
    {a : After} (hI : PoolInv s) (hk : s.tasks[t]? = some k)
    (hin : k.pc.isLocked = true) (hsettled : k.pc.pending = [])
    (hx : Extracting s kept rest removed)
    (h : (if removed = [] then
        some ((((s.setPool { s.pool with entries := kept ++ rest }).logRemoved t
          removed).unlock).setTask t { k with pc := .cancelling [] a })
      else some (((s.setPool { s.pool with entries := kept ++ rest }).logRemoved t
        removed).setTask t { k with pc := .locked (.publish removed a) })) = some s') :
    PoolInv s' := by
  have hall : ∀ e ∈ kept ++ rest, e.session < s.nextSession :=
    fun e he => hI.allocated e (hx.left e he)
  have hu : UnderLock t s ((s.setPool { s.pool with entries := kept ++ rest }).logRemoved t
    removed) := logRemoved_underLock hall
  have htargeted : ∀ e ∈ kept ++ rest, some (s.sessions e.session).openedFor = s.pool.target :=
    fun e he => hx.consistent.targeted e (hx.left e he)
  split at h <;> cases h
  · next hnil =>
      subst hnil
      refine hI.release hk hin hu (.remove hI (hI.tidy t k hk) (by simp) hsettled rfl rfl)
        ⟨rfl, rfl⟩ ⟨?_, htargeted⟩
      show s.pool.snapshot = (kept ++ rest).map (·.session)
      rw [hx.untouched rfl]
      exact hx.consistent.published
  · exact hI.stay hk hin hu rfl (.remove hI (hI.tidy t k hk) hx.taken hsettled rfl rfl) rfl
      htargeted

/-- One entry of an `extract_if` is examined and stays or goes. -/
theorem Extracting.keep {kept rest : List PooledSession} {removed : List SessionId}
    {e : PooledSession} (h : Extracting s kept (e :: rest) removed) :
    Extracting s (kept ++ [e]) rest removed where
  consistent := h.consistent
  left := by simpa using h.left
  taken := h.taken
  untouched := by simpa using h.untouched

theorem Extracting.take {kept rest : List PooledSession} {removed : List SessionId}
    {e : PooledSession} (h : Extracting s kept (e :: rest) removed) :
    Extracting s kept rest (removed ++ [e.session]) where
  consistent := h.consistent
  left := by
    intro y hy
    refine h.left y ?_
    rcases List.mem_append.1 hy with hy | hy
    · exact List.mem_append_left _ hy
    · exact List.mem_append_right _ (List.mem_cons_of_mem _ hy)
  taken := by
    intro x hx
    rcases List.mem_append.1 hx with hx | hx
    · exact h.taken x hx
    · rw [List.mem_singleton.1 hx]
      exact List.mem_map_of_mem (h.left e (by simp))
  untouched := by simp

/-- A session opened for the current target may be pushed. -/
theorem push_targeted {pool : SessionPool} {x : SessionId} (hentries : pool.entries = s.pool.entries)
    (htarget : pool.target = some k.ready) (hsame : pool.target = s.pool.target)
    (ht : Targeted s) (hx : (s.sessions x).openedFor = k.ready) :
    Targeted (s.setPool (pool.push x s.now)) := by
  intro e he
  show some (s.sessions e.session).openedFor = pool.target
  rcases List.mem_append.1 he with he | he
  · rw [hsame]
    exact ht e (hentries ▸ he)
  · rw [List.mem_singleton.1 he, hx, htarget]

theorem push_allocated {pool : SessionPool} {x : SessionId} (hI : PoolInv s)
    (hentries : pool.entries = s.pool.entries) (hx : x < s.nextSession) :
    ∀ e ∈ (pool.push x s.now).entries, e.session < s.nextSession := by
  intro e he
  rcases List.mem_append.1 he with he | he
  · exact hI.allocated e (hentries ▸ he)
  · rw [List.mem_singleton.1 he]
    exact hx

/-- What the section of the holder owes. -/
theorem PoolInv.holds {sec : Section} (hI : PoolInv s) (hk : s.tasks[t]? = some k)
    (hpc : k.pc = .locked sec) : sec.Holds s := by
  have hlock := hI.lockers t k hk (by rw [hpc]; rfl)
  obtain ⟨k₀, sec₀, hk₀, hpc₀, hs⟩ := hI.held t hlock
  rw [hk, Option.some.injEq] at hk₀
  rw [← hk₀, hpc, Pc.locked.injEq] at hpc₀
  rw [hpc₀]
  exact hs

theorem lockedStep_poolInv {sec : Section} (hI : PoolInv s) (hk : s.tasks[t]? = some k)
    (hpc : k.pc = .locked sec) (h : lockedStep cfg t k s sec c = some s') : PoolInv s' := by
  have hin : k.pc.isLocked = true := by rw [hpc]; rfl
  have ht := hI.tidy t k hk
  have hholds := hI.holds hk hpc
  have hgoto : ∀ {u : State} (k' : Task), UnderLock t s u →
      u.history.removed t = s.history.removed t → k'.pc.pending = k.pc.pending →
      k'.ready = k.ready ∧ k'.port = k.port → k'.pc.carried = none → Tidy u t k' := by
    intro u k' hu hremoved hpending hready hcarried
    refine ht.goto hu hremoved (fun x hx => hpending ▸ hx) hready fun x hx => ?_
    rw [hcarried] at hx
    contradiction
  have hpool : ∀ (target : Option ReadyPod) (n : Nat) (b : Bool),
      UnderLock t s (s.setPool { s.pool with
        target := target, openingCount := n, prefetchInFlight := b }) :=
    fun _ _ _ => setPool_underLock hI.allocated
  unfold lockedStep at h
  split at h
  · split at h <;> cases h
    · exact hI.release hk hin (.rfl hI) (hgoto _ (.rfl hI) rfl (by rw [hpc]; rfl) ⟨rfl, rfl⟩ rfl)
        ⟨rfl, rfl⟩ hholds
    · exact hI.stay hk hin (hpool _ _ _) rfl
        (hgoto _ (hpool _ _ _) rfl (by rw [hpc]; rfl) ⟨rfl, rfl⟩ rfl) rfl trivial
  · cases h
    exact hI.stay hk hin (hpool _ _ _) rfl
      (hgoto _ (hpool _ _ _) rfl (by rw [hpc]; rfl) ⟨rfl, rfl⟩ rfl) rfl trivial
  · have hfinish : PoolInv (s.unlock.setTask t { k with pc := .finished }) :=
      hI.release hk hin (.rfl hI) (hgoto _ (.rfl hI) rfl (by rw [hpc]; rfl) ⟨rfl, rfl⟩ rfl)
        ⟨rfl, rfl⟩ hholds
    split at h
    · cases h
      exact hfinish
    · split at h <;> cases h
      · exact hfinish
      · exact hI.stay hk hin (hpool _ _ _) rfl
          (hgoto _ (hpool _ _ _) rfl (by rw [hpc]; rfl) ⟨rfl, rfl⟩ rfl) rfl trivial
  · cases h
    refine hI.stay hk hin (logRemoved_underLock (by simp)) rfl
      (.remove hI ht (fun _ hx => hx) (by simp [hpc]) rfl rfl) rfl ?_
    intro e he
    contradiction
  · cases h
    have hrefresh : UnderLock t s s.refresh := ⟨rfl, rfl, rfl, fun _ _ => rfl, hI.allocated⟩
    exact hI.release hk hin hrefresh
      (hgoto _ hrefresh rfl (by rw [hpc]; rfl) ⟨rfl, rfl⟩ rfl) ⟨rfl, rfl⟩ ⟨rfl, hholds⟩
  · cases h
    exact hI.stay hk hin (.rfl hI) rfl
      (hgoto _ (.rfl hI) rfl (by rw [hpc]; rfl) ⟨rfl, rfl⟩ rfl) rfl
      ⟨hholds, by simp, by simp, by simp⟩
  · next kept e rest removed _ =>
      cases h
      refine hI.stay hk hin (.rfl hI) rfl
        (hgoto _ (.rfl hI) rfl ?_ ⟨rfl, rfl⟩ ?_) rfl ?_
      · rw [hpc]
        split <;> rfl
      · split <;> rfl
      · split
        · exact hholds.take
        · exact hholds.keep
  · next kept removed =>
      refine hholds.finish (a := .look .retired) hI hk hin (by rw [hpc]; rfl) ?_
      rw [List.append_nil]
      exact h
  · cases h
    exact hI.stay hk hin (.rfl hI) rfl
      (hgoto _ (.rfl hI) rfl (by rw [hpc]; rfl) ⟨rfl, rfl⟩ rfl) rfl
      ⟨hholds, by simp, by simp, by simp⟩
  · next left kept e rest removed _ =>
      cases h
      refine hI.stay hk hin (.rfl hI) rfl
        (hgoto _ (.rfl hI) rfl ?_ ⟨rfl, rfl⟩ ?_) rfl ?_
      · rw [hpc]
        split <;> rfl
      · split <;> rfl
      · split
        · exact hholds.take
        · exact hholds.keep
  · exact hholds.finish (a := .finish) hI hk hin (by rw [hpc]; rfl) h
  · next x =>
      obtain ⟨hlt, hpod, hport⟩ := ht.carried x (by rw [hpc]; rfl)
      split at h <;> cases h
      · next htarget =>
          have hu : UnderLock t s (s.setPool (s.pool.push x s.now)) :=
            setPool_underLock (push_allocated hI rfl hlt)
          exact hI.stay hk hin hu rfl (hgoto _ hu rfl (by rw [hpc]; rfl) ⟨rfl, rfl⟩ rfl) rfl
            (push_targeted rfl htarget rfl hholds.targeted hpod)
      · refine hI.release hk hin (.rfl hI) ?_ ⟨rfl, rfl⟩ hholds
        refine ht.goto (.rfl hI) rfl ?_ ⟨rfl, rfl⟩ ?_
        · simp [hpc]
        · simp
  · cases h
    have hrefresh : UnderLock t s s.refresh := ⟨rfl, rfl, rfl, fun _ _ => rfl, hI.allocated⟩
    exact hI.release hk hin hrefresh
      (hgoto _ hrefresh rfl (by rw [hpc]; rfl) ⟨rfl, rfl⟩ rfl) ⟨rfl, rfl⟩ ⟨rfl, hholds⟩
  · simp only at h
    split at h <;> cases h
    · exact hI.release hk hin (.rfl hI) (hgoto _ (.rfl hI) rfl (by rw [hpc]; rfl) ⟨rfl, rfl⟩ rfl)
        ⟨rfl, rfl⟩ hholds
    · exact hI.stay hk hin (.rfl hI) rfl
        (hgoto _ (.rfl hI) rfl (by rw [hpc]; rfl) ⟨rfl, rfl⟩ rfl) rfl hholds
  · cases h
    exact hI.release hk hin (hpool _ _ _)
      (hgoto _ (hpool _ _ _) rfl (by rw [hpc]; rfl) ⟨rfl, rfl⟩ rfl) ⟨rfl, rfl⟩
      ⟨hholds.published, hholds.targeted⟩
  · split at h <;> cases h
    · exact hI.release hk hin (.rfl hI) (hgoto _ (.rfl hI) rfl (by rw [hpc]; rfl) ⟨rfl, rfl⟩ rfl)
        ⟨rfl, rfl⟩ hholds
    · exact hI.release hk hin (hpool _ _ _)
        (hgoto _ (hpool _ _ _) rfl (by rw [hpc]; rfl) ⟨rfl, rfl⟩ rfl) ⟨rfl, rfl⟩
        ⟨hholds.published, hholds.targeted⟩
  · simp only at h
    split at h
    · cases h
      exact hI.release hk hin (hpool _ _ _)
        (hgoto _ (hpool _ _ _) rfl (by rw [hpc]; rfl) ⟨rfl, rfl⟩ rfl) ⟨rfl, rfl⟩
        ⟨hholds.published, hholds.targeted⟩
    · next x =>
        obtain ⟨hlt, hpod, hport⟩ := ht.carried x (by rw [hpc]; rfl)
        split at h <;> cases h
        · next htarget =>
            have hu : UnderLock t s (s.setPool
                (({ s.pool with prefetchInFlight := false } : SessionPool).push x s.now)) :=
              setPool_underLock (push_allocated hI rfl hlt)
            exact hI.stay hk hin hu rfl (hgoto _ hu rfl (by rw [hpc]; rfl) ⟨rfl, rfl⟩ rfl) rfl
              (push_targeted rfl htarget.2 rfl hholds.targeted hpod)
        · refine hI.release hk hin (hpool _ _ _) ?_ ⟨rfl, rfl⟩ ⟨hholds.published, hholds.targeted⟩
          refine ht.goto (hpool _ _ _) rfl ?_ ⟨rfl, rfl⟩ ?_
          · simp [hpc]
          · simp
  · cases h
    have hrefresh : UnderLock t s s.refresh := ⟨rfl, rfl, rfl, fun _ _ => rfl, hI.allocated⟩
    exact hI.release hk hin hrefresh
      (hgoto _ hrefresh rfl (by rw [hpc]; rfl) ⟨rfl, rfl⟩ rfl) ⟨rfl, rfl⟩ ⟨rfl, hholds⟩
  · contradiction

end

/-! ## Every step -/

theorem PoolInv.acquire {s : State} {t : TaskId} {k : Task} {sec : Section} (hI : PoolInv s)
    (hk : s.tasks[t]? = some k) (hpc : k.pc = .acquire sec) (hlock : s.lock = none) :
    PoolInv (({ s with lock := some t } : State).setTask t { k with pc := .locked sec }) := by
  have hentry : sec.isEntry = true := by simpa [hpc] using hI.enters t k hk
  have hholds : sec.Holds s := by
    cases sec <;> first | contradiction | exact hI.free hlock
  have ht := hI.tidy t k hk
  have htidy : Tidy s t { k with pc := .locked sec } := by
    refine ht.goto (.rfl hI) rfl (by simp [hpc]) ⟨rfl, rfl⟩ fun x hx => ?_
    rw [hpc]
    cases sec <;> first | contradiction | exact hx
  have hnobody : ∀ (i : TaskId) (y : Task), s.tasks[i]? = some y → y.pc.isLocked = false := by
    intro i y hy
    cases hl : y.pc.isLocked with
    | false => rfl
    | true => exact absurd (hI.lockers i y hy hl) (by rw [hlock]; simp)
  refine ⟨hI.allocated, ?_, ?_, ?_, ?_, ?_, ?_⟩
  · intro i y hy hlocked
    rcases setTask_tasks hy with ⟨rfl, -⟩ | ⟨-, hy⟩
    · rfl
    · rw [hnobody i y hy] at hlocked
      contradiction
  · intro i hi
    obtain rfl : t = i := Option.some.inj hi
    refine ⟨_, sec, setTask_self hk, rfl, ?_⟩
    cases sec <;> first | contradiction | exact ⟨hholds.published, hholds.targeted⟩
  · intro hfree
    contradiction
  · intro i y hy
    rcases setTask_tasks hy with ⟨rfl, rfl⟩ | ⟨-, hy⟩
    · exact ⟨htidy.carried, htidy.removed⟩
    · exact ⟨(hI.tidy i y hy).carried, (hI.tidy i y hy).removed⟩
  · intro i y hy
    rcases setTask_tasks hy with ⟨-, rfl⟩ | ⟨-, hy⟩
    · rfl
    · exact hI.enters i y hy
  · intro i hi
    exact hI.unborn i (by simpa [State.setTask] using hi)

theorem step_poolInv {cfg : ForwarderConfig} {s s' : State} {a : Act} (hI : PoolInv s)
    (h : step cfg s a = some s') : PoolInv s' := by
  obtain ⟨k, hk, rfl⟩ | ⟨t, k, sec, c, -, hk, hpc, hl⟩ | ⟨t, k, sec, hk, hpc, hlock, rfl⟩ |
    ⟨t, k, x, hk, hpc, rfl⟩ | ⟨t, k, u, k', hk, -, hmove, rfl⟩ |
    ⟨x, inner, spares, cancel, rfl⟩ | rfl := step_cases h
  · exact hI.spawn hk
  · exact lockedStep_poolInv hI hk hpc hl
  · exact hI.acquire hk hpc hlock
  · have hout : k.pc.isLocked = false := by rw [hpc]; rfl
    have htidy : Tidy s t { k with pc := .leave (.ok x) } :=
      (hI.tidy t k hk).goto (.rfl hI) rfl (by simp [hpc]) ⟨rfl, rfl⟩ (by simp)
    have hu : Extends s s := .of_eq ⟨rfl, rfl, rfl⟩ rfl rfl rfl rfl rfl rfl
    exact (hI.move hk hout hu htidy rfl rfl).spawn
      ⟨⟨rfl, rfl, rfl, rfl, rfl, rfl⟩, rfl, rfl, rfl⟩
  · obtain ⟨hout, hout', henters⟩ := hmove.unlocked
    exact hI.move hk hout hmove.extends (hmove.tidy (hI.tidy t k hk)) hout' henters
  · have hu := updSession_extends s x (fun y =>
      { y with
        inner := inner
        spareStreams := spares
        cancelled := y.cancelled || cancel }) rfl rfl (fun hc => by simp [hc])
    exact hI.extend hu
  · exact hI.extend (.of_eq ⟨rfl, rfl, rfl⟩ rfl rfl rfl rfl rfl rfl)

theorem poolInv_invariant (cfg : ForwarderConfig) : (forwarder cfg).Invariant anyStep PoolInv :=
  Invariant.of_step poolInv_init fun _ _ _ hI _ h => step_poolInv hI h

/-! ## The pool -/

/-- The snapshot lists the sessions of the entries in order, and every entry was
opened for the current target, so that a pool without one is empty. -/
structure PoolAgrees (s : State) : Prop where
  published : s.pool.snapshot = s.pool.entries.map (·.session)
  targeted : ∀ e ∈ s.pool.entries, some (s.sessions e.session).openedFor = s.pool.target
  empty : s.pool.target = none → s.pool.entries = []

/-- The task is between taking sessions out of the entries and cancelling the
last of them. -/
def Pc.removing : Pc → Bool
  | .locked (.publish _ _) => true
  | .cancelling _ _ => true
  | _ => false

theorem Pc.pending_of_removing {pc : Pc} (h : pc.removing = false) : pc.pending = [] := by
  cases pc with
  | locked sec => cases sec <;> simp_all [Pc.removing]
  | cancelling todo after => simp [Pc.removing] at h
  | _ => rfl

/-- Any number of tasks, every interleaving: a pool that is not locked agrees
with its snapshot and its target, and a task that is done removing has
cancelled every session it removed. -/
theorem pool_invariant (cfg : ForwarderConfig) (acts : List Act) (s : State)
    (hrun : (forwarder cfg).run (forwarder cfg).init acts = some s) :
    (s.lock = none → PoolAgrees s) ∧
      ∀ t k, s.tasks[t]? = some k → k.pc.removing = false →
        ∀ x ∈ s.history.removed t, (s.sessions x).cancelled = true := by
  have hI := poolInv_invariant cfg acts s hrun (meets_anyStep _ _)
  refine ⟨fun hlock => ?_, fun t k hk hdone x hx => ?_⟩
  · obtain ⟨hpub, htarget⟩ := hI.free hlock
    refine ⟨hpub, htarget, fun hnone => ?_⟩
    cases hentries : s.pool.entries with
    | nil => rfl
    | cons e rest =>
        have := htarget e (by rw [hentries]; exact List.mem_cons_self ..)
        rw [hnone] at this
        contradiction
  · rcases ((hI.tidy t k hk).removed x hx).2 with hc | hin
    · exact hc
    · rw [Pc.pending_of_removing hdone] at hin
      contradiction

/-- A session over one idle connection. -/
def idleSession : Mux.Session where
  cfg := .default
  pool := [{ shared := .init .default, opened := 0, rttNs := 0 }]
  next := 0

/-- Task `t` takes `n` steps for which the environment is not asked. -/
def goActs (t : TaskId) (n : Nat) : List Act := List.replicate n (.task t .go)

/-- Call `t` finds no session for `pod`, which is not the target yet, opens one
and returns it. -/
def openForActs (t : TaskId) (pod : ReadyPod) : List Act :=
  [Act.task t .go, .task t (.pod (some pod))] ++ goActs t 18 ++
    [Act.task t (.permit .acquired), .task t (.opened (.ok idleSession))] ++ goActs t 7

/-- A call to port 8080 opens a session for its pod, and the pod dies. -/
def podDeathActs : List Act :=
  [Act.connect 8080] ++ openForActs 0 ⟨"web-0", some "a"⟩ ++
    [Act.podDied "web-0", .task 1 .go, .task 1 (.contains false)] ++ goActs 1 4

theorem pool_invariant_pod_death :
    ∃ s, (forwarder .default).run (forwarder .default).init podDeathActs = some s ∧
      s.history.removed 1 = [0] ∧ (s.lock = none → PoolAgrees s) ∧
      ∀ t k, s.tasks[t]? = some k → k.pc.removing = false →
        ∀ x ∈ s.history.removed t, (s.sessions x).cancelled = true := by
  have hremoved : ((forwarder .default).run (forwarder .default).init podDeathActs).map
      (fun s => s.history.removed 1) = some [0] := by decide +kernel
  obtain ⟨s, hrun, hs⟩ := Option.map_eq_some_iff.1 hremoved
  exact ⟨s, hrun, hs, pool_invariant _ _ s hrun⟩

end KubePortForward.Forwarder

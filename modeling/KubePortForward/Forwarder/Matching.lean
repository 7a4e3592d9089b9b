import KubePortForward.Forwarder.PoolInvariant

/-!
# The pod of the session a call returns

A call resolves a pod, has the pool retargeted to it if necessary, and later
reads the snapshot without the lock.  The snapshot may by then have been
published for a pod that another call has resolved: its sessions are chosen by
port alone.

## Main results

* `ensured_matches` — in a run in which no call loads a snapshot that holds a
  session to its port and was published for another pod than its own, every
  session is returned with the pod it was opened for and the port asked for.
* `reuse_across_retarget` — a call that returns another pod's session.
-/

namespace KubePortForward.Forwarder

open KubePortForward.Verified.Transition

/-! ## The condition -/

/-- A snapshot with a session to the port of the call that loads it was
published for the pod which that call has resolved. -/
def LoadsOwnPod (s : State) : Act → Prop
  | .task t _ =>
      match s.tasks[t]? with
      | some k =>
          match k.pc with
          | .load _ => s.history.publishedFor = some k.ready ∨
              ∀ x ∈ s.pool.snapshot, (s.sessions x).port ≠ k.port
          | _ => True
      | none => True
  | _ => True

instance (s : State) (a : Act) : Decidable (LoadsOwnPod s a) := by
  unfold LoadsOwnPod
  induction a using Act.casesOn with
  | task t choice =>
      dsimp only
      generalize s.tasks[t]? = k
      induction k using Option.casesOn with
      | none => infer_instance
      | some k =>
          dsimp only
          generalize k.pc = pc
          induction pc using Pc.casesOn <;> infer_instance
  | _ => infer_instance

/-! ## What a call knows about the sessions it looks at -/

/-- Sessions that the call may still choose are its pod's if they are to its
port; the session it has chosen is its pod's and to its port. -/
structure Suits (s : State) (k : Task) : Prop where
  unexamined : ∀ x ∈ k.pc.unexamined, x < s.nextSession ∧
    ((s.sessions x).port = k.port → (s.sessions x).openedFor = k.ready)
  chosen : ∀ x, k.pc.chosen = some x → x < s.nextSession ∧
    (s.sessions x).openedFor = k.ready ∧ (s.sessions x).port = k.port

/-- A result of `ensure_session_for_pod` is a session opened for the pod it
names, to the port that was asked for. -/
def Ensured.Matches (s : State) (e : Ensured) : Prop :=
  (s.sessions e.session).openedFor = e.pod ∧ (s.sessions e.session).port = e.targetPort

structure Matched (s : State) : Prop where
  snapshot : ∀ x ∈ s.pool.snapshot, x < s.nextSession ∧
    some (s.sessions x).openedFor = s.history.publishedFor
  tasks : ∀ (t : TaskId) (k : Task), s.tasks[t]? = some k → Suits s k
  ensured : ∀ e ∈ s.history.ensured, e.session < s.nextSession ∧ e.Matches s

theorem matched_init : Matched State.init := by
  constructor <;> simp [State.init, SessionPool.new]

/-- A call that looks at no session. -/
theorem Suits.of_none {s : State} {k : Task} (hun : k.pc.unexamined = [])
    (hch : k.pc.chosen = none) : Suits s k where
  unexamined := by
    intro x hx
    rw [hun] at hx
    contradiction
  chosen := by
    intro x hx
    rw [hch] at hx
    contradiction

theorem Extends.suits {s u : State} {k : Task} (h : Extends s u) (hk : Suits s k) :
    Suits u k where
  unexamined := by
    intro x hx
    obtain ⟨hlt, himp⟩ := hk.unexamined x hx
    rw [h.openedFor x hlt, h.port x hlt]
    exact ⟨hlt.trans_le h.next, himp⟩
  chosen := by
    intro x hx
    obtain ⟨hlt, hpod, hport⟩ := hk.chosen x hx
    rw [h.openedFor x hlt, h.port x hlt]
    exact ⟨hlt.trans_le h.next, hpod, hport⟩

theorem Extends.ensuredMatches {s u : State} {e : Ensured} (h : Extends s u)
    (he : e.session < s.nextSession ∧ e.Matches s) :
    e.session < u.nextSession ∧ e.Matches u := by
  obtain ⟨hlt, hpod, hport⟩ := he
  refine ⟨hlt.trans_le h.next, ?_, ?_⟩
  · rw [h.openedFor _ hlt]
    exact hpod
  · rw [h.port _ hlt]
    exact hport

/-! ## Tasks outside the lock -/

/-- The moving call still knows what it looks at. -/
theorem TaskMove.suits {s u : State} {k k' : Task} (h : TaskMove s k u k')
    (hI : Matched s) (hk : Suits s k)
    (hload : ∀ look, k.pc = .load look → s.history.publishedFor = some k.ready ∨
      ∀ x ∈ s.pool.snapshot, (s.sessions x).port ≠ k.port) : Suits u k' := by
  have hu := h.extends.suits hk
  cases h with
  | movesOn permits k' h =>
      refine ⟨fun x hx => ?_, fun x hx => ?_⟩
      · rw [h.port, h.ready]
        rcases h.unexamined with hnil | ⟨look, y, hscan⟩
        · rw [hnil] at hx
          contradiction
        · refine hu.unexamined x ?_
          rw [hscan]
          exact List.mem_cons_of_mem _ hx
      · rw [h.port, h.ready]
        exact hu.chosen x (h.chosen x hx)
  | lookup ready h => exact .of_none rfl rfl
  | load look h =>
      refine ⟨fun x hx => ?_, fun x hx => by contradiction⟩
      obtain ⟨hlt, hpub⟩ := hI.snapshot x hx
      refine ⟨hlt, fun hport => ?_⟩
      rcases hload look h with hsame | hnone
      · rw [hsame, Option.some.injEq] at hpub
        exact hpub
      · exact absurd hport (hnone x hx)
  | choose look x rest h hserves =>
      refine ⟨fun y hy => by contradiction, fun y hy => ?_⟩
      obtain rfl : x = y := Option.some.inj hy
      obtain ⟨hlt, himp⟩ := hu.unexamined x (by rw [h]; exact List.mem_cons_self ..)
      have hport : (s.sessions x).port = k.port := by
        simp only [Session.serves, Bool.and_eq_true, beq_iff_eq] at hserves
        exact hserves.1.1
      exact ⟨hlt, himp hport, hport⟩
  | cancel x todo after h => exact .of_none rfl rfl
  | opened inner h => exact .of_none rfl rfl
  | prefetched inner h => exact .of_none rfl rfl
  | releaseSlot out h hslot => exact ⟨hu.unexamined, hu.chosen⟩
  | ensured x h hslot => exact .of_none rfl rfl
  | connect x ns pc' h hpc =>
      rcases hpc with rfl | ⟨e, rfl⟩ | ⟨stream, pod, rfl⟩ <;> exact .of_none rfl rfl

/-- What a step of a call adds to the results is the session it has chosen. -/
theorem TaskMove.ensured_cases {s u : State} {k k' : Task} (h : TaskMove s k u k') :
    u.history.ensured = s.history.ensured ∨ ∃ x, k.pc.chosen = some x ∧
      u.history.ensured = s.history.ensured ++ [⟨k.port, x, k.ready⟩] := by
  cases h with
  | ensured x h hslot => exact .inr ⟨x, by rw [h]; rfl, rfl⟩
  | _ => exact .inl rfl

theorem Matched.move {s u : State} {t : TaskId} {k k' : Task} (hI : Matched s)
    (hk : s.tasks[t]? = some k) (h : TaskMove s k u k')
    (hload : ∀ look, k.pc = .load look → s.history.publishedFor = some k.ready ∨
      ∀ x ∈ s.pool.snapshot, (s.sessions x).port ≠ k.port) : Matched (u.setTask t k') := by
  have hu := h.extends
  have hsuits := h.suits hI (hI.tasks t k hk) hload
  refine ⟨fun x hx => ?_, fun i y hy => ?_, fun e he => ?_⟩
  · have hx' : x ∈ s.pool.snapshot := by
      rw [← hu.snapshot]
      exact hx
    obtain ⟨hlt, hpub⟩ := hI.snapshot x hx'
    refine ⟨hlt.trans_le hu.next, ?_⟩
    show some (u.sessions x).openedFor = u.history.publishedFor
    rw [hu.openedFor x hlt, hu.published]
    exact hpub
  · rcases setTask_tasks hy with ⟨-, rfl⟩ | ⟨-, hy⟩
    · exact ⟨hsuits.unexamined, hsuits.chosen⟩
    · rw [hu.tasks] at hy
      have hother := hu.suits (hI.tasks i y hy)
      exact ⟨hother.unexamined, hother.chosen⟩
  · have hold : ∀ e ∈ s.history.ensured, e.session < u.nextSession ∧ e.Matches u :=
      fun e he => hu.ensuredMatches (hI.ensured e he)
    rcases h.ensured_cases with hsame | ⟨x, hchosen, happ⟩
    · exact hold e (by rw [← hsame]; exact he)
    · have he' : e ∈ s.history.ensured ++ [⟨k.port, x, k.ready⟩] := by
        rw [← happ]
        exact he
      rcases List.mem_append.1 he' with he | he
      · exact hold e he
      · rw [List.mem_singleton.1 he]
        exact (hu.suits (hI.tasks t k hk)).chosen x hchosen

/-! ## The locked sections -/

section

variable {cfg : ForwarderConfig} {s s' : State} {t : TaskId} {k : Task} {c : Choice}

/-- The sessions and the results are as before, and the snapshot is the old one
or lists the entries. -/
structure Publishes (s u : State) : Prop where
  sessions : u.sessions = s.sessions
  next : u.nextSession = s.nextSession
  tasks : u.tasks = s.tasks
  ensured : u.history.ensured = s.history.ensured
  snapshot : (u.pool.snapshot = s.pool.snapshot ∧
      u.history.publishedFor = s.history.publishedFor) ∨
    (u.pool.snapshot = s.pool.sessions ∧ u.history.publishedFor = s.pool.target ∧ Targeted s)

theorem Publishes.of_same {u : State} (hsessions : u.sessions = s.sessions)
    (hnext : u.nextSession = s.nextSession) (htasks : u.tasks = s.tasks)
    (hensured : u.history.ensured = s.history.ensured)
    (hsnapshot : u.pool.snapshot = s.pool.snapshot)
    (hpublished : u.history.publishedFor = s.history.publishedFor) : Publishes s u :=
  ⟨hsessions, hnext, htasks, hensured, .inl ⟨hsnapshot, hpublished⟩⟩

theorem refresh_publishes (h : Targeted s) : Publishes s s.refresh.unlock :=
  ⟨rfl, rfl, rfl, rfl, .inr ⟨rfl, rfl, h⟩⟩

/-- The holder chooses no session but the one it has opened. -/
structure Task.Holds (k k' : Task) : Prop where
  port : k'.port = k.port
  ready : k'.ready = k.ready
  unexamined : k'.pc.unexamined = []
  chosen : ∀ x, k'.pc.chosen = some x → k.pc.chosen = some x ∨ k.pc.carried = some x

theorem Task.Holds.of_none {k' : Task} (hsame : k'.port = k.port ∧ k'.ready = k.ready)
    (hun : k'.pc.unexamined = []) (hch : k'.pc.chosen = none) : k.Holds k' where
  port := hsame.1
  ready := hsame.2
  unexamined := hun
  chosen := by
    intro x hx
    rw [hch] at hx
    contradiction

theorem Matched.locked {u : State} {k' : Task} (hP : PoolInv s) (hI : Matched s)
    (hk : s.tasks[t]? = some k) (hu : Publishes s u) (hk' : k.Holds k') :
    Matched (u.setTask t k') := by
  refine ⟨fun x hx => ?_, fun i y hy => ?_, fun e he => ?_⟩
  · show x < u.nextSession ∧ some (u.sessions x).openedFor = u.history.publishedFor
    rw [hu.next, hu.sessions]
    rcases hu.snapshot with ⟨hsnap, hpub⟩ | ⟨hsnap, hpub, htargeted⟩
    · rw [hpub]
      exact hI.snapshot x (hsnap ▸ hx)
    · have hx' : x ∈ s.pool.sessions := hsnap ▸ hx
      refine ⟨hP.sessions_lt hx', ?_⟩
      obtain ⟨e, he, rfl⟩ := List.mem_map.1 hx'
      rw [hpub]
      exact htargeted e he
  · rcases setTask_tasks hy with ⟨-, rfl⟩ | ⟨-, hy⟩
    · refine ⟨fun x hx => ?_, fun x hx => ?_⟩
      · rw [hk'.unexamined] at hx
        contradiction
      · show x < u.nextSession ∧ (u.sessions x).openedFor = y.ready ∧ (u.sessions x).port = y.port
        rw [hu.next, hu.sessions, hk'.ready, hk'.port]
        rcases hk'.chosen x hx with hchosen | hcarried
        · exact (hI.tasks t k hk).chosen x hchosen
        · exact (hP.tidy t k hk).carried x hcarried
    · rw [hu.tasks] at hy
      have hother := hI.tasks i y hy
      refine ⟨fun x hx => ?_, fun x hx => ?_⟩
      · show x < u.nextSession ∧ ((u.sessions x).port = y.port → (u.sessions x).openedFor = y.ready)
        rw [hu.next, hu.sessions]
        exact hother.unexamined x hx
      · show x < u.nextSession ∧ (u.sessions x).openedFor = y.ready ∧ (u.sessions x).port = y.port
        rw [hu.next, hu.sessions]
        exact hother.chosen x hx
  · have he' : e ∈ s.history.ensured := by
      rw [← hu.ensured]
      exact he
    show e.session < u.nextSession ∧ (u.sessions e.session).openedFor = e.pod ∧
      (u.sessions e.session).port = e.targetPort
    rw [hu.next, hu.sessions]
    exact hI.ensured e he'

theorem lockedStep_matched {sec : Section} (hP : PoolInv s) (hI : Matched s)
    (hk : s.tasks[t]? = some k) (hpc : k.pc = .locked sec)
    (h : lockedStep cfg t k s sec c = some s') : Matched s' := by
  have hholds : sec.Holds s := hP.holds hk hpc
  have hplain : ∀ {u : State} {k' : Task}, Publishes s u →
      k'.port = k.port ∧ k'.ready = k.ready → k'.pc.unexamined = [] → k'.pc.chosen = none →
      Matched (u.setTask t k') :=
    fun hu hsame hun hch => hI.locked hP hk hu (.of_none hsame hun hch)
  have hsame : ∀ {u : State}, u.sessions = s.sessions → u.nextSession = s.nextSession →
      u.tasks = s.tasks → u.history.ensured = s.history.ensured →
      u.pool.snapshot = s.pool.snapshot → u.history.publishedFor = s.history.publishedFor →
      Publishes s u := Publishes.of_same
  unfold lockedStep at h
  split at h
  · split at h <;> cases h
    · exact hplain (hsame rfl rfl rfl rfl rfl rfl) ⟨rfl, rfl⟩ rfl rfl
    · exact hplain (hsame rfl rfl rfl rfl rfl rfl) ⟨rfl, rfl⟩ rfl rfl
  · cases h
    exact hplain (hsame rfl rfl rfl rfl rfl rfl) ⟨rfl, rfl⟩ rfl rfl
  · split at h
    · cases h
      exact hplain (hsame rfl rfl rfl rfl rfl rfl) ⟨rfl, rfl⟩ rfl rfl
    · split at h <;> cases h
      · exact hplain (hsame rfl rfl rfl rfl rfl rfl) ⟨rfl, rfl⟩ rfl rfl
      · exact hplain (hsame rfl rfl rfl rfl rfl rfl) ⟨rfl, rfl⟩ rfl rfl
  · cases h
    exact hplain (hsame rfl rfl rfl rfl rfl rfl) ⟨rfl, rfl⟩ rfl rfl
  · cases h
    exact hplain (refresh_publishes hholds) ⟨rfl, rfl⟩ rfl rfl
  · cases h
    exact hplain (hsame rfl rfl rfl rfl rfl rfl) ⟨rfl, rfl⟩ rfl rfl
  · cases h
    refine hplain (hsame rfl rfl rfl rfl rfl rfl) ⟨rfl, rfl⟩ rfl ?_
    split <;> rfl
  · simp only at h
    split at h <;> cases h
    · exact hplain (hsame rfl rfl rfl rfl rfl rfl) ⟨rfl, rfl⟩ rfl rfl
    · exact hplain (hsame rfl rfl rfl rfl rfl rfl) ⟨rfl, rfl⟩ rfl rfl
  · cases h
    exact hplain (hsame rfl rfl rfl rfl rfl rfl) ⟨rfl, rfl⟩ rfl rfl
  · cases h
    refine hplain (hsame rfl rfl rfl rfl rfl rfl) ⟨rfl, rfl⟩ rfl ?_
    split <;> rfl
  · simp only at h
    split at h <;> cases h
    · exact hplain (hsame rfl rfl rfl rfl rfl rfl) ⟨rfl, rfl⟩ rfl rfl
    · exact hplain (hsame rfl rfl rfl rfl rfl rfl) ⟨rfl, rfl⟩ rfl rfl
  · next x =>
      split at h <;> cases h
      · -- The call chooses the session it has opened itself.
        refine hI.locked hP hk (hsame rfl rfl rfl rfl rfl rfl) ⟨rfl, rfl, rfl, fun y hy => ?_⟩
        rw [hpc]
        exact .inr hy
      · exact hplain (hsame rfl rfl rfl rfl rfl rfl) ⟨rfl, rfl⟩ rfl rfl
  · next x =>
      cases h
      refine hI.locked hP hk (refresh_publishes hholds) ⟨rfl, rfl, rfl, fun y hy => ?_⟩
      rw [hpc]
      exact .inl hy
  · simp only at h
    split at h <;> cases h
    · exact hplain (hsame rfl rfl rfl rfl rfl rfl) ⟨rfl, rfl⟩ rfl rfl
    · exact hplain (hsame rfl rfl rfl rfl rfl rfl) ⟨rfl, rfl⟩ rfl rfl
  · cases h
    exact hplain (hsame rfl rfl rfl rfl rfl rfl) ⟨rfl, rfl⟩ rfl rfl
  · next x =>
      split at h <;> cases h
      · refine hI.locked hP hk (hsame rfl rfl rfl rfl rfl rfl) ⟨rfl, rfl, rfl, fun y hy => ?_⟩
        rw [hpc]
        exact .inl hy
      · refine hI.locked hP hk (hsame rfl rfl rfl rfl rfl rfl) ⟨rfl, rfl, rfl, fun y hy => ?_⟩
        rw [hpc]
        exact .inl hy
  · simp only at h
    split at h
    · cases h
      exact hplain (hsame rfl rfl rfl rfl rfl rfl) ⟨rfl, rfl⟩ rfl rfl
    · split at h <;> cases h
      · exact hplain (hsame rfl rfl rfl rfl rfl rfl) ⟨rfl, rfl⟩ rfl rfl
      · exact hplain (hsame rfl rfl rfl rfl rfl rfl) ⟨rfl, rfl⟩ rfl rfl
  · cases h
    exact hplain (refresh_publishes hholds) ⟨rfl, rfl⟩ rfl rfl
  · contradiction

end

/-! ## Every step -/

theorem Matched.acquire {s : State} {t : TaskId} {k : Task} {sec : Section} (hP : PoolInv s)
    (hI : Matched s) (hk : s.tasks[t]? = some k) (hpc : k.pc = .acquire sec) :
    Matched (({ s with lock := some t } : State).setTask t { k with pc := .locked sec }) := by
  have hentry : sec.isEntry = true := by simpa [hpc] using hP.enters t k hk
  refine hI.locked hP hk (.of_same rfl rfl rfl rfl rfl rfl) ⟨rfl, rfl, rfl, fun x hx => .inl ?_⟩
  rw [hpc]
  cases sec <;> first | contradiction | exact hx

theorem Matched.spawn {s : State} {k : Task} (hI : Matched s) (hk : k.pc.Plain) :
    Matched (s.spawn k) := by
  refine ⟨hI.snapshot, fun i y hy => ?_, hI.ensured⟩
  rcases spawn_tasks hy with hy | ⟨-, rfl⟩
  · exact ⟨(hI.tasks i y hy).unexamined, (hI.tasks i y hy).chosen⟩
  · exact .of_none hk.unexamined hk.chosen

/-- Sessions change on their own. -/
theorem Matched.extend {s u : State} (hI : Matched s) (hu : Extends s u)
    (hensured : u.history.ensured = s.history.ensured) : Matched u := by
  refine ⟨fun x hx => ?_, fun i y hy => ?_, fun e he => ?_⟩
  · rw [hu.snapshot] at hx
    obtain ⟨hlt, hpub⟩ := hI.snapshot x hx
    rw [hu.openedFor x hlt, hu.published]
    exact ⟨hlt.trans_le hu.next, hpub⟩
  · rw [hu.tasks] at hy
    exact hu.suits (hI.tasks i y hy)
  · rw [hensured] at he
    exact hu.ensuredMatches (hI.ensured e he)

theorem step_matched {cfg : ForwarderConfig} {s s' : State} {a : Act} (hP : PoolInv s)
    (hI : Matched s) (hok : LoadsOwnPod s a) (h : step cfg s a = some s') : Matched s' := by
  obtain ⟨k, hk, rfl⟩ | ⟨t, k, sec, c, rfl, hk, hpc, hl⟩ | ⟨t, k, sec, hk, hpc, hlock, rfl⟩ |
    ⟨t, k, x, hk, hpc, rfl⟩ | ⟨t, k, u, k', hk, hact, hmove, rfl⟩ |
    ⟨x, inner, spares, cancel, rfl⟩ | rfl := step_cases h
  · exact hI.spawn hk.plain
  · exact lockedStep_matched hP hI hk hpc hl
  · exact hI.acquire hP hk hpc
  · have hleaves : Matched (s.setTask t { k with pc := .leave (.ok x) }) := by
      refine hI.locked hP hk (.of_same rfl rfl rfl rfl rfl rfl) ⟨rfl, rfl, rfl, fun y hy => ?_⟩
      rw [hpc]
      exact .inl hy
    exact hleaves.spawn ⟨rfl, rfl, rfl, rfl, rfl, rfl⟩
  · refine hI.move hk hmove fun look hload => ?_
    rcases hact with hawaits | ⟨c, rfl⟩
    · rw [hload] at hawaits
      contradiction
    · simpa only [LoadsOwnPod, hk, hload] using hok
  · exact hI.extend (updSession_extends s x _ rfl rfl (fun hc => by simp [hc])) rfl
  · exact hI.extend (.of_eq ⟨rfl, rfl, rfl⟩ rfl rfl rfl rfl rfl rfl) rfl

theorem matched_invariant (cfg : ForwarderConfig) :
    (forwarder cfg).Invariant LoadsOwnPod Matched :=
  Invariant.of_step_using (Invariant.restrict (poolInv_invariant cfg) fun _ _ _ => trivial)
    matched_init fun _ _ _ hP hI hok h => step_matched hP hI hok h

/-! ## The result of `ensure_session_for_pod` -/

/-- Any number of calls to any ports, every interleaving with retargets, drains,
prefetches and pod deaths: if no call loads a snapshot that was published for
another pod than its own and holds a session to its port, every call returns a
session of the pod it names, to the port that was asked for. -/
theorem ensured_matches (cfg : ForwarderConfig) (acts : List Act) (s : State)
    (hrun : (forwarder cfg).run (forwarder cfg).init acts = some s)
    (hmeets : (forwarder cfg).Meets LoadsOwnPod (forwarder cfg).init acts) :
    ∀ e ∈ s.history.ensured, (s.sessions e.session).openedFor = e.pod ∧
      (s.sessions e.session).port = e.targetPort := by
  intro e he
  exact ((matched_invariant cfg acts s hrun hmeets).ensured e he).2

/-- Two calls for the same pod and port: the second reuses the session of the
first. -/
def reuseActs : List Act :=
  [Act.connect 8080] ++ openForActs 0 ⟨"web-0", some "a"⟩ ++
    [Act.connect 8080, .task 1 .go, .task 1 (.pod (some ⟨"web-0", some "a"⟩))] ++ goActs 1 5

theorem ensured_matches_reuse :
    ∃ s, (forwarder .default).run (forwarder .default).init reuseActs = some s ∧
      s.history.ensured = [⟨8080, 0, ⟨"web-0", some "a"⟩⟩, ⟨8080, 0, ⟨"web-0", some "a"⟩⟩] ∧
      ∀ e ∈ s.history.ensured, (s.sessions e.session).openedFor = e.pod ∧
        (s.sessions e.session).port = e.targetPort := by
  have hensured : ((forwarder .default).run (forwarder .default).init reuseActs).map
      (fun s => s.history.ensured) =
      some [⟨8080, 0, ⟨"web-0", some "a"⟩⟩, ⟨8080, 0, ⟨"web-0", some "a"⟩⟩] := by
    decide +kernel
  have hmeets : (forwarder .default).Meets LoadsOwnPod (forwarder .default).init reuseActs :=
    meets_of_check (by decide +kernel)
  obtain ⟨s, hrun, hs⟩ := Option.map_eq_some_iff.1 hensured
  exact ⟨s, hrun, hs, ensured_matches _ _ s hrun hmeets⟩

/-- Call 0 has resolved `web-0` and targeted the pool at it.  Before it loads the
snapshot, call 1 resolves `web-1`, retargets the pool and opens a session for
the same port. -/
def retargetActs : List Act :=
  [Act.connect 8080, .task 0 .go, .task 0 (.pod (some ⟨"web-0", some "a"⟩))] ++ goActs 0 6 ++
    [Act.connect 8080] ++ openForActs 1 ⟨"web-1", some "b"⟩ ++ goActs 0 4

/-- Call 0 returns the session of `web-1` with the pod `web-0`. -/
theorem reuse_across_retarget :
    ¬ ∀ (cfg : ForwarderConfig) (acts : List Act) (s : State),
      (forwarder cfg).run (forwarder cfg).init acts = some s →
      ∀ e ∈ s.history.ensured, (s.sessions e.session).openedFor = e.pod ∧
        (s.sessions e.session).port = e.targetPort := by
  intro hall
  have hensured : ((forwarder .default).run (forwarder .default).init retargetActs).map
      (fun s => (s.history.ensured[1]?, (s.sessions 0).openedFor)) =
      some (some ⟨8080, 0, ⟨"web-0", some "a"⟩⟩, ⟨"web-1", some "b"⟩) := by
    decide +kernel
  obtain ⟨s, hrun, hs⟩ := Option.map_eq_some_iff.1 hensured
  obtain ⟨hlast, hpod⟩ := Prod.mk.inj hs
  have hmatch := hall .default retargetActs s hrun _ (List.mem_of_getElem? hlast)
  rw [hpod] at hmatch
  simp at hmatch

end KubePortForward.Forwarder

import KubePortForward.Forwarder.ReadyWaiters
import KubePortForward.Forwarder.Watched

/-!
# A target that is deleted

When the pod that the pool is for is deleted, the reactor drains the pool on a
`Died` event.  The event is sent only if the cache of the watcher holds the pod at
that time, and any caller may have rewritten the cache; it gets lost if the reactor
lags; and a call that found the pod earlier can make it the target again later.

## Main results

* `deleted_target_dropped` — where none of this happens, the reactor has dropped the
  target and its sessions once it has seen the events up to the deletion.
* `deleted_target_kept` — a run in which the cache was rewritten.
-/

namespace KubePortForward.Forwarder

open KubePortForward.Verified.Transition
open KubePortForward.Verified.Broadcast

/-! ## The way of a notice -/

/-- `handle_pod_died` for `name` has not looked at the pool yet. -/
def Pc.beforeDeath (name : String) : Pc → Bool
  | .acquire (.podDied dead) => dead == name
  | .locked (.podDied dead) => dead == name
  | _ => false

/-- The task is about to compare the target with its pod. -/
def Pc.retargets : Pc → Bool
  | .locked .retarget => true
  | _ => false

/-- A `Died` for the pod, among the first `upto` events, is before the reactor or about
to be handled. -/
def Noticed (pod : ReadyPod) (upto : Nat) (s : Watched) : Prop :=
  Undelivered (· = PodChange.died pod.name) s.watch.changes s.seen upto ∨
    ∃ (t : TaskId) (k : Task), s.reactor = .handling t ∧ s.fwd.tasks[t]? = some k ∧
      k.pc.beforeDeath pod.name = true

/-- The task in which the reactor handles a death. -/
def Watched.handling (s : Watched) : Option Task :=
  match s.reactor with
  | .next => none
  | .handling t => s.fwd.tasks[t]?

theorem noticed_iff {pod : ReadyPod} {upto : Nat} {s : Watched} : Noticed pod upto s ↔
    Undelivered (· = PodChange.died pod.name) s.watch.changes s.seen upto ∨
      ∃ k ∈ s.handling, k.pc.beforeDeath pod.name = true := by
  unfold Noticed Watched.handling
  cases s.reactor <;> simp

instance (pod : ReadyPod) (upto : Nat) (s : Watched) : Decidable (Noticed pod upto s) :=
  decidable_of_iff _ noticed_iff.symm

/-- The notice is on its way: it will be sent, unless `upto` says that the deletion has
been handled, or was sent. -/
def Coming (pod : ReadyPod) (upto : Option Nat) (s : Watched) : Prop :=
  (upto = none ∧ (s.watch.reflector = .handleDeleted pod ∨
    s.watch.reflector = .announceDied pod.name)) ∨
    Noticed pod (upto.getD s.watch.changes.length) s

/-- The pod is out of the store, and a notice is on its way while it is the target. -/
structure Dropping (pod : ReadyPod) (upto : Option Nat) (s : Watched) : Prop where
  gone : ∀ p ∈ s.watch.store.pods, p.identity ≠ pod
  coming : s.fwd.pool.target = some pod → Coming pod upto s

/-- What keeps the notice for a deleted pod on its way: the pod does not come back, the
cache holds it when the deletion is handled, the reactor does not lag past the notice,
and no call makes the pod the target again. -/
def NoticeArrives (pod : ReadyPod) (s : Watched) : WatchedAct → Prop
  | .watch (.applyPod p) => p.identity ≠ pod
  | .watch (.relist pods) => ∀ p ∈ pods, p.identity ≠ pod
  | .watch .reflector =>
      s.watch.reflector = .handleDeleted pod → s.fwd.pool.target = some pod →
        s.watch.latestReady = some pod ∨ Noticed pod s.watch.changes.length s
  | .reactor =>
      s.fwd.pool.target = some pod →
        ¬ Undelivered (· = PodChange.died pod.name) s.watch.changes s.seen
          (s.watch.changes.length - CHANGE_CAPACITY)
  | .fwd (.task t _) => ∀ k ∈ s.fwd.tasks[t]?, k.pc.retargets = true → k.ready = pod →
      s.fwd.pool.target = some pod
  | _ => True

instance (pod : ReadyPod) (s : Watched) (a : WatchedAct) : Decidable (NoticeArrives pod s a) := by
  unfold NoticeArrives
  split <;> infer_instance

/-! ## Steps of the watcher -/

theorem mem_foldl_apply {pods : List WatchedPod} {store : PodStore} {p : WatchedPod}
    (h : p ∈ (pods.foldl PodStore.apply store).pods) : p ∈ store.pods ∨ p ∈ pods := by
  induction pods generalizing store with
  | nil => exact .inl h
  | cons pod pods ih =>
      rcases ih h with hin | hin
      · rcases PodStore.mem_apply.1 hin with ⟨hold, -⟩ | rfl
        · exact .inl hold
        · exact .inr List.mem_cons_self
      · exact .inr (List.mem_cons_of_mem pod hin)

/-- Pods get into the store by `Apply` and by a relist. -/
theorem watchStep_store {cfg : WatchConfig} {w w' : Watch} {a : WatchAct} {p : WatchedPod}
    (h : watchStep cfg w a = some w') (hp : p ∈ w'.store.pods) :
    p ∈ w.store.pods ∨ a = .applyPod p ∨ ∃ pods, a = .relist pods ∧ p ∈ pods := by
  cases a with
  | applyPod pod =>
      simp only [watchStep] at h
      split at h <;> cases h
      rcases PodStore.mem_apply.1 hp with ⟨hin, -⟩ | rfl
      · exact .inl hin
      · exact .inr (.inl rfl)
  | deletePod pod =>
      simp only [watchStep] at h
      split at h <;> cases h
      exact .inl (PodStore.mem_delete.1 hp).1
  | relist pods =>
      simp only [watchStep] at h
      split at h <;> cases h
      rcases mem_foldl_apply hp with hnone | hin
      · contradiction
      · exact .inr (.inr ⟨pods, rfl, hin⟩)
  | reflector =>
      left
      simp only [watchStep, reflectorStep] at h
      (repeat' split at h) <;> cases h <;> exact hp
  | subscriber =>
      left
      simp only [watchStep, subscriberStep] at h
      (repeat' split at h) <;> cases h <;> exact hp
  | readyPod =>
      cases h
      exact .inl hp
  | waitForReadyPod =>
      cases h
      exact .inl hp
  | call c choice =>
      left
      simp only [watchStep] at h
      split at h
      · simp only [callStep] at h
        (repeat' split at h) <;> cases h <;> exact hp
      · contradiction

/-- Only the reflector itself is in the middle of a deletion, and whatever is sent goes to
the end. -/
theorem watchStep_feed {cfg : WatchConfig} {w w' : Watch} {a : WatchAct}
    (h : watchStep cfg w a = some w') :
    (w'.changes = w.changes ∨ ∃ change, w'.changes = w.changes ++ [change]) ∧
      (w'.reflector = w.reflector ∨ w.reflector = .next ∨ a = .reflector) := by
  cases a with
  | applyPod pod =>
      simp only [watchStep] at h
      split at h <;> cases h
      exact ⟨.inl rfl, .inl rfl⟩
  | deletePod pod =>
      simp only [watchStep] at h
      split at h <;> cases h
      next hnext => exact ⟨.inl rfl, .inr (.inl hnext)⟩
  | relist pods =>
      simp only [watchStep] at h
      split at h <;> cases h
      exact ⟨.inl rfl, .inl rfl⟩
  | reflector =>
      refine ⟨?_, .inr (.inr rfl)⟩
      simp only [watchStep, reflectorStep] at h
      split at h
      · contradiction
      · split at h <;> cases h <;> exact .inl rfl
      · cases h
        exact .inr ⟨_, rfl⟩
  | subscriber =>
      simp only [watchStep, subscriberStep] at h
      (repeat' split at h) <;> cases h
      all_goals first
        | exact ⟨.inl rfl, .inl rfl⟩
        | exact ⟨.inr ⟨_, rfl⟩, .inl rfl⟩
  | readyPod =>
      cases h
      exact ⟨.inl rfl, .inl rfl⟩
  | waitForReadyPod =>
      cases h
      exact ⟨.inl rfl, .inl rfl⟩
  | call c choice =>
      simp only [watchStep] at h
      split at h
      · simp only [callStep] at h
        (repeat' split at h) <;> cases h <;> exact ⟨.inl rfl, .inl rfl⟩
      · contradiction

/-- The receiver of the reactor is not ahead of what was sent. -/
theorem seen_le (cfg : ForwarderConfig) (wcfg : WatchConfig) :
    (watched cfg wcfg).Invariant anyStep (fun s => s.seen ≤ s.watch.changes.length) := by
  apply Invariant.of_step
  · exact le_rfl
  · intro s a s' hI _ h
    obtain ⟨b, watch, -, hw, rfl⟩ | ⟨calls, asking, rfl⟩ | ⟨t, result, fwd, asking, hf, rfl⟩ |
      ⟨b, fwd, -, -, hf, rfl⟩ | ⟨name, seen, -, -, hrecv, rfl⟩ | ⟨r, seen, -, -, hrecv, -, rfl⟩ |
      ⟨t, k, -, -, -, -, rfl⟩ := watchedStep_cases h
    · rcases (watchStep_feed hw).1 with hsame | ⟨change, hsent⟩
      · rw [hsame]
        exact hI
      · rw [hsent, List.length_append]
        exact hI.trans (Nat.le_add_right _ _)
    · exact hI
    · exact hI
    · exact hI
    · exact recv_le hrecv
    · exact recv_le hrecv
    · exact hI

theorem Noticed.watch {pod : ReadyPod} {upto : Nat} {s : Watched} {w : Watch}
    {more : List PodChange} (h : Noticed pod upto s)
    (hchanges : w.changes = s.watch.changes ++ more) : Noticed pod upto { s with watch := w } := by
  rcases h with hund | hhandling
  · left
    show Undelivered _ w.changes s.seen upto
    rw [hchanges]
    exact hund.of_append more
  · exact .inr hhandling

theorem Noticed.mono {pod : ReadyPod} {upto more : Nat} {s : Watched} (h : Noticed pod upto s)
    (hle : upto ≤ more) : Noticed pod more s :=
  h.imp (fun hund => hund.mono hle) id

/-- A step of the watcher keeps the notice on its way. -/
theorem Coming.watch {cfg : WatchConfig} {pod : ReadyPod} {upto : Option Nat} {s : Watched}
    {w : Watch} {b : WatchAct} (h : Coming pod upto s) (hseen : s.seen ≤ s.watch.changes.length)
    (hcache : b = .reflector → s.watch.reflector = .handleDeleted pod →
      s.watch.latestReady = some pod ∨ Noticed pod s.watch.changes.length s)
    (hw : watchStep cfg s.watch b = some w) : Coming pod upto { s with watch := w } := by
  obtain ⟨hchanges, hreflector⟩ := watchStep_feed hw
  have hmore : ∃ more, w.changes = s.watch.changes ++ more := by
    rcases hchanges with hsame | ⟨change, hsent⟩
    · exact ⟨[], by simp [hsame]⟩
    · exact ⟨[change], hsent⟩
  obtain ⟨more, hmore⟩ := hmore
  have hnoticed : Noticed pod (upto.getD s.watch.changes.length) s →
      Coming pod upto { s with watch := w } := by
    intro hn
    refine .inr (Noticed.mono (Noticed.watch hn hmore) ?_)
    cases upto with
    | none =>
        show s.watch.changes.length ≤ w.changes.length
        rw [hmore, List.length_append]
        exact Nat.le_add_right _ _
    | some n => exact le_rfl
  rcases h with ⟨rfl, hstage⟩ | hn
  · rcases hreflector with hsame | hnext | rfl
    · exact .inl ⟨rfl, by rw [hsame]; exact hstage⟩
    · rw [hnext] at hstage
      rcases hstage with heq | heq <;> contradiction
    · simp only [watchStep, reflectorStep] at hw
      rcases hstage with heq | heq
      · rw [heq] at hw
        rcases hcache rfl heq with hcached | hn
        · simp only [hcached, if_true] at hw
          cases hw
          exact .inl ⟨rfl, .inr rfl⟩
        · exact hnoticed hn
      · rw [heq] at hw
        cases hw
        exact .inr (.inl (undelivered_snoc rfl hseen))
  · exact hnoticed hn

/-! ## Steps of the forwarder -/

/-- A section keeps the target, clears it, or makes the pod of its task the target. -/
theorem lockedStep_target {cfg : ForwarderConfig} {t : TaskId} {k : Task} {s s' : State}
    {sec : Section} {c : Choice} (h : lockedStep cfg t k s sec c = some s') :
    s'.pool.target = s.pool.target ∨ s'.pool.target = none ∨
      (sec = .retarget ∧ c = .go ∧ s'.pool.target = some k.ready) := by
  unfold lockedStep at h
  simp only at h
  (repeat' split at h) <;> first
    | contradiction
    | (cases h; exact .inl rfl)
    | (cases h; exact .inr (.inl rfl))
    | (cases h; exact .inr (.inr ⟨rfl, rfl, rfl⟩))

theorem step_target {cfg : ForwarderConfig} {s s' : State} {a : Act}
    (h : step cfg s a = some s') :
    s'.pool.target = s.pool.target ∨ s'.pool.target = none ∨
      ∃ t k, a = .task t .go ∧ s.tasks[t]? = some k ∧ k.pc.retargets = true ∧
        s'.pool.target = some k.ready := by
  obtain ⟨k, -, rfl⟩ | ⟨t, k, sec, c, rfl, hk, hpc, hl⟩ | ⟨t, k, sec, -, -, -, rfl⟩ |
    ⟨t, k, x, -, -, rfl⟩ | ⟨t, k, u, k', -, -, hmove, rfl⟩ |
    ⟨x, inner, spares, cancel, rfl⟩ | rfl := step_cases h
  · exact .inl rfl
  · rcases lockedStep_target hl with hsame | hnone | ⟨rfl, rfl, hnew⟩
    · exact .inl hsame
    · exact .inr (.inl hnone)
    · exact .inr (.inr ⟨t, k, rfl, hk, by rw [hpc]; rfl, hnew⟩)
  · exact .inl rfl
  · exact .inl rfl
  · exact .inl hmove.extends.target
  · exact .inl rfl
  · exact .inl rfl

/-- The task of a death that is not handled yet goes on to look at the pool, and takes
the pod off it if that is the target and the store has it no more. -/
theorem taskStep_beforeDeath {cfg : ForwarderConfig} {s s' : State} {t : TaskId} {k : Task}
    {c : Choice} {pod : ReadyPod} (hk : s.tasks[t]? = some k)
    (hbefore : k.pc.beforeDeath pod.name = true)
    (hfound : ∀ found, c = .contains found → s.pool.target = some pod → found = false)
    (h : taskStep cfg t k s c = some s') :
    s'.pool.target ≠ some pod ∨
      ∃ k', s'.tasks[t]? = some k' ∧ k'.pc.beforeDeath pod.name = true := by
  cases hpc : k.pc with
  | acquire sec =>
      cases sec with
      | podDied dead =>
          right
          rw [hpc] at hbefore
          cases c <;> simp only [taskStep, hpc] at h <;> try contradiction
          split at h <;> cases h
          exact ⟨_, setTask_self hk, hbefore⟩
      | _ => simp [hpc, Pc.beforeDeath] at hbefore
  | locked sec =>
      cases sec with
      | podDied dead =>
          left
          have hdead : dead = pod.name := by simpa [hpc, Pc.beforeDeath] using hbefore
          subst hdead
          cases c <;> simp only [taskStep, hpc, lockedStep] at h <;> try contradiction
          next found =>
            split at h
            · next hnone =>
                cases h
                show s.pool.target ≠ some pod
                rw [hnone]
                simp
            · next target htarget =>
                split at h <;> cases h
                · next hother =>
                    show s.pool.target ≠ some pod
                    intro heq
                    rw [htarget, Option.some.injEq] at heq
                    subst heq
                    have hnot := hfound found rfl htarget
                    simp [hnot] at hother
                · show (none : Option ReadyPod) ≠ some pod
                  simp
      | _ => simp [hpc, Pc.beforeDeath] at hbefore
  | _ => simp [hpc, Pc.beforeDeath] at hbefore

theorem step_beforeDeath {cfg : ForwarderConfig} {s s' : State} {a : Act} {t : TaskId} {k : Task}
    {pod : ReadyPod} (hk : s.tasks[t]? = some k) (hbefore : k.pc.beforeDeath pod.name = true)
    (habandon : a ≠ .abandon t)
    (hfound : ∀ i found, a = .task i (.contains found) → s.pool.target = some pod →
      found = false)
    (h : step cfg s a = some s') :
    s'.pool.target ≠ some pod ∨
      ∃ k', s'.tasks[t]? = some k' ∧ k'.pc.beforeDeath pod.name = true := by
  cases a with
  | connect port =>
      cases h
      exact .inr ⟨k, spawn_other hk, hbefore⟩
  | prune =>
      cases h
      exact .inr ⟨k, spawn_other hk, hbefore⟩
  | podDied name =>
      cases h
      exact .inr ⟨k, spawn_other hk, hbefore⟩
  | shutdown =>
      cases h
      exact .inr ⟨k, spawn_other hk, hbefore⟩
  | task i c =>
      simp only [step] at h
      split at h
      · next y hy =>
          by_cases hti : t = i
          · subst hti
            obtain rfl : y = k := Option.some.inj (hy.symm.trans hk)
            exact taskStep_beforeDeath hk hbefore
              (fun found hc htarget => hfound t found (by rw [hc]) htarget) h
          · exact .inr ⟨k, taskStep_other h hti hk, hbefore⟩
      · contradiction
  | abandon i =>
      simp only [step] at h
      split at h
      · split at h <;> cases h
        have hti : t ≠ i := by
          rintro rfl
          exact habandon rfl
        exact .inr ⟨k, (setTask_other hti).trans hk, hbefore⟩
      · contradiction
  | session x inner spares cancel =>
      cases h
      exact .inr ⟨k, hk, hbefore⟩
  | tick =>
      cases h
      exact .inr ⟨k, hk, hbefore⟩

/-- A step of the forwarder keeps the notice on its way while the pod is the target. -/
theorem Coming.fwd {cfg : ForwarderConfig} {pod : ReadyPod} {upto : Option Nat} {s : Watched}
    {fwd : State} {asking : TaskId → Option Nat} {a : Act} (h : Coming pod upto s)
    (habandon : ∀ t, s.reactor = .handling t → a ≠ .abandon t)
    (hfound : ∀ i found, a = .task i (.contains found) → s.fwd.pool.target = some pod →
      found = false)
    (hf : step cfg s.fwd a = some fwd) (htarget : fwd.pool.target = some pod) :
    Coming pod upto { s with fwd := fwd, asking := asking } := by
  rcases h with hstage | hund | ⟨t, k, hreactor, hk, hbefore⟩
  · exact .inl hstage
  · exact .inr (.inl hund)
  · rcases step_beforeDeath hk hbefore (habandon t hreactor) hfound hf with hnot | ⟨k', hk', hb'⟩
    · exact absurd htarget hnot
    · exact .inr (.inr ⟨t, k', hreactor, hk', hb'⟩)

/-! ## The notice arrives -/

/-- The reactor receives: the notice stays before it or is the one it takes up. -/
theorem Coming.receive {pod : ReadyPod} {upto : Option Nat} {s : Watched}
    {r : Received PodChange} {seen : Nat} (h : Coming pod upto s) (hnext : s.reactor = .next)
    (hlag : ¬ Undelivered (· = PodChange.died pod.name) s.watch.changes s.seen
      (s.watch.changes.length - CHANGE_CAPACITY))
    (hrecv : recv CHANGE_CAPACITY s.watch.changes s.seen = some (r, seen)) :
    r = .message (.died pod.name) ∨ Coming pod upto { s with seen := seen } := by
  rcases h with hstage | hund | ⟨t, k, hreactor, -, -⟩
  · exact .inr (.inl hstage)
  · obtain ⟨rfl, hfar, rfl⟩ | ⟨x, rfl, -, -, -⟩ := recv_cases hrecv
    · obtain ⟨i, x, hle, hlt, hx, hP⟩ := hund
      refine .inr (.inr (.inl ⟨i, x, ?_, hlt, hx, hP⟩))
      show s.watch.changes.length - CHANGE_CAPACITY ≤ i
      by_contra hskipped
      exact hlag ⟨i, x, hle, by omega, hx, hP⟩
    · rcases recv_undelivered hrecv hund with rfl | hund
      · exact .inl rfl
      · exact .inr (.inr (.inl hund))
  · rw [hnext] at hreactor
    contradiction

theorem Dropping.step {cfg : ForwarderConfig} {wcfg : WatchConfig} {pod : ReadyPod}
    {upto : Option Nat} {s s' : Watched} {a : WatchedAct} (hD : Dropping pod upto s)
    (hseen : s.seen ≤ s.watch.changes.length) (hok : NoticeArrives pod s a)
    (h : watchedStep cfg wcfg s a = some s') : Dropping pod upto s' := by
  obtain ⟨b, watch, rfl, hw, rfl⟩ | ⟨calls, asking, rfl⟩ | ⟨t, result, fwd, asking, hf, rfl⟩ |
    ⟨b, fwd, rfl, hallows, hf, rfl⟩ | ⟨name, seen, rfl, hnext, hrecv, rfl⟩ |
    ⟨r, seen, rfl, hnext, hrecv, hother, rfl⟩ | ⟨t, k, -, hhandling, hk, hfin, rfl⟩ :=
    watchedStep_cases h
  · refine ⟨fun p hp => ?_, fun htarget => ?_⟩
    · rcases watchStep_store hw hp with hold | rfl | ⟨pods, rfl, hin⟩
      · exact hD.gone p hold
      · exact hok
      · exact hok p hin
    · refine (hD.coming htarget).watch hseen (fun hb hstage => ?_) hw
      subst hb
      exact hok hstage htarget
  · exact ⟨hD.gone, hD.coming⟩
  · refine ⟨hD.gone, fun htarget => ?_⟩
    have hsame : s.fwd.pool.target = some pod := by
      rcases step_target hf with hsame | hnone | ⟨t, k, heq, -⟩
      · rw [← hsame]
        exact htarget
      · exact absurd (hnone.symm.trans htarget) (by simp)
      · cases heq
    exact (hD.coming hsame).fwd (fun t _ heq => by cases heq)
      (fun i found heq _ => by cases heq) hf htarget
  · refine ⟨hD.gone, fun htarget => ?_⟩
    have hsame : s.fwd.pool.target = some pod := by
      rcases step_target hf with hsame | hnone | ⟨t, k, rfl, hk, hpc, hnew⟩
      · rw [← hsame]
        exact htarget
      · exact absurd (hnone.symm.trans htarget) (by simp)
      · exact hok k hk hpc (Option.some.inj (hnew.symm.trans htarget))
    refine (hD.coming hsame).fwd (fun t hreactor heq => ?_) (fun i found heq ht => ?_) hf htarget
    · subst heq
      simp [Watched.allows, hreactor] at hallows
    · -- The store has the pod no more, so the answer is no.
      subst heq
      simp only [Watched.allows, ht, beq_iff_eq] at hallows
      rw [hallows]
      refine List.any_eq_false.2 fun p hp => ?_
      have hgone := hD.gone p hp
      simp only [Bool.and_eq_true, beq_iff_eq, not_and]
      intro hname huid
      exact hgone (by rw [WatchedPod.identity, hname, huid])
  · refine ⟨hD.gone, fun htarget => ?_⟩
    rcases (hD.coming htarget).receive hnext (hok htarget) hrecv with heq | hcoming
    · cases heq
      exact .inr (.inr ⟨s.fwd.tasks.length, { pc := .acquire (.podDied pod.name), port := 0 }, rfl,
        by simp [State.spawn], by simp [Pc.beforeDeath]⟩)
    · rcases hcoming with hstage | hund | ⟨t, k, hreactor, -, -⟩
      · exact .inl hstage
      · exact .inr (.inl hund)
      · rw [show ({ s with seen := seen } : Watched).reactor = .next from hnext] at hreactor
        contradiction
  · refine ⟨hD.gone, fun htarget => ?_⟩
    rcases (hD.coming htarget).receive hnext (hok htarget) hrecv with heq | hcoming
    · exact absurd heq (hother pod.name)
    · exact hcoming
  · refine ⟨hD.gone, fun htarget => ?_⟩
    rcases hD.coming htarget with hstage | hund | ⟨i, y, hreactor, hy, hbefore⟩
    · exact .inl hstage
    · exact .inr (.inl hund)
    · rw [hhandling] at hreactor
      cases hreactor
      rw [hk] at hy
      cases hy
      rw [hfin] at hbefore
      contradiction

/-! ## The sessions of the target -/

theorem lockedStep_sessions {cfg : ForwarderConfig} {t : TaskId} {k : Task} {s s' : State}
    {sec : Section} {c : Choice} (h : lockedStep cfg t k s sec c = some s') :
    s'.sessions = s.sessions ∧ s'.nextSession = s.nextSession := by
  unfold lockedStep at h
  simp only at h
  (repeat' split at h) <;> first
    | contradiction
    | (cases h; exact ⟨rfl, rfl⟩)

/-- The session was opened for the pod and has been in the pool. -/
structure PooledFor (pod : ReadyPod) (x : SessionId) (s : State) : Prop where
  allocated : x < s.nextSession
  openedFor : (s.sessions x).openedFor = pod
  pooled : Pooled s x

theorem PooledFor.forward {cfg : ForwarderConfig} {s s' : State} {a : Act} {pod : ReadyPod}
    {x : SessionId} (hP : PoolInv s) (hE : Extractions s) (hx : PooledFor pod x s)
    (h : step cfg s a = some s') : PooledFor pod x s' := by
  have hpooled := (step_extractions hP hE h).2 x hx.pooled
  obtain ⟨k, -, rfl⟩ | ⟨t, k, sec, c, -, hk, hpc, hl⟩ | ⟨t, k, sec, -, -, -, rfl⟩ |
    ⟨t, k, y, -, -, rfl⟩ | ⟨t, k, u, k', -, -, hmove, rfl⟩ |
    ⟨y, inner, spares, cancel, rfl⟩ | rfl := step_cases h
  · exact ⟨hx.allocated, hx.openedFor, hpooled⟩
  · obtain ⟨hsessions, hnext⟩ := lockedStep_sessions hl
    exact ⟨hnext ▸ hx.allocated, by rw [hsessions]; exact hx.openedFor, hpooled⟩
  · exact ⟨hx.allocated, hx.openedFor, hpooled⟩
  · exact ⟨hx.allocated, hx.openedFor, hpooled⟩
  · have hext := hmove.extends
    exact ⟨hx.allocated.trans_le hext.next,
      (hext.openedFor x hx.allocated).trans hx.openedFor, hpooled⟩
  · refine ⟨hx.allocated, ?_, hpooled⟩
    by_cases hxy : x = y
    · subst hxy
      simpa [State.updSession] using hx.openedFor
    · simpa [State.updSession, hxy] using hx.openedFor
  · exact ⟨hx.allocated, hx.openedFor, hpooled⟩

theorem PooledFor.follows {cfg : ForwarderConfig} {wcfg : WatchConfig} {s s' : Watched}
    {a : WatchedAct} {pod : ReadyPod} {x : SessionId}
    (hs : (forwarder cfg).Reaches anyStep s.fwd) (hx : PooledFor pod x s.fwd)
    (h : (watched cfg wcfg).step s a = some s') : PooledFor pod x s'.fwd := by
  have hP : PoolInv s.fwd := Reaches.of_invariant hs (poolInv_invariant cfg)
  have hE : Extractions s.fwd := Reaches.of_invariant hs (extractions_invariant cfg)
  obtain ⟨b, watch, -, -, rfl⟩ | ⟨calls, asking, rfl⟩ | ⟨t, result, fwd, asking, hf, rfl⟩ |
    ⟨b, fwd, -, -, hf, rfl⟩ | ⟨name, seen, -, -, -, rfl⟩ | ⟨r, seen, -, -, -, -, rfl⟩ |
    ⟨t, k, -, -, -, -, rfl⟩ := watchedStep_cases h
  · exact hx
  · exact hx
  · exact hx.forward hP hE hf
  · exact hx.forward hP hE hf
  · have hf : step cfg s.fwd (.podDied name) =
        some (s.fwd.spawn { pc := .acquire (.podDied name), port := 0 }) := rfl
    exact hx.forward hP hE hf
  · exact hx
  · exact hx

/-- A session of a pod that is not the target any more is out of the pool, and cancelled
once nobody is about to cancel it. -/
theorem PooledFor.dropped {s : State} {pod : ReadyPod} {x : SessionId} (hP : PoolInv s)
    (hx : PooledFor pod x s) (htarget : s.pool.target ≠ some pod) (hlock : s.lock = none)
    (hdone : ∀ (t : TaskId) (k : Task), s.tasks[t]? = some k → k.pc.removing = false) :
    x ∉ s.pool.sessions ∧ (s.sessions x).cancelled = true := by
  have hout : x ∉ s.pool.sessions := by
    intro hin
    obtain ⟨e, he, rfl⟩ := List.mem_map.1 hin
    have hfor := (hP.free hlock).targeted e he
    rw [hx.openedFor] at hfor
    exact htarget hfor.symm
  refine ⟨hout, ?_⟩
  rcases hx.pooled with hin | ⟨t, ht⟩
  · exact absurd hin hout
  · have hlt : t < s.tasks.length := by
      by_contra hge
      rw [hP.unborn t (Nat.le_of_not_lt hge)] at ht
      contradiction
    have hk : s.tasks[t]? = some (s.tasks.get ⟨t, hlt⟩) := List.getElem?_eq_getElem hlt
    rcases ((hP.tidy t _ hk).removed x ht).2 with hcancelled | hpending
    · exact hcancelled
    · have hnot := hdone t _ hk
      rw [Pc.pending_of_removing hnot] at hpending
      contradiction

/-! ## The deleted target is dropped -/

theorem watched_forwarder {cfg : ForwarderConfig} {wcfg : WatchConfig} {s : Watched}
    (hs : (watched cfg wcfg).Reaches anyStep s) : (forwarder cfg).Reaches anyStep s.fwd :=
  Reaches.of_invariant (I := fun s => (forwarder cfg).Reaches anyStep s.fwd) hs
    (watched_reaches cfg wcfg)

theorem Dropping.run {cfg : ForwarderConfig} {wcfg : WatchConfig} {pod : ReadyPod}
    {upto : Option Nat} {s s' : Watched} {as : List WatchedAct}
    (hs : (watched cfg wcfg).Reaches anyStep s) (hD : Dropping pod upto s)
    (hrun : (watched cfg wcfg).run s as = some s')
    (hm : (watched cfg wcfg).Meets (NoticeArrives pod) s as) :
    (watched cfg wcfg).Reaches anyStep s' ∧ Dropping pod upto s' := by
  refine Reaches.stable (fun u a u' hr hI hok h => ?_) hs hD hrun hm
  have hseen : u.seen ≤ u.watch.changes.length :=
    Reaches.of_invariant (I := fun s => s.seen ≤ s.watch.changes.length) hr (seen_le cfg wcfg)
  exact hI.step hseen hok h

theorem PooledFor.run {cfg : ForwarderConfig} {wcfg : WatchConfig} {pod : ReadyPod}
    {x : SessionId} {s s' : Watched} {as : List WatchedAct}
    (hs : (watched cfg wcfg).Reaches anyStep s) (hx : PooledFor pod x s.fwd)
    (hrun : (watched cfg wcfg).run s as = some s') : PooledFor pod x s'.fwd := by
  have hany : (watched cfg wcfg).Meets anyStep s as := meets_anyStep _ _
  have hstable := Reaches.stable (I := fun s => PooledFor pod x s.fwd)
    (fun u a u' hr hI _ h => hI.follows (watched_forwarder hr) h) hs hx hrun hany
  exact hstable.2

/-- The target of the pool is deleted in `s₀`, and `s₂` has handled the deletion.  If
the notice arrives from there on, then in every state in which the reactor has processed
the events up to `s₂` the pod is not the target; and once nobody holds the lock or is
cancelling, the sessions the pool had for it are out of the pool and cancelled. -/
theorem deleted_target_dropped (cfg : ForwarderConfig) (wcfg : WatchConfig) (pod : ReadyPod)
    (before during after : List WatchedAct) (s₀ s₁ s₂ s : Watched)
    (hbefore : (watched cfg wcfg).run (watched cfg wcfg).init before = some s₀)
    (htarget : s₀.fwd.pool.target = some pod)
    (hdelete : (watched cfg wcfg).step s₀ (.watch (.deletePod pod)) = some s₁)
    (hduring : (watched cfg wcfg).run s₁ during = some s₂)
    (hhandled : s₂.watch.reflector = .next)
    (hafter : (watched cfg wcfg).run s₂ after = some s)
    (harrives : (watched cfg wcfg).Meets (NoticeArrives pod) s₁ (during ++ after))
    (hreactor : s.reactor = .next) (hseen : s₂.watch.changes.length ≤ s.seen) :
    s.fwd.pool.target ≠ some pod ∧
      (s.fwd.lock = none →
        (∀ (t : TaskId) (k : Task), s.fwd.tasks[t]? = some k → k.pc.removing = false) →
        ∀ x ∈ s₀.fwd.pool.sessions, (s₀.fwd.sessions x).openedFor = pod →
          x ∉ s.fwd.pool.sessions ∧ (s.fwd.sessions x).cancelled = true) := by
  have hr₀ : (watched cfg wcfg).Reaches anyStep s₀ := ⟨before, hbefore, meets_anyStep _ _⟩
  have hr₁ := Reaches.step hr₀ trivial hdelete
  have hD₁ : Dropping pod none s₁ := by
    obtain ⟨w, hw, rfl⟩ := Option.map_eq_some_iff.1 hdelete
    simp only [watchStep] at hw
    split at hw <;> cases hw
    refine ⟨fun p hp => ?_, fun _ => .inl ⟨rfl, .inl rfl⟩⟩
    rintro rfl
    exact (PodStore.mem_delete.1 hp).2 rfl
  obtain ⟨harrives₁, harrives₂⟩ := Meets.append harrives hduring
  obtain ⟨hr₂, hD₂⟩ := hD₁.run hr₁ hduring harrives₁
  -- The deletion is handled, so only a notice that was sent can still come.
  have hD₂' : Dropping pod (some s₂.watch.changes.length) s₂ := by
    refine ⟨hD₂.gone, fun ht => ?_⟩
    rcases hD₂.coming ht with ⟨-, hstage⟩ | hnoticed
    · rw [hhandled] at hstage
      rcases hstage with heq | heq <;> contradiction
    · exact .inr hnoticed
  obtain ⟨hr, hD⟩ := hD₂'.run hr₂ hafter harrives₂
  have hgone : s.fwd.pool.target ≠ some pod := by
    intro ht
    rcases hD.coming ht with ⟨hnone, -⟩ | hund | ⟨t, k, heq, -, -⟩
    · contradiction
    · exact not_undelivered hseen hund
    · rw [hreactor] at heq
      contradiction
  refine ⟨hgone, fun hlock hdone x hin hfor => ?_⟩
  have hP₀ : PoolInv s₀.fwd := Reaches.of_invariant (watched_forwarder hr₀)
    (poolInv_invariant cfg)
  have hP : PoolInv s.fwd := Reaches.of_invariant (watched_forwarder hr)
    (poolInv_invariant cfg)
  have hx₀ : PooledFor pod x s₀.fwd := by
    obtain ⟨e, he, rfl⟩ := List.mem_map.1 hin
    exact ⟨hP₀.allocated e he, hfor, .inl hin⟩
  have hx₁ : PooledFor pod x s₁.fwd := hx₀.follows (watched_forwarder hr₀) hdelete
  exact ((hx₁.run hr₁ hduring).run hr₂ hafter).dropped hP hgone hlock hdone

/-- Pod web-0, ready or terminating. -/
def webPod (terminating : Bool) : WatchedPod :=
  { testPod "web-0" "a" true with
    deletionTimestamp := if terminating then some "2024-01-01T00:00:00Z" else none }

/-- Pod web-0 becomes ready and call 0 opens a session for it, which makes it the target;
the reactor has seen the event. -/
def openOnPodActs : List WatchedAct :=
  [WatchedAct.watch (.applyPod (webPod false))] ++
    List.replicate 4 (WatchedAct.watch .subscriber) ++
    [WatchedAct.fwd (.connect 8080), .fwd (.task 0 .go), .ask 0] ++
    List.replicate 3 (WatchedAct.watch (.call 0 .go)) ++
    [WatchedAct.watch (.call 0 (.list [webPod false])), .answer 0] ++
    (goActs 0 18).map WatchedAct.fwd ++
    [WatchedAct.fwd (.task 0 (.permit .acquired)), .fwd (.task 0 (.opened (.ok idleSession)))] ++
    (goActs 0 7).map WatchedAct.fwd ++ [WatchedAct.reactor]

/-- The reflector handles the deletion and announces it. -/
def announceActs : List WatchedAct := [.watch .reflector, .watch .reflector]

/-- The reactor takes up the notice and drains the pool. -/
def drainActs : List WatchedAct :=
  [WatchedAct.reactor, .fwd (.task 1 .go), .fwd (.task 1 (.contains false))] ++
    (goActs 1 4).map WatchedAct.fwd ++ [WatchedAct.reactor]

theorem deleted_target_dropped_announced :
    ∃ s₀ s₁ s₂ s, (watched .default anyReadyPod).run (watched .default anyReadyPod).init
        openOnPodActs = some s₀ ∧
      (watched .default anyReadyPod).step s₀ (.watch (.deletePod ⟨"web-0", some "a"⟩)) = some s₁ ∧
      (watched .default anyReadyPod).run s₁ announceActs = some s₂ ∧
      (watched .default anyReadyPod).run s₂ drainActs = some s ∧
      s₀.fwd.pool.target = some ⟨"web-0", some "a"⟩ ∧
      s.fwd.pool.target ≠ some ⟨"web-0", some "a"⟩ := by
  have hobs₀ : ((watched .default anyReadyPod).run (watched .default anyReadyPod).init
      openOnPodActs).map (fun s => s.fwd.pool.target) = some (some ⟨"web-0", some "a"⟩) := by
    decide +kernel
  have hobs₁ : ((watched .default anyReadyPod).run (watched .default anyReadyPod).init
      (openOnPodActs ++ [.watch (.deletePod ⟨"web-0", some "a"⟩)])).map
        (fun s => (watched .default anyReadyPod).check (NoticeArrives ⟨"web-0", some "a"⟩) s
          (announceActs ++ drainActs)) = some true := by decide +kernel
  have hobs₂ : ((watched .default anyReadyPod).run (watched .default anyReadyPod).init
      (openOnPodActs ++ [.watch (.deletePod ⟨"web-0", some "a"⟩)] ++ announceActs)).map
        (fun s => (s.watch.reflector, s.watch.changes.length)) = some (.next, 2) := by
    decide +kernel
  have hobs : ((watched .default anyReadyPod).run (watched .default anyReadyPod).init
      (openOnPodActs ++ [.watch (.deletePod ⟨"web-0", some "a"⟩)] ++ announceActs ++
        drainActs)).map (fun s => (s.reactor, s.seen)) = some (.next, 2) := by decide +kernel
  obtain ⟨s₀, h₀, htarget⟩ := Option.map_eq_some_iff.1 hobs₀
  obtain ⟨s₁, h₁, hcheck⟩ := Option.map_eq_some_iff.1 hobs₁
  obtain ⟨s₂, h₂, hs₂⟩ := Option.map_eq_some_iff.1 hobs₂
  obtain ⟨s, h, hs⟩ := Option.map_eq_some_iff.1 hobs
  simp only [Prod.mk.injEq] at hs₂ hs
  obtain ⟨u, hu, hdelete⟩ := run_snoc h₁
  obtain rfl : s₀ = u := Option.some.inj (h₀.symm.trans hu)
  rw [run_append h₁] at h₂
  rw [List.append_assoc, run_append h₁, run_append h₂] at h
  exact ⟨s₀, s₁, s₂, s, h₀, hdelete, h₂, h, htarget,
    (deleted_target_dropped .default anyReadyPod ⟨"web-0", some "a"⟩ openOnPodActs announceActs
      drainActs s₀ s₁ s₂ s h₀ htarget hdelete h₂ hs₂.1 h (meets_of_check hcheck) hs.1
      (by rw [hs₂.2, hs.2])).1⟩

/-- Pod web-0 is terminating; some caller of `ready_pod` finds no ready pod any more and
clears the cache. -/
def terminatingActs : List WatchedAct :=
  [.watch (.applyPod (webPod true)), .watch .subscriber, .watch .subscriber, .watch .readyPod,
    .watch (.call 1 .go), .watch (.call 1 (.list [webPod true])), .watch (.call 1 .go)]

/-- The pod is deleted, but the cache does not hold it and no notice is sent: the reactor
has seen every event, and the pool keeps the deleted pod and its session. -/
theorem deleted_target_kept :
    ¬ ∀ (cfg : ForwarderConfig) (wcfg : WatchConfig) (pod : ReadyPod)
        (before during after : List WatchedAct) (s₀ s₁ s₂ s : Watched),
      (watched cfg wcfg).run (watched cfg wcfg).init before = some s₀ →
      s₀.fwd.pool.target = some pod →
      (watched cfg wcfg).step s₀ (.watch (.deletePod pod)) = some s₁ →
      (watched cfg wcfg).run s₁ during = some s₂ → s₂.watch.reflector = .next →
      (watched cfg wcfg).run s₂ after = some s → s.reactor = .next →
      s₂.watch.changes.length ≤ s.seen → s.fwd.pool.target ≠ some pod := by
  intro hall
  have hobs₀ : ((watched .default anyReadyPod).run (watched .default anyReadyPod).init
      (openOnPodActs ++ terminatingActs)).map (fun s => s.fwd.pool.target) =
      some (some ⟨"web-0", some "a"⟩) := by decide +kernel
  have hobs₁ : ((watched .default anyReadyPod).run (watched .default anyReadyPod).init
      (openOnPodActs ++ terminatingActs ++ [.watch (.deletePod ⟨"web-0", some "a"⟩)])).map
        (fun _ => ()) = some () := by decide +kernel
  have hobs₂ : ((watched .default anyReadyPod).run (watched .default anyReadyPod).init
      (openOnPodActs ++ terminatingActs ++ [.watch (.deletePod ⟨"web-0", some "a"⟩)] ++
        [.watch .reflector])).map (fun s => ((s.watch.reflector, s.watch.changes.length),
          s.reactor, s.seen, s.fwd.pool.target)) =
      some ((.next, 1), .next, 1, some ⟨"web-0", some "a"⟩) := by decide +kernel
  obtain ⟨s₀, h₀, htarget⟩ := Option.map_eq_some_iff.1 hobs₀
  obtain ⟨s₁, h₁, -⟩ := Option.map_eq_some_iff.1 hobs₁
  obtain ⟨s₂, h₂, hs₂⟩ := Option.map_eq_some_iff.1 hobs₂
  simp only [Prod.mk.injEq] at hs₂
  obtain ⟨⟨hhandled, hlen⟩, hreactor, hseen, hkept⟩ := hs₂
  obtain ⟨u, hu, hdelete⟩ := run_snoc h₁
  obtain rfl : s₀ = u := Option.some.inj (h₀.symm.trans hu)
  rw [run_append h₁] at h₂
  exact hall .default anyReadyPod _ _ _ [] s₀ s₁ s₂ s₂ h₀ htarget hdelete h₂ hhandled rfl hreactor
    (by rw [hlen, hseen]) hkept

end KubePortForward.Forwarder

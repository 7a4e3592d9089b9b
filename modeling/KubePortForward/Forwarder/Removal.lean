import KubePortForward.Forwarder.FailOver

/-!
# Sessions that leave the pool

A session is in the entries until some task takes it out, and every task records
what it takes out.  `PoolInv` says that a task cancels what it has taken out; here
we show that nothing gets lost between the two.

## Main results

* `step_extractions` — a session of the pool stays in the entries or is recorded as
  removed.
-/

namespace KubePortForward.Forwarder

open KubePortForward.Verified.Transition

/-- An `extract_if` under way has every entry among those it keeps, those it has before
it and those it removes. -/
def Section.Covers (entries : List PooledSession) : Section → Prop
  | .retiring kept rest removed => ∀ e ∈ entries, e ∈ kept ++ rest ∨ e.session ∈ removed
  | .pruning _ kept rest removed => ∀ e ∈ entries, e ∈ kept ++ rest ∨ e.session ∈ removed
  | _ => True

/-- The extractions of all tasks are complete. -/
def Extractions (s : State) : Prop :=
  ∀ (t : TaskId) (k : Task) (sec : Section), s.tasks[t]? = some k → k.pc = .locked sec →
    sec.Covers s.pool.entries

/-- The session is in the entries, or some task has taken it out. -/
def Pooled (s : State) (x : SessionId) : Prop :=
  x ∈ s.pool.sessions ∨ ∃ t, x ∈ s.history.removed t

/-- What the holder of the lock does to the entries. -/
structure Accounts (t : TaskId) (s s' : State) : Prop where
  pooled : ∀ x ∈ s.pool.sessions, x ∈ s'.pool.sessions ∨ x ∈ s'.history.removed t
  removed : ∀ i, ∀ x ∈ s.history.removed i, x ∈ s'.history.removed i
  covers : ∀ k sec, s'.tasks[t]? = some k → k.pc = .locked sec → sec.Covers s'.pool.entries

section

variable {cfg : ForwarderConfig} {t : TaskId} {k : Task} {s s' : State} {c : Choice}

/-- A step that takes nothing out. -/
theorem Accounts.keep {u : State} {k' : Task} (hentries : ∀ e ∈ s.pool.entries,
      e ∈ u.pool.entries) (hremoved : u.history.removed = s.history.removed)
    (hcovers : ∀ sec, k'.pc = .locked sec → sec.Covers u.pool.entries) :
    Accounts t s (u.setTask t k') := by
  refine ⟨fun x hx => .inl ?_, fun i x hx => ?_, fun y sec hy hpc => ?_⟩
  · obtain ⟨e, he, rfl⟩ := List.mem_map.1 hx
    exact List.mem_map_of_mem (hentries e he)
  · show x ∈ u.history.removed i
    rw [hremoved]
    exact hx
  · rcases setTask_tasks hy with ⟨-, rfl⟩ | ⟨hne, -⟩
    · exact hcovers sec hpc
    · exact absurd rfl hne

/-- The holder takes `removed` out and keeps `kept`. -/
theorem Accounts.take {u : State} {k' : Task} {kept : List PooledSession}
    {removed : List SessionId} (hpool : u.pool.entries = kept)
    (hlog : u.history.removed =
      Function.update s.history.removed t (s.history.removed t ++ removed))
    (hcover : ∀ e ∈ s.pool.entries, e ∈ kept ∨ e.session ∈ removed)
    (hsec : ∀ sec, k'.pc = .locked sec → ∃ gone after, sec = .publish gone after) :
    Accounts t s (u.setTask t k') := by
  refine ⟨fun x hx => ?_, fun i x hx => ?_, fun y sec hy hpc => ?_⟩
  · obtain ⟨e, he, rfl⟩ := List.mem_map.1 hx
    rcases hcover e he with hkept | hgone
    · left
      show e.session ∈ u.pool.sessions
      rw [SessionPool.sessions, hpool]
      exact List.mem_map_of_mem hkept
    · right
      show e.session ∈ u.history.removed t
      rw [hlog, Function.update_self]
      exact List.mem_append_right _ hgone
  · show x ∈ u.history.removed i
    rw [hlog]
    by_cases hi : i = t
    · subst hi
      rw [Function.update_self]
      exact List.mem_append_left _ hx
    · rw [Function.update_of_ne hi]
      exact hx
  · rcases setTask_tasks hy with ⟨-, rfl⟩ | ⟨hne, -⟩
    · obtain ⟨gone, after, rfl⟩ := hsec sec hpc
      trivial
    · exact absurd rfl hne

/-- One more entry has been examined. -/
theorem Section.Covers.advance {entries kept rest : List PooledSession} {e : PooledSession}
    {removed : List SessionId}
    (h : ∀ d ∈ entries, d ∈ kept ++ e :: rest ∨ d.session ∈ removed) :
    (∀ d ∈ entries, d ∈ kept ++ rest ∨ d.session ∈ removed ++ [e.session]) ∧
      ∀ d ∈ entries, d ∈ (kept ++ [e]) ++ rest ∨ d.session ∈ removed := by
  constructor
  · intro d hd
    rcases h d hd with hin | hgone
    · rcases List.mem_append.1 hin with hkept | hrest
      · exact .inl (List.mem_append_left _ hkept)
      · rcases List.mem_cons.1 hrest with rfl | hrest
        · exact .inr (List.mem_append_right _ (List.mem_singleton_self _))
        · exact .inl (List.mem_append_right _ hrest)
    · exact .inr (List.mem_append_left _ hgone)
  · intro d hd
    simpa using h d hd

theorem lockedStep_accounts {sec : Section} (hcov : sec.Covers s.pool.entries)
    (h : lockedStep cfg t k s sec c = some s') : Accounts t s s' := by
  have hsame : ∀ {u : State} {k' : Task}, u.pool.entries = s.pool.entries →
      u.history.removed = s.history.removed →
      (∀ sec, k'.pc = .locked sec → sec.Covers s.pool.entries) →
      Accounts t s (u.setTask t k') := by
    intro u k' hentries hremoved hcovers
    refine Accounts.keep (fun e he => ?_) hremoved fun sec hpc => ?_
    · rw [hentries]
      exact he
    · rw [hentries]
      exact hcovers sec hpc
  have hpush : ∀ {u : State} {k' : Task} {x : SessionId},
      u.pool.entries = s.pool.entries ++ [{ session := x, createdAt := s.now }] →
      u.history.removed = s.history.removed →
      (∀ sec entries, k'.pc = .locked sec → sec.Covers entries) →
      Accounts t s (u.setTask t k') := by
    intro u k' x hentries hremoved hcovers
    refine Accounts.keep (fun e he => ?_) hremoved fun sec hpc => hcovers sec _ hpc
    rw [hentries]
    exact List.mem_append_left _ he
  have hnone : ∀ {pc : Pc} (sec : Section), pc.isLocked = false → pc = .locked sec →
      sec.Covers s.pool.entries := by
    rintro pc sec hout rfl
    contradiction
  unfold lockedStep at h
  simp only at h
  split at h
  · split at h <;> cases h
    · exact hsame rfl rfl fun sec hpc => hnone sec rfl hpc
    · exact hsame rfl rfl fun sec hpc => by cases hpc; trivial
  · cases h
    exact hsame rfl rfl fun sec hpc => by cases hpc; trivial
  · split at h
    · cases h
      exact hsame rfl rfl fun sec hpc => hnone sec rfl hpc
    · split at h <;> cases h
      · exact hsame rfl rfl fun sec hpc => hnone sec rfl hpc
      · exact hsame rfl rfl fun sec hpc => by cases hpc; trivial
  · cases h
    refine Accounts.take rfl rfl (fun e he => .inr (List.mem_map_of_mem he)) fun sec hpc => ?_
    cases hpc
    exact ⟨_, _, rfl⟩
  · cases h
    exact hsame rfl rfl fun sec hpc => hnone sec rfl hpc
  · cases h
    refine hsame rfl rfl fun sec hpc => ?_
    cases hpc
    exact fun e he => .inl he
  · next kept e rest removed =>
      cases h
      refine hsame rfl rfl fun sec hpc => ?_
      cases hpc
      split
      · exact (Section.Covers.advance hcov).1
      · exact (Section.Covers.advance hcov).2
  · next kept removed =>
      have hcover : ∀ e ∈ s.pool.entries, e ∈ kept ∨ e.session ∈ removed := by
        intro e he
        simpa using hcov e he
      split at h <;> cases h
      · exact Accounts.take rfl rfl hcover fun sec hpc => by contradiction
      · refine Accounts.take rfl rfl hcover fun sec hpc => ?_
        cases hpc
        exact ⟨_, _, rfl⟩
  · cases h
    refine hsame rfl rfl fun sec hpc => ?_
    cases hpc
    exact fun e he => .inl he
  · next left kept e rest removed =>
      cases h
      refine hsame rfl rfl fun sec hpc => ?_
      cases hpc
      split
      · exact (Section.Covers.advance hcov).1
      · exact (Section.Covers.advance hcov).2
  · split at h <;> cases h
    · exact Accounts.take rfl rfl hcov fun sec hpc => by contradiction
    · refine Accounts.take rfl rfl hcov fun sec hpc => ?_
      cases hpc
      exact ⟨_, _, rfl⟩
  · split at h <;> cases h
    · exact hpush rfl rfl fun sec entries hpc => by cases hpc; trivial
    · exact hsame rfl rfl fun sec hpc => hnone sec rfl hpc
  · cases h
    exact hsame rfl rfl fun sec hpc => hnone sec rfl hpc
  · split at h <;> cases h
    · exact hsame rfl rfl fun sec hpc => hnone sec rfl hpc
    · exact hsame rfl rfl fun sec hpc => by cases hpc; trivial
  · cases h
    exact hsame rfl rfl fun sec hpc => hnone sec rfl hpc
  · split at h <;> cases h
    · exact hsame rfl rfl fun sec hpc => hnone sec rfl hpc
    · exact hsame rfl rfl fun sec hpc => hnone sec rfl hpc
  · split at h
    · cases h
      exact hsame rfl rfl fun sec hpc => hnone sec rfl hpc
    · split at h <;> cases h
      · exact hpush rfl rfl fun sec entries hpc => by cases hpc; trivial
      · exact hsame rfl rfl fun sec hpc => hnone sec rfl hpc
  · cases h
    exact hsame rfl rfl fun sec hpc => hnone sec rfl hpc
  · contradiction

end

/-- The entries and the records of the tasks are as before. -/
theorem Extractions.of_same {s u : State} {t : TaskId} {k' : Task} (hI : Extractions s)
    (htasks : u.tasks = s.tasks) (hentries : u.pool.entries = s.pool.entries)
    (hsec : ∀ sec, k'.pc = .locked sec → sec.isEntry = true) :
    Extractions (u.setTask t k') := by
  intro i y sec hy hpc
  show sec.Covers u.pool.entries
  rcases setTask_tasks hy with ⟨-, rfl⟩ | ⟨-, hy⟩
  · have hentry := hsec sec hpc
    cases sec <;> trivial
  · rw [htasks] at hy
    rw [hentries]
    exact hI i y sec hy hpc

theorem Extractions.spawn {s : State} {k : Task} (hI : Extractions s)
    (hk : k.pc.isLocked = false) : Extractions (s.spawn k) := by
  intro i y sec hy hpc
  rcases spawn_tasks hy with hold | ⟨-, rfl⟩
  · exact hI i y sec hold hpc
  · rw [hpc] at hk
    contradiction

/-- A session of the pool is never lost track of, and the extractions stay
complete. -/
theorem step_extractions {cfg : ForwarderConfig} {s s' : State} {a : Act} (hP : PoolInv s)
    (hI : Extractions s) (h : step cfg s a = some s') :
    Extractions s' ∧ ∀ x, Pooled s x → Pooled s' x := by
  have hpooled : ∀ {u : State}, u.pool.entries = s.pool.entries →
      u.history.removed = s.history.removed → ∀ x, Pooled s x → Pooled u x := by
    intro u hentries hremoved x hx
    unfold Pooled SessionPool.sessions
    rw [hentries, hremoved]
    exact hx
  obtain ⟨k, hk, rfl⟩ | ⟨t, k, sec, c, -, hk, hpc, hl⟩ | ⟨t, k, sec, hk, hpc, -, rfl⟩ |
    ⟨t, k, x, hk, hpc, rfl⟩ | ⟨t, k, u, k', hk, -, hmove, rfl⟩ |
    ⟨x, inner, spares, cancel, rfl⟩ | rfl := step_cases h
  · exact ⟨hI.spawn hk.plain.unlocked, hpooled rfl rfl⟩
  · have hacc := lockedStep_accounts (hI t k sec hk hpc) hl
    refine ⟨fun i y sec' hy hpc' => ?_, fun x hx => ?_⟩
    · by_cases hi : i = t
      · subst hi
        exact hacc.covers y sec' hy hpc'
      · -- Nobody else is in a section, so nobody else extracts.
        rw [lockedStep_other hl hi] at hy
        have hlock := hP.lockers i y hy (by rw [hpc']; rfl)
        rw [hP.lockers t k hk (by rw [hpc]; rfl), Option.some.injEq] at hlock
        exact absurd hlock.symm hi
    · rcases hx with hin | ⟨i, hi⟩
      · exact (hacc.pooled x hin).imp id fun hgone => ⟨t, hgone⟩
      · exact .inr ⟨i, hacc.removed i x hi⟩
  · refine ⟨hI.of_same rfl rfl fun sec' heq => ?_, hpooled rfl rfl⟩
    cases heq
    have henters := hP.enters t k hk
    rw [hpc] at henters
    exact henters
  · refine ⟨Extractions.spawn (hI.of_same rfl rfl fun sec' heq => by contradiction) rfl,
      hpooled rfl rfl⟩
  · have hext := hmove.extends
    refine ⟨hI.of_same hext.tasks hext.entries fun sec' heq => ?_,
      hpooled hext.entries hext.removed⟩
    have hout := hmove.unlocked.2.1
    rw [heq] at hout
    contradiction
  · exact ⟨hI, hpooled rfl rfl⟩
  · exact ⟨hI, hpooled rfl rfl⟩

theorem extractions_invariant (cfg : ForwarderConfig) :
    (forwarder cfg).Invariant anyStep Extractions := by
  refine Invariant.of_step_using (poolInv_invariant cfg) ?_ ?_
  · intro t k sec hk
    simp [forwarder, State.init] at hk
  · intro s a s' hP hI _ hs
    exact (step_extractions hP hI hs).1

end KubePortForward.Forwarder

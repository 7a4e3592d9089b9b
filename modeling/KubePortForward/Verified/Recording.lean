import KubePortForward.Verified.Transition

/-!
# A system with a log

A transition system beside a log that every step may write and no step reads.  What a
property says about the past of a run, such as the last value of some kind that was seen,
is then said of the state reached.

## Main results

* `run_recording` — the log makes no difference to the runs.
* `Invariant.recording` — so what is known of the system is known beside its log.
-/

namespace KubePortForward.Verified.Transition

variable {σ α η : Type}

/-- The system with a log, written from the state a step is taken in and its label. -/
def System.recording (M : System σ α) (start : η) (record : σ → α → η → η) :
    System (σ × η) α where
  init := (M.init, start)
  step x a := (M.step x.1 a).map fun s => (s, record x.1 a x.2)

variable {M : System σ α} {ok : σ → α → Prop} {start : η} {record : σ → α → η → η}

theorem recording_step {x y : σ × η} {a : α} (h : (M.recording start record).step x a = some y) :
    M.step x.1 a = some y.1 ∧ y.2 = record x.1 a x.2 := by
  obtain ⟨s, hs, rfl⟩ := Option.map_eq_some_iff.1 h
  exact ⟨hs, rfl⟩

theorem run_recording {x y : σ × η} {as : List α}
    (h : (M.recording start record).run x as = some y) : M.run x.1 as = some y.1 := by
  induction as generalizing x with
  | nil =>
      cases h
      rfl
  | cons a as ih =>
      obtain ⟨z, hz, hrest⟩ := run_cons_some h
      rw [System.run, (recording_step hz).1]
      exact ih hrest

theorem Meets.recording {x : σ × η} {as : List α}
    (h : (M.recording start record).Meets (fun x a => ok x.1 a) x as) : M.Meets ok x.1 as := by
  induction as generalizing x with
  | nil => trivial
  | cons a as ih =>
      refine ⟨h.1, fun s hs => ih (x := (s, record x.1 a x.2)) (h.2 _ ?_)⟩
      show (M.step x.1 a).map _ = _
      rw [hs]
      rfl

theorem Invariant.recording {I : σ → Prop} (hI : M.Invariant ok I) (start : η)
    (record : σ → α → η → η) :
    (M.recording start record).Invariant (fun x a => ok x.1 a) (fun x => I x.1) :=
  fun as x hrun hmeets => hI as x.1 (run_recording hrun) (Meets.recording hmeets)

end KubePortForward.Verified.Transition

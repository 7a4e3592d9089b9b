import KubePortForward.Mux.Session

/-!
# The round-trip estimate of a handle

`HandleMetrics` keeps one estimate for every handle.  Each completed open records its
sample in a compare-exchange loop: a sample above the estimate replaces it, any other one
makes it decay, nine tenths of the estimate and one tenth of the sample.  Any number of
calls of `record_rtt` run at once, cut at their accesses to the estimate; an exchange may
fail although the estimate has not changed.

Both tenths are integer divisions that round down, and what they cut off is lost.  The
estimate never exceeds what was measured, but it sinks below the smallest sample when both
have the same number of whole tens and the sample has units beyond them, and ends at zero
for samples that are small.

## Main results

* `recordRtt_toNat` — no update overflows.
* `le_decay_iff` — when one decay stays at or above what was measured.
* `rtt_within_measured_iff` — the estimate lies between the smallest and the largest of
  the seed and the samples in every state of a run exactly when every decay of the run
  starts more tens up than the smallest, or the smallest is a multiple of ten.
* `equal_samples_undershot` — two equal samples leave the estimate below both and the seed.
-/

namespace KubePortForward.Mux

open KubePortForward.Verified.Transition

/-! ## One update -/

/-- `HandleMetrics::new`: one millisecond. -/
def RTT_SEED : UInt64 := 1000000

/-- `HandleMetrics::cost`. -/
def metricsCost (rttNs : UInt64) (inflight : Nat) : Nat :=
  min (rttNs.toNat * min (inflight + 1) U64_MAX) U64_MAX

/-- The update is computed as in the natural numbers. -/
theorem recordRtt_toNat (elapsedNs prev : UInt64) :
    (recordRtt elapsedNs prev).toNat =
      if prev.toNat < elapsedNs.toNat then elapsedNs.toNat
      else prev.toNat / 10 * 9 + elapsedNs.toNat / 10 := by
  unfold recordRtt
  by_cases h : prev < elapsedNs
  · rw [if_pos h, if_pos (UInt64.lt_iff_toNat_lt.1 h)]
  · have hle : ¬ prev.toNat < elapsedNs.toNat := fun hlt => h (UInt64.lt_iff_toNat_lt.2 hlt)
    have hprev : prev.toNat < 2 ^ 64 := prev.toNat_lt
    rw [if_neg h, if_neg hle, UInt64.toNat_add, UInt64.toNat_mul, UInt64.toNat_div,
      UInt64.toNat_div]
    show (prev.toNat / 10 * 9 % 2 ^ 64 + elapsedNs.toNat / 10) % 2 ^ 64 = _
    omega

/-- The estimate never rises above both the old one and the sample. -/
theorem recordRtt_le (elapsedNs prev : UInt64) :
    recordRtt elapsedNs prev ≤ prev ∨ recordRtt elapsedNs prev = elapsedNs := by
  by_cases h : prev < elapsedNs
  · exact .inr (if_pos h)
  · left
    have hle : ¬ prev.toNat < elapsedNs.toNat := fun hlt => h (UInt64.lt_iff_toNat_lt.2 hlt)
    rw [UInt64.le_iff_toNat_le, recordRtt_toNat, if_neg hle]
    omega

/-- Nothing that is at most the sample and the estimate is undershot by a decay, unless the
estimate has as many whole tens as it and it has units beyond them. -/
theorem le_decay_iff {elapsedNs prev : UInt64} {m : Nat} (hm : m ≤ elapsedNs.toNat)
    (h : elapsedNs ≤ prev) :
    m ≤ (recordRtt elapsedNs prev).toNat ↔ m % 10 = 0 ∨ m / 10 < prev.toNat / 10 := by
  rw [UInt64.le_iff_toNat_le] at h
  have hdecay : (recordRtt elapsedNs prev).toNat =
      prev.toNat / 10 * 9 + elapsedNs.toNat / 10 := by
    rw [recordRtt_toNat, if_neg (Nat.not_lt.2 h)]
  rw [hdecay]
  -- With as many tens as the estimate, the sample in between has as many too.
  omega

/-- Below saturation every pair in flight costs more. -/
theorem metricsCost_lt {rttNs : UInt64} {few many : Nat} (hrtt : 0 < rttNs) (h : few < many)
    (hmany : metricsCost rttNs many < U64_MAX) :
    metricsCost rttNs few < metricsCost rttNs many := by
  have hpos : 0 < rttNs.toNat := UInt64.lt_iff_toNat_lt.1 hrtt
  have hprod : rttNs.toNat * min (many + 1) U64_MAX < U64_MAX :=
    (min_lt_iff.1 hmany).resolve_right (Nat.lt_irrefl _)
  have hfactor : min (many + 1) U64_MAX ≤ rttNs.toNat * min (many + 1) U64_MAX :=
    Nat.le_mul_of_pos_left _ hpos
  have hcount : many + 1 < U64_MAX :=
    (min_lt_iff.1 (Nat.lt_of_le_of_lt hfactor hprod)).resolve_right (Nat.lt_irrefl _)
  unfold metricsCost
  rw [Nat.min_eq_left (Nat.le_of_lt hcount)] at hprod ⊢
  rw [Nat.min_eq_left (by omega : few + 1 ≤ U64_MAX), Nat.min_eq_left (Nat.le_of_lt hprod)]
  have hless : rttNs.toNat * (few + 1) < rttNs.toNat * (many + 1) :=
    Nat.mul_lt_mul_of_pos_left (by omega) hpos
  exact Nat.lt_of_le_of_lt (Nat.min_le_left _ _) hless

/-! ## Concurrent calls -/

/-- The access that a call of `record_rtt` makes next. -/
inductive RttPc where
  | idle
  | load (elapsedNs : UInt64)
  | exchange (elapsedNs prev : UInt64)
  deriving DecidableEq, Repr

/-- The estimate and the calls, with the samples recorded so far. -/
structure RttState where
  rttNs : UInt64 := RTT_SEED
  calls : Nat → RttPc := fun _ => .idle
  recorded : List UInt64 := []

inductive RttAct where
  | record (c : Nat) (elapsedNs : UInt64)
  | step (c : Nat) (spurious : Bool)
  deriving DecidableEq, Repr

def RttState.setPc (s : RttState) (c : Nat) (pc : RttPc) : RttState :=
  { s with calls := Function.update s.calls c pc }

/-- The loop of `record_rtt`; the exchange is a weak one. -/
def rttStep (s : RttState) : RttAct → Option RttState
  | .record c elapsedNs =>
      match s.calls c with
      | .idle => some (s.setPc c (.load elapsedNs))
      | _ => none
  | .step c spurious =>
      match s.calls c with
      | .idle => none
      | .load elapsedNs => some (s.setPc c (.exchange elapsedNs s.rttNs))
      | .exchange elapsedNs prev =>
          if s.rttNs = prev ∧ spurious = false then
            some { s.setPc c .idle with
              rttNs := recordRtt elapsedNs prev
              recorded := s.recorded ++ [elapsedNs] }
          else some (s.setPc c (.exchange elapsedNs s.rttNs))

/-- The metrics of one handle. -/
def handleMetrics : System RttState RttAct where
  init := {}
  step := rttStep

/-- The seed and the samples recorded so far. -/
def RttState.measured (s : RttState) : List UInt64 := RTT_SEED :: s.recorded

/-- The estimate is between the smallest and the largest of what was measured. -/
def RttState.Between (s : RttState) : Prop :=
  (∃ m ∈ s.measured, m ≤ s.rttNs) ∧ ∃ m ∈ s.measured, s.rttNs ≤ m

/-- With positive samples the estimate is positive, and a handle costs more the more pairs
it has in flight. -/
def RttState.Counts (s : RttState) : Prop :=
  (∀ x ∈ s.recorded, 0 < x) → 0 < s.rttNs ∧ ∀ few many, few < many →
    metricsCost s.rttNs many < U64_MAX → metricsCost s.rttNs few < metricsCost s.rttNs many

/-- The smallest of the seed, the samples recorded so far and one more. -/
def RttState.smallest (s : RttState) (elapsedNs : UInt64) : Nat :=
  (s.measured.map UInt64.toNat).foldr min elapsedNs.toNat

/-- The estimate that a sample makes decay has more whole tens than the smallest of what was
measured, the sample included, or that smallest is a multiple of ten. -/
def DecaysFromAbove (s : RttState) : RttAct → Prop
  | .step c false =>
      match s.calls c with
      | .exchange elapsedNs prev => s.rttNs = prev → elapsedNs ≤ prev →
          s.smallest elapsedNs % 10 = 0 ∨ s.smallest elapsedNs / 10 < prev.toNat / 10
      | _ => True
  | _ => True

instance (s : RttState) (a : RttAct) : Decidable (DecaysFromAbove s a) := by
  unfold DecaysFromAbove
  (repeat' split) <;> infer_instance

/-! ## The smallest of what was measured -/

theorem foldr_min_le (l : List Nat) (x : Nat) :
    l.foldr min x ≤ x ∧ ∀ y ∈ l, l.foldr min x ≤ y := by
  induction l with
  | nil => exact ⟨Nat.le_refl x, List.forall_mem_nil _⟩
  | cons a l ih =>
      refine ⟨Nat.le_trans (Nat.min_le_right _ _) ih.1, ?_⟩
      intro y hy
      rcases List.mem_cons.1 hy with rfl | hy
      · exact Nat.min_le_left _ _
      · exact Nat.le_trans (Nat.min_le_right _ _) (ih.2 y hy)

theorem foldr_min_mem (l : List Nat) (x : Nat) : l.foldr min x ∈ l ++ [x] := by
  induction l with
  | nil => exact List.mem_singleton_self x
  | cons a l ih =>
      rw [List.foldr_cons, List.cons_append]
      rcases min_choice a (l.foldr min x) with h | h
      · rw [h]
        exact List.mem_cons_self
      · rw [h]
        exact List.mem_cons_of_mem _ ih

theorem RttState.smallest_le (s : RttState) (elapsedNs : UInt64) :
    s.smallest elapsedNs ≤ elapsedNs.toNat ∧
      ∀ m ∈ s.measured ++ [elapsedNs], s.smallest elapsedNs ≤ m.toNat := by
  have hmin := foldr_min_le (s.measured.map UInt64.toNat) elapsedNs.toNat
  refine ⟨hmin.1, ?_⟩
  intro m hm
  rcases List.mem_append.1 hm with hm | hm
  · exact hmin.2 _ (List.mem_map_of_mem hm)
  · rw [List.mem_singleton.1 hm]
    exact hmin.1

theorem RttState.smallest_measured (s : RttState) (elapsedNs : UInt64) :
    ∃ m ∈ s.measured ++ [elapsedNs], m.toNat = s.smallest elapsedNs := by
  have hmem := foldr_min_mem (s.measured.map UInt64.toNat) elapsedNs.toNat
  have hmap : s.measured.map UInt64.toNat ++ [elapsedNs.toNat] =
      (s.measured ++ [elapsedNs]).map UInt64.toNat := by
    rw [List.map_append, List.map_singleton]
  rw [hmap] at hmem
  exact List.mem_map.1 hmem

/-! ## Runs -/

/-- A step leaves the estimate and the samples as they are, or records one sample. -/
theorem rttStep_cases {s s' : RttState} {a : RttAct} (h : rttStep s a = some s') :
    (s'.rttNs = s.rttNs ∧ s'.recorded = s.recorded) ∨
      ∃ c elapsedNs, a = .step c false ∧ s.calls c = .exchange elapsedNs s.rttNs ∧
        s'.rttNs = recordRtt elapsedNs s.rttNs ∧ s'.recorded = s.recorded ++ [elapsedNs] := by
  cases a with
  | record c elapsedNs =>
      simp only [rttStep] at h
      split at h
      · cases h
        exact .inl ⟨rfl, rfl⟩
      · contradiction
  | step c spurious =>
      simp only [rttStep] at h
      split at h
      · contradiction
      · cases h
        exact .inl ⟨rfl, rfl⟩
      · next elapsedNs prev hpc =>
          split at h
          · next hswap =>
              obtain ⟨rfl, rfl⟩ := hswap
              cases h
              exact .inr ⟨c, elapsedNs, rfl, hpc, rfl, rfl⟩
          · cases h
            exact .inl ⟨rfl, rfl⟩

/-- What was measured stays measured. -/
theorem measured_subset {s s' : RttState} {a : RttAct} (h : rttStep s a = some s') :
    s.measured ⊆ s'.measured := by
  unfold RttState.measured
  rcases rttStep_cases h with ⟨-, hrec⟩ | ⟨_, _, -, -, -, hrec⟩
  · rw [hrec]
    exact List.Subset.refl _
  · rw [hrec]
    exact List.cons_subset_cons _ (List.subset_append_left _ _)

/-- The estimate is at most the largest of what was measured, whatever is cut off. -/
theorem rtt_le_invariant :
    handleMetrics.Invariant anyStep fun s => ∃ m ∈ s.measured, s.rttNs ≤ m := by
  refine Invariant.of_step ⟨RTT_SEED, List.mem_cons_self, UInt64.le_refl _⟩ ?_
  rintro s a s' ⟨m, hm, hle⟩ - h
  rcases rttStep_cases h with ⟨hrtt, -⟩ | ⟨_, elapsedNs, -, -, hrtt, hrec⟩
  · exact ⟨m, measured_subset h hm, hrtt ▸ hle⟩
  · rcases recordRtt_le elapsedNs s.rttNs with hless | hsame
    · exact ⟨m, measured_subset h hm, hrtt ▸ UInt64.le_trans hless hle⟩
    · refine ⟨elapsedNs, by simp [RttState.measured, hrec], ?_⟩
      rw [hrtt, hsame]
      exact UInt64.le_refl _

/-- An exchange meets the condition exactly when it stays at or above something measured. -/
theorem decaysFromAbove_iff {s : RttState} {c : Nat} {elapsedNs : UInt64}
    (hpc : s.calls c = .exchange elapsedNs s.rttNs) :
    DecaysFromAbove s (.step c false) ↔
      ∃ m ∈ s.measured ++ [elapsedNs], m ≤ recordRtt elapsedNs s.rttNs := by
  obtain ⟨hsample, hall⟩ := s.smallest_le elapsedNs
  simp only [DecaysFromAbove, hpc]
  by_cases hle : elapsedNs ≤ s.rttNs
  · have hdecay := le_decay_iff hsample hle
    constructor
    · intro h
      obtain ⟨m, hm, hleast⟩ := s.smallest_measured elapsedNs
      refine ⟨m, hm, ?_⟩
      rw [UInt64.le_iff_toNat_le, hleast]
      exact hdecay.2 (h trivial hle)
    · rintro ⟨m, hm, hkeeps⟩ - -
      exact hdecay.1 (Nat.le_trans (hall m hm) (UInt64.le_iff_toNat_le.1 hkeeps))
  · refine ⟨fun _ => ⟨elapsedNs, by simp, ?_⟩, fun _ _ habs => absurd habs hle⟩
    rw [recordRtt, if_pos (UInt64.not_le.1 hle)]
    exact UInt64.le_refl _

/-- Under the condition the estimate is at least the smallest of what was measured. -/
theorem rtt_ge_invariant :
    handleMetrics.Invariant DecaysFromAbove fun s => ∃ m ∈ s.measured, m ≤ s.rttNs := by
  refine Invariant.of_step ⟨RTT_SEED, List.mem_cons_self, UInt64.le_refl _⟩ ?_
  rintro s a s' ⟨m, hm, hle⟩ hkeeps h
  rcases rttStep_cases h with ⟨hrtt, -⟩ | ⟨c, elapsedNs, rfl, hpc, hrtt, hrec⟩
  · exact ⟨m, measured_subset h hm, hrtt ▸ hle⟩
  · obtain ⟨x, hx, hxle⟩ := (decaysFromAbove_iff hpc).1 hkeeps
    refine ⟨x, ?_, hrtt ▸ hxle⟩
    rw [RttState.measured, hrec]
    exact hx

theorem RttState.Between.counts {s : RttState} (h : s.Between) : s.Counts := by
  intro hpositive
  obtain ⟨⟨m, hm, hle⟩, -⟩ := h
  have hpos : 0 < m := by
    rcases List.mem_cons.1 hm with rfl | hm
    · decide
    · exact hpositive m hm
  have hrtt : 0 < s.rttNs := UInt64.lt_of_lt_of_le hpos hle
  exact ⟨hrtt, fun few many hless hmany => metricsCost_lt hrtt hless hmany⟩

/-- A step to a state whose estimate is at least the smallest of what was measured meets the
condition. -/
theorem decaysFromAbove_of_step {s s' : RttState} {a : RttAct} (h : rttStep s a = some s')
    (hge : ∃ m ∈ s'.measured, m ≤ s'.rttNs) : DecaysFromAbove s a := by
  cases a with
  | record c elapsedNs => trivial
  | step c spurious =>
      cases spurious with
      | true => trivial
      | false =>
          cases hpc : s.calls c with
          | idle => simp only [DecaysFromAbove, hpc]
          | load elapsedNs => simp only [DecaysFromAbove, hpc]
          | exchange elapsedNs prev =>
              by_cases hprev : s.rttNs = prev
              · subst hprev
                simp only [rttStep, hpc, and_self, if_true, Option.some.injEq] at h
                subst h
                exact (decaysFromAbove_iff hpc).2 hge
              · simp only [DecaysFromAbove, hpc]
                exact fun hsame => absurd hsame hprev

/-- Every state that the run passes through. -/
def Passes (as : List RttAct) (P : RttState → Prop) : Prop :=
  ∀ before s, before <+: as → handleMetrics.run handleMetrics.init before = some s → P s

/-- No update overflows, and the estimate stays within what was measured exactly in the runs
in which every decay starts in a higher ten than the smallest of what was measured, or that
is a multiple of ten. -/
theorem rtt_within_measured_iff (as : List RttAct) (s : RttState)
    (hrun : handleMetrics.run handleMetrics.init as = some s) :
    (∀ elapsedNs prev : UInt64, (recordRtt elapsedNs prev).toNat =
      if prev.toNat < elapsedNs.toNat then elapsedNs.toNat
      else prev.toNat / 10 * 9 + elapsedNs.toNat / 10) ∧
    (Passes as (fun t => t.Between ∧ t.Counts) ↔
      handleMetrics.Meets DecaysFromAbove handleMetrics.init as) := by
  refine ⟨recordRtt_toNat, ?_⟩
  constructor
  · intro h
    refine meets_of_prefixes fun before a t hbefore ht => ?_
    obtain ⟨after, rfl⟩ := hbefore
    rw [List.append_assoc, run_append ht] at hrun
    obtain ⟨t', hstep, -⟩ := run_cons_some hrun
    have hnext : handleMetrics.run handleMetrics.init (before ++ [a]) = some t' :=
      run_append_some ht (by rw [System.run, hstep]; rfl)
    exact decaysFromAbove_of_step hstep (h _ t' (List.prefix_append _ _) hnext).1.1
  · intro hmeets before t hbefore ht
    obtain ⟨after, rfl⟩ := hbefore
    have hfirst := (Meets.append hmeets ht).1
    have hbetween : t.Between := ⟨rtt_ge_invariant before t ht hfirst,
      rtt_le_invariant before t ht (meets_anyStep _ _)⟩
    exact ⟨hbetween, hbetween.counts⟩

/-- One call records a peak while another is between its load and its exchange, which it
has to repeat. -/
def racingActs : List RttAct :=
  [.record 0 1000000, .record 1 3000000, .step 0 false, .step 1 false, .step 1 false,
    .step 0 false, .step 0 true, .step 0 false]

theorem rtt_within_measured_racing :
    ∃ s, handleMetrics.run handleMetrics.init racingActs = some s ∧
      s.recorded = [3000000, 1000000] ∧ s.rttNs = 2800000 ∧
      Passes racingActs (fun t => t.Between ∧ t.Counts) := by
  have hlast : (handleMetrics.run handleMetrics.init racingActs).map
      (fun s => (s.recorded, s.rttNs)) = some ([3000000, 1000000], 2800000) := by
    decide +kernel
  obtain ⟨s, hrun, hobs⟩ := Option.map_eq_some_iff.1 hlast
  simp only [Prod.mk.injEq] at hobs
  refine ⟨s, hrun, hobs.1, hobs.2, ?_⟩
  exact (rtt_within_measured_iff racingActs s hrun).2.2 (meets_of_check (by decide +kernel))

/-- One call after the other records the same sample. -/
def equalActs : List RttAct :=
  [.record 0 999999, .step 0 false, .step 0 false, .record 0 999999, .step 0 false,
    .step 0 false]

/-- The estimate is below the seed and below every sample. -/
theorem equal_samples_undershot :
    ∃ s, handleMetrics.run handleMetrics.init equalActs = some s ∧
      s.measured = [1000000, 999999, 999999] ∧ s.rttNs = 999990 ∧ ¬ s.Between := by
  have hlast : (handleMetrics.run handleMetrics.init equalActs).map
      (fun s => (s.measured, s.rttNs)) = some ([1000000, 999999, 999999], 999990) := by
    decide +kernel
  obtain ⟨s, hrun, hobs⟩ := Option.map_eq_some_iff.1 hlast
  simp only [Prod.mk.injEq] at hobs
  refine ⟨s, hrun, hobs.1, hobs.2, ?_⟩
  rintro ⟨⟨m, hm, hle⟩, -⟩
  rw [hobs.1] at hm
  rw [hobs.2] at hle
  simp only [List.mem_cons, List.not_mem_nil, or_false] at hm
  rcases hm with rfl | rfl | rfl
  · exact absurd hle (by decide)
  · exact absurd hle (by decide)
  · exact absurd hle (by decide)

end KubePortForward.Mux

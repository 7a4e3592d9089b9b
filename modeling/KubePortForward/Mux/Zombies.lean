import KubePortForward.Mux.Registration

/-!
# Closed streams are forgotten

A worker drains its `Close` channel before its `Open` channel, so that a burst
of opens cannot delay a teardown.  A `Close` can thereby overtake the `Open` of
the same stream: it then finds nothing to remove, and the `Open` that is taken
afterwards registers a stream that nobody will ever close.

## Main results

* `no_zombie_registrations` — in a run in which no `Close` overtakes its
  `Open`, a worker with empty registration channels knows no closed stream.
* `zombie_registration` — a run of one pair in which a `Close` does.
-/

namespace KubePortForward.Mux

open KubePortForward.Codec
open KubePortForward.Verified.Channel
open KubePortForward.Verified.Transition

/-! ## The two conditions -/

/-- An id that a realization can allocate. -/
def IsClientId (id : StreamId) : Prop := id.toNat % 2 = 1 ∧ id ≤ MAX_STREAM_ID

instance (id : StreamId) : Decidable (IsClientId id) := by
  unfold IsClientId
  infer_instance

/-- A `Close` is enqueued after the `Open` of the same stream.  Guards and
failed realizations see to that themselves; the writer also closes whatever a
reset was sent for, and a reset may name a stream that never was. -/
def ClosesAfterOpens (s : MuxState) : Act → Prop
  | .writer _ =>
      match s.writer.pc with
      | .closes (id :: _) _ => id ∈ s.shared.history.openLog ∨ ¬ IsClientId id
      | _ => True
  | _ => True

instance (s : MuxState) (a : Act) : Decidable (ClosesAfterOpens s a) := by
  unfold ClosesAfterOpens
  induction a using Act.casesOn with
  | writer w =>
      generalize s.writer.pc = pc
      induction pc using WriterPc.casesOn with
      | closes ids after => induction ids using List.casesOn <;> infer_instance
      | _ => infer_instance
  | _ => infer_instance

/-- No worker takes a `Close` while the `Open` of the same stream still waits in
its other channel. -/
def NoOvertaking (s : MuxState) : Act → Prop
  | .worker w _ =>
      (s.workers w).pc = .drainClose ∨ (s.workers w).pc = .selectClose →
        match (s.shared.closeReg w).queue with
        | .close id :: _ => id ∉ openIds (s.shared.reg w).queue
        | _ => True
  | _ => True

instance (s : MuxState) (a : Act) : Decidable (NoOvertaking s a) := by
  unfold NoOvertaking
  induction a using Act.casesOn with
  | worker w order =>
      refine @instDecidableForall _ _ inferInstance ?_
      generalize (s.shared.closeReg w).queue = q
      induction q using List.casesOn with
      | nil => infer_instance
      | cons reg rest => induction reg using StreamRegistration.casesOn <;> infer_instance
  | _ => infer_instance

/-! ## The invariant -/

/-- The `Close` of the stream is still queued, or the stream is neither known
nor about to be. -/
def Forgotten (s : MuxState) (id : StreamId) : Prop :=
  .close id ∈ (s.shared.closeReg (shardOf id)).queue ∨
    ¬ (s.workers (shardOf id)).knows id ∧ id ∉ openIds (s.shared.reg (shardOf id)).queue

/-- Every closed stream was opened before or cannot be opened, and is forgotten. -/
def ClosedForgotten (s : MuxState) : Prop :=
  ∀ id ∈ s.shared.history.closeLog,
    (id ∈ s.shared.history.openLog ∨ ¬ IsClientId id) ∧ Forgotten s id

/-- Queues that only grow, by nothing that opens the stream. -/
theorem Forgotten.grow {s s' : MuxState} {id : StreamId} (h : Forgotten s id)
    (hclose : ∀ w, ∀ reg ∈ (s.shared.closeReg w).queue, reg ∈ (s'.shared.closeReg w).queue)
    (hopens : ∀ w, id ∈ openIds (s'.shared.reg w).queue → id ∈ openIds (s.shared.reg w).queue)
    (hworkers : s'.workers = s.workers) : Forgotten s' id := by
  rcases h with h | ⟨hun, hq⟩
  · exact .inl (hclose _ _ h)
  · exact .inr ⟨by rw [hworkers]; exact hun, fun hin => hq (hopens _ hin)⟩

/-- The step does not take the `Close` of this stream past its `Open`. -/
def InTurn (s : MuxState) (id : StreamId) : Act → Prop
  | .worker w _ =>
      (s.workers w).pc = .drainClose ∨ (s.workers w).pc = .selectClose →
        (s.shared.closeReg w).queue.head? = some (.close id) →
          id ∉ openIds (s.shared.reg w).queue
  | _ => True

instance (s : MuxState) (id : StreamId) (a : Act) : Decidable (InTurn s id a) := by
  unfold InTurn
  induction a using Act.casesOn <;> infer_instance

theorem NoOvertaking.inTurn {s : MuxState} {a : Act} (h : NoOvertaking s a)
    (id : StreamId) : InTurn s id a := by
  cases a with
  | worker w order =>
      intro hfrom hhead
      obtain ⟨rest, hqueue⟩ := List.head?_eq_some_iff.1 hhead
      simp only [NoOvertaking, hqueue] at h
      exact h hfrom
  | _ => trivial

/-- The step is one that enqueues the `Open` of the stream, or tries to. -/
def Registers (s : MuxState) (id : StreamId) : Act → Prop
  | .realizeStep =>
      ∃ z, s.realizing = some z ∧
        ((z.pc = .registerError ∧ z.errorId = id) ∨ (z.pc = .registerData ∧ z.dataId = id))
  | _ => False

/-- A worker's move forgets what it closes and learns no stream but an opened one. -/
theorem WorkerRegs.forgotten {s : MuxState} {w : Shard} {k' : Worker} {sh' : Shared}
    {order : List StreamId} {id : StreamId}
    (h : WorkerRegs w (s.workers w) s.shared k' sh') (hR : Registrations s)
    (hturn : InTurn s id (.worker w order))
    (hf : Forgotten s id) :
    Forgotten { s with shared := sh', workers := Function.update s.workers w k' } id := by
  by_cases hw : shardOf id = w
  · simp only [Forgotten, hw, Function.update_self] at hf ⊢
    cases h with
    | takeClose reg rest hfrom hqueue hclose hreg hknows hpc =>
        have hkind : reg.isOpening = false := hR.closeKinds w reg (by simp [hqueue])
        have hnoOpen : ¬ ∃ r, reg = .openStream id r := by
          rintro ⟨r, rfl⟩
          simp [StreamRegistration.isOpening] at hkind
        simp only [hclose, hreg, if_true]
        by_cases hhead : reg = .close id
        · -- This very `Close`: its `Open` is not waiting behind it.
          subst hhead
          exact .inr ⟨fun hk => (hknows id hk).1 rfl, hturn hfrom (by simp [hqueue])⟩
        · rcases hf with hf | ⟨hun, hq⟩
          · rw [hqueue] at hf
            rcases List.mem_cons.1 hf with hf | hf
            · exact absurd hf.symm hhead
            · exact .inl hf
          · exact .inr ⟨fun hk => (hknows id hk).2.elim hun hnoOpen, hq⟩
    | takeReg reg rest hqueue hreg hclose hknows hpc =>
        simp only [hclose, hreg, if_true]
        rcases hf with hf | ⟨hun, hq⟩
        · exact .inl hf
        refine .inr ⟨fun hk => ?_, fun hin => hq ?_⟩
        · rcases (hknows id hk).2 with hk | ⟨r, rfl⟩
          · exact hun hk
          · exact hq (by rw [hqueue]; exact List.mem_cons_self ..)
        · rw [hqueue, show reg :: rest = [reg] ++ rest from rfl, openIds_append]
          exact List.mem_append_right _ hin
    | keep hreg hclose hknows hpc =>
        simp only [hclose, hreg]
        rcases hf with hf | ⟨hun, hq⟩
        · exact .inl hf
        · exact .inr ⟨fun hk => hun (hknows id hk), hq⟩
    | exit hpc hk hreg hclose =>
        refine .inr ⟨?_, by simp [hreg, openIds]⟩
        rw [hk]
        exact hR.gone w (by rw [hpc]; rfl) id
  · simp only [Forgotten, Function.update_of_ne hw] at hf ⊢
    cases h with
    | takeClose reg rest hfrom hqueue hclose hreg hknows hpc =>
        simpa only [hclose, hreg, if_neg hw] using hf
    | takeReg reg rest hqueue hreg hclose hknows hpc =>
        simpa only [hclose, hreg, if_neg hw] using hf
    | keep hreg hclose hknows hpc => simpa only [hclose, hreg] using hf
    | exit hpc hk hreg hclose => simpa only [hclose, hreg, if_neg hw] using hf

/-- A stream stays forgotten as long as it is not registered again and no `Close`
of it overtakes. -/
theorem Forgotten.step {cfg : MuxConfig} {s s' : MuxState} {a : Act} {id : StreamId}
    (hR : Registrations s) (hf : Forgotten s id) (hturn : InTurn s id a)
    (hnew : ¬ Registers s id a) (h : step cfg s a = some s') : Forgotten s' id := by
  obtain ⟨p, c, sh, pr, rfl, hc, rfl⟩ | ⟨p, sh, pr, z, rfl, -, -, hb, rfl⟩ |
    ⟨z, sh, pr, z', rfl, hz, hr, rfl⟩ | ⟨c, sh, r, rfl, hr, rfl⟩ |
    ⟨w, order, k, sh, rfl, hw, rfl⟩ | ⟨c, sh, wr, rfl, hw, rfl⟩ | ⟨rfl, rfl⟩ := step_cases h
  · have hfoot := client_footprint hc
    refine hf.grow (fun w => ?_) (fun w hin => by rw [← hfoot.reg]; exact hin) rfl
    rcases client_closes hc with hk | ⟨-, kind, hk⟩
    · exact hk.mem w
    · exact hk.mem w
  · obtain ⟨hreg, hclose⟩ := realizeBegin_regs hb
    exact hf.grow (fun w reg hmem => by rw [hclose]; exact hmem)
      (fun w hin => by rw [← hreg]; exact hin) rfl
  · refine hf.grow (fun w => ?_) (fun w hin => ?_) rfl
    · rcases realizeStep_closes hr with hk | ⟨-, hk⟩ | ⟨-, hk⟩
      · exact hk.mem w
      · exact hk.mem w
      · exact hk.mem w
    · -- A newly queued `Open` is of one of the two streams being realized.
      have henqueued : ∀ {id' : StreamId} {r : ChanRef}, EnqueuesOpen s.shared sh id' r →
          id' ≠ id → id ∈ openIds (s.shared.reg w).queue := by
        intro id' r hopen hne
        rw [hopen.queue, openIds_append, List.mem_append] at hin
        rcases hin with hin | hin
        · exact hin
        · split at hin
          · exact absurd (by simpa [openIds] using hin) hne.symm
          · simp [openIds] at hin
      rcases realizeStep_reg hr with ⟨hreg, -⟩ | ⟨hpc, -, -, hopen, -⟩ | ⟨hpc, -, -, hopen, -⟩
      · rw [← hreg]
        exact hin
      · exact henqueued hopen fun heq => hnew ⟨z, hz, .inl ⟨hpc, heq⟩⟩
      · exact henqueued hopen fun heq => hnew ⟨z, hz, .inr ⟨hpc, heq⟩⟩
  · refine hf.grow (fun w reg hreg => ?_) (fun w hin => by rw [← reader_openIds hr]; exact hin)
      rfl
    rcases reader_closes hr with hc | ⟨v, last, status, -, hc⟩
    · rw [hc]
      exact hreg
    · rw [hc]
      by_cases hv : w = v
      · subst hv
        rw [Function.update_self]
        rcases Chan.sendOrDrop_queue (s.shared.closeReg w) (.goAway last status) with
          hq | hq <;> simp [hq, hreg]
      · rwa [Function.update_of_ne hv]
  · exact (workerMove_of_step hw).regs.forgotten hR hturn hf
  · have hfoot := writer_footprint hw
    refine hf.grow (fun w => ?_) (fun w hin => by rw [← hfoot.reg]; exact hin) rfl
    rcases (writerMove_of_step hw).closes with hk | ⟨id, rest, requeued, -, hk⟩
    · exact hk.mem w
    · exact hk.mem w
  · exact hf.grow (fun _ _ hmem => hmem) (fun _ hin => hin) rfl

/-- The ids a realization registers are client ids. -/
theorem realizing_isClientId {s : MuxState} {z : Realize} (hO : SynOrder s)
    (hz : s.realizing = some z) : IsClientId z.errorId ∧ IsClientId z.dataId := by
  obtain ⟨hmod, hsum, hnext⟩ := hO.opening z hz
  have hle := hO.next_le
  refine ⟨⟨by omega, ?_⟩, ⟨by omega, ?_⟩⟩ <;> rw [UInt32.le_iff_toNat_le] <;>
    simp only [MAX_STREAM_ID, UInt32.reduceToNat] <;> omega

/-- What a step adds to the log of closes, and why the stream was opened before. -/
theorem step_closeLog {cfg : MuxConfig} {s s' : MuxState} {a : Act} (hW : Ownership s)
    (hafter : ClosesAfterOpens s a) (h : step cfg s a = some s') :
    s'.shared.history.closeLog = s.shared.history.closeLog ∨
      ∃ id, EnqueuesClose s.shared s'.shared id ∧
        (id ∈ s.shared.history.openLog ∨ ¬ IsClientId id) := by
  obtain ⟨p, c, sh, pr, rfl, hc, rfl⟩ | ⟨p, sh, pr, z, rfl, -, -, hb, rfl⟩ |
    ⟨z, sh, pr, z', rfl, hz, hr, rfl⟩ | ⟨c, sh, r, rfl, hr, rfl⟩ |
    ⟨w, order, k, sh, rfl, hw, rfl⟩ | ⟨c, sh, wr, rfl, hw, rfl⟩ | ⟨rfl, rfl⟩ := step_cases h
  · rcases client_closes hc with hk | ⟨hguard, kind, hk⟩
    · exact .inl hk.log
    · obtain ⟨-, herr, hdata⟩ := hW.guarded p hguard
      refine .inr ⟨_, hk, .inl ?_⟩
      cases kind
      · exact hdata
      · exact herr
  · exact .inl (by rw [(realizeBegin_pair hb).1])
  · have hprog := hW.progress z hz
    rcases realizeStep_closes hr with hk | ⟨hpc, hk⟩ | ⟨hpc, hk⟩
    · exact .inl hk.log
    · exact .inr ⟨_, hk, .inl (hprog.1.2 hpc)⟩
    · exact .inr ⟨_, hk, .inl (hprog.2.2 hpc)⟩
  · exact .inl (reader_footprint hr).closeLog
  · exact .inl (workerMove_of_step hw).footprint.closeLog
  · rcases (writerMove_of_step hw).closes with hk | ⟨id, rest, requeued, hpc, hk⟩
    · exact .inl hk.log
    · exact .inr ⟨id, hk, by simpa only [ClosesAfterOpens, hpc] using hafter⟩
  · exact .inl rfl

/-- A stream that was opened before, or cannot be opened, is not registered now. -/
theorem not_registers {s : MuxState} {a : Act} {id : StreamId} (hO : SynOrder s)
    (hW : Ownership s) (hbefore : id ∈ s.shared.history.openLog ∨ ¬ IsClientId id) :
    ¬ Registers s id a := by
  intro hreg
  cases a with
  | realizeStep =>
      obtain ⟨z, hz, hcase⟩ := hreg
      obtain ⟨hce, hcd⟩ := realizing_isClientId hO hz
      have hprog := hW.progress z hz
      rcases hcase with ⟨hpc, rfl⟩ | ⟨hpc, rfl⟩
      · rcases hbefore with hin | hnot
        · rw [hprog.1, hpc] at hin
          contradiction
        · exact hnot hce
      · rcases hbefore with hin | hnot
        · rw [hprog.2, hpc] at hin
          contradiction
        · exact hnot hcd
  | _ => exact hreg

theorem step_closedForgotten {cfg : MuxConfig} {s s' : MuxState} {a : Act}
    (hO : SynOrder s) (hW : Ownership s) (hR : Registrations s) (hI : ClosedForgotten s)
    (hafter : ClosesAfterOpens s a) (hover : NoOvertaking s a)
    (h : step cfg s a = some s') : ClosedForgotten s' := by
  have hold : ∀ id ∈ s.shared.history.closeLog,
      (id ∈ s'.shared.history.openLog ∨ ¬ IsClientId id) ∧ Forgotten s' id := by
    intro id hid
    obtain ⟨hbefore, hf⟩ := hI id hid
    exact ⟨hbefore.imp_left (step_openLog h),
      hf.step hR (hover.inTurn id) (not_registers hO hW hbefore) h⟩
  intro id hid
  rcases step_closeLog hW hafter h with hlog | ⟨id', hclose, hbefore⟩
  · rw [hlog] at hid
    exact hold id hid
  · rw [hclose.log, List.mem_append, List.mem_singleton] at hid
    rcases hid with hid | rfl
    · exact hold id hid
    · refine ⟨hbefore.imp_left (step_openLog h), .inl ?_⟩
      rw [hclose.queue]
      simp

theorem closedForgotten_invariant (cfg : MuxConfig) :
    (mux cfg).Invariant (fun s a => ClosesAfterOpens s a ∧ NoOvertaking s a)
      ClosedForgotten := by
  have hbase := Invariant.and (synOrder_invariant cfg)
    (Invariant.and (ownership_invariant cfg) (registrations_invariant cfg))
  refine Invariant.of_step_using (Invariant.restrict hbase fun _ _ _ => trivial) ?_ ?_
  · intro id hid
    simp [mux, MuxState.init, Shared.init] at hid
  · intro s a s' hJ hI hok h
    exact step_closedForgotten hJ.1 hJ.2.1 hJ.2.2 hI hok.1 hok.2 h

/-! ## Zombies -/

/-- A worker whose registration channels are empty has no entry for a stream
whose `Close` was enqueued. -/
def NoZombies (s : MuxState) : Prop :=
  ∀ w, (s.shared.reg w).queue = [] → (s.shared.closeReg w).queue = [] →
    ∀ id ∈ s.shared.history.closeLog,
      id ∉ (s.workers w).streams ∧ id ∉ (s.workers w).pendingReplies

/-- Opens and closes of any number of pairs, in any interleaving with the
workers: as long as every `Close` is enqueued after its `Open` and none overtakes
it, closed streams are forgotten. -/
theorem no_zombie_registrations (cfg : MuxConfig) (acts : List Act) (s : MuxState)
    (hrun : (mux cfg).run (mux cfg).init acts = some s)
    (hmeets : (mux cfg).Meets (fun s a => ClosesAfterOpens s a ∧ NoOvertaking s a)
      (mux cfg).init acts) : NoZombies s := by
  have hI := closedForgotten_invariant cfg acts s hrun hmeets
  have hR := registrations_invariant cfg acts s hrun (meets_anyStep _ _)
  intro w _ hclose id hid
  suffices hun : ¬ (s.workers w).knows id from
    ⟨fun hin => hun (.inl hin), fun hin => hun (.inr hin)⟩
  intro hk
  obtain ⟨rfl, -⟩ := hR.known w id hk
  rcases (hI id hid).2 with hq | ⟨hun, -⟩
  · rw [hclose] at hq
    simp at hq
  · exact hun hk

/-- The owner drops pair `p` and its guard runs to the end. -/
def dropActs (p : Nat) : List Act :=
  [Act.client p (.dropReceiver .data), .client p (.dropReceiver .error), .client p .dropRest] ++
    List.replicate 6 (Act.client p .dropStep)

/-- Opened, taken by the worker of stream 3, dropped, taken by it again. -/
def openThenCloseActs : List Act :=
  openActs 0 ++ realizeActs 0 ++ List.replicate 6 (Act.worker (shardOf 3) []) ++ dropActs 0 ++
    List.replicate 6 (Act.worker (shardOf 3) [])

theorem no_zombie_registrations_dropped :
    ∃ s, (mux MuxConfig.default).run (mux MuxConfig.default).init openThenCloseActs =
        some s ∧ s.shared.history.closeLog = [1, 3] ∧ NoZombies s := by
  have hlog : ((mux MuxConfig.default).run (mux MuxConfig.default).init
      openThenCloseActs).map (fun s => s.shared.history.closeLog) = some [1, 3] := by
    decide +kernel
  have hmeets : (mux MuxConfig.default).Meets
      (fun s a => ClosesAfterOpens s a ∧ NoOvertaking s a)
      (mux MuxConfig.default).init openThenCloseActs :=
    meets_of_check (by decide +kernel)
  obtain ⟨s, hrun, hs⟩ := Option.map_eq_some_iff.1 hlog
  exact ⟨s, hrun, hs, no_zombie_registrations _ _ s hrun hmeets⟩

/-- Opened and dropped before the worker of stream 3 looks at its channels. -/
def overtakenActs : List Act :=
  openActs 0 ++ realizeActs 0 ++ dropActs 0 ++ List.replicate 4 (.worker (shardOf 3) [])

/-- The data stream of a pair that was dropped at once stays registered for
good: its worker takes the `Close` of stream 3 and then its `Open`. -/
theorem zombie_registration :
    ¬ ∀ (cfg : MuxConfig) (acts : List Act) (s : MuxState),
      (mux cfg).run (mux cfg).init acts = some s →
      (mux cfg).Meets ClosesAfterOpens (mux cfg).init acts → NoZombies s := by
  intro hall
  have hobs : ((mux MuxConfig.default).run (mux MuxConfig.default).init overtakenActs).map
      (fun s => ((s.shared.reg (shardOf 3)).queue, (s.shared.closeReg (shardOf 3)).queue,
        s.shared.history.closeLog, decide (3 ∈ (s.workers (shardOf 3)).streams))) =
      some ([], [], [1, 3], true) := by decide +kernel
  have hmeets : (mux MuxConfig.default).Meets ClosesAfterOpens (mux MuxConfig.default).init
      overtakenActs := meets_of_check (by decide +kernel)
  obtain ⟨s, hrun, hs⟩ := Option.map_eq_some_iff.1 hobs
  simp only [Prod.mk.injEq, decide_eq_true_eq] at hs
  obtain ⟨hreg, hclose, hlog, hin⟩ := hs
  exact (hall _ _ s hrun hmeets (shardOf 3) hreg hclose 3 (by rw [hlog]; decide)).1 hin

end KubePortForward.Mux

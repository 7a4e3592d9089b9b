import KubePortForward.Mux.Zombies

/-!
# A failed realization leaves nothing behind

`realize_stream_pair` enqueues two registrations and the open command and then
reserves four slots, and undoes what it can when one of these fails.  It does
not take the open command back, so a reservation that fails after the command
was accepted lets both SYN_STREAMs go out with no RST_STREAM to follow; and a
`Close` that undoes a registration can be dropped on a full channel or
overtake the `Open` it undoes.

## Main results

* `failed_realization_leaves_nothing` — in a run in which none of that happens
  to a pair, a realization of it that fails leaves neither an unanswered
  SYN_STREAM nor a registration.
* `syn_without_reset` — a run in which a reservation fails too late.
-/

namespace KubePortForward.Mux

open KubePortForward.Codec
open KubePortForward.Verified.Channel
open KubePortForward.Verified.Transition

/-! ## Streams that are done with -/

/-- An allocated stream that nobody is realizing, whose SYN_STREAM is neither
written nor on its way, and which no worker knows or will get to know. -/
structure Retired (s : MuxState) (id : StreamId) : Prop where
  allocated : id.toNat < s.shared.nextStreamId.toNat
  idle : ∀ z, s.realizing = some z → z.errorId ≠ id ∧ z.dataId ≠ id
  unsent : id ∉ synIds (pipeline s.shared s.writer)
  forgotten : Forgotten s id

/-- The counter only grows. -/
theorem step_nextStreamId {cfg : MuxConfig} {s s' : MuxState} {a : Act} (hO : SynOrder s)
    (h : step cfg s a = some s') :
    s.shared.nextStreamId.toNat ≤ s'.shared.nextStreamId.toNat := by
  obtain ⟨p, c, sh, pr, rfl, hc, rfl⟩ | ⟨p, sh, pr, z, rfl, hnone, -, hb, rfl⟩ |
    ⟨z, sh, pr, z', rfl, hz, hr, rfl⟩ | ⟨c, sh, r, rfl, hr, rfl⟩ |
    ⟨w, order, k, sh, rfl, hw, rfl⟩ | ⟨c, sh, wr, rfl, hw, rfl⟩ | ⟨rfl, rfl⟩ := step_cases h
  · rw [(client_footprint hc).nextStreamId]
  · cases z with
    | none => rw [realizeBegin_refused hb]
    | some z =>
        have hO' := hO.allocate hnone hb
        have hsum := (hO'.opening z rfl).2.2
        rw [(realizeBegin_opening hb).1] at hsum
        omega
  · rw [realizeStep_nextStreamId hr]
  · rw [(reader_footprint hr).nextStreamId]
  · rw [(workerMove_of_step hw).footprint.nextStreamId]
  · rw [(writer_footprint hw).nextStreamId]
  · exact Nat.le_refl _

/-- The realization in progress after a step is the one from before or has just
allocated its two ids. -/
theorem step_realizing {cfg : MuxConfig} {s s' : MuxState} {a : Act} {y : Realize}
    (h : step cfg s a = some s') (hy : s'.realizing = some y) :
    (∃ z, s.realizing = some z ∧ y.pair = z.pair ∧ y.errorId = z.errorId ∧
      y.dataId = z.dataId) ∨
    (y.errorId = s.shared.nextStreamId ∧ y.dataId = s.shared.nextStreamId + 2 ∧
      y.pc = .loadErrorWindow) := by
  obtain ⟨p, c, sh, pr, rfl, hc, rfl⟩ | ⟨p, sh, pr, z, rfl, hnone, -, hb, rfl⟩ |
    ⟨z, sh, pr, z', rfl, hz, hr, rfl⟩ | ⟨c, sh, r, rfl, hr, rfl⟩ |
    ⟨w, order, k, sh, rfl, hw, rfl⟩ | ⟨c, sh, wr, rfl, hw, rfl⟩ | ⟨rfl, rfl⟩ := step_cases h
  · exact .inl ⟨y, hy, rfl, rfl, rfl⟩
  · simp only at hy
    subst hy
    obtain ⟨herr, hdata, -, -, -, hpc, -⟩ := realizeBegin_opening hb
    exact .inr ⟨herr, hdata, hpc⟩
  · simp only at hy
    subst hy
    exact .inl ⟨z, hz, realizeStep_same hr⟩
  · exact .inl ⟨y, hy, rfl, rfl, rfl⟩
  · exact .inl ⟨y, hy, rfl, rfl, rfl⟩
  · exact .inl ⟨y, hy, rfl, rfl, rfl⟩
  · exact .inl ⟨y, hy, rfl, rfl, rfl⟩

/-- Only the open command of the realization in progress adds ids to the
pipeline. -/
theorem step_synIds {cfg : MuxConfig} {s s' : MuxState} {a : Act} {id : StreamId}
    (hF : Feeds s) (h : step cfg s a = some s')
    (hid : id ∈ synIds (pipeline s'.shared s'.writer)) :
    id ∈ synIds (pipeline s.shared s.writer) ∨
      ∃ z, s.realizing = some z ∧ a = .realizeStep ∧ z.pc = .enqueueOpen ∧
        (z.errorId = id ∨ z.dataId = id) := by
  obtain ⟨p, c, sh, pr, rfl, hc, rfl⟩ | ⟨p, sh, pr, z, rfl, hnone, -, hb, rfl⟩ |
    ⟨z, sh, pr, z', rfl, hz, hr, rfl⟩ | ⟨c, sh, r, rfl, hr, rfl⟩ |
    ⟨w, order, k, sh, rfl, hw, rfl⟩ | ⟨c, sh, wr, rfl, hw, rfl⟩ | ⟨rfl, rfl⟩ := step_cases h
  · refine .inl ?_
    rcases client_cmd_block hc with hq | ⟨y, hq, hy⟩
    · rwa [← pipeline_congr s.writer hq]
    · rcases pipeline_push s.writer hq with hp | hp
      · rwa [← hp]
      · simpa [hp, hy.synIds] using hid
  · rw [← pipeline_congr s.writer (by rw [(realizeBegin_writer hb).1])]
    exact .inl hid
  · obtain ⟨-, hcmd | ⟨hpc, rfl, -, hcmd⟩⟩ := realizeStep_writer hr
    · rw [← pipeline_congr s.writer (by rw [hcmd])]
      exact .inl hid
    · rcases pipeline_push s.writer hcmd with hp | hp
      · rw [← hp]
        exact .inl hid
      · have hsyn : synIds (pipeline sh s.writer) =
            synIds (pipeline s.shared s.writer) ++ [z.errorId, z.dataId] := by
          rw [hp, synIds_append]
          rfl
        simp only [hsyn, List.mem_append, List.mem_cons, List.not_mem_nil, or_false] at hid
        rcases hid with hid | rfl | rfl
        · exact .inl hid
        · exact .inr ⟨z, hz, rfl, hpc, .inl rfl⟩
        · exact .inr ⟨z, hz, rfl, hpc, .inr rfl⟩
  · rw [← pipeline_congr s.writer (by rw [(reader_footprint hr).cmd])]
    exact .inl hid
  · rw [← pipeline_congr s.writer (by rw [(workerMove_of_step hw).footprint.cmd])]
    exact .inl hid
  · exact .inl (((writerMove_of_step hw).synIds_sublist hF).subset hid)
  · exact .inl hid

/-- What every reachable state satisfies and the proofs below use. -/
structure Wellformed (s : MuxState) : Prop where
  feeds : Feeds s
  synOrder : SynOrder s
  ownership : Ownership s
  registrations : Registrations s

theorem wellformed_invariant (cfg : MuxConfig) : (mux cfg).Invariant anyStep Wellformed :=
  fun as s hrun hm => ⟨feeds_invariant cfg as s hrun hm, synOrder_invariant cfg as s hrun hm,
    ownership_invariant cfg as s hrun hm, registrations_invariant cfg as s hrun hm⟩

/-- A retired stream stays retired. -/
theorem Retired.step {cfg : MuxConfig} {s s' : MuxState} {a : Act} {id : StreamId}
    (hI : Retired s id) (hW : Wellformed s) (hturn : InTurn s id a)
    (h : step cfg s a = some s') : Retired s' id := by
  have hnext := step_nextStreamId hW.synOrder h
  refine ⟨lt_of_lt_of_le hI.allocated hnext, fun y hy => ?_, fun hid => ?_, ?_⟩
  · rcases step_realizing h hy with ⟨z, hz, -, herr, hdata⟩ | ⟨herr, hdata, hpc⟩
    · rw [herr, hdata]
      exact hI.idle z hz
    · -- Fresh ids lie above every allocated one.
      have hsum := ((step_synOrder hW.feeds hW.synOrder h).opening y hy).2.1
      have hlt := hI.allocated
      rw [herr] at hsum
      refine ⟨fun heq => ?_, fun heq => ?_⟩
      · rw [← heq, herr] at hlt
        omega
      · rw [← heq] at hlt
        omega
  · rcases step_synIds hW.feeds h hid with hid | ⟨z, hz, -, -, heq⟩
    · exact hI.unsent hid
    · obtain ⟨herr, hdata⟩ := hI.idle z hz
      exact heq.elim herr hdata
  · refine hI.forgotten.step hW.registrations hturn ?_ h
    intro hreg
    cases a with
    | realizeStep =>
        obtain ⟨z, hz, hcase⟩ := hreg
        obtain ⟨herr, hdata⟩ := hI.idle z hz
        exact hcase.elim (fun hx => herr hx.2) fun hx => hdata hx.2
    | _ => exact hreg

/-! ## The condition -/

/-- The stream is neither known to its worker nor waiting to be registered. -/
def Unregistered (s : MuxState) (id : StreamId) : Prop :=
  ¬ (s.workers (shardOf id)).knows id ∧ id ∉ openIds (s.shared.reg (shardOf id)).queue

instance (s : MuxState) (id : StreamId) : Decidable (Unregistered s id) := by
  unfold Unregistered Worker.knows
  infer_instance

/-- The `Close` that undoes a registration is accepted, or there is nothing to
undo. -/
def Undoes (s : MuxState) (id : StreamId) : Prop :=
  (s.shared.closeReg (shardOf id)).Accepts ∨ Unregistered s id

instance (s : MuxState) (id : StreamId) : Decidable (Undoes s id) := by
  unfold Undoes
  infer_instance

/-- The next access of a realization does not fail after the open command was
accepted, and undoes a registration for good. -/
def CleanAccess (s : MuxState) (z : Realize) : Prop :=
  match z.pc with
  | .reserveCtrlError => s.shared.control.Accepts
  | .reserveCtrlData => s.shared.control.Accepts
  | .reserveCloseError => (s.shared.closeReg (shardOf z.errorId)).Accepts
  | .reserveCloseData => (s.shared.closeReg (shardOf z.dataId)).Accepts
  | .cleanupErrorOnly => Undoes s z.errorId
  | .cleanupError _ => Undoes s z.errorId
  | .cleanupData _ => Undoes s z.dataId
  | _ => True

instance (s : MuxState) (z : Realize) : Decidable (CleanAccess s z) := by
  unfold CleanAccess
  split <;> infer_instance

/-- What a step must meet so that a failure of pair `p` leaves nothing behind:
its realization fails cleanly, and no worker takes the `Close` of one of its
streams past the `Open`. -/
def FailsCleanly (p : Nat) (s : MuxState) : Act → Prop
  | .realizeStep =>
      match s.realizing with
      | some z => z.pair = p → CleanAccess s z
      | none => True
  | a => InTurn s (s.pairs p).errorId a ∧ InTurn s (s.pairs p).dataId a

instance (p : Nat) (s : MuxState) (a : Act) : Decidable (FailsCleanly p s a) := by
  unfold FailsCleanly
  induction a using Act.casesOn with
  | realizeStep =>
      generalize s.realizing = z
      induction z using Option.casesOn <;> infer_instance
  | _ => infer_instance

theorem FailsCleanly.inTurn {p : Nat} {s : MuxState} {a : Act} (h : FailsCleanly p s a)
    (kind : HalfKind) : InTurn s ((s.pairs p).idOf kind) a := by
  cases a with
  | realizeStep => trivial
  | _ =>
      cases kind
      · exact h.2
      · exact h.1

/-! ## How a realization fails -/

/-- The realization is undoing its registrations. -/
def RealizePc.cleaning : RealizePc → Bool
  | .cleanupErrorOnly => true
  | .cleanupError _ => true
  | .cleanupData _ => true
  | _ => false

/-- A clean realization starts undoing only before the open command was
accepted, and moves from the error stream to the data stream. -/
theorem realizeStep_cleaning {s : MuxState} {z y : Realize} {sh : Shared} {pr : Pair}
    (h : z.step s.shared (s.pairs z.pair) = (sh, pr, some y)) (hclean : CleanAccess s z)
    (hy : y.pc.cleaning = true) :
    (z.pc.beforeOpen = true ∧ ∀ held, y.pc ≠ .cleanupData held) ∨
      ∃ held, z.pc = .cleanupError held ∧ sh = s.shared.sendCloseOrDrop z.errorId := by
  unfold Realize.step at h
  cases hz : z.pc with
  | reserveCtrlError =>
      simp only [CleanAccess, hz] at hclean
      obtain ⟨c, hc⟩ := Chan.tryReserve_of_accepts hclean
      simp only [hz, hc] at h
      cases h
      contradiction
  | reserveCtrlData =>
      simp only [CleanAccess, hz] at hclean
      obtain ⟨c, hc⟩ := Chan.tryReserve_of_accepts hclean
      simp only [hz, hc] at h
      cases h
      contradiction
  | reserveCloseError =>
      simp only [CleanAccess, hz] at hclean
      obtain ⟨c, hc⟩ := Chan.tryReserve_of_accepts hclean
      simp only [hz, hc] at h
      cases h
      contradiction
  | reserveCloseData =>
      simp only [CleanAccess, hz] at hclean
      obtain ⟨c, hc⟩ := Chan.tryReserve_of_accepts hclean
      simp only [hz, hc] at h
      cases h
  | cleanupError held =>
      simp only [hz] at h
      cases h
      exact .inr ⟨held, rfl, rfl⟩
  | _ =>
      refine .inl ?_
      simp only [hz] at h
      (repeat' split at h) <;> cases h <;> simp_all [RealizePc.beforeOpen, RealizePc.cleaning]

/-- A realization returns an error from its first registration or after it has
undone what it registered. -/
theorem realizeStep_broken {z : Realize} {sh sh' : Shared} {pr pr' : Pair}
    {z' : Option Realize} (h : z.step sh pr = (sh', pr', z')) (hpr : pr.phase ≠ .broken)
    (hbroken : pr'.phase = .broken) :
    z' = none ∧ (z.pc = .registerError ∨
      (z.pc = .cleanupErrorOnly ∧ sh' = sh.sendCloseOrDrop z.errorId) ∨
      ∃ held, z.pc = .cleanupData held ∧
        sh' = (sh.sendCloseOrDrop z.dataId).releaseHeld z.errorId held) := by
  unfold Realize.step at h
  cases hz : z.pc <;> simp only [hz] at h <;> (repeat' split at h) <;> cases h <;>
    simp_all

/-- An owner does not break its pair. -/
theorem client_broken {cfg : MuxConfig} {p : Nat} {a : ClientAct} {sh sh' : Shared}
    {pr pr' : Pair} (h : clientStep cfg p a sh pr = some (sh', pr'))
    (hbroken : pr'.phase = .broken) : pr.phase = .broken := by
  cases a <;>
    simp only [clientStep, Pair.openBegin, Pair.openStep, Pair.read, Pair.fillBuf,
      Pair.consume, Pair.writeBegin, Pair.writeReserve, Pair.writePick,
      Pair.writeRecheck, Pair.writeDebit, Pair.writeSend, Pair.shutdown,
      Pair.dropReceiver, Pair.dropRest, Pair.dropStep, Shared.sendReservedClose] at h <;>
    (repeat' split at h) <;>
    first
    | contradiction
    | simp only [Option.map_eq_some_iff, Option.some.injEq, Prod.mk.injEq] at h
      grind

/-- A `Close` that the channel accepts is queued. -/
theorem sendCloseOrDrop_mem {sh : Shared} {id : StreamId}
    (h : (sh.closeReg (shardOf id)).Accepts) :
    .close id ∈ ((sh.sendCloseOrDrop id).closeReg (shardOf id)).queue := by
  obtain ⟨c, hc⟩ := Chan.trySend_of_accepts (.close id) h
  have hsend : sh.sendClose id = .ok { sh.setCloseReg (shardOf id) c with
      history := { sh.history with closeLog := sh.history.closeLog ++ [id] } } := by
    rw [Shared.sendClose, hc]
  rw [Shared.sendCloseOrDrop, hsend]
  simp [Shared.setCloseReg, Chan.trySend_queue hc]

theorem sendCloseOrDrop_reg (sh : Shared) (id : StreamId) :
    (sh.sendCloseOrDrop id).reg = sh.reg := by
  unfold Shared.sendCloseOrDrop Shared.sendClose
  (repeat' split) <;> grind [Shared.setCloseReg]

theorem releaseHeld_reg (sh : Shared) (id : StreamId) (held : Nat) :
    (sh.releaseHeld id held).reg = sh.reg := by
  unfold Shared.releaseHeld
  simp only
  split <;> rfl

/-- A registration that is undone is forgotten. -/
theorem Undoes.forgotten {s s' : MuxState} {id : StreamId} (h : Undoes s id)
    (hclose : ∀ w, ((s.shared.sendCloseOrDrop id).closeReg w).queue =
      (s'.shared.closeReg w).queue)
    (hreg : s'.shared.reg = s.shared.reg) (hworkers : s'.workers = s.workers) :
    Forgotten s' id := by
  rcases h with h | ⟨hun, hq⟩
  · refine .inl ?_
    rw [← hclose]
    exact sendCloseOrDrop_mem h
  · exact .inr ⟨by rw [hworkers]; exact hun, by rw [hreg]; exact hq⟩

/-- A stream whose `Open` was never enqueued is not registered anywhere. -/
theorem Registrations.unregistered {s : MuxState} {id : StreamId} (hR : Registrations s)
    (h : id ∉ s.shared.history.openLog) : Unregistered s id :=
  ⟨fun hk => h (hR.known _ id hk).2, fun hq => h (hR.queued _ id hq).2.1⟩

/-- Before the open command is enqueued neither SYN_STREAM is on its way. -/
theorem SynOrder.unsent {s : MuxState} {z : Realize} (hO : SynOrder s)
    (hz : s.realizing = some z) (hpc : z.pc.beforeOpen = true) :
    z.errorId ∉ synIds (pipeline s.shared s.writer) ∧
      z.dataId ∉ synIds (pipeline s.shared s.writer) := by
  obtain ⟨-, hsum, -⟩ := hO.opening z hz
  have hbound : synBound s = z.errorId.toNat := by simp [synBound, hz, hpc]
  refine ⟨fun hid => ?_, fun hid => ?_⟩
  · have := (hO.bounded _ hid).2.2
    omega
  · have := (hO.bounded _ hid).2.2
    omega

/-! ## The invariant -/

/-- A realization of pair `p` that is undoing its registrations has sent
nothing, and once it has failed both streams are retired. -/
structure Failing (p : Nat) (s : MuxState) : Prop where
  unsent : ∀ z, s.realizing = some z → z.pair = p → z.pc.cleaning = true →
    z.errorId ∉ synIds (pipeline s.shared s.writer) ∧
      z.dataId ∉ synIds (pipeline s.shared s.writer)
  closing : ∀ z held, s.realizing = some z → z.pair = p → z.pc = .cleanupData held →
    Forgotten s z.errorId
  broken : (s.pairs p).phase = .broken → (s.pairs p).errorId ≠ 0 →
    ∀ kind, Retired s ((s.pairs p).idOf kind)

/-- A pair is found broken where it was before, or its realization has just
failed. -/
theorem step_broken {cfg : MuxConfig} {s s' : MuxState} {a : Act} {p : Nat}
    (hO : Ownership s) (h : step cfg s a = some s')
    (hbroken : (s'.pairs p).phase = .broken) (hne : (s'.pairs p).errorId ≠ 0) :
    ((s.pairs p).phase = .broken ∧ ∀ kind, (s'.pairs p).idOf kind = (s.pairs p).idOf kind) ∨
      (a = .realizeStep ∧ ∃ z, s.realizing = some z ∧ z.pair = p) := by
  obtain ⟨q, c, sh, pr, rfl, hc, rfl⟩ | ⟨q, sh, pr, z, rfl, -, hun, hb, rfl⟩ |
    ⟨z, sh, pr, z', rfl, hz, hr, rfl⟩ | ⟨c, sh, r, rfl, hr, rfl⟩ |
    ⟨w, order, k, sh, rfl, hw, rfl⟩ | ⟨c, sh, wr, rfl, hw, rfl⟩ | ⟨rfl, rfl⟩ := step_cases h
  · by_cases hq : p = q
    · subst hq
      simp only [Function.update_self] at hbroken ⊢
      obtain ⟨herr, hdata, -⟩ := client_pair hc
      refine .inl ⟨client_broken hc hbroken, fun kind => ?_⟩
      cases kind
      · exact hdata
      · exact herr
    · simp only [Function.update_of_ne hq] at hbroken ⊢
      exact .inl ⟨hbroken, fun _ => trivial⟩
  · by_cases hq : p = q
    · subst hq
      simp only [Function.update_self] at hbroken hne
      obtain ⟨-, ⟨rfl, -⟩ | ⟨y, -, rfl⟩⟩ := realizeBegin_pair hb
      · exact absurd (hO.fresh p (by rw [hun]; rfl)) hne
      · simp at hbroken
    · simp only [Function.update_of_ne hq] at hbroken ⊢
      exact .inl ⟨hbroken, fun _ => trivial⟩
  · by_cases hq : p = z.pair
    · exact .inr ⟨rfl, z, hz, hq.symm⟩
    · simp only [Function.update_of_ne hq] at hbroken ⊢
      exact .inl ⟨hbroken, fun _ => trivial⟩
  · exact .inl ⟨hbroken, fun _ => rfl⟩
  · exact .inl ⟨hbroken, fun _ => rfl⟩
  · exact .inl ⟨hbroken, fun _ => rfl⟩
  · exact .inl ⟨hbroken, fun _ => rfl⟩

/-- Only the realization itself moves its program counter. -/
theorem step_realizing_of_ne {cfg : MuxConfig} {s s' : MuxState} {a : Act} {y : Realize}
    (h : step cfg s a = some s') (hne : a ≠ .realizeStep) (hy : s'.realizing = some y) :
    s.realizing = some y ∨ y.pc = .loadErrorWindow := by
  obtain ⟨q, c, sh, pr, rfl, hc, rfl⟩ | ⟨q, sh, pr, z, rfl, -, -, hb, rfl⟩ |
    ⟨z, sh, pr, z', rfl, hz, hr, rfl⟩ | ⟨c, sh, r, rfl, hr, rfl⟩ |
    ⟨w, order, k, sh, rfl, hw, rfl⟩ | ⟨c, sh, wr, rfl, hw, rfl⟩ | ⟨rfl, rfl⟩ := step_cases h
  · exact .inl hy
  · simp only at hy
    subst hy
    exact .inr (realizeBegin_opening hb).2.2.2.2.2.1
  · contradiction
  · exact .inl hy
  · exact .inl hy
  · exact .inl hy
  · exact .inl hy

/-- Steps of everyone else. -/
theorem Failing.other {cfg : MuxConfig} {s s' : MuxState} {a : Act} {p : Nat}
    (hI : Failing p s) (hW : Wellformed s) (hclean : FailsCleanly p s a)
    (hne : a ≠ .realizeStep) (h : step cfg s a = some s') : Failing p s' where
  unsent := by
    intro y hy hyp hpc
    rcases step_realizing_of_ne h hne hy with hold | hstart
    · obtain ⟨herr, hdata⟩ := hI.unsent y hold hyp hpc
      refine ⟨fun hid => ?_, fun hid => ?_⟩
      · rcases step_synIds hW.feeds h hid with hid | ⟨-, -, ha, -⟩
        · exact herr hid
        · exact hne ha
      · rcases step_synIds hW.feeds h hid with hid | ⟨-, -, ha, -⟩
        · exact hdata hid
        · exact hne ha
    · rw [hstart] at hpc
      contradiction
  closing := by
    intro y held hy hyp hpc
    rcases step_realizing_of_ne h hne hy with hold | hstart
    · have herr : (s.pairs p).errorId = y.errorId := by
        rw [← hyp]
        exact (hW.ownership.realizing y hold).2.1
      refine (hI.closing y held hold hyp hpc).step hW.registrations ?_ ?_ h
      · rw [← herr]
        exact hclean.inTurn .error
      · intro hreg
        cases a with
        | realizeStep => contradiction
        | _ => exact hreg
    · rw [hstart] at hpc
      contradiction
  broken := by
    intro hbroken hid kind
    rcases step_broken hW.ownership h hbroken hid with ⟨hold, hids⟩ | ⟨ha, -⟩
    · have hid' : (s.pairs p).errorId ≠ 0 := by
        rw [← show (s'.pairs p).errorId = (s.pairs p).errorId from hids .error]
        exact hid
      rw [hids kind]
      exact (hI.broken hold hid' kind).step hW (hclean.inTurn kind) h
    · exact absurd ha hne

/-- The realization of another pair. -/
theorem Failing.otherPair {cfg : MuxConfig} {s s' : MuxState} {p : Nat} {z : Realize}
    (hI : Failing p s) (hW : Wellformed s) (hz : s.realizing = some z) (hpair : z.pair ≠ p)
    (h : step cfg s .realizeStep = some s') : Failing p s' := by
  have hother : ∀ y, s'.realizing = some y → y.pair ≠ p := by
    intro y hy
    simp only [step, hz, Option.some.injEq] at h
    subst h
    rw [(realizeStep_same (Prod.ext rfl (Prod.ext rfl hy))).1]
    exact hpair
  refine ⟨fun y hy hyp => absurd hyp (hother y hy),
    fun y held hy hyp => absurd hyp (hother y hy), fun hbroken hid kind => ?_⟩
  rcases step_broken hW.ownership h hbroken hid with ⟨hold, hids⟩ | ⟨-, x, hx, hxp⟩
  · have hid' : (s.pairs p).errorId ≠ 0 := by
      rw [← show (s'.pairs p).errorId = (s.pairs p).errorId from hids .error]
      exact hid
    have hturn : InTurn s ((s.pairs p).idOf kind) .realizeStep := trivial
    rw [hids kind]
    exact (hI.broken hold hid' kind).step hW hturn h
  · rw [hz] at hx
    cases hx
    exact absurd hxp hpair

/-- A clean step that undoes, or has just failed, sends nothing. -/
theorem Failing.unsent_realize {p : Nat} {s : MuxState} {z : Realize} {sh : Shared}
    {pr : Pair} {z' : Option Realize} (hI : Failing p s) (hW : Wellformed s)
    (hz : s.realizing = some z) (hpair : z.pair = p)
    (hr : z.step s.shared (s.pairs z.pair) = (sh, pr, z'))
    (hfrom : z.pc.beforeOpen = true ∨ z.pc.cleaning = true)
    (hto : z' ≠ some { z with pc := .reserveCtrlError }) :
    z.errorId ∉ synIds (pipeline sh s.writer) ∧ z.dataId ∉ synIds (pipeline sh s.writer) := by
  have hcmd : sh.cmd = s.shared.cmd := by
    rcases (realizeStep_writer hr).2 with hcmd | ⟨-, hgo, -⟩
    · exact hcmd
    · exact absurd hgo hto
  rw [show pipeline sh s.writer = pipeline s.shared s.writer from
    pipeline_congr s.writer (by rw [hcmd])]
  rcases hfrom with hbefore | hcleaning
  · exact hW.synOrder.unsent hz hbefore
  · exact hI.unsent z hz hpair hcleaning

/-- When the realization has just failed, both streams are forgotten. -/
theorem Failing.forgotten_realize {p : Nat} {s : MuxState} {z : Realize} {sh : Shared}
    {pr : Pair} {f : Nat → Pair} (hI : Failing p s) (hW : Wellformed s)
    (hz : s.realizing = some z) (hpair : z.pair = p) (hclean : CleanAccess s z)
    (hr : z.step s.shared (s.pairs z.pair) = (sh, pr, none))
    (hhow : z.pc = .registerError ∨
      (z.pc = .cleanupErrorOnly ∧ sh = s.shared.sendCloseOrDrop z.errorId) ∨
      ∃ held, z.pc = .cleanupData held ∧
        sh = (s.shared.sendCloseOrDrop z.dataId).releaseHeld z.errorId held) :
    Forgotten { s with shared := sh, pairs := f, realizing := none } z.errorId ∧
      Forgotten { s with shared := sh, pairs := f, realizing := none } z.dataId := by
  have hprog := hW.ownership.progress z hz
  have hreg : sh.reg = s.shared.reg := by
    rcases realizeStep_reg hr with ⟨hreg, -⟩ | ⟨-, hgo, -⟩ | ⟨-, hgo, -⟩
    · exact hreg
    · contradiction
    · contradiction
  have hunknown : ∀ id, id ∉ s.shared.history.openLog →
      Forgotten { s with shared := sh, pairs := f, realizing := none } id := by
    intro id hid
    obtain ⟨hun, hq⟩ := hW.registrations.unregistered hid
    exact .inr ⟨hun, by simp only [hreg]; exact hq⟩
  rcases hhow with hpc | ⟨hpc, hsh⟩ | ⟨held, hpc, hsh⟩
  · refine ⟨hunknown _ ?_, hunknown _ ?_⟩
    · rw [hprog.1, hpc]
      simp [RealizePc.errorRegistered]
    · rw [hprog.2, hpc]
      simp [RealizePc.dataRegistered]
  · refine ⟨?_, hunknown _ ?_⟩
    · simp only [CleanAccess, hpc] at hclean
      exact hclean.forgotten (fun w => by rw [hsh]) hreg rfl
    · rw [hprog.2, hpc]
      simp [RealizePc.dataRegistered]
  · have hkeep := releaseHeld_keepsCloses (s.shared.sendCloseOrDrop z.dataId) z.errorId held
    refine ⟨?_, ?_⟩
    · refine (hI.closing z held hz hpair hpc).grow (fun w reg hmem => ?_)
        (fun w hin => by rw [← hreg]; exact hin) rfl
      show reg ∈ (sh.closeReg w).queue
      rw [hsh, hkeep.queue]
      rcases sendCloseOrDrop_closes s.shared z.dataId with hk | hk
      · exact hk.mem w reg hmem
      · exact hk.mem w reg hmem
    · simp only [CleanAccess, hpc] at hclean
      refine hclean.forgotten (fun w => ?_) hreg rfl
      show _ = (sh.closeReg w).queue
      rw [hsh, hkeep.queue]

/-- The realization of the pair itself. -/
theorem Failing.realize {p : Nat} {s : MuxState} {z : Realize} {sh : Shared} {pr : Pair}
    {z' : Option Realize} (hI : Failing p s) (hW : Wellformed s)
    (hz : s.realizing = some z) (hpair : z.pair = p) (hclean : CleanAccess s z)
    (hr : z.step s.shared (s.pairs z.pair) = (sh, pr, z')) :
    Failing p { s with
      shared := sh, pairs := Function.update s.pairs z.pair pr, realizing := z' } where
  unsent := by
    intro y hy hyp hpc
    simp only at hy
    subst hy
    obtain ⟨-, herr, hdata⟩ := realizeStep_same hr
    rw [herr, hdata]
    refine hI.unsent_realize hW hz hpair hr ?_ ?_
    · rcases realizeStep_cleaning hr hclean hpc with ⟨hbefore, -⟩ | ⟨held, hold, -⟩
      · exact .inl hbefore
      · exact .inr (by rw [hold]; rfl)
    · intro hgo
      cases hgo
      contradiction
  closing := by
    intro y held hy hyp hpc
    simp only at hy
    subst hy
    obtain ⟨-, herr, -⟩ := realizeStep_same hr
    rcases realizeStep_cleaning hr hclean (by rw [hpc]; rfl) with ⟨-, hnot⟩ | ⟨held', hold, hsh⟩
    · exact absurd hpc (hnot held)
    · simp only [CleanAccess, hold] at hclean
      rw [herr]
      refine hclean.forgotten (fun w => by rw [hsh]) ?_ rfl
      show sh.reg = s.shared.reg
      rw [hsh, sendCloseOrDrop_reg]
  broken := by
    intro hbroken hid kind
    obtain ⟨hphase, herr, hdata⟩ := hW.ownership.realizing z hz
    obtain ⟨-, hsum, hnext⟩ := hW.synOrder.opening z hz
    subst hpair
    simp only [Function.update_self] at hbroken ⊢
    obtain ⟨rfl, hhow⟩ := realizeStep_broken hr (by rw [hphase]; simp) hbroken
    have hids : pr.errorId = z.errorId ∧ pr.dataId = z.dataId := by
      rcases realizeStep_pair hr with ⟨rfl, -⟩ | ⟨rfl, -⟩ | ⟨rfl, -, -⟩ <;> exact ⟨herr, hdata⟩
    have hunsent := hI.unsent_realize hW hz rfl hr (by
      rcases hhow with hpc | ⟨hpc, -⟩ | ⟨held, hpc, -⟩ <;> rw [hpc]
      · exact .inl rfl
      · exact .inr rfl
      · exact .inr rfl) (by simp)
    have hforgotten := hI.forgotten_realize (f := Function.update s.pairs z.pair pr) hW hz rfl
      hclean hr hhow
    have hcount := realizeStep_nextStreamId hr
    cases kind with
    | data =>
        simp only [Pair.idOf, hids]
        exact ⟨by simp only [hcount]; omega, fun y hy => by contradiction, hunsent.2,
          hforgotten.2⟩
    | error =>
        simp only [Pair.idOf, hids]
        exact ⟨by simp only [hcount]; omega, fun y hy => by contradiction, hunsent.1,
          hforgotten.1⟩

theorem step_failing {cfg : MuxConfig} {s s' : MuxState} {a : Act} {p : Nat}
    (hW : Wellformed s) (hI : Failing p s) (hclean : FailsCleanly p s a)
    (h : step cfg s a = some s') : Failing p s' := by
  by_cases ha : a = .realizeStep
  · subst ha
    cases hz : s.realizing with
    | none => simp [step, hz] at h
    | some z =>
        by_cases hpair : z.pair = p
        · simp only [FailsCleanly, hz] at hclean
          have hnext := hI.realize hW hz hpair (hclean hpair) rfl
          simp only [step, hz, Option.some.injEq] at h
          subst h
          exact hnext
        · exact hI.otherPair hW hz hpair h
  · exact hI.other hW hclean ha h

theorem failing_invariant (cfg : MuxConfig) (p : Nat) :
    (mux cfg).Invariant (FailsCleanly p) (Failing p) := by
  refine Invariant.of_step_using (Invariant.restrict (wellformed_invariant cfg)
    fun _ _ _ => trivial) ?_ fun s a s' hW hI hclean h => step_failing hW hI hclean h
  constructor <;> simp [mux, MuxState.init]

/-! ## What a failure leaves -/

/-- Every SYN_STREAM of the stream on the wire is followed by a RST_STREAM. -/
def SynAnswered (wire : List Outgoing) (id : StreamId) : Prop :=
  ∀ before frame after, wire = before ++ frame :: after → frame.synId = some id →
    ∃ status, .rstStream id status ∈ after

/-- Nothing is left to write. -/
def WriterDrained (s : MuxState) : Prop :=
  s.shared.window.queue = [] ∧ s.shared.control.queue = [] ∧ s.shared.cmd.queue = [] ∧
    s.writer.out = [] ∧ s.writer.pc.held = none

instance (s : MuxState) : Decidable (WriterDrained s) := by
  unfold WriterDrained
  infer_instance

/-- The registration channels are drained. -/
def RegsDrained (s : MuxState) : Prop :=
  ∀ w, (s.shared.reg w).queue = [] ∧ (s.shared.closeReg w).queue = []

instance (s : MuxState) : Decidable (RegsDrained s) := by
  unfold RegsDrained
  infer_instance

/-- Nothing of the stream is left, at the peer or with the workers. -/
structure LeavesNothing (s : MuxState) (id : StreamId) : Prop where
  answered : WriterDrained s → SynAnswered s.writer.wire id
  unregistered : RegsDrained s →
    ∀ w, id ∉ (s.workers w).streams ∧ id ∉ (s.workers w).pendingReplies

theorem Retired.leavesNothing {s : MuxState} {id : StreamId} (h : Retired s id)
    (hR : Registrations s) : LeavesNothing s id where
  answered := by
    intro _ before frame after hwire hsyn
    refine absurd ?_ h.unsent
    refine List.mem_filterMap.2 ⟨frame, ?_, hsyn⟩
    refine (wire_prefix_pipeline s.shared s.writer).subset ?_
    rw [hwire]
    simp
  unregistered := by
    intro hdrained w
    suffices hun : ¬ (s.workers w).knows id from
      ⟨fun hin => hun (.inl hin), fun hin => hun (.inr hin)⟩
    intro hk
    obtain ⟨rfl, -⟩ := hR.known w id hk
    rcases h.forgotten with hq | ⟨hun, -⟩
    · rw [(hdrained _).2] at hq
      simp at hq
    · exact hun hk

/-- A pair keeps the ids it was given. -/
theorem step_idOf {cfg : MuxConfig} {s s' : MuxState} {a : Act} {p : Nat} (hO : Ownership s)
    (h : step cfg s a = some s') (hid : (s.pairs p).errorId ≠ 0) (kind : HalfKind) :
    (s'.pairs p).idOf kind = (s.pairs p).idOf kind := by
  have hsame : (s'.pairs p).errorId = (s.pairs p).errorId ∧
      (s'.pairs p).dataId = (s.pairs p).dataId := by
    obtain ⟨q, c, sh, pr, rfl, hc, rfl⟩ | ⟨q, sh, pr, z, rfl, -, hun, hb, rfl⟩ |
      ⟨z, sh, pr, z', rfl, hz, hr, rfl⟩ | ⟨c, sh, r, rfl, hr, rfl⟩ |
      ⟨w, order, k, sh, rfl, hw, rfl⟩ | ⟨c, sh, wr, rfl, hw, rfl⟩ | ⟨rfl, rfl⟩ := step_cases h
    · by_cases hq : p = q
      · subst hq
        simp only [Function.update_self]
        exact ⟨(client_pair hc).1, (client_pair hc).2.1⟩
      · simp [Function.update_of_ne hq]
    · by_cases hq : p = q
      · subst hq
        exact absurd (hO.fresh p (by rw [hun]; rfl)) hid
      · simp [Function.update_of_ne hq]
    · by_cases hq : p = z.pair
      · subst hq
        simp only [Function.update_self]
        rcases realizeStep_pair hr with ⟨rfl, -⟩ | ⟨rfl, -⟩ | ⟨rfl, -, -⟩ <;> exact ⟨rfl, rfl⟩
      · simp [Function.update_of_ne hq]
    · exact ⟨rfl, rfl⟩
    · exact ⟨rfl, rfl⟩
    · exact ⟨rfl, rfl⟩
    · exact ⟨rfl, rfl⟩
  cases kind
  · exact hsame.2
  · exact hsame.1

/-- Every failure of a realization, at whichever of its steps, and whatever
happens afterwards: pair `p` is broken in `t`, and `bs` leads on from there. -/
theorem failed_realization_leaves_nothing (cfg : MuxConfig) (p : Nat) (as bs : List Act)
    (t s : MuxState) (has : (mux cfg).run (mux cfg).init as = some t)
    (hbroken : (t.pairs p).phase = .broken) (hallocated : (t.pairs p).errorId ≠ 0)
    (hbs : (mux cfg).run t bs = some s)
    (hmeets : (mux cfg).Meets (FailsCleanly p) (mux cfg).init (as ++ bs)) (kind : HalfKind) :
    LeavesNothing s ((t.pairs p).idOf kind) := by
  have hretired := (failing_invariant cfg p as t has (Meets.append hmeets has).1).broken
    hbroken hallocated kind
  have hend : Retired s ((t.pairs p).idOf kind) ∧ (s.pairs p).errorId ≠ 0 ∧
      (s.pairs p).idOf kind = (t.pairs p).idOf kind := by
    refine Invariant.stable (I := fun u => Retired u ((t.pairs p).idOf kind) ∧
      (u.pairs p).errorId ≠ 0 ∧ (u.pairs p).idOf kind = (t.pairs p).idOf kind)
      (Invariant.restrict (wellformed_invariant cfg) fun _ _ _ => trivial) ?_ has
      ⟨hretired, hallocated, rfl⟩ hbs hmeets
    rintro u a u' hW ⟨hret, hne, hsame⟩ hclean h
    have hids := step_idOf hW.ownership h hne
    refine ⟨hret.step hW ?_ h, ?_, ?_⟩
    · rw [← hsame]
      exact hclean.inTurn kind
    · rw [show (u'.pairs p).errorId = (u.pairs p).errorId from hids .error]
      exact hne
    · rw [hids kind, hsame]
  have hrun := run_append_some has hbs
  exact hend.1.leavesNothing (registrations_invariant cfg _ s hrun (meets_anyStep _ _))

/-- The connection ends while pair 0 is being realized, so that its open command
is refused; both workers have registered its streams by then. -/
def earlyFailureActs : List Act :=
  startActs ++ openActs 0 ++ [Act.realizeBegin 0] ++ List.replicate 4 Act.realizeStep ++
    List.replicate 3 (Act.worker (shardOf 1) []) ++ List.replicate 3 (Act.worker (shardOf 3) []) ++
    [Act.cancel, .writer .step, .writer .step] ++ List.replicate 3 Act.realizeStep

/-- The two workers look at their channels again. -/
def earlyDrainActs : List Act :=
  List.replicate 3 (Act.worker (shardOf 1) []) ++ List.replicate 3 (Act.worker (shardOf 3) [])

theorem failed_realization_leaves_nothing_early :
    ∃ t s, (mux MuxConfig.default).run (mux MuxConfig.default).init earlyFailureActs = some t ∧
      (mux MuxConfig.default).run t earlyDrainActs = some s ∧ (t.pairs 0).phase = .broken ∧
      t.shared.history.openLog = [1, 3] ∧ RegsDrained s ∧
      ∀ kind, LeavesNothing s ((t.pairs 0).idOf kind) := by
  have hfail : ((mux MuxConfig.default).run (mux MuxConfig.default).init earlyFailureActs).map
      (fun t => ((t.pairs 0).phase, (t.pairs 0).errorId, t.shared.history.openLog)) =
      some (.broken, 1, [1, 3]) := by decide +kernel
  have hdrain : ((mux MuxConfig.default).run (mux MuxConfig.default).init
      (earlyFailureActs ++ earlyDrainActs)).map
        (fun s => decide (RegsDrained s)) = some true := by decide +kernel
  have hmeets : (mux MuxConfig.default).Meets (FailsCleanly 0) (mux MuxConfig.default).init
      (earlyFailureActs ++ earlyDrainActs) := meets_of_check (by decide +kernel)
  obtain ⟨t, ht, hobs⟩ := Option.map_eq_some_iff.1 hfail
  obtain ⟨s, hs, hempty⟩ := Option.map_eq_some_iff.1 hdrain
  simp only [Prod.mk.injEq] at hobs
  obtain ⟨hbroken, hid, hlog⟩ := hobs
  have hbs : (mux MuxConfig.default).run t earlyDrainActs = some s := by
    rw [run_append ht] at hs
    exact hs
  refine ⟨t, s, ht, hbs, hbroken, hlog, of_decide_eq_true hempty, fun kind => ?_⟩
  exact failed_realization_leaves_nothing _ 0 _ _ t s ht hbroken (by rw [hid]; decide) hbs
    hmeets kind

/-- The writer takes the open command of pair 0; then 256 WebSocket PINGs fill
the control channel, and the first reservation fails. -/
def lateFailureActs : List Act :=
  startActs ++ openActs 0 ++ [Act.realizeBegin 0] ++ List.replicate 5 Act.realizeStep ++
    List.replicate 4 (Act.writer .step) ++ List.replicate 256 (Act.reader (.wsPing [])) ++
    List.replicate 3 Act.realizeStep

/-- The writer answers the PINGs and then writes the command it took. -/
def lateWriteActs : List Act :=
  (List.replicate 256 [Act.writer .step, .writer (.emit true)]).flatten ++
    [Act.writer .step, .writer (.emit true), .writer (.emit true), .writer (.emit true),
      .writer .step]

/-- Both SYN_STREAMs of the failed pair go out, and nothing resets them. -/
theorem syn_without_reset :
    ¬ ∀ (cfg : MuxConfig) (p : Nat) (as bs : List Act) (t s : MuxState),
      (mux cfg).run (mux cfg).init as = some t → (t.pairs p).phase = .broken →
      (t.pairs p).errorId ≠ 0 → (mux cfg).run t bs = some s →
      ∀ kind, LeavesNothing s ((t.pairs p).idOf kind) := by
  intro hall
  have hfail : ((mux MuxConfig.default).run (mux MuxConfig.default).init lateFailureActs).map
      (fun t => ((t.pairs 0).phase, (t.pairs 0).errorId)) = some (.broken, 1) := by
    decide +kernel
  have hwire : ((mux MuxConfig.default).run (mux MuxConfig.default).init
      (lateFailureActs ++ lateWriteActs)).map
        (fun s => (decide (WriterDrained s), s.writer.wire.drop 258)) =
      some (true, [.synStream 1 [] false, .synStream 3 [] false, .data 1 [] true]) := by
    decide +kernel
  obtain ⟨t, ht, hobs⟩ := Option.map_eq_some_iff.1 hfail
  obtain ⟨s, hs, hdrained⟩ := Option.map_eq_some_iff.1 hwire
  simp only [Prod.mk.injEq] at hobs hdrained
  obtain ⟨hbroken, hid⟩ := hobs
  obtain ⟨hempty, hlast⟩ := hdrained
  rw [run_append ht] at hs
  have hanswered := (hall _ 0 _ _ t s ht hbroken (by rw [hid]; decide) hs .error).answered
    (of_decide_eq_true hempty)
  have hsplit : s.writer.wire = s.writer.wire.take 258 ++ .synStream 1 [] false ::
      [.synStream 3 [] false, .data 1 [] true] := by
    rw [← hlast, List.take_append_drop]
  obtain ⟨status, hin⟩ := hanswered _ _ _ hsplit (by rw [Pair.idOf, hid]; rfl)
  simp at hin

end KubePortForward.Mux

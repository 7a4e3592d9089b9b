import KubePortForward.Mux.SynOrder

/-!
# Nothing written stays unflushed while the writer sleeps

The writer decides at the end of a batch whether to flush by asking whether
it counted any byte since the last flush.  A keepalive PING and a WebSocket
PONG are written without being counted, so a batch that holds nothing else
skips the flush and its frames stay in the transport's buffer until a later
batch is flushed.

## Main results

* `counting_invariant` — as long as no keepalive tick fires, every frame that
  is not flushed yet was counted, except for the PONGs.
* `sleeps_flushed` — as long as, besides, no batch writes only PONGs,
  everything handed to the transport has been flushed whenever the loop waits
  in its select.
* `keepalive_unflushed` — after a keepalive tick on an idle connection it has
  not.
-/

namespace KubePortForward.Mux

open KubePortForward.Verified.Transition

/-- The loop is at its select: polling the branches, none of which is ready
yet. -/
def WriterPc.selecting : WriterPc → Bool
  | .selectCancel => true
  | .selectWindow => true
  | .selectControl => true
  | .selectCmd => true
  | .selectTimers => true
  | _ => false

/-- The batch is flushed, or there is none: the loop is at its select or
telling the workers about the streams that were reset. -/
def WriterPc.settled : WriterPc → Bool
  | .closes _ _ => true
  | pc => pc.selecting

/-- Every frame handed to the transport was followed by a successful flush. -/
def Writer.Flushed (wr : Writer) : Prop :=
  wr.out = [] ∧ wr.flushed = wr.wire.length

/-- A WebSocket PONG, the reply to a PING of that layer. -/
def Outgoing.isWsPong : Outgoing → Bool
  | .pong _ => true
  | _ => false

/-- What the transport may still keep in its buffer. -/
def Writer.unflushed (wr : Writer) : List Outgoing := wr.wire.drop wr.flushed

/-- No keepalive tick fires, and where a batch ends it has written something
else than WebSocket PONGs. -/
def WritesMore (s : MuxState) : Act → Prop
  | .writer .pingTick => False
  | .writer .step =>
      s.writer.out = [] → s.writer.pc = .finish →
        s.writer.unflushed.any (fun f => !f.isWsPong) = true
  | _ => True

instance (s : MuxState) (a : Act) : Decidable (WritesMore s a) := by
  unfold WritesMore
  split <;> infer_instance

/-! ## What is counted -/

/-- The loop is under way: the two opening frames are flushed and nothing failed. -/
def WriterPc.looping : WriterPc → Bool
  | .startPing => false
  | .startSettings => false
  | pc => !pc.leaving

/-- In the loop, every frame is counted except for the PONGs. -/
structure Counting (wr : Writer) : Prop where
  pending : wr.pc.looping = true → ∀ p ∈ wr.out, p.counted = true ∨ p.frame.isWsPong = true
  written : wr.pc.looping = true →
    ∀ f ∈ wr.unflushed, wr.bytesSinceFlush = true ∨ f.isWsPong = true
  within : wr.flushed ≤ wr.wire.length

theorem processWriterCommand_counts (cmd : MuxCommand) :
    ∀ p ∈ processWriterCommand cmd, p.counted = true ∨ p.frame.isWsPong = true := by
  intro p hp
  cases cmd <;> simp only [processWriterCommand, List.mem_cons, List.not_mem_nil, or_false] at hp
  case openStreamPair => rcases hp with rfl | rfl | rfl <;> exact .inl rfl
  case sendWsPong => subst hp; exact .inr rfl
  all_goals
    subst hp
    exact .inl rfl

theorem emit_counting {ok : Bool} {sh sh' : Shared} {wr wr' : Writer} (hI : Counting wr)
    (h : wr.emit ok sh = some (sh', wr')) : Counting wr' := by
  unfold Writer.emit at h
  split at h
  · contradiction
  · next p rest hout =>
      split at h
      · cases h
        have hunflushed : (wr.wire ++ [p.frame]).drop wr.flushed = wr.unflushed ++ [p.frame] :=
          List.drop_append_of_le_length hI.within
        refine ⟨fun hpc q hq => ?_, fun hpc f hf => ?_, ?_⟩
        · apply hI.pending hpc q
          rw [hout]
          exact List.mem_cons_of_mem p hq
        · have hf : f ∈ wr.unflushed ++ [p.frame] := hunflushed ▸ hf
          show (wr.bytesSinceFlush || p.counted) = true ∨ f.isWsPong = true
          rw [Bool.or_eq_true]
          rcases List.mem_append.mp hf with hf | hf
          · exact (hI.written hpc f hf).imp_left .inl
          · rw [List.mem_singleton.mp hf]
            have hp : p ∈ wr.out := by
              rw [hout]
              exact List.mem_cons_self
            exact (hI.pending hpc p hp).imp_left .inr
        · show wr.flushed ≤ (wr.wire ++ [p.frame]).length
          rw [List.length_append]
          exact Nat.le_add_right_of_le hI.within
      · cases h
        exact ⟨fun hpc => by contradiction, fun hpc => by contradiction, hI.within⟩

theorem flush_counting {cfg : MuxConfig} {ok : Bool} {sh sh' : Shared} {wr wr' : Writer}
    (hI : Counting wr) (h : wr.flush cfg ok sh = some (sh', wr')) : Counting wr' := by
  unfold Writer.flush at h
  split at h
  · contradiction
  · next hne =>
      have hout : wr.out = [] := by simpa using hne
      split at h
      · contradiction
      · next wr'' hafter =>
          split at h
          · cases h
            have hwire : wr''.wire = wr.wire ∧ (wr''.pc.looping = true → wr''.out = []) := by
              unfold Writer.afterFlush at hafter
              split at hafter
              · cases hafter
                exact ⟨rfl, fun hpc => by contradiction⟩
              · cases hafter
                exact ⟨rfl, fun _ => hout⟩
              · split at hafter
                · cases hafter
                  exact ⟨rfl, fun _ => hout⟩
                · contradiction
              · contradiction
            have hnone : wr''.wire.drop wr.wire.length = [] := by
              rw [hwire.1]
              exact List.drop_length
            refine ⟨fun hpc p hp => ?_, fun hpc f hf => ?_, ?_⟩
            · have hp : p ∈ wr''.out := hp
              rw [hwire.2 hpc] at hp
              contradiction
            · have hf : f ∈ wr''.wire.drop wr.wire.length := hf
              rw [hnone] at hf
              contradiction
            · exact Nat.le_of_eq (congrArg List.length hwire.1).symm
          · cases h
            exact ⟨fun hpc => by contradiction, fun hpc => by contradiction, hI.within⟩

theorem stallTick_counting {sh sh' : Shared} {wr wr' : Writer} (hI : Counting wr)
    (h : wr.stallTick sh = some (sh', wr')) : Counting wr' := by
  unfold Writer.stallTick at h
  split at h
  · cases h
    exact ⟨fun hpc => by contradiction, fun hpc => by contradiction, hI.within⟩
  · contradiction

/-- A poll of the loop counts nothing; what it begins to write is one command. -/
theorem poll_counts {sh sh' : Shared} {wr wr' : Writer} (h : wr.step sh = some (sh', wr')) :
    wr'.bytesSinceFlush = wr.bytesSinceFlush ∧
      (wr'.pc.looping = true → wr.pc.looping = true) ∧
      (wr'.out = [] ∨ ∃ cmd, wr'.out = processWriterCommand cmd) := by
  unfold Writer.step at h
  split at h
  · contradiction
  · next hne =>
      have hout : wr.out = [] := by simpa using hne
      cases hpc : wr.pc with
      | exiting =>
          simp only [hpc] at h
          cases h
          exact ⟨rfl, fun hx => by contradiction, .inl hout⟩
      | startPing => simp [hpc] at h
      | startSettings => simp [hpc] at h
      | stopped => simp [hpc] at h
      | controlDrain left =>
          cases left <;> simp only [hpc] at h
          · cases h
            exact ⟨rfl, fun _ => rfl, .inl hout⟩
          · split at h <;> cases h
            · exact ⟨rfl, fun _ => rfl, .inr ⟨_, rfl⟩⟩
            · exact ⟨rfl, fun _ => rfl, .inl hout⟩
      | cmdDrain left =>
          cases left <;> simp only [hpc] at h
          · cases h
            exact ⟨rfl, fun _ => rfl, .inl hout⟩
          · split at h <;> cases h
            · exact ⟨rfl, fun _ => rfl, .inr ⟨_, rfl⟩⟩
            · exact ⟨rfl, fun _ => rfl, .inl hout⟩
      | holdCmd held =>
          simp only [hpc] at h
          split at h <;> cases h <;> exact ⟨rfl, fun _ => rfl, .inr ⟨_, rfl⟩⟩
      | closes todo requeued =>
          cases todo <;> simp only [hpc] at h
          · cases h
            exact ⟨rfl, fun _ => rfl, .inl hout⟩
          · split at h <;> cases h <;> exact ⟨rfl, fun _ => rfl, .inl hout⟩
      | finish =>
          simp only [hpc] at h
          split at h
          · contradiction
          · cases h
            exact ⟨rfl, fun _ => rfl, .inl hout⟩
      | selectTimers =>
          simp only [hpc] at h
          cases h
          exact ⟨rfl, fun _ => rfl, .inl hout⟩
      | selectCmd =>
          simp only [hpc] at h
          split at h <;> cases h <;> exact ⟨rfl, fun _ => rfl, .inl hout⟩
      | selectCancel =>
          simp only [hpc] at h
          split at h <;> cases h <;> exact ⟨rfl, fun _ => rfl, .inl hout⟩
      | _ =>
          simp only [hpc] at h
          split at h <;> cases h
          · exact ⟨rfl, fun _ => rfl, .inr ⟨_, rfl⟩⟩
          · exact ⟨rfl, fun _ => rfl, .inl hout⟩

/-- Between two batches everything is flushed. -/
def Settled (wr : Writer) : Prop := wr.pc.settled = true → wr.Flushed

theorem emit_settled {ok : Bool} {sh sh' : Shared} {wr wr' : Writer} (hI : Settled wr)
    (h : wr.emit ok sh = some (sh', wr')) : Settled wr' := by
  unfold Writer.emit at h
  split at h
  · contradiction
  · next p rest hout =>
      split at h
      · cases h
        intro hpc
        -- A batch is being written, so the loop is not between two of them.
        have hnil := (hI hpc).1
        rw [hout] at hnil
        contradiction
      · cases h
        intro hpc
        contradiction

theorem flush_settled {cfg : MuxConfig} {ok : Bool} {sh sh' : Shared} {wr wr' : Writer}
    (h : wr.flush cfg ok sh = some (sh', wr')) : Settled wr' := by
  unfold Writer.flush at h
  split at h
  · contradiction
  · next hne =>
      have hout : wr.out = [] := by simpa using hne
      split at h
      · contradiction
      · next wr'' hafter =>
          split at h
          · cases h
            unfold Writer.afterFlush at hafter
            split at hafter
            · cases hafter
              intro hpc
              contradiction
            · cases hafter
              intro _
              exact ⟨hout, rfl⟩
            · split at hafter
              · cases hafter
                intro _
                exact ⟨hout, rfl⟩
              · contradiction
            · contradiction
          · cases h
            intro hpc
            contradiction

theorem stallTick_settled {sh sh' : Shared} {wr wr' : Writer}
    (h : wr.stallTick sh = some (sh', wr')) : Settled wr' := by
  unfold Writer.stallTick at h
  split at h
  · cases h
    intro hpc
    contradiction
  · contradiction

/-- A poll of the loop writes nothing, and comes to rest between two batches
only from there or by skipping a flush. -/
theorem poll_keeps {sh sh' : Shared} {wr wr' : Writer} (h : wr.step sh = some (sh', wr')) :
    wr'.wire = wr.wire ∧ wr'.flushed = wr.flushed ∧
      (wr'.pc.settled = true → wr'.out = [] ∧
        (wr.pc.settled = true ∨ (wr.pc = .finish ∧ wr.bytesSinceFlush = false))) := by
  unfold Writer.step at h
  split at h
  · contradiction
  · next hne =>
      have hout : wr.out = [] := by simpa using hne
      cases hpc : wr.pc with
      | closes todo requeued =>
          cases todo with
          | nil =>
              simp only [hpc] at h
              cases h
              exact ⟨rfl, rfl, fun _ => ⟨hout, .inl rfl⟩⟩
          | cons id rest =>
              simp only [hpc] at h
              split at h <;> cases h
              · exact ⟨rfl, rfl, fun _ => ⟨hout, .inl rfl⟩⟩
              · exact ⟨rfl, rfl, fun _ => ⟨hout, .inl rfl⟩⟩
              · exact ⟨rfl, rfl, fun _ => ⟨hout, .inl rfl⟩⟩
      | finish =>
          simp only [hpc] at h
          split at h
          · contradiction
          · next hcounted =>
              cases h
              exact ⟨rfl, rfl, fun _ => ⟨hout, .inr ⟨rfl, by simpa using hcounted⟩⟩⟩
      | controlDrain left =>
          cases left <;> simp only [hpc] at h
          · cases h
            exact ⟨rfl, rfl, fun hx => by contradiction⟩
          · split at h <;> cases h <;> exact ⟨rfl, rfl, fun hx => by contradiction⟩
      | cmdDrain left =>
          cases left <;> simp only [hpc] at h
          · cases h
            exact ⟨rfl, rfl, fun hx => by contradiction⟩
          · split at h <;> cases h <;> exact ⟨rfl, rfl, fun hx => by contradiction⟩
      | startPing => simp [hpc] at h
      | startSettings => simp [hpc] at h
      | stopped => simp [hpc] at h
      | exiting =>
          simp only [hpc] at h
          cases h
          exact ⟨rfl, rfl, fun hx => by contradiction⟩
      | windowDrain =>
          simp only [hpc] at h
          split at h <;> cases h <;> exact ⟨rfl, rfl, fun hx => by contradiction⟩
      | holdCmd held =>
          simp only [hpc] at h
          split at h <;> cases h <;> exact ⟨rfl, rfl, fun hx => by contradiction⟩
      | selectTimers =>
          simp only [hpc] at h
          cases h
          exact ⟨rfl, rfl, fun _ => ⟨hout, .inl rfl⟩⟩
      | selectCancel =>
          simp only [hpc] at h
          split at h <;> cases h
          · exact ⟨rfl, rfl, fun hx => by contradiction⟩
          · exact ⟨rfl, rfl, fun _ => ⟨hout, .inl rfl⟩⟩
      | _ =>
          simp only [hpc] at h
          split at h <;> cases h
          · exact ⟨rfl, rfl, fun hx => by contradiction⟩
          · exact ⟨rfl, rfl, fun _ => ⟨hout, .inl rfl⟩⟩

theorem poll_counting {sh sh' : Shared} {wr wr' : Writer} (hI : Counting wr)
    (h : wr.step sh = some (sh', wr')) : Counting wr' := by
  obtain ⟨hwire, hflushed, -⟩ := poll_keeps h
  obtain ⟨hbytes, hlooping, hout⟩ := poll_counts h
  have hunflushed : wr'.unflushed = wr.unflushed := by
    rw [Writer.unflushed, Writer.unflushed, hwire, hflushed]
  refine ⟨fun _ p hp => ?_, fun hpc => ?_, ?_⟩
  · rcases hout with hnil | ⟨cmd, hcmd⟩
    · rw [hnil] at hp
      contradiction
    · rw [hcmd] at hp
      exact processWriterCommand_counts cmd p hp
  · rw [hunflushed, hbytes]
    exact hI.written (hlooping hpc)
  · rw [hwire, hflushed]
    exact hI.within

theorem step_counting {cfg : MuxConfig} {s s' : MuxState} {a : Act} (hI : Counting s.writer)
    (hmore : WritesMore s a) (h : step cfg s a = some s') : Counting s'.writer := by
  obtain ⟨p, c, sh, pr, rfl, -, rfl⟩ | ⟨p, sh, pr, z, rfl, -, -, -, rfl⟩ |
    ⟨z, sh, pr, z', rfl, -, -, rfl⟩ | ⟨c, sh, r, rfl, -, rfl⟩ |
    ⟨w, order, k, sh, rfl, -, rfl⟩ | ⟨c, sh, wr, rfl, hw, rfl⟩ | ⟨rfl, rfl⟩ := step_cases h
  all_goals try exact hI
  cases c with
  | emit ok => exact emit_counting hI hw
  | flush ok => exact flush_counting hI hw
  | pingTick => exact absurd hmore id
  | stallTick => exact stallTick_counting hI hw
  | step => exact poll_counting hI hw

theorem counting_invariant (cfg : MuxConfig) :
    (mux cfg).Invariant WritesMore fun s => Counting s.writer := by
  apply Invariant.of_step
  · exact ⟨fun hpc => by contradiction, fun hpc => by contradiction, Nat.le_refl 0⟩
  · intro s a s' hI hmore h
    exact step_counting hI hmore h

/-- A batch that wrote more than PONGs has been counted. -/
theorem Counting.counted {wr : Writer} (hI : Counting wr) (hpc : wr.pc = .finish)
    (hmore : wr.unflushed.any (fun f => !f.isWsPong) = true) : wr.bytesSinceFlush = true := by
  obtain ⟨f, hf, hpong⟩ := List.any_eq_true.mp hmore
  have hlooping : wr.pc.looping = true := by
    rw [hpc]
    rfl
  rcases hI.written hlooping f hf with hcounted | hp
  · exact hcounted
  · rw [hp] at hpong
    contradiction

theorem step_settled {cfg : MuxConfig} {s s' : MuxState} {a : Act} (hC : Counting s.writer)
    (hI : Settled s.writer) (hmore : WritesMore s a) (h : step cfg s a = some s') :
    Settled s'.writer := by
  obtain ⟨p, c, sh, pr, rfl, -, rfl⟩ | ⟨p, sh, pr, z, rfl, -, -, -, rfl⟩ |
    ⟨z, sh, pr, z', rfl, -, -, rfl⟩ | ⟨c, sh, r, rfl, -, rfl⟩ |
    ⟨w, order, k, sh, rfl, -, rfl⟩ | ⟨c, sh, wr, rfl, hw, rfl⟩ | ⟨rfl, rfl⟩ := step_cases h
  all_goals try exact hI
  cases c with
  | emit ok => exact emit_settled hI hw
  | flush ok => exact flush_settled hw
  | pingTick => exact absurd hmore id
  | stallTick => exact stallTick_settled hw
  | step =>
      obtain ⟨hwire, hflushed, hrest⟩ := poll_keeps hw
      intro hpc
      obtain ⟨hout, hcase⟩ := hrest hpc
      rcases hcase with hsettled | ⟨hfinish, hnone⟩
      · show wr.out = [] ∧ wr.flushed = wr.wire.length
        rw [hwire, hflushed]
        exact ⟨hout, (hI hsettled).2⟩
      · have hempty : s.writer.out = [] := by
          by_contra hne
          simp [writerStep, Writer.step, hne] at hw
        have hcounted := hC.counted hfinish (hmore hempty hfinish)
        rw [hnone] at hcounted
        contradiction

theorem settled_invariant (cfg : MuxConfig) :
    (mux cfg).Invariant WritesMore fun s => Settled s.writer := by
  refine Invariant.of_step_using (counting_invariant cfg) ?_ ?_
  · intro hpc
    contradiction
  · intro s a s' hC hI hmore h
    exact step_settled hC hI hmore h

/-- In every run in which no keepalive tick fires and every batch writes more
than WebSocket PONGs, whenever the loop waits in its select, every frame handed
to the transport since the task started was followed by a successful flush. -/
theorem sleeps_flushed (cfg : MuxConfig) (as : List Act) (s : MuxState)
    (hrun : (mux cfg).run (mux cfg).init as = some s)
    (hmore : (mux cfg).Meets WritesMore (mux cfg).init as)
    (hselect : s.writer.pc.selecting = true) :
    s.writer.out = [] ∧ s.writer.flushed = s.writer.wire.length := by
  have hsettled : s.writer.pc.settled = true := by
    cases hpc : s.writer.pc with
    | closes todo requeued => rfl
    | _ =>
        rw [hpc] at hselect
        exact hselect
  exact settled_invariant cfg as s hrun hmore hsettled

/-- The initial PING is answered, the peer's own PING is echoed in a batch of
its own, and the loop is back at its select. -/
def echoActs : List Act :=
  startActs ++
    [Act.reader (.receive (.ping 1)), .reader (.receive (.ping 2)),
      .writer .step, .writer .step, .writer .step, .writer (.emit true), .writer .step,
      .writer (.flush true), .writer .step]

theorem sleeps_flushed_echo :
    ∃ s, (mux .default).run (mux .default).init echoActs = some s ∧
      s.writer.wire.length = 3 ∧ s.writer.flushed = s.writer.wire.length := by
  have hsome : ((mux .default).run (mux .default).init echoActs).isSome = true := by
    decide +kernel
  obtain ⟨s, hs⟩ := Option.isSome_iff_exists.mp hsome
  have hstate : ((mux .default).run (mux .default).init echoActs).map
      (fun t => (t.writer.pc.selecting, t.writer.wire.length)) = some (true, 3) := by
    decide +kernel
  rw [hs, Option.map_some, Option.some.injEq, Prod.mk.injEq] at hstate
  exact ⟨s, hs, hstate.2,
    (sleeps_flushed .default echoActs s hs (meets_of_check (by decide +kernel)) hstate.1).2⟩

/-- A keepalive tick on an idle connection. -/
def keepaliveActs : List Act :=
  startActs ++
    [Act.writer .step, .writer .step, .writer .step, .writer .step, .writer .pingTick,
      .writer (.emit true), .writer .step, .writer .step]

/-- The keepalive PING is still in the transport's buffer when the loop waits
again. -/
theorem keepalive_unflushed :
    ¬ ∀ (cfg : MuxConfig) (as : List Act) (s : MuxState),
      (mux cfg).run (mux cfg).init as = some s → s.writer.pc.selecting = true →
        s.writer.flushed = s.writer.wire.length := by
  intro h
  have hstate : ((mux .default).run (mux .default).init keepaliveActs).map
      (fun t => (t.writer.pc.selecting, t.writer.flushed, t.writer.wire.length)) =
        some (true, 2, 3) := by
    decide +kernel
  obtain ⟨s, hs, hfields⟩ := Option.map_eq_some_iff.mp hstate
  simp only [Prod.mk.injEq] at hfields
  have hflushed := h .default keepaliveActs s hs hfields.1
  omega

end KubePortForward.Mux

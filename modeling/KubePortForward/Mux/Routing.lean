import KubePortForward.Mux.Footprint

/-!
# What the reader hands to the workers

A frame keyed by a stream is routed in two steps: the reader takes it and then
offers it to the worker of its shard, once.  Between the two steps it is in the
reader's program counter.

## Main results

* `reader_frames` — a worker's queue grows by the frame being dispatched.
* `reader_pc` — what the reader is in the middle of, it was told to do.
* `reader_routed` — the history of routed frames grows by the frame received.
* `WorkerMove.frames_queue` — a worker takes frames off its own queue, one at a
  time, and drops the rest when it exits.
* `frames_sharded` — a worker is only handed frames of its own shard.
-/

namespace KubePortForward.Mux

open KubePortForward.Codec
open KubePortForward.Verified.Channel
open KubePortForward.Verified.Transition

/-- Only a dispatch that finds room adds to a worker's queue. -/
theorem reader_frames {cfg : MuxConfig} {a : ReaderAct} {sh sh' : Shared} {r r' : Reader}
    (h : readerStep cfg a sh r = some (sh', r')) :
    sh'.frames = sh.frames ∨
    ∃ f id c, a = .step ∧ r.pc = .dispatch f ∧ workerKey f = some id ∧ r'.pc = .idle ∧
      (sh.frames (shardOf id)).trySend f = .ok c ∧
      sh'.frames = Function.update sh.frames (shardOf id) c := by
  cases a with
  | step =>
      simp only [readerStep, Reader.step] at h
      cases hpc : r.pc with
      | dispatch f =>
          simp only [hpc] at h
          split at h
          · contradiction
          · next id hkey =>
              split at h
              · next c hsend =>
                  cases h
                  exact .inr ⟨f, id, c, rfl, rfl, hkey, rfl, hsend, rfl⟩
              · split at h <;> cases h <;> exact .inl rfl
      | _ =>
          simp only [hpc] at h
          (repeat' split at h) <;> cases h <;> exact .inl rfl
  | _ =>
      refine .inl ?_
      simp only [readerStep, Reader.receive, Reader.rejectTooLarge, Reader.receiveWsPing,
        Reader.message, Reader.idleProbe, Reader.exit, routeFrame, creditSession] at h
      (repeat' split at h) <;> first
        | contradiction
        | cases h
          rfl

/-- What the reader does next follows from what it received or was doing. -/
theorem reader_pc {cfg : MuxConfig} {a : ReaderAct} {sh sh' : Shared} {r r' : Reader}
    (h : readerStep cfg a sh r = some (sh', r')) :
    (∀ f, r'.pc = .dispatch f → a = .receive f) ∧
    (∀ id, r'.pc = .reject id → ∃ f, r.pc = .dispatch f ∧ workerKey f = some id) ∧
    (∀ last status next, r'.pc = .goAway last status next →
      a = .receive (.goAway last status) ∨ ∃ n, r.pc = .goAway last status n) := by
  cases a with
  | receive frame =>
      simp only [readerStep, Reader.receive] at h
      split at h
      · next hidle =>
          cases frame <;> simp only [routeFrame, creditSession] at h <;>
            (repeat' split at h) <;> cases h <;> simp_all
      · contradiction
  | step =>
      simp only [readerStep, Reader.step] at h
      cases hpc : r.pc with
      | dispatch f =>
          simp only [hpc] at h
          split at h
          · contradiction
          · next id hkey =>
              split at h
              · cases h
                simp
              · split at h <;> cases h
                · simp_all [workerKey]
                · simp
      | _ =>
          simp only [hpc] at h
          (repeat' split at h) <;> cases h <;> simp
  | _ =>
      simp only [readerStep, Reader.rejectTooLarge, Reader.receiveWsPing, Reader.message,
        Reader.idleProbe, Reader.exit] at h
      split at h
      · cases h
        simp_all
      · contradiction

/-- Every frame received is recorded, and nothing else. -/
theorem reader_routed {cfg : MuxConfig} {a : ReaderAct} {sh sh' : Shared} {r r' : Reader}
    (h : readerStep cfg a sh r = some (sh', r')) :
    sh'.history.routed = sh.history.routed ++
      match a with
      | .receive frame => [frame]
      | _ => [] := by
  cases a with
  | receive frame =>
      simp only [readerStep, Reader.receive] at h
      split at h
      · cases frame <;> simp only [routeFrame, creditSession] at h <;>
          (repeat' split at h) <;> cases h <;> rfl
      · contradiction
  | step =>
      simp only [readerStep, Reader.step] at h
      (repeat' split at h) <;> first
        | contradiction
        | cases h
          simp [Shared.setFrames, Shared.setReg, Shared.setCloseReg, Shared.sendControl]
  | _ =>
      simp only [readerStep, Reader.rejectTooLarge, Reader.receiveWsPing, Reader.message,
        Reader.idleProbe, Reader.exit] at h
      split at h
      · cases h
        simp [Shared.sendControl]
      · contradiction

theorem WorkerMove.frames_queue {cfg : MuxConfig} {order : List StreamId} {w : Shard}
    {k k' : Worker} {sh sh' : Shared} (h : WorkerMove cfg order w k sh k' sh') :
    (∀ v, (sh'.frames v).queue = (sh.frames v).queue) ∨
    (∃ f rest, (sh.frames w).queue = f :: rest ∧
      ∀ v, (sh'.frames v).queue = if v = w then rest else (sh.frames v).queue) ∨
    (k.pc = .exiting ∧
      ∀ v, (sh'.frames v).queue = if v = w then [] else (sh.frames v).queue) := by
  cases h with
  | takeClose pc hpc hfrom hrecv happly =>
      have hcall := applyRegistration_callFootprint happly
      exact .inl fun v => by rw [hcall.frames]; rfl
  | takeReg pc hpc hfrom hrecv happly =>
      have hcall := applyRegistration_callFootprint happly
      exact .inl fun v => by rw [hcall.frames]; rfl
  | @takeFrame frame c hpc hrecv =>
      have hcall := dispatch_callFootprint cfg.initialWindowSize frame
        { k with pc := .drainClose } (sh.setFrames w c)
      refine .inr (.inl ⟨frame, c.queue, Chan.recv_eq_some hrecv, fun v => ?_⟩)
      rw [hcall.frames]
      by_cases hv : v = w
      · subst hv
        simp [Shared.setFrames]
      · simp [Shared.setFrames, hv]
  | move pc hfrom hto => exact .inl fun _ => rfl
  | shutdown hpc =>
      have hcall := closeAll_callFootprint k sh
      exact .inl fun v => by rw [hcall.frames]
  | exit hpc =>
      have hcall := foldl_dropTx_callFootprint (queuedSenders (sh.reg w).queue) sh
      refine .inr (.inr ⟨hpc, fun v => ?_⟩)
      by_cases hv : v = w
      · subst hv
        simp [dropReceivers, Shared.setReg, Shared.setCloseReg, Shared.setFrames]
      · simp [dropReceivers, Shared.setReg, Shared.setCloseReg, Shared.setFrames, hv,
          hcall.frames]

/-- In particular it adds nothing. -/
theorem WorkerMove.frames_subset {cfg : MuxConfig} {order : List StreamId} {w : Shard}
    {k k' : Worker} {sh sh' : Shared} (h : WorkerMove cfg order w k sh k' sh') (v : Shard) :
    ∀ f ∈ (sh'.frames v).queue, f ∈ (sh.frames v).queue := by
  intro f hf
  rcases h.frames_queue with hq | ⟨g, rest, hhead, hq⟩ | ⟨-, hq⟩ <;> rw [hq] at hf
  · exact hf
  · split at hf
    · next hv =>
        rw [hv, hhead]
        exact List.mem_cons_of_mem _ hf
    · exact hf
  · split at hf
    · simp at hf
    · exact hf

/-- Every frame in a worker's queue is keyed by a stream of its shard. -/
def FramesSharded (s : MuxState) : Prop :=
  ∀ w, ∀ f ∈ (s.shared.frames w).queue, ∀ id, workerKey f = some id → shardOf id = w

theorem step_framesSharded {cfg : MuxConfig} {s s' : MuxState} {a : Act}
    (hI : FramesSharded s) (h : step cfg s a = some s') : FramesSharded s' := by
  obtain ⟨p, c, sh, pr, rfl, hc, rfl⟩ | ⟨p, sh, pr, z, rfl, -, -, hb, rfl⟩ |
    ⟨z, sh, pr, z', rfl, hz, hr, rfl⟩ | ⟨c, sh, r, rfl, hr, rfl⟩ |
    ⟨w, order, k, sh, rfl, hw, rfl⟩ | ⟨c, sh, wr, rfl, hw, rfl⟩ | ⟨rfl, rfl⟩ := step_cases h
  · unfold FramesSharded
    rw [(client_footprint hc).frames]
    exact hI
  · unfold FramesSharded
    rw [(realizeBegin_footprint hb).frames]
    exact hI
  · unfold FramesSharded
    rw [(realizeStep_footprint hr).frames]
    exact hI
  · rcases reader_frames hr with hsame | ⟨f, id, c, -, -, hkey, -, hsend, hq⟩
    · unfold FramesSharded
      rw [hsame]
      exact hI
    · intro w g hg i hi
      simp only [hq] at hg
      by_cases hw : w = shardOf id
      · subst hw
        rw [Function.update_self, Chan.trySend_queue hsend, List.mem_append] at hg
        rcases hg with hg | hg
        · exact hI _ g hg i hi
        · rw [List.mem_singleton.1 hg, hkey] at hi
          rw [Option.some.inj hi]
      · rw [Function.update_of_ne hw] at hg
        exact hI w g hg i hi
  · intro v f hf
    exact hI v f ((workerMove_of_step hw).frames_subset v f hf)
  · unfold FramesSharded
    rw [(writer_footprint hw).frames]
    exact hI
  · exact hI

theorem frames_sharded (cfg : MuxConfig) : (mux cfg).Invariant anyStep FramesSharded := by
  apply Invariant.of_step
  · intro w f hf
    simp [mux, MuxState.init, Shared.init] at hf
  · intro s a s' hI _ hs
    exact step_framesSharded hI hs

end KubePortForward.Mux

import KubePortForward.Mux.Routing
import KubePortForward.Mux.Zombies

/-!
# Streams a worker does not know

A worker answers a DATA or SYN_REPLY frame of a stream it does not know with
RST_STREAM INVALID_STREAM.  A stream becomes known when its worker takes the
`Open` registration off its queue, which the loop polls before the frame queue.
The two polls are separate steps, and the registration, the SYN_STREAM, the
peer's answer and its arrival all fit between them.

## Main results

* `opened_registered` — an opened stream that nothing has ended is known to its
  worker or waits in its registration queue.
* `WorkerMove.invalid` — a worker refuses only streams it does not know.
-/

namespace KubePortForward.Mux

open KubePortForward.Codec
open KubePortForward.Verified.Channel
open KubePortForward.Verified.Transition

/-! ## What ends a stream -/

/-- The registration is a close of `x`, or a GOAWAY that refuses it. -/
def StreamRegistration.ends (x : StreamId) : StreamRegistration → Bool
  | .close id => id == x
  | .goAway last _ => decide (last < x)
  | _ => false

/-- The frame resets `x`, or is delivered to a consumer that is gone, whereupon
the worker resets `x` itself. -/
def frameEnds (x : StreamId) (k : Worker) (sh : Shared) : Frame → Bool
  | .rstStream id _ => id == x
  | .data id _ _ =>
      id == x && match (k.streams.lookup id).bind (·.dataTx) with
        | some r => (sh.chans r).chan.closed
        | none => false
  | _ => false

/-- The worker takes a registration or a frame that ends `x`. -/
def workerEnds (x : StreamId) (w : Shard) (k : Worker) (sh : Shared) : Bool :=
  match k.pc with
  | .drainClose => (sh.closeReg w).queue.head?.any (·.ends x)
  | .selectClose => (sh.closeReg w).queue.head?.any (·.ends x)
  | .drainReg => (sh.reg w).queue.head?.any (·.ends x)
  | .selectReg => (sh.reg w).queue.head?.any (·.ends x)
  | .selectFrame => (sh.frames w).queue.head?.any (frameEnds x k sh)
  | _ => false

/-- The step processes a close, a reset or a GOAWAY of `x`. -/
def ends (x : StreamId) (s : MuxState) : Act → Bool
  | .worker w _ => workerEnds x w (s.workers w) s.shared
  | _ => false

theorem removeStream_keeps {x id : StreamId} {k : Worker} (sh : Shared) (hne : id ≠ x)
    (hx : x ∈ k.streams) : x ∈ (removeStream id k sh).1.streams :=
  AList.mem_erase.2 ⟨hne.symm, hx⟩

theorem refuseStreams_keeps {x : StreamId} {ids : List StreamId} {k : Worker} (sh : Shared)
    (hids : x ∉ ids) (hx : x ∈ k.streams) : x ∈ (refuseStreams ids k sh).1.streams := by
  induction ids generalizing k sh with
  | nil => exact hx
  | cons id ids ih =>
      rw [List.mem_cons, not_or] at hids
      rw [refuseStreams]
      exact ih _ hids.2 (removeStream_keeps sh (Ne.symm hids.1) hx)

theorem applyRegistration_keeps {order : List StreamId} {reg : StreamRegistration}
    {k k' : Worker} {sh sh' : Shared} {x : StreamId}
    (h : applyRegistration order reg k sh = some (k', sh')) (hreg : reg.ends x = false)
    (hx : x ∈ k.streams ∨ ∃ r, reg = .openStream x r) : x ∈ k'.streams := by
  unfold applyRegistration at h
  cases reg with
  | openStream id r =>
      cases h
      rw [AList.mem_insert]
      rcases hx with hx | ⟨r', heq⟩
      · exact .inr hx
      · cases heq
        exact .inl rfl
  | close id =>
      cases h
      obtain hx | ⟨r, heq⟩ := hx
      · exact removeStream_keeps sh (by simpa [StreamRegistration.ends] using hreg) hx
      · contradiction
  | settingsWindowDelta delta =>
      cases h
      obtain hx | ⟨r, heq⟩ := hx
      · exact hx
      · contradiction
  | goAway last status =>
      obtain hx | ⟨r, heq⟩ := hx
      · simp only at h
        split at h
        · next hperm =>
            rw [Option.some.injEq] at h
            have hout : x ∉ order := by
              intro hin
              have hbad := (List.mem_filter.1 (hperm.mem_iff.1 hin)).2
              simp only [StreamRegistration.ends] at hreg
              simp [hreg] at hbad
            have hkept := refuseStreams_keeps sh hout hx
            rwa [h] at hkept
        · contradiction
      · contradiction

theorem halfClose_keeps {x id : StreamId} {k : Worker} (sh : Shared) (hx : x ∈ k.streams) :
    x ∈ (halfClose id k sh).1.streams := by
  unfold halfClose
  split
  · exact (AList.mem_insert _).2 (.inr hx)
  · exact hx

theorem deliverPayload_keeps {x id : StreamId} {payload : Bytes} {k : Worker} {sh : Shared}
    (n : UInt32) (fin : Bool) (hends : frameEnds x k sh (.data id payload fin) = false)
    (hx : x ∈ k.streams) : x ∈ (deliverPayload n id payload k sh).1.streams := by
  unfold deliverPayload
  split
  · exact hx
  · cases hst : k.streams.lookup id with
    | none => exact hx
    | some st =>
        cases htx : st.dataTx with
        | none =>
            simp only [htx]
            exact hx
        | some r =>
            simp only [htx]
            split
            · exact (AList.mem_insert _).2 (.inr hx)
            · exact hx
            · next hsend =>
                refine AList.mem_erase.2 ⟨?_, hx⟩
                rintro rfl
                simp only [frameEnds, hst, Option.bind_some, htx, beq_self_eq_true,
                  Bool.true_and] at hends
                rw [Chan.trySend_closed hsend] at hends
                contradiction

theorem dispatch_keeps {x : StreamId} {frame : Frame} {k : Worker} {sh : Shared}
    (n : UInt32) (hends : frameEnds x k sh frame = false) (hx : x ∈ k.streams) :
    x ∈ (dispatchFrameInWorker n frame k sh).1.streams := by
  cases frame with
  | data id payload fin =>
      have hdeliver := deliverPayload_keeps n fin hends hx
      simp only [dispatchFrameInWorker]
      split
      · exact hdeliver
      · split
        · exact halfClose_keeps _ hdeliver
        · exact hdeliver
  | synReply id headers fin =>
      have hanswer : x ∈ (answerReply id k sh).1.streams := by
        unfold answerReply
        (repeat' split) <;> exact hx
      simp only [dispatchFrameInWorker]
      split
      · exact halfClose_keeps _ hanswer
      · exact hanswer
  | rstStream id status =>
      exact removeStream_keeps sh (by simpa [frameEnds] using hends) hx
  | windowUpdate id delta =>
      simp only [dispatchFrameInWorker]
      split <;> exact hx
  | _ => exact hx

/-- A worker keeps a stream that nothing ends, and learns one whose `Open` it
takes. -/
theorem WorkerMove.keeps {cfg : MuxConfig} {order : List StreamId} {w : Shard}
    {k k' : Worker} {sh sh' : Shared} {x : StreamId}
    (h : WorkerMove cfg order w k sh k' sh') (hends : workerEnds x w k sh = false)
    (hx : k.pc.gone = true ∨ x ∈ k.streams ∨ x ∈ openIds (sh.reg w).queue) :
    k'.pc.gone = true ∨ x ∈ k'.streams ∨ x ∈ openIds (sh'.reg w).queue := by
  cases h with
  | takeClose pc hpc hfrom hrecv happly =>
      have hhead := Chan.recv_eq_some hrecv
      rcases hx with hgone | hx | hx
      · rcases hfrom with hfrom | hfrom <;> rw [hfrom] at hgone <;> contradiction
      · refine .inr (.inl (applyRegistration_keeps happly ?_ (.inl hx)))
        rcases hfrom with hfrom | hfrom <;>
          simpa [workerEnds, hfrom, hhead] using hends
      · refine .inr (.inr ?_)
        rw [(applyRegistration_callFootprint happly).reg]
        exact hx
  | @takeReg reg c k' sh' pc hpc hfrom hrecv happly =>
      have hhead := Chan.recv_eq_some hrecv
      have hreg : reg.ends x = false := by
        rcases hfrom with hfrom | hfrom <;>
          simpa [workerEnds, hfrom, hhead] using hends
      rcases hx with hgone | hx | hx
      · rcases hfrom with hfrom | hfrom <;> rw [hfrom] at hgone <;> contradiction
      · exact .inr (.inl (applyRegistration_keeps happly hreg (.inl hx)))
      · obtain ⟨r, hr⟩ := mem_openIds.1 hx
        rw [hhead, List.mem_cons] at hr
        rcases hr with hr | hr
        · exact .inr (.inl (applyRegistration_keeps happly hreg (.inr ⟨r, hr.symm⟩)))
        · refine .inr (.inr (mem_openIds.2 ⟨r, ?_⟩))
          rw [(applyRegistration_callFootprint happly).reg]
          simpa [Shared.setReg] using hr
  | @takeFrame frame c hpc hrecv =>
      have hhead := Chan.recv_eq_some hrecv
      rcases hx with hgone | hx | hx
      · rw [hpc] at hgone
        contradiction
      · have hframe : frameEnds x k sh frame = false := by
          simpa [workerEnds, hpc, hhead] using hends
        refine .inr (.inl (dispatch_keeps _ ?_ hx))
        rw [← hframe]
        cases frame <;> rfl
      · refine .inr (.inr ?_)
        rw [(dispatch_callFootprint _ _ _ _).reg]
        exact hx
  | move pc hfrom hto =>
      rcases hx with hgone | hx | hx
      · cases hpc : k.pc <;> simp_all [WorkerPc.gone]
      · exact .inr (.inl hx)
      · exact .inr (.inr hx)
  | shutdown hpc => exact .inl rfl
  | exit hpc => exact .inl rfl

/-! ## Opened streams -/

/-- The stream is known to its worker, or its `Open` waits there; or the worker
has left its loop. -/
def Enrolled (x : StreamId) (s : MuxState) : Prop :=
  (s.workers (shardOf x)).pc.gone = true ∨ x ∈ (s.workers (shardOf x)).streams ∨
    x ∈ openIds (s.shared.reg (shardOf x)).queue

theorem Enrolled.of_eq {x : StreamId} {s s' : MuxState} (h : Enrolled x s)
    (hworkers : s'.workers = s.workers)
    (hreg : x ∈ openIds (s.shared.reg (shardOf x)).queue →
      x ∈ openIds (s'.shared.reg (shardOf x)).queue) : Enrolled x s' := by
  unfold Enrolled
  rw [hworkers]
  rcases h with h | h | h
  · exact .inl h
  · exact .inr (.inl h)
  · exact .inr (.inr (hreg h))

/-- Another worker leaves the registrations of this one alone. -/
theorem WorkerRegs.other {w v : Shard} {k k' : Worker} {sh sh' : Shared}
    (h : WorkerRegs w k sh k' sh') (hne : v ≠ w) : (sh'.reg v).queue = (sh.reg v).queue := by
  cases h with
  | takeClose reg rest hfrom hqueue hclose hreg hknows hpc => exact hreg v
  | takeReg reg rest hqueue hreg hclose hknows hpc => simpa [hne] using hreg v
  | keep hreg hclose hknows hpc => exact hreg v
  | exit hpc hk hreg hclose => simpa [hne] using hreg v

theorem step_openRegistered {cfg : MuxConfig} {x : StreamId} {s s' : MuxState} {a : Act}
    (h : x ∈ s.shared.history.openLog → Enrolled x s) (hends : ends x s a = false)
    (hs : step cfg s a = some s') :
    x ∈ s'.shared.history.openLog → Enrolled x s' := by
  intro hopen
  obtain ⟨p, c, sh, pr, rfl, hc, rfl⟩ | ⟨p, sh, pr, z, rfl, -, -, hb, rfl⟩ |
    ⟨z, sh, pr, z', rfl, hz, hr, rfl⟩ | ⟨c, sh, r, rfl, hr, rfl⟩ |
    ⟨w, order, k, sh, rfl, hw, rfl⟩ | ⟨c, sh, wr, rfl, hw, rfl⟩ | ⟨rfl, rfl⟩ := step_cases hs
  · have hfoot := client_footprint hc
    rw [hfoot.openLog] at hopen
    exact (h hopen).of_eq rfl (by rw [hfoot.reg]; exact id)
  · rw [(realizeBegin_pair hb).1] at hopen
    exact (h hopen).of_eq rfl (by rw [(realizeBegin_regs hb).1]; exact id)
  · -- The only step that opens a stream enqueues its registration with it.
    have hopens : ∀ id r, EnqueuesOpen s.shared sh id r →
        Enrolled x { s with
          shared := sh, pairs := Function.update s.pairs z.pair pr, realizing := z' } := by
      intro id r henq
      have hlog : x ∈ s.shared.history.openLog ∨ x = id := by
        have hmem : x ∈ s.shared.history.openLog ++ [id] := henq.log ▸ hopen
        simpa using hmem
      rcases hlog with hold | rfl
      · refine (h hold).of_eq rfl fun hin => ?_
        rw [henq.queue, openIds_append, List.mem_append]
        exact .inl hin
      · refine .inr (.inr ?_)
        show x ∈ openIds (sh.reg (shardOf x)).queue
        rw [henq.queue, openIds_append, if_pos rfl]
        exact List.mem_append_right _ (by simp [openIds])
    rcases realizeStep_reg hr with ⟨hreg, hlog⟩ | ⟨-, -, -, henq, -⟩ | ⟨-, -, -, henq, -⟩
    · rw [hlog] at hopen
      exact (h hopen).of_eq rfl (by rw [hreg]; exact id)
    · exact hopens _ _ henq
    · exact hopens _ _ henq
  · rw [(reader_footprint hr).openLog] at hopen
    exact (h hopen).of_eq rfl (by rw [reader_openIds hr]; exact id)
  · have hmove := workerMove_of_step hw
    rw [hmove.footprint.openLog] at hopen
    have hreg := h hopen
    unfold Enrolled at hreg ⊢
    by_cases hv : shardOf x = w
    · subst hv
      simp only [Function.update_self]
      exact hmove.keeps hends hreg
    · simp only [Function.update_of_ne hv]
      rw [hmove.regs.other hv]
      exact hreg
  · have hfoot := writer_footprint hw
    rw [hfoot.openLog] at hopen
    exact (h hopen).of_eq rfl (by rw [hfoot.reg]; exact id)
  · exact (h hopen).of_eq rfl id

theorem opened_registered (cfg : MuxConfig) (x : StreamId) :
    (mux cfg).Invariant (fun s a => ends x s a = false)
      (fun s => x ∈ s.shared.history.openLog → Enrolled x s) := by
  apply Invariant.of_step
  · intro hopen
    simp [mux, MuxState.init, Shared.init] at hopen
  · intro s a s' h hends hs
    exact step_openRegistered h hends hs

/-! ## Refusals -/

/-- The commands that refuse `x` as unknown. -/
def refusals (x : StreamId) (s : MuxState) : Nat :=
  s.shared.control.queue.count (.closeStream x RST_STATUS_INVALID_STREAM)

/-- The command does not refuse `x` as unknown. -/
def NoRefusal (x : StreamId) (c : MuxCommand) : Prop :=
  c ≠ .closeStream x RST_STATUS_INVALID_STREAM

theorem deliverPayload_invalid (x : StreamId) (n : UInt32) (id : StreamId) (payload : Bytes)
    (k : Worker) (sh : Shared) (hx : id = x → x ∈ k.streams) :
    AddsControl sh (deliverPayload n id payload k sh).2.1 (NoRefusal x) := by
  unfold deliverPayload
  split
  · exact .none rfl
  · cases hst : k.streams.lookup id with
    | none =>
        refine .send rfl ?_
        intro heq
        cases heq
        exact AList.lookup_eq_none.1 hst (hx rfl)
    | some st =>
        cases htx : st.dataTx with
        | none =>
            simp only [htx]
            exact .none rfl
        | some r =>
            simp only [htx, creditPeer]
            split
            · (repeat' split) <;> exact .none rfl
            · exact .none rfl
            · refine .send rfl ?_
              intro heq
              injection heq with hid hstatus
              exact absurd hstatus (by decide)

theorem dispatch_invalid (x : StreamId) (n : UInt32) (frame : Frame) (k : Worker)
    (sh : Shared) (hx : workerKey frame = some x → x ∈ k.streams) :
    AddsControl sh (dispatchFrameInWorker n frame k sh).2 (NoRefusal x) := by
  cases frame with
  | data id payload fin =>
      have hdeliver := deliverPayload_invalid x n id payload k sh
        (fun heq => hx (by rw [heq]; rfl))
      simp only [dispatchFrameInWorker]
      split
      · exact hdeliver
      · split
        · exact hdeliver.trans (.none (halfClose_control _ _ _))
        · exact hdeliver
  | synReply id headers fin =>
      have hanswer : AddsControl sh (answerReply id k sh).2 (NoRefusal x) := by
        unfold answerReply
        split
        · exact .none rfl
        · split
          · exact .none rfl
          · next hunknown =>
              refine .send rfl ?_
              intro heq
              cases heq
              exact hunknown (hx rfl)
      simp only [dispatchFrameInWorker]
      split
      · exact hanswer.trans (.none (halfClose_control _ _ _))
      · exact hanswer
  | rstStream id status => exact .none (removeStream_control id k sh)
  | windowUpdate id delta =>
      simp only [dispatchFrameInWorker]
      split <;> exact .none rfl
  | _ => exact .none rfl

theorem refuseStreams_invalid (x : StreamId) (ids : List StreamId) (k : Worker)
    (sh : Shared) : AddsControl sh (refuseStreams ids k sh).2 (NoRefusal x) := by
  induction ids generalizing k sh with
  | nil => exact .none rfl
  | cons id rest ih =>
      have hremove : AddsControl sh (removeStream id k sh).2 (NoRefusal x) :=
        .none (removeStream_control id k sh)
      have hreset : AddsControl (removeStream id k sh).2
          ((removeStream id k sh).2.sendControl (.closeStream id RST_STATUS_CANCEL))
          (NoRefusal x) := by
        refine .send rfl ?_
        intro heq
        injection heq with hid hstatus
        exact absurd hstatus (by decide)
      exact (hremove.trans hreset).trans (ih _ _)

theorem applyRegistration_invalid {order : List StreamId} {reg : StreamRegistration}
    {k k' : Worker} {sh sh' : Shared} (x : StreamId)
    (h : applyRegistration order reg k sh = some (k', sh')) :
    AddsControl sh sh' (NoRefusal x) := by
  unfold applyRegistration at h
  cases reg with
  | openStream id r =>
      cases h
      exact .none (dropTx?_control _ _)
  | close id =>
      cases h
      exact .none (removeStream_control id k sh)
  | settingsWindowDelta delta =>
      cases h
      exact .none rfl
  | goAway last status =>
      simp only at h
      split at h
      · rw [Option.some.injEq] at h
        have hrefuse := refuseStreams_invalid x order k sh
        rwa [h] at hrefuse
      · contradiction

/-- A worker that knows `x` when it takes one of its frames does not refuse it. -/
theorem WorkerMove.invalid {cfg : MuxConfig} {order : List StreamId} {w : Shard}
    {k k' : Worker} {sh sh' : Shared} {x : StreamId}
    (h : WorkerMove cfg order w k sh k' sh')
    (hx : ∀ f, k.pc = .selectFrame → (sh.frames w).queue.head? = some f →
      workerKey f = some x → x ∈ k.streams) :
    AddsControl sh sh' (NoRefusal x) := by
  cases h with
  | takeClose pc hpc hfrom hrecv happly =>
      obtain ⟨added, hq, hP⟩ := applyRegistration_invalid x happly
      exact ⟨added, hq, hP⟩
  | takeReg pc hpc hfrom hrecv happly =>
      obtain ⟨added, hq, hP⟩ := applyRegistration_invalid x happly
      exact ⟨added, hq, hP⟩
  | @takeFrame frame c hpc hrecv =>
      have hhead := Chan.recv_eq_some hrecv
      exact dispatch_invalid x _ frame { k with pc := .drainClose } (sh.setFrames w c)
        (fun hkey => hx frame hpc (by rw [hhead]; rfl) hkey)
  | move pc hfrom hto => exact .none rfl
  | shutdown hpc => exact .none (foldl_dropTx_control _ sh)
  | exit hpc => exact .none (foldl_dropTx_control _ sh)

/-- A worker takes a frame only when no `Open` of that frame's stream waits in
its registration queue. -/
def RegistrationsFirst (s : MuxState) : Act → Prop
  | .worker w _ => (s.workers w).pc = .selectFrame →
      ∀ f ∈ (s.shared.frames w).queue.head?, ∀ id ∈ workerKey f,
        id ∉ openIds (s.shared.reg w).queue
  | _ => True

instance (s : MuxState) (a : Act) : Decidable (RegistrationsFirst s a) := by
  unfold RegistrationsFirst
  induction a using Act.casesOn <;> infer_instance

theorem AddsControl.refusals {s s' : MuxState} {x : StreamId}
    (h : AddsControl s.shared s'.shared (NoRefusal x)) : refusals x s' = refusals x s := by
  obtain ⟨added, hq, hnone⟩ := h
  have hzero : added.count (.closeStream x RST_STATUS_INVALID_STREAM) = 0 :=
    List.count_eq_zero.2 fun hin => hnone _ hin rfl
  simp only [Mux.refusals, hq, List.count_append, hzero, Nat.add_zero]

/-- In every run, whatever the peer sends and when: a worker that takes frames
only once the registrations of their streams are taken never refuses a stream
that was opened and for which no close, reset or GOAWAY was processed. -/
theorem registered_stream_not_refused (cfg : MuxConfig) (x : StreamId) (as : List Act)
    (s s' : MuxState) (w : Shard) (order : List StreamId)
    (hrun : (mux cfg).run (mux cfg).init as = some s)
    (hmeets : (mux cfg).Meets (fun s a => ends x s a = false) (mux cfg).init as)
    (hopen : x ∈ s.shared.history.openLog) (hfirst : RegistrationsFirst s (.worker w order))
    (hs : step cfg s (.worker w order) = some s') : refusals x s' = refusals x s := by
  have hreg : Enrolled x s := opened_registered cfg x as s hrun hmeets hopen
  have hshard : FramesSharded s := frames_sharded cfg as s hrun (meets_anyStep _ as)
  obtain ⟨p, c, sh, pr, heq, -, -⟩ | ⟨p, sh, pr, z, heq, -⟩ | ⟨z, sh, pr, z', heq, -⟩ |
    ⟨c, sh, r, heq, -⟩ | ⟨v, ord, k, sh, heq, hw, rfl⟩ | ⟨c, sh, wr, heq, -⟩ | ⟨heq, -⟩ :=
    step_cases hs
  all_goals first
    | contradiction
    | cases heq
  apply AddsControl.refusals
  refine (workerMove_of_step hw).invalid fun f hpc hhead hkey => ?_
  have hw' : shardOf x = w := hshard w f (List.mem_of_head? hhead) x hkey
  subst hw'
  rcases hreg with hgone | hin | hin
  · rw [hpc] at hgone
    contradiction
  · exact hin
  · exact absurd hin (hfirst hpc f hhead x hkey)

/-- The peer sends frames on a stream only once its SYN_STREAM is on the wire. -/
def peerWaits (s : MuxState) : Act → Bool
  | .reader (.receive f) =>
      (workerKey f).all fun id => s.writer.wire.any fun
        | .synStream i _ _ => i == id
        | _ => false
  | _ => true

/-- Pair 0 is opened, its SYN_STREAMs are written and the peer answers on the data
stream, after worker 3 has made `polls` polls. -/
def answeredActs (polls : Nat) : List Act :=
  startActs ++ List.replicate polls (Act.worker (shardOf 3) []) ++ openActs 0 ++ realizeActs 0 ++
    writeOpenActs ++ [Act.reader (.receive (.data 3 [7] false)), .reader .step]

/-- The worker finds the registration before the frame. -/
def orderedActs : List Act := answeredActs 4 ++ List.replicate 6 (.worker (shardOf 3) [])

theorem registered_stream_not_refused_ordered :
    ∃ s s', (mux .default).run (mux .default).init orderedActs = some s ∧
      step .default s (.worker (shardOf 3) []) = some s' ∧
      (s.shared.frames (shardOf 3)).queue = [.data 3 [7] false] ∧
      (s'.shared.frames (shardOf 3)).queue = [] ∧ refusals 3 s' = refusals 3 s := by
  have hobs : ((mux .default).run (mux .default).init orderedActs).map
      (fun s => ((s.shared.frames (shardOf 3)).queue, s.shared.history.openLog,
        decide (RegistrationsFirst s (.worker (shardOf 3) [])),
        (step .default s (.worker (shardOf 3) [])).map
          fun s' => (s'.shared.frames (shardOf 3)).queue)) =
      some ([.data 3 [7] false], [1, 3], true, some []) := by decide +kernel
  obtain ⟨s, hrun, hs⟩ := Option.map_eq_some_iff.1 hobs
  simp only [Prod.mk.injEq, decide_eq_true_eq] at hs
  obtain ⟨hframes, hlog, hfirst, hnext⟩ := hs
  obtain ⟨s', hstep, hempty⟩ := Option.map_eq_some_iff.1 hnext
  have hmeets : (mux .default).Meets (fun s a => ends 3 s a = false) (mux .default).init
      orderedActs := meets_of_check (by decide +kernel)
  exact ⟨s, s', hrun, hstep, hframes, hempty,
    registered_stream_not_refused .default 3 orderedActs s s' (shardOf 3) [] hrun hmeets
      (by rw [hlog]; decide) hfirst hstep⟩

/-- The worker of stream 3 has just found its registration queue empty and polls
its frames next; by then the stream is registered, opened on the wire and
answered, and the answer is refused. -/
theorem registered_stream_refused :
    ¬ ∀ (cfg : MuxConfig) (x : StreamId) (as : List Act) (s s' : MuxState) (w : Shard)
      (order : List StreamId), (mux cfg).run (mux cfg).init as = some s →
      (mux cfg).Meets (fun s a => peerWaits s a = true) (mux cfg).init as →
      (mux cfg).Meets (fun s a => ends x s a = false) (mux cfg).init as →
      x ∈ s.shared.history.openLog → step cfg s (.worker w order) = some s' →
      refusals x s' = refusals x s := by
  intro hall
  have hobs : ((mux .default).run (mux .default).init (answeredActs 5)).map
      (fun s => (s.shared.history.openLog, refusals 3 s,
        (step .default s (.worker (shardOf 3) [])).map (refusals 3))) =
      some ([1, 3], 0, some 1) := by decide +kernel
  have hpeer : (mux .default).Meets (fun s a => peerWaits s a = true) (mux .default).init
      (answeredActs 5) := meets_of_check (by decide +kernel)
  have hends : (mux .default).Meets (fun s a => ends 3 s a = false) (mux .default).init
      (answeredActs 5) := meets_of_check (by decide +kernel)
  obtain ⟨s, hrun, hs⟩ := Option.map_eq_some_iff.1 hobs
  simp only [Prod.mk.injEq] at hs
  obtain ⟨hlog, hnone, hnext⟩ := hs
  obtain ⟨s', hstep, hone⟩ := Option.map_eq_some_iff.1 hnext
  have hsame := hall .default 3 (answeredActs 5) s s' (shardOf 3) [] hrun hpeer hends
    (by rw [hlog]; decide) hstep
  omega

end KubePortForward.Mux

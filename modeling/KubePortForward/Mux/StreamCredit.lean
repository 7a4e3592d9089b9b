import KubePortForward.Mux.Inbound
import KubePortForward.Mux.SessionCredit
import KubePortForward.Mux.SizeFaults

/-!
# Receive credit of one stream

A DATA frame of stream `x` travels from the peer through the reader and the
queue of a worker into the channel of the stream.  The worker counts the bytes
the channel takes and returns them to the peer once half of the initial window
has accumulated.  A payload that the channel has no room for is dropped and not
counted, and so is a frame the worker's queue has no room for; in the second
case the reader asks for the stream to be reset.

## Main results

* `dispatch_account` — a frame that the stream's channel takes is counted, and
  the count is kept or returned as a whole.
* `stream_credit_conserved` — while `x` is live, nothing of its window is missing,
  provided its channel has room for every payload the worker takes.
-/

namespace KubePortForward.Mux

open KubePortForward.Codec
open KubePortForward.Verified.Channel
open KubePortForward.Verified.Transition

/-! ## The count of a stream -/

/-- `consumed_since_update` of a stream. -/
def Worker.counted (k : Worker) (x : StreamId) : Nat :=
  match k.streams.lookup x with
  | some st => st.consumedSinceUpdate
  | none => 0

theorem Worker.counted_congr {k k' : Worker} {x : StreamId}
    (h : k'.streams.lookup x = k.streams.lookup x) : k'.counted x = k.counted x := by
  unfold Worker.counted
  rw [h]

theorem lookup_erase_ne {m : StreamMap} {x id : StreamId} (h : x ≠ id) :
    (m.erase id).lookup x = m.lookup x :=
  AList.lookup_erase_ne h

theorem removeStream_lookup_ne {x id : StreamId} (k : Worker) (sh : Shared) (h : x ≠ id) :
    (removeStream id k sh).1.streams.lookup x = k.streams.lookup x :=
  lookup_erase_ne h

theorem refuseStreams_lookup (x : StreamId) (ids : List StreamId) (k : Worker) (sh : Shared) :
    (refuseStreams ids k sh).1.streams.lookup x = k.streams.lookup x ∨
      (refuseStreams ids k sh).1.streams.lookup x = none := by
  induction ids generalizing k sh with
  | nil => exact .inl rfl
  | cons id ids ih =>
      rw [refuseStreams]
      rcases ih (removeStream id k sh).1 ((removeStream id k sh).2.sendControl
        (.closeStream id RST_STATUS_CANCEL)) with hsame | hnone
      · rw [hsame]
        by_cases hx : x = id
        · subst hx
          exact .inr (AList.lookup_erase _ _)
        · exact .inl (removeStream_lookup_ne k sh hx)
      · exact .inr hnone

/-- A registration keeps the entry of `x`, removes it, or makes a fresh one. -/
theorem applyRegistration_lookup {order : List StreamId} {reg : StreamRegistration}
    {k k' : Worker} {sh sh' : Shared} (x : StreamId)
    (h : applyRegistration order reg k sh = some (k', sh')) :
    k'.streams.lookup x = k.streams.lookup x ∨ k'.streams.lookup x = none ∨
      ∃ r, reg = .openStream x r ∧
        k'.streams.lookup x = some { dataTx := some r, consumedSinceUpdate := 0 } := by
  unfold applyRegistration at h
  cases reg with
  | openStream id r =>
      cases h
      by_cases hx : x = id
      · subst hx
        exact .inr (.inr ⟨r, rfl, AList.lookup_insert _⟩)
      · exact .inl (AList.lookup_insert_ne hx)
  | close id =>
      cases h
      by_cases hx : x = id
      · subst hx
        exact .inr (.inl (AList.lookup_erase _ _))
      · exact .inl (removeStream_lookup_ne k sh hx)
  | settingsWindowDelta delta =>
      cases h
      exact .inl rfl
  | goAway last status =>
      simp only at h
      split at h
      · rw [Option.some.injEq] at h
        have hlookup := refuseStreams_lookup x order k sh
        rw [h] at hlookup
        rcases hlookup with hsame | hnone
        · exact .inl hsame
        · exact .inr (.inl hnone)
      · contradiction

/-- A half-close changes no count. -/
theorem halfClose_counted (id x : StreamId) (k : Worker) (sh : Shared) :
    (halfClose id k sh).1.counted x = k.counted x := by
  unfold halfClose
  split
  · next st hst =>
      by_cases hx : x = id
      · subst hx
        simp [Worker.counted, hst]
      · exact Worker.counted_congr (AList.lookup_insert_ne hx)
  · rfl

/-! ## Frames -/

theorem creditPeer_account (n : UInt32) (x : StreamId) (consumed : Nat) (sh : Shared)
    (hfit : consumed < 2 ^ 32) :
    (creditPeer n x consumed sh).1 + queuedGrants x (creditPeer n x consumed sh).2 =
      consumed + queuedGrants x sh := by
  unfold creditPeer
  split
  · split
    · next hsend =>
        simp only [queuedGrants, Chan.trySend_queue hsend, List.map_append, List.map_cons,
          List.map_nil, List.sum_append, List.sum_singleton, MuxCommand.grant, if_true]
        rw [UInt32.toNat_ofNat_of_lt' hfit]
        omega
    · rfl
  · rfl

/-- A payload of another stream leaves the account of `x` alone. -/
theorem deliverPayload_counted_ne {x id : StreamId} (n : UInt32) (payload : Bytes) (k : Worker)
    (sh : Shared) (hne : x ≠ id) :
    (deliverPayload n id payload k sh).1.counted x = k.counted x ∧
      queuedGrants x (deliverPayload n id payload k sh).2.1 = queuedGrants x sh := by
  constructor
  · apply Worker.counted_congr
    unfold deliverPayload
    split
    · rfl
    · cases hst : k.streams.lookup id with
      | none => rfl
      | some st =>
          simp only
          (repeat' split)
          · rfl
          · exact AList.lookup_insert_ne hne
          · rfl
          · exact AList.lookup_erase_ne hne
  · unfold queuedGrants
    rcases deliverPayload_window n id payload k sh with hq | ⟨-, m, hq⟩
    · rw [hq]
    · rw [hq, List.map_append, List.sum_append]
      simp [MuxCommand.grant, hne.symm]

/-- The channel of `x`, if the worker has a sender for it, does not turn a payload
away for want of room. -/
def TakesPayload (x : StreamId) (k : Worker) (sh : Shared) : Prop :=
  ∃ r, k.sender x = some r ∧ ((sh.chans r).chan.closed = true ∨ (sh.chans r).chan.HasRoom)

instance (x : StreamId) (k : Worker) (sh : Shared) : Decidable (TakesPayload x k sh) :=
  inferInstanceAs (Decidable (∃ r ∈ k.sender x,
    (sh.chans r).chan.closed = true ∨ (sh.chans r).chan.HasRoom))

/-- A payload that the channel takes is counted; a consumer that is gone costs the
stream its entry. -/
theorem deliverPayload_account {x : StreamId} (n : UInt32) (payload : Bytes) (k : Worker)
    (sh : Shared) (hne : payload ≠ []) (htakes : TakesPayload x k sh)
    (hfit : k.counted x + payload.length < 2 ^ 32) :
    (deliverPayload n x payload k sh).1.streams.lookup x = none ∨
      (deliverPayload n x payload k sh).1.counted x +
          queuedGrants x (deliverPayload n x payload k sh).2.1 =
        k.counted x + payload.length + queuedGrants x sh := by
  obtain ⟨r, hsender, hroom⟩ := htakes
  unfold Worker.sender at hsender
  cases hst : k.streams.lookup x with
  | none =>
      rw [hst] at hsender
      contradiction
  | some st =>
      have htx : st.dataTx = some r := by
        rw [hst] at hsender
        exact hsender
      have hcounted : k.counted x = st.consumedSinceUpdate := by
        simp [Worker.counted, hst]
      have hempty : payload.isEmpty = false := by
        cases payload with
        | nil => exact absurd rfl hne
        | cons b bs => rfl
      simp only [deliverPayload, hempty, Bool.false_eq_true, if_false, hst, htx]
      cases hsend : (sh.chans r).chan.trySend payload with
      | ok c =>
          refine .inr ?_
          have haccount := creditPeer_account n x (st.consumedSinceUpdate + payload.length)
            (sh.updChan r fun d =>
              { d with chan := c, delivered := d.delivered ++ [payload] })
            (by rw [← hcounted]; exact hfit)
          rw [hcounted]
          simpa [Worker.counted, queuedGrants, Shared.updChan] using haccount
      | error e =>
          cases e with
          | closed => exact .inl (AList.lookup_erase _ _)
          | full =>
              rcases hroom with hclosed | hroom
              · simp [Chan.trySend, hclosed] at hsend
              · exact absurd hroom (Chan.trySend_full hsend)

theorem answerReply_streams (id : StreamId) (k : Worker) (sh : Shared) :
    (answerReply id k sh).1.streams = k.streams := by
  unfold answerReply
  (repeat' split) <;> rfl

theorem answerReply_window (id : StreamId) (k : Worker) (sh : Shared) :
    (answerReply id k sh).2.window = sh.window := by
  unfold answerReply
  (repeat' split) <;> rfl

/-- A frame leaves the account of `x` balanced, or ends what the worker knew of
it. -/
theorem dispatch_account {x : StreamId} (n : UInt32) (f : Frame) (k : Worker) (sh : Shared)
    (hx : x ≠ 0) (htakes : 0 < dataBytes x f → TakesPayload x k sh)
    (hfit : k.counted x + dataBytes x f < 2 ^ 32) :
    (x ∈ k.streams ∧ (dispatchFrameInWorker n f k sh).1.sender x = none) ∨
      (dispatchFrameInWorker n f k sh).1.counted x +
          queuedGrants x (dispatchFrameInWorker n f k sh).2 =
        k.counted x + dataBytes x f + queuedGrants x sh := by
  have hquiet : ∀ (k' : Worker) (sh' : Shared), k'.counted x = k.counted x →
      sh'.window = sh.window → dataBytes x f = 0 →
      k'.counted x + queuedGrants x sh' = k.counted x + dataBytes x f + queuedGrants x sh := by
    intro k' sh' hk hsh hzero
    simp only [queuedGrants, hk, hsh, hzero, Nat.add_zero]
  cases f with
  | data id payload fin =>
      -- The half-close that may follow changes neither the count nor the channel.
      have hfin : ∀ k' sh', (if fin = true then halfClose id k' sh' else (k', sh')).1.counted x =
          k'.counted x ∧ queuedGrants x (if fin = true then halfClose id k' sh'
            else (k', sh')).2 = queuedGrants x sh' := by
        intro k' sh'
        split
        · exact ⟨halfClose_counted id x k' sh', by
            simp only [queuedGrants, halfClose_window]⟩
        · exact ⟨rfl, rfl⟩
      by_cases hid : id = x
      · subst hid
        cases payload with
        | nil =>
            refine .inr (hquiet _ _ ?_ ?_ (by simp [dataBytes]))
            · simp only [dispatchFrameInWorker, deliverPayload, List.isEmpty_nil, if_true,
                Bool.false_eq_true, if_false]
              exact (hfin k sh).1
            · simp only [dispatchFrameInWorker, deliverPayload, List.isEmpty_nil, if_true,
                Bool.false_eq_true, if_false]
              split
              · exact halfClose_window _ _ _
              · rfl
        | cons b bs =>
            have hbytes : dataBytes id (.data id (b :: bs) fin) = (b :: bs).length := by
              simp [dataBytes]
            rw [hbytes] at htakes hfit ⊢
            have hT := htakes (by simp)
            have hdeliver := deliverPayload_account n (b :: bs) k sh (by simp) hT hfit
            simp only [dispatchFrameInWorker]
            rcases hdeliver with hnone | haccount
            · left
              obtain ⟨r, hsender, -⟩ := hT
              refine ⟨?_, ?_⟩
              · unfold Worker.sender at hsender
                apply AList.lookup_isSome.1
                cases hst : k.streams.lookup id with
                | none =>
                    rw [hst] at hsender
                    contradiction
                | some st => rfl
              · split
                · simp [Worker.sender, hnone]
                · split
                  · exact (halfClose_drops _ _ _).self
                  · simp [Worker.sender, hnone]
            · right
              split
              · exact haccount
              · obtain ⟨hk, hg⟩ := hfin (deliverPayload n id (b :: bs) k sh).1
                  (deliverPayload n id (b :: bs) k sh).2.1
                rw [hk, hg]
                exact haccount
      · have hzero : dataBytes x (.data id payload fin) = 0 := by
          simp [dataBytes, hx, hid]
        obtain ⟨hcount, hgrant⟩ := deliverPayload_counted_ne n payload k sh (Ne.symm hid)
        right
        rw [hzero, Nat.add_zero]
        simp only [dispatchFrameInWorker]
        split
        · rw [hcount, hgrant]
        · obtain ⟨hk, hg⟩ := hfin (deliverPayload n id payload k sh).1
            (deliverPayload n id payload k sh).2.1
          rw [hk, hg, hcount, hgrant]
  | synReply id headers fin =>
      have hanswer : (answerReply id k sh).1.counted x = k.counted x :=
        Worker.counted_congr (by rw [answerReply_streams])
      refine .inr (hquiet _ _ ?_ ?_ rfl)
      · simp only [dispatchFrameInWorker]
        split
        · rw [halfClose_counted, hanswer]
        · exact hanswer
      · simp only [dispatchFrameInWorker]
        split
        · rw [halfClose_window, answerReply_window]
        · exact answerReply_window _ _ _
  | rstStream id status =>
      by_cases hid : x = id
      · subst hid
        have hnone : (removeStream x k sh).1.streams.lookup x = none := AList.lookup_erase _ _
        by_cases hknown : x ∈ k.streams
        · exact .inl ⟨hknown, by simp [dispatchFrameInWorker, Worker.sender, hnone]⟩
        · refine .inr (hquiet _ _ ?_ (removeStream_window _ _ _) rfl)
          apply Worker.counted_congr
          rw [dispatchFrameInWorker, hnone, AList.lookup_eq_none.2 hknown]
      · exact .inr (hquiet _ _ (Worker.counted_congr (removeStream_lookup_ne k sh hid))
          (removeStream_window _ _ _) rfl)
  | windowUpdate id delta =>
      refine .inr (hquiet _ _ ?_ ?_ rfl) <;> simp only [dispatchFrameInWorker] <;> split <;> rfl
  | _ => exact .inr (hquiet _ _ rfl rfl rfl)

/-! ## Streams that are live -/

/-- Stream `x` may still receive: it was not registered yet, waits for its worker
or has a sender there, and the worker is in its loop. -/
def Live (x : StreamId) (s : MuxState) : Prop :=
  (s.workers (shardOf x)).pc.gone = false ∧
    (x ∉ s.shared.history.openLog ∨ CanReceive x s)

instance (x : StreamId) (s : MuxState) : Decidable (Live x s) := by
  unfold Live
  infer_instance

theorem canReceive_iff {x : StreamId} {s : MuxState} :
    CanReceive x s ↔ ∃ r, Registered s x r := by
  unfold CanReceive Registered
  constructor
  · rintro (hs | hq)
    · obtain ⟨r, hr⟩ := Option.ne_none_iff_exists'.1 hs
      exact ⟨r, .inl hr⟩
    · obtain ⟨r, hr⟩ := mem_openIds.1 hq
      exact ⟨r, .inr hr⟩
  · rintro ⟨r, hr⟩
    exact Registered.canReceive hr

/-- A worker that has left its loop stays out of it. -/
theorem WorkerMove.gone {cfg : MuxConfig} {order : List StreamId} {w : Shard}
    {k k' : Worker} {sh sh' : Shared} (h : WorkerMove cfg order w k sh k' sh')
    (hgone : k.pc.gone = true) : k'.pc.gone = true := by
  cases h with
  | takeClose pc hpc hfrom hrecv happly =>
      rcases hfrom with hfrom | hfrom <;> rw [hfrom] at hgone <;> contradiction
  | takeReg pc hpc hfrom hrecv happly =>
      rcases hfrom with hfrom | hfrom <;> rw [hfrom] at hgone <;> contradiction
  | takeFrame hpc hrecv =>
      rw [hpc] at hgone
      contradiction
  | move pc hfrom hto => cases hpc : k.pc <;> simp_all [WorkerPc.gone]
  | shutdown hpc => rfl
  | exit hpc => rfl

theorem step_gone {cfg : MuxConfig} {s s' : MuxState} {a : Act} (v : Shard)
    (h : step cfg s a = some s') (hgone : (s.workers v).pc.gone = true) :
    (s'.workers v).pc.gone = true := by
  obtain ⟨p, c, sh, pr, rfl, hc, rfl⟩ | ⟨p, sh, pr, z, rfl, -, -, hb, rfl⟩ |
    ⟨z, sh, pr, z', rfl, hz, hr, rfl⟩ | ⟨c, sh, r, rfl, hr, rfl⟩ |
    ⟨w, order, k, sh, rfl, hw, rfl⟩ | ⟨c, sh, wr, rfl, hw, rfl⟩ | ⟨rfl, rfl⟩ := step_cases h
  case inr.inr.inr.inr.inl =>
    by_cases hv : v = w
    · subst hv
      simp only [Function.update_self]
      exact (workerMove_of_step hw).gone hgone
    · simp only [Function.update_of_ne hv]
      exact hgone
  all_goals exact hgone

/-- A stream that is live was live before. -/
theorem Live.back {cfg : MuxConfig} {x : StreamId} {s s' : MuxState} {a : Act}
    (hS : Sound s) (h : Live x s') (hs : step cfg s a = some s') : Live x s := by
  obtain ⟨hgone, hlive⟩ := h
  constructor
  · cases hg : (s.workers (shardOf x)).pc.gone with
    | false => rfl
    | true => exact absurd (step_gone _ hs hg) (by rw [hgone]; simp)
  · rcases hlive with hnew | hcan
    · exact .inl fun hin => hnew (step_openLog hs hin)
    · obtain ⟨r, hr⟩ := canReceive_iff.1 hcan
      rcases step_registered hS.wellformed.ownership hS.wellformed.registrations hs hr with
        hold | ⟨-, hnew⟩
      · exact .inr (canReceive_iff.2 ⟨r, hold⟩)
      · exact .inl hnew

/-! ## Streams that are being reset -/

/-- A reset of `x` is about to be asked for, asked for, being written or
written. -/
def Resetting (x : StreamId) (s : MuxState) : Prop :=
  s.reader.pc = .reject x ∨ (∃ c ∈ s.shared.control.queue, c.closes x = true) ∨
    (∃ p ∈ s.writer.out, ∃ status, p.frame = .rstStream x status) ∨
    ∃ status, Outgoing.rstStream x status ∈ s.writer.wire

/-- Nobody but the writer takes commands off the control channel. -/
theorem step_control {cfg : MuxConfig} {s s' : MuxState} {a : Act}
    (h : step cfg s a = some s') (hother : ∀ c, a ≠ .writer c) :
    s'.writer = s.writer ∧ ∀ c ∈ s.shared.control.queue, c ∈ s'.shared.control.queue := by
  have hadd : ∀ {q q' added : List MuxCommand}, q' = q ++ added → ∀ c ∈ q, c ∈ q' := by
    rintro q q' added rfl c hc
    exact List.mem_append_left _ hc
  obtain ⟨p, c, sh, pr, rfl, hc, rfl⟩ | ⟨p, sh, pr, z, rfl, -, -, hb, rfl⟩ |
    ⟨z, sh, pr, z', rfl, hz, hr, rfl⟩ | ⟨c, sh, r, rfl, hr, rfl⟩ |
    ⟨w, order, k, sh, rfl, hw, rfl⟩ | ⟨c, sh, wr, rfl, hw, rfl⟩ | ⟨rfl, rfl⟩ := step_cases h
  · refine ⟨rfl, ?_⟩
    rcases client_control hc with hq | ⟨-, -, -, -, hq⟩
    · rw [hq]
      exact fun _ h => h
    · exact hadd hq
  · refine ⟨rfl, ?_⟩
    rcases (realizeBegin_writer hb).2 with hq | ⟨last, hq⟩
    · rw [hq]
      exact fun _ h => h
    · exact hadd hq
  · refine ⟨rfl, ?_⟩
    rw [(realizeStep_writer hr).1]
    exact fun _ h => h
  · refine ⟨rfl, ?_⟩
    rcases reader_control hr with hq | ⟨d, hq, -⟩
    · rw [hq]
      exact fun _ h => h
    · exact hadd hq
  · obtain ⟨added, hq, -⟩ := (workerMove_of_step hw).control
    exact ⟨rfl, hadd hq⟩
  · exact absurd rfl (hother c)
  · exact ⟨rfl, fun _ h => h⟩

/-- A writer in its loop carries a reset through to the wire. -/
theorem WriterMove.resetting {x : StreamId} {s : MuxState} {sh : Shared} {wr : Writer}
    (h : WriterMove s.shared s.writer sh wr) (hR : Resetting x s)
    (hlive : wr.pc.leaving = false) :
    Resetting x { s with shared := sh, writer := wr } := by
  rcases hR with hpc | ⟨c, hc, hclose⟩ | ⟨p, hp, status, hframe⟩ | ⟨status, hwire⟩
  · exact .inl hpc
  · cases h with
    | takeControl hout hsame hl hpc hrecv hpolls =>
        rw [Chan.recv_eq_some hrecv, List.mem_cons] at hc
        rcases hc with rfl | hc
        · refine .inr (.inr (.inl ?_))
          cases c with
          | closeStream id st =>
              have hid : id = x := by simpa [MuxCommand.closes] using hclose
              subst hid
              exact ⟨_, List.mem_cons_self, st, rfl⟩
          | _ => contradiction
        · exact .inr (.inl ⟨c, hc, hclose⟩)
    | sendClose hout hpc hsend =>
        unfold Shared.sendClose at hsend
        split at hsend <;> cases hsend
        exact .inr (.inl ⟨c, hc, hclose⟩)
    | exit hout hpc => contradiction
    | _ => exact .inr (.inl ⟨c, hc, hclose⟩)
  · cases h with
    | emit hout =>
        rw [hout, List.mem_cons] at hp
        rcases hp with rfl | hp
        · exact .inr (.inr (.inr ⟨status, List.mem_append_right _ (by simp [hframe])⟩))
        · exact .inr (.inr (.inl ⟨p, hp, status, hframe⟩))
    | fail => contradiction
    | _ =>
        rename_i hout
        simp_all
  · have hgrows := h.wire
    exact .inr (.inr (.inr ⟨status, hgrows.subset hwire⟩))

/-- A reset that is under way stays so while the writer is in its loop, provided
the reader gets its command into the control channel. -/
theorem step_resetting {cfg : MuxConfig} {x : StreamId} {s s' : MuxState} {a : Act}
    (hR : Resetting x s) (h : step cfg s a = some s') (hlive : s'.writer.pc.leaving = false)
    (hasks : a = .reader .step → s.reader.pc = .reject x → s.shared.control.Accepts) :
    Resetting x s' := by
  by_cases hwriter : ∃ c, a = .writer c
  · obtain ⟨c, rfl⟩ := hwriter
    obtain ⟨p, c, sh, pr, heq, -, -⟩ | ⟨p, sh, pr, z, heq, -⟩ | ⟨z, sh, pr, z', heq, -⟩ |
      ⟨c, sh, r, heq, -⟩ | ⟨w, order, k, sh, heq, -⟩ | ⟨c, sh, wr, -, hw, rfl⟩ | ⟨heq, -⟩ :=
      step_cases h
    all_goals first
      | contradiction
      | exact (writerMove_of_step hw).resetting hR hlive
  · have hother : ∀ c, a ≠ .writer c := fun c heq => hwriter ⟨c, heq⟩
    obtain ⟨hsame, hqueue⟩ := step_control h hother
    rcases hR with hpc | ⟨c, hc, hclose⟩ | hout | hwire
    · by_cases hreader : ∃ c, a = .reader c
      · obtain ⟨c, rfl⟩ := hreader
        obtain ⟨p, c, sh, pr, heq, -, -⟩ | ⟨p, sh, pr, z, heq, -⟩ |
          ⟨z, sh, pr, z', heq, -⟩ | ⟨c', sh, r, heq, hr, rfl⟩ |
          ⟨w, order, k, sh, heq, -⟩ | ⟨c, sh, wr, heq, -⟩ | ⟨heq, -⟩ := step_cases h
        all_goals first
          | contradiction
          | cases heq
        cases c with
        | step =>
            obtain ⟨hopen, hroom⟩ := hasks rfl hpc
            simp only [readerStep, Reader.step, hpc] at hr
            cases hr
            refine .inr (.inl ⟨.closeStream x RST_STATUS_FLOW_CONTROL, ?_, by
              simp [MuxCommand.closes]⟩)
            simp only [Shared.sendControl, Chan.sendOrDrop_of_room _ hopen hroom]
            exact List.mem_append_right _ List.mem_cons_self
        | _ =>
            simp [readerStep, Reader.receive, Reader.rejectTooLarge, Reader.receiveWsPing,
              Reader.message, Reader.idleProbe, Reader.exit, hpc] at hr
      · refine .inl ?_
        obtain ⟨p, c, sh, pr, rfl, hc, rfl⟩ | ⟨p, sh, pr, z, rfl, -, -, hb, rfl⟩ |
          ⟨z, sh, pr, z', rfl, hz, hr, rfl⟩ | ⟨c, sh, r, rfl, hr, rfl⟩ |
          ⟨w, order, k, sh, rfl, hw, rfl⟩ | ⟨c, sh, wr, rfl, hw, rfl⟩ | ⟨rfl, rfl⟩ :=
          step_cases h
        case neg.inr.inr.inr.inl => exact absurd ⟨c, rfl⟩ hreader
        all_goals exact hpc
    · exact .inr (.inl ⟨c, hqueue c hc, hclose⟩)
    · exact .inr (.inr (.inl (by rw [hsame]; exact hout)))
    · exact .inr (.inr (.inr (by rw [hsame]; exact hwire)))

/-! ## The account of a live stream -/

/-- Everything that ever was the peer's credit for `x`, by where it is now. -/
def streamAccount (x : StreamId) (s : Peered) : Nat :=
  s.credit + (s.inbound.map (dataBytes x)).sum +
    ((inFlight (shardOf x) s.mux).map (dataBytes x)).sum +
    (s.mux.workers (shardOf x)).counted x + s.returning x

/-- While `x` is live, the worker finds it registered and its channel with room
whenever it takes one of its payloads, and the reader can ask for its reset if the
worker's queue has no room. -/
def WindowKept (x : StreamId) (s : Peered) : PeerAct → Prop
  | .mux (.reader .step) =>
      Live x s.mux → s.mux.reader.pc = .reject x → s.mux.shared.control.Accepts
  | .mux (.worker w _) =>
      Live x s.mux → w = shardOf x → (s.mux.workers w).pc = .selectFrame →
        ∀ f ∈ (s.mux.shared.frames w).queue.head?, 0 < dataBytes x f →
          TakesPayload x (s.mux.workers w) s.mux.shared
  | _ => True

instance (x : StreamId) (s : Peered) (a : PeerAct) : Decidable (WindowKept x s a) := by
  unfold WindowKept
  split <;> infer_instance

/-- What a move of its own worker does to the account of a live stream. -/
theorem WorkerMove.account {cfg : MuxConfig} {order : List StreamId} {x : StreamId}
    {k k' : Worker} {sh sh' : Shared}
    (h : WorkerMove cfg order (shardOf x) k sh k' sh') (hx : x ≠ 0)
    (hqueued : x ∈ openIds (sh.reg (shardOf x)).queue → x ∉ k.streams)
    (hgone : k'.pc.gone = false)
    (hlive : x ∈ k.streams → k'.sender x ≠ none)
    (hclosing : ∀ r, .openStream x r ∉ (sh.closeReg (shardOf x)).queue)
    (htakes : k.pc = .selectFrame → ∀ f ∈ (sh.frames (shardOf x)).queue.head?,
      0 < dataBytes x f → TakesPayload x k sh)
    (hfit : k.counted x + ((sh.frames (shardOf x)).queue.map (dataBytes x)).sum < 2 ^ 32) :
    k'.counted x + ((sh'.frames (shardOf x)).queue.map (dataBytes x)).sum +
        queuedGrants x sh' =
      k.counted x + ((sh.frames (shardOf x)).queue.map (dataBytes x)).sum +
        queuedGrants x sh := by
  -- A registration: the entry is kept, or fresh, or was not there before either.
  have hreg : ∀ {reg : StreamRegistration} {k₀ : Worker} {sh₀ : Shared},
      applyRegistration order reg k₀ sh₀ = some (k', sh') → k₀.streams = k.streams →
      (∀ r, reg = .openStream x r → x ∉ k.streams) → k'.counted x = k.counted x := by
    intro reg k₀ sh₀ happly hstreams hnew
    have hlookup := applyRegistration_lookup x happly
    rw [hstreams] at hlookup
    rcases hlookup with hsame | hnone | ⟨r, heq, hfresh⟩
    · exact Worker.counted_congr hsame
    · by_cases hin : x ∈ k.streams
      · exact absurd (by simp [Worker.sender, hnone]) (hlive hin)
      · exact Worker.counted_congr (hnone.trans (AList.lookup_eq_none.2 hin).symm)
    · have hnone := AList.lookup_eq_none.2 (hnew r heq)
      simp [Worker.counted, hfresh, hnone]
  cases h with
  | takeClose pc hpc hfrom hrecv happly =>
      have hhead := Chan.recv_eq_some hrecv
      have hcount := hreg happly rfl fun r heq =>
        absurd (by rw [hhead, heq]; exact List.mem_cons_self) (hclosing r)
      simp only [queuedGrants, hcount, applyRegistration_window happly,
        (applyRegistration_callFootprint happly).frames]
      rfl
  | takeReg pc hpc hfrom hrecv happly =>
      have hhead := Chan.recv_eq_some hrecv
      have hcount := hreg happly rfl fun r heq =>
        hqueued (mem_openIds.2 ⟨r, by rw [hhead, heq]; exact List.mem_cons_self⟩)
      simp only [queuedGrants, hcount, applyRegistration_window happly,
        (applyRegistration_callFootprint happly).frames]
      rfl
  | @takeFrame f c hpc hrecv =>
      have hhead := Chan.recv_eq_some hrecv
      have hqueue : (((dispatchFrameInWorker cfg.initialWindowSize f
          { k with pc := .drainClose } (sh.setFrames (shardOf x) c)).2.frames
            (shardOf x)).queue = c.queue) := by
        rw [(dispatch_callFootprint _ _ _ _).frames]
        simp [Shared.setFrames]
      rw [hhead, List.map_cons, List.sum_cons] at hfit
      have hdispatch := dispatch_account cfg.initialWindowSize f { k with pc := .drainClose }
        (sh.setFrames (shardOf x) c) hx
        (fun hpos => htakes hpc f (by rw [hhead]; rfl) hpos)
        (show k.counted x + dataBytes x f < 2 ^ 32 by omega)
      rcases hdispatch with ⟨hin, hnone⟩ | hcount
      · exact absurd hnone (hlive hin)
      · rw [hqueue, hhead, List.map_cons, List.sum_cons]
        have hcount' : _ = k.counted x + dataBytes x f + queuedGrants x sh := hcount
        omega
  | move pc hfrom hto => rfl
  | shutdown hpc => contradiction
  | exit hpc => contradiction

/-- Credit of other windows does not touch that of `x`. -/
theorem queuedGrants_snoc_ne {x id : StreamId} {m : UInt32} {sh sh' : Shared} (hne : id ≠ x)
    (h : sh'.window.queue = sh.window.queue ++ [.encodeWindowUpdate id m]) :
    queuedGrants x sh' = queuedGrants x sh := by
  unfold queuedGrants
  rw [h, List.map_append, List.sum_append]
  simp [MuxCommand.grant, hne]

theorem receive_grants {cfg : MuxConfig} {a : ReaderAct} {sh sh' : Shared} {r r' : Reader}
    {x : StreamId} (h : readerStep cfg a sh r = some (sh', r')) (hx : x ≠ 0) :
    queuedGrants x sh' = queuedGrants x sh := by
  rcases reader_window h with hq | ⟨n, hq⟩
  · simp only [queuedGrants, hq]
  · exact queuedGrants_snoc_ne hx.symm hq

theorem dataBytes_eq_zero {x : StreamId} {f : Frame} (h : ∀ id, framePayload id f = none) :
    dataBytes x f = 0 := by
  cases f with
  | data id payload fin =>
      have hnone := h id
      cases payload with
      | nil => simp [dataBytes]
      | cons b bs => simp [framePayload] at hnone
  | _ => rfl

/-- Octets of the frame that arrives with a step of the reader. -/
def arrivedBytes (x : StreamId) : ReaderAct → Nat
  | .receive f => dataBytes x f
  | _ => 0

/-- The reader moves frames towards the workers.  A payload of `x` that its worker
has no room for leaves the reader about to reset `x`. -/
theorem reader_inFlight {cfg : MuxConfig} {a : ReaderAct} {s : MuxState} {sh : Shared}
    {r : Reader} {x : StreamId} (hx : x ≠ 0)
    (h : readerStep cfg a s.shared s.reader = some (sh, r)) :
    r.pc = .reject x ∨
      ((inFlight (shardOf x) { s with shared := sh, reader := r }).map (dataBytes x)).sum =
        ((inFlight (shardOf x) s).map (dataBytes x)).sum + arrivedBytes x a := by
  cases reader_flight h (shardOf x) with
  | keep hrouted hflight =>
      right
      cases a with
      | receive f =>
          have hgrew := reader_routed h
          rw [hrouted] at hgrew
          simp at hgrew
      | _ => simp only [inFlight, hflight, arrivedBytes, Nat.add_zero]
  | receive f joined ha hj hrouted hflight =>
      subst ha
      right
      simp only [inFlight, hflight, List.map_append, List.sum_append]
      rcases hj with rfl | ⟨rfl, hnone⟩
      · simp [arrivedBytes]
      · simp [arrivedBytes, dataBytes_eq_zero hnone]
  | lose f id ha hpc hkey hwhy hrouted hflight =>
      subst ha
      by_cases hbytes : dataBytes x f = 0
      · right
        simp only [inFlight]
        rw [hflight, hpc]
        simp [ReaderPc.carried, hbytes, arrivedBytes]
      · left
        -- The frame is DATA of `x`, and the worker of `x` did not take it.
        cases f with
        | data i payload fin =>
            have hi : i = x := by
              simp only [dataBytes, hx, false_or] at hbytes
              by_contra hne
              simp [hne] at hbytes
            subst hi
            have hid : i = id := by simpa [workerKey] using hkey
            subst hid
            have hrefused := hwhy rfl
            simp only [readerStep, Reader.step, hpc, workerKey] at h
            split at h
            · next c hsend =>
                obtain ⟨hopen, hroom, -⟩ := Chan.trySend_eq_ok.1 hsend
                exact absurd ⟨hopen, hroom⟩ hrefused
            · cases h
              rfl
        | _ => exact absurd rfl hbytes

/-- While the writer is in its loop, a live stream that is not being reset lacks
nothing of its window. -/
def StreamAccount (cfg : MuxConfig) (x : StreamId) (s : Peered) : Prop :=
  s.mux.writer.pc.leaving = false → Live x s.mux → ¬ Resetting x s.mux →
    streamAccount x s = cfg.initialWindowSize.toNat

/-- A step of the connection balances the account of a live stream. -/
theorem step_streamAccount {cfg : MuxConfig} {x : StreamId} {s : Peered} {m : MuxState}
    {a : Act} (hx : x ≠ 0) (hS : Sent s) (ha : a.isReceive = false)
    (hs : step cfg s.mux a = some m) (hwriter : m.writer.pc.leaving = false)
    (hlive : Live x m) (hreset : ¬ Resetting x m) (hok : WindowKept x s (.mux a))
    (hbound : streamAccount x s ≤ cfg.initialWindowSize.toNat) :
    streamAccount x { s with mux := m } = streamAccount x s := by
  have hlive' : Live x s.mux := hlive.back hS.sound hs
  obtain ⟨p, c, sh, pr, rfl, hc, rfl⟩ | ⟨p, sh, pr, z, rfl, -, -, hb, rfl⟩ |
    ⟨z, sh, pr, z', rfl, hz, hr, rfl⟩ | ⟨c, sh, r, rfl, hr, rfl⟩ |
    ⟨w, order, k, sh, rfl, hw, rfl⟩ | ⟨c, sh, wr, rfl, hw, rfl⟩ | ⟨rfl, rfl⟩ := step_cases hs
  · have hfoot := client_footprint hc
    simp only [streamAccount, Peered.returning, queuedGrants, inFlight, hfoot.window,
      hfoot.frames]
  · have hfoot := realizeBegin_footprint hb
    simp only [streamAccount, Peered.returning, queuedGrants, inFlight, hfoot.window,
      hfoot.frames]
  · have hfoot := realizeStep_footprint hr
    simp only [streamAccount, Peered.returning, queuedGrants, inFlight, hfoot.window,
      hfoot.frames]
  · rcases reader_inFlight hx hr with hpc | hflight
    · exact absurd (.inl hpc) hreset
    · have hnone : arrivedBytes x c = 0 := by
        cases c with
        | receive f => contradiction
        | _ => rfl
      rw [hnone, Nat.add_zero] at hflight
      simp only [streamAccount, Peered.returning, hflight, receive_grants hr hx]
  · have hmove := workerMove_of_step hw
    by_cases hv : shardOf x = w
    · subst hv
      obtain ⟨hgone, hcan⟩ := hlive
      simp only [Function.update_self] at hgone
      have hR := hS.sound.wellformed.registrations
      -- What the worker knows and keeps no sender of is not live any more.
      have hkeeps : x ∈ (s.mux.workers (shardOf x)).streams → k.sender x ≠ none := by
        intro hin hnone
        have hlog := (hR.known _ x (.inl hin)).2
        rcases hcan with hnew | hs | hq
        · refine hnew ?_
          show x ∈ sh.history.openLog
          rw [hmove.footprint.openLog]
          exact hlog
        · simp only [Function.update_self] at hs
          exact hs hnone
        · obtain ⟨r, hr⟩ := mem_openIds.1 hq
          have hback := hmove.regs.regs_subset _ _ hr
          exact (hR.queued _ x (mem_openIds.2 ⟨r, hback⟩)).2.2 (.inl hin)
      have hbytes : (s.mux.workers (shardOf x)).counted x +
          (((s.mux.shared.frames (shardOf x)).queue.map (dataBytes x)).sum) < 2 ^ 32 := by
        have hiws := cfg.initialWindowSize.toNat_lt
        simp only [streamAccount, inFlight, List.map_append, List.sum_append] at hbound
        omega
      have haccount := hmove.account hx
        (fun hq hin => (hR.queued _ x hq).2.2 (.inl hin)) hgone hkeeps
        (fun r => hR.not_closing _ x r) (fun hpc f hf hpos => hok hlive' rfl hpc f hf hpos)
        hbytes
      simp only [streamAccount, Peered.returning, inFlight, List.map_append, List.sum_append,
        Function.update_self]
      omega
    · have hframes : (sh.frames (shardOf x)).queue =
          (s.mux.shared.frames (shardOf x)).queue := by
        rcases hmove.frames_queue with hq | ⟨f, rest, -, hq⟩ | ⟨-, hq⟩
        · exact hq _
        · simpa [hv] using hq (shardOf x)
        · simpa [hv] using hq (shardOf x)
      have hgrants : queuedGrants x sh = queuedGrants x s.mux.shared := by
        rcases hmove.window with hq | ⟨f, rest, id, m, -, -, hknown, hq⟩
        · simp only [queuedGrants, hq]
        · refine queuedGrants_snoc_ne ?_ hq
          rintro rfl
          exact hv (hS.sound.wellformed.registrations.known w id (.inl hknown)).1
      simp only [streamAccount, Peered.returning, inFlight, hframes, hgrants,
        Function.update_of_ne hv]
  · have hfoot := writer_footprint hw
    have hsame := (writer_returning x (writerMove_of_step hw) hS.sound.grantless
      hS.received).2 hwriter
    simp only [streamAccount, Peered.returning, inFlight, hfoot.frames]
    omega
  · rfl

/-- What holds after a step of the connection because it held before. -/
theorem StreamAccount.step {cfg : MuxConfig} {x : StreamId} {s : Peered} {m : MuxState}
    {a : Act} {n : Nat} (hS : Sent s) (h : StreamAccount cfg x s)
    (hs : step cfg s.mux a = some m)
    (hasks : a = .reader .step → Live x s.mux → s.mux.reader.pc = .reject x →
      s.mux.shared.control.Accepts)
    (hwriter : m.writer.pc.leaving = false) (hlive : Live x m) (hreset : ¬ Resetting x m)
    (hn : streamAccount x s = cfg.initialWindowSize.toNat → n = streamAccount x s) :
    n = cfg.initialWindowSize.toNat := by
  have hwriter' : s.mux.writer.pc.leaving = false := by
    cases hleave : s.mux.writer.pc.leaving with
    | false => rfl
    | true =>
        have hstays := (step_leaving hS.sound.wellformed.feeds hleave hs).2
        rw [hwriter] at hstays
        contradiction
  have hlive' : Live x s.mux := hlive.back hS.sound hs
  have hreset' : ¬ Resetting x s.mux := fun hR =>
    hreset (step_resetting hR hs hwriter fun ha hpc => hasks ha hlive' hpc)
  have hbefore := h hwriter' hlive' hreset'
  exact (hn hbefore).trans hbefore

theorem stream_account (cfg : MuxConfig) (x : StreamId) (hx : x ≠ 0) :
    (peered cfg x).Invariant (WindowKept x) (StreamAccount cfg x) := by
  refine Invariant.of_step_using
    (Invariant.restrict (sent_invariant cfg x) fun _ _ _ => trivial) ?_ ?_
  · intro _ _ _
    simp [streamAccount, Peered.returning, peered, MuxState.init, Shared.init, Reader.init,
      Writer.init, queuedGrants, writingGrants, wireGrants, PendingWrite.uncounted,
      Outgoing.grant, inFlight, Worker.counted, Worker.init, ReaderPc.carried]
  · intro s a s' hS h hok hs hwriter hlive hreset
    obtain ⟨f, -, hle, rfl⟩ | ⟨f, rest, m, -, hin, hm, rfl⟩ | ⟨o, -, ho, rfl⟩ |
      ⟨b, m, rfl, hb, hm, rfl⟩ := peeredStep_cases hs
    · rw [← h hwriter hlive hreset]
      simp only [streamAccount, Peered.returning, List.map_append, List.map_cons,
        List.map_nil, List.sum_append, List.sum_singleton]
      omega
    · refine h.step hS hm (fun heq => by cases heq) hwriter hlive hreset fun _ => ?_
      obtain ⟨p, c, sh, pr, heq, -, -⟩ | ⟨p, sh, pr, z, heq, -⟩ | ⟨z, sh, pr, z', heq, -⟩ |
        ⟨c, sh, r, heq, hr, rfl⟩ | ⟨w, order, k, sh, heq, -⟩ | ⟨c, sh, wr, heq, -⟩ |
        ⟨heq, -⟩ := step_cases hm
      all_goals first
        | contradiction
        | cases heq
      rcases reader_inFlight hx hr with hpc | hflight
      · exact absurd (.inl hpc) hreset
      · simp only [streamAccount, Peered.returning, hflight, receive_grants hr hx, hin,
          arrivedBytes, List.map_cons, List.sum_cons]
        omega
    · rw [← h hwriter hlive hreset]
      have hwire := wireGrants_receive x ho
      simp only [streamAccount, Peered.returning]
      omega
    · refine h.step hS hm (fun heq hl hpc => ?_) hwriter hlive hreset fun hfull => ?_
      · subst heq
        exact hok hl hpc
      · exact step_streamAccount hx hS hb hm hwriter hlive hreset hok hfull.le

/-- Two octets for stream 3, each through the reader and the worker; nobody reads
them. -/
def twoOctetActs : List PeerAct :=
  pairOpenActs.map PeerAct.mux ++
    [PeerAct.send (.data 3 [1] false), .deliver, .mux (.reader .step)] ++
    List.replicate 5 (PeerAct.mux (.worker (shardOf 3) [])) ++
    [PeerAct.send (.data 3 [2] false), .deliver, .mux (.reader .step)] ++
    List.replicate 5 (PeerAct.mux (.worker (shardOf 3) []))

/-- A connection whose streams buffer `slots` payloads. -/
def bufferedConfig (slots : Nat) : MuxConfig :=
  { MuxConfig.default with initialWindowSize := 6, streamDataBuffer := slots }

theorem not_resetting {x : StreamId} {s : MuxState} (hpc : s.reader.pc ≠ .reject x)
    (hidle : s.shared.control.queue.length + s.writer.out.length = 0)
    (hwire : ∀ o ∈ s.writer.wire, ∀ status, o ≠ .rstStream x status) : ¬ Resetting x s := by
  rintro (h | ⟨c, hc, -⟩ | ⟨p, hp, -⟩ | ⟨status, h⟩)
  · exact hpc h
  · have hpos := List.length_pos_of_mem hc
    omega
  · have hpos := List.length_pos_of_mem hp
    omega
  · exact hwire _ h status rfl

/-- What is on the wire once pair 0 is open. -/
def pairOpenWire : List Outgoing :=
  [.ping 1, .settings [(7, 6), (4, 100)], .synStream 1 [] false, .synStream 3 [] false,
    .data 1 [] true]

end KubePortForward.Mux

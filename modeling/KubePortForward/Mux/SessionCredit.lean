import KubePortForward.Mux.Peer

/-!
# Session-level receive credit

The reader counts the payload bytes of every DATA frame and, once half of the
initial window has accumulated, returns them to the peer in a WINDOW_UPDATE for
stream 0.  The count is reset only if the update found a slot in the window
channel, and is tried again at the next DATA frame, if there is one.

## Main results

* `session_account` — the peer's credit, the bytes in transit, the count and
  the updates on their way make up the initial window, as long as the writer is
  in its loop.
* `below_threshold` — while every update finds its slot, the count stays below
  half of the initial window.
-/

namespace KubePortForward.Mux

open KubePortForward.Codec
open KubePortForward.Verified.Channel
open KubePortForward.Verified.Transition

/-! ## What each task does to the account -/

/-- Everything that ever was the peer's credit, by where it is now. -/
def sessionAccount (s : Peered) : Nat :=
  s.credit + (s.inbound.map (dataBytes 0)).sum + s.mux.reader.sessionRecvConsumed +
    s.returning 0

/-- A DATA frame is counted, and the count is kept or returned as a whole. -/
theorem creditSession_account (n : UInt32) (len : Nat) (sh : Shared) (r : Reader)
    (hfit : r.sessionRecvConsumed + len < 2 ^ 32) :
    (creditSession n len sh r).2.sessionRecvConsumed +
        queuedGrants 0 (creditSession n len sh r).1 =
      r.sessionRecvConsumed + len + queuedGrants 0 sh := by
  unfold creditSession
  simp only
  split
  · split
    · next hsend =>
        simp only [queuedGrants, Chan.trySend_queue hsend, List.map_append, List.map_cons,
          List.map_nil, List.sum_append, List.sum_singleton, MuxCommand.grant, if_true]
        rw [UInt32.toNat_ofNat_of_lt' hfit]
        omega
    · rfl
  · rfl

theorem receive_account {cfg : MuxConfig} {f : Frame} {sh sh' : Shared} {r r' : Reader}
    (h : readerStep cfg (.receive f) sh r = some (sh', r'))
    (hfit : r.sessionRecvConsumed + dataBytes 0 f < 2 ^ 32) :
    r'.sessionRecvConsumed + queuedGrants 0 sh' =
      r.sessionRecvConsumed + dataBytes 0 f + queuedGrants 0 sh := by
  simp only [readerStep, Reader.receive] at h
  split at h
  · rw [Option.some.injEq] at h
    cases f with
    | data id payload fin =>
        simp only [dataBytes, true_or, if_true] at hfit ⊢
        simp only [routeFrame] at h
        split at h
        · next hempty =>
            cases h
            simp [List.isEmpty_iff.1 hempty, queuedGrants]
        · cases h
          exact creditSession_account _ _ _ _ hfit
    | ping id =>
        simp only [routeFrame] at h
        (repeat' split at h) <;> cases h <;> rfl
    | windowUpdate id delta =>
        simp only [routeFrame] at h
        split at h <;> cases h <;> rfl
    | settings size maxConcurrent maxFrame =>
        cases size <;> simp only [routeFrame] at h
        · cases h
          rfl
        · split at h <;> cases h <;> rfl
    | _ =>
        simp only [routeFrame] at h
        cases h
        rfl
  · contradiction

/-- Only the arrival of a frame touches the count and the window channel. -/
theorem reader_quiet {cfg : MuxConfig} {a : ReaderAct} {sh sh' : Shared} {r r' : Reader}
    (h : readerStep cfg a sh r = some (sh', r')) (ha : ∀ f, a ≠ .receive f) :
    r'.sessionRecvConsumed = r.sessionRecvConsumed ∧ sh'.window = sh.window := by
  cases a with
  | receive f => exact absurd rfl (ha f)
  | step =>
      simp only [readerStep, Reader.step] at h
      (repeat' split at h) <;> first
        | contradiction
        | cases h
          exact ⟨rfl, rfl⟩
  | _ =>
      simp only [readerStep, Reader.rejectTooLarge, Reader.receiveWsPing, Reader.message,
        Reader.idleProbe, Reader.exit] at h
      split at h
      · cases h
        exact ⟨rfl, rfl⟩
      · contradiction

/-- The updates of the workers return nothing to the session. -/
theorem worker_account {cfg : MuxConfig} {order : List StreamId} {w : Shard} {s : MuxState}
    {k : Worker} {sh : Shared} (h : WorkerMove cfg order w (s.workers w) s.shared k sh)
    (hS : Sound s) : queuedGrants 0 sh = queuedGrants 0 s.shared := by
  unfold queuedGrants
  rcases h.window with hq | ⟨f, rest, id, m, -, -, hknown, hq⟩
  · rw [hq]
  · rw [hq, List.map_append, List.sum_append]
    simp [MuxCommand.grant, hS.known_ne_zero hknown]

/-- The account is exact while the writer is in its loop, and never above the
initial window. -/
structure SessionAccount (cfg : MuxConfig) (s : Peered) : Prop where
  bounded : sessionAccount s ≤ cfg.initialWindowSize.toNat
  exact : s.mux.writer.pc.leaving = false →
    sessionAccount s = cfg.initialWindowSize.toNat

/-- A step that keeps the account and the writer. -/
theorem SessionAccount.of_eq {cfg : MuxConfig} {s s' : Peered} (h : SessionAccount cfg s)
    (haccount : sessionAccount s' = sessionAccount s)
    (hwriter : s'.mux.writer = s.mux.writer) : SessionAccount cfg s' := by
  constructor
  · rw [haccount]
    exact h.bounded
  · rw [haccount, hwriter]
    exact h.exact

theorem SessionAccount.step {cfg : MuxConfig} {s : Peered} {m : MuxState} {a : Act}
    (hS : Sent s) (h : SessionAccount cfg s) (ha : a.isReceive = false)
    (hs : Mux.step cfg s.mux a = some m) : SessionAccount cfg { s with mux := m } := by
  obtain ⟨p, c, sh, pr, rfl, hc, rfl⟩ | ⟨p, sh, pr, z, rfl, -, -, hb, rfl⟩ |
    ⟨z, sh, pr, z', rfl, hz, hr, rfl⟩ | ⟨c, sh, r, rfl, hr, rfl⟩ |
    ⟨w, order, k, sh, rfl, hw, rfl⟩ | ⟨c, sh, wr, rfl, hw, rfl⟩ | ⟨rfl, rfl⟩ := step_cases hs
  · refine h.of_eq ?_ rfl
    simp only [sessionAccount, Peered.returning, queuedGrants, (client_footprint hc).window]
  · refine h.of_eq ?_ rfl
    simp only [sessionAccount, Peered.returning, queuedGrants,
      (realizeBegin_footprint hb).window]
  · refine h.of_eq ?_ rfl
    simp only [sessionAccount, Peered.returning, queuedGrants,
      (realizeStep_footprint hr).window]
  · refine h.of_eq ?_ rfl
    have hnot : ∀ f, c ≠ .receive f := by
      rintro f rfl
      simp [Act.isReceive] at ha
    obtain ⟨hcount, hwindow⟩ := reader_quiet hr hnot
    simp only [sessionAccount, Peered.returning, queuedGrants, hcount, hwindow]
  · refine h.of_eq ?_ rfl
    simp only [sessionAccount, Peered.returning,
      worker_account (workerMove_of_step hw) hS.sound]
  · have hmove := writerMove_of_step hw
    obtain ⟨hle, heq⟩ := writer_returning 0 hmove hS.sound.grantless hS.received
    constructor
    · have hbound := h.bounded
      simp only [sessionAccount, Peered.returning] at hbound ⊢
      omega
    · intro hlive
      have hbefore : s.mux.writer.pc.leaving = false := by
        cases hl : s.mux.writer.pc.leaving with
        | false => rfl
        | true =>
            have hgone := (hmove.leaving hS.sound.wellformed.feeds hl).2
            exact absurd (hgone.symm.trans hlive) (by simp)
      have hexact := h.exact hbefore
      have hsame := heq hlive
      simp only [sessionAccount, Peered.returning] at hexact ⊢
      omega
  · exact h.of_eq rfl rfl

theorem session_account (cfg : MuxConfig) :
    (peered cfg 0).Invariant anyStep (SessionAccount cfg) := by
  refine Invariant.of_step_using (sent_invariant cfg 0) ?_ ?_
  · have haccount : sessionAccount (peered cfg 0).init = cfg.initialWindowSize.toNat := by
      simp [sessionAccount, Peered.returning, peered, MuxState.init, Shared.init, Reader.init,
        Writer.init, queuedGrants, writingGrants, wireGrants, PendingWrite.uncounted,
        Outgoing.grant]
    exact ⟨haccount.le, fun _ => haccount⟩
  · intro s a s' hS h _ hs
    obtain ⟨f, -, hle, rfl⟩ | ⟨f, rest, m, -, hin, hm, rfl⟩ | ⟨o, -, ho, rfl⟩ |
      ⟨b, m, -, hb, hm, rfl⟩ := peeredStep_cases hs
    · refine h.of_eq ?_ rfl
      simp only [sessionAccount, Peered.returning, List.map_append, List.map_cons,
        List.map_nil, List.sum_append, List.sum_singleton]
      omega
    · obtain ⟨p, c, sh, pr, heq, -, -⟩ | ⟨p, sh, pr, z, heq, -⟩ | ⟨z, sh, pr, z', heq, -⟩ |
        ⟨c, sh, r, heq, hr, rfl⟩ | ⟨w, order, k, sh, heq, -⟩ | ⟨c, sh, wr, heq, -⟩ |
        ⟨heq, -⟩ := step_cases hm
      all_goals first
        | contradiction
        | cases heq
      have hbound := h.bounded
      simp only [sessionAccount, hin, List.map_cons, List.sum_cons] at hbound
      have hiws := cfg.initialWindowSize.toNat_lt
      have hcount := receive_account hr (by omega)
      refine h.of_eq ?_ rfl
      simp only [sessionAccount, Peered.returning, hin, List.map_cons, List.sum_cons]
      omega
    · refine h.of_eq ?_ rfl
      have hwire := wireGrants_receive 0 ho
      simp only [sessionAccount, Peered.returning]
      omega
    · exact h.step hS hb hm

/-! ## Conservation of session credit -/

/-- In every run: while the writer is in its loop nothing of the session window
is missing, afterwards the window is at least never exceeded, and the count that
is cast to 32 bits always fits. -/
theorem session_credit_conserved (cfg : MuxConfig) (as : List PeerAct) (s : Peered)
    (hrun : (peered cfg 0).run (peered cfg 0).init as = some s) :
    (s.mux.writer.pc.leaving = false →
      s.credit + (s.inbound.map (dataBytes 0)).sum + s.mux.reader.sessionRecvConsumed +
        s.returning 0 = cfg.initialWindowSize.toNat) ∧
    s.credit + (s.inbound.map (dataBytes 0)).sum + s.mux.reader.sessionRecvConsumed +
      s.returning 0 ≤ cfg.initialWindowSize.toNat ∧
    ∀ f rest, s.inbound = f :: rest →
      (UInt32.ofNat (s.mux.reader.sessionRecvConsumed + dataBytes 0 f)).toNat =
        s.mux.reader.sessionRecvConsumed + dataBytes 0 f := by
  have h : SessionAccount cfg s := session_account cfg as s hrun (meets_anyStep _ as)
  refine ⟨h.exact, h.bounded, fun f rest hin => ?_⟩
  have hbound := h.bounded
  have hiws := cfg.initialWindowSize.toNat_lt
  simp only [sessionAccount, hin, List.map_cons, List.sum_cons] at hbound
  exact UInt32.toNat_ofNat_of_lt' (by simp only [UInt32.size]; omega)

/-- A connection with a receive window of a few octets. -/
def smallConfig (window : UInt32) (slots : Nat) : MuxConfig :=
  { MuxConfig.default with initialWindowSize := window, windowBufferSize := slots }

/-- The writer has sent its opening frames and one DATA frame has arrived. -/
def countedActs : List PeerAct :=
  startActs.map PeerAct.mux ++ [PeerAct.send (.data 3 [7] false), .deliver]

theorem session_credit_conserved_counted :
    ∃ s, (peered (smallConfig 2 4) 0).run (peered (smallConfig 2 4) 0).init countedActs =
        some s ∧ s.credit = 1 ∧ s.credit + (s.inbound.map (dataBytes 0)).sum +
          s.mux.reader.sessionRecvConsumed + s.returning 0 = 2 := by
  have hobs : ((peered (smallConfig 2 4) 0).run (peered (smallConfig 2 4) 0).init
      countedActs).map (fun s => (s.credit, s.mux.writer.pc.leaving)) =
      some (1, false) := by decide +kernel
  obtain ⟨s, hrun, hs⟩ := Option.map_eq_some_iff.1 hobs
  simp only [Prod.mk.injEq] at hs
  exact ⟨s, hrun, hs.1,
    (session_credit_conserved (smallConfig 2 4) countedActs s hrun).1 hs.2⟩

/-- The token is cancelled and the writer leaves with an update in its channel:
the octet it was to return is nowhere any more. -/
theorem session_credit_dropped :
    ¬ ∀ (cfg : MuxConfig) (as : List PeerAct) (s : Peered),
      (peered cfg 0).run (peered cfg 0).init as = some s →
      s.credit + (s.inbound.map (dataBytes 0)).sum + s.mux.reader.sessionRecvConsumed +
        s.returning 0 = cfg.initialWindowSize.toNat := by
  intro hall
  have hobs : ((peered (smallConfig 2 4) 0).run (peered (smallConfig 2 4) 0).init
      (countedActs ++ [.mux .cancel, .mux (.writer .step), .mux (.writer .step)])).map
      (fun s => s.credit + (s.inbound.map (dataBytes 0)).sum +
        s.mux.reader.sessionRecvConsumed + s.returning 0) = some 1 := by decide +kernel
  obtain ⟨s, hrun, hs⟩ := Option.map_eq_some_iff.1 hobs
  have hfull := hall _ _ s hrun
  rw [hs] at hfull
  exact absurd hfull (by decide)

/-! ## An exhausted peer -/

/-- Whether the next frame brings the count to half of the initial window. -/
def reachesThreshold (cfg : MuxConfig) (s : Peered) : Bool :=
  match s.inbound with
  | .data _ payload _ :: _ => !payload.isEmpty && decide (cfg.initialWindowSize.toNat / 2 ≤
      s.mux.reader.sessionRecvConsumed + payload.length)
  | _ => false

/-- An update that is due finds a free slot in the window channel. -/
def UpdateFindsSlot (cfg : MuxConfig) (s : Peered) : PeerAct → Prop
  | .deliver => reachesThreshold cfg s = true → s.mux.shared.window.Accepts
  | _ => True

instance (cfg : MuxConfig) (s : Peered) (a : PeerAct) : Decidable (UpdateFindsSlot cfg s a) := by
  cases a <;> unfold UpdateFindsSlot <;> infer_instance

/-- The count is below the threshold after a frame whose update finds a slot. -/
theorem receive_below {cfg : MuxConfig} {f : Frame} {sh sh' : Shared} {r r' : Reader}
    (h : readerStep cfg (.receive f) sh r = some (sh', r'))
    (hbelow : r.sessionRecvConsumed < cfg.initialWindowSize.toNat / 2)
    (hslot : ∀ id payload fin, f = .data id payload fin → payload ≠ [] →
      cfg.initialWindowSize.toNat / 2 ≤ r.sessionRecvConsumed + payload.length →
        sh.window.Accepts) :
    r'.sessionRecvConsumed < cfg.initialWindowSize.toNat / 2 := by
  simp only [readerStep, Reader.receive] at h
  split at h
  · rw [Option.some.injEq] at h
    cases f with
    | data id payload fin =>
        simp only [routeFrame, creditSession] at h
        split at h
        · cases h
          exact hbelow
        · next hne =>
            split at h
            · next hreach =>
                have hne' : payload ≠ [] := by
                  rintro rfl
                  exact hne rfl
                obtain ⟨c, hsend⟩ := Chan.trySend_of_accepts
                  (.encodeWindowUpdate 0 (UInt32.ofNat (r.sessionRecvConsumed +
                    payload.length))) (hslot id payload fin rfl hne' hreach)
                simp only [hsend] at h
                cases h
                simp only
                omega
            · cases h
              simp only
              omega
    | ping id =>
        simp only [routeFrame] at h
        (repeat' split at h) <;> cases h <;> exact hbelow
    | windowUpdate id delta =>
        simp only [routeFrame] at h
        split at h <;> cases h <;> exact hbelow
    | settings size maxConcurrent maxFrame =>
        cases size <;> simp only [routeFrame] at h
        · cases h
          exact hbelow
        · split at h <;> cases h <;> exact hbelow
    | _ =>
        simp only [routeFrame] at h
        cases h
        exact hbelow
  · contradiction

theorem step_sessionRecvConsumed {cfg : MuxConfig} {s s' : MuxState} {a : Act}
    (h : step cfg s a = some s') (ha : a.isReceive = false) :
    s'.reader.sessionRecvConsumed = s.reader.sessionRecvConsumed := by
  obtain ⟨p, c, sh, pr, rfl, hc, rfl⟩ | ⟨p, sh, pr, z, rfl, -, -, hb, rfl⟩ |
    ⟨z, sh, pr, z', rfl, hz, hr, rfl⟩ | ⟨c, sh, r, rfl, hr, rfl⟩ |
    ⟨w, order, k, sh, rfl, hw, rfl⟩ | ⟨c, sh, wr, rfl, hw, rfl⟩ | ⟨rfl, rfl⟩ := step_cases h
  case inr.inr.inr.inl =>
    refine (reader_quiet hr ?_).1
    rintro f rfl
    simp [Act.isReceive] at ha
  all_goals rfl

theorem below_threshold (cfg : MuxConfig) (hwindow : 2 ≤ cfg.initialWindowSize.toNat) :
    (peered cfg 0).Invariant (UpdateFindsSlot cfg) (fun s =>
      s.mux.reader.sessionRecvConsumed < cfg.initialWindowSize.toNat / 2) := by
  apply Invariant.of_step
  · show 0 < cfg.initialWindowSize.toNat / 2
    omega
  · intro s a s' h hslot hs
    obtain ⟨f, -, -, rfl⟩ | ⟨f, rest, m, rfl, hin, hm, rfl⟩ | ⟨o, -, -, rfl⟩ |
      ⟨b, m, -, hb, hm, rfl⟩ := peeredStep_cases hs
    · exact h
    · obtain ⟨p, c, sh, pr, heq, -, -⟩ | ⟨p, sh, pr, z, heq, -⟩ | ⟨z, sh, pr, z', heq, -⟩ |
        ⟨c, sh, r, heq, hr, rfl⟩ | ⟨w, order, k, sh, heq, -⟩ | ⟨c, sh, wr, heq, -⟩ |
        ⟨heq, -⟩ := step_cases hm
      all_goals first
        | contradiction
        | cases heq
      refine receive_below hr h fun id payload fin heq hne hreach => hslot ?_
      simp [reachesThreshold, hin, heq, hne, hreach]
    · exact h
    · rw [step_sessionRecvConsumed hm hb]
      exact h

/-- A WINDOW_UPDATE for the session is queued for the writer, being written or on
its way to the peer. -/
def UpdatePending (s : Peered) : Prop :=
  (∃ delta, MuxCommand.encodeWindowUpdate 0 delta ∈ s.mux.shared.window.queue) ∨
    (∃ p ∈ s.mux.writer.out, ∃ delta, p.frame = .windowUpdate 0 delta) ∨
    ∃ delta, Outgoing.windowUpdate 0 delta ∈ s.mux.writer.wire.drop s.received

theorem exists_of_sum_pos {α : Type} {f : α → Nat} {l : List α} (h : 0 < (l.map f).sum) :
    ∃ x ∈ l, 0 < f x := by
  induction l with
  | nil => simp at h
  | cons x l ih =>
      rw [List.map_cons, List.sum_cons] at h
      by_cases hx : 0 < f x
      · exact ⟨x, List.mem_cons_self, hx⟩
      · obtain ⟨y, hy, hpos⟩ := ih (by omega)
        exact ⟨y, List.mem_cons_of_mem x hy, hpos⟩

theorem Outgoing.of_grant_pos {o : Outgoing} {x : StreamId} (h : 0 < o.grant x) :
    ∃ delta, o = .windowUpdate x delta := by
  cases o with
  | windowUpdate id delta =>
      simp only [Outgoing.grant] at h
      split at h
      · next heq => exact ⟨delta, by rw [heq]⟩
      · contradiction
  | _ => contradiction

theorem updatePending_of_returning {s : Peered} (h : 0 < s.returning 0) :
    UpdatePending s := by
  by_cases hqueue : 0 < queuedGrants 0 s.mux.shared
  · obtain ⟨c, hc, hpos⟩ := exists_of_sum_pos hqueue
    cases c with
    | encodeWindowUpdate id delta =>
        simp only [MuxCommand.grant] at hpos
        split at hpos
        · next heq => exact .inl ⟨delta, heq ▸ hc⟩
        · contradiction
    | _ => contradiction
  · by_cases hout : 0 < writingGrants 0 s.mux.writer
    · obtain ⟨p, hp, hpos⟩ := exists_of_sum_pos hout
      exact .inr (.inl ⟨p, hp, Outgoing.of_grant_pos hpos⟩)
    · have hwire : 0 < wireGrants 0 s.received s.mux.writer := by
        unfold Peered.returning at h
        omega
      obtain ⟨o, ho, hpos⟩ := exists_of_sum_pos hwire
      obtain ⟨delta, rfl⟩ := Outgoing.of_grant_pos hpos
      exact .inr (.inr ⟨delta, ho⟩)

/-- Pair 0 is open on both sides. -/
def pairOpenActs : List Act :=
  startActs ++ openActs 0 ++ realizeActs 0 ++ List.replicate 3 (Act.worker (shardOf 3) []) ++
    writeOpenActs ++ [Act.writer .step, .writer (.flush true), .writer .step]

/-- The writer takes one update, writes it and flushes. -/
def writeUpdateActs : List Act :=
  [.writer .step, .writer .step, .writer (.emit true), .writer .step, .writer (.flush true),
    .writer .step]

/-- Two octets on stream 3 are credited back to the session and then, by the
worker, to the stream; that update fills the window channel while the peer uses
up its session window on stream 1. -/
def stalledActs : List PeerAct :=
  pairOpenActs.map PeerAct.mux ++
    [PeerAct.send (.data 3 [1, 2] false), .deliver, .mux (.reader .step)] ++
    writeUpdateActs.map PeerAct.mux ++ List.replicate 6 PeerAct.receive ++
    List.replicate 5 (PeerAct.mux (.worker (shardOf 3) [])) ++
    [PeerAct.send (.data 1 [1, 2] false), .deliver, .mux (.reader .step),
      .send (.data 1 [3, 4] false), .deliver]

end KubePortForward.Mux

import KubePortForward.Mux.Delivery

/-!
# From an inbound channel to the bytes its owner obtains

The owner of a half takes chunks off the half's channel and hands out their bytes,
keeping the rest of a chunk in `read_buf`.  `HalfOk` relates a channel to the half
that reads it: what was obtained, what is buffered and what is queued make up what
was delivered, as long as the receiver exists.

## Main results

* `HalfOk.read`, `HalfOk.fill`, `HalfOk.consume` — the three ways of reading.
* `consumed_invariant` — `HalfOk` for every half, after every run.
-/

namespace KubePortForward.Mux

open KubePortForward.Codec
open KubePortForward.Verified.Channel
open KubePortForward.Verified.Transition

/-- Bytes are neither lost nor made up between a channel and the half that reads it,
and no chunk on the way is empty. -/
structure HalfOk (c : DataChan) (h : ReadHalf) : Prop where
  bytes : c.chan.closed = false →
    h.obtained ++ h.readBuf.getD [] ++ c.chan.queue.flatten = c.delivered.flatten
  taken : h.obtained <+: c.delivered.flatten
  chunks : ∀ x ∈ c.chan.queue, x ≠ []
  buffered : h.readBuf ≠ some []

theorem HalfOk.grows {c c' : DataChan} {h : ReadHalf} {added : List Bytes}
    (hI : HalfOk c h) (hg : Grows c c' added) : HalfOk c' h where
  bytes := by
    intro hopen
    rw [hg.closed] at hopen
    rw [hg.queue, hg.delivered, List.flatten_append, List.flatten_append, ← hI.bytes hopen]
    simp only [List.append_assoc]
  taken := by
    rw [hg.delivered, List.flatten_append]
    exact hI.taken.trans (List.prefix_append _ _)
  chunks := by
    rw [hg.queue]
    intro x hx
    rcases List.mem_append.1 hx with hx | hx
    · exact hI.chunks x hx
    · exact hg.nonempty x hx
  buffered := hI.buffered

/-- While all bytes are accounted for, what is obtained is the front of them. -/
theorem HalfOk.of_bytes {c : DataChan} {h : ReadHalf}
    (hbytes : h.obtained ++ h.readBuf.getD [] ++ c.chan.queue.flatten = c.delivered.flatten)
    (hchunks : ∀ x ∈ c.chan.queue, x ≠ []) (hbuf : h.readBuf ≠ some []) : HalfOk c h := by
  refine ⟨fun _ => hbytes, ⟨h.readBuf.getD [] ++ c.chan.queue.flatten, ?_⟩, hchunks, hbuf⟩
  rw [← hbytes, List.append_assoc]

/-- The rest of a chunk. -/
theorem drop_ne_nil {xs : Bytes} {n : Nat} (h : n < xs.length) : xs.drop n ≠ [] := by
  intro hnil
  have := congrArg List.length hnil
  simp only [List.length_drop, List.length_nil] at this
  omega

/-- `poll_read_channel` moves bytes from the buffer or the front chunk. -/
theorem HalfOk.read {c c' : DataChan} {h h' : ReadHalf} {n : Nat} {bytes : Bytes}
    (hI : HalfOk c h) (hopen : c.chan.closed = false)
    (hr : pollReadChannel c h n = (.ready bytes, c', h')) :
    HalfOk c' { h' with obtained := h'.obtained ++ bytes } := by
  have hsum := hI.bytes hopen
  unfold pollReadChannel at hr
  split at hr
  · simp only [Prod.mk.injEq, Poll.ready.injEq] at hr
    obtain ⟨rfl, rfl, rfl⟩ := hr
    rw [List.append_nil]
    exact hI
  · split at hr
    · next remaining hbuf =>
        simp only [Prod.mk.injEq, Poll.ready.injEq] at hr
        obtain ⟨rfl, rfl, rfl⟩ := hr
        rw [hbuf, Option.getD_some] at hsum
        refine .of_bytes ?_ hI.chunks ?_
        · rw [← hsum]
          split
          · next hle => simp [List.take_of_length_le hle]
          · simp only [Option.getD_some, List.append_assoc]
            rw [← List.append_assoc (List.take _ _), List.take_append_drop]
        · simp only
          split
          · simp
          · next hle =>
              simp only [ne_eq, Option.some.injEq]
              exact drop_ne_nil (by omega)
    · next hbuf =>
        rw [hbuf, Option.getD_none, List.append_nil] at hsum
        split at hr
        · next data ch hrecv =>
            have hq := Chan.recv_eq_some hrecv
            simp only [Prod.mk.injEq, Poll.ready.injEq] at hr
            obtain ⟨rfl, rfl, rfl⟩ := hr
            rw [hq, List.flatten_cons] at hsum
            refine .of_bytes ?_ (fun x hx => hI.chunks x ?_) ?_
            · rw [← hsum]
              split
              · simp only [Option.getD_some, List.append_assoc]
                rw [← List.append_assoc (List.take _ _), List.take_append_drop]
              · next hle =>
                  rw [List.take_of_length_le (by omega)]
                  simp
            · rw [hq]
              exact List.mem_cons_of_mem _ hx
            · simp only
              split
              · next hlt =>
                  simp only [ne_eq, Option.some.injEq]
                  exact drop_ne_nil hlt
              · simp
        · split at hr
          · simp at hr
          · simp only [Prod.mk.injEq, Poll.ready.injEq] at hr
            obtain ⟨rfl, rfl, rfl⟩ := hr
            exact .of_bytes (by simp [hbuf, hsum]) hI.chunks (by simp [hbuf])

/-- `poll_fill_buf_channel` moves chunks from the channel to the buffer. -/
theorem HalfOk.fill {c : DataChan} {h : ReadHalf} (fuel : Nat) (hI : HalfOk c h)
    (hopen : c.chan.closed = false) :
    HalfOk (pollFillBufChannel fuel c h).2.1 (pollFillBufChannel fuel c h).2.2 := by
  induction fuel generalizing c h with
  | zero => exact hI
  | succ fuel ih =>
      have hsum := hI.bytes hopen
      have hnone : h.readBuf ≠ none → ∃ b bs, h.readBuf = some (b :: bs) := by
        intro hne
        cases hb : h.readBuf with
        | none => exact absurd hb hne
        | some xs =>
            cases xs with
            | nil => exact absurd hb hI.buffered
            | cons b bs => exact ⟨b, bs, rfl⟩
      rw [pollFillBufChannel]
      split
      · exact hI
      · next hempty =>
          have hbuf : h.readBuf = none := by
            by_contra hne
            obtain ⟨b, bs, hb⟩ := hnone hne
            exact hempty b bs hb
          rw [hbuf, Option.getD_none, List.append_nil] at hsum
          split
          · exact .of_bytes (by simp [hsum]) hI.chunks (by simp)
          · split
            · next data ch hrecv =>
                have hq := Chan.recv_eq_some hrecv
                refine ih (.of_bytes ?_ (fun x hx => hI.chunks x ?_) ?_)
                  (by rw [Chan.recv_closed hrecv, hopen])
                · simp only [Option.getD_some, ← hsum, hq, List.flatten_cons, List.append_assoc]
                · rw [hq]
                  exact List.mem_cons_of_mem _ hx
                · simp only [ne_eq, Option.some.injEq]
                  exact hI.chunks data (by simp [hq])
            · split
              · exact .of_bytes (by simp [hsum]) hI.chunks (by simp)
              · exact .of_bytes (by simp [hsum]) hI.chunks (by simp)

/-- `consume_channel_buf` hands out bytes of the buffer. -/
theorem HalfOk.consume {c : DataChan} {h : ReadHalf} (amt : Nat) (hI : HalfOk c h)
    (hopen : c.chan.closed = false) :
    HalfOk c { (consumeChannelBuf h amt).2 with
      obtained := (consumeChannelBuf h amt).2.obtained ++ (consumeChannelBuf h amt).1 } := by
  have hsum := hI.bytes hopen
  unfold consumeChannelBuf
  split
  · next bytes hbuf =>
      rw [hbuf, Option.getD_some] at hsum
      refine .of_bytes ?_ hI.chunks ?_
      · rw [← hsum]
        simp only
        split
        · next hnil =>
            have hdrop : bytes.drop (min amt bytes.length) = [] := by simpa using hnil
            have htake := List.take_append_drop (min amt bytes.length) bytes
            rw [hdrop, List.append_nil] at htake
            rw [htake, Option.getD_none, List.append_nil]
        · rw [Option.getD_some, List.append_assoc h.obtained, List.take_append_drop]
      · simp only
        split
        · simp
        · next hne => simpa using hne
  · simp only [List.append_nil]
    exact hI

/-- A receiver that is dropped takes what it still holds with it. -/
theorem HalfOk.drop {c : DataChan} {h : ReadHalf} (hI : HalfOk c h) :
    HalfOk { c with chan := c.chan.closeReceiver } h where
  bytes := by simp
  taken := hI.taken
  chunks := by simp
  buffered := hI.buffered

theorem HalfOk.fresh (n : Nat) : HalfOk (DataChan.new n) {} :=
  .of_bytes (by simp [DataChan.new]) (by simp [DataChan.new]) (by simp)

/-! ## Every half of every pair -/

/-- Whatever an owner does between reading and dropping leaves the channels alone. -/
theorem sendReservedClose_chans {sh sh' : Shared} {id : StreamId}
    (h : sh.sendReservedClose id = some sh') : sh'.chans = sh.chans := by
  unfold Shared.sendReservedClose at h
  split at h
  · cases h
    rfl
  · contradiction

/-- An owner does not touch the channels of other pairs. -/
theorem client_chans_other {cfg : MuxConfig} {p : Nat} {a : ClientAct} {sh sh' : Shared}
    {pr pr' : Pair} (h : clientStep cfg p a sh pr = some (sh', pr')) {r : ChanRef}
    (hr : r.pair ≠ p) : sh'.chans r = sh.chans r := by
  have hne : ∀ kind, r ≠ ⟨p, kind⟩ := fun kind heq => hr (by rw [heq])
  cases a with
  | dropStep =>
      simp only [clientStep, Pair.dropStep] at h
      (repeat' split at h) <;> first
        | contradiction
        | cases h
          rfl
        | obtain ⟨sh₁, hsend, heq⟩ := Option.map_eq_some_iff.1 h
          cases heq
          rw [sendReservedClose_chans hsend]
  | _ =>
      simp only [clientStep, Pair.openBegin, Pair.openStep, Pair.read, Pair.fillBuf,
        Pair.consume, Pair.writeBegin, Pair.writeReserve, Pair.writePick,
        Pair.writeRecheck, Pair.writeDebit, Pair.writeSend, Pair.shutdown,
        Pair.dropReceiver, Pair.dropRest] at h
      (repeat' split at h) <;> first
        | contradiction
        | cases h
          first
          | rfl
          | simp [Shared.updChan, Shared.dropTx, Function.update_of_ne (hne _)]

/-- What an owner's step does to one of its halves. -/
inductive HalfMove (sh : Shared) (pr : Pair) (p : Nat) (kind : HalfKind) :
    DataChan → ReadHalf → Prop
  | keep {c' h'} (hgrow : Grows (sh.chans ⟨p, kind⟩) c' []) (hhalf : h' = pr.half kind) :
      HalfMove sh pr p kind c' h'
  | read {c' h'} (n : Nat) (bytes : Bytes) (hn : 0 < n)
      (hcan : pr.canRead (sh.chans ⟨p, kind⟩) = true)
      (hread : pollReadChannel (sh.chans ⟨p, kind⟩) (pr.half kind) n = (.ready bytes, c', h')) :
      HalfMove sh pr p kind c' { h' with obtained := h'.obtained ++ bytes }
  | fill (fuel : Nat) (hcan : pr.canRead (sh.chans ⟨p, kind⟩) = true) :
      HalfMove sh pr p kind (pollFillBufChannel fuel (sh.chans ⟨p, kind⟩) (pr.half kind)).2.1
        (pollFillBufChannel fuel (sh.chans ⟨p, kind⟩) (pr.half kind)).2.2
  | consume (amt : Nat) (hcan : pr.canRead (sh.chans ⟨p, kind⟩) = true) :
      HalfMove sh pr p kind (sh.chans ⟨p, kind⟩)
        { (consumeChannelBuf (pr.half kind) amt).2 with
          obtained := (consumeChannelBuf (pr.half kind) amt).2.obtained ++
            (consumeChannelBuf (pr.half kind) amt).1 }
  | drop : HalfMove sh pr p kind
      { sh.chans ⟨p, kind⟩ with chan := (sh.chans ⟨p, kind⟩).chan.closeReceiver } (pr.half kind)
  | create (n : Nat) (hphase : pr.phase = .granting) :
      HalfMove sh pr p kind (DataChan.new n) (pr.half kind)

@[simp] theorem Pair.setHalf_half (pr : Pair) (h : ReadHalf) (kind : HalfKind) :
    (pr.setHalf h kind).half kind = h := by
  cases kind <;> rfl

theorem Pair.setHalf_half_ne (pr : Pair) (h : ReadHalf) {kind kind' : HalfKind}
    (hne : kind' ≠ kind) : (pr.setHalf h kind).half kind' = pr.half kind' := by
  cases kind <;> cases kind' <;> first | rfl | exact absurd rfl hne

theorem HalfMove.of_same {sh : Shared} {pr : Pair} {p : Nat} {kind : HalfKind} {c' : DataChan}
    {h' : ReadHalf} (hc : c' = sh.chans ⟨p, kind⟩) (hh : h' = pr.half kind) :
    HalfMove sh pr p kind c' h' :=
  .keep (by rw [hc]; exact .rfl) hh

theorem halfMove_of_client {cfg : MuxConfig} {p : Nat} {a : ClientAct} {sh sh' : Shared}
    {pr pr' : Pair} (h : clientStep cfg p a sh pr = some (sh', pr')) (kind : HalfKind) :
    HalfMove sh pr p kind (sh'.chans ⟨p, kind⟩) (pr'.half kind) := by
  cases a with
  | read kind' n =>
      simp only [clientStep, Pair.read] at h
      split at h
      · next hg =>
          simp only [Bool.and_eq_true, decide_eq_true_eq] at hg
          split at h
          · next bytes c hh hread =>
              cases h
              by_cases hk : kind = kind'
              · subst hk
                simp only [Shared.updChan, Function.update_self, Pair.setHalf_half]
                exact .read n bytes hg.2 hg.1 hread
              · refine .of_same ?_ (Pair.setHalf_half_ne _ _ hk)
                simp [Shared.updChan, hk]
          · contradiction
      · contradiction
  | fillBuf =>
      simp only [clientStep, Pair.fillBuf] at h
      split at h
      · next hg =>
          cases h
          cases kind with
          | data =>
              simp only [Shared.updChan, Function.update_self]
              exact .fill _ hg
          | error => exact .of_same (by simp [Shared.updChan]) rfl
      · contradiction
  | consume amt =>
      simp only [clientStep, Pair.consume] at h
      split at h
      · next hg =>
          cases h
          cases kind with
          | data => exact .consume amt hg
          | error => exact .of_same rfl rfl
      · contradiction
  | dropReceiver kind' =>
      simp only [clientStep, Pair.dropReceiver] at h
      split at h
      · cases h
        by_cases hk : kind = kind'
        · subst hk
          simp only [Shared.updChan, Function.update_self]
          exact .drop
        · exact .of_same (by simp [Shared.updChan, hk]) rfl
      · contradiction
  | openStep =>
      simp only [clientStep, Pair.openStep] at h
      split at h
      · split at h <;> cases h <;> exact .of_same rfl (by cases kind <;> rfl)
      · split at h <;> cases h <;> exact .of_same rfl (by cases kind <;> rfl)
      · cases h
        exact .of_same rfl (by cases kind <;> rfl)
      · next hphase =>
          cases h
          cases kind with
          | data =>
              simp only [Shared.updChan, Function.update_self]
              exact .create _ hphase
          | error =>
              have hne : (⟨p, .error⟩ : ChanRef) ≠ ⟨p, .data⟩ := by simp
              simp only [Shared.updChan, Function.update_of_ne hne, Function.update_self]
              exact .create _ hphase
      · contradiction
  | dropRest =>
      simp only [clientStep, Pair.dropRest] at h
      split at h
      · split at h
        · cases h
          refine .keep ?_ (by cases kind <;> rfl)
          exact (dropTx_grows sh _ _).trans_nil (dropTx_grows _ _ _)
        · cases h
          exact .of_same rfl (by cases kind <;> rfl)
        · cases h
          refine .of_same ?_ (by cases kind <;> rfl)
          split <;> rfl
        · contradiction
      · contradiction
  | dropStep =>
      simp only [clientStep, Pair.dropStep] at h
      (repeat' split at h) <;> first
        | contradiction
        | cases h
          exact .of_same rfl (by cases kind <;> rfl)
        | obtain ⟨sh₁, hsend, heq⟩ := Option.map_eq_some_iff.1 h
          cases heq
          exact .of_same (by rw [sendReservedClose_chans hsend]) (by cases kind <;> rfl)
  | _ =>
      simp only [clientStep, Pair.openBegin, Pair.writeBegin, Pair.writeReserve,
        Pair.writePick, Pair.writeRecheck, Pair.writeDebit, Pair.writeSend,
        Pair.shutdown] at h
      (repeat' split at h) <;> first
        | contradiction
        | cases h
          exact .of_same rfl (by cases kind <;> rfl)

theorem dropPairTx_grows (sh : Shared) (p : Nat) (r : ChanRef) :
    Grows (sh.chans r) ((sh.dropPairTx p).chans r) [] :=
  (dropTx_grows sh r _).trans_nil (dropTx_grows _ r _)

theorem sendCloseOrDrop_chans (sh : Shared) (id : StreamId) :
    (sh.sendCloseOrDrop id).chans = sh.chans := by
  simp only [Shared.sendCloseOrDrop, Shared.sendClose]
  cases (sh.closeReg (shardOf id)).trySend (.close id) <;> rfl

theorem releaseHeld_chans (sh : Shared) (id : StreamId) (held : Nat) :
    (sh.releaseHeld id held).chans = sh.chans := by
  simp only [Shared.releaseHeld]
  split <;> rfl

theorem realizeBegin_grows {p : Nat} {sh sh' : Shared} {pr pr' : Pair} {z : Option Realize}
    (h : realizeBegin p sh pr = (sh', pr', z)) (r : ChanRef) :
    Grows (sh.chans r) (sh'.chans r) [] := by
  simp only [realizeBegin] at h
  split at h
  · cases h
    exact dropPairTx_grows sh p r
  · split at h <;> cases h
    · exact dropPairTx_grows sh p r
    · exact .rfl

/-- A realization that fails before it has handed over a sender drops it. -/
theorem realizeStep_grows {z : Realize} {sh sh' : Shared} {pr pr' : Pair}
    {z' : Option Realize} (h : z.step sh pr = (sh', pr', z')) (r : ChanRef) :
    Grows (sh.chans r) (sh'.chans r) [] := by
  unfold Realize.step at h
  cases hz : z.pc with
  | registerError =>
      simp only [hz, Shared.sendOpen] at h
      split at h
      · next hsend =>
          cases h
          split at hsend <;> cases hsend
          exact .rfl
      · cases h
        exact dropPairTx_grows sh z.pair r
  | registerData =>
      simp only [hz, Shared.sendOpen] at h
      split at h
      · next hsend =>
          cases h
          split at hsend <;> cases hsend
          exact .rfl
      · cases h
        exact dropTx_grows sh r _
  | cleanupErrorOnly =>
      simp only [hz] at h
      cases h
      rw [sendCloseOrDrop_chans]
      exact .rfl
  | cleanupError held =>
      simp only [hz] at h
      cases h
      rw [sendCloseOrDrop_chans]
      exact .rfl
  | cleanupData held =>
      simp only [hz] at h
      cases h
      rw [releaseHeld_chans, sendCloseOrDrop_chans]
      exact .rfl
  | _ =>
      simp only [hz] at h
      (repeat' split at h) <;> cases h <;> exact .rfl

theorem WorkerMove.grows {cfg : MuxConfig} {order : List StreamId} {w : Shard}
    {k k' : Worker} {sh sh' : Shared} (h : WorkerMove cfg order w k sh k' sh')
    (hqueued : ∀ i r, .openStream i r ∈ (sh.reg w).queue → k.sender i = none)
    (hclosing : ∀ i r, .openStream i r ∉ (sh.closeReg w).queue) (r : ChanRef) :
    ∃ added, Grows (sh.chans r) (sh'.chans r) added := by
  cases h with
  | @takeClose reg c _ _ pc hpc hfrom hrecv happly =>
      have hmem : reg ∈ (sh.closeReg w).queue := by simp [Chan.recv_eq_some hrecv]
      exact ⟨[], (applyRegistration_sender happly fun i r' heq =>
        absurd (heq ▸ hmem) (hclosing i r')).grows r⟩
  | @takeReg reg c _ _ pc hpc hfrom hrecv happly =>
      have hmem : reg ∈ (sh.reg w).queue := by simp [Chan.recv_eq_some hrecv]
      exact ⟨[], (applyRegistration_sender happly fun i r' heq =>
        hqueued i r' (heq ▸ hmem)).grows r⟩
  | @takeFrame frame c hpc hrecv =>
      by_cases hkey : ∃ i, workerKey frame = some i ∧ k.sender i = some r
      · obtain ⟨i, hkey, hs⟩ := hkey
        obtain ⟨added, hgrow, -⟩ := dispatch_sender (k := { k with pc := .drainClose })
          cfg.initialWindowSize (sh.setFrames w c) hs hkey
        exact ⟨added, hgrow⟩
      · rw [(dispatch_other cfg.initialWindowSize frame { k with pc := .drainClose }
          (sh.setFrames w c)).2 r fun i hi hs => hkey ⟨i, hi, hs⟩]
        exact ⟨[], .rfl⟩
  | move pc hfrom hto => exact ⟨[], .rfl⟩
  | shutdown hpc => exact ⟨[], (closeAll_chans k sh r).2⟩
  | exit hpc => exact ⟨[], (foldl_dropTx_chans (queuedSenders (sh.reg w).queue) sh r).2⟩

/-- What a step does to a channel and to the half that reads it: either the channel
grows and the half stays, or the owner moved. -/
theorem step_half {cfg : MuxConfig} {s s' : MuxState} {a : Act} (hR : Registrations s)
    (h : step cfg s a = some s') (r : ChanRef) :
    (∃ added, Grows (s.shared.chans r) (s'.shared.chans r) added ∧
      (s'.pairs r.pair).half r.half = (s.pairs r.pair).half r.half) ∨
    HalfMove s.shared (s.pairs r.pair) r.pair r.half (s'.shared.chans r)
      ((s'.pairs r.pair).half r.half) := by
  obtain ⟨p, c, sh, pr, rfl, hc, rfl⟩ | ⟨p, sh, pr, z, rfl, -, -, hb, rfl⟩ |
    ⟨z, sh, pr, z', rfl, hz, hr, rfl⟩ | ⟨c, sh, rd, rfl, hr, rfl⟩ |
    ⟨w, order, k, sh, rfl, hw, rfl⟩ | ⟨c, sh, wr, rfl, hw, rfl⟩ | ⟨rfl, rfl⟩ := step_cases h
  · by_cases hp : r.pair = p
    · subst hp
      simp only [Function.update_self]
      exact .inr (halfMove_of_client hc r.half)
    · simp only [Function.update_of_ne hp]
      rw [client_chans_other hc hp]
      exact .inl ⟨[], .rfl, trivial⟩
  · refine .inl ⟨[], realizeBegin_grows hb r, ?_⟩
    by_cases hp : r.pair = p
    · subst hp
      simp only [Function.update_self]
      obtain ⟨-, ⟨rfl, -⟩ | ⟨-, -, rfl⟩⟩ := realizeBegin_pair hb <;> cases r.half <;> rfl
    · simp only [Function.update_of_ne hp]
  · refine .inl ⟨[], realizeStep_grows hr r, ?_⟩
    by_cases hp : r.pair = z.pair
    · simp only [hp, Function.update_self]
      rcases realizeStep_pair hr with ⟨rfl, -⟩ | ⟨rfl, -⟩ | ⟨rfl, -, -⟩ <;>
        cases r.half <;> rfl
    · simp only [Function.update_of_ne hp]
  · refine .inl ⟨[], ?_, rfl⟩
    rw [(reader_footprint hr).chans]
    exact .rfl
  · obtain ⟨added, hgrow⟩ := (workerMove_of_step hw).grows (fun _ _ => hR.queued_sender)
      (hR.not_closing w) r
    exact .inl ⟨added, hgrow, rfl⟩
  · refine .inl ⟨[], ?_, rfl⟩
    rw [(writer_footprint hw).chans]
    exact .rfl
  · exact .inl ⟨[], .rfl, rfl⟩

/-- Every half is in step with its channel, and a half of a pair that was not opened
yet is untouched. -/
structure Consumed (s : MuxState) : Prop where
  halves : ∀ r : ChanRef, HalfOk (s.shared.chans r) ((s.pairs r.pair).half r.half)
  fresh : ∀ p kind, (s.pairs p).phase.fresh = true → (s.pairs p).half kind = {}

theorem consumed_init (cfg : MuxConfig) : Consumed (MuxState.init cfg) where
  halves r := by
    cases hk : r.half <;>
      exact .of_bytes (by simp [MuxState.init, Shared.init, DataChan.absent, Pair.half])
        (by simp [MuxState.init, Shared.init, DataChan.absent]) (by simp [MuxState.init, Pair.half])
  fresh p kind _ := by cases kind <;> rfl

theorem HalfMove.ok {sh : Shared} {pr : Pair} {p : Nat} {kind : HalfKind} {c' : DataChan}
    {h' : ReadHalf} (hm : HalfMove sh pr p kind c' h')
    (hI : HalfOk (sh.chans ⟨p, kind⟩) (pr.half kind))
    (hfresh : pr.phase.fresh = true → pr.half kind = {}) : HalfOk c' h' := by
  have hopen : ∀ {c : DataChan}, pr.canRead c = true → c.chan.closed = false := by
    intro c hcan
    simp only [Pair.canRead, Bool.and_eq_true, Bool.not_eq_true'] at hcan
    exact hcan.2
  cases hm with
  | keep hgrow hhalf => exact hhalf ▸ hI.grows hgrow
  | read n bytes hn hcan hread => exact hI.read (hopen hcan) hread
  | fill fuel hcan => exact hI.fill fuel (hopen hcan)
  | consume amt hcan => exact hI.consume amt (hopen hcan)
  | drop => exact hI.drop
  | create n hphase =>
      rw [hfresh (by rw [hphase]; rfl)]
      exact .fresh n

theorem HalfMove.half_eq {sh : Shared} {pr : Pair} {p : Nat} {kind : HalfKind}
    {c' : DataChan} {h' : ReadHalf} (hm : HalfMove sh pr p kind c' h')
    (hphase : pr.phase ≠ .opened) : h' = pr.half kind := by
  cases hm with
  | keep hgrow hhalf => exact hhalf
  | read n bytes hn hcan hread => simp [Pair.canRead, hphase] at hcan
  | fill fuel hcan => simp [Pair.canRead, hphase] at hcan
  | consume amt hcan => simp [Pair.canRead, hphase] at hcan
  | drop => rfl
  | create n hphase => rfl

/-- No step makes a pair fresh. -/
theorem step_fresh {cfg : MuxConfig} {s s' : MuxState} {a : Act}
    (h : step cfg s a = some s') {p : Nat} (hp : (s'.pairs p).phase.fresh = true) :
    (s.pairs p).phase.fresh = true := by
  obtain ⟨q, c, sh, pr, rfl, hc, rfl⟩ | ⟨q, sh, pr, z, rfl, -, hphase, hb, rfl⟩ |
    ⟨z, sh, pr, z', rfl, hz, hr, rfl⟩ | ⟨c, sh, rd, rfl, hr, rfl⟩ |
    ⟨w, order, k, sh, rfl, hw, rfl⟩ | ⟨c, sh, wr, rfl, hw, rfl⟩ | ⟨rfl, rfl⟩ := step_cases h
  · by_cases hpq : p = q
    · subst hpq
      simp only [Function.update_self] at hp
      exact (client_pair hc).2.2.2.2.1 hp
    · simpa only [Function.update_of_ne hpq] using hp
  · by_cases hpq : p = q
    · subst hpq
      rw [hphase]
      rfl
    · simpa only [Function.update_of_ne hpq] using hp
  · by_cases hpq : p = z.pair
    · subst hpq
      simp only [Function.update_self] at hp
      rcases realizeStep_pair hr with ⟨rfl, -⟩ | ⟨rfl, -⟩ | ⟨rfl, -, -⟩
      · exact hp
      · simp [PairPhase.fresh] at hp
      · simp [PairPhase.fresh] at hp
    · simpa only [Function.update_of_ne hpq] using hp
  · exact hp
  · exact hp
  · exact hp
  · exact hp

theorem step_consumed {cfg : MuxConfig} {s s' : MuxState} {a : Act} (hR : Registrations s)
    (hI : Consumed s) (h : step cfg s a = some s') : Consumed s' where
  halves r := by
    rcases step_half hR h r with ⟨added, hgrow, hhalf⟩ | hmove
    · rw [hhalf]
      exact (hI.halves r).grows hgrow
    · exact hmove.ok (hI.halves r) (hI.fresh r.pair r.half)
  fresh p kind hp := by
    have hold := step_fresh h hp
    have hne : (s.pairs p).phase ≠ .opened := by
      intro heq
      rw [heq] at hold
      contradiction
    rcases step_half hR h ⟨p, kind⟩ with ⟨-, -, hhalf⟩ | hmove
    · exact hhalf.trans (hI.fresh p kind hold)
    · exact (hmove.half_eq hne).trans (hI.fresh p kind hold)

theorem consumed_invariant (cfg : MuxConfig) : (mux cfg).Invariant anyStep Consumed :=
  Invariant.of_step_using (registrations_invariant cfg) (consumed_init cfg)
    fun _ _ _ hR hI _ h => step_consumed hR hI h

end KubePortForward.Mux

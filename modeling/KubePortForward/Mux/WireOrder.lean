import KubePortForward.Mux.Registration
import KubePortForward.Mux.Routing

/-!
# The frames of one stream, in the order of the wire

Opens and data reach the writer through the command channel and resets through
the control channel, which the writer drains first.  A reset can thereby
overtake the SYN_STREAM or the data of its own stream.  As long as it does not,
the frames of a stream appear as they should: SYN_STREAM first, nothing but
resets after a reset, no data after a FIN.

The peer is silent about the stream throughout, so that every reset of it is
one that its owner asked for.

## Main results

* `silent_invariant` — nothing the peer said concerns the stream.
* `streamOrder_invariant` — the frames of the stream that are on the wire or on
  their way to it are in order.
* `stream_frames_in_order` — the same for the wire.
* `reset_before_open` — a run in which a reset comes first.
-/

namespace KubePortForward.Mux

open KubePortForward.Codec
open KubePortForward.Verified.BigEndian
open KubePortForward.Verified.Channel
open KubePortForward.Verified.Transition

/-! ## Frames that name a stream -/

/-- What a frame does to the stream it names. -/
inductive Mark where
  | syn
  | data (fin : Bool)
  | rst
  | window
  deriving DecidableEq, Repr

/-- A pre-encoded frame: a DATA frame unless its first bit is set. -/
def rawMark (id : StreamId) (frame : Bytes) : Option Mark :=
  if rawSynId frame = some id then some .syn
  else if ofBe (frame.take 4) = id.toNat then
    some (.data (decide (frame.getD 4 0 &&& FLAG_FIN ≠ 0)))
  else none

/-- What a frame does to stream `id`, if it names it.  The id of a DATA frame is
cut to 31 bits when it is encoded. -/
def Outgoing.mark (id : StreamId) : Outgoing → Option Mark
  | .synStream i _ _ => if i = id then some .syn else none
  | .data i _ fin => if i &&& 0x7FFFFFFF = id then some (.data fin) else none
  | .raw frame => rawMark id frame
  | .rstStream i _ => if i = id then some .rst else none
  | .windowUpdate i _ => if i = id then some .window else none
  | _ => none

/-- What a sequence of frames does to stream `id`, in order. -/
def marks (id : StreamId) (frames : List Outgoing) : List Mark :=
  frames.filterMap (Outgoing.mark id)

@[simp] theorem marks_append (id : StreamId) (xs ys : List Outgoing) :
    marks id (xs ++ ys) = marks id xs ++ marks id ys :=
  List.filterMap_append ..

/-- Whether `b` may come some time after `a`: no SYN_STREAM and no data after a
reset, no data after a FIN. -/
def Mark.allows : Mark → Mark → Bool
  | .rst, .syn => false
  | .rst, .data _ => false
  | .data true, .data _ => false
  | _, _ => true

/-- The first mark is a SYN_STREAM, and each is allowed by all that came before. -/
def Ordered (ms : List Mark) : Prop :=
  (∀ m ∈ ms.head?, m = .syn) ∧ ms.Pairwise fun a b => a.allows b = true

/-- The frames that name the stream are in order. -/
def InOrder (id : StreamId) (frames : List Outgoing) : Prop := Ordered (marks id frames)

instance (id : StreamId) (frames : List Outgoing) : Decidable (InOrder id frames) := by
  unfold InOrder Ordered
  infer_instance

theorem Ordered.of_prefix {xs ys : List Mark} (hp : xs <+: ys) (h : Ordered ys) :
    Ordered xs := by
  obtain ⟨zs, rfl⟩ := hp
  refine ⟨fun m hm => h.1 m ?_, (List.pairwise_append.1 h.2).1⟩
  rw [List.head?_append]
  simp only [Option.mem_def] at hm ⊢
  rw [hm, Option.some_or]

/-- What may follow an ordered sequence. -/
theorem Ordered.append {xs ys : List Mark} (h : Ordered xs) (hy : Ordered ys ∨ xs ≠ [])
    (hpair : ys.Pairwise fun a b => a.allows b = true)
    (hcross : ∀ a ∈ xs, ∀ b ∈ ys, a.allows b = true) : Ordered (xs ++ ys) := by
  refine ⟨?_, List.pairwise_append.2 ⟨h.2, hpair, hcross⟩⟩
  cases xs with
  | nil => exact (hy.resolve_right (by simp)).1
  | cons a as => exact h.1

/-- A stream that some frame names has a SYN_STREAM among them. -/
theorem Ordered.syn_mem {id : StreamId} {frames : List Outgoing}
    (h : Ordered (marks id frames)) (hne : marks id frames ≠ []) : id ∈ synIds frames := by
  have hmem : Mark.syn ∈ marks id frames := by
    cases hm : marks id frames with
    | nil => exact absurd hm hne
    | cons a as =>
        have := h.1 a (by simp [hm])
        simp [this]
  obtain ⟨f, hf, hmark⟩ := List.mem_filterMap.1 hmem
  refine List.mem_filterMap.2 ⟨f, hf, ?_⟩
  cases f with
  | synStream i headers fin =>
      simp only [Outgoing.mark] at hmark
      split at hmark
      · next heq => rw [Outgoing.synId, heq]
      · contradiction
  | raw frame =>
      simp only [Outgoing.mark, rawMark] at hmark
      split at hmark
      · next heq => exact heq
      · split at hmark <;> simp at hmark
  | _ =>
      simp only [Outgoing.mark] at hmark
      (try split at hmark) <;> simp at hmark

/-! ## What each command does to a stream -/

theorem and_mask_of_le {id : StreamId} (h : id ≤ MAX_STREAM_ID) :
    id &&& 0x7FFFFFFF = id := by
  apply UInt32.toNat_inj.1
  rw [UInt32.le_iff_toNat_le] at h
  simp only [MAX_STREAM_ID, UInt32.reduceToNat] at h
  rw [UInt32.toNat_and, show (0x7FFFFFFF : UInt32).toNat = 2 ^ 31 - 1 from rfl,
    Nat.and_two_pow_sub_one_eq_mod, Nat.mod_eq_of_lt (by omega)]

/-- A stream owner's frame is a DATA frame without FIN of its own stream. -/
theorem rawMark_rawDataFrame (id i : StreamId) (payload : Bytes) (hi : i ≤ MAX_STREAM_ID) :
    rawMark id (rawDataFrame i payload) = if i = id then some (.data false) else none := by
  have htake : (rawDataFrame i payload).take 4 = beField 4 i.toNat := by
    rw [rawDataFrame, and_mask_of_le hi, List.append_assoc,
      List.take_append_of_le_length (by simp), List.take_of_length_le (by simp)]
  have hlt : i.toNat < 256 ^ 4 := i.toNat_lt
  have hlen : (UInt32.ofNat payload.length &&& 0x00FFFFFF).toNat / 256 ^ 3 = 0 := by
    rw [UInt32.toNat_and]
    exact Nat.div_eq_of_lt (Nat.lt_of_le_of_lt Nat.and_le_right (by decide))
  have hflags : (rawDataFrame i payload).getD 4 0 = 0 := by
    simp only [rawDataFrame, beField, hlen]
    rfl
  unfold rawMark
  rw [rawSynId_rawDataFrame, htake, ofBe_beField_of_lt hlt, hflags]
  simp [UInt32.toNat_inj]

/-- A command whose frames do not name the stream. -/
def Spares (id : StreamId) (cmd : MuxCommand) : Prop := marks id (cmdFrames cmd) = []

theorem marks_closeStream (id i : StreamId) (status : UInt32) :
    marks id (cmdFrames (.closeStream i status)) = if i = id then [.rst] else [] := by
  by_cases hid : i = id <;> simp [cmdFrames, processWriterCommand, marks, Outgoing.mark, hid]

theorem marks_windowUpdate (id i : StreamId) (n : UInt32) :
    marks id (cmdFrames (.encodeWindowUpdate i n)) = if i = id then [.window] else [] := by
  by_cases hid : i = id <;>
    simp [cmdFrames, processWriterCommand, marks, Outgoing.mark, PendingWrite.plain, hid]

theorem marks_sendRawFrame (id i : StreamId) (payload : Bytes) (hi : i ≤ MAX_STREAM_ID) :
    marks id (cmdFrames (.sendRawFrame (rawDataFrame i payload))) =
      if i = id then [.data false] else [] := by
  have hmark : (Outgoing.raw (rawDataFrame i payload)).mark id =
      if i = id then some (.data false) else none := rawMark_rawDataFrame id i payload hi
  simp only [cmdFrames, processWriterCommand, marks, PendingWrite.plain, List.map_cons,
    List.map_nil, List.filterMap_cons, hmark]
  by_cases hid : i = id <;> simp [hid]

theorem marks_shutdown (id i : StreamId) (hi : i ≤ MAX_STREAM_ID) :
    marks id (cmdFrames (.sendData i [] true)) = if i = id then [.data true] else [] := by
  simp only [cmdFrames, processWriterCommand, marks, PendingWrite.plain, List.map_cons,
    List.map_nil, List.filterMap_cons, Outgoing.mark, and_mask_of_le hi]
  by_cases hid : i = id <;> simp [hid]

/-- The frames that open a pair: the error stream is half-closed at once. -/
theorem marks_openStreamPair (id e d : StreamId) (eh dh : Headers) (he : e ≤ MAX_STREAM_ID)
    (hne : d ≠ e) :
    marks id (cmdFrames (.openStreamPair e d eh dh)) =
      if e = id then [.syn, .data true] else if d = id then [.syn] else [] := by
  simp only [cmdFrames, processWriterCommand, List.map_cons, List.map_nil, marks,
    List.filterMap_cons, Outgoing.mark, PendingWrite.plain, and_mask_of_le he]
  by_cases hid : e = id
  · subst hid
    simp [hne]
  · by_cases hid' : d = id <;> simp [hid, hid']

/-! ## The peer is silent about a stream -/

/-- A frame that the peer sends for stream `id`. -/
def frameNames (id : StreamId) : Frame → Bool
  | .synStream i _ _ => i == id
  | .synReply i _ _ => i == id
  | .data i _ _ => i == id
  | .rstStream i _ => i == id
  | .windowUpdate i _ => i == id
  | _ => false

/-- The peer sends nothing for stream `id`. -/
def PeerSilent (id : StreamId) : Act → Prop
  | .reader (.receive frame) => frameNames id frame = false
  | .reader (.tooLarge i) => i ≠ id
  | _ => True

instance (id : StreamId) (a : Act) : Decidable (PeerSilent id a) := by
  unfold PeerSilent
  induction a using Act.casesOn with
  | reader r => induction r using ReaderAct.casesOn <;> infer_instance
  | _ => infer_instance

/-- The peer does not refuse stream `id` with a GOAWAY. -/
def NotRefused (id : StreamId) : Act → Prop
  | .reader (.receive (.goAway last _)) => id ≤ last
  | _ => True

instance (id : StreamId) (a : Act) : Decidable (NotRefused id a) := by
  unfold NotRefused
  split <;> infer_instance

/-- Nothing in flight between the reader, the workers and the writer is about the
stream because the peer said so. -/
structure Silent (id : StreamId) (s : MuxState) : Prop where
  frames : ∀ w, ∀ f ∈ (s.shared.frames w).queue, workerKey f ≠ some id
  dispatch : ∀ f, s.reader.pc = .dispatch f → workerKey f ≠ some id
  reject : s.reader.pc ≠ .reject id
  window : ∀ c ∈ s.shared.window.queue, Spares id c
  refusals : ∀ w last status, .goAway last status ∈ (s.shared.closeReg w).queue → id ≤ last
  refusing : ∀ last status next, s.reader.pc = .goAway last status next → id ≤ last

theorem silent_init (cfg : MuxConfig) (id : StreamId) : Silent id (MuxState.init cfg) := by
  constructor <;> simp [MuxState.init, Shared.init, Reader.init]

/-- A step of a task that neither reads frames nor credits the peer. -/
theorem Silent.of_keep {id : StreamId} {s s' : MuxState} (hI : Silent id s)
    (hframes : s'.shared.frames = s.shared.frames) (hreader : s'.reader = s.reader)
    (hwindow : ∀ c ∈ s'.shared.window.queue, c ∈ s.shared.window.queue)
    (hclose : ∀ w last status, .goAway last status ∈ (s'.shared.closeReg w).queue →
      .goAway last status ∈ (s.shared.closeReg w).queue) : Silent id s' where
  frames := by
    rw [hframes]
    exact hI.frames
  dispatch := by
    rw [hreader]
    exact hI.dispatch
  reject := by
    rw [hreader]
    exact hI.reject
  window c hc := hI.window c (hwindow c hc)
  refusals w last status h := hI.refusals w last status (hclose w last status h)
  refusing := by
    rw [hreader]
    exact hI.refusing

theorem EnqueuesClose.goAways {sh sh' : Shared} {i : StreamId} (h : EnqueuesClose sh sh' i)
    (w : Shard) (last : StreamId) (status : UInt32)
    (hg : .goAway last status ∈ (sh'.closeReg w).queue) :
    .goAway last status ∈ (sh.closeReg w).queue := by
  rw [h.queue, List.mem_append] at hg
  rcases hg with hg | hg
  · exact hg
  · split at hg <;> simp at hg

theorem KeepsCloses.goAways {sh sh' : Shared} (h : KeepsCloses sh sh') (w : Shard)
    (last : StreamId) (status : UInt32) (hg : .goAway last status ∈ (sh'.closeReg w).queue) :
    .goAway last status ∈ (sh.closeReg w).queue := by
  rwa [h.queue] at hg

theorem workerKey_ne_of_silent {id : StreamId} {f : Frame} (h : frameNames id f = false) :
    workerKey f ≠ some id := by
  cases f <;> simp_all [frameNames, workerKey]

/-- The window channel only loses commands when the writer moves. -/
theorem WriterMove.window_subset {sh sh' : Shared} {wr wr' : Writer}
    (h : WriterMove sh wr sh' wr') : ∀ c ∈ sh'.window.queue, c ∈ sh.window.queue := by
  intro c hc
  cases h with
  | takeWindow hout hheld hlive hrecv =>
      rw [Chan.recv_eq_some hrecv]
      exact List.mem_cons_of_mem _ hc
  | sendClose hout hpc hsend =>
      unfold Shared.sendClose at hsend
      split at hsend <;> cases hsend
      exact hc
  | exit hout hpc => simp at hc
  | _ => exact hc

/-- A worker's move drops registrations or leaves them. -/
theorem WorkerRegs.closes_subset {w : Shard} {k k' : Worker} {sh sh' : Shared}
    (h : WorkerRegs w k sh k' sh') (v : Shard) :
    ∀ reg ∈ (sh'.closeReg v).queue, reg ∈ (sh.closeReg v).queue := by
  intro reg hreg
  cases h with
  | takeClose taken rest hfrom hqueue hclose _ hknows hpc =>
      rw [hclose] at hreg
      split at hreg
      · next hv =>
          rw [hv, hqueue]
          exact List.mem_cons_of_mem _ hreg
      · exact hreg
  | takeReg taken rest hqueue _ hclose hknows hpc =>
      rwa [hclose] at hreg
  | keep _ hclose hknows hpc => rwa [hclose] at hreg
  | exit hpc hk _ hclose =>
      rw [hclose] at hreg
      split at hreg
      · simp at hreg
      · exact hreg

theorem step_silent {cfg : MuxConfig} {id : StreamId} {s s' : MuxState} {a : Act}
    (hid : id ≠ 0) (hI : Silent id s) (hquiet : PeerSilent id a) (hrefuse : NotRefused id a)
    (h : step cfg s a = some s') : Silent id s' := by
  obtain ⟨p, c, sh, pr, rfl, hc, rfl⟩ | ⟨p, sh, pr, z, rfl, -, -, hb, rfl⟩ |
    ⟨z, sh, pr, z', rfl, hz, hr, rfl⟩ | ⟨c, sh, r, rfl, hr, rfl⟩ |
    ⟨w, order, k, sh, rfl, hw, rfl⟩ | ⟨c, sh, wr, rfl, hw, rfl⟩ | ⟨rfl, rfl⟩ := step_cases h
  · have hfoot := client_footprint hc
    refine hI.of_keep hfoot.frames rfl (fun _ hx => hfoot.window ▸ hx) ?_
    rcases client_closes hc with hk | ⟨-, kind, hk⟩
    · exact hk.goAways
    · exact hk.goAways
  · have hfoot := realizeBegin_footprint hb
    obtain ⟨-, hclose⟩ := realizeBegin_regs hb
    exact hI.of_keep hfoot.frames rfl (fun _ hx => hfoot.window ▸ hx)
      fun w _ _ hg => hclose ▸ hg
  · have hfoot := realizeStep_footprint hr
    refine hI.of_keep hfoot.frames rfl (fun _ hx => hfoot.window ▸ hx) ?_
    rcases realizeStep_closes hr with hk | ⟨-, hk⟩ | ⟨-, hk⟩
    · exact hk.goAways
    · exact hk.goAways
    · exact hk.goAways
  · obtain ⟨hdispatch, hreject, hgoAway⟩ := reader_pc hr
    have hsaid : ∀ f, c = .receive f → workerKey f ≠ some id := by
      rintro f rfl
      exact workerKey_ne_of_silent hquiet
    constructor
    · intro w f hf
      rcases reader_frames hr with hframes | ⟨g, i, ch, -, hpc, -, -, hsend, hframes⟩
      · exact hI.frames w f (hframes ▸ hf)
      · rw [hframes] at hf
        by_cases hw : w = shardOf i
        · subst hw
          rw [Function.update_self, Chan.trySend_queue hsend, List.mem_append,
            List.mem_singleton] at hf
          rcases hf with hf | rfl
          · exact hI.frames _ f hf
          · exact hI.dispatch f hpc
        · rw [Function.update_of_ne hw] at hf
          exact hI.frames w f hf
    · exact fun f hf => hsaid f (hdispatch f hf)
    · intro hpc
      obtain ⟨f, hf, hkey⟩ := hreject id hpc
      exact hI.dispatch f hf hkey
    · intro x hx
      rcases reader_window hr with hq | ⟨m, hq⟩
      · exact hI.window x (hq ▸ hx)
      · rw [hq, List.mem_append, List.mem_singleton] at hx
        rcases hx with hx | rfl
        · exact hI.window x hx
        · rw [Spares, marks_windowUpdate, if_neg (Ne.symm hid)]
    · intro w last status hg
      rcases reader_closes hr with hclose | ⟨v, last', status', hpc, hclose⟩
      · exact hI.refusals w last status (hclose ▸ hg)
      · rw [hclose] at hg
        by_cases hv : w = v
        · subst hv
          rw [Function.update_self] at hg
          rcases sendOrDrop_mem hg with hg | hg
          · exact hI.refusals w last status hg
          · cases hg
            exact hI.refusing last status _ hpc
        · rw [Function.update_of_ne hv] at hg
          exact hI.refusals w last status hg
    · intro last status next hpc
      rcases hgoAway last status next hpc with rfl | ⟨n, hn⟩
      · exact hrefuse
      · exact hI.refusing last status n hn
  · have hmove := workerMove_of_step hw
    refine ⟨fun v f hf => hI.frames v f (hmove.frames_subset v f hf), hI.dispatch, hI.reject,
      fun x hx => ?_, fun v last status hg => ?_, hI.refusing⟩
    · rcases hmove.window with hq | ⟨f, rest, i, m, hhead, hkey, -, hq⟩
      · exact hI.window x (hq ▸ hx)
      · simp only [hq, List.mem_append, List.mem_singleton] at hx
        rcases hx with hx | rfl
        · exact hI.window x hx
        · have hne : ¬ i = id := by
            rintro rfl
            exact hI.frames w f (by rw [hhead]; exact List.mem_cons_self ..) hkey
          rw [Spares, marks_windowUpdate, if_neg hne]
    · exact hI.refusals v last status (hmove.regs.closes_subset v _ hg)
  · have hfoot := writer_footprint hw
    have hmove := writerMove_of_step hw
    refine hI.of_keep hfoot.frames rfl hmove.window_subset ?_
    rcases hmove.closes with hk | ⟨i, rest, requeued, -, hk⟩
    · exact hk.goAways
    · exact hk.goAways
  · exact hI.of_keep rfl rfl (fun _ hx => hx) fun _ _ _ hg => hg

theorem silent_invariant (cfg : MuxConfig) {id : StreamId} (hid : id ≠ 0) :
    (mux cfg).Invariant (fun _ a => PeerSilent id a ∧ NotRefused id a) (Silent id) :=
  Invariant.of_step (silent_init cfg id) fun _ _ _ hI hok h =>
    step_silent hid hI hok.1 hok.2 h

/-! ## The condition -/

/-- The writer takes no reset of the stream off the control channel while a
command that names the stream is held back or queued. -/
def ResetsInOrder (id : StreamId) (s : MuxState) : Act → Prop
  | .writer _ =>
      s.writer.out = [] ∧ s.writer.pc.pollsControl = true →
        match s.shared.control.queue with
        | .closeStream i _ :: _ => i = id →
            marks id ((s.writer.pc.held.toList ++ s.shared.cmd.queue).flatMap cmdFrames) = []
        | _ => True
  | _ => True

instance (id : StreamId) (s : MuxState) (a : Act) : Decidable (ResetsInOrder id s a) := by
  unfold ResetsInOrder
  split
  · refine @instDecidableForall _ _ inferInstance ?_
    split <;> infer_instance
  · infer_instance

/-! ## The invariant -/

/-- The guard has asked for the reset, or would have. -/
def PairPhase.resetSent : PairPhase → Bool
  | .dropping .closeError => true
  | .dropping .closeData => true
  | .dropping .releasePair => true
  | .dropping .releaseCtrlData => true
  | .dropped => true
  | _ => false

/-- The open command is enqueued and nothing has failed since. -/
def RealizePc.reserving : RealizePc → Bool
  | .reserveCtrlError => true
  | .reserveCtrlData => true
  | .reserveCloseError => true
  | .reserveCloseData => true
  | _ => false

/-- Pair `p` owns `id` as its data stream. -/
def OwnsData (s : MuxState) (p : Nat) (id : StreamId) : Prop :=
  (s.pairs p).errorId ≠ 0 ∧ (s.pairs p).dataId = id

/-- What is on its way to the wire about stream `id`. -/
def streamMarks (id : StreamId) (s : MuxState) : List Mark :=
  marks id (pipeline s.shared s.writer)

structure StreamOrder (id : StreamId) (s : MuxState) : Prop where
  order : Ordered (streamMarks id s)
  control : ∀ c ∈ s.shared.control.queue, (∃ status, c = .closeStream id status) ∨ Spares id c
  /-- A reset was asked for by the owner, after its last write. -/
  resets : (∃ status, .closeStream id status ∈ s.shared.control.queue) ∨
      .rst ∈ streamMarks id s →
    ∃ p, OwnsData s p id ∧ (s.pairs p).phase.resetSent = true
  /-- A FIN is that of the error stream or the owner's shutdown. -/
  fins : .data true ∈ streamMarks id s →
    id.toNat % 4 = 1 ∨ ∃ p, OwnsData s p id ∧ (s.pairs p).gracefulShutdown = true
  /-- While the writer runs, the SYN_STREAM of an opened stream is ahead of
  everything its owner can still send. -/
  opened : s.writer.pc.leaving = false →
    (∃ status, .closeStream id status ∈ s.shared.control.queue) ∨
      (∃ p, OwnsData s p id ∧ (s.pairs p).phase.guarded = true) ∨
      (∃ z, s.realizing = some z ∧ z.pc.reserving = true ∧ z.dataId = id) →
    streamMarks id s ≠ []
  writing : ∀ p, (s.pairs p).write ≠ .idle → (s.pairs p).gracefulShutdown = false

theorem streamOrder_init (cfg : MuxConfig) (id : StreamId) :
    StreamOrder id (MuxState.init cfg) := by
  have hmarks : marks id (pipeline (Shared.init cfg) Writer.init) = [] := by
    simp [pipeline, backlog, Shared.init, Writer.init, WriterPc.held, WriterPc.leaving,
      PendingWrite.uncounted, marks, Outgoing.mark]
  have hcontrol : (Shared.init cfg).control.queue = [] := rfl
  constructor
  · constructor <;> simp [MuxState.init, streamMarks, hmarks]
  · simp [MuxState.init, hcontrol]
  · simp [MuxState.init, streamMarks, hmarks, hcontrol]
  · simp [MuxState.init, streamMarks, hmarks]
  · simp [MuxState.init, hcontrol, PairPhase.guarded]
  · simp [MuxState.init]

/-! ### Tasks that do not own streams -/

/-- A step that leaves the pairs, the realization and the marks alone and adds at
most spared commands to the control channel. -/
theorem StreamOrder.of_keep {id : StreamId} {s s' : MuxState} (hI : StreamOrder id s)
    (hmarks : streamMarks id s' = streamMarks id s)
    (hleaving : s'.writer.pc.leaving = s.writer.pc.leaving)
    (hcontrol : ∀ c ∈ s'.shared.control.queue, c ∈ s.shared.control.queue ∨ Spares id c)
    (hpairs : s'.pairs = s.pairs) (hreal : s'.realizing = s.realizing) :
    StreamOrder id s' := by
  have hqueued : ∀ status, .closeStream id status ∈ s'.shared.control.queue →
      .closeStream id status ∈ s.shared.control.queue := by
    intro status h
    refine (hcontrol _ h).resolve_right fun hspare => ?_
    rw [Spares, marks_closeStream, if_pos rfl] at hspare
    contradiction
  constructor
  · rw [hmarks]
    exact hI.order
  · intro c hc
    rcases hcontrol c hc with hc | hc
    · exact hI.control c hc
    · exact .inr hc
  · rw [hmarks]
    simp only [OwnsData, hpairs]
    rintro (⟨status, h⟩ | h)
    · exact hI.resets (.inl ⟨status, hqueued status h⟩)
    · exact hI.resets (.inr h)
  · rw [hmarks]
    simp only [OwnsData, hpairs]
    exact hI.fins
  · rw [hmarks, hleaving]
    simp only [OwnsData, hpairs, hreal]
    intro hlive hcase
    refine hI.opened hlive (hcase.imp_left ?_)
    exact fun ⟨status, h⟩ => ⟨status, hqueued status h⟩
  · rw [hpairs]
    exact hI.writing

theorem ReaderControl.spares {id : StreamId} {s : MuxState} {a : ReaderAct} {c : MuxCommand}
    (h : ReaderControl a s.reader c) (hS : Silent id s)
    (hquiet : PeerSilent id (.reader a)) : Spares id c := by
  cases h with
  | ping i => rfl
  | pong payload => rfl
  | tooLarge i ha =>
      subst ha
      rw [Spares, marks_closeStream, if_neg hquiet]
  | reject i hpc =>
      rw [Spares, marks_closeStream, if_neg]
      rintro rfl
      exact hS.reject hpc
  | refuse i headers fin ha =>
      subst ha
      rw [Spares, marks_closeStream, if_neg]
      rintro rfl
      simp [PeerSilent, frameNames] at hquiet

theorem WorkerControl.spares {id : StreamId} {s : MuxState} {w : Shard} {c : MuxCommand}
    (h : WorkerControl w s.shared c) (hS : Silent id s) (hR : Registrations s) :
    Spares id c := by
  cases h with
  | frame hhead hkey =>
      rw [Spares, marks_closeStream, if_neg]
      rintro rfl
      exact hS.frames w _ (by rw [hhead]; exact List.mem_cons_self ..) hkey
  | refuse status hreg hid =>
      rw [Spares, marks_closeStream, if_neg]
      rintro rfl
      rcases List.mem_append.1 hreg with hreg | hreg
      · exact absurd (hS.refusals w _ status hreg) (UInt32.not_le.2 hid)
      · have := hR.regKinds w _ hreg
        simp [StreamRegistration.isOpening] at this

/-! ### The writer -/

theorem WriterMove.control_subset {sh sh' : Shared} {wr wr' : Writer}
    (h : WriterMove sh wr sh' wr') : ∀ c ∈ sh'.control.queue, c ∈ sh.control.queue := by
  intro c hc
  cases h with
  | takeControl hout hheld hlive hpc hrecv hpolls =>
      rw [Chan.recv_eq_some hrecv]
      exact List.mem_cons_of_mem _ hc
  | sendClose hout hpc hsend =>
      unfold Shared.sendClose at hsend
      split at hsend <;> cases hsend
      exact hc
  | exit hout hpc => simp at hc
  | _ => exact hc

/-- A writer that leaves its loop cuts the pipeline off behind the wire. -/
theorem StreamOrder.cut {id : StreamId} {s s' : MuxState} (hI : StreamOrder id s)
    (hleaving : s'.writer.pc.leaving = true)
    (hpipe : pipeline s'.shared s'.writer <+: pipeline s.shared s.writer)
    (hcontrol : ∀ c ∈ s'.shared.control.queue, c ∈ s.shared.control.queue)
    (hpairs : s'.pairs = s.pairs) : StreamOrder id s' := by
  have hprefix : streamMarks id s' <+: streamMarks id s := hpipe.filterMap _
  have hsub : ∀ m ∈ streamMarks id s', m ∈ streamMarks id s := fun m hm => hprefix.subset hm
  constructor
  · exact hI.order.of_prefix hprefix
  · exact fun c hc => hI.control c (hcontrol c hc)
  · simp only [OwnsData, hpairs]
    rintro (⟨status, h⟩ | h)
    · exact hI.resets (.inl ⟨status, hcontrol _ h⟩)
    · exact hI.resets (.inr (hsub _ h))
  · simp only [OwnsData, hpairs]
    exact fun h => hI.fins (hsub _ h)
  · intro hlive
    rw [hleaving] at hlive
    contradiction
  · rw [hpairs]
    exact hI.writing

/-- What the writer inserts is a reset of the stream that overtakes nothing, or it
does not name the stream. -/
theorem Inserted.marks_cases {id : StreamId} {s : MuxState} {frames : List Outgoing}
    {c : WriterAct} (h : Inserted s.shared s.writer frames) (hS : Silent id s)
    (hI : StreamOrder id s) (hcond : ResetsInOrder id s (.writer c))
    (hout : s.writer.out = []) :
    marks id frames = [] ∨
      (marks id frames = [.rst] ∧ (∃ status, .closeStream id status ∈ s.shared.control.queue) ∧
        marks id (backlog s.shared s.writer) = []) := by
  cases h with
  | @control cmd rest hpolls hq =>
      rcases hI.control cmd (by rw [hq]; exact List.mem_cons_self ..) with ⟨status, rfl⟩ | hspare
      · refine .inr ⟨by rw [marks_closeStream, if_pos rfl], ⟨status, by simp [hq]⟩, ?_⟩
        simp only [ResetsInOrder, hq] at hcond
        simpa [backlog, hout] using hcond ⟨hout, hpolls⟩
      · exact .inl hspare
  | window hq => exact .inl (hS.window _ (by rw [hq]; exact List.mem_cons_self ..))
  | ping i => exact .inl rfl
  | settings entries => exact .inl rfl

theorem WriterMove.streamOrder {id : StreamId} {s : MuxState} {c : WriterAct} {sh' : Shared}
    {wr' : Writer} (h : WriterMove s.shared s.writer sh' wr') (hF : Feeds s)
    (hS : Silent id s) (hI : StreamOrder id s) (hcond : ResetsInOrder id s (.writer c)) :
    StreamOrder id { s with shared := sh', writer := wr' } := by
  rcases h.pipeline_cases hF.quiet with ⟨hl, hp⟩ | ⟨hl, hp⟩ |
    ⟨frames, rest, hlive, hlive', hout, hins, hp, hp'⟩
  · refine hI.cut hl ?_ h.control_subset rfl
    simp only [hp]
    exact wire_prefix_pipeline _ _
  · exact hI.of_keep (by simp only [streamMarks, hp]) hl
      (fun x hx => .inl (h.control_subset x hx)) rfl rfl
  · have hbacklog : rest = backlog s.shared s.writer := by
      rw [pipeline_of_running hlive] at hp
      exact (List.append_cancel_left hp).symm
    have hmarks : streamMarks id s = marks id s.writer.wire ++ marks id rest := by
      rw [streamMarks, hp, marks_append]
    rcases hins.marks_cases hS hI hcond hout with hnone | ⟨hrst, hqueued, hbehind⟩
    · refine hI.of_keep ?_ (by rw [hlive, hlive']) (fun x hx => .inl (h.control_subset x hx))
        rfl rfl
      rw [hmarks]
      simp [streamMarks, hp', hnone]
    · -- The reset comes right behind what is on the wire, and nothing of the
      -- stream is left to follow it.
      rw [← hbacklog] at hbehind
      rw [hbehind, List.append_nil] at hmarks
      have hnew : marks id (pipeline sh' wr') = marks id s.writer.wire ++ [.rst] := by
        rw [hp']
        simp [hrst, hbehind]
      have hne : streamMarks id s ≠ [] := hI.opened hlive (.inl hqueued)
      have howner := hI.resets (.inl hqueued)
      constructor
      · simp only [streamMarks, hnew, ← hmarks]
        refine hI.order.append (.inr hne) (by simp) fun a _ b hb => ?_
        rw [List.mem_singleton.1 hb]
        cases a with
        | data fin => cases fin <;> rfl
        | _ => rfl
      · exact fun x hx => hI.control x (h.control_subset x hx)
      · exact fun _ => howner
      · intro hfin
        simp only [streamMarks, hnew, List.mem_append, List.mem_singleton, reduceCtorEq,
          or_false] at hfin
        exact hI.fins (by rw [hmarks]; exact hfin)
      · intro _ _
        simp [streamMarks, hnew]
      · exact hI.writing

/-! ### Owners -/

/-- An owner goes on from its reset to the end, does not take back its shutdown,
and does not write after it. -/
theorem client_closing {cfg : MuxConfig} {p : Nat} {a : ClientAct} {sh sh' : Shared}
    {pr pr' : Pair} (h : clientStep cfg p a sh pr = some (sh', pr')) :
    (pr.phase.resetSent = true → pr'.phase.resetSent = true) ∧
      (pr.gracefulShutdown = true → pr'.gracefulShutdown = true) ∧
      ((pr.write ≠ .idle → pr.gracefulShutdown = false) →
        pr'.write ≠ .idle → pr'.gracefulShutdown = false) := by
  cases a <;>
    simp only [clientStep, Pair.openBegin, Pair.openStep, Pair.read, Pair.fillBuf,
      Pair.consume, Pair.writeBegin, Pair.writeReserve, Pair.writePick,
      Pair.writeRecheck, Pair.writeDebit, Pair.writeSend, Pair.shutdown,
      Pair.dropReceiver, Pair.dropRest, Pair.dropStep, Shared.sendReservedClose] at h <;>
    (repeat' split at h) <;>
    first
    | contradiction
    | simp only [Option.map_eq_some_iff, Option.some.injEq, Prod.mk.injEq] at h
      grind [PairPhase.resetSent]

/-- Ids of allocated pairs fit in 31 bits. -/
theorem Ownership.dataId_le {s : MuxState} (hW : Ownership s) (hO : SynOrder s) {p : Nat}
    (hp : (s.pairs p).errorId ≠ 0) : (s.pairs p).dataId ≤ MAX_STREAM_ID := by
  have hids := hW.ids p hp
  have hle := hO.next_le
  rw [UInt32.le_iff_toNat_le]
  simp only [MAX_STREAM_ID, UInt32.reduceToNat]
  omega

theorem Ownership.ownsData_unique {s : MuxState} (hW : Ownership s) {p q : Nat} {id : StreamId}
    (hp : OwnsData s p id) (hq : OwnsData s q id) : p = q :=
  (hW.idOf_inj hp.1 hq.1 (show (s.pairs p).idOf .data = (s.pairs q).idOf .data from
    hp.2.trans hq.2.symm)).1

/-- A data stream is not an error stream. -/
theorem Ownership.ownsData_mod {s : MuxState} (hW : Ownership s) {p : Nat} {id : StreamId}
    (hp : OwnsData s p id) : id.toNat % 4 = 3 := by
  have hids := hW.ids p hp.1
  rw [← hp.2]
  omega

/-- While the owner of a stream can still write, nothing on its way to the wire
forbids data. -/
theorem StreamOrder.allows_data {id : StreamId} {s : MuxState} (hI : StreamOrder id s)
    (hW : Ownership s) {p : Nat} (hown : OwnsData s p id) (hphase : (s.pairs p).phase = .opened)
    (hopen : (s.pairs p).gracefulShutdown = false) (fin : Bool) :
    ∀ m ∈ streamMarks id s, m.allows (.data fin) = true := by
  intro m hm
  cases m with
  | syn => rfl
  | window => rfl
  | rst =>
      obtain ⟨q, hq, hreset⟩ := hI.resets (.inr hm)
      rw [← hW.ownsData_unique hown hq, hphase] at hreset
      contradiction
  | data b =>
      cases b with
      | false => rfl
      | true =>
          rcases hI.fins hm with hmod | ⟨q, hq, hgrace⟩
          · rw [hW.ownsData_mod hown] at hmod
            contradiction
          · rw [← hW.ownsData_unique hown hq, hopen] at hgrace
            contradiction

/-- What an owner's step adds to the frames of stream `id`: data, while it owns the
stream and has not shut it down. -/
theorem client_marks {cfg : MuxConfig} {s : MuxState} {p : Nat} {c : ClientAct} {sh : Shared}
    {pr : Pair} (id : StreamId) (hO : SynOrder s) (hW : Ownership s)
    (hwriting : ∀ q, (s.pairs q).write ≠ .idle → (s.pairs q).gracefulShutdown = false)
    (h : clientStep cfg p c s.shared (s.pairs p) = some (sh, pr)) :
    marks id (pipeline sh s.writer) = streamMarks id s ∨
    ∃ fin, marks id (pipeline sh s.writer) = streamMarks id s ++ [.data fin] ∧
      OwnsData s p id ∧ (s.pairs p).phase = .opened ∧
      (s.pairs p).gracefulShutdown = false ∧ (fin = true → pr.gracefulShutdown = true) := by
  rcases client_cmd h with hq | ⟨payload, -, hwrite, hq⟩ | ⟨-, hphase, -, hgrace, hgrace', hq⟩
  · exact .inl (by rw [streamMarks, pipeline_congr _ hq])
  · have hbusy : (s.pairs p).write ≠ .idle := by simp [hwrite]
    have hphase := hW.writing p hbusy
    obtain ⟨hne, -⟩ := hW.guarded p (by rw [hphase]; rfl)
    rcases pipeline_push s.writer hq with hp | hp
    · exact .inl (by rw [streamMarks, hp])
    · rw [hp, marks_append, marks_sendRawFrame _ _ _ (hW.dataId_le hO hne)]
      by_cases hid : (s.pairs p).dataId = id
      · rw [if_pos hid]
        exact .inr ⟨false, rfl, ⟨hne, hid⟩, hphase, hwriting p hbusy, by simp⟩
      · rw [if_neg hid, List.append_nil]
        exact .inl rfl
  · obtain ⟨hne, -⟩ := hW.guarded p (by rw [hphase]; rfl)
    rcases pipeline_push s.writer hq with hp | hp
    · exact .inl (by rw [streamMarks, hp])
    · rw [hp, marks_append, marks_shutdown _ _ (hW.dataId_le hO hne)]
      by_cases hid : (s.pairs p).dataId = id
      · rw [if_pos hid]
        exact .inr ⟨true, rfl, ⟨hne, hid⟩, hphase, hgrace, fun _ => hgrace'⟩
      · rw [if_neg hid, List.append_nil]
        exact .inl rfl

/-- Some pair has a property before a pair is updated, so some pair has it after. -/
theorem exists_pair_update (P : Pair → Prop) {f : Nat → Pair} {p : Nat} {pr : Pair}
    (h : P (f p) → P pr) (hex : ∃ q, P (f q)) : ∃ q, P (Function.update f p pr q) := by
  obtain ⟨q, hq⟩ := hex
  refine ⟨q, ?_⟩
  by_cases hqp : q = p
  · subst hqp
    rw [Function.update_self]
    exact h hq
  · rwa [Function.update_of_ne hqp]

/-- And the other way round. -/
theorem exists_pair_of_update (P : Pair → Prop) {f : Nat → Pair} {p : Nat} {pr : Pair}
    (h : P pr → P (f p)) (hex : ∃ q, P (Function.update f p pr q)) : ∃ q, P (f q) := by
  obtain ⟨q, hq⟩ := hex
  refine ⟨q, ?_⟩
  by_cases hqp : q = p
  · subst hqp
    rw [Function.update_self] at hq
    exact h hq
  · rwa [Function.update_of_ne hqp] at hq

/-- The owner of stream `id` has gone past its reset. -/
def OwnerReset (id : StreamId) (pairs : Nat → Pair) : Prop :=
  ∃ p, ((pairs p).errorId ≠ 0 ∧ (pairs p).dataId = id) ∧ (pairs p).phase.resetSent = true

/-- The owner of stream `id` has shut it down. -/
def OwnerShut (id : StreamId) (pairs : Nat → Pair) : Prop :=
  ∃ p, ((pairs p).errorId ≠ 0 ∧ (pairs p).dataId = id) ∧ (pairs p).gracefulShutdown = true

/-- Stream `id` belongs to a pair that was opened. -/
def OwnerGuarded (id : StreamId) (pairs : Nat → Pair) : Prop :=
  ∃ p, ((pairs p).errorId ≠ 0 ∧ (pairs p).dataId = id) ∧ (pairs p).phase.guarded = true

theorem StreamOrder.client {cfg : MuxConfig} {id : StreamId} {s : MuxState} {p : Nat}
    {c : ClientAct} {sh : Shared} {pr : Pair} (hI : StreamOrder id s) (hO : SynOrder s)
    (hW : Ownership s) (h : clientStep cfg p c s.shared (s.pairs p) = some (sh, pr)) :
    StreamOrder id { s with shared := sh, pairs := Function.update s.pairs p pr } := by
  obtain ⟨herr, hdata, -, hguard, -⟩ := client_pair h
  obtain ⟨hreset, hgrace, hwrite⟩ := client_closing h
  have hresetOwner : OwnerReset id s.pairs → OwnerReset id (Function.update s.pairs p pr) := by
    refine exists_pair_update (fun x => (x.errorId ≠ 0 ∧ x.dataId = id) ∧
      x.phase.resetSent = true) fun hx => ?_
    rw [herr, hdata]
    exact ⟨hx.1, hreset hx.2⟩
  have hshutOwner : OwnerShut id s.pairs → OwnerShut id (Function.update s.pairs p pr) := by
    refine exists_pair_update (fun x => (x.errorId ≠ 0 ∧ x.dataId = id) ∧
      x.gracefulShutdown = true) fun hx => ?_
    rw [herr, hdata]
    exact ⟨hx.1, hgrace hx.2⟩
  have hguardOwner : OwnerGuarded id (Function.update s.pairs p pr) → OwnerGuarded id s.pairs := by
    refine exists_pair_of_update (fun x => (x.errorId ≠ 0 ∧ x.dataId = id) ∧
      x.phase.guarded = true) fun hx => ?_
    rw [← herr, ← hdata]
    exact ⟨hx.1, hguard hx.2⟩
  -- A reset in the control channel was there before or is the guard's.
  have hqueued : (∃ status, .closeStream id status ∈ sh.control.queue) →
      (∃ status, .closeStream id status ∈ s.shared.control.queue) ∨
        (OwnerGuarded id s.pairs ∧ OwnerReset id (Function.update s.pairs p pr)) := by
    rintro ⟨status, hmem⟩
    rcases client_control h with hq | ⟨-, hphase, -, hpr, hq⟩
    · exact .inl ⟨status, hq ▸ hmem⟩
    · rw [hq, List.mem_append, List.mem_singleton] at hmem
      rcases hmem with hmem | hmem
      · exact .inl ⟨status, hmem⟩
      · have hg : (s.pairs p).phase.guarded = true := by rw [hphase]; rfl
        have hne := (hW.guarded p hg).1
        simp only [MuxCommand.closeStream.injEq] at hmem
        refine .inr ⟨⟨p, ⟨hne, hmem.1.symm⟩, hg⟩, p, ?_⟩
        rw [Function.update_self, herr, hdata, hpr]
        exact ⟨⟨hne, hmem.1.symm⟩, rfl⟩
  have hcontrol : ∀ x ∈ sh.control.queue,
      (∃ status, x = .closeStream id status) ∨ Spares id x := by
    intro x hx
    rcases client_control h with hq | ⟨-, -, -, -, hq⟩
    · exact hI.control x (hq ▸ hx)
    · rw [hq, List.mem_append, List.mem_singleton] at hx
      rcases hx with hx | rfl
      · exact hI.control x hx
      · by_cases hid : (s.pairs p).dataId = id
        · exact .inl ⟨_, by rw [hid]⟩
        · exact .inr (by rw [Spares, marks_closeStream, if_neg hid])
  have hmarks := client_marks id hO hW hI.writing h
  -- The marks that were there stay in front.
  have hsub : ∀ m ∈ streamMarks id s, m ∈ marks id (pipeline sh s.writer) := by
    intro m hm
    rcases hmarks with hm' | ⟨fin, hm', -⟩ <;> rw [hm']
    · exact hm
    · exact List.mem_append_left _ hm
  constructor
  · rcases hmarks with hm | ⟨fin, hm, hown, hphase, hopen, -⟩ <;> simp only [streamMarks, hm]
    · exact hI.order
    · have hallow := hI.allows_data hW hown hphase hopen fin
      cases hl : s.writer.pc.leaving with
      | false =>
          have hne := hI.opened hl (.inr (.inl ⟨p, hown, by rw [hphase]; rfl⟩))
          refine hI.order.append (.inr hne) (by simp) fun a ha b hb => ?_
          rw [List.mem_singleton.1 hb]
          exact hallow a ha
      | true =>
          have hsame : marks id (pipeline sh s.writer) = streamMarks id s := by
            rw [streamMarks, pipeline_of_leaving hl, pipeline_of_leaving hl]
          rw [hsame] at hm
          have := congrArg List.length hm
          simp at this
  · exact hcontrol
  · rintro (hmem | hmem)
    · rcases hqueued hmem with hold | ⟨-, hnew⟩
      · exact hresetOwner (hI.resets (.inl hold))
      · exact hnew
    · refine hresetOwner (hI.resets (.inr ?_))
      rcases hmarks with hm | ⟨fin, hm, -⟩ <;> simp only [streamMarks, hm] at hmem
      · exact hmem
      · rcases List.mem_append.1 hmem with hmem | hmem
        · exact hmem
        · simp at hmem
  · intro hmem
    rcases hmarks with hm | ⟨fin, hm, hown, -, -, hfin⟩ <;> simp only [streamMarks, hm] at hmem
    · exact (hI.fins hmem).imp_right hshutOwner
    · rcases List.mem_append.1 hmem with hmem | hmem
      · exact (hI.fins hmem).imp_right hshutOwner
      · refine .inr ⟨p, ?_⟩
        simp only [OwnsData, Function.update_self, herr, hdata]
        refine ⟨hown, hfin ?_⟩
        have heq := List.mem_singleton.1 hmem
        simp only [Mark.data.injEq] at heq
        exact heq.symm
  · rintro hlive hcase hnil
    have hold : streamMarks id s = [] := by
      rw [List.eq_nil_iff_forall_not_mem]
      intro m hm
      have := hsub m hm
      rw [show marks id (pipeline sh s.writer) = [] from hnil] at this
      contradiction
    refine hI.opened hlive ?_ hold
    rcases hcase with hmem | hmem | hmem
    · rcases hqueued hmem with hq | ⟨hg, -⟩
      · exact .inl hq
      · exact .inr (.inl hg)
    · exact .inr (.inl (hguardOwner hmem))
    · exact .inr (.inr hmem)
  · intro q hq
    by_cases hqp : q = p
    · subst hqp
      simp only [Function.update_self] at hq ⊢
      exact hwrite (hI.writing q) hq
    · simp only [Function.update_of_ne hqp] at hq ⊢
      exact hI.writing q hq

/-! ### Realizations -/

/-- Allocating ids concerns no stream that a frame names. -/
theorem StreamOrder.allocate {id : StreamId} {s : MuxState} {p : Nat} {sh : Shared} {pr : Pair}
    {z : Option Realize} (hI : StreamOrder id s) (hW : Ownership s)
    (hphase : (s.pairs p).phase = .unopened)
    (h : realizeBegin p s.shared (s.pairs p) = (sh, pr, z)) :
    StreamOrder id { s with
      shared := sh, pairs := Function.update s.pairs p pr, realizing := z } := by
  obtain ⟨hcmd, hcontrol⟩ := realizeBegin_writer h
  have hzero := hW.fresh p (by rw [hphase]; rfl)
  have hmarks : marks id (pipeline sh s.writer) = streamMarks id s := by
    rw [streamMarks, pipeline_congr s.writer (congrArg Chan.queue hcmd)]
  have hspared : ∀ x ∈ sh.control.queue, x ∈ s.shared.control.queue ∨ Spares id x := by
    intro x hx
    rcases hcontrol with hq | ⟨last, hq⟩ <;> rw [hq] at hx
    · exact .inl hx
    · rcases List.mem_append.1 hx with hx | hx
      · exact .inl hx
      · rw [List.mem_singleton.1 hx]
        exact .inr rfl
  have hqueued : ∀ status, .closeStream id status ∈ sh.control.queue →
      .closeStream id status ∈ s.shared.control.queue := by
    intro status hx
    refine (hspared _ hx).resolve_right fun hspare => ?_
    rw [Spares, marks_closeStream, if_pos rfl] at hspare
    contradiction
  -- The pair had no ids before, and its new phase is neither past a reset nor opened.
  have hfresh : pr.phase.guarded = false ∧ pr.write = (s.pairs p).write ∧
      pr.gracefulShutdown = (s.pairs p).gracefulShutdown ∧
      ∀ y, z = some y → y.pc.reserving = false := by
    obtain ⟨-, ⟨rfl, rfl⟩ | ⟨y, rfl, rfl⟩⟩ := realizeBegin_pair h
    · simp [PairPhase.guarded]
    · obtain ⟨-, -, -, -, -, hpc, -⟩ := realizeBegin_opening h
      simp [PairPhase.guarded, hpc, RealizePc.reserving]
  constructor
  · simp only [streamMarks, hmarks]
    exact hI.order
  · exact fun x hx => (hspared x hx).elim (hI.control x) .inr
  · rintro hcase
    have hold : OwnerReset id s.pairs := by
      rcases hcase with ⟨status, hx⟩ | hx
      · exact hI.resets (.inl ⟨status, hqueued status hx⟩)
      · exact hI.resets (.inr (by simpa only [streamMarks, hmarks] using hx))
    exact exists_pair_update (fun x => (x.errorId ≠ 0 ∧ x.dataId = id) ∧
      x.phase.resetSent = true) (fun hx => absurd hzero hx.1.1) hold
  · intro hfin
    refine (hI.fins (by simpa only [streamMarks, hmarks] using hfin)).imp_right fun hold => ?_
    exact exists_pair_update (fun x => (x.errorId ≠ 0 ∧ x.dataId = id) ∧
      x.gracefulShutdown = true) (fun hx => absurd hzero hx.1.1) hold
  · intro hlive hcase
    simp only [streamMarks, hmarks]
    refine hI.opened hlive ?_
    rcases hcase with ⟨status, hx⟩ | hx | ⟨y, hy, hpc, -⟩
    · exact .inl ⟨status, hqueued status hx⟩
    · refine .inr (.inl (exists_pair_of_update (fun x => (x.errorId ≠ 0 ∧ x.dataId = id) ∧
        x.phase.guarded = true) (fun hg => ?_) hx))
      rw [hfresh.1] at hg
      simp at hg
    · rw [hfresh.2.2.2 y hy] at hpc
      contradiction
  · intro q hq
    by_cases hqp : q = p
    · subst hqp
      simp only [Function.update_self, hfresh.2.1, hfresh.2.2.1] at hq ⊢
      exact hI.writing q hq
    · simp only [Function.update_of_ne hqp] at hq ⊢
      exact hI.writing q hq

/-- No frame names a stream whose open command is not enqueued yet. -/
theorem StreamOrder.unnamed {id : StreamId} {s : MuxState} {z : Realize}
    (hI : StreamOrder id s) (hO : SynOrder s) (hz : s.realizing = some z)
    (hpc : z.pc.beforeOpen = true) (hid : id = z.errorId ∨ id = z.dataId) :
    streamMarks id s = [] := by
  by_contra hne
  have hsyn := hO.bounded id (hI.order.syn_mem hne)
  have hbound : synBound s = z.errorId.toNat := by simp [synBound, hz, hpc]
  obtain ⟨-, hsum, -⟩ := hO.opening z hz
  rw [hbound] at hsyn
  rcases hid with rfl | rfl <;> omega

/-- The next program counter of a realization reserves only after the open command
was enqueued. -/
theorem realizeStep_reserving {z y : Realize} {sh sh' : Shared} {pr pr' : Pair}
    (h : z.step sh pr = (sh', pr', some y)) (hpc : y.pc.reserving = true) :
    z.pc.reserving = true ∨ z.pc = .enqueueOpen := by
  unfold Realize.step at h
  cases hz : z.pc <;> simp only [hz] at h <;> (repeat' split at h) <;>
    simp only [Prod.mk.injEq, Option.some.injEq, reduceCtorEq, and_false] at h <;>
    (obtain ⟨-, -, rfl⟩ := h; simp_all [RealizePc.reserving])

/-- What a realization adds to the frames of stream `id`. -/
theorem realizeStep_marks {s : MuxState} {z : Realize} {sh : Shared} {pr : Pair}
    {z' : Option Realize} (id : StreamId) (hO : SynOrder s) (hz : s.realizing = some z)
    (h : z.step s.shared (s.pairs z.pair) = (sh, pr, z')) :
    (marks id (pipeline sh s.writer) = streamMarks id s ∧
      (s.writer.pc.leaving = false → z.dataId = id →
        z.pc = .enqueueOpen → ∀ y, z' = some y → y.pc.reserving = false)) ∨
    (z.pc = .enqueueOpen ∧ ∃ added, marks id (pipeline sh s.writer) = streamMarks id s ++ added ∧
      (added = [.syn, .data true] ∧ id = z.errorId ∨ added = [.syn] ∧ id = z.dataId)) := by
  obtain ⟨hmod, hsum, hcount⟩ := hO.opening z hz
  have hle := hO.next_le
  have he : z.errorId ≤ MAX_STREAM_ID := by
    rw [UInt32.le_iff_toNat_le]
    simp only [MAX_STREAM_ID, UInt32.reduceToNat]
    omega
  have hne : z.dataId ≠ z.errorId := by
    intro heq
    rw [heq] at hsum
    omega
  obtain ⟨-, hcmd | ⟨hpc, rfl, -, hq⟩⟩ := realizeStep_writer h
  · refine .inl ⟨by rw [streamMarks, pipeline_congr _ (congrArg Chan.queue hcmd)], ?_⟩
    intro _ _ hpc y hy
    unfold Realize.step at h
    simp only [hpc] at h
    split at h
    · next c hsend =>
        cases h
        have := congrArg List.length (Chan.trySend_queue hsend)
        rw [show c = s.shared.cmd from hcmd] at this
        simp at this
    · cases h
      cases hy
      rfl
  · cases hl : s.writer.pc.leaving with
    | true =>
        refine .inl ⟨by rw [streamMarks, pipeline_of_leaving hl, pipeline_of_leaving hl], ?_⟩
        simp
    | false =>
        have hp : pipeline sh s.writer = pipeline s.shared s.writer ++ cmdFrames
            (.openStreamPair z.errorId z.dataId (s.pairs z.pair).errorHeaders
              (s.pairs z.pair).dataHeaders) := by
          rw [pipeline_of_running hl, pipeline_of_running hl]
          simp [backlog, hq]
        have hm := marks_openStreamPair id z.errorId z.dataId (s.pairs z.pair).errorHeaders
          (s.pairs z.pair).dataHeaders he hne
        by_cases hid : z.errorId = id
        · rw [if_pos hid] at hm
          exact .inr ⟨hpc, _, by rw [hp, marks_append, hm]; rfl, .inl ⟨rfl, hid.symm⟩⟩
        · rw [if_neg hid] at hm
          by_cases hid' : z.dataId = id
          · rw [if_pos hid'] at hm
            exact .inr ⟨hpc, _, by rw [hp, marks_append, hm]; rfl, .inr ⟨rfl, hid'.symm⟩⟩
          · rw [if_neg hid'] at hm
            refine .inl ⟨by rw [hp, marks_append, hm, List.append_nil]; rfl, ?_⟩
            exact fun _ h => absurd h hid'

theorem StreamOrder.realize {id : StreamId} {s : MuxState} {z : Realize} {sh : Shared}
    {pr : Pair} {z' : Option Realize} (hI : StreamOrder id s) (hO : SynOrder s)
    (hW : Ownership s) (hz : s.realizing = some z)
    (h : z.step s.shared (s.pairs z.pair) = (sh, pr, z')) :
    StreamOrder id { s with
      shared := sh, pairs := Function.update s.pairs z.pair pr, realizing := z' } := by
  obtain ⟨hcontrol, -⟩ := realizeStep_writer h
  obtain ⟨hphase, herr, hdata⟩ := hW.realizing z hz
  obtain ⟨hmod, -, -⟩ := hO.opening z hz
  -- The pair keeps its ids and flags; only its phase changes, from `realizing`.
  have hpair : pr.errorId = z.errorId ∧ pr.dataId = z.dataId ∧
      pr.write = (s.pairs z.pair).write ∧
      pr.gracefulShutdown = (s.pairs z.pair).gracefulShutdown ∧
      (pr.phase.guarded = true → z.pc = .reserveCloseData) := by
    rcases realizeStep_pair h with ⟨rfl, -⟩ | ⟨rfl, -⟩ | ⟨rfl, -, hpc⟩
    · simp [herr, hdata, hphase, PairPhase.guarded]
    · simp [herr, hdata, PairPhase.guarded]
    · simp [herr, hdata, hpc]
  obtain ⟨hprErr, hprData, hprWrite, hprGrace, hprGuard⟩ := hpair
  have hmarks := realizeStep_marks id hO hz h
  have hsub : ∀ m ∈ streamMarks id s, m ∈ marks id (pipeline sh s.writer) := by
    intro m hm
    rcases hmarks with ⟨hm', -⟩ | ⟨-, added, hm', -⟩ <;> rw [hm']
    · exact hm
    · exact List.mem_append_left _ hm
  -- What is new is a SYN_STREAM, and the FIN of the error stream.
  have hnew : ∀ m ∈ marks id (pipeline sh s.writer), m ∈ streamMarks id s ∨ m = .syn ∨
      (m = .data true ∧ id = z.errorId) := by
    intro m hm
    rcases hmarks with ⟨hm', -⟩ | ⟨-, added, hm', hadd⟩ <;> rw [hm'] at hm
    · exact .inl hm
    · rcases List.mem_append.1 hm with hm | hm
      · exact .inl hm
      · rcases hadd with ⟨rfl, hid⟩ | ⟨rfl, hid⟩
        · simp only [List.mem_cons, List.not_mem_nil, or_false] at hm
          exact hm.elim (fun h => .inr (.inl h)) fun h => .inr (.inr ⟨h, hid⟩)
        · exact .inr (.inl (List.mem_singleton.1 hm))
  constructor
  · rcases hmarks with ⟨hm, -⟩ | ⟨hpc, added, hm, hadd⟩ <;> simp only [streamMarks, hm]
    · exact hI.order
    · have hids : id = z.errorId ∨ id = z.dataId := hadd.imp And.right And.right
      have hempty := hI.unnamed hO hz (by rw [hpc]; rfl) hids
      rw [streamMarks] at hempty
      rw [hempty, List.nil_append]
      rcases hadd with ⟨rfl, -⟩ | ⟨rfl, -⟩
      · exact ⟨by simp, by simp [Mark.allows]⟩
      · exact ⟨by simp, by simp⟩
  · exact fun x hx => hI.control x (hcontrol ▸ hx)
  · intro hcase
    have hold : OwnerReset id s.pairs := by
      rcases hcase with ⟨status, hx⟩ | hx
      · exact hI.resets (.inl ⟨status, hcontrol ▸ hx⟩)
      · rcases hnew _ hx with hx | hx | ⟨hx, -⟩
        · exact hI.resets (.inr hx)
        · contradiction
        · contradiction
    refine exists_pair_update (fun x => (x.errorId ≠ 0 ∧ x.dataId = id) ∧
      x.phase.resetSent = true) (fun hx => ?_) hold
    rw [hphase] at hx
    simp [PairPhase.resetSent] at hx
  · intro hfin
    rcases hnew _ hfin with hx | hx | ⟨-, rfl⟩
    · refine (hI.fins hx).imp_right fun hold => ?_
      refine exists_pair_update (fun x => (x.errorId ≠ 0 ∧ x.dataId = id) ∧
        x.gracefulShutdown = true) (fun hx => ?_) hold
      rw [hprErr, hprData, hprGrace, ← herr, ← hdata]
      exact hx
    · contradiction
    · exact .inl hmod
  · intro hlive hcase hnil
    have hold : streamMarks id s = [] := by
      rw [List.eq_nil_iff_forall_not_mem]
      intro m hm
      have hin := hsub m hm
      rw [show marks id (pipeline sh s.writer) = [] from hnil] at hin
      contradiction
    refine hI.opened hlive ?_ hold
    rcases hcase with ⟨status, hx⟩ | ⟨q, hq⟩ | ⟨y, hy, hpc, hyid⟩
    · exact .inl ⟨status, hcontrol ▸ hx⟩
    · by_cases hqz : q = z.pair
      · subst hqz
        simp only [OwnsData, Function.update_self, hprData] at hq
        refine .inr (.inr ⟨z, hz, ?_, hq.1.2⟩)
        rw [hprGuard hq.2]
        rfl
      · simp only [OwnsData, Function.update_of_ne hqz] at hq
        exact .inr (.inl ⟨q, hq⟩)
    · simp only at hy
      subst hy
      obtain ⟨-, -, hydata⟩ := realizeStep_same h
      rw [hydata] at hyid
      rcases realizeStep_reserving h hpc with hzpc | hzpc
      · exact .inr (.inr ⟨z, hz, hzpc, hyid⟩)
      · rcases hmarks with ⟨-, hno⟩ | ⟨-, added, hm, hadd⟩
        · rw [hno hlive hyid hzpc y rfl] at hpc
          contradiction
        · rw [show marks id (pipeline sh s.writer) = [] from hnil] at hm
          rcases hadd with ⟨rfl, -⟩ | ⟨rfl, -⟩ <;> simp at hm
  · intro q hq
    by_cases hqz : q = z.pair
    · subst hqz
      simp only [Function.update_self, hprWrite, hprGrace] at hq ⊢
      exact hI.writing z.pair hq
    · simp only [Function.update_of_ne hqz] at hq ⊢
      exact hI.writing q hq

/-! ### Every run -/

theorem step_streamOrder {cfg : MuxConfig} {id : StreamId} {s s' : MuxState} {a : Act}
    (hF : Feeds s) (hO : SynOrder s) (hW : Ownership s) (hR : Registrations s)
    (hS : Silent id s) (hI : StreamOrder id s) (hquiet : PeerSilent id a)
    (hcond : ResetsInOrder id s a) (h : step cfg s a = some s') : StreamOrder id s' := by
  obtain ⟨p, c, sh, pr, rfl, hc, rfl⟩ | ⟨p, sh, pr, z, rfl, -, hphase, hb, rfl⟩ |
    ⟨z, sh, pr, z', rfl, hz, hr, rfl⟩ | ⟨c, sh, r, rfl, hr, rfl⟩ |
    ⟨w, order, k, sh, rfl, hw, rfl⟩ | ⟨c, sh, wr, rfl, hw, rfl⟩ | ⟨rfl, rfl⟩ := step_cases h
  · exact hI.client hO hW hc
  · exact hI.allocate hW hphase hb
  · exact hI.realize hO hW hz hr
  · have hfoot := reader_footprint hr
    refine hI.of_keep ?_ rfl (fun x hx => ?_) rfl rfl
    · simp only [streamMarks]
      rw [pipeline_congr s.writer (congrArg Chan.queue hfoot.cmd)]
    · rcases reader_control hr with hq | ⟨y, hq, hy⟩ <;> rw [hq] at hx
      · exact .inl hx
      · rcases List.mem_append.1 hx with hx | hx
        · exact .inl hx
        · rw [List.mem_singleton.1 hx]
          exact .inr (hy.spares hS hquiet)
  · have hmove := workerMove_of_step hw
    obtain ⟨added, hadd, hP⟩ := hmove.control
    refine hI.of_keep ?_ rfl (fun x hx => ?_) rfl rfl
    · simp only [streamMarks]
      rw [pipeline_congr s.writer (congrArg Chan.queue hmove.footprint.cmd)]
    · rw [hadd, List.mem_append] at hx
      exact hx.imp_right fun hx => (hP x hx).spares hS hR
  · exact (writerMove_of_step hw).streamOrder hF hS hI hcond
  · exact hI.of_keep rfl rfl (fun _ hx => .inl hx) rfl rfl

theorem streamOrder_invariant (cfg : MuxConfig) {id : StreamId} (hid : id ≠ 0) :
    (mux cfg).Invariant
      (fun s a => PeerSilent id a ∧ NotRefused id a ∧ ResetsInOrder id s a) (StreamOrder id) := by
  have hbase := Invariant.and (feeds_invariant cfg) (Invariant.and (synOrder_invariant cfg)
    (Invariant.and (ownership_invariant cfg) (registrations_invariant cfg)))
  have hsilent := Invariant.restrict (silent_invariant cfg hid)
    fun s a (h : PeerSilent id a ∧ NotRefused id a ∧ ResetsInOrder id s a) => ⟨h.1, h.2.1⟩
  refine Invariant.of_step_using
    (Invariant.and (Invariant.restrict hbase fun _ _ _ => trivial) hsilent)
    (streamOrder_init cfg id) ?_
  intro s a s' ⟨⟨hF, hO, hW, hR⟩, hS⟩ hI hok h
  exact step_streamOrder hF hO hW hR hS hI hok.1 hok.2.2 h

/-! ## The wire -/

/-- Stream `id` is allocated to one of the pairs. -/
def Allocated (id : StreamId) (s : MuxState) : Prop :=
  ∃ p kind, (s.pairs p).errorId ≠ 0 ∧ (s.pairs p).idOf kind = id

/-- Any number of pairs, in any interleaving of their owners with the writer: while
the peer says nothing about a stream, the frames that name it appear in order, as
long as none of its resets overtakes a command that names it. -/
theorem stream_frames_in_order (cfg : MuxConfig) (acts : List Act) (s : MuxState)
    (id : StreamId) (hrun : (mux cfg).run (mux cfg).init acts = some s)
    (hmeets : (mux cfg).Meets
      (fun s a => PeerSilent id a ∧ NotRefused id a ∧ ResetsInOrder id s a)
      (mux cfg).init acts)
    (halloc : Allocated id s) : InOrder id s.writer.wire := by
  have hW := ownership_invariant cfg acts s hrun (meets_anyStep _ _)
  have hid : id ≠ 0 := by
    rintro rfl
    obtain ⟨p, kind, hne, heq⟩ := halloc
    have hids := hW.ids p hne
    have hzero := congrArg UInt32.toNat heq
    cases kind with
    | data =>
        simp only [Pair.idOf, UInt32.toNat_zero] at hzero
        omega
    | error => exact hne heq
  have hI := streamOrder_invariant cfg hid acts s hrun hmeets
  exact hI.order.of_prefix ((wire_prefix_pipeline s.shared s.writer).filterMap _)

/-- A pair is opened and written to the wire, then dropped, and its reset written. -/
def openThenResetActs : List Act :=
  startActs ++ openActs 0 ++ realizeActs 0 ++ writeOpenActs ++
    [Act.client 0 (.dropReceiver .data), .client 0 (.dropReceiver .error), .client 0 .dropRest,
      .client 0 .dropStep, .client 0 .dropStep] ++
    [Act.writer .step, .writer (.flush true), .writer .step] ++
    List.replicate 3 (Act.writer .step) ++ [Act.writer (.emit true)]

theorem stream_frames_in_order_reset :
    ∃ s, (mux MuxConfig.default).run (mux MuxConfig.default).init openThenResetActs = some s ∧
      marks 3 s.writer.wire = [.syn, .rst] ∧ InOrder 3 s.writer.wire := by
  have hobs : ((mux MuxConfig.default).run (mux MuxConfig.default).init openThenResetActs).map
      (fun s => (marks 3 s.writer.wire, (s.pairs 0).errorId, (s.pairs 0).dataId)) =
      some ([.syn, .rst], 1, 3) := by decide +kernel
  have hmeets : (mux MuxConfig.default).Meets
      (fun s a => PeerSilent 3 a ∧ NotRefused 3 a ∧ ResetsInOrder 3 s a)
      (mux MuxConfig.default).init openThenResetActs := meets_of_check (by decide +kernel)
  obtain ⟨s, hrun, hs⟩ := Option.map_eq_some_iff.1 hobs
  simp only [Prod.mk.injEq] at hs
  refine ⟨s, hrun, hs.1, stream_frames_in_order _ _ s 3 hrun hmeets ⟨0, .data, ?_, hs.2.2⟩⟩
  rw [hs.2.1]
  decide

/-- A pair is opened and dropped before the writer looks at its channels. -/
def resetFirstActs : List Act :=
  startActs ++ openActs 0 ++ realizeActs 0 ++
    [Act.client 0 (.dropReceiver .data), .client 0 (.dropReceiver .error), .client 0 .dropRest,
      .client 0 .dropStep, .client 0 .dropStep] ++
    List.replicate 3 (Act.writer .step) ++ [Act.writer (.emit true)]

/-- The first frame that names stream 3 is its reset. -/
theorem reset_before_open :
    ¬ ∀ (cfg : MuxConfig) (acts : List Act) (s : MuxState) (id : StreamId),
      (mux cfg).run (mux cfg).init acts = some s →
      (mux cfg).Meets (fun _ a => PeerSilent id a) (mux cfg).init acts →
      Allocated id s → InOrder id s.writer.wire := by
  intro hall
  have hobs : ((mux MuxConfig.default).run (mux MuxConfig.default).init resetFirstActs).map
      (fun s => (marks 3 s.writer.wire, (s.pairs 0).errorId, (s.pairs 0).dataId)) =
      some ([.rst], 1, 3) := by decide +kernel
  have hmeets : (mux MuxConfig.default).Meets (fun _ a => PeerSilent 3 a)
      (mux MuxConfig.default).init resetFirstActs := meets_of_check (by decide +kernel)
  obtain ⟨s, hrun, hs⟩ := Option.map_eq_some_iff.1 hobs
  simp only [Prod.mk.injEq] at hs
  have hwrong := hall _ _ s 3 hrun hmeets ⟨0, .data, by rw [hs.2.1]; decide, hs.2.2⟩
  rw [InOrder, hs.1] at hwrong
  exact absurd (hwrong.1 .rst rfl) (by decide)

end KubePortForward.Mux

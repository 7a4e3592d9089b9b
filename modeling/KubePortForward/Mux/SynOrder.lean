import KubePortForward.Mux.Pipeline
import KubePortForward.Mux.Traffic

/-!
# SYN_STREAM frames on the wire

The ids of the SYN_STREAM frames come from one counter behind `open_seq` and
reach the wire through one FIFO channel, so they appear in the order in which
they were allocated, whatever fails on the way.  The three frames that open a
pair are written by one command, and the writer polls nothing between them.

## Main results

* `feeds_invariant` — only the command channel carries SYN_STREAMs.
* `synOrder_invariant` — the ids in the pipeline are odd, below 2 ^ 31 and
  strictly increasing.
* `wireShape_invariant` — the wire is a sequence of whole blocks and at most
  one block that is still being written or was cut off by a failed write.
* `syn_streams_on_the_wire` — both, for every run.
-/

namespace KubePortForward.Mux

open KubePortForward.Codec
open KubePortForward.Verified.BigEndian
open KubePortForward.Verified.Channel
open KubePortForward.Verified.Transition

/-! ## Which frames open a stream -/

/-- The stream a pre-encoded frame opens: its first four bytes would have to be
the version and type of a SYN_STREAM. -/
def rawSynId (frame : Bytes) : Option StreamId :=
  if frame.take 4 = [0x80, 0x03, 0x00, 0x01] then
    some (UInt32.ofNat (ofBe ((frame.drop 8).take 4)))
  else none

/-- The stream a frame opens. -/
def Outgoing.synId : Outgoing → Option StreamId
  | .synStream id _ _ => some id
  | .raw frame => rawSynId frame
  | _ => none

/-- The ids of the SYN_STREAMs in a sequence of frames, in order. -/
def synIds (frames : List Outgoing) : List StreamId :=
  frames.filterMap Outgoing.synId

@[simp] theorem synIds_append (xs ys : List Outgoing) :
    synIds (xs ++ ys) = synIds xs ++ synIds ys :=
  List.filterMap_append ..

/-- A stream owner's DATA frame is not taken for a SYN_STREAM: its first bit is
clear. -/
theorem rawSynId_rawDataFrame (id : StreamId) (payload : Bytes) :
    rawSynId (rawDataFrame id payload) = none := by
  have htake : (rawDataFrame id payload).take 4 = beField 4 (id &&& 0x7FFFFFFF).toNat := by
    rw [rawDataFrame, List.append_assoc, List.take_append_of_le_length (by simp),
      List.take_of_length_le (by simp)]
  have hlt : (id &&& 0x7FFFFFFF).toNat ≤ 0x7FFFFFFF := by
    rw [UInt32.toNat_and]
    exact Nat.and_le_right
  unfold rawSynId
  rw [htake, if_neg]
  intro heq
  have hval := congrArg ofBe heq
  rw [ofBe_beField_of_lt (by omega)] at hval
  have hsyn : ofBe [0x80, 0x03, 0x00, 0x01] = 0x80030001 := by decide
  omega

/-! ## What the writer is fed -/

/-- One step's worth of wire: a frame that opens nothing, or the three frames
that open a pair. -/
inductive IsBlock : List Outgoing → Prop
  | single (f : Outgoing) (h : f.synId = none) : IsBlock [f]
  | pair (errorId : StreamId) (errorHeaders dataHeaders : Headers) :
      IsBlock [.synStream errorId errorHeaders false,
        .synStream (errorId + 2) dataHeaders false, .data errorId [] true]

/-- A command that writes one frame, which opens nothing. -/
def OpensNothing (cmd : MuxCommand) : Prop :=
  ∃ f, cmdFrames cmd = [f] ∧ f.synId = none

theorem OpensNothing.isBlock {cmd : MuxCommand} (h : OpensNothing cmd) :
    IsBlock (cmdFrames cmd) := by
  obtain ⟨f, hf, hsyn⟩ := h
  exact hf ▸ .single f hsyn

theorem OpensNothing.synIds {cmd : MuxCommand} (h : OpensNothing cmd) :
    synIds (cmdFrames cmd) = [] := by
  obtain ⟨f, hf, hsyn⟩ := h
  simp [Mux.synIds, hf, hsyn]

/-- Only the command channel opens streams, one pair per command, and a writer
that has left its loop has nothing half written. -/
structure Feeds (s : MuxState) : Prop where
  control : ∀ c ∈ s.shared.control.queue, OpensNothing c
  window : ∀ c ∈ s.shared.window.queue, OpensNothing c
  cmd : ∀ c ∈ s.writer.pc.held.toList ++ s.shared.cmd.queue, IsBlock (cmdFrames c)
  quiet : s.writer.pc.leaving = true → s.writer.out = []
  opening : ∀ z, s.realizing = some z → z.dataId = z.errorId + 2

theorem opensNothing_closeStream (id : StreamId) (status : UInt32) :
    OpensNothing (.closeStream id status) := ⟨_, rfl, rfl⟩

theorem opensNothing_encodeWindowUpdate (id : StreamId) (n : UInt32) :
    OpensNothing (.encodeWindowUpdate id n) := ⟨_, rfl, rfl⟩

theorem ReaderControl.opensNothing {a : ReaderAct} {r : Reader} {c : MuxCommand}
    (h : ReaderControl a r c) : OpensNothing c := by
  cases h <;> exact ⟨_, rfl, rfl⟩

theorem WorkerControl.opensNothing {w : Shard} {sh : Shared} {c : MuxCommand}
    (h : WorkerControl w sh c) : OpensNothing c := by
  cases h <;> exact ⟨_, rfl, rfl⟩

/-- What a client step puts on the command channel is a block. -/
theorem client_cmd_block {cfg : MuxConfig} {p : Nat} {a : ClientAct} {sh sh' : Shared}
    {pr pr' : Pair} (h : clientStep cfg p a sh pr = some (sh', pr')) :
    sh'.cmd.queue = sh.cmd.queue ∨
      ∃ c, sh'.cmd.queue = sh.cmd.queue ++ [c] ∧ OpensNothing c := by
  rcases client_cmd h with hq | ⟨payload, -, -, hq⟩ | ⟨-, -, -, -, -, hq⟩
  · exact .inl hq
  · exact .inr ⟨_, hq, _, rfl, rawSynId_rawDataFrame _ _⟩
  · exact .inr ⟨_, hq, _, rfl, rfl⟩

theorem realizeBegin_opening {p : Nat} {sh sh' : Shared} {pr pr' : Pair} {z : Realize}
    (h : realizeBegin p sh pr = (sh', pr', some z)) :
    z.errorId = sh.nextStreamId ∧ z.dataId = sh.nextStreamId + 2 ∧
      sh'.nextStreamId = sh.nextStreamId + 2 + 2 ∧ z.dataId ≤ MAX_STREAM_ID ∧
      z.errorId ≤ MAX_STREAM_ID ∧ z.pc = .loadErrorWindow ∧ z.pair = p := by
  simp only [realizeBegin] at h
  split at h
  · simp at h
  · split at h
    · simp at h
    · next hmax =>
        simp only [Prod.mk.injEq, Option.some.injEq] at h
        obtain ⟨rfl, -, rfl⟩ := h
        rw [not_or, UInt32.not_lt, UInt32.not_lt] at hmax
        exact ⟨rfl, rfl, rfl, hmax.1, hmax.2, rfl, rfl⟩

/-- Every continuation of a realization is the same realization. -/
theorem realizeStep_same {z z' : Realize} {sh sh' : Shared} {pr pr' : Pair}
    (h : z.step sh pr = (sh', pr', some z')) :
    z'.pair = z.pair ∧ z'.errorId = z.errorId ∧ z'.dataId = z.dataId := by
  unfold Realize.step at h
  cases hz : z.pc <;> simp only [hz] at h <;> (repeat' split at h) <;>
    simp only [Prod.mk.injEq, Option.some.injEq, reduceCtorEq, and_false] at h <;>
    (obtain ⟨-, -, rfl⟩ := h; exact ⟨rfl, rfl, rfl⟩)

theorem feeds_init (cfg : MuxConfig) : Feeds (MuxState.init cfg) := by
  constructor <;> simp [MuxState.init, Shared.init, Writer.init, WriterPc.held,
    WriterPc.leaving]

/-- The writer only takes commands out of its channels. -/
theorem WriterMove.feeds {s : MuxState} {sh' : Shared} {wr' : Writer}
    (h : WriterMove s.shared s.writer sh' wr') (hI : Feeds s) :
    Feeds { s with shared := sh', writer := wr' } := by
  have hcontrol := hI.control
  have hwindow := hI.window
  have hcmd := hI.cmd
  have hopening := hI.opening
  cases h with
  | emit hout =>
      refine ⟨hcontrol, hwindow, hcmd, fun hl => ?_, hopening⟩
      rw [hI.quiet hl] at hout
      contradiction
  | fail => exact ⟨hcontrol, hwindow, fun c hc => hcmd c (by simp_all [WriterPc.held]),
      fun _ => rfl, hopening⟩
  | takeWindow hout hheld hlive hrecv =>
      rw [Chan.recv_eq_some hrecv] at hwindow
      refine ⟨hcontrol, fun c hc => hwindow c (by simp_all), ?_, ?_, hopening⟩
      · simpa [Writer.process, hheld] using hcmd
      · simp [Writer.process]
  | takeControl hout hheld hlive hpc hrecv hpolls =>
      rw [Chan.recv_eq_some hrecv] at hcontrol
      refine ⟨fun c hc => hcontrol c (by simp_all), hwindow, ?_, ?_, hopening⟩
      · simpa [Writer.process, hheld] using hcmd
      · simp [Writer.process, hpc]
  | takeCmd left hout hheld hlive hrecv =>
      refine ⟨hcontrol, hwindow, fun c hc => hcmd c ?_, ?_, hopening⟩
      · simp_all [Writer.process, Chan.recv_eq_some hrecv]
      · simp [Writer.process]
  | hold hout hheld hlive hrecv =>
      refine ⟨hcontrol, hwindow, fun c hc => hcmd c ?_, ?_, hopening⟩
      · simp_all [Chan.recv_eq_some hrecv]
      · simp
  | processHeld hout hpc =>
      refine ⟨hcontrol, hwindow, fun c hc => hcmd c ?_, ?_, hopening⟩
      · simp_all [Writer.process]
      · simp [Writer.process]
  | own f hout hheld hlive hframe hout' hheld' hlive' hwire hfailed hcloses =>
      refine ⟨hcontrol, hwindow, fun c hc => hcmd c ?_, ?_, hopening⟩
      · simp_all
      · simp [hlive']
  | move cancelled hout hheld hlive hout' hheld' hwire hfailed hcancel =>
      refine ⟨hcontrol, hwindow, fun c hc => hcmd c ?_, fun _ => hout', hopening⟩
      simp_all
  | sendClose hout hpc hsend =>
      unfold Shared.sendClose at hsend
      split at hsend <;> cases hsend
      refine ⟨hcontrol, hwindow, fun c hc => hcmd c ?_, fun _ => hout, hopening⟩
      simpa [hpc, Shared.setCloseReg] using hc
  | exit hout hpc =>
      refine ⟨by simp, by simp, ?_, fun _ => hout, hopening⟩
      simp [WriterPc.held]

theorem step_feeds {cfg : MuxConfig} {s s' : MuxState} {a : Act} (hI : Feeds s)
    (h : step cfg s a = some s') : Feeds s' := by
  obtain ⟨p, c, sh, pr, rfl, hc, rfl⟩ | ⟨p, sh, pr, z, rfl, -, -, hb, rfl⟩ |
    ⟨z, sh, pr, z', rfl, hz, hr, rfl⟩ | ⟨c, sh, r, rfl, hr, rfl⟩ |
    ⟨w, order, k, sh, rfl, hw, rfl⟩ | ⟨c, sh, wr, rfl, hw, rfl⟩ | ⟨rfl, rfl⟩ := step_cases h
  · refine ⟨fun x hx => ?_, fun x hx => ?_, fun x hx => ?_, hI.quiet, hI.opening⟩
    · rcases client_control hc with hq | ⟨-, -, -, -, hq⟩
      · exact hI.control x (hq ▸ hx)
      · simp only [hq, List.mem_append, List.mem_singleton] at hx
        rcases hx with hx | rfl
        · exact hI.control x hx
        · exact opensNothing_closeStream _ _
    · exact hI.window x ((client_footprint hc).window ▸ hx)
    · rcases client_cmd_block hc with hq | ⟨y, hq, hy⟩
      · exact hI.cmd x (hq ▸ hx)
      · simp only [hq, ← List.append_assoc, List.mem_append, List.mem_singleton] at hx
        rcases hx with hx | rfl
        · exact hI.cmd x (List.mem_append.2 hx)
        · exact hy.isBlock
  · obtain ⟨hcmd, hcontrol⟩ := realizeBegin_writer hb
    refine ⟨fun x hx => ?_, fun x hx => ?_, fun x hx => ?_, hI.quiet, fun y hy => ?_⟩
    · rcases hcontrol with hq | ⟨last, hq⟩
      · exact hI.control x (hq ▸ hx)
      · simp only [hq, List.mem_append, List.mem_singleton] at hx
        rcases hx with hx | rfl
        · exact hI.control x hx
        · exact ⟨_, rfl, rfl⟩
    · exact hI.window x ((realizeBegin_footprint hb).window ▸ hx)
    · exact hI.cmd x (by simpa [hcmd] using hx)
    · simp only at hy
      obtain ⟨herr, hdata, -⟩ := realizeBegin_opening (hy ▸ hb)
      rw [hdata, herr]
  · obtain ⟨hcontrol, hcmd⟩ := realizeStep_writer hr
    have hids := hI.opening z hz
    refine ⟨fun x hx => hI.control x (hcontrol ▸ hx), fun x hx => ?_, fun x hx => ?_,
      hI.quiet, fun y hy => ?_⟩
    · exact hI.window x ((realizeStep_footprint hr).window ▸ hx)
    · rcases hcmd with hq | ⟨-, -, -, hq⟩
      · exact hI.cmd x (by simpa [hq] using hx)
      · simp only [hq, ← List.append_assoc, List.mem_append, List.mem_singleton] at hx
        rcases hx with hx | rfl
        · exact hI.cmd x (List.mem_append.2 hx)
        · rw [hids]
          exact .pair _ _ _
    · simp only at hy
      obtain ⟨-, herr, hdata⟩ := realizeStep_same (hy ▸ hr)
      rw [herr, hdata, hids]
  · refine ⟨fun x hx => ?_, fun x hx => ?_, fun x hx => ?_, hI.quiet, hI.opening⟩
    · rcases reader_control hr with hq | ⟨y, hq, hy⟩
      · exact hI.control x (hq ▸ hx)
      · simp only [hq, List.mem_append, List.mem_singleton] at hx
        rcases hx with hx | rfl
        · exact hI.control x hx
        · exact hy.opensNothing
    · rcases reader_window hr with hq | ⟨n, hq⟩
      · exact hI.window x (hq ▸ hx)
      · simp only [hq, List.mem_append, List.mem_singleton] at hx
        rcases hx with hx | rfl
        · exact hI.window x hx
        · exact opensNothing_encodeWindowUpdate _ _
    · exact hI.cmd x ((reader_footprint hr).cmd ▸ hx)
  · have hmove := workerMove_of_step hw
    obtain ⟨added, hadd, hP⟩ := hmove.control
    refine ⟨fun x hx => ?_, fun x hx => ?_, fun x hx => ?_, hI.quiet, hI.opening⟩
    · simp only [hadd, List.mem_append] at hx
      rcases hx with hx | hx
      · exact hI.control x hx
      · exact (hP x hx).opensNothing
    · rcases hmove.window with hq | ⟨f, rest, id, n, -, -, -, hq⟩
      · exact hI.window x (hq ▸ hx)
      · simp only [hq, List.mem_append, List.mem_singleton] at hx
        rcases hx with hx | rfl
        · exact hI.window x hx
        · exact opensNothing_encodeWindowUpdate _ _
    · exact hI.cmd x (hmove.footprint.cmd ▸ hx)
  · exact (writerMove_of_step hw).feeds hI
  · exact ⟨hI.control, hI.window, hI.cmd, hI.quiet, hI.opening⟩

theorem feeds_invariant (cfg : MuxConfig) : (mux cfg).Invariant anyStep Feeds :=
  Invariant.of_step (feeds_init cfg) fun _ _ _ hI _ h => step_feeds hI h

/-! ## The order of the ids -/

/-- The realization has not enqueued its open command yet. -/
def RealizePc.beforeOpen : RealizePc → Bool
  | .loadErrorWindow => true
  | .loadDataWindow => true
  | .registerError => true
  | .registerData => true
  | .enqueueOpen => true
  | _ => false

/-- Every id whose SYN_STREAM is enqueued later is at least this one. -/
def synBound (s : MuxState) : Nat :=
  match s.realizing with
  | some z => if z.pc.beforeOpen then z.errorId.toNat else s.shared.nextStreamId.toNat
  | none => s.shared.nextStreamId.toNat

/-- The counter is odd and has not wrapped, the realization in progress holds
the two ids below it, and the pipeline's ids are in order below the bound. -/
structure SynOrder (s : MuxState) : Prop where
  next_mod : s.shared.nextStreamId.toNat % 4 = 1
  next_le : s.shared.nextStreamId.toNat ≤ 2 ^ 31 + 1
  opening : ∀ z, s.realizing = some z →
    z.errorId.toNat % 4 = 1 ∧ z.dataId.toNat = z.errorId.toNat + 2 ∧
      z.errorId.toNat + 4 = s.shared.nextStreamId.toNat
  increasing : (synIds (pipeline s.shared s.writer)).Pairwise (· < ·)
  bounded : ∀ id ∈ synIds (pipeline s.shared s.writer),
    id.toNat % 2 = 1 ∧ id ≤ MAX_STREAM_ID ∧ id.toNat < synBound s

theorem synBound_le (s : MuxState) (hI : SynOrder s) :
    synBound s ≤ s.shared.nextStreamId.toNat := by
  unfold synBound
  split
  · next z hz =>
      have := hI.opening z hz
      split <;> omega
  · exact le_rfl

theorem synOrder_init (cfg : MuxConfig) : SynOrder (MuxState.init cfg) := by
  constructor <;> simp [MuxState.init, Shared.init, Writer.init, pipeline, backlog, synIds,
    WriterPc.held, WriterPc.leaving, Outgoing.synId, PendingWrite.uncounted,
    List.filterMap_cons]

/-- An inserted frame opens nothing. -/
theorem Inserted.synIds {s : MuxState} {frames : List Outgoing}
    (h : Inserted s.shared s.writer frames) (hF : Feeds s) : synIds frames = [] := by
  cases h with
  | control hpolls hq => exact (hF.control _ (by simp [hq])).synIds
  | window hq => exact (hF.window _ (by simp [hq])).synIds
  | ping id => rfl
  | settings entries => rfl

/-- The writer never adds an id to the pipeline. -/
theorem WriterMove.synIds_sublist {s : MuxState} {sh' : Shared} {wr' : Writer}
    (h : WriterMove s.shared s.writer sh' wr') (hF : Feeds s) :
    (synIds (pipeline sh' wr')).Sublist (synIds (pipeline s.shared s.writer)) := by
  rcases h.pipeline_cases hF.quiet with ⟨-, hp⟩ | ⟨-, hp⟩ | ⟨fs, rest, -, -, -, hins, hp, hp'⟩
  · rw [hp]
    exact (wire_prefix_pipeline _ _).sublist.filterMap _
  · rw [hp]
  · rw [hp, hp']
    simp [hins.synIds hF]

/-- A step that allocates nothing and adds no id to the pipeline keeps the
order. -/
theorem SynOrder.of_sublist {s s' : MuxState} (hI : SynOrder s)
    (hnext : s'.shared.nextStreamId = s.shared.nextStreamId)
    (hreal : s'.realizing = s.realizing)
    (hsub : (synIds (pipeline s'.shared s'.writer)).Sublist
      (synIds (pipeline s.shared s.writer))) : SynOrder s' where
  next_mod := hnext ▸ hI.next_mod
  next_le := hnext ▸ hI.next_le
  opening := by
    intro z hz
    rw [hnext]
    exact hI.opening z (hreal ▸ hz)
  increasing := hI.increasing.sublist hsub
  bounded := by
    intro id hid
    have hb : synBound s' = synBound s := by simp only [synBound, hreal, hnext]
    rw [hb]
    exact hI.bounded id (hsub.subset hid)

theorem realizeBegin_refused {p : Nat} {sh sh' : Shared} {pr pr' : Pair}
    (h : realizeBegin p sh pr = (sh', pr', none)) :
    sh'.nextStreamId = sh.nextStreamId := by
  simp only [realizeBegin] at h
  split at h
  · cases h
    rfl
  · split at h
    · cases h
      rfl
    · simp at h

theorem realizeStep_nextStreamId {z : Realize} {sh sh' : Shared} {pr pr' : Pair}
    {z' : Option Realize} (h : z.step sh pr = (sh', pr', z')) :
    sh'.nextStreamId = sh.nextStreamId := by
  unfold Realize.step at h
  cases hz : z.pc <;>
    simp only [hz, Shared.sendOpen, Shared.releaseHeld, Shared.sendCloseOrDrop,
      Shared.sendClose] at h <;>
    (repeat' split at h) <;> cases h <;>
    grind [Shared.updChan, Shared.updWindow, Shared.dropTx, Shared.setCloseReg,
      Shared.setReg, Shared.dropPairTx]

/-- A realization only moves forward. -/
theorem realizeStep_beforeOpen {z z' : Realize} {sh sh' : Shared} {pr pr' : Pair}
    (h : z.step sh pr = (sh', pr', some z')) (hz' : z'.pc.beforeOpen = true) :
    z.pc.beforeOpen = true ∧ z.pc ≠ .enqueueOpen := by
  unfold Realize.step at h
  cases hz : z.pc <;> simp only [hz] at h <;> (repeat' split at h) <;>
    simp only [Prod.mk.injEq, Option.some.injEq, reduceCtorEq, and_false] at h <;>
    (obtain ⟨-, -, rfl⟩ := h; simp_all [RealizePc.beforeOpen])

/-- Allocating two ids: the bound stays where it was. -/
theorem SynOrder.allocate {s : MuxState} {p : Nat} {sh : Shared} {pr : Pair}
    {z : Option Realize} (hI : SynOrder s) (hnone : s.realizing = none)
    (h : realizeBegin p s.shared (s.pairs p) = (sh, pr, z)) :
    SynOrder { s with
      shared := sh, pairs := Function.update s.pairs p pr, realizing := z } := by
  have hpipe : pipeline sh s.writer = pipeline s.shared s.writer :=
    pipeline_congr _ (by rw [(realizeBegin_writer h).1])
  cases z with
  | none =>
      refine hI.of_sublist (realizeBegin_refused h) hnone.symm ?_
      simp only [hpipe, List.Sublist.refl]
  | some z =>
      obtain ⟨herr, hdata, hnext, hmax, -, hpc, -⟩ := realizeBegin_opening h
      have hle : s.shared.nextStreamId.toNat + 2 ≤ 0x7FFFFFFF := by
        have hmax' := UInt32.le_iff_toNat_le.1 (hdata ▸ hmax)
        have hmod := hI.next_le
        rw [UInt32.toNat_add] at hmax'
        simp only [MAX_STREAM_ID, UInt32.reduceToNat] at hmax'
        omega
      have hdata' : z.dataId.toNat = s.shared.nextStreamId.toNat + 2 := by
        rw [hdata, UInt32.toNat_add]
        simp only [UInt32.reduceToNat]
        omega
      have hnext' : sh.nextStreamId.toNat = s.shared.nextStreamId.toNat + 4 := by
        rw [hnext, UInt32.toNat_add, UInt32.toNat_add]
        simp only [UInt32.reduceToNat]
        omega
      have hmod := hI.next_mod
      constructor
      · show sh.nextStreamId.toNat % 4 = 1
        omega
      · show sh.nextStreamId.toNat ≤ 2 ^ 31 + 1
        omega
      · rintro y ⟨⟩
        show _ ∧ _ ∧ _ = sh.nextStreamId.toNat
        rw [herr]
        omega
      · show (synIds (pipeline sh s.writer)).Pairwise (· < ·)
        exact hpipe ▸ hI.increasing
      · intro id hid
        have hid' := hI.bounded id (hpipe ▸ hid)
        have hb : synBound s = s.shared.nextStreamId.toNat := by simp [synBound, hnone]
        simp only [synBound, hpc, RealizePc.beforeOpen, if_true, herr]
        rw [hb] at hid'
        exact hid'

/-- Enqueueing the open command puts the two allocated ids at the end, above
every id before them; every other step of a realization adds none. -/
theorem SynOrder.realize {s : MuxState} {z : Realize} {sh : Shared} {pr : Pair}
    {z' : Option Realize} (hI : SynOrder s) (hz : s.realizing = some z)
    (h : z.step s.shared (s.pairs z.pair) = (sh, pr, z')) :
    SynOrder { s with
      shared := sh, pairs := Function.update s.pairs z.pair pr, realizing := z' } := by
  have hnext := realizeStep_nextStreamId h
  obtain ⟨hmod, hdata, hsum⟩ := hI.opening z hz
  have hle := hI.next_le
  have hopening : ∀ y, z' = some y → y.errorId.toNat % 4 = 1 ∧
      y.dataId.toNat = y.errorId.toNat + 2 ∧
      y.errorId.toNat + 4 = sh.nextStreamId.toNat := by
    rintro y rfl
    obtain ⟨-, herr, hdat⟩ := realizeStep_same h
    rw [herr, hdat, hnext]
    exact ⟨hmod, hdata, hsum⟩
  -- The bound never goes down: it leaves `errorId` for the counter.
  have hbound : synBound s ≤ synBound { s with
      shared := sh, pairs := Function.update s.pairs z.pair pr, realizing := z' } := by
    have hle' := synBound_le s hI
    cases z' with
    | none => simpa only [synBound, hnext] using hle'
    | some y =>
        cases hy : y.pc.beforeOpen with
        | false => simpa [synBound, hnext, hy] using hle'
        | true =>
            have hbefore := (realizeStep_beforeOpen h hy).1
            simp [synBound, hz, hy, hbefore, (realizeStep_same h).2.1]
  obtain ⟨-, hcmd | ⟨hpc, rfl, -, hcmd⟩⟩ := realizeStep_writer h
  · have hpipe : pipeline sh s.writer = pipeline s.shared s.writer :=
      pipeline_congr _ (by rw [hcmd])
    refine ⟨hnext ▸ hI.next_mod, hnext ▸ hI.next_le, hopening, ?_, fun id hid => ?_⟩
    · exact hpipe ▸ hI.increasing
    · have hid' := hI.bounded id (hpipe ▸ hid)
      exact ⟨hid'.1, hid'.2.1, hid'.2.2.trans_le hbound⟩
  · have hb : synBound s = z.errorId.toNat := by
      simp [synBound, hz, hpc, RealizePc.beforeOpen]
    have hb' : synBound { s with
        shared := sh
        pairs := Function.update s.pairs z.pair pr
        realizing := some { z with pc := .reserveCtrlError } } =
          s.shared.nextStreamId.toNat := by
      simp [synBound, RealizePc.beforeOpen, hnext]
    have hmax : ∀ n : Nat, n ≤ z.dataId.toNat → n ≤ MAX_STREAM_ID.toNat := by
      intro n hn
      simp only [MAX_STREAM_ID, UInt32.reduceToNat]
      omega
    rcases pipeline_push s.writer hcmd with hpipe | hpipe
    · refine ⟨hnext ▸ hI.next_mod, hnext ▸ hI.next_le, hopening, ?_, fun id hid => ?_⟩
      · exact hpipe ▸ hI.increasing
      · have hid' := hI.bounded id (hpipe ▸ hid)
        exact ⟨hid'.1, hid'.2.1, hid'.2.2.trans_le hbound⟩
    · have hsyn : synIds (pipeline sh s.writer) =
          synIds (pipeline s.shared s.writer) ++ [z.errorId, z.dataId] := by
        rw [hpipe, synIds_append]
        rfl
      refine ⟨hnext ▸ hI.next_mod, hnext ▸ hI.next_le, hopening, ?_, fun id hid => ?_⟩
      · show (synIds (pipeline sh s.writer)).Pairwise (· < ·)
        rw [hsyn, List.pairwise_append]
        refine ⟨hI.increasing, ?_, fun x hx y hy => ?_⟩
        · simp only [List.pairwise_cons, List.mem_singleton, forall_eq, List.not_mem_nil,
            false_implies, implies_true, List.Pairwise.nil, and_true,
            UInt32.lt_iff_toNat_lt]
          omega
        · have hx' := (hI.bounded x hx).2.2
          simp only [List.mem_cons, List.not_mem_nil, or_false] at hy
          rw [UInt32.lt_iff_toNat_lt]
          rcases hy with rfl | rfl <;> omega
      · simp only [hsyn, List.mem_append, List.mem_cons, List.not_mem_nil, or_false] at hid
        rw [hb']
        rcases hid with hid | rfl | rfl
        · have hid' := hI.bounded id hid
          exact ⟨hid'.1, hid'.2.1, by omega⟩
        · exact ⟨by omega, UInt32.le_iff_toNat_le.2 (hmax _ (by omega)), by omega⟩
        · exact ⟨by omega, UInt32.le_iff_toNat_le.2 (hmax _ le_rfl), by omega⟩

theorem step_synOrder {cfg : MuxConfig} {s s' : MuxState} {a : Act} (hF : Feeds s)
    (hI : SynOrder s) (h : step cfg s a = some s') : SynOrder s' := by
  obtain ⟨p, c, sh, pr, rfl, hc, rfl⟩ | ⟨p, sh, pr, z, rfl, hnone, -, hb, rfl⟩ |
    ⟨z, sh, pr, z', rfl, hz, hr, rfl⟩ | ⟨c, sh, r, rfl, hr, rfl⟩ |
    ⟨w, order, k, sh, rfl, hw, rfl⟩ | ⟨c, sh, wr, rfl, hw, rfl⟩ | ⟨rfl, rfl⟩ := step_cases h
  · refine hI.of_sublist (client_footprint hc).nextStreamId rfl ?_
    rcases client_cmd_block hc with hq | ⟨y, hq, hy⟩
    · simp only [pipeline_congr s.writer hq, List.Sublist.refl]
    · rcases pipeline_push s.writer hq with hp | hp <;> simp [hp, hy.synIds]
  · exact hI.allocate hnone hb
  · exact hI.realize hz hr
  · have hfoot := reader_footprint hr
    refine hI.of_sublist hfoot.nextStreamId rfl ?_
    have hp : pipeline sh s.writer = pipeline s.shared s.writer :=
      pipeline_congr _ (by rw [hfoot.cmd])
    simp only [hp, List.Sublist.refl]
  · have hfoot := (workerMove_of_step hw).footprint
    refine hI.of_sublist hfoot.nextStreamId rfl ?_
    have hp : pipeline sh s.writer = pipeline s.shared s.writer :=
      pipeline_congr _ (by rw [hfoot.cmd])
    simp only [hp, List.Sublist.refl]
  · exact hI.of_sublist (writer_footprint hw).nextStreamId rfl
      ((writerMove_of_step hw).synIds_sublist hF)
  · exact hI.of_sublist rfl rfl (List.Sublist.refl _)

theorem synOrder_invariant (cfg : MuxConfig) : (mux cfg).Invariant anyStep SynOrder :=
  Invariant.of_step_using (feeds_invariant cfg) (synOrder_init cfg)
    fun _ _ _ hF hI _ h => step_synOrder hF hI h

/-! ## The shape of the wire -/

/-- A sequence of whole blocks. -/
inductive Blocks : List Outgoing → Prop
  | nil : Blocks []
  | append {done block : List Outgoing} (hdone : Blocks done) (hblock : IsBlock block) :
      Blocks (done ++ block)

/-- The wire is a sequence of whole blocks, then the written part of a block
whose rest is about to be written, or will never be because a write failed and
the session is over. -/
def WireShape (s : MuxState) : Prop :=
  ∃ done cur, s.writer.wire = done ++ cur ∧ Blocks done ∧
    ((cur = [] ∧ s.writer.out = []) ∨
      IsBlock (cur ++ s.writer.out.map (·.frame)) ∧ s.writer.out ≠ [] ∨
      (∃ rest, rest ≠ [] ∧ IsBlock (cur ++ rest)) ∧ s.writer.out = [] ∧
        s.writer.writeFailed = true ∧ s.writer.pc.leaving = true ∧
        s.shared.cancelled = true)

theorem wireShape_init (cfg : MuxConfig) : WireShape (MuxState.init cfg) :=
  ⟨[], [], rfl, .nil, .inr (.inl ⟨.single _ rfl, by simp [MuxState.init, Writer.init]⟩)⟩

/-- A step that leaves the writer alone and cancels nothing back keeps the
shape. -/
theorem WireShape.of_writer_eq {s s' : MuxState} (hI : WireShape s)
    (hw : s'.writer = s.writer)
    (hc : s.shared.cancelled = true → s'.shared.cancelled = true) : WireShape s' := by
  obtain ⟨done, cur, hwire, hdone, hcur⟩ := hI
  refine ⟨done, cur, hw ▸ hwire, hdone, ?_⟩
  rw [hw]
  rcases hcur with hcur | hcur | ⟨hrest, hout, hfail, hleave, hcancel⟩
  · exact .inl hcur
  · exact .inr (.inl hcur)
  · exact .inr (.inr ⟨hrest, hout, hfail, hleave, hc hcancel⟩)

/-- Between two commands of a running writer the wire is whole. -/
theorem WireShape.blocks {s : MuxState} (hI : WireShape s) (hout : s.writer.out = [])
    (hlive : s.writer.pc.leaving = false) : Blocks s.writer.wire := by
  obtain ⟨done, cur, hwire, hdone, ⟨rfl, -⟩ | ⟨-, hne⟩ | ⟨-, -, -, hleave, -⟩⟩ := hI
  · rw [hwire, List.append_nil]
    exact hdone
  · contradiction
  · rw [hlive] at hleave
    contradiction

/-- A writer that starts on a command has a whole wire behind it. -/
theorem WireShape.start {s' : MuxState} {wire : List Outgoing} (hwire : s'.writer.wire = wire)
    (hblocks : Blocks wire) (hblock : IsBlock (s'.writer.out.map (·.frame)))
    (hne : s'.writer.out ≠ []) : WireShape s' :=
  ⟨wire, [], by rw [hwire, List.append_nil], hblocks, .inr (.inl ⟨hblock, hne⟩)⟩

theorem IsBlock.ne_nil {fs : List Outgoing} (h : IsBlock fs) : fs ≠ [] := by
  cases h <;> simp

theorem process_start {s : MuxState} {cmd : MuxCommand} {pc : WriterPc} {sh' : Shared}
    (hI : WireShape s) (hout : s.writer.out = []) (hlive : s.writer.pc.leaving = false)
    (hblock : IsBlock (cmdFrames cmd)) :
    WireShape { s with shared := sh', writer := s.writer.process cmd pc } := by
  refine .start rfl (hI.blocks hout hlive) hblock ?_
  intro hnil
  refine hblock.ne_nil ?_
  rw [cmdFrames, show processWriterCommand cmd = [] from hnil, List.map_nil]

theorem WriterMove.wireShape {s : MuxState} {sh' : Shared} {wr' : Writer}
    (h : WriterMove s.shared s.writer sh' wr') (hF : Feeds s) (hI : WireShape s) :
    WireShape { s with shared := sh', writer := wr' } := by
  cases h with
  | @emit p rest hout =>
      obtain ⟨done, cur, hwire, hdone, hcur⟩ := hI
      rcases hcur with ⟨-, hnil⟩ | ⟨hblock, -⟩ | ⟨-, hnil, -⟩
      · rw [hnil] at hout
        contradiction
      · have hblock' : IsBlock ((cur ++ [p.frame]) ++ rest.map (·.frame)) := by
          simpa [hout] using hblock
        cases rest with
        | nil =>
            -- The last frame completes the block.
            refine ⟨done ++ (cur ++ [p.frame]), [], ?_, .append hdone ?_, .inl ⟨rfl, rfl⟩⟩
            · simp [hwire]
            · simpa using hblock'
        | cons q rest =>
            refine ⟨done, cur ++ [p.frame], ?_, hdone, .inr (.inl ⟨hblock', by simp⟩)⟩
            simp [hwire]
      · rw [hnil] at hout
        contradiction
  | fail =>
      obtain ⟨done, cur, hwire, hdone, ⟨rfl, -⟩ | ⟨hblock, hne⟩ | ⟨hrest, -, -, -, -⟩⟩ := hI
      · exact ⟨done, [], hwire, hdone, .inl ⟨rfl, rfl⟩⟩
      · exact ⟨done, cur, hwire, hdone,
          .inr (.inr ⟨⟨_, by simpa using hne, hblock⟩, rfl, rfl, rfl, rfl⟩)⟩
      · exact ⟨done, cur, hwire, hdone, .inr (.inr ⟨hrest, rfl, rfl, rfl, rfl⟩)⟩
  | takeWindow hout hheld hlive hrecv =>
      exact process_start hI hout hlive
        (hF.window _ (by simp [Chan.recv_eq_some hrecv])).isBlock
  | takeControl hout hheld hlive hpc hrecv hpolls =>
      exact process_start hI hout hlive
        (hF.control _ (by simp [Chan.recv_eq_some hrecv])).isBlock
  | takeCmd left hout hheld hlive hrecv =>
      exact process_start hI hout hlive (hF.cmd _ (by simp [Chan.recv_eq_some hrecv]))
  | hold hout hheld hlive hrecv =>
      exact ⟨_, [], (List.append_nil _).symm, hI.blocks hout hlive, .inl ⟨rfl, hout⟩⟩
  | processHeld hout hpc =>
      exact process_start hI hout (by simp [hpc]) (hF.cmd _ (by simp [hpc]))
  | own f hout hheld hlive hframe hout' hheld' hlive' hwire hfailed hcloses =>
      refine .start hwire (hI.blocks hout hlive) ?_ (by simp [hout'])
      obtain ⟨id, rfl⟩ | ⟨entries, rfl⟩ := hframe <;> simp only [hout'] <;>
        exact .single _ rfl
  | move cancelled hout hheld hlive hout' hheld' hwire hfailed hcancel =>
      refine ⟨s.writer.wire, [], ?_, hI.blocks hout hlive, .inl ⟨rfl, hout'⟩⟩
      rw [List.append_nil]
      exact hwire
  | sendClose hout hpc hsend =>
      exact ⟨_, [], (List.append_nil _).symm, hI.blocks hout (by simp [hpc]),
        .inl ⟨rfl, hout⟩⟩
  | exit hout hpc =>
      obtain ⟨done, cur, hwire, hdone, ⟨rfl, -⟩ | ⟨-, hne⟩ | ⟨hrest, -, hfail, -, -⟩⟩ := hI
      · exact ⟨done, [], hwire, hdone, .inl ⟨rfl, hout⟩⟩
      · contradiction
      · exact ⟨done, cur, hwire, hdone, .inr (.inr ⟨hrest, hout, hfail, rfl, rfl⟩)⟩

theorem reader_cancelled {cfg : MuxConfig} {a : ReaderAct} {sh sh' : Shared}
    {r r' : Reader} (h : readerStep cfg a sh r = some (sh', r'))
    (hc : sh.cancelled = true) : sh'.cancelled = true := by
  cases a <;>
    simp only [readerStep, Reader.receive, Reader.rejectTooLarge, Reader.receiveWsPing,
      Reader.message, Reader.idleProbe, Reader.exit, Reader.step, routeFrame,
      creditSession] at h <;>
    (repeat' split at h) <;>
    first
    | contradiction
    | simp only [Option.some.injEq, Prod.mk.injEq] at h
      grind [Shared.setCloseReg, Shared.setReg, Shared.setFrames, Shared.sendControl]

theorem step_wireShape {cfg : MuxConfig} {s s' : MuxState} {a : Act} (hF : Feeds s)
    (hI : WireShape s) (h : step cfg s a = some s') : WireShape s' := by
  obtain ⟨p, c, sh, pr, rfl, hc, rfl⟩ | ⟨p, sh, pr, z, rfl, -, -, hb, rfl⟩ |
    ⟨z, sh, pr, z', rfl, hz, hr, rfl⟩ | ⟨c, sh, r, rfl, hr, rfl⟩ |
    ⟨w, order, k, sh, rfl, hw, rfl⟩ | ⟨c, sh, wr, rfl, hw, rfl⟩ | ⟨rfl, rfl⟩ := step_cases h
  · exact hI.of_writer_eq rfl fun hcan => (client_footprint hc).cancelled ▸ hcan
  · exact hI.of_writer_eq rfl fun hcan => (realizeBegin_footprint hb).cancelled ▸ hcan
  · exact hI.of_writer_eq rfl fun hcan => (realizeStep_footprint hr).cancelled ▸ hcan
  · exact hI.of_writer_eq rfl (reader_cancelled hr)
  · exact hI.of_writer_eq rfl fun hcan =>
      (workerMove_of_step hw).footprint.cancelled ▸ hcan
  · exact (writerMove_of_step hw).wireShape hF hI
  · exact hI.of_writer_eq rfl fun _ => rfl

theorem wireShape_invariant (cfg : MuxConfig) : (mux cfg).Invariant anyStep WireShape :=
  Invariant.of_step_using (feeds_invariant cfg) (wireShape_init cfg)
    fun _ _ _ hF hI _ h => step_wireShape hF hI h

/-! ## After the writer has left -/

/-- A writer that has left its loop stays out of it and writes nothing. -/
theorem WriterMove.leaving {s : MuxState} {sh' : Shared} {wr' : Writer}
    (h : WriterMove s.shared s.writer sh' wr') (hF : Feeds s)
    (hleave : s.writer.pc.leaving = true) :
    wr'.wire = s.writer.wire ∧ wr'.pc.leaving = true := by
  cases h with
  | emit hout =>
      rw [hF.quiet hleave] at hout
      contradiction
  | fail => exact ⟨rfl, rfl⟩
  | takeWindow hout hheld hlive hrecv => rw [hlive] at hleave; contradiction
  | takeControl hout hheld hlive hpc hrecv hpolls => rw [hlive] at hleave; contradiction
  | takeCmd left hout hheld hlive hrecv => rw [hlive] at hleave; contradiction
  | hold hout hheld hlive hrecv => rw [hlive] at hleave; contradiction
  | processHeld hout hpc => simp [hpc] at hleave
  | own f hout hheld hlive hframe hout' hheld' hlive' hwire hfailed hcloses =>
      rw [hlive] at hleave
      contradiction
  | move cancelled hout hheld hlive hout' hheld' hwire hfailed hcancel =>
      rw [hlive] at hleave
      contradiction
  | sendClose hout hpc hsend => simp [hpc] at hleave
  | exit hout hpc => exact ⟨rfl, rfl⟩

theorem step_leaving {cfg : MuxConfig} {s s' : MuxState} {a : Act} (hF : Feeds s)
    (hleave : s.writer.pc.leaving = true) (h : step cfg s a = some s') :
    s'.writer.wire = s.writer.wire ∧ s'.writer.pc.leaving = true := by
  obtain ⟨p, c, sh, pr, rfl, hc, rfl⟩ | ⟨p, sh, pr, z, rfl, -, -, hb, rfl⟩ |
    ⟨z, sh, pr, z', rfl, hz, hr, rfl⟩ | ⟨c, sh, r, rfl, hr, rfl⟩ |
    ⟨w, order, k, sh, rfl, hw, rfl⟩ | ⟨c, sh, wr, rfl, hw, rfl⟩ | ⟨rfl, rfl⟩ := step_cases h
  all_goals first
    | exact ⟨rfl, hleave⟩
    | exact (writerMove_of_step hw).leaving hF hleave

/-- The wire of a writer that has left its loop is final. -/
theorem run_leaving {cfg : MuxConfig} {s s' : MuxState} {acts : List Act} (hF : Feeds s)
    (hleave : s.writer.pc.leaving = true) (h : (mux cfg).run s acts = some s') :
    s'.writer.wire = s.writer.wire := by
  induction acts generalizing s with
  | nil =>
      cases h
      rfl
  | cons a acts ih =>
      obtain ⟨t, ht, hrest⟩ := run_cons_some h
      obtain ⟨hwire, hleave'⟩ := step_leaving hF hleave ht
      rw [← hwire]
      exact ih (step_feeds hF ht) hleave' hrest

/-- Whatever is realized, in whatever order and with whatever failures: the
SYN_STREAMs on the wire carry odd 31-bit ids in strictly increasing order, and
the wire is a sequence of whole blocks, a pair being opened by three adjacent
frames; only a block that is being written or that a failed write cut off is
not whole, and after a failed write the wire is final. -/
theorem syn_streams_on_the_wire (cfg : MuxConfig) (acts : List Act) (s : MuxState)
    (hrun : (mux cfg).run (mux cfg).init acts = some s) :
    (∀ id ∈ synIds s.writer.wire, id.toNat % 2 = 1 ∧ id ≤ 0x7FFFFFFF) ∧
    (synIds s.writer.wire).Pairwise (· < ·) ∧
    WireShape s ∧
    (s.writer.pc.leaving = true → ∀ more s', (mux cfg).run s more = some s' →
      s'.writer.wire = s.writer.wire) := by
  have hF := feeds_invariant cfg acts s hrun (meets_anyStep _ _)
  have hI := synOrder_invariant cfg acts s hrun (meets_anyStep _ _)
  have hsub : (synIds s.writer.wire).Sublist (synIds (pipeline s.shared s.writer)) :=
    (wire_prefix_pipeline _ _).sublist.filterMap _
  refine ⟨fun id hid => ?_, hI.increasing.sublist hsub, ?_, ?_⟩
  · have hid' := hI.bounded id (hsub.subset hid)
    exact ⟨hid'.1, hid'.2.1⟩
  · exact wireShape_invariant cfg acts s hrun (meets_anyStep _ _)
  · exact fun hleave more s' hmore => run_leaving hF hleave hmore

/-! ## A pair on the wire -/

/-- The writer sends its opening PING and SETTINGS. -/
def startActs : List Act :=
  [.writer (.emit true), .writer (.flush true), .writer (.emit true), .writer (.flush true)]

/-- `open_stream_pair` for pair `p`, without headers. -/
def openActs (p : Nat) : List Act :=
  .client p (.openBegin [] []) :: List.replicate 3 (.client p .openStep)

/-- `realize_stream_pair` for pair `p`, undisturbed and successful. -/
def realizeActs (p : Nat) : List Act :=
  .realizeBegin p :: List.replicate 9 .realizeStep

/-- The writer finds the open command of a pair and writes its three frames. -/
def writeOpenActs : List Act :=
  List.replicate 5 (Act.writer .step) ++ List.replicate 3 (Act.writer (.emit true))

theorem syn_streams_on_the_wire_pair :
    ∃ s, (mux MuxConfig.default).run (mux MuxConfig.default).init
        (startActs ++ openActs 0 ++ realizeActs 0 ++ writeOpenActs) = some s ∧
      synIds s.writer.wire = [1, 3] ∧ (synIds s.writer.wire).Pairwise (· < ·) := by
  have hwire : ((mux MuxConfig.default).run (mux MuxConfig.default).init
      (startActs ++ openActs 0 ++ realizeActs 0 ++ writeOpenActs)).map
        (fun s => synIds s.writer.wire) = some [1, 3] := by decide +kernel
  obtain ⟨s, hrun, hids⟩ := Option.map_eq_some_iff.1 hwire
  exact ⟨s, hrun, hids, (syn_streams_on_the_wire _ _ s hrun).2.1⟩

end KubePortForward.Mux

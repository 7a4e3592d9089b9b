import KubePortForward.Codec.FrameWords
import KubePortForward.Mux.Chunking
import KubePortForward.Mux.FlowControl

/-!
# The DATA frames a writer enqueues

`poll_write_via_sender` builds its DATA frame by itself: the stream id with its top bit
cleared, the length masked to 24 bits, the first bytes of the buffer.  How many bytes
those are depends on the buffer, on the window it read last and on the limit it was
given.  A limit of at most 8 leaves no room for a payload, and then does not limit it.

The frame is compared with `encode_data` and read back by `decode_frame`.

## Main results

* `Accepts.eq_raw` — the call enqueues the first bytes of its buffer.
* `outgoing_data_iff` — the frame is well formed exactly when the limit bounds it and
  its length fits the length field.
* `tiny_limit_exceeded` — a limit of 4 and a frame of 5 bytes.
-/

namespace KubePortForward.Mux

open KubePortForward.Codec
open KubePortForward.Verified.BigEndian
open KubePortForward.Verified.Channel
open KubePortForward.Verified.Transition

variable {id : StreamId} {maxFrameSize : UInt32} {w : SendWindow} {buf frame : Bytes} {n : Nat}

/-- A new call begins. -/
def SendAct.isPoll : SendAct → Bool
  | .poll _ => true
  | _ => false

/-- A call on `buf` that reads the window `w` and finds room goes on, with anything
happening in between, to accept `n` bytes and enqueue `frame`. -/
structure Accepts (id : StreamId) (maxFrameSize : UInt32) (w : SendWindow) (buf : Bytes)
    (n : Nat) (frame : Bytes) : Prop where
  call : ∃ (initial : UInt32) (cmd : Chan MuxCommand) (u v s t : SendState)
    (acts : List SendAct) (payload : Bytes),
    (u.pc = .read buf ∨ u.pc = .reread buf) ∧ u.window = w ∧
    u.step id maxFrameSize = some v ∧ v.pc = .load payload ∧
    (∀ a ∈ acts, a.isPoll = false) ∧ (sending id maxFrameSize initial cmd).run v acts = some s ∧
    s.step id maxFrameSize = some t ∧ t.returned = some (.written n) ∧
    t.enqueued = s.enqueued ++ [frame]

/-- The frame is the encoding of the accepted bytes, within the limit, and a decoder that
admits that many bytes takes it off whole. -/
structure DataWellFormed (F : Flate) (id : StreamId) (maxFrameSize : UInt32) (buf : Bytes)
    (n : Nat) (frame : Bytes) : Prop where
  encoded : frame = encodeData id (buf.take n) false
  bounded : n ≤ maxFrameSize.toNat
  decoded : ∀ codec : SpdyCodec F, n ≤ codec.maxFrameSize.toNat →
    codec.decodeFrame frame = some ⟨.ok (some (.data id (buf.take n) false)), [], codec⟩

/-- What the buffer and the window offer is within the limit, if there is no room for a
payload under it; otherwise what is left of it under the limit fits in 24 bits. -/
def LimitAdmits (maxFrameSize : UInt32) (w : SendWindow) (buf : Bytes) : Prop :=
  if maxFrameSize.toNat ≤ 8 then min buf.length w.available.toNat ≤ maxFrameSize.toNat
  else min (min buf.length w.available.toNat) (maxFrameSize.toNat - 8) < 2 ^ 24

instance (maxFrameSize : UInt32) (w : SendWindow) (buf : Bytes) :
    Decidable (LimitAdmits maxFrameSize w buf) := by
  unfold LimitAdmits
  infer_instance

/-! ## What a call carries -/

/-- The call has picked `payload`, or is over. -/
def SendState.Carries (payload : Bytes) (s : SendState) : Prop :=
  s.pc = .load payload ∨ (∃ cur, s.pc = .exchange payload cur) ∨ s.pc = .enqueue payload ∨
    s.pc = .idle

theorem SendState.Carries.step {payload : Bytes} {s s' : SendState} (h : s.Carries payload)
    (hs : s.step id maxFrameSize = some s') : s'.Carries payload := by
  unfold SendState.step at hs
  rcases h with hpc | ⟨cur, hpc⟩ | hpc | hpc
  · simp only [hpc] at hs
    split at hs <;> cases hs
    · exact .inr (.inr (.inr rfl))
    · exact .inr (.inl ⟨_, rfl⟩)
  · simp only [hpc] at hs
    split at hs <;> cases hs
    · exact .inr (.inr (.inl rfl))
    · exact .inl rfl
  · simp only [hpc] at hs
    split at hs
    · cases hs
      exact .inr (.inr (.inr rfl))
    · contradiction
  · simp only [hpc] at hs
    contradiction

theorem SendState.Carries.act {payload : Bytes} {s s' : SendState} {a : SendAct}
    (h : s.Carries payload) (ha : a.isPoll = false)
    (hs : sendStep id maxFrameSize s a = some s') : s'.Carries payload := by
  cases a with
  | poll buf => contradiction
  | step => exact h.step hs
  | granted =>
      simp only [sendStep] at hs
      split at hs
      · cases hs
        exact h
      · contradiction
  | channel c =>
      simp only [sendStep] at hs
      split at hs
      · contradiction
      · cases hs
        exact h
  | _ =>
      cases hs
      exact h

theorem SendState.Carries.run {payload : Bytes} {initial : UInt32} {cmd : Chan MuxCommand}
    {s s' : SendState} {acts : List SendAct} (h : s.Carries payload)
    (hacts : ∀ a ∈ acts, a.isPoll = false)
    (hrun : (sending id maxFrameSize initial cmd).run s acts = some s') :
    s'.Carries payload := by
  induction acts generalizing s with
  | nil =>
      cases hrun
      exact h
  | cons a acts ih =>
      obtain ⟨u, hu, hrest⟩ := run_cons_some hrun
      exact ih (h.act (hacts a (by simp)) hu) (fun b hb => hacts b (by simp [hb])) hrest

/-- A read that finds room picks the first bytes of the buffer. -/
theorem step_picks {u v : SendState} {payload : Bytes}
    (hread : u.pc = .read buf ∨ u.pc = .reread buf) (hs : u.step id maxFrameSize = some v)
    (hload : v.pc = .load payload) :
    payload = buf.take (writeSize maxFrameSize u.window buf) := by
  unfold SendState.step at hs
  rcases hread with hpc | hpc
  all_goals
    simp only [hpc] at hs
    split at hs <;> cases hs
    · simp [SendState.finish] at hload
    · cases hload
      rfl

/-- A call that returns bytes written has enqueued what it carries. -/
theorem step_written {s t : SendState} {payload : Bytes} (h : s.Carries payload)
    (hs : s.step id maxFrameSize = some t) (hn : t.returned = some (.written n))
    (hframe : t.enqueued = s.enqueued ++ [frame]) :
    n = payload.length ∧ frame = rawDataFrame id payload := by
  unfold SendState.step at hs
  rcases h with hpc | ⟨cur, hpc⟩ | hpc | hpc
  · simp only [hpc] at hs
    split at hs <;> cases hs <;> simp [SendState.finish] at hframe
  · simp only [hpc] at hs
    split at hs <;> cases hs <;> simp at hframe
  · simp only [hpc] at hs
    split at hs
    · cases hs
      simp only [SendState.finish, Option.some.injEq, WriteReturn.written.injEq] at hn
      rw [List.append_cancel_left_eq, List.cons.injEq] at hframe
      exact ⟨hn.symm, hframe.1.symm⟩
    · contradiction
  · simp only [hpc] at hs
    contradiction

/-- The call accepts as many bytes as it chose, and enqueues these. -/
theorem Accepts.eq_raw (h : Accepts id maxFrameSize w buf n frame) :
    n = writeSize maxFrameSize w buf ∧ frame = rawDataFrame id (buf.take n) := by
  obtain ⟨initial, cmd, u, v, s, t, acts, payload, hread, rfl, hpick, hload, hacts, hrun, hend,
    hn, hframe⟩ := h.call
  have hpayload := step_picks hread hpick hload
  have hcarries : s.Carries payload := SendState.Carries.run (.inl hload) hacts hrun
  obtain ⟨rfl, rfl⟩ := step_written hcarries hend hn hframe
  subst hpayload
  rw [take_writeSize_length]
  exact ⟨rfl, rfl⟩

/-! ## The two encoders -/

/-- A limit of at most 8 does not limit. -/
theorem writeSize_eq (maxFrameSize : UInt32) (w : SendWindow) (buf : Bytes) :
    writeSize maxFrameSize w buf = if maxFrameSize.toNat ≤ 8 then
        min buf.length w.available.toNat
      else min (min buf.length w.available.toNat) (maxFrameSize.toNat - 8) := by
  unfold writeSize
  simp only
  split
  · next h =>
      rw [if_pos (by omega)]
      omega
  · next h => rw [if_neg (by omega)]

/-- The length field of the frame holds 24 bits of the length. -/
theorem rawDataFrame_words (id : StreamId) (payload : Bytes) :
    ∃ w : UInt32, w.toNat = payload.length % 2 ^ 24 ∧
      rawDataFrame id payload = beField 4 (id &&& 0x7FFFFFFF).toNat ++
        (beField 4 w.toNat ++ payload) := by
  refine ⟨UInt32.ofNat payload.length &&& 0x00FFFFFF, ?_, ?_⟩
  · rw [lowWord_toNat, UInt32.toNat_ofNat']
    omega
  · rw [rawDataFrame, List.append_assoc]

/-- Below `2 ^ 24` the two encoders agree. -/
theorem rawDataFrame_eq_encodeData {payload : Bytes} (h : payload.length < 2 ^ 24) :
    rawDataFrame id payload = encodeData id payload false := by
  have hword : UInt32.ofNat payload.length &&& 0x00FFFFFF =
      flagsWord (finFlag false) payload.length := by
    apply UInt32.toNat_inj.1
    rw [lowWord_toNat, flagsWord_toNat h, UInt32.toNat_ofNat']
    show _ = 2 ^ 24 * 0 + payload.length
    omega
  rw [rawDataFrame, hword]
  rfl

/-- What is decoded is as long as the length field says. -/
theorem decodeFrame_rawDataFrame {F : Flate} {codec : SpdyCodec F} (hid : id.toNat < 2 ^ 31)
    (payload : Bytes) (hlimit : payload.length ≤ codec.maxFrameSize.toNat) :
    codec.decodeFrame (rawDataFrame id payload) =
      some ⟨.ok (some (.data id (payload.take (payload.length % 2 ^ 24)) false)),
        payload.drop (payload.length % 2 ^ 24), codec⟩ := by
  obtain ⟨w, hw, hframe⟩ := rawDataFrame_words id payload
  have hmod := Nat.mod_le payload.length (2 ^ 24)
  have hsame : w.toNat % 2 ^ 24 = payload.length % 2 ^ 24 := by omega
  have hflags : UInt8.ofNat (w.toNat / 2 ^ 24) = 0 := by
    rw [show w.toNat / 2 ^ 24 = 0 by omega]
    rfl
  rw [hframe, dataId_eq hid, decodeFrame_dataWords hid (by omega) (by omega), hsame, hflags]
  rfl

/-- A frame that a writer enqueues is well formed exactly when the limit admits what the
buffer and the window offered. -/
theorem outgoing_data_iff (F : Flate) (hid : id.toNat < 2 ^ 31)
    (h : Accepts id maxFrameSize w buf n frame) :
    DataWellFormed F id maxFrameSize buf n frame ↔ LimitAdmits maxFrameSize w buf := by
  obtain ⟨hn, rfl⟩ := h.eq_raw
  have hlen : (buf.take n).length = n := by rw [hn, take_writeSize_length]
  rw [writeSize_eq] at hn
  constructor
  · rintro ⟨-, hbounded, hdecoded⟩
    unfold LimitAdmits
    split
    · next htiny =>
        rw [if_pos htiny] at hn
        omega
    · next hlarge =>
        rw [if_neg hlarge] at hn
        by_contra hover
        have hdecode := hdecoded (.withMaxFrameSize F maxFrameSize) hbounded
        rw [decodeFrame_rawDataFrame hid _ (by rw [hlen]; exact hbounded), hlen] at hdecode
        simp only [Option.some.injEq, Decoded.mk.injEq, Except.ok.injEq,
          Frame.data.injEq] at hdecode
        have hcut := congrArg List.length hdecode.1.2.1
        rw [List.length_take, hlen] at hcut
        omega
  · intro hadmits
    have hsmall : n < 2 ^ 24 ∧ n ≤ maxFrameSize.toNat := by
      unfold LimitAdmits at hadmits
      split at hadmits
      · next htiny =>
          rw [if_pos htiny] at hn
          omega
      · next hlarge =>
          rw [if_neg hlarge] at hn
          omega
    refine ⟨rawDataFrame_eq_encodeData (by omega), hsmall.2, fun codec hlimit => ?_⟩
    rw [decodeFrame_rawDataFrame hid _ (by omega), hlen, Nat.mod_eq_of_lt hsmall.1,
      List.take_of_length_le (by omega), List.drop_eq_nil_of_le (by omega)]

/-! ## Calls that are not disturbed -/

/-- A writer that has its slot and is about to read the window. -/
def readingState (w : SendWindow) (buf : Bytes) : SendState where
  window := w
  cmd := { capacity := 1, queue := [], reserved := 1, closed := false, bounded := by simp }
  permit := true
  pc := .read buf

/-- A call that finds room and is not disturbed accepts. -/
theorem accepts_undisturbed (hroom : writeSize maxFrameSize w buf ≠ 0) :
    Accepts id maxFrameSize w buf (writeSize maxFrameSize w buf)
      (rawDataFrame id (buf.take (writeSize maxFrameSize w buf))) := by
  have hopen : w.remaining ≠ I64_MIN := by
    intro hclosed
    have hle := writeSize_le_available maxFrameSize w buf
    rw [hclosed] at hle
    exact hroom (Nat.le_zero.1 hle)
  have hlen := take_writeSize_length maxFrameSize w buf
  generalize hpayload : buf.take (writeSize maxFrameSize w buf) = payload at hlen
  have hread : (readingState w buf).step id maxFrameSize =
      some { readingState w buf with pc := .load payload } := by
    simp [SendState.step, readingState, hroom, hpayload]
  have hdebit : (sending id maxFrameSize 0 (Chan.new 1)).run
      { readingState w buf with pc := .load payload } [.step, .step] =
      some { readingState w buf with
        window := { w with remaining := wrapI64 (w.remaining - payload.length) }
        debited := payload.length
        pc := .enqueue payload } := by
    simp [System.run, sending, sendStep, SendState.step, readingState, hopen]
  refine ⟨0, Chan.new 1, _, _, _, _, [.step, .step], _, .inl rfl, rfl, hread, rfl, ?_, hdebit,
    rfl, ?_, rfl⟩
  · intro a ha
    simp only [List.mem_cons, List.not_mem_nil, or_false, or_self] at ha
    rw [ha]
    rfl
  · simp only [SendState.finish, hlen]

/-- The limit of 16 bytes and 20 bytes to write: a frame of 8 bytes. -/
theorem outgoing_data_bounded :
    DataWellFormed noFlate 3 16 (List.replicate 20 65) 8
      (rawDataFrame 3 (List.replicate 8 65)) := by
  have haccepts : Accepts 3 16 (SendWindow.new 100) (List.replicate 20 65) 8
      (rawDataFrame 3 (List.replicate 8 65)) := accepts_undisturbed (by decide)
  exact (outgoing_data_iff noFlate (by decide) haccepts).2 (by decide)

/-- A limit of 4 bytes is exceeded by a frame of 5. -/
theorem tiny_limit_exceeded :
    ¬ ∀ (F : Flate) (id : StreamId) (maxFrameSize : UInt32) (w : SendWindow) (buf : Bytes)
      (n : Nat) (frame : Bytes), id.toNat < 2 ^ 31 → buf ≠ [] →
      Accepts id maxFrameSize w buf n frame → DataWellFormed F id maxFrameSize buf n frame := by
  intro h
  have haccepts : Accepts 3 4 (SendWindow.new 100) [1, 2, 3, 4, 5] 5
      (rawDataFrame 3 [1, 2, 3, 4, 5]) := accepts_undisturbed (by decide)
  exact absurd (h noFlate 3 4 _ _ 5 _ (by decide) (by decide) haccepts).bounded (by decide)

end KubePortForward.Mux

import Mathlib.Data.List.Induction
import KubePortForward.Codec.FrameWords
import KubePortForward.Codec.HeaderStreams
import KubePortForward.Codec.WordFlate

/-!
# Frames there and back

One codec encodes a sequence of frames, another gets the octets in chunks and calls
`decode_frame` until it returns no frame.  The frames come out as they went in: an
encoder writes what one call takes off the buffer, a call on part of a frame leaves the
buffer as it is, and the two zlib streams stay in step from one header block to the next.

## Main results

* `SpdyCodec.Takes.decodeFrame_whole`, `SpdyCodec.Takes.decodeFrame_part` — a call takes
  one frame off the buffer, or leaves part of one in it.
* `Sent.takes` — what an encoder writes is one frame, whatever was sent before.
* `frames_round_trip` — every sequence of frames, cut in any way.
-/

namespace KubePortForward.Codec

open KubePortForward.Verified.BigEndian

variable {F : Flate}

/-! ## One frame and one call -/

/-- The octets are one frame within the limits, and what `codec` makes of them. -/
structure SpdyCodec.Takes (codec : SpdyCodec F) (octets : Bytes) (frame : Frame)
    (codec' : SpdyCodec F) : Prop where
  header : 8 ≤ octets.length
  whole : frameTotal octets = octets.length
  fits : ¬ Oversized codec octets
  decodes : codec.decodeWhole octets = some (.ok frame, codec')

section Calls

variable {codec codec' : SpdyCodec F} {frame : Frame}

theorem SpdyCodec.Takes.decodeFrame_whole {octets : Bytes} (h : codec.Takes octets frame codec')
    (more : Bytes) :
    codec.decodeFrame (octets ++ more) = some ⟨.ok (some frame), more, codec'⟩ := by
  rw [decodeFrame_append more h.header h.fits (Nat.le_of_eq h.whole),
    decodeFrame_complete h.header h.fits (Nat.le_of_eq h.whole), h.whole, List.take_length,
    h.decodes, List.drop_length]
  rfl

theorem SpdyCodec.Takes.decodeFrame_part {buf more : Bytes} (h : codec.Takes (buf ++ more) frame codec')
    (hmore : more ≠ []) : codec.decodeFrame buf = some ⟨.ok none, buf, codec⟩ := by
  refine decodeFrame_incomplete
    (fun hover => h.fits ((oversized_append more hover.1).2 hover)) ?_
  rcases Nat.lt_or_ge buf.length 8 with hshort | hheader
  · exact .inl hshort
  · have htotal := h.whole
    have hpos := List.length_pos_iff.2 hmore
    rw [frameTotal_append more hheader, List.length_append] at htotal
    exact .inr (by omega)

end Calls

/-! ## Control frames -/

theorem isControl_version (rest : Bytes) : isControl (beField 2 SPDY_VERSION ++ rest) = true := by
  rw [isControl, List.take_left' (beField_length _ _)]
  rfl

/-- What the payload decodes to is what the frame does. -/
theorem takes_control {codec codec' : SpdyCodec F} {frameType : Nat} {flags : UInt8}
    {payload : Bytes} {frame : Frame} (htype : frameType < 2 ^ 16)
    (hlen : payload.length ≤ MAX_CONTROL_FRAME_SIZE)
    (h : codec.decodeControlFrame frameType flags payload = some (.ok frame, codec')) :
    codec.Takes (controlHeader frameType flags payload.length ++ payload) frame codec' := by
  have hmax : MAX_CONTROL_FRAME_SIZE = 2 ^ 20 := rfl
  have hflags : flags.toNat < 2 ^ 8 := flags.toNat_lt
  have hword : (flagsWord flags payload.length).toNat = 2 ^ 24 * flags.toNat + payload.length :=
    flagsWord_toNat (by omega)
  have hfour : (beField 2 SPDY_VERSION ++ beField 2 frameType).length = 4 := by
    simp only [List.length_append, beField_length]
  have hsplit : controlHeader frameType flags payload.length ++ payload =
      beField 2 SPDY_VERSION ++ beField 2 frameType ++
        (beField 4 (flagsWord flags payload.length).toNat ++ payload) := by
    rw [controlHeader, List.append_assoc]
    rfl
  have hsize : (controlHeader frameType flags payload.length ++ payload).length =
      8 + payload.length := by
    rw [hsplit]
    simp only [List.length_append, beField_length]
    omega
  have hcontrol : isControl (controlHeader frameType flags payload.length ++ payload) = true := by
    rw [hsplit, List.append_assoc]
    exact isControl_version _
  have hpayload : payloadLen (controlHeader frameType flags payload.length ++ payload) =
      payload.length := by
    rw [hsplit, payloadLen_words hfour]
    omega
  have hflag : frameFlags (controlHeader frameType flags payload.length ++ payload) = flags := by
    rw [hsplit, frameFlags_words hfour]
    apply UInt8.toNat_inj.1
    rw [UInt8.toNat_ofNat']
    omega
  have hkind : ofBe (((controlHeader frameType flags payload.length ++ payload).drop 2).take 2) =
      frameType := by
    rw [hsplit, List.append_assoc, List.drop_left' (beField_length _ _),
      List.take_left' (beField_length _ _), ofBe_beField_of_lt htype]
  have hbody : (controlHeader frameType flags payload.length ++ payload).drop 8 = payload :=
    List.drop_left' (by rw [List.length_append] at hsize; omega)
  refine ⟨by omega, by rw [frameTotal, hpayload, hsize], ?_, ?_⟩
  · rintro ⟨-, hover⟩
    rw [frameLimit, hcontrol, hpayload, if_pos rfl] at hover
    omega
  · rw [SpdyCodec.decodeWhole, if_pos hcontrol, hkind, hflag, hbody, h]

theorem wordAt_first (a : UInt32) (rest : Bytes) : wordAt (beField 4 a.toNat ++ rest) 0 = a := by
  rw [wordAt, List.drop_zero, take_word, ofNat_ofBe_word]

theorem wordAt_second (a b : UInt32) (rest : Bytes) :
    wordAt (beField 4 a.toNat ++ (beField 4 b.toNat ++ rest)) 4 = b := by
  rw [wordAt, drop_word, take_word, ofNat_ofBe_word]

/-- A frame of two words is decoded from the two words. -/
theorem takes_twoWordFrame {codec : SpdyCodec F} {frameType : Nat} {first second : UInt32}
    {frame : UInt32 → UInt32 → Frame} (message : String) (htype : frameType < 2 ^ 16)
    (h : ∀ payload, codec.decodeControlFrame frameType 0 payload =
      some (fixedFrame 8 message payload (frame (wordAt payload 0) (wordAt payload 4)), codec)) :
    codec.Takes (twoWordFrame frameType first second) (frame first second) codec := by
  have hlen : (beField 4 first.toNat ++ beField 4 second.toNat).length = 8 := by
    simp only [List.length_append, beField_length]
  have hsecond := wordAt_second first second []
  rw [List.append_nil] at hsecond
  have htakes : codec.Takes (controlHeader frameType 0
      (beField 4 first.toNat ++ beField 4 second.toNat).length ++
        (beField 4 first.toNat ++ beField 4 second.toNat)) (frame first second) codec := by
    refine takes_control htype (by rw [hlen]; decide) ?_
    rw [h, wordAt_first, hsecond, fixedFrame, if_neg (by omega)]
  rwa [hlen, ← List.append_assoc] at htakes

theorem takes_rstStream {codec : SpdyCodec F} (id : StreamId) (status : UInt32) :
    codec.Takes (encodeRstStream id status) (.rstStream id status) codec :=
  takes_twoWordFrame "RST_STREAM payload too short" (by decide) fun _ => rfl

theorem takes_windowUpdate {codec : SpdyCodec F} (id : StreamId) (delta : UInt32) :
    codec.Takes (encodeWindowUpdate id delta) (.windowUpdate id delta) codec :=
  takes_twoWordFrame "WINDOW_UPDATE payload too short" (by decide) fun _ => rfl

theorem takes_goAway {codec : SpdyCodec F} (id : StreamId) (status : UInt32) :
    codec.Takes (encodeGoAway id status) (.goAway id status) codec :=
  takes_twoWordFrame "GOAWAY payload too short" (by decide) fun _ => rfl

theorem takes_ping {codec : SpdyCodec F} (id : UInt32) :
    codec.Takes (encodePing id) (.ping id) codec := by
  have hlen : (beField 4 id.toNat).length = 4 := beField_length _ _
  have hword := wordAt_first id []
  rw [List.append_nil] at hword
  have htakes : codec.Takes (controlHeader PING_TYPE 0 (beField 4 id.toNat).length ++
      beField 4 id.toNat) (.ping id) codec := by
    refine takes_control (by decide) (by rw [hlen]; decide) ?_
    show some (fixedFrame 4 _ (beField 4 id.toNat) (.ping (wordAt _ 0)), codec) = _
    rw [hword, fixedFrame, if_neg (by omega)]
  rwa [hlen] at htakes

/-! ## SETTINGS -/

/-- The last value a SETTINGS frame gives for an id. -/
def lastValue (id : UInt32) (entries : List (UInt32 × UInt32)) : Option UInt32 :=
  (entries.filter fun entry => entry.1 = id).getLast?.map Prod.snd

theorem lastValue_snoc (id : UInt32) (entries : List (UInt32 × UInt32))
    (entry : UInt32 × UInt32) :
    lastValue id (entries ++ [entry]) =
      if entry.1 = id then some entry.2 else lastValue id entries := by
  unfold lastValue
  rw [List.filter_append]
  split
  · next h => simp [h]
  · next h => simp [h]

theorem settingsEntry_length (entry : UInt32 × UInt32) : (settingsEntry entry).length = 8 := by
  simp [settingsEntry]

theorem settingsEntries_length (entries : List (UInt32 × UInt32)) :
    (entries.flatMap settingsEntry).length = entries.length * 8 := by
  induction entries with
  | nil => rfl
  | cons entry entries ih =>
      rw [List.flatMap_cons, List.length_append, settingsEntry_length, ih, List.length_cons]
      omega

/-- The id of an entry is in the three octets that are written. -/
theorem settingsEntry_id {entry : UInt32 × UInt32} (h : entry.1.toNat < 2 ^ 24)
    (rest : Bytes) :
    UInt32.ofNat (ofBe (((settingsEntry entry ++ rest).drop 1).take 3)) = entry.1 := by
  have hoctets : ((settingsEntry entry ++ rest).drop 1).take 3 = beField 3 entry.1.toNat := rfl
  rw [hoctets, ofBe_beField_of_lt h, UInt32.ofNat_toNat]

theorem settingsEntry_value (entry : UInt32 × UInt32) (rest : Bytes) :
    wordAt (settingsEntry entry ++ rest) 4 = entry.2 := by
  have hoctets : ((settingsEntry entry ++ rest).drop 4).take 4 = beField 4 entry.2.toNat := rfl
  rw [wordAt, hoctets, ofNat_ofBe_word]

/-- The entries are read in order. -/
theorem readSettings_entries {entries : List (UInt32 × UInt32)}
    (h : ∀ entry ∈ entries, entry.1.toNat < 2 ^ 24) (s : Settings) :
    readSettings entries.length (entries.flatMap settingsEntry) s =
      entries.foldl (fun s entry => s.read entry.1 entry.2) s := by
  induction entries generalizing s with
  | nil => rfl
  | cons entry entries ih =>
      have hlen := settingsEntry_length entry
      rw [List.length_cons, List.flatMap_cons, readSettings,
        if_neg (by rw [List.length_append]; omega), settingsEntry_id (h entry List.mem_cons_self),
        settingsEntry_value, List.drop_left' hlen, List.foldl_cons,
        ih fun e he => h e (List.mem_cons_of_mem _ he)]

/-- What is left of them is the last value of each id that is known. -/
theorem foldl_read (entries : List (UInt32 × UInt32)) :
    entries.foldl (fun s entry => s.read entry.1 entry.2) ({} : Settings) =
      ⟨lastValue SETTINGS_INITIAL_WINDOW_SIZE entries,
        lastValue SETTINGS_MAX_CONCURRENT_STREAMS entries, lastValue 5 entries⟩ := by
  induction entries using List.reverseRecOn with
  | nil => rfl
  | append_singleton entries entry ih =>
      rw [List.foldl_append, ih]
      simp only [List.foldl_cons, List.foldl_nil, lastValue_snoc, Settings.read]
      by_cases hwindow : entry.1 = SETTINGS_INITIAL_WINDOW_SIZE
      · rw [hwindow]
        rfl
      · by_cases hstreams : entry.1 = SETTINGS_MAX_CONCURRENT_STREAMS
        · rw [hstreams]
          rfl
        · by_cases hframe : entry.1 = 5
          · rw [hframe]
            rfl
          · simp only [if_neg hwindow, if_neg hstreams, if_neg hframe]

theorem takes_settings {codec : SpdyCodec F} {entries : List (UInt32 × UInt32)}
    (hids : ∀ entry ∈ entries, entry.1.toNat < 2 ^ 24)
    (hlen : 4 + entries.length * 8 ≤ MAX_CONTROL_FRAME_SIZE) :
    codec.Takes (encodeSettings entries)
      (.settings (lastValue SETTINGS_INITIAL_WINDOW_SIZE entries)
        (lastValue SETTINGS_MAX_CONCURRENT_STREAMS entries) (lastValue 5 entries)) codec := by
  have hmax : MAX_CONTROL_FRAME_SIZE = 2 ^ 20 := rfl
  have hcount : (UInt32.ofNat entries.length).toNat = entries.length := by
    rw [UInt32.toNat_ofNat']
    omega
  have hsize : (beField 4 (UInt32.ofNat entries.length).toNat ++
      entries.flatMap settingsEntry).length = 4 + entries.length * 8 := by
    rw [List.length_append, beField_length, settingsEntries_length]
  have htakes : codec.Takes (controlHeader SETTINGS_TYPE 0
      (beField 4 (UInt32.ofNat entries.length).toNat ++
        entries.flatMap settingsEntry).length ++
      (beField 4 (UInt32.ofNat entries.length).toNat ++ entries.flatMap settingsEntry))
      (.settings (lastValue SETTINGS_INITIAL_WINDOW_SIZE entries)
        (lastValue SETTINGS_MAX_CONCURRENT_STREAMS entries) (lastValue 5 entries)) codec := by
    refine takes_control (by decide) (by omega) ?_
    show some (Except.ok (decodeSettings _), codec) = _
    rw [decodeSettings, if_neg (by omega), wordAt_first, drop_word, hcount,
      readSettings_entries hids, foldl_read]
  rwa [hsize, ← List.append_assoc] at htakes

/-! ## DATA -/

theorem takes_data {codec : SpdyCodec F} {id : StreamId} {payload : Bytes}
    (hid : id.toNat < 2 ^ 31) (hlimit : payload.length ≤ codec.maxFrameSize.toNat)
    (hlen : payload.length < 2 ^ 24) (fin : Bool) :
    codec.Takes (encodeData id payload fin) (.data id payload fin) codec := by
  have hfour : (beField 4 id.toNat).length = 4 := beField_length _ _
  have hflags : (finFlag fin).toNat < 2 ^ 8 := (finFlag fin).toNat_lt
  have hword : (flagsWord (finFlag fin) payload.length).toNat =
      2 ^ 24 * (finFlag fin).toNat + payload.length := flagsWord_toNat hlen
  have hsplit : encodeData id payload fin = beField 4 id.toNat ++
      (beField 4 (flagsWord (finFlag fin) payload.length).toNat ++ payload) := by
    rw [encodeData, dataId_eq hid, List.append_assoc]
    rfl
  have hsize : (encodeData id payload fin).length = 8 + payload.length := by
    rw [hsplit]
    simp only [List.length_append, beField_length]
    omega
  have hcontrol : isControl (encodeData id payload fin) = false := by
    rw [hsplit]
    exact isControl_word hid _
  have hpayload : payloadLen (encodeData id payload fin) = payload.length := by
    rw [hsplit, payloadLen_words hfour]
    omega
  have hflag : frameFlags (encodeData id payload fin) = finFlag fin := by
    rw [hsplit, frameFlags_words hfour]
    apply UInt8.toNat_inj.1
    rw [UInt8.toNat_ofNat']
    omega
  have hstream : headerStreamId (encodeData id payload fin) = id := by
    rw [hsplit, headerStreamId, firstWord_word, dataId_eq hid]
  have hbody : (encodeData id payload fin).drop 8 = payload := by
    rw [hsplit, ← List.append_assoc]
    exact List.drop_left' (by simp only [List.length_append, beField_length])
  refine ⟨by omega, by rw [frameTotal, hpayload, hsize], ?_, ?_⟩
  · rintro ⟨-, hover⟩
    rw [frameLimit, hcontrol, hpayload] at hover
    simp only [Bool.false_eq_true, if_false] at hover
    omega
  · rw [SpdyCodec.decodeWhole, hcontrol, hstream, hbody, hflag, hasFin_finFlag]
    rfl

/-! ## Frames as they are asked for -/

/-- A call of one of the encoders. -/
inductive Sent where
  | synStream (streamId : StreamId) (headers : Headers) (fin : Bool) (priority : UInt8)
  | data (streamId : StreamId) (payload : Bytes) (fin : Bool)
  | rstStream (streamId : StreamId) (status : UInt32)
  | ping (id : UInt32)
  | windowUpdate (streamId : StreamId) (delta : UInt32)
  | goAway (lastGoodStreamId : StreamId) (status : UInt32)
  | settings (entries : List (UInt32 × UInt32))

/-- The encoder of the frame; `rounds` bounds the loop of the header compression. -/
def Sent.encode (rounds : Nat) (codec : SpdyCodec F) :
    Sent → Option (Except CodecError Bytes × SpdyCodec F)
  | .synStream id headers fin priority =>
      codec.encodeSynStreamWithPriority rounds id headers fin priority
  | .data id payload fin => some (.ok (encodeData id payload fin), codec)
  | .rstStream id status => some (.ok (encodeRstStream id status), codec)
  | .ping id => some (.ok (encodePing id), codec)
  | .windowUpdate id delta => some (.ok (encodeWindowUpdate id delta), codec)
  | .goAway id status => some (.ok (encodeGoAway id status), codec)
  | .settings entries => some (.ok (encodeSettings entries), codec)

/-- The frame the other side is to see. -/
def Sent.frame : Sent → Frame
  | .synStream id headers fin _ => .synStream id (lowercaseNames headers) fin
  | .data id payload fin => .data id payload fin
  | .rstStream id status => .rstStream id status
  | .ping id => .ping id
  | .windowUpdate id delta => .windowUpdate id delta
  | .goAway id status => .goAway id status
  | .settings entries =>
      .settings (lastValue SETTINGS_INITIAL_WINDOW_SIZE entries)
        (lastValue SETTINGS_MAX_CONCURRENT_STREAMS entries) (lastValue 5 entries)

/-- The frame, encoded as `octets`, is one that a decoder with this limit is to accept. -/
def Sent.Fits (maxFrameSize : UInt32) (octets : Bytes) : Sent → Prop
  | .synStream _ headers _ _ => octets.length ≤ 8 + MAX_CONTROL_FRAME_SIZE ∧
      (headerBlock headers).length < MAX_HEADER_BLOCK_SIZE - 256
  | .data id payload _ => id.toNat < 2 ^ 31 ∧ payload.length ≤ maxFrameSize.toNat ∧
      payload.length < 2 ^ 24
  | .settings entries => octets.length ≤ 8 + MAX_CONTROL_FRAME_SIZE ∧
      ∀ entry ∈ entries, entry.1.toNat < 2 ^ 24
  | _ => True

section Streams

variable {valid : Bytes → Prop} {decoded : Bytes → Bytes}
variable {deflated : F.Compress → Bytes → Bytes → Prop}
variable {inflated : Bool → F.Decompress → Bytes → Bytes → Prop}

/-- Everything one codec has compressed has come out of the other. -/
def InStep (decoded : Bytes → Bytes) (deflated : F.Compress → Bytes → Bytes → Prop)
    (inflated : Bool → F.Decompress → Bytes → Bytes → Prop) (encoder decoder : SpdyCodec F) :
    Prop :=
  ∃ xs ys, encoder.Compressing deflated xs ys ∧ decoded ys = xs ∧
    inflated decoder.dictSetDecompress decoder.decompressor ys xs

variable (laws : F.Laws SPDY_DICT valid decoded deflated inflated)

include laws

theorem inStep_new (sending receiving : UInt32) :
    InStep decoded deflated inflated (.withMaxFrameSize F sending)
      (.withMaxFrameSize F receiving) :=
  ⟨[], [], ⟨rfl, rfl, rfl⟩, laws.decoded_nil, laws.decompress_new⟩

/-- A SYN_STREAM frame is decoded with its headers, and the streams stay in step. -/
theorem takes_synStream {rounds : Nat} {encoder encoder' decoder : SpdyCodec F}
    {id : StreamId} {headers : Headers} {fin : Bool} {priority : UInt8} {octets : Bytes}
    (hstep : InStep decoded deflated inflated encoder decoder)
    (h : encoder.encodeSynStreamWithPriority rounds id headers fin priority =
      some (.ok octets, encoder'))
    (hlen : octets.length ≤ 8 + MAX_CONTROL_FRAME_SIZE)
    (hblock : (headerBlock headers).length < MAX_HEADER_BLOCK_SIZE - 256) :
    ∃ decoder', decoder.Takes octets (.synStream id (lowercaseNames headers) fin) decoder' ∧
      InStep decoded deflated inflated encoder' decoder' ∧
      decoder'.maxFrameSize = decoder.maxFrameSize := by
  have hmax : MAX_CONTROL_FRAME_SIZE = 2 ^ 20 := rfl
  obtain ⟨xs, ys, hencoder, hbefore, hdecoder⟩ := hstep
  unfold SpdyCodec.encodeSynStreamWithPriority at h
  obtain ⟨⟨result, codec⟩, hcompress, hframe⟩ := Option.map_eq_some_iff.1 h
  cases result with
  | error e => simp at hframe
  | ok compressed =>
      simp only [Prod.mk.injEq, Except.ok.injEq] at hframe
      obtain ⟨hoctets, rfl⟩ := hframe
      obtain ⟨hencoder', hvalid, hheld⟩ := compressHeaders_spec laws hencoder hcompress
      obtain ⟨decoder', hheaders, hdecoder', hsize⟩ :=
        decompressHeaders_spec laws hdecoder hvalid hbefore hheld hblock
      have hpayload : (beField 4 id.toNat ++ (beField 4 0 ++
          ([(priority &&& 0x07) <<< 5, 0] ++ compressed))).length = 10 + compressed.length := by
        simp only [List.length_append, beField_length, List.length_cons, List.length_nil]
        omega
      have hrest : (beField 4 id.toNat ++ (beField 4 0 ++
          ([(priority &&& 0x07) <<< 5, 0] ++ compressed))).drop 10 = compressed := rfl
      have hcut : octets = controlHeader SYN_STREAM_TYPE (finFlag fin) (10 + compressed.length) ++
          (beField 4 id.toNat ++ (beField 4 0 ++
            ([(priority &&& 0x07) <<< 5, 0] ++ compressed))) := by
        rw [← hoctets]
        simp only [List.append_assoc]
      have hlimit : 10 + compressed.length ≤ MAX_CONTROL_FRAME_SIZE := by
        rw [hcut, List.length_append, hpayload] at hlen
        simp only [controlHeader, List.length_append, beField_length] at hlen
        omega
      refine ⟨decoder', ?_, ⟨_, _, hencoder', hheld, hdecoder'⟩, hsize⟩
      rw [hcut, ← hpayload]
      refine takes_control (by decide) (by omega) ?_
      rw [SpdyCodec.decodeControlFrame, if_pos rfl, headersFrame, if_neg (by omega), hrest,
        hheaders, wordAt_first, hasFin_finFlag]
      rfl

/-- What an encoder writes is one frame for a decoder that is in step. -/
theorem Sent.takes {rounds : Nat} {encoder encoder' decoder : SpdyCodec F} {sent : Sent}
    {octets : Bytes} (hstep : InStep decoded deflated inflated encoder decoder)
    (h : sent.encode rounds encoder = some (.ok octets, encoder'))
    (hfits : sent.Fits decoder.maxFrameSize octets) :
    ∃ decoder', decoder.Takes octets sent.frame decoder' ∧
      InStep decoded deflated inflated encoder' decoder' ∧
      decoder'.maxFrameSize = decoder.maxFrameSize := by
  cases sent with
  | synStream id headers fin priority => exact takes_synStream laws hstep h hfits.1 hfits.2
  | data id payload fin =>
      cases h
      exact ⟨decoder, takes_data hfits.1 hfits.2.1 hfits.2.2 fin, hstep, rfl⟩
  | rstStream id status =>
      cases h
      exact ⟨decoder, takes_rstStream id status, hstep, rfl⟩
  | ping id =>
      cases h
      exact ⟨decoder, takes_ping id, hstep, rfl⟩
  | windowUpdate id delta =>
      cases h
      exact ⟨decoder, takes_windowUpdate id delta, hstep, rfl⟩
  | goAway id status =>
      cases h
      exact ⟨decoder, takes_goAway id status, hstep, rfl⟩
  | settings entries =>
      cases h
      obtain ⟨hlen, hids⟩ := hfits
      refine ⟨decoder, takes_settings hids ?_, hstep, rfl⟩
      simp only [encodeSettings, controlHeader, List.length_append, beField_length,
        settingsEntries_length] at hlen
      omega

end Streams

/-! ## Sequences of frames -/

/-- The encoders are called one after the other on one codec. -/
def encodeAll (rounds : Nat) : List Sent → SpdyCodec F → Option (List Bytes × SpdyCodec F)
  | [], codec => some ([], codec)
  | s :: sent, codec =>
      match s.encode rounds codec with
      | some (.ok octets, codec) =>
          (encodeAll rounds sent codec).map fun (frames, codec) => (octets :: frames, codec)
      | _ => none

/-- One call of `decode_frame`: what was in the buffer, what was returned and what is left
in the buffer. -/
structure DecodeCall where
  before : Bytes
  result : Except CodecError (Option Frame)
  left : Bytes

/-- `decode_frame` is called until it returns no frame; `n` bounds the number of calls. -/
def decodeCalls : Nat → SpdyCodec F → Bytes → Option (List DecodeCall × SpdyCodec F × Bytes)
  | 0, _, _ => none
  | n + 1, codec, buf =>
      match codec.decodeFrame buf with
      | none => none
      | some ⟨.ok (some frame), rest, codec⟩ =>
          (decodeCalls n codec rest).map fun (calls, codec, rest') =>
            (⟨buf, .ok (some frame), rest⟩ :: calls, codec, rest')
      | some ⟨result, rest, codec⟩ => some ([⟨buf, result, rest⟩], codec, rest)

/-- Every chunk is appended to the buffer, which is then decoded. -/
def decodeChunks : SpdyCodec F → Bytes → List Bytes →
    Option (List DecodeCall × SpdyCodec F × Bytes)
  | codec, buf, [] => some ([], codec, buf)
  | codec, buf, chunk :: chunks =>
      match decodeCalls ((buf ++ chunk).length + 1) codec (buf ++ chunk) with
      | none => none
      | some (calls, codec, rest) =>
          (decodeChunks codec rest chunks).map fun (later, codec, rest) =>
            (calls ++ later, codec, rest)

/-- The buffer holds a part of the next frame, or nothing where there is none. -/
def Incomplete (buf : Bytes) : List (Frame × Bytes) → Prop
  | [] => buf = []
  | (_, octets) :: _ => ∃ more, more ≠ [] ∧ octets = buf ++ more

/-- The calls return the frames in order up to those that are left over.  A call that
returns a frame takes the octets of the frame off the buffer; a call that returns none
has found an incomplete frame and leaves the buffer as it is. -/
inductive Yields : List (Frame × Bytes) → List DecodeCall → List (Frame × Bytes) → Prop
  | stop (frames : List (Frame × Bytes)) : Yields frames [] frames
  | frame {frame : Frame} {octets rest : Bytes} {frames left : List (Frame × Bytes)}
      {calls : List DecodeCall} (h : Yields frames calls left) :
      Yields ((frame, octets) :: frames)
        (⟨octets ++ rest, .ok (some frame), rest⟩ :: calls) left
  | wait {buf : Bytes} {frames left : List (Frame × Bytes)} {calls : List DecodeCall}
      (hpart : Incomplete buf frames) (h : Yields frames calls left) :
      Yields frames (⟨buf, .ok none, buf⟩ :: calls) left

theorem Yields.append {frames between left : List (Frame × Bytes)}
    {calls later : List DecodeCall} (h : Yields frames calls between)
    (hlater : Yields between later left) : Yields frames (calls ++ later) left := by
  induction h with
  | stop => exact hlater
  | frame _ ih => exact .frame (ih hlater)
  | wait hpart _ ih => exact .wait hpart (ih hlater)

/-- The octets are those of the frames, for a codec that decodes them one after the
other. -/
inductive SpdyCodec.TakesAll : SpdyCodec F → List (Frame × Bytes) → SpdyCodec F → Prop
  | nil (codec : SpdyCodec F) : codec.TakesAll [] codec
  | cons {codec codec' codec'' : SpdyCodec F} {frame : Frame} {octets : Bytes}
      {frames : List (Frame × Bytes)} (htakes : codec.Takes octets frame codec')
      (hrest : codec'.TakesAll frames codec'') : codec.TakesAll ((frame, octets) :: frames) codec''

/-- The octets of the frames. -/
def octetsOf (frames : List (Frame × Bytes)) : Bytes := frames.flatMap Prod.snd

theorem decodeFrame_nil (codec : SpdyCodec F) :
    codec.decodeFrame [] = some ⟨.ok none, [], codec⟩ := rfl

theorem decodeCalls_none {codec : SpdyCodec F} {buf : Bytes} (n : Nat)
    (h : codec.decodeFrame buf = some ⟨.ok none, buf, codec⟩) :
    decodeCalls (n + 1) codec buf = some ([⟨buf, .ok none, buf⟩], codec, buf) := by
  rw [decodeCalls, h]

theorem decodeCalls_some {codec codec' : SpdyCodec F} {buf rest : Bytes} {frame : Frame}
    (n : Nat) (h : codec.decodeFrame buf = some ⟨.ok (some frame), rest, codec'⟩) :
    decodeCalls (n + 1) codec buf = (decodeCalls n codec' rest).map
      fun (calls, codec, rest') =>
        (⟨buf, .ok (some frame), rest⟩ :: calls, codec, rest') := by
  rw [decodeCalls, h]

/-- The calls on what has arrived return the frames that are complete. -/
theorem decodeCalls_yields {codec codec' : SpdyCodec F} {frames : List (Frame × Bytes)}
    (h : codec.TakesAll frames codec') {buf more : Bytes} {n : Nat}
    (hbuf : buf ++ more = octetsOf frames) (hn : buf.length < n) :
    ∃ calls between rest left, decodeCalls n codec buf = some (calls, between, rest) ∧
      Yields frames calls left ∧ between.TakesAll left codec' ∧ Incomplete rest left ∧
      rest ++ more = octetsOf left := by
  induction h generalizing buf n with
  | nil codec =>
      obtain ⟨n, rfl⟩ : ∃ m, n = m + 1 := ⟨n - 1, by omega⟩
      obtain ⟨rfl, rfl⟩ := List.append_eq_nil_iff.1 hbuf
      exact ⟨_, codec, [], [], decodeCalls_none n (decodeFrame_nil codec),
        .wait rfl (.stop []), .nil codec, rfl, rfl⟩
  | @cons codec codec₁ codec' frame octets frames htakes hrest ih =>
      obtain ⟨n, rfl⟩ : ∃ m, n = m + 1 := ⟨n - 1, by omega⟩
      have hcut : buf ++ more = octets ++ octetsOf frames := hbuf
      rcases Nat.lt_or_ge buf.length octets.length with hshort | hwhole
      · obtain ⟨part, rfl⟩ : buf <+: octets :=
          List.prefix_of_prefix_length_le (hcut ▸ List.prefix_append buf more)
            (List.prefix_append octets _) (by omega)
        have hpart : part ≠ [] := by
          rintro rfl
          simp at hshort
        exact ⟨_, codec, buf, _, decodeCalls_none n (htakes.decodeFrame_part hpart),
          .wait ⟨part, hpart, rfl⟩ (.stop _), .cons htakes hrest, ⟨part, hpart, rfl⟩, hbuf⟩
      · obtain ⟨rest, rfl⟩ : octets <+: buf :=
          List.prefix_of_prefix_length_le (List.prefix_append octets _)
            (hcut ▸ List.prefix_append buf more) hwhole
        rw [List.append_assoc] at hcut
        have hheader := htakes.header
        rw [List.length_append] at hn
        obtain ⟨calls, between, rest', left, hcalls, hyields, htail, hpart, hleft⟩ :=
          ih (List.append_cancel_left hcut) (n := n) (by omega)
        refine ⟨⟨octets ++ rest, .ok (some frame), rest⟩ :: calls, between, rest', left, ?_,
          .frame hyields, htail, hpart, hleft⟩
        rw [decodeCalls_some n (htakes.decodeFrame_whole rest), hcalls]
        rfl

/-- However the octets of the frames are cut, the frames are returned. -/
theorem decodeChunks_yields {codec codec' : SpdyCodec F} {frames : List (Frame × Bytes)}
    (h : codec.TakesAll frames codec') {buf : Bytes} {chunks : List Bytes}
    (hpart : Incomplete buf frames) (hbuf : buf ++ chunks.flatten = octetsOf frames) :
    ∃ calls, decodeChunks codec buf chunks = some (calls, codec', []) ∧
      Yields frames calls [] := by
  induction chunks generalizing codec frames buf with
  | nil =>
      rw [List.flatten_nil, List.append_nil] at hbuf
      cases h with
      | nil =>
          subst hbuf
          exact ⟨[], rfl, .stop []⟩
      | cons htakes hrest =>
          obtain ⟨more, hmore, hoctets⟩ := hpart
          have hlen := congrArg List.length hbuf
          have hpos := List.length_pos_iff.2 hmore
          rw [octetsOf, List.flatMap_cons, hoctets] at hlen
          simp only [List.length_append] at hlen
          omega
  | cons chunk chunks ih =>
      rw [List.flatten_cons, ← List.append_assoc] at hbuf
      obtain ⟨calls, between, rest, left, hcalls, hyields, htail, hrest, hleft⟩ :=
        decodeCalls_yields h hbuf (Nat.lt_succ_self _)
      obtain ⟨later, hlater, hyields'⟩ := ih htail hrest hleft
      refine ⟨calls ++ later, ?_, hyields.append hyields'⟩
      rw [decodeChunks, hcalls]
      simp only
      rw [hlater]
      rfl

theorem encodeAll_length {rounds : Nat} {sent : List Sent} {octets : List Bytes}
    {codec codec' : SpdyCodec F} (h : encodeAll rounds sent codec = some (octets, codec')) :
    octets.length = sent.length := by
  induction sent generalizing octets codec codec' with
  | nil =>
      cases h
      rfl
  | cons s sent ih =>
      rw [encodeAll] at h
      split at h
      · obtain ⟨⟨others, codec₁⟩, hothers, hall⟩ := Option.map_eq_some_iff.1 h
        simp only [Prod.mk.injEq] at hall
        rw [← hall.1, List.length_cons, List.length_cons, ih hothers]
      · contradiction

/-- Frames with the octets they were encoded as. -/
def encodedFrames (sent : List Sent) (octets : List Bytes) : List (Frame × Bytes) :=
  (sent.map Sent.frame).zip octets

section Runs

variable {valid : Bytes → Prop} {decoded : Bytes → Bytes}
variable {deflated : F.Compress → Bytes → Bytes → Prop}
variable {inflated : Bool → F.Decompress → Bytes → Bytes → Prop}

/-- What one codec encodes is decoded by one that is in step with it. -/
theorem encodeAll_takes (laws : F.Laws SPDY_DICT valid decoded deflated inflated)
    {rounds : Nat} {sent : List Sent} {octets : List Bytes}
    {encoder encoder' decoder : SpdyCodec F}
    (hstep : InStep decoded deflated inflated encoder decoder)
    (h : encodeAll rounds sent encoder = some (octets, encoder'))
    (hfits : ∀ p ∈ sent.zip octets, p.1.Fits decoder.maxFrameSize p.2) :
    octetsOf (encodedFrames sent octets) = octets.flatten ∧
      ∃ decoder', decoder.TakesAll (encodedFrames sent octets) decoder' := by
  induction sent generalizing octets encoder decoder with
  | nil =>
      cases h
      exact ⟨rfl, decoder, .nil decoder⟩
  | cons s sent ih =>
      rw [encodeAll] at h
      split at h
      · next first codec hfirst =>
          obtain ⟨⟨others, codec'⟩, hothers, hall⟩ := Option.map_eq_some_iff.1 h
          simp only [Prod.mk.injEq] at hall
          obtain ⟨rfl, rfl⟩ := hall
          obtain ⟨between, htakes, hnext, hsize⟩ :=
            Sent.takes laws hstep hfirst (hfits (s, first) List.mem_cons_self)
          obtain ⟨hsame, decoder', hrest⟩ := ih hnext hothers fun p hp => by
            rw [hsize]
            exact hfits p (List.mem_cons_of_mem _ hp)
          refine ⟨?_, decoder', .cons htakes hrest⟩
          rw [List.flatten_cons, ← hsame]
          rfl
      · contradiction

theorem incomplete_nil {codec codec' : SpdyCodec F} {frames : List (Frame × Bytes)}
    (h : codec.TakesAll frames codec') : Incomplete [] frames := by
  cases h with
  | nil => rfl
  | cons htakes _ =>
      refine ⟨_, ?_, rfl⟩
      rintro rfl
      exact absurd htakes.header (by decide)

/-- Whatever a codec encodes within the limits comes out of another as it was sent, frame
by frame, in whichever chunks the octets arrive. -/
theorem frames_round_trip (laws : F.Laws SPDY_DICT valid decoded deflated inflated)
    {rounds : Nat} {sent : List Sent} {octets : List Bytes} {sending receiving : UInt32}
    {encoder : SpdyCodec F}
    (hsent : encodeAll rounds sent (.withMaxFrameSize F sending) = some (octets, encoder))
    (hfits : ∀ p ∈ sent.zip octets, p.1.Fits receiving p.2)
    (chunks : List Bytes) (hchunks : chunks.flatten = octets.flatten) :
    octets.length = sent.length ∧ ∃ calls decoder,
      decodeChunks (.withMaxFrameSize F receiving) [] chunks = some (calls, decoder, []) ∧
      Yields (encodedFrames sent octets) calls [] := by
  obtain ⟨hoctets, decoder, htakes⟩ :=
    encodeAll_takes laws (inStep_new laws sending receiving) hsent hfits
  have hall : [] ++ chunks.flatten = octetsOf (encodedFrames sent octets) := by
    rw [List.nil_append, hchunks, hoctets]
  obtain ⟨calls, hcalls, hyields⟩ := decodeChunks_yields htakes (incomplete_nil htakes) hall
  exact ⟨encodeAll_length hsent, calls, decoder, hcalls, hyields⟩

end Runs

instance (maxFrameSize : UInt32) (octets : Bytes) (sent : Sent) :
    Decidable (sent.Fits maxFrameSize octets) :=
  match sent with
  | .synStream .. => inferInstanceAs (Decidable (_ ∧ _))
  | .data .. => inferInstanceAs (Decidable (_ ∧ _ ∧ _))
  | .settings entries =>
      -- along the entries, not over all pairs of words
      @instDecidableAnd _ _ _ (List.decidableBAll (fun entry => entry.1.toNat < 2 ^ 24) entries)
  | .rstStream .. => isTrue trivial
  | .ping _ => isTrue trivial
  | .windowUpdate .. => isTrue trivial
  | .goAway .. => isTrue trivial

/-- The frames of a session: limits, an error stream and its data stream, and what closes
them. -/
def sessionFrames : List Sent :=
  [.settings [(4, 100), (7, 65536), (4, 50)], .synStream 1 [("streamType", "error")] true 0,
    .synStream 3 [("StreamType", "data")] false 7, .data 3 [0x68, 0x69] false,
    .windowUpdate 3 2, .ping 1, .rstStream 3 5, .goAway 3 0]

/-- They come out of a decoder that gets them octet by octet. -/
theorem frames_round_trip_session : ∃ octets encoder,
    encodeAll 2 sessionFrames (.withMaxFrameSize wordFlate 16384) = some (octets, encoder) ∧
      octets.length = 8 ∧ ∃ calls decoder,
        decodeChunks (.withMaxFrameSize wordFlate 16384) []
          (octets.flatten.map fun b => [b]) = some (calls, decoder, []) ∧
        Yields (encodedFrames sessionFrames octets) calls [] := by
  have hrun : (encodeAll 2 sessionFrames (.withMaxFrameSize wordFlate 16384)).map
      (fun r : List Bytes × SpdyCodec wordFlate =>
        decide (∀ p ∈ sessionFrames.zip r.1, p.1.Fits 16384 p.2)) = some true := by
    decide +kernel
  obtain ⟨⟨octets, encoder⟩, hsent, hfits⟩ := Option.map_eq_some_iff.1 hrun
  have hchunks : (octets.flatten.map fun b => [b]).flatten = octets.flatten :=
    (List.flatMap_def ..).symm.trans (List.flatMap_singleton' _)
  obtain ⟨hlen, hcalls⟩ :=
    frames_round_trip wordFlate_laws hsent (of_decide_eq_true hfits) _ hchunks
  exact ⟨octets, encoder, hsent, hlen, hcalls⟩

end KubePortForward.Codec

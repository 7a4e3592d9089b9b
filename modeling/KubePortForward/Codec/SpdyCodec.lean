import KubePortForward.Codec.Dictionary
import KubePortForward.Codec.Flate
import KubePortForward.Codec.FrameHeader
import KubePortForward.Codec.HeaderBlock

/-!
# The SPDY codec

`codec.rs`: one function for every frame the client sends, and `decode_frame`, which
takes one frame off the front of a buffer.  Both keep a zlib stream from frame to
frame, so both return the codec they leave.

The loops around the zlib streams end when the stream does not move any more.  `none`
is a loop that has not ended: the compression loop is given a number of rounds, the
decompression loop as many as it can need, since every round takes input, gives
output, enlarges the buffer, sets the dictionary or is the last.
-/

namespace KubePortForward.Codec

open KubePortForward.Verified.BigEndian

variable {F : Flate}

/-- `SpdyCodec`; the compression buffer is emptied before every use. -/
structure SpdyCodec (F : Flate) where
  compressor : F.Compress
  decompressor : F.Decompress
  dictSetCompress : Bool
  dictSetDecompress : Bool
  maxFrameSize : UInt32

/-- `SpdyCodec::with_max_frame_size`. -/
def SpdyCodec.withMaxFrameSize (F : Flate) (maxFrameSize : UInt32) : SpdyCodec F where
  compressor := F.newCompress
  decompressor := F.newDecompress
  dictSetCompress := false
  dictSetDecompress := false
  maxFrameSize := maxFrameSize

/-- `SpdyCodec::set_max_frame_size`. -/
def SpdyCodec.setMaxFrameSize (codec : SpdyCodec F) (size : UInt32) : SpdyCodec F :=
  { codec with maxFrameSize := size }

/-! ## Header compression -/

/-- The loop of `compress_headers`: `block` is what is left of the block, `out` what the
buffer of `bufLen` octets holds. -/
def compressLoop (F : Flate) :
    Nat → Bytes → Nat → Bytes → F.Compress → Option (Except CodecError Bytes × F.Compress)
  | 0, _, _, _, _ => none
  | rounds + 1, block, bufLen, out, st =>
      let call := F.compress st block (bufLen - out.length)
      let block := block.drop call.consumed
      let out := out ++ call.produced
      match call.result with
      | .error e => some (.error (.compression e), call.state)
      | .ok .streamEnd => some (.ok out, call.state)
      | .ok _ =>
          if block.isEmpty && call.produced.isEmpty then some (.ok out, call.state)
          else
            compressLoop F rounds block
              (if bufLen - 64 ≤ out.length then bufLen * 2 else bufLen) out call.state

/-- The dictionary is set on first use. -/
def SpdyCodec.primeCompressor (codec : SpdyCodec F) : Except CodecError (SpdyCodec F) :=
  if codec.dictSetCompress then .ok codec
  else match F.setCompressDictionary codec.compressor SPDY_DICT with
  | .ok st => .ok { codec with compressor := st, dictSetCompress := true }
  | .error e => .error (.compression e)

/-- `compress_headers`. -/
def SpdyCodec.compressHeaders (rounds : Nat) (headers : Headers) (codec : SpdyCodec F) :
    Option (Except CodecError Bytes × SpdyCodec F) :=
  match codec.primeCompressor with
  | .error e => some (.error e, codec)
  | .ok codec =>
      let block := headerBlock headers
      (compressLoop F rounds block (block.length + 512) [] codec.compressor).map
        fun (result, st) => (result, { codec with compressor := st })

/-- `grow_header_buffer`. -/
def growHeaderBuffer (len : Nat) : Except CodecError Nat :=
  if MAX_HEADER_BLOCK_SIZE ≤ len then .error (.invalidFrame "header block too large")
  else .ok (min (len * 2) MAX_HEADER_BLOCK_SIZE)

/-- The buffer of a round, which is enlarged when it is nearly full. -/
@[irreducible]
def roundBuffer (bufLen : Nat) (out : Bytes) : Except CodecError Nat :=
  if bufLen - 256 ≤ out.length then growHeaderBuffer bufLen else .ok bufLen

/-- A round of `decompress_headers` returns, or leaves this much of the compressed block,
a buffer of `bufLen` octets and in it `out`. -/
inductive DecompressRound (F : Flate) where
  | done (result : Except CodecError Headers) (codec : SpdyCodec F)
  | again (input : Bytes) (bufLen : Nat) (out : Bytes) (codec : SpdyCodec F)

/-- The decompressor asks for the dictionary, or fails. -/
def decompressFailed (e : DecompressError) (input : Bytes) (bufLen : Nat) (out : Bytes)
    (codec : SpdyCodec F) : DecompressRound F :=
  if e.needsDictionary && !codec.dictSetDecompress then
    match F.setDecompressDictionary codec.decompressor SPDY_DICT with
    | .ok st =>
        .again input bufLen out { codec with decompressor := st, dictSetDecompress := true }
    | .error message => .done (.error (.compression message)) codec
  else .done (.error (.compression e.message)) codec

/-- One round, with the buffer it has. -/
def decompressRound (input : Bytes) (bufLen : Nat) (out : Bytes) (codec : SpdyCodec F) :
    DecompressRound F :=
  let call := F.decompress codec.decompressor input (bufLen - out.length)
  let input := input.drop call.consumed
  let out := out ++ call.produced
  let codec := { codec with decompressor := call.state }
  match call.result with
  | .ok .ok =>
      if input.isEmpty && call.produced.isEmpty then .done (parseHeaderBlock out) codec
      else .again input bufLen out codec
  | .ok .bufError =>
      if input.isEmpty then .done (parseHeaderBlock out) codec
      else match growHeaderBuffer bufLen with
      | .error e => .done (.error e) codec
      | .ok bufLen => .again input bufLen out codec
  | .ok .streamEnd => .done (parseHeaderBlock out) codec
  | .error e => decompressFailed e input bufLen out codec

/-- The loop of `decompress_headers`. -/
def decompressLoop :
    Nat → Bytes → Nat → Bytes → SpdyCodec F → Option (Except CodecError Headers × SpdyCodec F)
  | 0, _, _, _, _ => none
  | rounds + 1, input, bufLen, out, codec =>
      match roundBuffer bufLen out with
      | .error e => some (.error e, codec)
      | .ok bufLen =>
          match decompressRound input bufLen out codec with
          | .done result codec => some (result, codec)
          | .again input bufLen out codec => decompressLoop rounds input bufLen out codec

/-- As many rounds as the decompression of a block can need. -/
def decompressRounds (compressed : Bytes) : Nat :=
  compressed.length + MAX_HEADER_BLOCK_SIZE + 32

/-- `decompress_headers`. -/
def SpdyCodec.decompressHeaders (compressed : Bytes) (codec : SpdyCodec F) :
    Option (Except CodecError Headers × SpdyCodec F) :=
  if compressed.isEmpty then some (.ok [], codec)
  else
    decompressLoop (decompressRounds compressed) compressed
      (min (compressed.length * 4 + 1024) MAX_HEADER_BLOCK_SIZE) [] codec

/-! ## Encoding -/

/-- The first eight octets of a control frame. -/
def controlHeader (frameType : Nat) (flags : UInt8) (payloadLen : Nat) : Bytes :=
  beField 2 SPDY_VERSION ++ beField 2 frameType ++
    beField 4 ((flags.toUInt32 <<< 24) ||| UInt32.ofNat payloadLen).toNat

/-- `if fin { FLAG_FIN } else { 0 }`. -/
def finFlag (fin : Bool) : UInt8 := if fin then FLAG_FIN else 0

/-- `encode_syn_stream_with_priority`. -/
def SpdyCodec.encodeSynStreamWithPriority (rounds : Nat) (streamId : StreamId)
    (headers : Headers) (fin : Bool) (priority : UInt8) (codec : SpdyCodec F) :
    Option (Except CodecError Bytes × SpdyCodec F) :=
  (codec.compressHeaders rounds headers).map fun
    | (.error e, codec) => (.error e, codec)
    | (.ok compressed, codec) =>
        (.ok (controlHeader SYN_STREAM_TYPE (finFlag fin) (10 + compressed.length) ++
          beField 4 streamId.toNat ++ beField 4 0 ++ [(priority &&& 0x07) <<< 5, 0] ++
          compressed), codec)

/-- `encode_syn_stream`. -/
def SpdyCodec.encodeSynStream (rounds : Nat) (streamId : StreamId) (headers : Headers)
    (fin : Bool) (codec : SpdyCodec F) : Option (Except CodecError Bytes × SpdyCodec F) :=
  codec.encodeSynStreamWithPriority rounds streamId headers fin 0

/-- `encode_data`. -/
def encodeData (streamId : StreamId) (payload : Bytes) (fin : Bool) : Bytes :=
  beField 4 (streamId &&& 0x7FFFFFFF).toNat ++
    beField 4 (((finFlag fin).toUInt32 <<< 24) ||| UInt32.ofNat payload.length).toNat ++ payload

/-- A control frame without flags whose payload is two words. -/
def twoWordFrame (frameType : Nat) (first second : UInt32) : Bytes :=
  controlHeader frameType 0 8 ++ beField 4 first.toNat ++ beField 4 second.toNat

/-- `encode_rst_stream`. -/
def encodeRstStream (streamId : StreamId) (status : UInt32) : Bytes :=
  twoWordFrame RST_STREAM_TYPE streamId status

/-- `encode_ping`. -/
def encodePing (id : UInt32) : Bytes := controlHeader PING_TYPE 0 4 ++ beField 4 id.toNat

/-- `encode_window_update`. -/
def encodeWindowUpdate (streamId : StreamId) (delta : UInt32) : Bytes :=
  twoWordFrame WINDOW_UPDATE_TYPE streamId delta

/-- `encode_goaway`. -/
def encodeGoAway (lastGoodStreamId : StreamId) (status : UInt32) : Bytes :=
  twoWordFrame GOAWAY_TYPE lastGoodStreamId status

/-- One entry of a SETTINGS frame: no flags, the low three octets of the id. -/
def settingsEntry (entry : UInt32 × UInt32) : Bytes :=
  0 :: (beField 4 entry.1.toNat).drop 1 ++ beField 4 entry.2.toNat

/-- `encode_settings`. -/
def encodeSettings (entries : List (UInt32 × UInt32)) : Bytes :=
  controlHeader SETTINGS_TYPE 0 (4 + entries.length * 8) ++
    beField 4 (UInt32.ofNat entries.length).toNat ++ entries.flatMap settingsEntry

/-! ## Decoding -/

/-- `u32::from_be_bytes` of four octets from `offset` on. -/
def wordAt (bs : Bytes) (offset : Nat) : UInt32 :=
  UInt32.ofNat (ofBe ((bs.drop offset).take 4))

/-- `(flags & FLAG_FIN) != 0`. -/
def hasFin (flags : UInt8) : Bool := decide (flags &&& FLAG_FIN ≠ 0)

/-- What a SETTINGS frame has said so far. -/
structure Settings where
  initialWindowSize : Option UInt32 := none
  maxConcurrentStreams : Option UInt32 := none
  maxFrameSize : Option UInt32 := none

/-- One entry is read; id 5 is not in the standard, other ids are ignored. -/
def Settings.read (id value : UInt32) (s : Settings) : Settings :=
  if id = SETTINGS_INITIAL_WINDOW_SIZE then { s with initialWindowSize := some value }
  else if id = SETTINGS_MAX_CONCURRENT_STREAMS then
    { s with maxConcurrentStreams := some value }
  else if id = 5 then { s with maxFrameSize := some value }
  else s

/-- At most `entries` entries, as far as there are octets. -/
def readSettings : Nat → Bytes → Settings → Settings
  | 0, _, s => s
  | entries + 1, bs, s =>
      if bs.length < 8 then s
      else
        readSettings entries (bs.drop 8)
          (s.read (UInt32.ofNat (ofBe ((bs.drop 1).take 3))) (wordAt bs 4))

/-- The payload of a SETTINGS frame. -/
def decodeSettings (payload : Bytes) : Frame :=
  let s := if payload.length < 4 then {}
    else readSettings (wordAt payload 0).toNat (payload.drop 4) {}
  .settings s.initialWindowSize s.maxConcurrentStreams s.maxFrameSize

/-- A control frame without headers, or the message of its error. -/
def fixedFrame (minLen : Nat) (message : String) (payload : Bytes) (frame : Frame) :
    Except CodecError Frame :=
  if payload.length < minLen then .error (.invalidFrame message) else .ok frame

/-- A control frame whose payload ends with compressed headers. -/
def headersFrame (minLen : Nat) (message : String) (payload : Bytes)
    (frame : Headers → Frame) (codec : SpdyCodec F) :
    Option (Except CodecError Frame × SpdyCodec F) :=
  if payload.length < minLen then some (.error (.invalidFrame message), codec)
  else
    (codec.decompressHeaders (payload.drop minLen)).map fun (result, codec) =>
      (result.map frame, codec)

/-- `decode_control_frame`. -/
def SpdyCodec.decodeControlFrame (frameType : Nat) (flags : UInt8) (payload : Bytes)
    (codec : SpdyCodec F) : Option (Except CodecError Frame × SpdyCodec F) :=
  if frameType = SYN_STREAM_TYPE then
    headersFrame 10 "SYN_STREAM payload too short" payload
      (fun headers => .synStream (wordAt payload 0) headers (hasFin flags)) codec
  else if frameType = SYN_REPLY_TYPE then
    headersFrame 4 "SYN_REPLY payload too short" payload
      (fun headers => .synReply (wordAt payload 0) headers (hasFin flags)) codec
  else if frameType = RST_STREAM_TYPE then
    some (fixedFrame 8 "RST_STREAM payload too short" payload
      (.rstStream (wordAt payload 0) (wordAt payload 4)), codec)
  else if frameType = PING_TYPE then
    some (fixedFrame 4 "PING payload too short" payload (.ping (wordAt payload 0)), codec)
  else if frameType = GOAWAY_TYPE then
    some (fixedFrame 8 "GOAWAY payload too short" payload
      (.goAway (wordAt payload 0) (wordAt payload 4)), codec)
  else if frameType = SETTINGS_TYPE then some (.ok (decodeSettings payload), codec)
  else if frameType = WINDOW_UPDATE_TYPE then
    some (fixedFrame 8 "WINDOW_UPDATE payload too short" payload
      (.windowUpdate (wordAt payload 0) (wordAt payload 4)), codec)
  else some (.ok .unknown, codec)

/-- `8 + payload_len`. -/
def frameTotal (buf : Bytes) : Nat := 8 + payloadLen buf

/-- What `decode_frame` returned, the buffer and the codec afterwards. -/
structure Decoded (F : Flate) where
  result : Except CodecError (Option Frame)
  buf : Bytes
  codec : SpdyCodec F

/-- `decode_frame`. -/
def SpdyCodec.decodeFrame (buf : Bytes) (codec : SpdyCodec F) : Option (Decoded F) :=
  if buf.length < 8 then some ⟨.ok none, buf, codec⟩
  else
    let limit := frameLimit codec.maxFrameSize buf
    if limit < payloadLen buf then
      some ⟨.error (.frameTooLarge (headerStreamId buf) (payloadLen buf) limit), buf, codec⟩
    else if buf.length < frameTotal buf then some ⟨.ok none, buf, codec⟩
    else
      let payload := (buf.take (frameTotal buf)).drop 8
      let rest := buf.drop (frameTotal buf)
      if isControl buf then
        (codec.decodeControlFrame (ofBe ((buf.drop 2).take 2)) (frameFlags buf) payload).map
          fun (result, codec) => ⟨result.map some, rest, codec⟩
      else
        some ⟨.ok (some (.data (headerStreamId buf) payload (hasFin (frameFlags buf)))), rest,
          codec⟩

/-! ## What `decode_frame` looks at -/

/-- The buffer starts with the header of a frame above the limit. -/
def Oversized (codec : SpdyCodec F) (buf : Bytes) : Prop :=
  8 ≤ buf.length ∧ frameLimit codec.maxFrameSize buf < payloadLen buf

theorem flagsLen_append {buf : Bytes} (more : Bytes) (h : 8 ≤ buf.length) :
    flagsLen (buf ++ more) = flagsLen buf := by
  unfold flagsLen
  rw [List.drop_append_of_le_length (by omega),
    List.take_append_of_le_length (by rw [List.length_drop]; omega)]

theorem payloadLen_append {buf : Bytes} (more : Bytes) (h : 8 ≤ buf.length) :
    payloadLen (buf ++ more) = payloadLen buf := by
  rw [payloadLen, payloadLen, flagsLen_append more h]

theorem isControl_append {buf : Bytes} (more : Bytes) (h : 8 ≤ buf.length) :
    isControl (buf ++ more) = isControl buf := by
  unfold isControl
  rw [List.take_append_of_le_length (by omega)]

theorem frameLimit_append {buf : Bytes} (more : Bytes) (maxFrameSize : UInt32)
    (h : 8 ≤ buf.length) : frameLimit maxFrameSize (buf ++ more) = frameLimit maxFrameSize buf := by
  rw [frameLimit, frameLimit, isControl_append more h]

theorem frameTotal_append {buf : Bytes} (more : Bytes) (h : 8 ≤ buf.length) :
    frameTotal (buf ++ more) = frameTotal buf := by
  rw [frameTotal, frameTotal, payloadLen_append more h]

theorem headerStreamId_append {buf : Bytes} (more : Bytes) (h : 8 ≤ buf.length) :
    headerStreamId (buf ++ more) = headerStreamId buf := by
  unfold headerStreamId firstWord
  rw [List.take_append_of_le_length (by omega)]

theorem frameFlags_append {buf : Bytes} (more : Bytes) (h : 8 ≤ buf.length) :
    frameFlags (buf ++ more) = frameFlags buf := by
  rw [frameFlags, frameFlags, flagsLen_append more h]

theorem oversized_append {codec : SpdyCodec F} {buf : Bytes} (more : Bytes)
    (h : 8 ≤ buf.length) : Oversized codec (buf ++ more) ↔ Oversized codec buf := by
  unfold Oversized
  rw [frameLimit_append more _ h, payloadLen_append more h, List.length_append]
  constructor
  · exact fun hover => ⟨h, hover.2⟩
  · exact fun hover => ⟨by omega, hover.2⟩

/-- The octets of one frame are decoded. -/
def SpdyCodec.decodeWhole (frame : Bytes) (codec : SpdyCodec F) :
    Option (Except CodecError Frame × SpdyCodec F) :=
  if isControl frame then
    codec.decodeControlFrame (ofBe ((frame.drop 2).take 2)) (frameFlags frame) (frame.drop 8)
  else
    some (.ok (.data (headerStreamId frame) (frame.drop 8) (hasFin (frameFlags frame))), codec)

theorem decodeFrame_oversized {codec : SpdyCodec F} {buf : Bytes} (h : Oversized codec buf) :
    codec.decodeFrame buf = some ⟨.error (.frameTooLarge (headerStreamId buf) (payloadLen buf)
      (frameLimit codec.maxFrameSize buf)), buf, codec⟩ := by
  unfold SpdyCodec.decodeFrame
  rw [if_neg (by have := h.1; omega)]
  exact if_pos h.2

/-- An incomplete frame is left where it is. -/
theorem decodeFrame_incomplete {codec : SpdyCodec F} {buf : Bytes} (hfit : ¬ Oversized codec buf)
    (h : buf.length < 8 ∨ buf.length < frameTotal buf) :
    codec.decodeFrame buf = some ⟨.ok none, buf, codec⟩ := by
  unfold SpdyCodec.decodeFrame
  split
  · rfl
  · next hlen =>
      have hlimit : ¬ frameLimit codec.maxFrameSize buf < payloadLen buf := fun hover =>
        hfit ⟨by omega, hover⟩
      simp only
      rw [if_neg hlimit, if_pos (h.resolve_left hlen)]

/-- A complete frame is taken off the buffer and decoded by itself. -/
theorem decodeFrame_complete {codec : SpdyCodec F} {buf : Bytes} (h : 8 ≤ buf.length)
    (hfit : ¬ Oversized codec buf) (htotal : frameTotal buf ≤ buf.length) :
    codec.decodeFrame buf = (codec.decodeWhole (buf.take (frameTotal buf))).map
      fun (result, codec) => ⟨result.map some, buf.drop (frameTotal buf), codec⟩ := by
  have hlimit : ¬ frameLimit codec.maxFrameSize buf < payloadLen buf := fun hover =>
    hfit ⟨h, hover⟩
  have hframe : 8 ≤ (buf.take (frameTotal buf)).length := by
    have : 8 ≤ frameTotal buf := Nat.le_add_right ..
    rw [List.length_take]
    omega
  have hsplit := List.take_append_drop (frameTotal buf) buf
  have hcontrol : isControl buf = isControl (buf.take (frameTotal buf)) := by
    conv_lhs => rw [← hsplit, isControl_append _ hframe]
  have hflags : frameFlags buf = frameFlags (buf.take (frameTotal buf)) := by
    conv_lhs => rw [← hsplit, frameFlags_append _ hframe]
  have hid : headerStreamId buf = headerStreamId (buf.take (frameTotal buf)) := by
    conv_lhs => rw [← hsplit, headerStreamId_append _ hframe]
  have htype : (buf.drop 2).take 2 = ((buf.take (frameTotal buf)).drop 2).take 2 := by
    conv_lhs => rw [← hsplit, List.drop_append_of_le_length (by omega),
      List.take_append_of_le_length (by rw [List.length_drop]; omega)]
  unfold SpdyCodec.decodeFrame SpdyCodec.decodeWhole
  rw [if_neg (by omega)]
  simp only
  rw [if_neg hlimit, if_neg (by omega), hcontrol, hflags, hid, htype]
  split
  · rfl
  · rfl

/-- A complete frame within the limit is decoded without a look at what follows. -/
theorem decodeFrame_append {codec : SpdyCodec F} {buf : Bytes} (more : Bytes)
    (h : 8 ≤ buf.length) (hfit : ¬ Oversized codec buf) (htotal : frameTotal buf ≤ buf.length) :
    codec.decodeFrame (buf ++ more) =
      (codec.decodeFrame buf).map fun d => { d with buf := d.buf ++ more } := by
  have hsame := frameTotal_append more h
  rw [decodeFrame_complete h hfit htotal,
    decodeFrame_complete (by rw [List.length_append]; omega)
      (fun hover => hfit ((oversized_append more h).1 hover))
      (by rw [hsame, List.length_append]; omega),
    hsame, List.take_append_of_le_length htotal, List.drop_append_of_le_length htotal,
    Option.map_map]
  rfl

/-! ## The errors of a complete frame -/

/-- The error is about the size of a frame. -/
def CodecError.isSize : CodecError → Bool
  | .frameTooLarge _ _ _ => true
  | _ => false

theorem parseText_isSize {noLength noText : String} {bs : Bytes} {e : CodecError}
    (h : parseText noLength noText bs = .error e) : e.isSize = false := by
  unfold parseText at h
  simp only at h
  (repeat' split at h) <;> cases h <;> rfl

theorem parseEntries_isSize {n : Nat} {bs : Bytes} {e : CodecError}
    (h : parseEntries n bs = .error e) : e.isSize = false := by
  induction n generalizing bs e with
  | zero => contradiction
  | succ n ih =>
      rw [parseEntries] at h
      split at h
      · next e' hentry =>
          cases h
          unfold parseEntry at hentry
          split at hentry
          · next htext =>
              cases hentry
              exact parseText_isSize htext
          · split at hentry
            · next htext =>
                cases hentry
                exact parseText_isSize htext
            · contradiction
      · split at h
        · next hrest =>
            cases h
            exact ih hrest
        · contradiction

theorem parseHeaderBlock_isSize {block : Bytes} {e : CodecError}
    (h : parseHeaderBlock block = .error e) : e.isSize = false := by
  unfold parseHeaderBlock at h
  simp only at h
  split at h
  · cases h
    rfl
  · split at h
    · cases h
      rfl
    · exact parseEntries_isSize h

theorem growHeaderBuffer_isSize {len : Nat} {e : CodecError}
    (h : growHeaderBuffer len = .error e) : e.isSize = false := by
  unfold growHeaderBuffer at h
  split at h
  · cases h
    rfl
  · contradiction

theorem roundBuffer_isSize {bufLen : Nat} {out : Bytes} {e : CodecError}
    (h : roundBuffer bufLen out = .error e) : e.isSize = false := by
  unfold roundBuffer at h
  split at h
  · exact growHeaderBuffer_isSize h
  · contradiction

theorem decompressRound_isSize {input : Bytes} {bufLen : Nat} {out : Bytes}
    {codec codec' : SpdyCodec F} {e : CodecError}
    (h : decompressRound input bufLen out codec = .done (.error e) codec') :
    e.isSize = false := by
  unfold decompressRound at h
  simp only at h
  split at h
  · split at h
    · simp only [DecompressRound.done.injEq] at h
      exact parseHeaderBlock_isSize h.1
    · contradiction
  · split at h
    · simp only [DecompressRound.done.injEq] at h
      exact parseHeaderBlock_isSize h.1
    · split at h
      · next hgrow =>
          cases h
          exact growHeaderBuffer_isSize hgrow
      · contradiction
  · simp only [DecompressRound.done.injEq] at h
    exact parseHeaderBlock_isSize h.1
  · unfold decompressFailed at h
    (repeat' split at h) <;> first
      | contradiction
      | cases h
        rfl

theorem decompressLoop_isSize {rounds : Nat} {input : Bytes} {bufLen : Nat} {out : Bytes}
    {codec codec' : SpdyCodec F} {e : CodecError}
    (h : decompressLoop rounds input bufLen out codec = some (.error e, codec')) :
    e.isSize = false := by
  induction rounds generalizing input bufLen out codec with
  | zero => contradiction
  | succ rounds ih =>
      rw [decompressLoop] at h
      split at h
      · next hbuffer =>
          cases h
          exact roundBuffer_isSize hbuffer
      · split at h
        · next hround =>
            cases h
            exact decompressRound_isSize hround
        · exact ih h

theorem fixedFrame_isSize {minLen : Nat} {message : String} {payload : Bytes} {frame : Frame}
    {e : CodecError} (h : fixedFrame minLen message payload frame = .error e) :
    e.isSize = false := by
  unfold fixedFrame at h
  split at h
  · cases h
    rfl
  · contradiction

theorem headersFrame_isSize {minLen : Nat} {message : String} {payload : Bytes}
    {frame : Headers → Frame} {codec codec' : SpdyCodec F} {e : CodecError}
    (h : headersFrame minLen message payload frame codec = some (.error e, codec')) :
    e.isSize = false := by
  unfold headersFrame at h
  split at h
  · cases h
    rfl
  · simp only [Option.map_eq_some_iff, Prod.mk.injEq, Prod.exists] at h
    obtain ⟨result, _, hresult, hmap, -⟩ := h
    cases result with
    | ok headers => contradiction
    | error e' =>
        cases hmap
        unfold SpdyCodec.decompressHeaders at hresult
        split at hresult
        · simp at hresult
        · exact decompressLoop_isSize hresult

/-- Only the header of a frame is rejected for its size. -/
theorem decodeWhole_isSize {frame : Bytes} {codec codec' : SpdyCodec F} {e : CodecError}
    (h : codec.decodeWhole frame = some (.error e, codec')) : e.isSize = false := by
  unfold SpdyCodec.decodeWhole at h
  split at h
  · unfold SpdyCodec.decodeControlFrame at h
    (repeat' split at h) <;> first
      | exact headersFrame_isSize h
      | simp only [Option.some.injEq, Prod.mk.injEq] at h
        exact fixedFrame_isSize h.1
      | simp at h
  · simp at h

end KubePortForward.Codec

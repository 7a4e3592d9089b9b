import KubePortForward.Codec.Frame

/-!
# The 8-byte frame header

What `decode_frame` reads off the first eight octets of its buffer before it
looks at the kind of the frame: the control bit, the flags, the payload length
and the size check.  A frame above the limit is reported with the first word of
its header, the control bit cleared, as a stream id.
-/

namespace KubePortForward.Codec

open KubePortForward.Verified.BigEndian

/-- `u32::from_be_bytes` of octets 0 to 3. -/
def firstWord (buf : Bytes) : UInt32 := UInt32.ofNat (ofBe (buf.take 4))

/-- `u32::from_be_bytes` of octets 4 to 7. -/
def flagsLen (buf : Bytes) : UInt32 := UInt32.ofNat (ofBe ((buf.drop 4).take 4))

/-- `first_u16 & 0x8000 != 0`. -/
def isControl (buf : Bytes) : Bool :=
  decide (UInt16.ofNat (ofBe (buf.take 2)) &&& 0x8000 ≠ 0)

/-- `(flags_len >> 24) as u8`. -/
def frameFlags (buf : Bytes) : UInt8 := (flagsLen buf >>> 24).toUInt8

/-- `flags_len & 0x00FF_FFFF`. -/
def payloadLen (buf : Bytes) : Nat := (flagsLen buf &&& 0x00FFFFFF).toNat

/-- The first word with its top bit cleared: the stream id of a DATA frame. -/
def headerStreamId (buf : Bytes) : StreamId := firstWord buf &&& 0x7FFFFFFF

/-- The limit that applies to the frame: the negotiated one for DATA frames, a
fixed one for control frames. -/
def frameLimit (maxFrameSize : UInt32) (buf : Bytes) : Nat :=
  if isControl buf then MAX_CONTROL_FRAME_SIZE else maxFrameSize.toNat

/-- The stream id `Error::FrameTooLarge` carries, if the frame is rejected. -/
def frameTooLarge (maxFrameSize : UInt32) (buf : Bytes) : Option StreamId :=
  if buf.length < 8 then none
  else if frameLimit maxFrameSize buf < payloadLen buf then some (headerStreamId buf)
  else none

end KubePortForward.Codec

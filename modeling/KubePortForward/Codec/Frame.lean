import KubePortForward.Verified.BigEndian

/-!
# SPDY/3.1 frames

The decoded frames of `codec.rs` and the constants its encoder and decoder
share.  Every `u32` of the source is a `UInt32` here, so a frame that is not
a value of the source's type cannot be written; octet strings are lists.
-/

namespace KubePortForward.Codec

/-- An octet string (`Bytes`, `BytesMut`, `Vec<u8>`). -/
abbrev Bytes := List UInt8

/-- A header list, name and value of each entry. -/
abbrev Headers := List (String × String)

/-- A SPDY stream identifier. -/
abbrev StreamId := UInt32

/-- A condition on the ids of a list is checked along the list, not over all ids. -/
instance (priority := 2000) decidableForallIds (ids : List StreamId) (P : StreamId → Prop)
    [DecidablePred P] : Decidable (∀ id ∈ ids, P id) :=
  List.decidableBAll P ids

instance (priority := 2000) decidableForallId (id? : Option StreamId) (P : StreamId → Prop)
    [DecidablePred P] : Decidable (∀ id ∈ id?, P id) :=
  match id? with
  | none => isTrue nofun
  | some id => decidable_of_iff (P id) (by simp)

def SPDY_VERSION : Nat := 0x8003
def SYN_STREAM_TYPE : Nat := 0x0001
def SYN_REPLY_TYPE : Nat := 0x0002
def RST_STREAM_TYPE : Nat := 0x0003
def SETTINGS_TYPE : Nat := 0x0004
def PING_TYPE : Nat := 0x0006
def GOAWAY_TYPE : Nat := 0x0007
def WINDOW_UPDATE_TYPE : Nat := 0x0009

def FLAG_FIN : UInt8 := 0x01

def SETTINGS_INITIAL_WINDOW_SIZE : UInt32 := 7
def SETTINGS_MAX_CONCURRENT_STREAMS : UInt32 := 4

/-- Upper bound on a control-frame payload. -/
def MAX_CONTROL_FRAME_SIZE : Nat := 1 <<< 20

/-- Upper bound on a decompressed header block. -/
def MAX_HEADER_BLOCK_SIZE : Nat := 1 <<< 20

/-- A decoded SPDY frame. -/
inductive Frame where
  | synStream (streamId : StreamId) (headers : Headers) (fin : Bool)
  | synReply (streamId : StreamId) (headers : Headers) (fin : Bool)
  | data (streamId : StreamId) (payload : Bytes) (fin : Bool)
  | rstStream (streamId : StreamId) (status : UInt32)
  | ping (id : UInt32)
  | goAway (lastGoodStreamId : StreamId) (status : UInt32)
  | windowUpdate (streamId : StreamId) (deltaWindowSize : UInt32)
  | settings (initialWindowSize maxConcurrentStreams maxFrameSize : Option UInt32)
  | unknown
  deriving DecidableEq, Repr

end KubePortForward.Codec

import KubePortForward.Mux.Shared

/-!
# The reader task

`mux/reader.rs`: `routeFrame` is the part of `route_frame` up to its first
send to another task, and `Reader.step` performs the remaining sends one at a
time, because the workers, the writer and the stream owners run in between.
A GOAWAY sets its flag and then visits the five workers; a SETTINGS swaps the
peer's initial window and then visits the five workers.
-/

namespace KubePortForward.Mux

open KubePortForward.Codec
open KubePortForward.Verified.Channel

/-- What `route_frame` still has to do. -/
inductive ReaderPc where
  | idle
  | dispatch (frame : Frame)
  | reject (id : StreamId)
  | goAway (last : StreamId) (status : UInt32) (next : Nat)
  | settingsDelta (delta : Int) (next : Nat) (maxConcurrent maxFrame : Option UInt32)
  | settingsConcurrent (maxConcurrent maxFrame : Option UInt32)
  | settingsFrameSize (maxFrame : Option UInt32)
  | stopped
  deriving DecidableEq, Repr

structure Reader where
  pc : ReaderPc
  sessionRecvConsumed : Nat
  waitingPingReady : Bool
  idlePingSent : Bool

def Reader.init : Reader where
  pc := .idle
  sessionRecvConsumed := 0
  waitingPingReady := true
  idlePingSent := false

/-- The stream a frame that goes to a worker is keyed by. -/
def workerKey : Frame → Option StreamId
  | .data id _ _ => some id
  | .synReply id _ _ => some id
  | .rstStream id _ => some id
  | .windowUpdate id _ => some id
  | _ => none

/-- Session-level receive window: the reader counts payload bytes and returns
them to the peer once half a window has accumulated.  The counter is reset
only when the update was queued. -/
def creditSession (initialWindowSize : UInt32) (len : Nat) (sh : Shared) (r : Reader) :
    Shared × Reader :=
  let consumed := r.sessionRecvConsumed + len
  if initialWindowSize.toNat / 2 ≤ consumed then
    match sh.window.trySend (.encodeWindowUpdate 0 (UInt32.ofNat consumed)) with
    | .ok c => ({ sh with window := c }, { r with sessionRecvConsumed := 0 })
    | .error _ => (sh, { r with sessionRecvConsumed := consumed })
  else (sh, { r with sessionRecvConsumed := consumed })

def routeFrame (cfg : MuxConfig) (frame : Frame) (sh : Shared) (r : Reader) :
    Shared × Reader :=
  match frame with
  | .data _ payload _ =>
      let (sh', r') :=
        if payload.isEmpty then (sh, r)
        else creditSession cfg.initialWindowSize payload.length sh r
      (sh', { r' with pc := .dispatch frame })
  | .synReply _ _ _ => (sh, { r with pc := .dispatch frame })
  | .rstStream _ _ => (sh, { r with pc := .dispatch frame })
  | .windowUpdate id delta =>
      if id = 0 then
        ({ sh with sessionSendWindow := sh.sessionSendWindow.replenish delta }, r)
      else (sh, { r with pc := .dispatch frame })
  | .ping id =>
      if r.waitingPingReady then (sh, { r with waitingPingReady := false })
      else if id % 2 = 0 then (sh.sendControl (.encodePing id), r)
      else (sh, r)
  | .goAway last status =>
      ({ sh with goawayReceived := true }, { r with pc := .goAway last status 0 })
  | .synStream id _ _ =>
      (sh.sendControl (.closeStream id RST_STATUS_REFUSED_STREAM), r)
  | .settings (some new) maxConcurrent maxFrame =>
      let delta : Int := new.toNat - sh.peerInitialWindow.toNat
      ({ sh with peerInitialWindow := new },
        if delta ≠ 0 then { r with pc := .settingsDelta delta 0 maxConcurrent maxFrame }
        else { r with pc := .settingsConcurrent maxConcurrent maxFrame })
  | .settings none maxConcurrent maxFrame =>
      (sh, { r with pc := .settingsConcurrent maxConcurrent maxFrame })
  | .unknown => (sh, r)

/-- A decoded frame is handed to `route_frame`. -/
def Reader.receive (cfg : MuxConfig) (frame : Frame) (sh : Shared) (r : Reader) :
    Option (Shared × Reader) :=
  if r.pc = .idle then
    some (routeFrame cfg frame { sh with
      history := { sh.history with routed := sh.history.routed ++ [frame] } } r)
  else none

/-- `decode_frame` rejected a frame as too large. -/
def Reader.rejectTooLarge (id : StreamId) (sh : Shared) (r : Reader) :
    Option (Shared × Reader) :=
  if r.pc = .idle then
    some (sh.sendControl (.closeStream id RST_STATUS_FLOW_CONTROL), r)
  else none

/-- A WebSocket PING is answered through the writer. -/
def Reader.receiveWsPing (payload : Bytes) (sh : Shared) (r : Reader) :
    Option (Shared × Reader) :=
  if r.pc = .idle then
    some (sh.sendControl (.sendWsPong payload), { r with idlePingSent := false })
  else none

/-- A binary message arrives; whatever it holds, the connection is not idle. -/
def Reader.message (sh : Shared) (r : Reader) : Option (Shared × Reader) :=
  if r.pc = .idle then some (sh, { r with idlePingSent := false }) else none

/-- The idle timeout fires and the reader probes the peer, once. -/
def Reader.idleProbe (sh : Shared) (r : Reader) : Option (Shared × Reader) :=
  if r.pc = .idle ∧ r.idlePingSent = false then
    some (sh.sendControl (.encodePing 0xFFFFFFFD), { r with idlePingSent := true })
  else none

/-- The transport closed or failed, a frame did not decode, or the idle probe
went unanswered. -/
def Reader.exit (sh : Shared) (r : Reader) : Option (Shared × Reader) :=
  if r.pc = .idle then some ({ sh with cancelled := true }, { r with pc := .stopped })
  else none

/-- The next send of the frame being routed. -/
def Reader.step (sh : Shared) (r : Reader) : Option (Shared × Reader) :=
  match r.pc with
  | .dispatch frame =>
      match workerKey frame with
      | none => none
      | some id =>
          match (sh.frames (shardOf id)).trySend frame with
          | .ok c => some (sh.setFrames (shardOf id) c, { r with pc := .idle })
          | .error _ =>
              match frame with
              | .data id _ _ => some (sh, { r with pc := .reject id })
              | _ => some (sh, { r with pc := .idle })
  | .reject id =>
      some (sh.sendControl (.closeStream id RST_STATUS_FLOW_CONTROL),
        { r with pc := .idle })
  | .goAway last status next =>
      if h : next < FRAME_WORKERS then
        some (sh.setCloseReg ⟨next, h⟩
            ((sh.closeReg ⟨next, h⟩).sendOrDrop (.goAway last status)),
          { r with pc := .goAway last status (next + 1) })
      else some (sh, { r with pc := .idle })
  | .settingsDelta delta next maxConcurrent maxFrame =>
      if h : next < FRAME_WORKERS then
        some (sh.setReg ⟨next, h⟩
            ((sh.reg ⟨next, h⟩).sendOrDrop (.settingsWindowDelta delta)),
          { r with pc := .settingsDelta delta (next + 1) maxConcurrent maxFrame })
      else some (sh, { r with pc := .settingsConcurrent maxConcurrent maxFrame })
  | .settingsConcurrent maxConcurrent maxFrame =>
      some ({ sh with peerMaxConcurrent := maxConcurrent.getD sh.peerMaxConcurrent },
        { r with pc := .settingsFrameSize maxFrame })
  | .settingsFrameSize maxFrame =>
      some ({ sh with maxFrameSize := maxFrame.getD sh.maxFrameSize },
        { r with pc := .idle })
  | .idle => none
  | .stopped => none

end KubePortForward.Mux

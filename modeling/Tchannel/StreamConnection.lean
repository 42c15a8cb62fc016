import Tchannel.FrameStream
import Tchannel.Lib.Link
import Tchannel.RpcConnection

/-!
# A connection on streams of bytes

The connection of `RpcConnection` with all that lies between its two ends: `FrameSender` takes what waits in its
channel in batches (`ready_chunks`) and writes one frame after the other, of a stream only so many bytes are in
flight, and a framed reader decodes frames from what it has read, whose cuts are not those of the frames. The
server's `FrameSender` has a channel of its own. Bytes that are no frame end the connection of the server, and the
client's `FrameReceiver`.

When the connection is over for the server, the client notices at some time that it is reset, and what is still
in flight to the client may be cut anywhere.
-/

namespace Tchannel
open Wire

/-- `TFrameIdCodec`, as a framed reader and writer use it. -/
def TFrameIdCodec.framing : Framing TFrameId UInt8 (Fault CodecError) where
  encode := wire
  decode src := match decode.run src with
    | .ok (some item) rest => .ok (some (item, rest))
    | .ok none _ => .ok none
    | .error e _ => .error e

def Stop.ofFault : Fault CodecError → Stop
  | .err e => .err (.codecError e)
  | .panic => .panic

structure StreamConfig where
  bufferSize : Nat
  bufferSize_pos : 0 < bufferSize
  server : ServerConfig
  /-- As many bytes of a stream are in flight at most. -/
  capacity : Nat
  capacity_pos : 0 < capacity
  /-- The args of a response are a vector in memory. -/
  usize : ∀ handler, server.handlers handler → ∀ service subchannel args code response,
    handler.subchannels.lookup service = some subchannel → subchannel.handle args = .ok (code, response) →
      UsizeLengths response.args

structure StreamConnection where
  client : ClientConnection
  requests : Link TFrameId UInt8
  server : Server
  /-- How many frames of its answer each task has passed on. -/
  passed : Nat → Nat
  /-- The channel of the server's `FrameSender`. -/
  channel : List TFrameId
  responses : Link TFrameId UInt8
  /-- `FrameReceiver` of the client has ended. -/
  deaf : Bool

namespace StreamConnection
open TFrameIdCodec

/-- After a handshake. -/
def start (init : TFrame) (response : TFrameId) : StreamConnection :=
  ⟨ClientConnection.connected init response, Link.new, Server.new, fun _ => 0, [], Link.new, false⟩

variable (cfg : StreamConfig)

inductive Move (s : StreamConnection) : StreamConnection → Prop
  | acts {client} (hstep : s.client.Step cfg.bufferSize client) (hinside : s.client.Inside client) :
      Move s { s with client }
  | takes {n} (hfree : s.requests.Free) (hn : 0 < n) (hle : n ≤ cfg.bufferSize)
      (hqueue : n ≤ s.client.outgoing.queue.length) :
      Move s { s with
        client := { s.client with outgoing := { s.client.outgoing with queue := s.client.outgoing.queue.drop n } }
        requests := s.requests.put (s.client.outgoing.queue.take n) }
  | writes {requests} (hwrites : s.requests.Writes framing cfg.capacity requests) : Move s { s with requests }
  | reads {requests} (hlive : s.server.stopped = none) (hpolls : s.server.Polls cfg.server s.passed)
      (hreads : s.requests.Reads framing requests) :
      Move s { s with requests }
  | reaches {frame rest} (hlive : s.server.stopped = none) (hpolls : s.server.Polls cfg.server s.passed)
      (hframe : framing.decode s.requests.buffer = .ok (some (frame, rest))) :
      Move s { s with requests := { s.requests with buffer := rest }, server := s.server.arrive frame }
  | refuses {e} (hlive : s.server.stopped = none) (hpolls : s.server.Polls cfg.server s.passed)
      (hframe : framing.decode s.requests.buffer = .error e) :
      Move s { s with server := { s.server with stopped := some (.ofFault e) } }
  | serves {server} (hstep : s.server.Step cfg.server server)
      (hplace : server.dispatching = s.server.dispatching ∨ s.server.busy s.passed < cfg.server.serverTasks) :
      Move s { s with server }
  | passes {k task request frames frame} (hlive : s.server.stopped = none)
      (htask : s.server.tasks[k]? = some task) (hphase : task.phase = .answered request frames)
      (hframe : frames[s.passed k]? = some frame) (hroom : s.channel.length < cfg.server.bufferSize) :
      Move s { s with passed := Function.update s.passed k (s.passed k + 1), channel := s.channel ++ [frame] }
  | takesAnswers {n} (hfree : s.responses.Free) (hn : 0 < n) (hle : n ≤ cfg.server.bufferSize)
      (hchannel : n ≤ s.channel.length) :
      Move s { s with channel := s.channel.drop n, responses := s.responses.put (s.channel.take n) }
  | answers {responses} (hwrites : s.responses.Writes framing cfg.capacity responses) : Move s { s with responses }
  | listens {responses} (hidle : s.client.receiver = .idle) (hhears : s.deaf = false)
      (hreads : s.responses.Reads framing responses) :
      Move s { s with responses }
  | arrives {frame rest} (hidle : s.client.receiver = .idle) (hhears : s.deaf = false)
      (hframe : framing.decode s.responses.buffer = .ok (some (frame, rest))) :
      Move s { s with
        client := { s.client with receiver := s.client.lookup frame, incoming := s.client.incoming ++ [frame] }
        responses := { s.responses with buffer := rest } }
  | deafens {e} (hidle : s.client.receiver = .idle) (hhears : s.deaf = false)
      (hframe : framing.decode s.responses.buffer = .error e) :
      Move s { s with deaf := true }
  /-- The client notices that the server is gone. -/
  | resets (hgone : s.server.stopped ≠ none) (hintact : s.requests.broken = false) :
      Move s { s with requests := s.requests.cut 0 }
  /-- Writing fails, and the frame is lost. -/
  | loses {frame queue} (hgone : s.server.stopped ≠ none) (hbroken : s.requests.broken = true)
      (hqueue : s.client.outgoing.queue = frame :: queue) :
      Move s { s with client := { s.client with outgoing := { s.client.outgoing with queue } } }
  /-- The server is gone: the last bytes in flight are lost. -/
  | breaks {n} (hgone : s.server.stopped ≠ none) (hintact : s.responses.broken = false) :
      Move s { s with channel := [], responses := s.responses.cut n }

/-- Neither end can move, nor the streams. -/
def Rests (s : StreamConnection) : Prop := ∀ s', ¬ Move cfg s s'

inductive Step (s : StreamConnection) : StreamConnection → Prop
  | calls {operation} (hused : Operation.Used operation) :
      Step s { s with client := { s.client with
        nextMessageId := s.client.nextMessageId + 1
        calls := s.client.calls ++ [ClientCall.new operation s.client.nextMessageId] } }
  | moves {s'} (hmove : Move cfg s s') : Step s s'

def system : TransitionSystem StreamConnection where
  init s := ∃ it order request answer, initHandshakeFrame it = .ok request ∧
    Server.sendInitRes order 0 = .ok answer ∧ s = start request answer
  step := Step cfg

end StreamConnection

end Tchannel

import Tchannel.Answers
import Tchannel.ClientSends
import Tchannel.Draining
import Tchannel.Handshake

/-!
# A client and a server on one connection

The client of `ClientConnection` and the server of `ServerConnection` after their handshake, with the two
streams of frames between them, as a step relation. `FrameSender` of the client writes to the one stream and
the server reads it; the tasks of the server pass the frames of their answers on, one after another (`passes`),
so that answers may be interleaved on the other one, and `FrameReceiver` reads them. A stream takes as many
frames as its buffers have `room` for. What is in flight on the way back includes what waits for the server's
`FrameSender`. A task is driven until it has passed its answer on, and the stream of the server is only read while
no frame is being dispatched and there is a place beside the tasks that are driven (`Server.Polls`).

When the connection is over for the server, its tasks and its socket are gone: nothing is handled and nothing
passed any more, what the client writes is lost, and so may be what is still in flight.
-/

namespace Tchannel
open Wire

namespace Server

/-- The number of tasks that `try_for_each_concurrent` drives, when the task `k` has passed `passed k` frames of its
answer on. -/
def busy (s : Server) (passed : Nat → Nat) : Nat :=
  s.tasks.zipIdx.countP fun (task, k) => task.phase.isRunning || passed k < task.phase.answer.length

/-- `try_for_each_concurrent` asks for another frame. -/
structure Polls (cfg : ServerConfig) (s : Server) (passed : Nat → Nat) : Prop where
  idle : s.dispatching = .idle
  socket : s.socket = []
  place : s.busy passed < cfg.serverTasks

end Server

/-- What the program itself hands to a connection: requests, and the pings of the pool. -/
inductive Operation.Used : Operation → Prop
  | send (exchange : Exchange) : Used (.send exchange)
  | ping : Used (.sendOne pingFrame)

/-- A step that neither takes a call nor involves the streams, nor `FrameSender`'s end. -/
structure ClientConnection.Inside (s s' : ClientConnection) : Prop where
  calls : s'.calls.length = s.calls.length
  incoming : s'.incoming = s.incoming
  outgoing : s.outgoing.queue <+: s'.outgoing.queue
  sender : s'.outgoing.receiverAlive = s.outgoing.receiverAlive

structure RpcConfig where
  bufferSize : Nat
  bufferSize_pos : 0 < bufferSize
  server : ServerConfig
  /-- Another frame can be written to a stream on which these are. -/
  room : List TFrameId → Prop
  room_nil : room []

/-- The two ends of a connection. -/
structure RpcConnection where
  client : ClientConnection
  /-- The frames in flight to the server. -/
  requests : List TFrameId
  server : Server
  /-- How many frames of its answer each task has passed on. -/
  passed : Nat → Nat
  /-- The frames in flight to the client. -/
  responses : List TFrameId
  /-- For the record: the frames that `FrameSender` of the client has taken. -/
  written : List TFrameId

namespace RpcConnection

/-- After a handshake. -/
def start (init : TFrame) (response : TFrameId) : RpcConnection :=
  ⟨ClientConnection.connected init response, [], Server.new, fun _ => 0, [], []⟩

variable (cfg : RpcConfig)

/-- The steps of the two ends without new calls. -/
inductive Move (s : RpcConnection) : RpcConnection → Prop
  | acts {client} (hstep : s.client.Step cfg.bufferSize client) (hinside : s.client.Inside client) :
      Move s { s with client }
  | writes {frame queue} (hlive : s.server.stopped = none) (hqueue : s.client.outgoing.queue = frame :: queue)
      (hroom : cfg.room s.requests) :
      Move s { s with
        client := { s.client with outgoing := { s.client.outgoing with queue } }
        requests := s.requests ++ [frame], written := s.written ++ [frame] }
  /-- The server is gone: writing fails, and the frame is lost. -/
  | loses {frame queue} (hgone : s.server.stopped ≠ none) (hqueue : s.client.outgoing.queue = frame :: queue) :
      Move s { s with
        client := { s.client with outgoing := { s.client.outgoing with queue } }
        written := s.written ++ [frame] }
  | reaches {frame requests} (hlive : s.server.stopped = none) (hpolls : s.server.Polls cfg.server s.passed)
      (hrequests : s.requests = frame :: requests) :
      Move s { s with requests, server := s.server.arrive frame }
  | serves {server} (hstep : s.server.Step cfg.server server)
      (hplace : server.dispatching = s.server.dispatching ∨ s.server.busy s.passed < cfg.server.serverTasks) :
      Move s { s with server }
  | passes {k task request frames frame} (hlive : s.server.stopped = none)
      (htask : s.server.tasks[k]? = some task) (hphase : task.phase = .answered request frames)
      (hframe : frames[s.passed k]? = some frame) (hroom : cfg.room s.responses) :
      Move s { s with
        passed := Function.update s.passed k (s.passed k + 1), responses := s.responses ++ [frame] }
  | arrives {frame responses} (hidle : s.client.receiver = .idle) (hresponses : s.responses = frame :: responses) :
      Move s { s with
        client := { s.client with
          receiver := s.client.lookup frame, incoming := s.client.incoming ++ [frame] }
        responses }
  /-- The server is gone: the last frames in flight are lost. -/
  | breaks {n : Nat} (hgone : s.server.stopped ≠ none) (hn : n < s.responses.length) :
      Move s { s with responses := s.responses.take n }

/-- Neither end can move. -/
def Rests (s : RpcConnection) : Prop := ∀ s', ¬ Move cfg s s'

inductive Step (s : RpcConnection) : RpcConnection → Prop
  | calls {operation} (hused : Operation.Used operation) :
      Step s { s with client := { s.client with
        nextMessageId := s.client.nextMessageId + 1
        calls := s.client.calls ++ [ClientCall.new operation s.client.nextMessageId] } }
  /-- The task of `FrameSender` of the client is gone. -/
  | stops : Step s { s with client := { s.client with outgoing := s.client.outgoing.dropReceiver } }
  | moves {s'} (hmove : Move cfg s s') : Step s s'

def system : TransitionSystem RpcConnection where
  init s := ∃ it order request answer, initHandshakeFrame it = .ok request ∧
    Server.sendInitRes order 0 = .ok answer ∧ s = start request answer
  step := Step cfg

end RpcConnection

end Tchannel

import Tchannel.Dispatcher
import Tchannel.FrameHandler
import Tchannel.Lib.Steps

/-!
# One connection of the server

`Server::handle_connection` after the handshake, as a step relation. The stream of incoming frames is
dispatched one frame after another, and a frame with an unknown id starts a task that handles a request.
`try_for_each_concurrent` drives all running tasks, but the stream only while fewer than `server_tasks` of
them run. The steps of the stream are taking a frame and looking its id up (`next`), sending it to the
channel that was found (`send`), and else starting a task (`first`); those of a task are receiving a frame
until `read_request` returns (`receive`), deregistering its id (`deregister`), and responding (`reply`). The
connection is over once an error gets out of the stream or of a task.

The read lock of the dispatcher is held while a frame is being sent, and at no other rest; the write lock
is never held at rest. That the frames of a response are passed on to `FrameSender` is part of `reply`.
-/

namespace Tchannel
open Wire

/-- The settings of a server; what the shared subchannels and their handlers, which may change all the
time, can be when a request gets to them. -/
structure ServerConfig where
  serverTasks : Nat
  bufferSize : Nat
  serverTasks_pos : 0 < serverTasks
  bufferSize_pos : 0 < bufferSize
  handlers : FrameHandler → Prop
  debugErrorMsg : ErrorMsg → String

abbrev RequestRead := CallRequestFields × MessageArgs

inductive TaskPhase where
  | reading
  /-- `read_request` has returned; its channel is gone. -/
  | read (request : RequestRead)
  | deregistered (request : RequestRead)
  | answered (request : RequestRead) (frames : List TFrameId)
  | failed (e : Stop)

namespace TaskPhase

def isReading : TaskPhase → Bool
  | .reading => true
  | _ => false

def isAnswered : TaskPhase → Bool
  | .answered _ _ => true
  | _ => false

/-- The future of the task is not finished. -/
def isRunning : TaskPhase → Bool
  | .answered _ _ | .failed _ => false
  | _ => true

/-- What `read_request` has returned. -/
def request : TaskPhase → Option RequestRead
  | .read request | .deregistered request | .answered request _ => some request
  | _ => none

/-- The error that gets out of the task. -/
def failure : TaskPhase → Option Stop
  | .failed e => some e
  | _ => none

end TaskPhase

/-- Where `read_request` is after it received `frames`. -/
def readPhase (frames : List TFrameId) : TaskPhase :=
  match RequestDefragmenter.readRequest.run ⟨frames, false⟩ with
  | .ok request _ => .read request
  | .error .pending _ => .reading
  | .error e _ => .failed e

/-- A call of `FrameHandler.handle`: its channel, and the frames it received from it. -/
structure Task where
  id : UInt32
  input : Channel
  received : List TFrameId
  phase : TaskPhase

namespace Task

/-- The task that `dispatch_first` makes a channel for. -/
def new (frame : TFrameId) : Task := ⟨frame.id, Channel.new.push frame, [], .reading⟩

/-- The task goes on reading with `frame`, which leaves `queue` in its channel. -/
def receive (self : Task) (frame : TFrameId) (queue : List TFrameId) : Task :=
  let received := self.received ++ [frame]
  { self with input := ⟨queue, (readPhase received).isReading⟩, received, phase := readPhase received }

def reply (self : Task) (request : RequestRead) (response : TResult (List TFrameId)) : Task :=
  { self with
    phase := match response with
      | .ok frames => .answered request frames
      | .error e => .failed (.err e) }

/-- The frames that were dispatched to the task. -/
def taken (self : Task) : List TFrameId := self.received ++ self.input.queue

end Task

/-- Where the dispatching of the current frame is. -/
inductive Dispatching where
  | idle
  /-- A sender was found; the frame is being sent, under the read lock. -/
  | sending (frame : TFrameId) (sender : Nat)
  /-- No sender was found; the read lock was dropped, the write lock is next. -/
  | first (frame : TFrameId)

namespace Dispatching

def frames : Dispatching → List TFrameId
  | .idle => []
  | .sending frame _ | .first frame => [frame]

def holdsReadLock : Dispatching → Bool
  | .sending _ _ => true
  | _ => false

end Dispatching

/-- A connection of the server. The tasks are in the order in which they were started. -/
structure Server where
  /-- The frames that wait to be read from the socket. -/
  socket : List TFrameId
  dispatching : Dispatching
  frameDispatchers : FramesDispatcher
  tasks : List Task
  stopped : Option Stop

namespace Server

def new : Server := ⟨[], .idle, FramesDispatcher.new, [], none⟩

def arrive (self : Server) (frame : TFrameId) : Server := { self with socket := self.socket ++ [frame] }

/-- The number of futures that `try_for_each_concurrent` drives. -/
def running (self : Server) : Nat := self.tasks.countP (·.phase.isRunning)

/-- The lookup of `FramesDispatcher::dispatch`. -/
def lookup (self : Server) (frame : TFrameId) : Dispatching :=
  match self.frameDispatchers.get frame.id with
  | some sender => .sending frame sender
  | none => .first frame

/-- A task took a step; an error that gets out of it ends the connection. -/
def update (self : Server) (k : Nat) (task : Task) : Server :=
  { self with tasks := self.tasks.set k task, stopped := task.phase.failure }

/-- `dispatch_frame` fails. -/
def dispatchFails (cfg : ServerConfig) (self : Server) (id : UInt32) (err : ConnectionError) : Server :=
  { self with stopped := some (.err (.connectionError (err.withId cfg.debugErrorMsg id Tracing.default))) }

/-- What a task may get as the response to a request. -/
def Responds (cfg : ServerConfig) (id : UInt32) (request : RequestRead)
    (response : TResult (List TFrameId)) : Prop :=
  ∃ handler order, cfg.handlers handler ∧ handler.respond order id request.1 request.2 = response

/-- The steps of a connection that is not over. -/
inductive Move (cfg : ServerConfig) (s : Server) : Server → Prop
  | next {frame socket} (htasks : s.running < cfg.serverTasks) (hidle : s.dispatching = .idle)
      (hsocket : s.socket = frame :: socket) :
      Move cfg s { s with socket, dispatching := s.lookup frame }
  | send {frame k task} (htasks : s.running < cfg.serverTasks) (hsending : s.dispatching = .sending frame k)
      (htask : s.tasks[k]? = some task) (hready : task.input.Ready cfg.bufferSize) :
      Move cfg s { s with
        dispatching := .idle, tasks := s.tasks.set k { task with input := task.input.push frame } }
  | sendFails {frame k task} (htasks : s.running < cfg.serverTasks)
      (hsending : s.dispatching = .sending frame k) (htask : s.tasks[k]? = some task)
      (hgone : task.input.receiverAlive = false) :
      Move cfg s (s.dispatchFails cfg frame.id (.ofSendError frame))
  | first {frame} (htasks : s.running < cfg.serverTasks) (hfirst : s.dispatching = .first frame)
      (hnew : s.frameDispatchers.get frame.id = none) :
      Move cfg s { s with
        dispatching := .idle
        frameDispatchers := s.frameDispatchers.insert frame.id s.tasks.length
        tasks := s.tasks ++ [Task.new frame] }
  | firstFails {frame k} (htasks : s.running < cfg.serverTasks) (hfirst : s.dispatching = .first frame)
      (hold : s.frameDispatchers.get frame.id = some k) :
      Move cfg s (s.dispatchFails cfg frame.id (.error s!"Sender for id {frame.id} exists"))
  | receive {k task frame queue} (htask : s.tasks[k]? = some task) (hphase : task.phase = .reading)
      (hqueue : task.input.queue = frame :: queue) :
      Move cfg s (s.update k (task.receive frame queue))
  | deregister {k task request} (hlock : s.dispatching.holdsReadLock = false)
      (htask : s.tasks[k]? = some task) (hphase : task.phase = .read request) :
      Move cfg s { s with
        frameDispatchers := s.frameDispatchers.deregister task.id
        tasks := s.tasks.set k { task with phase := .deregistered request } }
  | reply {k task request response} (htask : s.tasks[k]? = some task)
      (hphase : task.phase = .deregistered request) (hresponse : Responds cfg task.id request response) :
      Move cfg s (s.update k (task.reply request response))

def Step (cfg : ServerConfig) (s s' : Server) : Prop := s.stopped = none ∧ Move cfg s s'

/-- The request of the task `k` has been answered. -/
def Answered (self : Server) (k : Nat) : Prop :=
  ∃ task, self.tasks[k]? = some task ∧ task.phase.isAnswered = true

/-- The frames that were read from the socket or wait there, and have not been dispatched. -/
def inFlight (self : Server) : List TFrameId := self.dispatching.frames ++ self.socket

end Server

end Tchannel

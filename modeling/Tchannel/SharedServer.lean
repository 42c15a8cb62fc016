import Tchannel.Guarantees
import Tchannel.HandlerState

/-!
# A server with any number of connections

The connections of a server share its subchannels, and with these the handlers, each behind a lock of its own. What
is one step of a connection by itself (`RpcConnection`), that a task gets the response to its request, takes several
here: `FrameHandler::handle_input` looks the subchannel up, and `SubChannel::handle` the handler, for whose lock it
waits; then the handler is polled until it is done. Any number of tasks, of one connection or of several, are
somewhere on this way, while subchannels are opened and handlers registered. When a connection is over, its tasks are
gone wherever they are: they give up waiting, or leave a handler in the middle of a request.
-/

namespace Tchannel
open Wire

def RpcConfig.withHandlers (cfg : RpcConfig) (handlers : FrameHandler → Prop) : RpcConfig :=
  { cfg with server := { cfg.server with handlers } }

/-- A connection without the step that is several here. -/
def RpcConfig.silent (cfg : RpcConfig) : RpcConfig := cfg.withHandlers fun _ => False

/-- A handler that is registered, behind its lock. -/
structure HandlerRef (σ φ : Type) extends BoxedHandler σ φ where
  /-- For the record: what it was at first. -/
  initial : σ
  locked : Locked σ MessageArgs MessageArgsResponse (MessageArgs ⊕ φ)

/-- How far a task whose request is read is on its way to the response. -/
inductive Handling where
  | new
  /-- The subchannel was found. -/
  | found
  /-- The task asked for the lock of the handler `h`, as the `r`-th. -/
  | called (h r : ℕ)

structure SharedConnection where
  rpc : RpcConnection
  handling : ℕ → Handling

namespace SharedConnection

/-- The task `k` has a request, and no response. -/
structure Handles (conn : SharedConnection) (k : ℕ) (task : Task) (request : RequestRead) : Prop where
  live : conn.rpc.server.stopped = none
  isTask : conn.rpc.server.tasks[k]? = some task
  phase : task.phase = .deregistered request

def goOn (self : SharedConnection) (k : ℕ) (handling : Handling) : SharedConnection :=
  { self with handling := Function.update self.handling k handling }

def reply (self : SharedConnection) (k : ℕ) (task : Task) (request : RequestRead)
    (response : TResult (List TFrameId)) : SharedConnection :=
  { self with rpc := { self.rpc with server := self.rpc.server.update k (task.reply request response) } }

end SharedConnection

structure SharedServer (σ φ : Type) where
  /-- By service and endpoint. -/
  subchannels : HashMap String (HashMap String ℕ)
  handlers : List (HandlerRef σ φ)
  connections : List SharedConnection

structure SharedConfig (σ φ : Type) where
  rpc : RpcConfig
  /-- What may be registered for a service and an endpoint. -/
  registers : String → String → BoxedHandler σ φ → σ → Prop
  /-- What is registered when the server starts. -/
  start : SharedServer σ φ
  connections_start : start.connections = []
  handlers_start : ∀ ref ∈ start.handlers, ref.locked = Locked.new ref.initial
  registered_start : ∀ service endpoints endpoint h, start.subchannels.lookup service = some endpoints →
    endpoints.lookup endpoint = some h →
    ∃ ref, start.handlers[h]? = some ref ∧ registers service endpoint ref.toBoxedHandler ref.initial

namespace SharedServer

variable {σ φ : Type}

def setConnection (self : SharedServer σ φ) (i : ℕ) (conn : SharedConnection) : SharedServer σ φ :=
  { self with connections := self.connections.set i conn }

def setHandler (self : SharedServer σ φ) (h : ℕ) (ref : HandlerRef σ φ) : SharedServer σ φ :=
  { self with handlers := self.handlers.set h ref }

/-- The handler `h` is registered for the request. -/
def Registered (self : SharedServer σ φ) (request : RequestRead) (h : ℕ) : Prop :=
  ∃ endpoints endpoint, self.subchannels.lookup request.1.service = some endpoints ∧
    SubChannel.readEndpointName request.2 = .ok endpoint ∧ endpoints.lookup endpoint = some h

variable (cfg : SharedConfig σ φ)

/-- The error texts and the frames of responses need no subchannels. -/
def frameHandler : FrameHandler := ⟨∅, cfg.rpc.server.debugErrorMsg⟩

/-- The steps without new connections, calls and registrations. -/
inductive Move (s : SharedServer σ φ) : SharedServer σ φ → Prop
  | acts {i : ℕ} {conn : SharedConnection} {rpc : RpcConnection} (hconn : s.connections[i]? = some conn)
      (hmove : RpcConnection.Move cfg.rpc.silent conn.rpc rpc) :
      Move s (s.setConnection i { conn with rpc })
  | findsSubchannel {i k : ℕ} {conn : SharedConnection} {task : Task} {request : RequestRead}
      {endpoints : HashMap String ℕ} (hconn : s.connections[i]? = some conn) (htask : conn.Handles k task request)
      (hnew : conn.handling k = .new) (hsub : s.subchannels.lookup request.1.service = some endpoints) :
      Move s (s.setConnection i (conn.goOn k .found))
  | failsSubchannel {i k : ℕ} {conn : SharedConnection} {task : Task} {request : RequestRead}
      (hconn : s.connections[i]? = some conn) (htask : conn.Handles k task request) (hnew : conn.handling k = .new)
      (hsub : s.subchannels.lookup request.1.service = none) :
      Move s (s.setConnection i (conn.reply k task request
        (.error (.error s!"Failed to find subchannel '{request.1.service}'"))))
  | failsEndpoint {i k : ℕ} {conn : SharedConnection} {task : Task} {request : RequestRead} {e : CodecError}
      (hconn : s.connections[i]? = some conn) (htask : conn.Handles k task request) (hfound : conn.handling k = .found)
      (hend : SubChannel.readEndpointName request.2 = .error e) :
      Move s (s.setConnection i (conn.reply k task request (.error (.codecError e))))
  | failsHandler {i k : ℕ} {conn : SharedConnection} {task : Task} {request : RequestRead}
      {endpoints : HashMap String ℕ} {endpoint : String} (hconn : s.connections[i]? = some conn)
      (htask : conn.Handles k task request) (hfound : conn.handling k = .found)
      (hsub : s.subchannels.lookup request.1.service = some endpoints)
      (hend : SubChannel.readEndpointName request.2 = .ok endpoint) (hhandler : endpoints.lookup endpoint = none) :
      Move s (s.setConnection i (conn.reply k task request
        (.error (.error s!"No handler with name '{endpoint}'."))))
  | asks {i k h : ℕ} {conn : SharedConnection} {task : Task} {request : RequestRead} {ref : HandlerRef σ φ} {locked}
      (hconn : s.connections[i]? = some conn) (htask : conn.Handles k task request) (hfound : conn.handling k = .found)
      (hregistered : s.Registered request h) (href : s.handlers[h]? = some ref)
      (hstep : ref.locked.Step ref.service (.ask request.2) locked) :
      Move s ((s.setHandler h { ref with locked }).setConnection i
        (conn.goOn k (.called h ref.locked.requests.length)))
  | serves {i k h r : ℕ} {conn : SharedConnection} {task : Task} {request : RequestRead} {ref : HandlerRef σ φ} {locked}
      (hconn : s.connections[i]? = some conn) (htask : conn.Handles k task request)
      (hcalled : conn.handling k = .called h r) (href : s.handlers[h]? = some ref)
      (hstep : ref.locked.Step ref.service (.serve r) locked) :
      Move s (s.setHandler h { ref with locked })
  | responds {i k h r : ℕ} {conn : SharedConnection} {task : Task} {request : RequestRead} {ref : HandlerRef σ φ}
      {locked} {response : MessageArgsResponse} (order : (headers : HashMap String String) → Iter headers)
      (hconn : s.connections[i]? = some conn) (htask : conn.Handles k task request)
      (hcalled : conn.handling k = .called h r) (href : s.handlers[h]? = some ref)
      (hstep : ref.locked.Step ref.service (.respond r response) locked) :
      Move s ((s.setHandler h { ref with locked }).setConnection i
        (conn.reply k task request ((frameHandler cfg).finish order task.id request.1 response)))
  /-- The connection is over. -/
  | drops {i k h r : ℕ} {conn : SharedConnection} {ref : HandlerRef σ φ} {locked}
      (hconn : s.connections[i]? = some conn) (hgone : conn.rpc.server.stopped ≠ none)
      (hcalled : conn.handling k = .called h r) (href : s.handlers[h]? = some ref)
      (hstep : ref.locked.Step ref.service (.giveUp r) locked) :
      Move s (s.setHandler h { ref with locked })

inductive Step (s : SharedServer σ φ) : SharedServer σ φ → Prop
  | connects {rpc : RpcConnection} (hinit : (RpcConnection.system cfg.rpc).init rpc) :
      Step s { s with connections := s.connections ++ [⟨rpc, fun _ => .new⟩] }
  | opens {service : String} (hnew : s.subchannels.lookup service = none) :
      Step s { s with subchannels := s.subchannels.insert service ∅ }
  | registers {service endpoint : String} {endpoints : HashMap String ℕ} {handler : BoxedHandler σ φ} {initial : σ}
      (hsub : s.subchannels.lookup service = some endpoints) (hnew : endpoints.lookup endpoint = none)
      (hmay : cfg.registers service endpoint handler initial) :
      Step s { s with
        subchannels := s.subchannels.insert service (endpoints.insert endpoint s.handlers.length)
        handlers := s.handlers ++ [{ handler with initial, locked := Locked.new initial }] }
  /-- A call is made on a connection, or its `FrameSender` ends. -/
  | uses {i : ℕ} {conn : SharedConnection} {rpc : RpcConnection} (hconn : s.connections[i]? = some conn)
      (hstep : RpcConnection.Step cfg.rpc.silent conn.rpc rpc) :
      Step s (s.setConnection i { conn with rpc })
  | moves {s' : SharedServer σ φ} (hmove : Move cfg s s') : Step s s'

def system : TransitionSystem (SharedServer σ φ) := ⟨(· = cfg.start), Step cfg⟩

/-- The handlers as the request of one task finds them. -/
def snapshot (s : SharedServer σ φ) (frozen : ℕ → MessageArgsHandler) : FrameHandler :=
  ⟨mapValues (fun service endpoints => ⟨service, mapValues (fun _ h => frozen h) endpoints⟩) s.subchannels,
    cfg.rpc.server.debugErrorMsg⟩

/-- The handlers that a task can find. -/
def Frozen (handler : FrameHandler) : Prop :=
  ∃ (s : SharedServer σ φ) (frozen : ℕ → MessageArgsHandler), (system cfg).Reachable s ∧
    (∀ (h : ℕ) ref, s.handlers[h]? = some ref → ref.Freezes (frozen h)) ∧ handler = s.snapshot cfg frozen

/-- What each of the connections is by itself. -/
def alone : RpcConfig := cfg.rpc.withHandlers (Frozen cfg)

end SharedServer

end Tchannel

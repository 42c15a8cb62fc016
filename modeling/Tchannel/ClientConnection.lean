import Tchannel.Dispatcher
import Tchannel.SubChannel
import Tchannel.Lib.Steps

/-!
# One connection of a client

`Connection` of `connection/mod.rs` with any number of calls of `Connection::send_one` and `SubChannel::send`
that share it, as a step relation. Taking an id (`calls`) and registering it (`registers`) are what
`new_frames_io` does; then a call sends its frames and reads its response (`Runs`), and deregisters its id
(`closes`). `send_internal` does that once, and `send` once more (`closesAgain`). Meanwhile `FrameReceiver`
takes frames from the peer and dispatches them with `dispatch_following`, and `FrameSender` writes what calls
have sent.

The read lock of the dispatcher is held while `FrameReceiver` is sending to a call, and at no other rest; the
write lock is never held at rest. A sender is owned by the dispatcher alone, so that a channel is closed once
its entry is gone.
-/

namespace Tchannel
open Wire

def SubChannel.createFrames {REQ : Type} [Message REQ] (self : SubChannel)
    (order : (headers : HashMap String String) → Iter headers) (request : REQ) : TResult (List TFrame) := do
  let messageArgs ← liftCodec (Message.tryInto request)
  (RequestFragmenter.new self.serviceName messageArgs).createFrames (order _)

/-- A request, or why it has no frames, and the reading of its response. There are no others than those of
`SubChannel::send`. What a response is read as is the matter of `SubChannel.receiveFrom`. -/
structure Exchange where
  frames : TResult (List TFrame)
  read : Recv Unit
  sends : ∃ (REQ RES : Type) (_ : Message REQ) (_ : Message RES) (subchannel : SubChannel) (request : REQ)
    (order : (headers : HashMap String String) → Iter headers),
    frames = subchannel.createFrames order request ∧
      read = (fun _ => ()) <$> ResponseDefragmenter.readResponseMsg RES

def SubChannel.exchange {REQ : Type} (RES : Type) [Message REQ] [Message RES] (self : SubChannel)
    (order : (headers : HashMap String String) → Iter headers) (request : REQ) : Exchange :=
  ⟨self.createFrames order request, _, REQ, RES, inferInstance, inferInstance, self, request, order, rfl, rfl⟩

inductive Operation where
  /-- `Connection::send_one`. -/
  | sendOne (frame : TFrame)
  /-- `SubChannel::send`. -/
  | send (exchange : Exchange)

namespace Operation

def isSendOne : Operation → Bool
  | .sendOne _ => true
  | .send _ => false

def frames : Operation → TResult (List TFrame)
  | .sendOne frame => .ok [frame]
  | .send exchange => exchange.frames

def read : Operation → Recv Unit
  | .sendOne _ => do
    match ← Recv.recv with
    | some _ => return ()
    | none => Recv.fail (.connectionError (.error "Received no response"))
  | .send exchange => exchange.read

end Operation

inductive ClientPhase where
  /-- It has its id and its channel. -/
  | allocated
  | registered
  | sending (frames : List TFrame)
  | receiving
  /-- Its id is to be deregistered, and after that once more if `again`. -/
  | closing (result : TResult Unit) (again : Bool)
  | closingAgain (result : TResult Unit)
  | returned (result : TResult Unit)
  | panicked

/-- A call, with its channel and the frames it received from it. For the record: how many frames had arrived
at the connection when its id was registered and when it was deregistered for the first time. -/
structure ClientCall where
  operation : Operation
  id : UInt32
  input : Channel
  received : List TFrameId
  phase : ClientPhase
  registeredAt : Option Nat
  closedAt : Option Nat

namespace ClientCall

def new (operation : Operation) (id : UInt32) : ClientCall :=
  ⟨operation, id, Channel.new, [], .allocated, none, none⟩

/-- The call returns, and drops its receiver. -/
def returns (self : ClientCall) (result : TResult Unit) : ClientCall :=
  { self with input := self.input.dropReceiver, phase := .returned result }

/-- `register` has returned at the time `now`. -/
def register (self : ClientCall) (now : Nat) (result : ConnectionResult Unit) : ClientCall :=
  match result with
  | .ok () => { self with registeredAt := some now, phase := .registered }
  | .error e => { self.returns (.error (.connectionError e)) with registeredAt := some now }

/-- An error before there is a response: `send_one` returns it, and leaves its id registered. -/
def fail (self : ClientCall) (e : TChannelError) : ClientCall :=
  match self.operation with
  | .sendOne _ => self.returns (.error e)
  | .send _ => { self with input := self.input.dropReceiver, phase := .closing (.error e) false }

def create (self : ClientCall) : ClientCall :=
  match self.operation.frames with
  | .ok frames => { self with phase := .sending frames }
  | .error e => self.fail e

/-- The response was read. Only `send_one` keeps its receiver meanwhile. -/
def finish (self : ClientCall) (result : TResult Unit) : ClientCall :=
  match self.operation with
  | .sendOne _ => { self with phase := .closing result false }
  | .send _ => { self with input := self.input.dropReceiver, phase := .closing result true }

/-- Reads on, up to the next time there is no frame to receive. -/
def proceed (self : ClientCall) (closed : Bool) : ClientCall :=
  match self.operation.read.run ⟨self.received, closed⟩ with
  | .ok () _ => self.finish (.ok ())
  | .error (.err e) _ => self.finish (.error e)
  | .error .panic _ => { self with input := self.input.dropReceiver, phase := .panicked }
  | .error .pending _ => self

/-- The call goes on reading with `frame`, which leaves `queue` in its channel. -/
def receive (self : ClientCall) (frame : TFrameId) (queue : List TFrameId) : ClientCall :=
  proceed { self with input := { self.input with queue }, received := self.received ++ [frame] } false

/-- `FrameOutput::close` has returned at the time `now`. -/
def close (self : ClientCall) (now : Nat) (result : TResult Unit) (again : Bool) : ClientCall :=
  { (if again then { self with phase := .closingAgain result } else self.returns result) with
    closedAt := some now }

/-- The id is registered, and was not deregistered by the call. -/
def IsOpen (self : ClientCall) : Prop := self.registeredAt.isSome = true ∧ self.closedAt = none

/-- Of the frames that arrived at a connection, those that bear the id of the call and arrived while it was
open. -/
def arrived (self : ClientCall) (incoming : List TFrameId) : List TFrameId :=
  ((incoming.take (self.closedAt.getD incoming.length)).drop (self.registeredAt.getD incoming.length)).filter
    fun frame => frame.id = self.id

/-- What a registered call does without the dispatcher; `closed` if its channel has no sender any more. -/
inductive Runs (bufferSize : Nat) (closed : Prop) (call : ClientCall) (outgoing : Channel) :
    ClientCall → Channel → Prop
  | creates (hphase : call.phase = .registered) : Runs bufferSize closed call outgoing call.create outgoing
  | sends {frame frames} (hphase : call.phase = .sending (frame :: frames)) (hready : outgoing.Ready bufferSize) :
      Runs bufferSize closed call outgoing { call with phase := .sending frames } (outgoing.push ⟨call.id, frame⟩)
  | sendFails {frame frames} (hphase : call.phase = .sending (frame :: frames))
      (hgone : outgoing.receiverAlive = false) :
      Runs bufferSize closed call outgoing
        (call.fail (.connectionError (.ofSendError ⟨call.id, frame⟩))) outgoing
  | sent (hphase : call.phase = .sending []) :
      Runs bufferSize closed call outgoing { call with phase := .receiving } outgoing
  | receives {frame queue} (hphase : call.phase = .receiving) (hqueue : call.input.queue = frame :: queue) :
      Runs bufferSize closed call outgoing (call.receive frame queue) outgoing
  | starves (hphase : call.phase = .receiving) (hqueue : call.input.queue = []) (hclosed : closed) :
      Runs bufferSize closed call outgoing (call.proceed true) outgoing

end ClientCall

inductive FrameReceiver where
  | idle
  /-- A sender was found; the frame is being sent, under the read lock. -/
  | sending (frame : TFrameId) (sender : Nat)

namespace FrameReceiver

def holdsReadLock : FrameReceiver → Bool
  | .idle => false
  | .sending _ _ => true

/-- The frame that is being sent to the call `k`. -/
def framesFor (k : Nat) : FrameReceiver → List TFrameId
  | .idle => []
  | .sending frame sender => if sender = k then [frame] else []

end FrameReceiver

/-- A connection of a client. The calls are in the order in which they took their ids. -/
structure ClientConnection where
  nextMessageId : UInt32
  pendingIds : FramesDispatcher
  /-- The channel to `FrameSender`. -/
  outgoing : Channel
  receiver : FrameReceiver
  calls : List ClientCall
  /-- For the record: the frames that arrived so far. -/
  incoming : List TFrameId

namespace ClientConnection

def new : ClientConnection := ⟨0, FramesDispatcher.new, Channel.new, .idle, [], []⟩

/-- The lookup of `dispatch_following`. A frame with an unknown id is dropped. -/
def lookup (self : ClientConnection) (frame : TFrameId) : FrameReceiver :=
  match self.pendingIds.get frame.id with
  | some sender => .sending frame sender
  | none => .idle

/-- The call `k` registers its id. -/
def register (self : ClientConnection) (k : Nat) (call : ClientCall) : ClientConnection :=
  let (result, pendingIds) := self.pendingIds.register call.id k
  { self with pendingIds, calls := self.calls.set k (call.register self.incoming.length result) }

inductive Step (bufferSize : Nat) (s : ClientConnection) : ClientConnection → Prop
  | calls (operation : Operation) :
      Step bufferSize s { s with
        nextMessageId := s.nextMessageId + 1, calls := s.calls ++ [ClientCall.new operation s.nextMessageId] }
  | registers {k call} (hlock : s.receiver.holdsReadLock = false) (hcall : s.calls[k]? = some call)
      (hphase : call.phase = .allocated) :
      Step bufferSize s (s.register k call)
  | runs {k call call' outgoing} (hcall : s.calls[k]? = some call)
      (hrun : call.Runs bufferSize (s.pendingIds.get call.id ≠ some k) s.outgoing call' outgoing) :
      Step bufferSize s { s with outgoing, calls := s.calls.set k call' }
  | closes {k call result again} (hlock : s.receiver.holdsReadLock = false) (hcall : s.calls[k]? = some call)
      (hphase : call.phase = .closing result again) :
      Step bufferSize s { s with
        pendingIds := s.pendingIds.deregister call.id
        calls := s.calls.set k (call.close s.incoming.length result again) }
  | closesAgain {k call result} (hlock : s.receiver.holdsReadLock = false) (hcall : s.calls[k]? = some call)
      (hphase : call.phase = .closingAgain result) :
      Step bufferSize s { s with
        pendingIds := s.pendingIds.deregister call.id, calls := s.calls.set k (call.returns result) }
  | arrives {frame} (hidle : s.receiver = .idle) :
      Step bufferSize s { s with receiver := s.lookup frame, incoming := s.incoming ++ [frame] }
  | delivers {frame k call} (hsending : s.receiver = .sending frame k) (hcall : s.calls[k]? = some call)
      (hready : call.input.Ready bufferSize) :
      Step bufferSize s { s with
        receiver := .idle, calls := s.calls.set k { call with input := call.input.push frame } }
  | deliverFails {frame k call} (hsending : s.receiver = .sending frame k) (hcall : s.calls[k]? = some call)
      (hgone : call.input.receiverAlive = false) :
      Step bufferSize s { s with receiver := .idle }
  /-- `FrameSender` takes a frame, and writes it or reports that it cannot. -/
  | writes {frame queue} (hqueue : s.outgoing.queue = frame :: queue) :
      Step bufferSize s { s with outgoing := { s.outgoing with queue } }
  /-- The task of `FrameSender` is gone. -/
  | stops : Step bufferSize s { s with outgoing := s.outgoing.dropReceiver }

def system (bufferSize : Nat) : TransitionSystem ClientConnection := ⟨(· = new), Step bufferSize⟩

def inFlight (self : ClientConnection) (k : Nat) : List TFrameId := self.receiver.framesFor k

end ClientConnection

end Tchannel

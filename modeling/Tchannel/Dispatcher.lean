import Tchannel.Errors

/-!
# Channels and the frames dispatcher

Of `connection/mod.rs` what server and client share. A frame channel holds what was sent and not received
yet, up to the buffer size; sending waits while it is full and fails once its receiver is gone. The
dispatcher maps the message ids in use to senders: here to the number of the handler, or of the call, that
owns the receiver. Its lock matters in one place: sending to a channel that was looked up keeps the read
lock while it waits, and nobody changes the map meanwhile.
-/

namespace Tchannel
open Wire

/-- `mpsc::channel`, with the frames that nobody receives any more when the receiver was dropped. -/
structure Channel where
  queue : List TFrameId
  receiverAlive : Bool
deriving DecidableEq, Repr

namespace Channel

def new : Channel := ⟨[], true⟩

def push (self : Channel) (frame : TFrameId) : Channel := { self with queue := self.queue ++ [frame] }

def dropReceiver (self : Channel) : Channel := { self with receiverAlive := false }

/-- A send goes through at once. -/
def Ready (self : Channel) (bufferSize : Nat) : Prop :=
  self.receiverAlive = true ∧ self.queue.length < bufferSize

/-- A send waits. -/
def Full (self : Channel) (bufferSize : Nat) : Prop :=
  self.receiverAlive = true ∧ bufferSize ≤ self.queue.length

end Channel

/-- `From<SendError<TFrameId>>`. -/
def ConnectionError.ofSendError (frame : TFrameId) : ConnectionError :=
  .messageErrorId ⟨.unexpectedError, Tracing.default, "Failed to handle frame: channel closed"⟩ frame.id

/-- The map of `FramesDispatcher`. -/
structure FramesDispatcher where
  senders : HashMap UInt32 Nat

namespace FramesDispatcher

def new : FramesDispatcher := ⟨∅⟩

def get (self : FramesDispatcher) (id : UInt32) : Option Nat := self.senders.lookup id

def deregister (self : FramesDispatcher) (id : UInt32) : FramesDispatcher := ⟨self.senders.erase id⟩

def insert (self : FramesDispatcher) (id : UInt32) (sender : Nat) : FramesDispatcher :=
  ⟨self.senders.insert id sender⟩

/-- Inserts the sender, and then reports that another one was in its place. -/
def register (self : FramesDispatcher) (id : UInt32) (sender : Nat) :
    ConnectionResult Unit × FramesDispatcher :=
  (match self.get id with
    | some _ => .error (.error s!"Duplicated id: {id}.")
    | none => .ok (),
   self.insert id sender)

@[simp] theorem get_new (id : UInt32) : new.get id = none := rfl

theorem get_deregister (self : FramesDispatcher) (id id' : UInt32) :
    (self.deregister id).get id' = if id' = id then none else self.get id' := by
  simp only [deregister, get]
  split
  · rename_i h
    rw [h, Finmap.lookup_erase]
  · rename_i h
    rw [Finmap.lookup_erase_ne h]

theorem get_insert (self : FramesDispatcher) (id id' : UInt32) (sender : Nat) :
    (self.insert id sender).get id' = if id' = id then some sender else self.get id' := by
  simp only [insert, get]
  split
  · rename_i h
    rw [h, Finmap.lookup_insert]
  · rename_i h
    rw [Finmap.lookup_insert_of_ne _ h]

theorem get_of_deregister {self : FramesDispatcher} {id id' : UInt32} {k : Nat}
    (h : (self.deregister id).get id' = some k) : id' ≠ id ∧ self.get id' = some k := by
  rw [get_deregister] at h
  split at h
  · cases h
  · rename_i hne
    exact ⟨hne, h⟩

theorem get_of_insert {self : FramesDispatcher} {id id' : UInt32} {sender k : Nat}
    (h : (self.insert id sender).get id' = some k) :
    (id' = id ∧ k = sender) ∨ (id' ≠ id ∧ self.get id' = some k) := by
  rw [get_insert] at h
  split at h
  · rename_i heq
    exact .inl ⟨heq, (Option.some.inj h).symm⟩
  · rename_i hne
    exact .inr ⟨hne, h⟩

end FramesDispatcher

end Tchannel

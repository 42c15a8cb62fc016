import Tchannel.Messages

/-!
# Cutting a message into frames

`fragmentation.rs`. The args of a message wait in a queue; each frame takes from its front as many bytes
as still fit (`ArgsFragmenter.nextFrameArgsVec`), and frames are built until the queue is empty
(`Fragmenter.continuationFrames`). The loop ends because every frame after the first takes an arg or a
byte off the queue (`nextFrameArgsVec_size_lt`). The byte budget is an `i32`.
-/

namespace Tchannel
open Wire

/-- The value of an `i32` after a cast or a wrapping operation. -/
def asI32 (n : Int) : Int :=
  if (n % 4294967296).toNat < 2147483648 then n % 4294967296 else n % 4294967296 - 4294967296

theorem asI32_of_lt {n : Int} (h : -2147483648 ≤ n) (h' : n < 2147483648) : asI32 n = n := by
  unfold asI32
  split <;> omega

inductive FragmentationStatus where
  | complete
  | completeAtTheEnd
  | incomplete
deriving DecidableEq, Repr

structure ArgsFragmenter where
  args : List Bytes
deriving DecidableEq, Repr

namespace ArgsFragmenter

def isEmpty (self : ArgsFragmenter) : Bool := self.args.isEmpty

/-- The status, the fragment and what is left of `arg`. -/
def nextArgFragment (arg : Bytes) (payloadLimit : Int) : FragmentationStatus × Option Bytes × Bytes :=
  let srcRemaining := asI32 arg.length
  if srcRemaining = 0 then
    (.complete, some [], arg)
  else if payloadLimit < 0 then
    (.incomplete, none, arg)
  else if srcRemaining > payloadLimit then
    (.incomplete, some (arg.take payloadLimit.toNat), arg.drop payloadLimit.toNat)
  else if srcRemaining = payloadLimit then
    (.completeAtTheEnd, some arg, [])
  else
    (.complete, some arg, [])

/-- What a fragment adds to the frame, and the budget after it. -/
def pushFragment (fragment : Option Bytes) (payloadLimit : Int) : List (Option Bytes) × Int :=
  match fragment with
  | none => ([], payloadLimit)
  | some frameArg =>
    match frameArg.length with
    | 0 => ([none], payloadLimit)
    | len => ([some frameArg], asI32 (payloadLimit - asI32 len))

/-- The args of the next frame, and the queue after it. -/
def nextFrameArgsVec : List Bytes → Int → List (Option Bytes) × List Bytes
  | [], _ => ([], [])
  | arg :: args, payloadLimit =>
    let payloadLimit := asI32 (payloadLimit - argLenLen)
    let next := nextArgFragment arg payloadLimit
    let pushed := pushFragment next.2.1 payloadLimit
    match next.1 with
    | .incomplete => (pushed.1, next.2.2 :: args)
    | .completeAtTheEnd => (pushed.1, [] :: args)
    | .complete =>
      let rest := nextFrameArgsVec args pushed.2
      (pushed.1 ++ rest.1, rest.2)

/-- The bytes and the entries of a queue. -/
def queueSize (queue : List Bytes) : Nat := (queue.map List.length).sum + queue.length

@[simp] theorem queueSize_cons (arg : Bytes) (args : List Bytes) :
    queueSize (arg :: args) = arg.length + 1 + queueSize args := by
  simp only [queueSize, List.map_cons, List.sum_cons, List.length_cons]
  omega

/-- A chunk as a frame carries it: an empty one is no chunk. -/
def chunk (b : Bytes) : Option Bytes := if b = [] then none else some b

theorem asI32_ne_zero {n : Nat} (h : asI32 n ≠ 0) : 0 < n := by
  rcases Nat.eq_zero_or_pos n with rfl | h'
  · exact absurd (asI32_of_lt (by omega) (by omega)) h
  · exact h'

theorem pushFragment_some (b : Bytes) (limit : Int) :
    (pushFragment (some b) limit).1 = [chunk b] ∧
      (b ≠ [] → (pushFragment (some b) limit).2 = asI32 (limit - asI32 b.length)) := by
  cases b with
  | nil => exact ⟨rfl, fun h => absurd rfl h⟩
  | cons x b => exact ⟨rfl, fun _ => rfl⟩

theorem nextArgFragment_cases (arg : Bytes) (l : Int) :
    (asI32 arg.length = 0 ∧ nextArgFragment arg l = (.complete, some [], arg)) ∨
    (asI32 arg.length ≠ 0 ∧ l < 0 ∧ nextArgFragment arg l = (.incomplete, none, arg)) ∨
    (0 ≤ l ∧ l < asI32 arg.length ∧
      nextArgFragment arg l = (.incomplete, some (arg.take l.toNat), arg.drop l.toNat)) ∨
    (asI32 arg.length ≠ 0 ∧ 0 ≤ l ∧ asI32 arg.length = l ∧
      nextArgFragment arg l = (.completeAtTheEnd, some arg, [])) ∨
    (asI32 arg.length ≠ 0 ∧ 0 ≤ l ∧ asI32 arg.length < l ∧
      nextArgFragment arg l = (.complete, some arg, [])) := by
  by_cases h0 : asI32 arg.length = 0
  · exact .inl ⟨h0, if_pos h0⟩
  right
  by_cases hneg : l < 0
  · exact .inl ⟨h0, hneg, by simp only [nextArgFragment, if_neg h0, if_pos hneg]⟩
  right
  have hpos : 0 ≤ l := not_lt.1 hneg
  by_cases hlt : l < asI32 arg.length
  · exact .inl ⟨hpos, hlt, by simp only [nextArgFragment, if_neg h0, if_neg hneg, gt_iff_lt, if_pos hlt]⟩
  right
  by_cases he : asI32 arg.length = l
  · refine .inl ⟨h0, hpos, he, ?_⟩
    simp only [nextArgFragment, if_neg h0, if_neg hneg, gt_iff_lt, if_neg hlt, if_pos he]
  · refine .inr ⟨h0, hpos, lt_of_le_of_ne (not_lt.1 hlt) he, ?_⟩
    simp only [nextArgFragment, if_neg h0, if_neg hneg, gt_iff_lt, if_neg hlt, if_neg he]

/-- What a frame does with the first arg of the queue: the arg has no bytes; the frame has no room for
its length; it is cut; it fills the frame; or it goes in whole and the frame goes on. -/
theorem nextFrameArgsVec_cons (arg : Bytes) (args : List Bytes) {limit l : Int}
    (hl : asI32 (limit - argLenLen) = l) :
    (asI32 arg.length = 0 ∧ nextFrameArgsVec (arg :: args) limit =
      (none :: (nextFrameArgsVec args l).1, (nextFrameArgsVec args l).2)) ∨
    (asI32 arg.length ≠ 0 ∧ l < 0 ∧ nextFrameArgsVec (arg :: args) limit = ([], arg :: args)) ∨
    (0 ≤ l ∧ l < asI32 arg.length ∧ nextFrameArgsVec (arg :: args) limit =
      ([chunk (arg.take l.toNat)], arg.drop l.toNat :: args)) ∨
    (asI32 arg.length ≠ 0 ∧ 0 ≤ l ∧ asI32 arg.length = l ∧
      nextFrameArgsVec (arg :: args) limit = ([some arg], [] :: args)) ∨
    (asI32 arg.length ≠ 0 ∧ 0 ≤ l ∧ asI32 arg.length < l ∧
      nextFrameArgsVec (arg :: args) limit =
        (some arg :: (nextFrameArgsVec args (asI32 (l - asI32 arg.length))).1,
          (nextFrameArgsVec args (asI32 (l - asI32 arg.length))).2)) := by
  have hpush : asI32 arg.length ≠ 0 → pushFragment (some arg) l = ([some arg], asI32 (l - asI32 arg.length)) := by
    intro h0
    have hne : arg ≠ [] := List.ne_nil_of_length_pos (asI32_ne_zero h0)
    obtain ⟨hchunks, hlimit⟩ := pushFragment_some arg l
    rw [chunk, if_neg hne] at hchunks
    exact Prod.ext hchunks (hlimit hne)
  rcases nextArgFragment_cases arg l with
    ⟨h0, hfrag⟩ | ⟨h0, hneg, hfrag⟩ | ⟨hpos, hlt, hfrag⟩ | ⟨h0, hpos, he, hfrag⟩ | ⟨h0, hpos, hlt, hfrag⟩
  · exact .inl ⟨h0, by simp only [nextFrameArgsVec, hl, hfrag, pushFragment]; rfl⟩
  · exact .inr (.inl ⟨h0, hneg, by simp only [nextFrameArgsVec, hl, hfrag, pushFragment]⟩)
  · exact .inr (.inr (.inl
      ⟨hpos, hlt, by simp only [nextFrameArgsVec, hl, hfrag, (pushFragment_some _ _).1]⟩))
  · exact .inr (.inr (.inr (.inl ⟨h0, hpos, he, by simp only [nextFrameArgsVec, hl, hfrag, hpush h0]⟩)))
  · refine .inr (.inr (.inr (.inr ⟨h0, hpos, hlt, ?_⟩)))
    simp only [nextFrameArgsVec, hl, hfrag, hpush h0, List.singleton_append]

theorem nextFrameArgsVec_size_le (queue : List Bytes) (limit : Int) :
    queueSize (nextFrameArgsVec queue limit).2 ≤ queueSize queue := by
  induction queue generalizing limit with
  | nil => exact Nat.le_refl _
  | cons arg args ih =>
    rw [queueSize_cons]
    rcases nextFrameArgsVec_cons arg args (rfl : asI32 (limit - argLenLen) = _) with
      ⟨-, heq⟩ | ⟨-, -, heq⟩ | ⟨-, -, heq⟩ | ⟨-, -, -, heq⟩ | ⟨-, -, -, heq⟩ <;> simp only [heq]
    · have := ih (asI32 (limit - argLenLen))
      omega
    · simp
    · simp
    · simp
    · have := ih (asI32 (asI32 (limit - argLenLen) - asI32 arg.length))
      omega

/-- With room for a byte of an arg, a frame makes a queue that is not empty smaller. -/
theorem nextFrameArgsVec_size_lt {queue : List Bytes} {limit : Int} (hq : queue ≠ [])
    (hl : 0 < asI32 (limit - argLenLen)) :
    queueSize (nextFrameArgsVec queue limit).2 < queueSize queue := by
  cases queue with
  | nil => exact absurd rfl hq
  | cons arg args =>
    rw [queueSize_cons]
    rcases nextFrameArgsVec_cons arg args (rfl : asI32 (limit - argLenLen) = _) with
      ⟨-, heq⟩ | ⟨-, hneg, -⟩ | ⟨-, hlt, heq⟩ | ⟨h0, -, -, heq⟩ | ⟨-, -, -, heq⟩
    · have := nextFrameArgsVec_size_le args (asI32 (limit - argLenLen))
      simp only [heq]
      omega
    · omega
    · have : 0 < arg.length := asI32_ne_zero (by omega)
      rw [heq, queueSize_cons, List.length_drop]
      omega
    · have := asI32_ne_zero h0
      rw [heq, queueSize_cons, List.length_nil]
      omega
    · have := nextFrameArgsVec_size_le args (asI32 (asI32 (limit - argLenLen) - asI32 arg.length))
      simp only [heq]
      omega

end ArgsFragmenter

/-- A `usize`; the fields of a message never come near the limit. -/
def calculatePayloadLimit (fieldsLen : Nat) : Nat := frameMaxLength - frameHeaderLength - 1 - fieldsLen

def createTracing : Tracing := ⟨0, 0, 0, .none⟩

def checksumLen : ChecksumType → Nat
  | .none => 1
  | _ => 5

structure Fragmenter where
  serviceName : String
  argScheme : ArgSchemeValue
  argsFragmenter : ArgsFragmenter
deriving DecidableEq, Repr

namespace Fragmenter

def new (serviceName : String) (args : MessageArgs) : Fragmenter := ⟨serviceName, args.argScheme, ⟨args.args⟩⟩

/-- `ArgsFragmenter.nextFrameArgsVec` with what the checksum takes off the limit. -/
def nextFrameArgsVec (queue : List Bytes) (payloadLimit : Nat) (checksumType : ChecksumType) :
    List (Option Bytes) × List Bytes :=
  ArgsFragmenter.nextFrameArgsVec queue (asI32 (asI32 payloadLimit - checksumLen checksumType))

/-- Frames are sent without a checksum. -/
def nextFrameArgs (queue : List Bytes) (payloadLimit : Nat) : CallArgs × List Bytes :=
  let (frameArgs, queue) := nextFrameArgsVec queue payloadLimit .none
  (⟨.none, none, frameArgs⟩, queue)

def currentFrameFlag (queue : List Bytes) : Flags :=
  if queue.isEmpty then .none else .moreFragmentsFollow

theorem nextFrameArgs_size_lt {queue : List Bytes} (hq : queue.isEmpty = false) :
    ArgsFragmenter.queueSize (nextFrameArgs queue (calculatePayloadLimit 0)).2 <
      ArgsFragmenter.queueSize queue :=
  ArgsFragmenter.nextFrameArgsVec_size_lt (by simpa using hq) (by decide +kernel)

/-- The loop of `create_frames`. -/
def continuationFrames (continuationType : FrameType) (queue : List Bytes) : TResult (List TFrame) :=
  if queue.isEmpty then
    .ok []
  else do
    let next := nextFrameArgs queue (calculatePayloadLimit 0)
    let payload ← liftCodec (CallContinue.encodeBytes ⟨currentFrameFlag next.2, next.1⟩)
    let frames ← continuationFrames continuationType next.2
    return ⟨continuationType, payload⟩ :: frames
termination_by ArgsFragmenter.queueSize queue
decreasing_by exact nextFrameArgs_size_lt (by simp_all)

def createFrames (self : Fragmenter) (fields : CodecResult Bytes) (firstType continuationType : FrameType) :
    TResult (List TFrame) := do
  let fieldsBytes ← liftCodec fields
  let next := nextFrameArgs self.argsFragmenter.args (calculatePayloadLimit fieldsBytes.length)
  let callRequest : CallWithFieldsEncoded := ⟨currentFrameFlag next.2, fieldsBytes, next.1⟩
  let payload ← liftCodec callRequest.encodeBytes
  let frames ← continuationFrames continuationType next.2
  return ⟨firstType, payload⟩ :: frames

def createHeaders (self : Fragmenter) : HashMap String String :=
  (Finmap.insert TransportHeaderKey.argScheme.toString self.argScheme.toString ∅).insert
    TransportHeaderKey.callerName.toString self.serviceName

end Fragmenter

/-! ### Requests and responses -/

structure RequestFragmenter where
  fragmenter : Fragmenter
deriving DecidableEq, Repr

namespace RequestFragmenter

def new (serviceName : String) (args : MessageArgs) : RequestFragmenter := ⟨Fragmenter.new serviceName args⟩

def createFields (self : RequestFragmenter) : CallRequestFields :=
  ⟨60000, createTracing, self.fragmenter.serviceName, self.fragmenter.createHeaders⟩

def createFrames (self : RequestFragmenter) (it : Iter self.createFields.headers) : TResult (List TFrame) :=
  self.fragmenter.createFrames (self.createFields.encodeBytes it) .callRequest .callRequestContinue

end RequestFragmenter

structure ResponseFragmenter where
  fragmenter : Fragmenter
  responseCode : ResponseCode
deriving DecidableEq, Repr

namespace ResponseFragmenter

def new (serviceName : String) (responseCode : ResponseCode) (args : MessageArgs) : ResponseFragmenter :=
  ⟨Fragmenter.new serviceName args, responseCode⟩

def createResponseFields (self : ResponseFragmenter) : CallResponseFields :=
  ⟨self.responseCode, createTracing, self.fragmenter.createHeaders⟩

def createFrames (self : ResponseFragmenter) (it : Iter self.createResponseFields.headers) :
    TResult (List TFrame) :=
  self.fragmenter.createFrames (self.createResponseFields.encodeBytes it) .callResponse .callResponseContinue

end ResponseFragmenter

end Tchannel

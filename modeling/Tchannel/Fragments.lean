import Tchannel.Fragmentation
import Tchannel.PayloadBytes
import Tchannel.Reassembly

/-!
# Where the cuts fall

The frames of a message as lists of chunks (`frameChunks`), and what a defragmenter makes of them. Following
one arg at a time, all that matters is the room that is left in the frame where the arg starts: `resume`
is the outcome of the rest of the message from there, and `resume_cons` says what one arg does to it. The
arg goes in whole, or is cut and goes on in the next frames; two of its positions go wrong. If it ends
exactly with its frame, an empty arg appears behind it; if it starts where there is no room for its
length, it is glued to the arg before it. And an empty arg is written even where there is no room for
it, so that its frame becomes too long.
-/

namespace Tchannel
open Wire

/-- The bytes that chunks take in a frame. -/
def chunksLen (chunks : List (Option Bytes)) : Nat := (chunks.map fun c => 2 + argLen c).sum

@[simp] theorem chunksLen_nil : chunksLen [] = 0 := rfl

@[simp] theorem chunksLen_cons (c : Option Bytes) (cs : List (Option Bytes)) :
    chunksLen (c :: cs) = 2 + argLen c + chunksLen cs := by simp [chunksLen]

namespace ArgsFragmenter

@[simp] theorem argLen_chunk (b : Bytes) : argLen (chunk b) = b.length := by
  unfold chunk
  split <;> simp_all [argLen]

@[simp] theorem getD_chunk (b : Bytes) : (chunk b).getD [] = b := by
  unfold chunk
  split <;> simp_all

theorem chunk_ne {b : Bytes} (hb : b ≠ []) : chunk b = some b := if_neg hb

/-- The room for chunks in a continuation frame. -/
def continuationRoom : Int := 65516

theorem continuationRoom_pos : 0 < asI32 (continuationRoom - argLenLen) := by decide +kernel

theorem continuation_size_lt {queue : List Bytes} (hq : queue ≠ []) :
    queueSize (nextFrameArgsVec queue continuationRoom).2 < queueSize queue :=
  nextFrameArgsVec_size_lt hq continuationRoom_pos

/-- An induction over the continuation frames that empty the queue. -/
theorem continuation_induction {P : List Bytes → Prop} (nil : P [])
    (next : ∀ queue, queue ≠ [] → P (nextFrameArgsVec queue continuationRoom).2 → P queue) (queue : List Bytes) :
    P queue := by
  induction hn : queueSize queue using Nat.strong_induction_on generalizing queue with
  | _ n ih =>
    by_cases hq : queue = []
    · rw [hq]
      exact nil
    · exact next queue hq (ih _ (hn ▸ continuation_size_lt hq) _ rfl)

/-- The chunks of the continuation frames that empty the queue. -/
def continuationChunks (queue : List Bytes) : List (List (Option Bytes)) :=
  if queue.isEmpty then
    []
  else
    let next := nextFrameArgsVec queue continuationRoom
    next.1 :: continuationChunks next.2
termination_by queueSize queue
decreasing_by exact continuation_size_lt (by simp_all)

/-- The chunks of all frames, with `room` in the first. -/
def frameChunks (room : Int) (queue : List Bytes) : List (List (Option Bytes)) :=
  (nextFrameArgsVec queue room).1 :: continuationChunks (nextFrameArgsVec queue room).2

theorem continuationChunks_nil : continuationChunks [] = [] := by
  rw [continuationChunks]
  rfl

theorem continuationChunks_ne {queue : List Bytes} (hq : queue ≠ []) :
    continuationChunks queue = frameChunks continuationRoom queue := by
  rw [continuationChunks, if_neg (by simpa using hq)]
  rfl

/-! ### The outcome of the rest of a message -/

/-- The args after chunks of which the first is added by `join`. -/
def addChunks (join : List Bytes → Option Bytes → List Bytes) (args : List Bytes) :
    List (Option Bytes) → List Bytes
  | [] => args
  | c :: cs => join args c ++ cs.map (·.getD [])

/-- A chunk in the middle of a frame starts an arg. -/
def pushArg (args : List Bytes) (c : Option Bytes) : List Bytes := args ++ [c.getD []]

/-- The first chunk of a continuation frame. -/
def joinArg (args : List Bytes) (c : Option Bytes) : List Bytes :=
  ((ArgsDefragmenter.mk args).addFirstArg c).args

theorem add_eq_addChunks (args : List Bytes) (cs : List (Option Bytes)) :
    ((ArgsDefragmenter.mk args).add cs).args = addChunks joinArg args cs := by
  cases cs with
  | nil => rfl
  | cons c cs => rw [ArgsDefragmenter.add, ArgsDefragmenter.addRemainingArgs_args]; rfl

theorem addChunks_pushArg (args : List Bytes) (cs : List (Option Bytes)) :
    addChunks pushArg args cs = args ++ cs.map (·.getD []) := by
  cases cs with
  | nil => simp [addChunks]
  | cons c cs => simp [addChunks, pushArg]

/-- The args that a defragmenter holding `args` ends with when `queue` is sent in continuation frames;
nothing if a frame gets too long. -/
def restart (args queue : List Bytes) : Option (List Bytes) :=
  if ∀ cs ∈ continuationChunks queue, (chunksLen cs : Int) ≤ continuationRoom then
    some ((ArgsDefragmenter.mk args).addAll (continuationChunks queue)).args
  else none

/-- The same from inside a frame with `room` bytes left. -/
def frame (join : List Bytes → Option Bytes → List Bytes) (room : Int) (args queue : List Bytes) :
    Option (List Bytes) :=
  if (chunksLen (nextFrameArgsVec queue room).1 : Int) ≤ room then
    restart (addChunks join args (nextFrameArgsVec queue room).1) (nextFrameArgsVec queue room).2
  else none

def resume (room : Int) (args queue : List Bytes) : Option (List Bytes) := frame pushArg room args queue

theorem restart_nil (args : List Bytes) : restart args [] = some args := by
  simp [restart, continuationChunks_nil, ArgsDefragmenter.addAll]

theorem restart_ne {args queue : List Bytes} (hq : queue ≠ []) :
    restart args queue = frame joinArg continuationRoom args queue := by
  unfold frame restart
  rw [continuationChunks_ne hq, frameChunks]
  simp only [List.forall_mem_cons]
  by_cases hfit : (chunksLen (nextFrameArgsVec queue continuationRoom).1 : Int) ≤ continuationRoom
  · simp only [hfit, true_and, if_true, ArgsDefragmenter.addAll, List.foldl_cons]
    rw [← add_eq_addChunks]
  · simp only [hfit, false_and, if_false]

/-- The frames of a message all fit, and are put together to this. -/
theorem resume_first (room : Int) (args : List Bytes) :
    resume room [] args =
      if (chunksLen (nextFrameArgsVec args room).1 : Int) ≤ room ∧
          ∀ cs ∈ continuationChunks (nextFrameArgsVec args room).2, (chunksLen cs : Int) ≤ continuationRoom then
        some (ArgsDefragmenter.default.addAll (frameChunks room args)).args
      else none := by
  have hstart : ArgsDefragmenter.mk (addChunks pushArg [] (nextFrameArgsVec args room).1) =
      ArgsDefragmenter.default.add (nextFrameArgsVec args room).1 := by
    rw [addChunks_pushArg, List.nil_append, ← ArgsDefragmenter.default_add]
  unfold resume frame restart
  rw [hstart]
  by_cases hfit : (chunksLen (nextFrameArgsVec args room).1 : Int) ≤ room
  · simp only [hfit, true_and, if_true]
    rfl
  · simp only [hfit, false_and, if_false]

/-! ### One arg -/

section

variable {join : List Bytes → Option Bytes → List Bytes} {room : Int} {args : List Bytes} {arg : Bytes}
  {queue : List Bytes}

theorem asI32_room (hr : -2147483646 ≤ room) (hr' : room ≤ continuationRoom) :
    asI32 (room - argLenLen) = room - 2 := by
  unfold continuationRoom at hr'
  exact asI32_of_lt (by unfold argLenLen; omega) (by unfold argLenLen; omega)

theorem asI32_length (ha : arg.length < 2147483648) : asI32 arg.length = arg.length :=
  asI32_of_lt (by omega) (by omega)

theorem resume_nil : resume room args [] = if 0 ≤ room then some args else none := by
  simp [resume, frame, nextFrameArgsVec, addChunks, restart_nil]

theorem frame_go_on {c : Option Bytes} {room' : Int}
    (hnext : nextFrameArgsVec (arg :: queue) room =
      (c :: (nextFrameArgsVec queue room').1, (nextFrameArgsVec queue room').2))
    (hroom : room' = room - 2 - argLen c) :
    frame join room args (arg :: queue) = resume room' (join args c) queue := by
  have hfit : (chunksLen (c :: (nextFrameArgsVec queue room').1) : Int) ≤ room ↔
      (chunksLen (nextFrameArgsVec queue room').1 : Int) ≤ room' := by
    rw [chunksLen_cons]
    omega
  unfold resume frame
  rw [hnext, addChunks_pushArg]
  simp only [hfit]
  rfl

theorem frame_empty (hr : -2147483646 ≤ room) (hr' : room ≤ continuationRoom) :
    frame join room args ([] :: queue) = resume (room - 2) (join args none) queue := by
  rcases nextFrameArgsVec_cons [] queue (asI32_room hr hr') with ⟨-, heq⟩ | ⟨h0, -⟩ | ⟨h0, h0', -⟩ | ⟨h0, -⟩ | ⟨h0, -⟩
  · exact frame_go_on heq (by simp [argLen])
  · exact absurd (asI32_length (by simp)) h0
  · rw [asI32_length (by simp), List.length_nil] at h0'
    omega
  · exact absurd (asI32_length (by simp)) h0
  · exact absurd (asI32_length (by simp)) h0

theorem frame_full (hr : -2147483646 ≤ room) (hr' : room < 2) (harg : arg ≠ [])
    (ha : arg.length < 2147483648) :
    frame join room args (arg :: queue) = if 0 ≤ room then restart args (arg :: queue) else none := by
  have hpos := List.length_pos_of_ne_nil harg
  have hlen := asI32_length ha
  have hroom : room ≤ continuationRoom := by unfold continuationRoom; omega
  rcases nextFrameArgsVec_cons arg queue (asI32_room hr hroom) with
    ⟨h0, -⟩ | ⟨-, -, heq⟩ | ⟨h0, -⟩ | ⟨-, h0, -⟩ | ⟨-, h0, -⟩
  · omega
  · unfold frame
    rw [heq]
    simp [addChunks]
  · omega
  · omega
  · omega

theorem frame_cut (hr : 2 ≤ room) (hr' : room ≤ continuationRoom) (ha : arg.length < 2147483648)
    (hlong : room - 2 < arg.length) :
    frame join room args (arg :: queue) =
      restart (join args (chunk (arg.take (room - 2).toNat))) (arg.drop (room - 2).toNat :: queue) := by
  have hlen := asI32_length ha
  rcases nextFrameArgsVec_cons arg queue (asI32_room (by omega) hr') with
    ⟨h0, -⟩ | ⟨-, h0, -⟩ | ⟨-, -, heq⟩ | ⟨-, -, h0, -⟩ | ⟨-, -, h0, -⟩
  · omega
  · omega
  · unfold frame
    rw [heq]
    rw [if_pos]
    · simp [addChunks]
    · simp only [chunksLen_cons, argLen_chunk, List.length_take, chunksLen_nil]
      omega
  · omega
  · omega

/-- An arg that fills the frame leaves an empty arg in the queue. -/
theorem frame_fill (hr' : room ≤ continuationRoom) (harg : arg ≠ [])
    (hfill : (arg.length : Int) = room - 2) :
    frame join room args (arg :: queue) = restart (join args (some arg)) ([] :: queue) := by
  have hpos := List.length_pos_of_ne_nil harg
  have hroom := hr'
  unfold continuationRoom at hroom
  have hlen := asI32_length (show arg.length < 2147483648 by omega)
  rcases nextFrameArgsVec_cons arg queue (asI32_room (by omega) hr') with
    ⟨h0, -⟩ | ⟨-, h0, -⟩ | ⟨-, h0, -⟩ | ⟨-, -, -, heq⟩ | ⟨-, -, h0, -⟩
  · omega
  · omega
  · omega
  · unfold frame
    rw [heq, if_pos]
    · simp [addChunks]
    · simp only [chunksLen_cons, argLen, Option.getD_some, chunksLen_nil]
      omega
  · omega

theorem frame_whole (hr' : room ≤ continuationRoom) (harg : arg ≠ [])
    (hshort : (arg.length : Int) < room - 2) :
    frame join room args (arg :: queue) = resume (room - 2 - arg.length) (join args (some arg)) queue := by
  have hpos := List.length_pos_of_ne_nil harg
  have hroom := hr'
  unfold continuationRoom at hroom
  have hlen := asI32_length (show arg.length < 2147483648 by omega)
  have hrest : asI32 (room - 2 - asI32 arg.length) = room - 2 - arg.length := by
    rw [hlen]
    exact asI32_of_lt (by omega) (by omega)
  rcases nextFrameArgsVec_cons arg queue (asI32_room (by omega) hr') with
    ⟨h0, -⟩ | ⟨-, h0, -⟩ | ⟨-, h0, -⟩ | ⟨-, -, h0, -⟩ | ⟨-, -, -, heq⟩
  · omega
  · omega
  · omega
  · omega
  · rw [hrest] at heq
    exact frame_go_on heq (by simp [argLen])

/-! ### An arg and its continuations -/

theorem joinArg_some (hargs : args ≠ []) (b : Bytes) :
    joinArg args (some b) = args.dropLast ++ [args.getLastD [] ++ b] :=
  ArgsDefragmenter.addFirstArg_some (d := ⟨args⟩) hargs b

theorem joinArg_ne_nil (hargs : args ≠ []) (b : Bytes) : joinArg args (some b) ≠ [] := by
  simp [joinArg_some hargs]

theorem joinArg_append (hargs : args ≠ []) (b b' : Bytes) :
    joinArg (joinArg args (some b)) (some b') = joinArg args (some (b ++ b')) := by
  rw [joinArg_some (joinArg_ne_nil hargs b), joinArg_some hargs, joinArg_some hargs]
  simp

theorem joinArg_pushArg (b b' : Bytes) : joinArg (args ++ [b]) (some b') = args ++ [b ++ b'] := by
  rw [joinArg_some (by simp)]
  simp

/-- Behind an arg of which `n` bytes were in continuation frames. -/
def finish (n : Nat) (args queue : List Bytes) : Option (List Bytes) :=
  if n % 65514 = 0 then resume 65514 (args ++ [[]]) queue else resume (65514 - (n % 65514 : Nat)) args queue

theorem restart_empty : restart args ([] :: queue) = resume 65514 (args ++ [[]]) queue := by
  rw [restart_ne (by simp), frame_empty (by decide) (by decide)]
  rfl

/-- An arg at the start of a continuation frame goes on with the last arg, over as many frames as it takes. -/
theorem restart_cons (hargs : args ≠ []) (harg : arg ≠ []) (ha : arg.length < 2147483648) :
    restart args (arg :: queue) = finish arg.length (joinArg args (some arg)) queue := by
  induction hn : arg.length using Nat.strong_induction_on generalizing arg args with
  | _ n ih =>
    have hpos := List.length_pos_of_ne_nil harg
    rw [restart_ne (by simp)]
    rcases lt_trichotomy n 65514 with hlt | heq | hgt
    · rw [frame_whole (by decide) harg (by unfold continuationRoom; omega), finish,
        Nat.mod_eq_of_lt hlt, if_neg (by omega), hn]
      rfl
    · rw [frame_fill (by decide) harg (by unfold continuationRoom; omega), restart_empty, finish, heq]
      rfl
    · have htake : (continuationRoom - 2).toNat = 65514 := by decide
      have hne : arg.take 65514 ≠ [] := by
        rw [ne_eq, List.take_eq_nil_iff]
        simp [harg]
      have hdrop : (arg.drop 65514).length = n - 65514 := by rw [List.length_drop, hn]
      rw [frame_cut (by decide) (by decide) ha (by unfold continuationRoom; omega), htake, chunk_ne hne,
        ih (n - 65514) (by omega) (joinArg_ne_nil hargs _) (List.ne_nil_of_length_pos (by omega))
          (by omega) hdrop,
        joinArg_append hargs, List.take_append_drop]
      unfold finish
      rw [show (n - 65514) % 65514 = n % 65514 by omega]

/-! ### The room along a message -/

/-- The room of the frame in which an arg that finds `room` bytes gets its first chunk. -/
def startRoom (room : Int) : Int := if room < 2 then continuationRoom else room

/-- An arg of `n` bytes ends exactly where a frame ends. -/
def EndsFrame (room : Int) (n : Nat) : Prop :=
  startRoom room - 2 ≤ n ∧ (n - (startRoom room - 2)) % 65514 = 0

instance (room : Int) (n : Nat) : Decidable (EndsFrame room n) := inferInstanceAs (Decidable (_ ∧ _))

/-- The room behind an arg of `n` bytes. -/
def roomAfter (room : Int) (n : Nat) : Int :=
  if n = 0 then room - 2
  else if n < startRoom room - 2 then startRoom room - 2 - n
  else 65514 - (n - (startRoom room - 2)) % 65514

/-- The args after one more arg. -/
def place (room : Int) (args : List Bytes) (arg : Bytes) : List Bytes :=
  if arg = [] then args ++ [[]]
  else
    (if room < 2 then joinArg args (some arg) else args ++ [arg]) ++
      if EndsFrame room arg.length then [[]] else []

theorem resume_neg (hneg : room < 0) (hbound : 2 * (queue.length : Int) - 2147483646 ≤ room)
    (hq : ∀ a ∈ queue, a.length < 2147483648) : resume room args queue = none := by
  induction queue generalizing room args with
  | nil => rw [resume_nil, if_neg (by omega)]
  | cons arg queue ih =>
    rw [List.length_cons] at hbound
    have hroom : room ≤ continuationRoom := by unfold continuationRoom; omega
    by_cases harg : arg = []
    · subst harg
      rw [resume, frame_empty (by omega) hroom]
      exact ih (by omega) (by omega) fun a ha => hq a (by simp [ha])
    · rw [resume, frame_full (by omega) (by omega) harg (hq arg (by simp)), if_neg (by omega)]

theorem endsFrame_iff {k n : Nat} (hr : startRoom room - 2 ≤ n)
    (hk : ((k % 65514 : Nat) : Int) = (n - (startRoom room - 2)) % 65514) :
    EndsFrame room n ↔ k % 65514 = 0 := by
  unfold EndsFrame
  rw [← hk]
  omega

theorem roomAfter_cut {k n : Nat} (hn : n ≠ 0) (hr : startRoom room - 2 ≤ n)
    (hk : ((k % 65514 : Nat) : Int) = (n - (startRoom room - 2)) % 65514) :
    roomAfter room n = 65514 - (k % 65514 : Nat) := by
  unfold roomAfter
  rw [if_neg hn, if_neg (by omega), hk]

/-- An arg that was cut: `k` of its bytes went into continuation frames. -/
theorem finish_eq {k n : Nat} (hn : n ≠ 0) (hr : startRoom room - 2 ≤ n)
    (hk : ((k % 65514 : Nat) : Int) = (n - (startRoom room - 2)) % 65514) :
    finish k args queue =
      resume (roomAfter room n) (args ++ if EndsFrame room n then [[]] else []) queue := by
  have hends := endsFrame_iff hr hk
  rw [roomAfter_cut hn hr hk, finish]
  by_cases h0 : k % 65514 = 0
  · rw [if_pos h0, if_pos (hends.2 h0), h0]
    rfl
  · rw [if_neg h0, if_neg (fun h => h0 (hends.1 h)), List.append_nil]

theorem resume_whole {n : Nat} (hn : n ≠ 0) (hr : n < startRoom room - 2) :
    resume (startRoom room - 2 - n) args queue =
      resume (roomAfter room n) (args ++ if EndsFrame room n then [[]] else []) queue := by
  have hends : ¬ EndsFrame room n := fun h => absurd h.1 (by omega)
  rw [if_neg hends, List.append_nil, roomAfter, if_neg hn, if_pos hr]

theorem resume_cons (hr : 0 ≤ room) (hr' : room ≤ continuationRoom) (hargs : room < 2 → args ≠ [])
    (hq : ∀ a ∈ arg :: queue, a.length < 2147483648) (hcount : queue.length ≤ 1000) :
    resume room args (arg :: queue) =
      if arg = [] ∧ room < 2 then none else resume (roomAfter room arg.length) (place room args arg) queue := by
  have ha := hq arg (by simp)
  by_cases harg : arg = []
  · subst harg
    rw [resume, frame_empty (by omega) hr']
    by_cases hroom : room < 2
    · rw [if_pos ⟨rfl, hroom⟩]
      exact resume_neg (by omega) (by omega) fun a ha => hq a (by simp [ha])
    · rw [if_neg (fun h => hroom h.2)]
      rfl
  · rw [if_neg (fun h => harg h.1)]
    have hpos := List.length_pos_of_ne_nil harg
    simp only [place, if_neg harg]
    by_cases hroom : room < 2
    · have hstart : startRoom room = 65516 := if_pos hroom
      rw [if_pos hroom, resume, frame_full (by omega) hroom harg ha, if_pos hr,
        restart_cons (hargs hroom) harg ha]
      by_cases hlong : startRoom room - 2 ≤ arg.length
      · exact finish_eq (by omega) hlong (by omega)
      · rw [← resume_whole (by omega) (by omega), finish, if_neg (by omega), hstart,
          Nat.mod_eq_of_lt (by omega)]
        rfl
    · have hstart : startRoom room = room := if_neg hroom
      rw [if_neg hroom, resume]
      rcases lt_trichotomy (arg.length : Int) (room - 2) with hlt | heq | hgt
      · rw [frame_whole hr' harg hlt, ← resume_whole (by omega) (by omega), hstart]
        rfl
      · rw [frame_fill hr' harg heq, restart_empty, ← finish_eq (k := 0) (by omega) (by omega) (by omega)]
        rfl
      · have hdrop : (arg.drop (room - 2).toNat).length = arg.length - (room - 2).toNat := by simp
        rw [frame_cut (by omega) hr' ha hgt, pushArg, getD_chunk,
          restart_cons (by simp) (List.ne_nil_of_length_pos (by omega)) (by omega), joinArg_pushArg,
          List.take_append_drop, hdrop]
        exact finish_eq (by omega) (by omega) (by omega)

end

/-! ### Whole messages -/

/-- The room at the start of each arg, with the length of the arg. -/
def starts (room : Int) : List Nat → List (Int × Nat)
  | [] => []
  | n :: lengths => (room, n) :: starts (roomAfter room n) lengths

/-- An empty arg where there is no room for its length. -/
def Overdrawn (start : Int × Nat) : Prop := start.2 = 0 ∧ start.1 < 2

/-- An arg that finds room for its length and does not end with its frame; or an empty one. -/
def CutCleanly (start : Int × Nat) : Prop := start.2 ≠ 0 → 2 ≤ start.1 ∧ ¬ EndsFrame start.1 start.2

instance (start : Int × Nat) : Decidable (Overdrawn start) := inferInstanceAs (Decidable (_ ∧ _))

instance (start : Int × Nat) : Decidable (CutCleanly start) := inferInstanceAs (Decidable (_ → _))

/-- The args that a defragmenter makes of a message, from an arg that finds `room` bytes on. -/
def rebuild (room : Int) (args : List Bytes) : List Bytes → List Bytes
  | [] => args
  | arg :: queue => rebuild (roomAfter room arg.length) (place room args arg) queue

section

variable {room : Int} {args : List Bytes} {arg : Bytes} {queue : List Bytes}

theorem roomAfter_bounds {n : Nat} (hr : 0 ≤ room) (hr' : room ≤ continuationRoom)
    (h : ¬ Overdrawn (room, n)) : 0 ≤ roomAfter room n ∧ roomAfter room n ≤ continuationRoom := by
  have hstart : startRoom room ≤ continuationRoom := by
    unfold startRoom
    split <;> omega
  unfold Overdrawn at h
  unfold continuationRoom at *
  unfold roomAfter
  split
  · omega
  · split <;> omega

theorem place_ne_nil (hargs : room < 2 → args ≠ []) : place room args arg ≠ [] := by
  unfold place
  split
  · simp
  · split
    · rename_i hroom
      simp [joinArg_ne_nil (hargs hroom)]
    · simp

theorem resume_eq_rebuild (hr : 0 ≤ room) (hr' : room ≤ continuationRoom) (hargs : room < 2 → args ≠ [])
    (hq : ∀ a ∈ queue, a.length < 2147483648) (hcount : queue.length ≤ 1000) :
    resume room args queue =
      if ∃ p ∈ starts room (queue.map List.length), Overdrawn p then none
      else some (rebuild room args queue) := by
  induction queue generalizing room args with
  | nil => simp [resume_nil, hr, starts, rebuild]
  | cons arg queue ih =>
    rw [resume_cons hr hr' hargs hq (by simp at hcount; omega), List.map_cons, starts]
    have hnil : arg = [] ↔ arg.length = 0 := List.length_eq_zero_iff.symm
    by_cases hover : Overdrawn (room, arg.length)
    · rw [if_pos ⟨hnil.2 hover.1, hover.2⟩, if_pos ⟨_, by simp, hover⟩]
    · obtain ⟨hlow, hhigh⟩ := roomAfter_bounds hr hr' hover
      rw [if_neg (fun h => hover ⟨hnil.1 h.1, h.2⟩),
        ih hlow hhigh (fun _ => place_ne_nil hargs) (fun a ha => hq a (by simp [ha]))
          (by simp at hcount; omega)]
      simp only [rebuild, List.exists_mem_cons_iff, hover, false_or]

/-- Cut cleanly, the args come back as they were. -/
theorem rebuild_eq_of_clean (h : ∀ p ∈ starts room (queue.map List.length), CutCleanly p) :
    rebuild room args queue = args ++ queue := by
  induction queue generalizing room args with
  | nil => simp [rebuild]
  | cons arg queue ih =>
    rw [List.map_cons, starts] at h
    have hplace : place room args arg = args ++ [arg] := by
      by_cases harg : arg = []
      · simp [place, harg]
      · obtain ⟨hroom, hends⟩ := h (room, arg.length) (by simp) (by simpa using harg)
        rw [place, if_neg harg, if_neg (by omega), if_neg hends, List.append_nil]
    rw [rebuild, hplace, ih fun p hp => h p (by simp [hp])]
    simp

theorem rebuild_append_singleton (room : Int) (args queue : List Bytes) (last : Bytes) :
    ∃ more rest, rebuild room (args ++ [last]) queue = args ++ (last ++ more) :: rest := by
  induction queue generalizing room args last with
  | nil => exact ⟨[], [], by simp [rebuild]⟩
  | cons arg queue ih =>
    have hpush : ∀ (room' : Int) (l : List Bytes) (x : Bytes),
        ∃ more rest, rebuild room' (args ++ [last] ++ l ++ [x]) queue = args ++ (last ++ more) :: rest := by
      intro room' l x
      obtain ⟨more, rest, h⟩ := ih room' (args ++ [last] ++ l) x
      exact ⟨[], l ++ (x ++ more) :: rest, by simpa using h⟩
    rw [rebuild, place]
    split
    · simpa using hpush _ [] []
    · split <;> split
      · rw [joinArg_pushArg]
        obtain ⟨more, rest, h⟩ := ih (roomAfter room arg.length) (args ++ [last ++ arg]) []
        exact ⟨arg, ([] ++ more) :: rest, by simpa using h⟩
      · rw [joinArg_pushArg, List.append_nil]
        obtain ⟨more, rest, h⟩ := ih (roomAfter room arg.length) args (last ++ arg)
        exact ⟨arg ++ more, rest, by simpa using h⟩
      · simpa using hpush _ [arg] []
      · simpa using hpush _ [] arg

/-- An arg that was glued to the one before it is not undone by what follows. -/
theorem rebuild_glued (hroom : room < 2) (harg : arg ≠ []) (hargs : args ≠ []) :
    rebuild room args (arg :: queue) ≠ args ++ arg :: queue := by
  obtain ⟨init, last, rfl⟩ := List.eq_nil_or_concat args |>.resolve_left hargs
  intro h
  rw [List.concat_eq_append, rebuild, place, if_neg harg, if_pos hroom, joinArg_pushArg] at h
  have hshape : ∃ more rest, rebuild (roomAfter room arg.length)
      ((init ++ [last ++ arg]) ++ if EndsFrame room arg.length then [[]] else []) queue =
        init ++ (last ++ arg ++ more) :: rest := by
    split
    · obtain ⟨more, rest, h⟩ :=
        rebuild_append_singleton (roomAfter room arg.length) (init ++ [last ++ arg]) queue []
      exact ⟨[], ([] ++ more) :: rest, by simpa using h⟩
    · rw [List.append_nil]
      exact rebuild_append_singleton _ _ _ (last ++ arg)
  obtain ⟨more, rest, hshape⟩ := hshape
  rw [hshape] at h
  have hlast : last ++ arg ++ more = last := by
    have := List.append_cancel_left (h.trans (List.append_assoc init [last] (arg :: queue)))
    exact (List.cons.inj this).1
  have := congrArg List.length hlast
  have hpos := List.length_pos_of_ne_nil harg
  simp only [List.length_append] at this
  omega

/-- An extra empty arg stays there, as long as empty args alone cannot fill the frame. -/
theorem rebuild_extra (room : Int) (args queue : List Bytes) (hroom : 2 + 2 * (queue.length : Int) ≤ room) :
    rebuild room (args ++ [[]]) queue ≠ args ++ queue := by
  induction queue generalizing room args with
  | nil =>
    intro h
    simpa [rebuild] using congrArg List.length h
  | cons arg queue ih =>
    rw [List.length_cons] at hroom
    intro h
    by_cases harg : arg = []
    · subst harg
      refine ih (room - 2) (args ++ [[]]) (by omega) ?_
      simpa [rebuild, place, roomAfter] using h
    · rw [rebuild, place, if_neg harg, if_neg (by omega)] at h
      have hshape : ∃ rest, rebuild (roomAfter room arg.length)
          ((args ++ [[]] ++ [arg]) ++ if EndsFrame room arg.length then [[]] else []) queue =
            args ++ [] :: rest := by
        split
        · obtain ⟨more, rest, h⟩ := rebuild_append_singleton (roomAfter room arg.length)
            (args ++ [[]] ++ [arg]) queue []
          exact ⟨_, by simpa using h⟩
        · obtain ⟨more, rest, h⟩ := rebuild_append_singleton (roomAfter room arg.length)
            (args ++ [[]]) queue arg
          exact ⟨_, by simpa using h⟩
      obtain ⟨rest, hshape⟩ := hshape
      rw [hshape] at h
      exact harg (List.cons.inj (List.append_cancel_left h)).1.symm

theorem roomAfter_endsFrame {n : Nat} (hn : n ≠ 0) (h : EndsFrame room n) : roomAfter room n = 65514 := by
  obtain ⟨hle, hmod⟩ := h
  rw [roomAfter, if_neg hn, if_neg (by omega), hmod]
  rfl

theorem clean_of_rebuild_eq (hargs : room < 2 → args ≠ []) (hcount : queue.length ≤ 1000)
    (h : rebuild room args queue = args ++ queue) :
    ∀ p ∈ starts room (queue.map List.length), CutCleanly p := by
  induction queue generalizing room args with
  | nil => simp [starts]
  | cons arg queue ih =>
    rw [List.length_cons] at hcount
    have hstep : ∀ hplace : place room args arg = args ++ [arg],
        ∀ p ∈ starts (roomAfter room arg.length) (queue.map List.length), CutCleanly p := by
      intro hplace
      rw [rebuild, hplace] at h
      have hrest : rebuild (roomAfter room arg.length) (args ++ [arg]) queue = args ++ [arg] ++ queue := by
        simpa using h
      exact ih (by simp) (by omega) hrest
    rw [List.map_cons, starts, List.forall_mem_cons]
    by_cases harg : arg = []
    · exact ⟨fun h0 => absurd (by simp [harg]) h0, hstep (by simp [place, harg])⟩
    · have hn : arg.length ≠ 0 := by simpa using harg
      by_cases hroom : room < 2
      · exact absurd h (rebuild_glued hroom harg (hargs hroom))
      · by_cases hends : EndsFrame room arg.length
        · rw [rebuild, roomAfter_endsFrame hn hends, place, if_neg harg, if_neg hroom, if_pos hends] at h
          have := rebuild_extra 65514 (args ++ [arg]) queue (by omega)
          exact absurd (by simpa using h) this
        · refine ⟨fun _ => ⟨Int.not_lt.1 hroom, hends⟩, hstep ?_⟩
          rw [place, if_neg harg, if_neg hroom, if_neg hends, List.append_nil]

end

end ArgsFragmenter

end Tchannel

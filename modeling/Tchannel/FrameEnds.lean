import Tchannel.Fragments

/-!
# How frames end

A frame ends because the queue has run out, or because of one arg: the arg is split, fills the frame, or finds
no room for its length and waits for the next frame. `frameEnd` follows `nextFrameArgsVec` and says
which; `frameEnd_spec` says what the frame's chunks and the queue behind it then are. For a whole message,
`faults` lists the ends of the last two kinds, and `faults_cons` reads them off the room that each arg
finds.
-/

namespace Tchannel
open Wire

/-- Why `next_frame_args_vec` returned. -/
inductive FrameEnd where
  /-- The queue is empty. -/
  | drained
  /-- `Incomplete` with a fragment. -/
  | split
  /-- `CompleteAtTheEnd`. -/
  | filled
  /-- `Incomplete` without a fragment. -/
  | full
deriving DecidableEq, Repr

namespace ArgsFragmenter

def frameEnd : List Bytes → Int → FrameEnd
  | [], _ => .drained
  | arg :: args, payloadLimit =>
    let payloadLimit := asI32 (payloadLimit - argLenLen)
    let next := nextArgFragment arg payloadLimit
    match next.1 with
    | .incomplete => if next.2.1.isSome then .split else .full
    | .completeAtTheEnd => .filled
    | .complete => frameEnd args (pushFragment next.2.1 payloadLimit).2

theorem frameEnd_cons (arg : Bytes) (args : List Bytes) {limit l : Int}
    (hl : asI32 (limit - argLenLen) = l) :
    (asI32 arg.length = 0 ∧ frameEnd (arg :: args) limit = frameEnd args l ∧
      nextFrameArgsVec (arg :: args) limit =
        (none :: (nextFrameArgsVec args l).1, (nextFrameArgsVec args l).2)) ∨
    (asI32 arg.length ≠ 0 ∧ l < 0 ∧ frameEnd (arg :: args) limit = .full ∧
      nextFrameArgsVec (arg :: args) limit = ([], arg :: args)) ∨
    (0 ≤ l ∧ l < asI32 arg.length ∧ frameEnd (arg :: args) limit = .split ∧
      nextFrameArgsVec (arg :: args) limit = ([chunk (arg.take l.toNat)], arg.drop l.toNat :: args)) ∨
    (asI32 arg.length ≠ 0 ∧ 0 ≤ l ∧ asI32 arg.length = l ∧ frameEnd (arg :: args) limit = .filled ∧
      nextFrameArgsVec (arg :: args) limit = ([some arg], [] :: args)) ∨
    (asI32 arg.length ≠ 0 ∧ 0 ≤ l ∧ asI32 arg.length < l ∧
      frameEnd (arg :: args) limit = frameEnd args (asI32 (l - asI32 arg.length)) ∧
      nextFrameArgsVec (arg :: args) limit =
        (some arg :: (nextFrameArgsVec args (asI32 (l - asI32 arg.length))).1,
          (nextFrameArgsVec args (asI32 (l - asI32 arg.length))).2)) := by
  rcases nextFrameArgsVec_cons arg args hl with
    ⟨h0, heq⟩ | ⟨h0, hneg, heq⟩ | ⟨hpos, hlt, heq⟩ | ⟨h0, hpos, he, heq⟩ | ⟨h0, hpos, hlt, heq⟩ <;>
  rcases nextArgFragment_cases arg l with
    ⟨h0', hfrag⟩ | ⟨h0', hneg', hfrag⟩ | ⟨hpos', hlt', hfrag⟩ | ⟨h0', hpos', he', hfrag⟩ |
      ⟨h0', hpos', hlt', hfrag⟩ <;> first | omega | skip
  · exact .inl ⟨h0, by simp only [frameEnd, hl, hfrag, pushFragment]; rfl, heq⟩
  · exact .inr (.inl ⟨h0, hneg, by simp only [frameEnd, hl, hfrag]; rfl, heq⟩)
  · exact .inr (.inr (.inl ⟨hpos, hlt, by simp only [frameEnd, hl, hfrag]; rfl, heq⟩))
  · exact .inr (.inr (.inr (.inl ⟨h0, hpos, he, by simp only [frameEnd, hl, hfrag], heq⟩)))
  · have hne : arg ≠ [] := List.ne_nil_of_length_pos (asI32_ne_zero h0)
    refine .inr (.inr (.inr (.inr ⟨h0, hpos, hlt, ?_, heq⟩)))
    simp only [frameEnd, hl, hfrag, (pushFragment_some arg l).2 hne]

/-- What a frame holds and leaves, by its end. -/
def Leaves (queue : List Bytes) (chunks : List (Option Bytes)) (rest : List Bytes) : FrameEnd → Prop
  | .drained => rest = [] ∧ chunks.map (·.getD []) = queue
  | .split | .filled => ∃ args x y more,
      chunks.map (·.getD []) = args ++ [x] ∧ rest = y :: more ∧ queue = args ++ (x ++ y) :: more
  | .full => rest ≠ [] ∧ queue = chunks.map (·.getD []) ++ rest

theorem Leaves.cons {queue : List Bytes} {chunks : List (Option Bytes)} {rest : List Bytes} {e : FrameEnd}
    (h : Leaves queue chunks rest e) (c : Option Bytes) :
    Leaves (c.getD [] :: queue) (c :: chunks) rest e := by
  cases e with
  | drained => exact ⟨h.1, by rw [List.map_cons, h.2]⟩
  | split | filled =>
    obtain ⟨args, x, y, more, hchunks, hrest, rfl⟩ := h
    exact ⟨c.getD [] :: args, x, y, more, by rw [List.map_cons, hchunks]; rfl, hrest, rfl⟩
  | full => exact ⟨h.1, by rw [h.2]; rfl⟩

theorem frameEnd_spec {queue : List Bytes} (hq : ∀ a ∈ queue, a.length < 2147483648) (limit : Int) :
    Leaves queue (nextFrameArgsVec queue limit).1 (nextFrameArgsVec queue limit).2 (frameEnd queue limit) := by
  induction queue generalizing limit with
  | nil => exact ⟨rfl, rfl⟩
  | cons arg queue ih =>
    have hlen := asI32_length (hq arg (by simp))
    have hrec := ih fun a ha => hq a (by simp [ha])
    rcases frameEnd_cons arg queue (rfl : asI32 (limit - argLenLen) = _) with
      ⟨h0, hend, heq⟩ | ⟨-, -, hend, heq⟩ | ⟨-, -, hend, heq⟩ | ⟨-, -, -, hend, heq⟩ | ⟨-, -, -, hend, heq⟩ <;>
      rw [hend, heq]
    · obtain rfl : arg = [] := List.length_eq_zero_iff.1 (by omega)
      exact (hrec _).cons none
    · exact ⟨by simp, rfl⟩
    · exact ⟨[], _, _, queue, by rw [List.map_singleton, getD_chunk]; rfl, rfl, by
        rw [List.take_append_drop]; rfl⟩
    · exact ⟨[], arg, [], queue, rfl, rfl, by simp⟩
    · exact (hrec _).cons (some arg)

theorem frameEnd_eq_drained {queue : List Bytes} (hq : ∀ a ∈ queue, a.length < 2147483648) (limit : Int) :
    frameEnd queue limit = .drained ↔ (nextFrameArgsVec queue limit).2 = [] := by
  have hspec := frameEnd_spec hq limit
  constructor
  · intro h
    rw [h] at hspec
    exact hspec.1
  · intro h
    cases hend : frameEnd queue limit with
    | drained => rfl
    | split | filled =>
      rw [hend] at hspec
      obtain ⟨args, x, y, more, -, hrest, -⟩ := hspec
      rw [h] at hrest
      cases hrest
    | full =>
      rw [hend] at hspec
      exact absurd h hspec.1

theorem chunksLen_of_not_drained {queue : List Bytes} (hq : ∀ a ∈ queue, a.length < 2147483648)
    {room : Int} (hr' : room ≤ continuationRoom)
    (hfit : (chunksLen (nextFrameArgsVec queue room).1 : Int) ≤ room) (hend : frameEnd queue room ≠ .drained) :
    room - 1 ≤ chunksLen (nextFrameArgsVec queue room).1 := by
  induction queue generalizing room with
  | nil => exact absurd rfl hend
  | cons arg queue ih =>
    have hlen := asI32_length (hq arg (by simp))
    have hroom := asI32_room (show -2147483646 ≤ room by omega) hr'
    have hbound := hr'
    unfold continuationRoom at hbound
    rcases frameEnd_cons arg queue hroom with
      ⟨h0, he, heq⟩ | ⟨-, hneg, -, heq⟩ | ⟨hpos, hlt, -, heq⟩ | ⟨-, -, hfill, -, heq⟩ | ⟨-, -, hlt, he, heq⟩
    · rw [heq, chunksLen_cons, argLen_none] at hfit ⊢
      have := ih (fun a ha => hq a (by simp [ha])) (by omega) (by omega) (he ▸ hend)
      omega
    · rw [heq] at hfit ⊢
      rw [chunksLen_nil] at hfit ⊢
      omega
    · rw [heq, chunksLen_cons, argLen_chunk, chunksLen_nil, List.length_take]
      omega
    · rw [heq, chunksLen_cons, argLen_some, chunksLen_nil]
      omega
    · have hrest : asI32 (room - 2 - asI32 arg.length) = room - 2 - arg.length := by
        rw [hlen]
        exact asI32_of_lt (by omega) (by omega)
      rw [hrest] at he heq
      rw [heq, chunksLen_cons, argLen_some] at hfit ⊢
      have := ih (fun a ha => hq a (by simp [ha])) (by omega) (by omega) (he ▸ hend)
      omega

theorem nextFrameArgsVec_short {n : Nat} {queue : List Bytes} (hq : ∀ a ∈ queue, a.length < n) (limit : Int) :
    ∀ a ∈ (nextFrameArgsVec queue limit).2, a.length < n := by
  induction queue generalizing limit with
  | nil => simp [nextFrameArgsVec]
  | cons arg queue ih =>
    have ha := hq arg (by simp)
    have hrec := ih fun a ha => hq a (by simp [ha])
    rcases nextFrameArgsVec_cons arg queue (rfl : asI32 (limit - argLenLen) = _) with
      ⟨-, heq⟩ | ⟨-, -, heq⟩ | ⟨-, -, heq⟩ | ⟨-, -, -, heq⟩ | ⟨-, -, -, heq⟩ <;> rw [heq]
    · exact hrec _
    · exact hq
    · rw [List.forall_mem_cons, List.length_drop]
      exact ⟨by omega, fun a ha => hq a (by simp [ha])⟩
    · rw [List.forall_mem_cons, List.length_nil]
      exact ⟨by omega, fun a ha => hq a (by simp [ha])⟩
    · exact hrec _

/-! ### The ends of all frames -/

/-- How the continuation frames end that empty the queue. -/
def continuationEnds (queue : List Bytes) : List FrameEnd :=
  if queue.isEmpty then
    []
  else
    frameEnd queue continuationRoom :: continuationEnds (nextFrameArgsVec queue continuationRoom).2
termination_by queueSize queue
decreasing_by exact continuation_size_lt (by simp_all)

/-- How all frames end, with `room` in the first. -/
def frameEnds (room : Int) (queue : List Bytes) : List FrameEnd :=
  frameEnd queue room :: continuationEnds (nextFrameArgsVec queue room).2

theorem continuationEnds_nil : continuationEnds [] = [] := by
  rw [continuationEnds]
  rfl

theorem continuationEnds_ne {queue : List Bytes} (hq : queue ≠ []) :
    continuationEnds queue = frameEnds continuationRoom queue := by
  rw [continuationEnds, if_neg (by simpa using hq)]
  rfl

/-- An induction over the frames of a message. -/
theorem frames_induction {P : Int → List Bytes → Prop}
    (step : ∀ room queue, ((nextFrameArgsVec queue room).2 ≠ [] →
      P continuationRoom (nextFrameArgsVec queue room).2) → P room queue) (room : Int) (queue : List Bytes) :
    P room queue := by
  have hcont : ∀ queue, queue ≠ [] → P continuationRoom queue := by
    intro queue
    induction queue using continuation_induction with
    | nil => exact fun hq => absurd rfl hq
    | next queue hq ih => exact fun _ => step _ _ ih
  exact step _ _ (hcont _)

theorem frameEnds_length (room : Int) (queue : List Bytes) :
    (frameEnds room queue).length = (frameChunks room queue).length := by
  induction room, queue using frames_induction with
  | step room queue ih =>
    rw [frameEnds, frameChunks, List.length_cons, List.length_cons]
    by_cases hrest : (nextFrameArgsVec queue room).2 = []
    · rw [hrest, continuationEnds_nil, continuationChunks_nil]
      rfl
    · rw [continuationEnds_ne hrest, continuationChunks_ne hrest, ih hrest]

theorem frameEnds_eq_concat {queue : List Bytes} (hq : ∀ a ∈ queue, a.length < 2147483648) (room : Int) :
    ∃ ends, frameEnds room queue = ends ++ [.drained] ∧ ∀ e ∈ ends, e ≠ .drained := by
  induction room, queue using frames_induction with
  | step room queue ih =>
    by_cases hrest : (nextFrameArgsVec queue room).2 = []
    · refine ⟨[], ?_, by simp⟩
      rw [frameEnds, hrest, continuationEnds_nil, (frameEnd_eq_drained hq room).2 hrest]
      rfl
    · obtain ⟨ends, heq, hends⟩ := ih hrest (nextFrameArgsVec_short hq room)
      refine ⟨frameEnd queue room :: ends, ?_, ?_⟩
      · rw [frameEnds, continuationEnds_ne hrest, heq]
        rfl
      · rw [List.forall_mem_cons]
        exact ⟨fun h => hrest ((frameEnd_eq_drained hq room).1 h), hends⟩

/-! ### The ends that are not clean -/

/-- An arg that finds no room for its length. -/
def Postponed (start : Int × Nat) : Prop := start.2 ≠ 0 ∧ start.1 < 2

instance (start : Int × Nat) : Decidable (Postponed start) := inferInstanceAs (Decidable (_ ∧ _))

/-- An arg that ends with its frame. -/
def Filling (start : Int × Nat) : Prop := start.2 ≠ 0 ∧ EndsFrame start.1 start.2

instance (start : Int × Nat) : Decidable (Filling start) := inferInstanceAs (Decidable (_ ∧ _))

theorem cutCleanly_iff {start : Int × Nat} : CutCleanly start ↔ ¬ Postponed start ∧ ¬ Filling start := by
  unfold CutCleanly Postponed Filling
  rw [not_and, not_and, ← imp_and, Int.not_lt]

/-- The frame was not ended by splitting an arg, nor by the end of the message. -/
def faulty : FrameEnd → Bool
  | .filled | .full => true
  | _ => false

def faults (room : Int) (queue : List Bytes) : List FrameEnd := (frameEnds room queue).filter faulty

section

variable {room : Int} {arg : Bytes} {queue : List Bytes}

theorem faults_eq (room : Int) (queue : List Bytes) :
    faults room queue =
      [frameEnd queue room].filter faulty ++ (continuationEnds (nextFrameArgsVec queue room).2).filter faulty := by
  rw [faults, frameEnds, ← List.filter_append, List.singleton_append]

theorem faults_nil (room : Int) : faults room [] = [] := by
  rw [faults_eq, nextFrameArgsVec, continuationEnds_nil]
  rfl

theorem faults_empty (hr : -2147483646 ≤ room) (hr' : room ≤ continuationRoom) :
    faults room ([] :: queue) = faults (room - 2) queue := by
  have hlen := asI32_length (show ([] : Bytes).length < 2147483648 by simp)
  rw [List.length_nil] at hlen
  rcases frameEnd_cons [] queue (asI32_room hr hr') with
    ⟨-, hend, heq⟩ | ⟨h0, -⟩ | ⟨h0, h0', -⟩ | ⟨h0, -⟩ | ⟨h0, -⟩
  · rw [faults_eq, hend, heq, faults_eq]
  · exact absurd hlen h0
  · rw [List.length_nil] at h0'
    omega
  · exact absurd hlen h0
  · exact absurd hlen h0

theorem faults_full (hr : -2147483646 ≤ room) (hr' : room < 2) (harg : arg ≠ [])
    (ha : arg.length < 2147483648) :
    faults room (arg :: queue) = .full :: faults continuationRoom (arg :: queue) := by
  have hpos := List.length_pos_of_ne_nil harg
  have hlen := asI32_length ha
  have hroom : room ≤ continuationRoom := by unfold continuationRoom; omega
  rcases frameEnd_cons arg queue (asI32_room hr hroom) with
    ⟨h0, -⟩ | ⟨-, -, hend, heq⟩ | ⟨h0, -⟩ | ⟨-, h0, -⟩ | ⟨-, h0, -⟩ <;> first | omega | skip
  rw [faults_eq, hend, heq, continuationEnds_ne (by simp)]
  rfl

theorem faults_cut (hr : 2 ≤ room) (hr' : room ≤ continuationRoom) (ha : arg.length < 2147483648)
    (hlong : room - 2 < arg.length) :
    faults room (arg :: queue) = faults continuationRoom (arg.drop (room - 2).toNat :: queue) := by
  have hlen := asI32_length ha
  rcases frameEnd_cons arg queue (asI32_room (by omega) hr') with
    ⟨h0, -⟩ | ⟨-, h0, -⟩ | ⟨-, -, hend, heq⟩ | ⟨-, -, h0, -⟩ | ⟨-, -, h0, -⟩ <;> first | omega | skip
  rw [faults_eq, hend, heq, continuationEnds_ne (by simp)]
  rfl

theorem faults_fill (hr' : room ≤ continuationRoom) (harg : arg ≠ [])
    (hfill : (arg.length : Int) = room - 2) :
    faults room (arg :: queue) = .filled :: faults 65514 queue := by
  have hpos := List.length_pos_of_ne_nil harg
  have hroom := hr'
  unfold continuationRoom at hroom
  have hlen := asI32_length (show arg.length < 2147483648 by omega)
  rcases frameEnd_cons arg queue (asI32_room (by omega) hr') with
    ⟨h0, -⟩ | ⟨-, h0, -⟩ | ⟨-, h0, -⟩ | ⟨-, -, -, hend, heq⟩ | ⟨-, -, h0, -⟩ <;> first | omega | skip
  rw [faults_eq, hend, heq, continuationEnds_ne (by simp)]
  exact congrArg (FrameEnd.filled :: ·) (faults_empty (by decide) (by decide))

theorem faults_whole (hr' : room ≤ continuationRoom) (harg : arg ≠ [])
    (hshort : (arg.length : Int) < room - 2) :
    faults room (arg :: queue) = faults (room - 2 - arg.length) queue := by
  have hpos := List.length_pos_of_ne_nil harg
  have hroom := hr'
  unfold continuationRoom at hroom
  have hlen := asI32_length (show arg.length < 2147483648 by omega)
  have hrest : asI32 (room - 2 - asI32 arg.length) = room - 2 - arg.length := by
    rw [hlen]
    exact asI32_of_lt (by omega) (by omega)
  rcases frameEnd_cons arg queue (asI32_room (by omega) hr') with
    ⟨h0, -⟩ | ⟨-, h0, -⟩ | ⟨-, h0, -⟩ | ⟨-, -, h0, -⟩ | ⟨-, -, -, hend, heq⟩ <;> first | omega | skip
  rw [hrest] at hend heq
  rw [faults_eq, hend, heq, faults_eq]

theorem faults_continuation (harg : arg ≠ []) (ha : arg.length < 2147483648) :
    faults continuationRoom (arg :: queue) =
      (if arg.length % 65514 = 0 then [FrameEnd.filled] else []) ++
        faults (65514 - (arg.length % 65514 : Nat)) queue := by
  induction hn : arg.length using Nat.strong_induction_on generalizing arg with
  | _ n ih =>
    have hpos := List.length_pos_of_ne_nil harg
    rcases lt_trichotomy n 65514 with hlt | heq | hgt
    · rw [faults_whole (by decide) harg (by unfold continuationRoom; omega), Nat.mod_eq_of_lt hlt,
        if_neg (by omega), hn]
      rfl
    · rw [faults_fill (by decide) harg (by unfold continuationRoom; omega), heq]
      rfl
    · have htake : (continuationRoom - 2).toNat = 65514 := by decide
      have hdrop : (arg.drop 65514).length = n - 65514 := by rw [List.length_drop, hn]
      have hmod : (n - 65514) % 65514 = n % 65514 := by omega
      rw [faults_cut (by decide) (by decide) ha (by unfold continuationRoom; omega), htake,
        ih (n - 65514) (by omega) (List.ne_nil_of_length_pos (by omega)) (by omega) hdrop, hmod]

/-- The unclean ends of a message, arg by arg. -/
theorem faults_cons (hr : 0 ≤ room) (hr' : room ≤ continuationRoom) (ha : arg.length < 2147483648)
    (hover : ¬ Overdrawn (room, arg.length)) :
    faults room (arg :: queue) =
      (if Postponed (room, arg.length) then [FrameEnd.full] else []) ++
        (if Filling (room, arg.length) then [FrameEnd.filled] else []) ++
          faults (roomAfter room arg.length) queue := by
  by_cases harg : arg = []
  · subst harg
    rw [faults_empty (by omega) hr']
    rfl
  have hpos := List.length_pos_of_ne_nil harg
  have hn : arg.length ≠ 0 := by omega
  simp only [Postponed, Filling, ne_eq, hn, not_false_eq_true, true_and]
  by_cases hroom : room < 2
  · have hstart : startRoom room = 65516 := if_pos hroom
    rw [if_pos hroom, faults_full (by omega) hroom harg ha, faults_continuation harg ha]
    by_cases hlong : startRoom room - 2 ≤ arg.length
    · simp only [endsFrame_iff hlong (k := arg.length) (by omega),
        roomAfter_cut (by omega) hlong (k := arg.length) (by omega)]
      rfl
    · have hends : ¬ EndsFrame room arg.length := fun h => hlong h.1
      rw [if_neg hends, if_neg (by omega), roomAfter, if_neg (by omega), if_pos (by omega), hstart,
        Nat.mod_eq_of_lt (by omega)]
      rfl
  · have hstart : startRoom room = room := if_neg hroom
    rw [if_neg hroom, List.nil_append]
    rcases lt_trichotomy (arg.length : Int) (room - 2) with hlt | heq | hgt
    · have hends : ¬ EndsFrame room arg.length := fun h => absurd h.1 (by omega)
      rw [faults_whole hr' harg hlt, if_neg hends, roomAfter, if_neg (by omega), if_pos (by omega), hstart]
      rfl
    · have hends : EndsFrame room arg.length := ⟨by omega, by omega⟩
      rw [faults_fill hr' harg heq, if_pos hends, roomAfter_endsFrame (by omega) hends]
      rfl
    · have hdrop : (arg.drop (room - 2).toNat).length = arg.length - (room - 2).toNat := List.length_drop
      rw [faults_cut (by omega) hr' ha hgt,
        faults_continuation (List.ne_nil_of_length_pos (by omega)) (by omega), hdrop]
      simp only [endsFrame_iff (show startRoom room - 2 ≤ arg.length by omega)
          (k := arg.length - (room - 2).toNat) (by omega),
        roomAfter_cut (by omega) (show startRoom room - 2 ≤ arg.length by omega)
          (k := arg.length - (room - 2).toNat) (by omega)]

/-- The frames that do not end cleanly are those before an arg that is postponed, and those that an arg
fills. -/
theorem mem_faults (hr : 0 ≤ room) (hr' : room ≤ continuationRoom)
    (hq : ∀ a ∈ queue, a.length < 2147483648)
    (hover : ¬ ∃ p ∈ starts room (queue.map List.length), Overdrawn p) :
    (FrameEnd.full ∈ faults room queue ↔ ∃ p ∈ starts room (queue.map List.length), Postponed p) ∧
      (FrameEnd.filled ∈ faults room queue ↔ ∃ p ∈ starts room (queue.map List.length), Filling p) := by
  induction queue generalizing room with
  | nil => simp [faults_nil, starts]
  | cons arg queue ih =>
    rw [List.map_cons, starts, List.exists_mem_cons_iff, not_or] at hover
    obtain ⟨hlow, hhigh⟩ := roomAfter_bounds hr hr' hover.1
    obtain ⟨hfull, hfilled⟩ := ih hlow hhigh (fun a ha => hq a (by simp [ha])) hover.2
    rw [faults_cons hr hr' (hq arg (by simp)) hover.1, List.map_cons, starts, List.exists_mem_cons_iff,
      List.exists_mem_cons_iff, List.mem_append, List.mem_append, List.mem_append, List.mem_append, hfull,
      hfilled]
    simp only [List.mem_ite_nil_right, List.mem_singleton, reduceCtorEq, and_true, and_false, or_false, false_or,
      and_self]

end

end ArgsFragmenter

end Tchannel

import Mathlib.Algebra.BigOperators.Group.List.Basic
import Mathlib.Algebra.GroupWithZero.Nat

/-!
# Items on a stream of bytes

One direction of a connection: the writer takes batches of items and writes them one after another, the stream
holds what was written and not read, and the reader looks for an item in what it has read so far. While the
items can be read back (`Framing.Exact`) a link is a queue: it carries the items that were put into it and not
taken out (`Link.Carries`), however their bytes are cut on the way, and until it is broken no item is lost. What
the reader has in its buffer is a part of the next item or begins with it (`Link.Holds`), so that it never finds
anything else; and a link that carries an item can move (`Link.Carries.progress`).
-/

namespace Wire

variable {ι β ε : Type*}

/-- The bytes of an item, and what a reader makes of its buffer: an item and the rest of the buffer, or nothing
when it needs more. -/
structure Framing (ι β ε : Type*) where
  encode : ι → List β
  decode : List β → Except ε (Option (ι × List β))

/-- The items that are `ok` are read back as soon as all of their bytes are there. -/
structure Framing.Exact (F : Framing ι β ε) (ok : ι → Prop) : Prop where
  nil : F.decode [] = .ok none
  ne_nil : ∀ i, ok i → F.encode i ≠ []
  whole : ∀ i rest, ok i → F.decode (F.encode i ++ rest) = .ok (some (i, rest))
  part : ∀ i p q, ok i → p ++ q = F.encode i → q ≠ [] → F.decode p = .ok none

structure Link (ι β : Type*) where
  /-- What the writer has taken, but for the item that it is writing. -/
  batch : List ι
  /-- What is left to write of that item. -/
  pending : List β
  stream : List β
  buffer : List β
  broken : Bool

namespace Link

def new : Link ι β := ⟨[], [], [], [], false⟩

/-- The writer can take another batch. -/
structure Free (l : Link ι β) : Prop where
  batch : l.batch = []
  pending : l.pending = []
  intact : l.broken = false

def put (l : Link ι β) (items : List ι) : Link ι β := { l with batch := items }

/-- The writer is gone, and of what was in flight only `n` bytes arrive. -/
def cut (l : Link ι β) (n : ℕ) : Link ι β :=
  { l with batch := [], pending := [], stream := (l.stream ++ l.pending).take n, broken := true }

/-- The writer goes on; a stream takes up to `capacity` bytes. -/
inductive Writes (F : Framing ι β ε) (capacity : ℕ) (l : Link ι β) : Link ι β → Prop
  | begins {i batch} (hpending : l.pending = []) (hbatch : l.batch = i :: batch) :
      Writes F capacity l { l with batch, pending := F.encode i }
  | flushes {n} (hn : 0 < n) (hle : n ≤ l.pending.length) (hroom : l.stream.length + n ≤ capacity) :
      Writes F capacity l { l with pending := l.pending.drop n, stream := l.stream ++ l.pending.take n }

/-- The reader reads on when there is no item in its buffer. -/
inductive Reads (F : Framing ι β ε) (l : Link ι β) : Link ι β → Prop
  | reads {n} (hmore : F.decode l.buffer = .ok none) (hn : 0 < n) (hle : n ≤ l.stream.length) :
      Reads F l { l with stream := l.stream.drop n, buffer := l.buffer ++ l.stream.take n }

/-! ### What a link carries -/

/-- The first part of an item. -/
def Part (F : Framing ι β ε) (ok : ι → Prop) (bytes : List β) : Prop :=
  bytes = [] ∨ ∃ i rest, ok i ∧ bytes ++ rest = F.encode i ∧ rest ≠ []

/-- The link is to deliver `items`; when it is broken, also a part of one that is lost. -/
structure Carries (F : Framing ι β ε) (ok : ι → Prop) (l : Link ι β) (items : List ι) : Prop where
  each : ∀ i ∈ items, ok i
  bytes : ∃ sent part, items = sent ++ l.batch ∧ l.buffer ++ l.stream ++ l.pending = sent.flatMap F.encode ++ part ∧
    Part F ok part ∧ (l.broken = false → part = [])
  broken : l.broken = true → l.batch = [] ∧ l.pending = []

/-- What the reader of a link that is to deliver `items` has in its buffer. -/
inductive Holds (F : Framing ι β ε) (ok : ι → Prop) (l : Link ι β) : List ι → Prop
  /-- Nothing, or a part of an item that is lost. -/
  | nothing (hpart : Part F ok l.buffer) (hintact : l.broken = false → l.buffer = [])
      (hmore : F.decode l.buffer = .ok none) : Holds F ok l []
  | part {i items rest} (hbytes : l.buffer ++ rest = F.encode i) (hne : rest ≠ [])
      (hmore : F.decode l.buffer = .ok none) : Holds F ok l (i :: items)
  | whole {i items rest} (hbytes : l.buffer = F.encode i ++ rest) (hdecode : F.decode l.buffer = .ok (some (i, rest)))
      (hrest : Carries F ok { l with buffer := rest } items) : Holds F ok l (i :: items)

variable {F : Framing ι β ε} {ok : ι → Prop} {l l' : Link ι β} {items more : List ι} {i : ι} {capacity n : ℕ}

theorem carries_new : (new : Link ι β).Carries F ok [] :=
  ⟨nofun, ⟨[], [], rfl, rfl, .inl rfl, fun _ => rfl⟩, nofun⟩

namespace Carries

theorem put (h : l.Carries F ok items) (hfree : l.Free) (hmore : ∀ i ∈ more, ok i) :
    (l.put more).Carries F ok (items ++ more) := by
  obtain ⟨sent, part, rfl, hbytes, hpart, hwhole⟩ := h.bytes
  refine ⟨fun i hi => ?_, ⟨sent, part, ?_, hbytes, hpart, hwhole⟩, fun hbroken => ?_⟩
  · rcases List.mem_append.1 hi with hi | hi
    · exact h.each i hi
    · exact hmore i hi
  · rw [hfree.batch, List.append_nil]
    rfl
  · exact absurd (hfree.intact.symm.trans hbroken) Bool.false_ne_true

theorem writes (h : l.Carries F ok items) (hstep : l.Writes F capacity l') : l'.Carries F ok items := by
  obtain ⟨sent, part, rfl, hbytes, hpart, hwhole⟩ := h.bytes
  cases hstep with
  | @begins i batch hpending hbatch =>
    have hintact : l.broken = false := by
      refine Bool.eq_false_iff.2 fun hbroken => ?_
      rw [(h.broken hbroken).1] at hbatch
      cases hbatch
    obtain rfl := hwhole hintact
    rw [hpending, List.append_nil, List.append_nil] at hbytes
    refine ⟨h.each, ⟨sent ++ [i], [], by simp [hbatch], ?_, hpart, fun _ => rfl⟩, fun hbroken => ?_⟩
    · show l.buffer ++ l.stream ++ F.encode i = _
      rw [hbytes]
      simp
    · exact absurd (hintact.symm.trans hbroken) Bool.false_ne_true
  | @flushes n hn hle hroom =>
    refine ⟨h.each, ⟨sent, part, rfl, ?_, hpart, hwhole⟩, fun hbroken => ⟨(h.broken hbroken).1, ?_⟩⟩
    · rw [← hbytes]
      simp [List.append_assoc]
    · show l.pending.drop n = []
      rw [(h.broken hbroken).2, List.drop_nil]

theorem reads (h : l.Carries F ok items) (hstep : l.Reads F l') : l'.Carries F ok items := by
  obtain ⟨sent, part, rfl, hbytes, hpart, hwhole⟩ := h.bytes
  cases hstep with
  | @reads n _ _ _ =>
    refine ⟨h.each, ⟨sent, part, rfl, ?_, hpart, hwhole⟩, h.broken⟩
    rw [← hbytes]
    simp [List.append_assoc]

theorem holds (h : l.Carries F ok items) (hF : F.Exact ok) : l.Holds F ok items := by
  obtain ⟨sent, part, rfl, hbytes, hpart, hwhole⟩ := h.bytes
  cases sent with
  | nil =>
    -- the rest of the bytes is only a part of an item
    rw [List.flatMap_nil, List.nil_append, List.append_assoc] at hbytes
    have hmore : F.decode l.buffer = .ok none ∧ Part F ok l.buffer := by
      rcases hpart with rfl | ⟨i, rest, hi, hrest, hne⟩
      · rw [(List.append_eq_nil_iff.1 hbytes).1]
        exact ⟨hF.nil, .inl rfl⟩
      · rw [← hbytes, List.append_assoc] at hrest
        have hne' := List.append_ne_nil_of_right_ne_nil (l.stream ++ l.pending) hne
        exact ⟨hF.part i _ _ hi hrest hne', .inr ⟨i, _, hi, hrest, hne'⟩⟩
    have hempty : l.broken = false → l.buffer = [] := by
      intro hintact
      rw [hwhole hintact] at hbytes
      exact (List.append_eq_nil_iff.1 hbytes).1
    cases hbatch : l.batch with
    | nil => exact .nothing hmore.2 hempty hmore.1
    | cons i batch =>
      have hintact : l.broken = false := by
        refine Bool.eq_false_iff.2 fun hbroken => ?_
        rw [(h.broken hbroken).1] at hbatch
        cases hbatch
      have hi := h.each i (by simp [hbatch])
      exact .part (show l.buffer ++ F.encode i = F.encode i by simp [hempty hintact]) (hF.ne_nil i hi) hmore.1
  | cons i sent =>
    have hi := h.each i (by simp)
    have hitems : ∀ j ∈ sent ++ l.batch, ok j := fun j hj => h.each j (List.mem_cons_of_mem i hj)
    rw [List.flatMap_cons, List.append_assoc, List.append_assoc] at hbytes
    rcases List.append_eq_append_iff.1 hbytes with ⟨q, hq, hrest⟩ | ⟨rest, hbuffer, hrest⟩
    · by_cases hne : q = []
      · subst hne
        rw [List.append_nil] at hq
        refine .whole (show l.buffer = F.encode i ++ [] by simp [hq]) ?_ ⟨hitems, ⟨sent, part, rfl, ?_, hpart, hwhole⟩, h.broken⟩
        · rw [← hq, ← hF.whole i [] hi, List.append_nil]
        · simpa using hrest
      · exact .part hq.symm hne (hF.part i _ _ hi hq.symm hne)
    · refine .whole hbuffer ?_ ⟨hitems, ⟨sent, part, rfl, ?_, hpart, hwhole⟩, h.broken⟩
      · rw [hbuffer]
        exact hF.whole i rest hi
      · simpa using hrest.symm

theorem decode (h : l.Carries F ok items) (hF : F.Exact ok) : F.decode l.buffer = .ok none ∨
    ∃ i rest items', items = i :: items' ∧ F.decode l.buffer = .ok (some (i, rest)) ∧
      Carries F ok { l with buffer := rest } items' := by
  cases h.holds hF with
  | nothing _ _ hmore => exact .inl hmore
  | part _ _ hmore => exact .inl hmore
  | whole _ hdecode hrest => exact .inr ⟨_, _, _, rfl, hdecode, hrest⟩

/-- A link that carries an item moves, or its reader finds one. -/
theorem progress (h : l.Carries F ok items) (hF : F.Exact ok) (hcapacity : 0 < capacity) (hne : items ≠ []) :
    (∃ l', l.Writes F capacity l') ∨ (∃ l', l.Reads F l') ∨ ∃ i rest, F.decode l.buffer = .ok (some (i, rest)) := by
  rcases h.decode hF with hmore | ⟨i, rest, -, -, hdecode, -⟩
  · cases hstream : l.stream with
    | cons b stream => exact .inr (.inl ⟨_, .reads hmore Nat.one_pos (by rw [hstream]; simp)⟩)
    | nil =>
      cases hpending : l.pending with
      | cons b pending =>
        refine .inl ⟨_, .flushes Nat.one_pos (by rw [hpending]; simp) ?_⟩
        rw [hstream]
        exact hcapacity
      | nil =>
        cases hbatch : l.batch with
        | cons i batch => exact .inl ⟨_, .begins hpending hbatch⟩
        | nil =>
          -- all items are in the buffer
          exfalso
          obtain ⟨sent, part, rfl, hbytes, -, -⟩ := h.bytes
          rw [hbatch, List.append_nil] at hne
          rw [hstream, hpending, List.append_nil, List.append_nil] at hbytes
          obtain ⟨i, sent, rfl⟩ := List.exists_cons_of_ne_nil hne
          rw [hbytes, List.flatMap_cons, List.append_assoc, hF.whole i _ (h.each i (by simp))] at hmore
          cases hmore
  · exact .inr (.inr ⟨i, rest, hdecode⟩)

theorem free (h : l.Carries F ok []) (hintact : l.broken = false) : l.Free := by
  obtain ⟨sent, part, hitems, hbytes, -, hwhole⟩ := h.bytes
  obtain ⟨rfl, hbatch⟩ := List.append_eq_nil_iff.1 hitems.symm
  rw [hwhole hintact] at hbytes
  exact ⟨hbatch, (List.append_eq_nil_iff.1 hbytes).2, hintact⟩

theorem exists_take (hitems : ∀ i ∈ items, ok i) {part bytes : List β} (hpart : Part F ok part)
    (h : bytes <+: items.flatMap F.encode ++ part) :
    ∃ k part', bytes = (items.take k).flatMap F.encode ++ part' ∧ Part F ok part' := by
  induction items generalizing bytes with
  | nil =>
    rw [List.flatMap_nil, List.nil_append] at h
    refine ⟨0, bytes, rfl, ?_⟩
    rcases hpart with rfl | ⟨i, rest, hi, hrest, hne⟩
    · exact .inl (List.prefix_nil.1 h)
    · obtain ⟨q, rfl⟩ := h
      refine .inr ⟨i, q ++ rest, hi, ?_, List.append_ne_nil_of_right_ne_nil _ hne⟩
      rw [← List.append_assoc]
      exact hrest
  | cons i items ih =>
    obtain ⟨rest, hrest⟩ := h
    rw [List.flatMap_cons, List.append_assoc] at hrest
    rcases List.append_eq_append_iff.1 hrest with ⟨q, hq, -⟩ | ⟨bytes', rfl, hmore⟩
    · by_cases hne : q = []
      · refine ⟨1, [], ?_, .inl rfl⟩
        rw [hne, List.append_nil] at hq
        simp [hq]
      · exact ⟨0, bytes, rfl, .inr ⟨i, q, hitems i (by simp), hq.symm, hne⟩⟩
    · obtain ⟨k, part', hbytes', hpart'⟩ := ih (fun j hj => hitems j (by simp [hj])) ⟨rest, hmore.symm⟩
      refine ⟨k + 1, part', ?_, hpart'⟩
      rw [hbytes', List.take_succ_cons, List.flatMap_cons, List.append_assoc]

/-- What is left of a link that breaks delivers the first ones of its items. -/
theorem cut (h : l.Carries F ok items) (n : ℕ) : ∃ k, (l.cut n).Carries F ok (items.take k) := by
  obtain ⟨sent, part, rfl, hbytes, hpart, -⟩ := h.bytes
  have hpre : l.buffer ++ (l.stream ++ l.pending).take n <+: sent.flatMap F.encode ++ part := by
    rw [← hbytes, List.append_assoc]
    exact (List.prefix_append_right_inj _).2 (List.take_prefix _ _)
  obtain ⟨k, part', hleft, hpart'⟩ := exists_take (fun i hi => h.each i (by simp [hi])) hpart hpre
  refine ⟨min k sent.length, fun i hi => h.each i (List.mem_of_mem_take hi), ⟨sent.take k, part', ?_, ?_, hpart', nofun⟩,
    fun _ => ⟨rfl, rfl⟩⟩
  · show _ = sent.take k ++ []
    rw [List.take_append_of_le_length (Nat.min_le_right _ _), List.append_nil, List.take_eq_take_iff]
    omega
  · show l.buffer ++ (l.stream ++ l.pending).take n ++ [] = _
    rw [List.append_nil, hleft]

end Carries

theorem Writes.broken_eq (h : l.Writes F capacity l') : l'.broken = l.broken := by
  cases h <;> rfl

theorem Reads.broken_eq (h : l.Reads F l') : l'.broken = l.broken := by
  cases h
  rfl

/-! ### How long it moves -/

/-- A bound for the moves of a link: a byte is written and read, and an item is begun. -/
def toCarry (F : Framing ι β ε) (l : Link ι β) : ℕ :=
  (l.batch.map fun i => 2 * (F.encode i).length + 1).sum + 2 * l.pending.length + l.stream.length

theorem Writes.toCarry_lt (h : l.Writes F capacity l') : l'.toCarry F < l.toCarry F := by
  cases h with
  | begins hpending hbatch =>
    simp only [toCarry, hpending, hbatch, List.map_cons, List.sum_cons, List.length_nil]
    omega
  | flushes hn hle _ =>
    simp only [toCarry, List.length_drop, List.length_append, List.length_take]
    omega

theorem Reads.toCarry_lt (h : l.Reads F l') : l'.toCarry F < l.toCarry F := by
  cases h with
  | reads _ hn hle =>
    simp only [toCarry, List.length_drop]
    omega

theorem toCarry_cut_le (l : Link ι β) (n : ℕ) : (l.cut n).toCarry F ≤ l.toCarry F := by
  simp only [toCarry, cut, List.map_nil, List.sum_nil, List.length_nil, List.length_take, List.length_append]
  omega

theorem toCarry_put (hfree : l.Free) (items : List ι) : (l.put items).toCarry F =
    (items.map fun i => 2 * (F.encode i).length + 1).sum + l.toCarry F := by
  simp only [toCarry, put, hfree.batch, hfree.pending, List.map_nil, List.sum_nil, List.length_nil]
  omega

end Link

end Wire

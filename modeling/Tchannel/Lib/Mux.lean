import Mathlib.Data.List.Perm.Subperm
import Mathlib.Data.Set.Insert
import Mathlib.Order.Basic

/-!
# Streams over one queue

Streams with keys share one first-in first-out queue. A stream is opened by its first item and sends any
number of later ones; its key may be used for another stream once it is done. At the other end the item at
the head of the queue is handed to a stream that was started there, or starts one.

`Mux.Inv` is what keeps the streams apart: what was handed to a stream and what is in the queue under its
key are together what it sent, and the streams that were not started are the last ones opened, queued in
the order of opening. So an item whose key belongs to no started stream starts the next one
(`Inv.next_starts`).
-/

namespace Wire

variable {κ α : Type*}

theorem getElem?_set_cases {l : List α} {j k : ℕ} {a b : α} (h : (l.set k a)[j]? = some b) :
    (j = k ∧ b = a) ∨ (j ≠ k ∧ l[j]? = some b) := by
  rw [List.getElem?_set] at h
  split at h
  · rename_i heq
    split at h
    · exact .inl ⟨heq.symm, (Option.some.inj h).symm⟩
    · cases h
  · rename_i hne
    exact .inr ⟨fun heq => hne heq.symm, h⟩

theorem set_of_getElem? {l : List α} {k : ℕ} {a : α} (h : l[k]? = some a) : l.set k a = l := by
  obtain ⟨hlt, rfl⟩ := List.getElem?_eq_some_iff.1 h
  exact List.set_getElem_self hlt

theorem getElem?_concat_cases {l : List α} {k : ℕ} {a b : α} (h : (l ++ [a])[k]? = some b) :
    l[k]? = some b ∨ (k = l.length ∧ b = a) := by
  rcases Nat.lt_trichotomy k l.length with hlt | heq | hlt
  · rw [List.getElem?_append_left hlt] at h
    exact .inl h
  · rw [heq, List.getElem?_concat_length] at h
    exact .inr ⟨heq, (Option.some.inj h).symm⟩
  · rw [List.getElem?_eq_none (by simp only [List.length_append, List.length_singleton]; omega)] at h
    cases h

/-- Every counted item of the first list has a counted one with its key in the second. -/
theorem countP_le_of_keys {β : Type*} (f : α → κ) (g : β → κ) {p : α → Bool} {q : β → Bool} {l : List α}
    {m : List β} (hnodup : (l.map f).Nodup) (h : ∀ a ∈ l, p a = true → ∃ b ∈ m, q b = true ∧ g b = f a) :
    l.countP p ≤ m.countP q := by
  have hsub : (l.filter p).map f ⊆ (m.filter q).map g := by
    intro k hk
    obtain ⟨a, ha, rfl⟩ := List.mem_map.1 hk
    obtain ⟨hmem, hp⟩ := List.mem_filter.1 ha
    obtain ⟨b, hb, hq, hkey⟩ := h a hmem hp
    exact List.mem_map.2 ⟨b, List.mem_filter.2 ⟨hb, hq⟩, hkey⟩
  have hlen := (List.Nodup.subperm (hnodup.sublist (List.filter_sublist.map f)) hsub).length_le
  rwa [List.length_map, List.length_map, ← List.countP_eq_length_filter, ← List.countP_eq_length_filter] at hlen

structure Mux (κ α : Type*) where
  /-- The key of each stream, in the order of opening, and the items it sent. -/
  sent : List (κ × List α)
  /-- What was handed to the streams that were started, the first ones of `sent`. -/
  handed : List (List α)
  /-- The streams whose keys may be used again. -/
  done : Set ℕ
  queue : List α

namespace Mux

def empty : Mux κ α := ⟨[], [], ∅, []⟩

def handedTo (m : Mux κ α) (k : ℕ) : List α := (m.handed[k]?).getD []

theorem handedTo_of_le {m : Mux κ α} {k : ℕ} (hk : m.handed.length ≤ k) : m.handedTo k = [] := by
  rw [handedTo, List.getElem?_eq_none hk, Option.getD_none]

/-- The stream `k` with key `i` sent `xs` and is not done. -/
structure Open (m : Mux κ α) (k : ℕ) (i : κ) (xs : List α) : Prop where
  sent : m.sent[k]? = some (i, xs)
  not_done : k ∉ m.done

/-! ### The operations -/

section

variable (key : α → κ) (m : Mux κ α)

def openStream (a : α) : Mux κ α :=
  { m with sent := m.sent ++ [(key a, [a])], queue := m.queue ++ [a] }

def send (k : ℕ) (xs : List α) (a : α) : Mux κ α :=
  { m with sent := m.sent.set k (key a, xs ++ [a]), queue := m.queue ++ [a] }

def hand (k : ℕ) (a : α) (rest : List α) : Mux κ α :=
  { m with handed := m.handed.set k (m.handedTo k ++ [a]), queue := rest }

def start (a : α) (rest : List α) : Mux κ α :=
  { m with handed := m.handed ++ [[a]], queue := rest }

def close (k : ℕ) : Mux κ α := { m with done := insert k m.done }

end

variable [DecidableEq κ]

structure Inv (key : α → κ) (m : Mux κ α) : Prop where
  started : m.handed.length ≤ m.sent.length
  sent_ne : ∀ (k : ℕ) i xs, m.sent[k]? = some (i, xs) → xs ≠ []
  handed_ne : ∀ (k : ℕ) xs, m.handed[k]? = some xs → xs ≠ []
  reuse : ∀ (j k : ℕ) i xs ys, j < k → m.sent[j]? = some (i, xs) → m.sent[k]? = some (i, ys) → j ∈ m.done
  conserved : ∀ k i xs, m.Open k i xs → m.handedTo k ++ m.queue.filter (fun a => key a = i) = xs
  complete : ∀ (k : ℕ) i xs, m.sent[k]? = some (i, xs) → k ∈ m.done → m.handedTo k = xs
  done_started : ∀ k ∈ m.done, k < m.handed.length
  owned : ∀ a ∈ m.queue, ∃ k xs, m.Open k (key a) xs
  order : ∀ (j k : ℕ) i i' xs ys, m.handed.length ≤ j → j < k → m.sent[j]? = some (i, xs) →
    m.sent[k]? = some (i', ys) → (m.queue.map key).idxOf i < (m.queue.map key).idxOf i'

theorem inv_empty (key : α → κ) : (empty : Mux κ α).Inv key := by
  refine ⟨Nat.le_refl 0, ?_, ?_, ?_, fun k i xs h => ?_, ?_, ?_, ?_, ?_⟩
  · simp [empty]
  · simp [empty]
  · simp [empty]
  · cases h.sent
  · simp [empty]
  · simp [empty]
  · simp [empty]
  · simp [empty]

namespace Inv

variable {key : α → κ} {m : Mux κ α} {a : α} {rest : List α} {i : κ} {xs ys : List α} {j k : ℕ}

theorem open_unique (h : m.Inv key) (hj : m.Open j i xs) (hk : m.Open k i ys) : j = k := by
  rcases Nat.lt_trichotomy j k with hlt | heq | hlt
  · exact absurd (h.reuse j k i xs ys hlt hj.sent hk.sent) hj.not_done
  · exact heq
  · exact absurd (h.reuse k j i ys xs hlt hk.sent hj.sent) hk.not_done

theorem not_done_of_le (h : m.Inv key) (hk : m.handed.length ≤ k) : k ∉ m.done := fun hdone =>
  Nat.not_lt.2 hk (h.done_started k hdone)

/-- A stream that was not started has items in the queue. -/
theorem queued_of_not_started (h : m.Inv key) (hk : m.handed.length ≤ k) (hsent : m.sent[k]? = some (i, xs)) :
    i ∈ m.queue.map key := by
  have hxs := h.conserved k i xs ⟨hsent, h.not_done_of_le hk⟩
  rw [handedTo_of_le hk, List.nil_append] at hxs
  obtain ⟨a, tail, hcons⟩ := List.exists_cons_of_ne_nil (h.sent_ne k i xs hsent)
  have hmem : a ∈ m.queue.filter (fun a => key a = i) := by
    rw [hxs, hcons]
    exact List.mem_cons_self
  obtain ⟨hqueue, hkey⟩ := List.mem_filter.1 hmem
  exact List.mem_map.2 ⟨a, hqueue, of_decide_eq_true hkey⟩

theorem head_next (h : m.Inv key) (hqueue : m.queue = a :: rest) (hopen : m.Open k (key a) xs) :
    xs[(m.handedTo k).length]? = some a := by
  have hxs := h.conserved k (key a) xs hopen
  rw [hqueue, List.filter_cons_of_pos (by simp)] at hxs
  rw [← hxs, List.getElem?_append_right (Nat.le_refl _), Nat.sub_self]
  rfl

/-- If no started stream is open under the key of the item at the head, that item is the first one of the
next stream. -/
theorem next_starts (h : m.Inv key) (hqueue : m.queue = a :: rest)
    (hnew : ∀ k xs, k < m.handed.length → ¬ m.Open k (key a) xs) :
    ∃ xs, m.Open m.handed.length (key a) xs := by
  obtain ⟨k, xs, hopen⟩ := h.owned a (by rw [hqueue]; exact List.mem_cons_self)
  have hle : m.handed.length ≤ k := Nat.not_lt.1 fun hlt => hnew k xs hlt hopen
  rcases Nat.eq_or_lt_of_le hle with heq | hlt
  · rw [heq]
    exact ⟨xs, hopen⟩
  · have hlen : m.handed.length < m.sent.length := hlt.trans (List.getElem?_eq_some_iff.1 hopen.sent).1
    have hidx := h.order _ k _ (key a) _ xs (Nat.le_refl _) hlt (List.getElem?_eq_getElem hlen) hopen.sent
    rw [hqueue, List.map_cons, List.idxOf_cons_self] at hidx
    exact absurd hidx (Nat.not_lt_zero _)

/-! ### Opening and sending -/

theorem conserved_push (h : m.Inv key) (hopen : m.Open k i xs) (hne : key a ≠ i) :
    m.handedTo k ++ (m.queue ++ [a]).filter (fun b => key b = i) = xs := by
  rw [List.filter_append, List.filter_cons_of_neg (by simpa using hne), List.filter_nil, List.append_nil]
  exact h.conserved k i xs hopen

theorem idxOf_push (h : m.Inv key) (hk : m.handed.length ≤ k) (hsent : m.sent[k]? = some (i, xs)) :
    ((m.queue ++ [a]).map key).idxOf i = (m.queue.map key).idxOf i := by
  rw [List.map_append, List.idxOf_append_of_mem (h.queued_of_not_started hk hsent)]

theorem not_queued (h : m.Inv key) (hkey : ∀ k xs, ¬ m.Open k i xs) : i ∉ m.queue.map key := by
  intro hmem
  obtain ⟨b, hb, rfl⟩ := List.mem_map.1 hmem
  obtain ⟨k, xs, hopen⟩ := h.owned b hb
  exact hkey k xs hopen

/-- A stream is opened under a key that no open stream has. -/
theorem openStream (h : m.Inv key) (hkey : ∀ k xs, ¬ m.Open k (key a) xs) : (m.openStream key a).Inv key := by
  have hcases : ∀ {k : ℕ} {i xs}, (m.sent ++ [(key a, [a])])[k]? = some (i, xs) →
      m.sent[k]? = some (i, xs) ∨ (k = m.sent.length ∧ i = key a ∧ xs = [a]) := by
    intro k i xs hk
    rcases getElem?_concat_cases hk with hk | ⟨heq, hpair⟩
    · exact .inl hk
    · obtain ⟨rfl, rfl⟩ := Prod.mk.inj hpair
      exact .inr ⟨heq, rfl, rfl⟩
  have hkeep : ∀ {k i xs}, m.Open k i xs → (m.openStream key a).Open k i xs := by
    intro k i xs hopen
    refine ⟨?_, hopen.not_done⟩
    rw [Mux.openStream, List.getElem?_append_left (List.getElem?_eq_some_iff.1 hopen.sent).1]
    exact hopen.sent
  have hlast : m.sent.length ∉ m.done := h.not_done_of_le h.started
  have hfresh : key a ∉ m.queue.map key := h.not_queued hkey
  refine ⟨?_, ?_, h.handed_ne, ?_, ?_, ?_, h.done_started, ?_, ?_⟩
  · show m.handed.length ≤ (m.sent ++ [_]).length
    rw [List.length_append]
    exact Nat.le_add_right_of_le h.started
  · intro k i xs hk
    rcases hcases hk with hk | ⟨-, -, rfl⟩
    · exact h.sent_ne k i xs hk
    · exact List.cons_ne_nil _ _
  · intro j k i xs ys hlt hj hk
    rcases hcases hj with hj | ⟨rfl, -, -⟩
    · rcases hcases hk with hk | ⟨-, rfl, -⟩
      · exact h.reuse j k i xs ys hlt hj hk
      · exact not_not.1 fun hdone => hkey j xs ⟨hj, hdone⟩
    · have := (List.getElem?_eq_some_iff.1 hk).1
      simp only [Mux.openStream, List.length_append, List.length_singleton] at this
      omega
  · rintro k i xs ⟨hk, hdone⟩
    rcases hcases hk with hk | ⟨rfl, rfl, rfl⟩
    · exact h.conserved_push ⟨hk, hdone⟩ fun heq => hkey k xs ⟨heq ▸ hk, hdone⟩
    · have hnone : m.queue.filter (fun b => key b = key a) = [] := by
        rw [List.filter_eq_nil_iff]
        intro b hb heq
        exact hfresh (List.mem_map.2 ⟨b, hb, of_decide_eq_true heq⟩)
      show m.handedTo _ ++ (m.queue ++ [a]).filter _ = [a]
      rw [List.filter_append, hnone, handedTo_of_le h.started]
      simp
  · intro k i xs hk hdone
    rcases hcases hk with hk | ⟨rfl, -, -⟩
    · exact h.complete k i xs hk hdone
    · exact absurd hdone hlast
  · intro b hb
    rcases List.mem_append.1 hb with hb | hb
    · obtain ⟨k, xs, hopen⟩ := h.owned b hb
      exact ⟨k, xs, hkeep hopen⟩
    · rw [List.mem_singleton.1 hb]
      exact ⟨_, [a], List.getElem?_concat_length, hlast⟩
  · intro j k i i' xs ys hj hlt hsj hsk
    show ((m.queue ++ [a]).map key).idxOf i < ((m.queue ++ [a]).map key).idxOf i'
    rcases hcases hsj with hsj | ⟨rfl, -, -⟩
    · rw [h.idxOf_push hj hsj]
      rcases hcases hsk with hsk | ⟨-, rfl, -⟩
      · rw [h.idxOf_push (Nat.le_of_lt (Nat.lt_of_le_of_lt hj hlt)) hsk]
        exact h.order j k i i' xs ys hj hlt hsj hsk
      · rw [List.map_append, List.idxOf_append_of_notMem hfresh]
        exact Nat.lt_add_right _ (List.idxOf_lt_length_of_mem (h.queued_of_not_started hj hsj))
    · have := (List.getElem?_eq_some_iff.1 hsk).1
      simp only [Mux.openStream, List.length_append, List.length_singleton] at this
      omega

theorem send (h : m.Inv key) (hopen : m.Open k (key a) xs) : (m.send key k xs a).Inv key := by
  have hlt := (List.getElem?_eq_some_iff.1 hopen.sent).1
  have hcases : ∀ {j : ℕ} {i ys}, (m.sent.set k (key a, xs ++ [a]))[j]? = some (i, ys) →
      (j ≠ k ∧ m.sent[j]? = some (i, ys)) ∨ (j = k ∧ i = key a ∧ ys = xs ++ [a]) := by
    intro j i ys hj
    rcases getElem?_set_cases hj with ⟨heq, hpair⟩ | hj
    · obtain ⟨rfl, rfl⟩ := Prod.mk.inj hpair
      exact .inr ⟨heq, rfl, rfl⟩
    · exact .inl hj
  have hold : ∀ {j : ℕ} {i ys}, (m.sent.set k (key a, xs ++ [a]))[j]? = some (i, ys) →
      ∃ zs, m.sent[j]? = some (i, zs) := by
    intro j i ys hj
    rcases hcases hj with ⟨-, hj⟩ | ⟨rfl, rfl, -⟩
    · exact ⟨ys, hj⟩
    · exact ⟨xs, hopen.sent⟩
  refine ⟨?_, ?_, h.handed_ne, ?_, ?_, ?_, h.done_started, ?_, ?_⟩
  · show m.handed.length ≤ (m.sent.set _ _).length
    rw [List.length_set]
    exact h.started
  · intro j i ys hj
    rcases hcases hj with ⟨-, hj⟩ | ⟨-, -, rfl⟩
    · exact h.sent_ne j i ys hj
    · simp
  · intro j j' i ys zs hjj hj hj'
    obtain ⟨ys', hj⟩ := hold hj
    obtain ⟨zs', hj'⟩ := hold hj'
    exact h.reuse j j' i ys' zs' hjj hj hj'
  · rintro j i ys ⟨hj, hdone⟩
    rcases hcases hj with ⟨hne, hj⟩ | ⟨rfl, rfl, rfl⟩
    · exact h.conserved_push ⟨hj, hdone⟩ fun heq => hne (h.open_unique ⟨heq ▸ hj, hdone⟩ hopen)
    · show m.handedTo j ++ (m.queue ++ [a]).filter _ = xs ++ [a]
      rw [List.filter_append, ← List.append_assoc, h.conserved j (key a) xs hopen,
        List.filter_cons_of_pos (by simp), List.filter_nil]
  · intro j i ys hj hdone
    rcases hcases hj with ⟨-, hj⟩ | ⟨rfl, -, -⟩
    · exact h.complete j i ys hj hdone
    · exact absurd hdone hopen.not_done
  · intro b hb
    have hown : ∃ j ys, m.Open j (key b) ys := by
      rcases List.mem_append.1 hb with hb | hb
      · exact h.owned b hb
      · rw [List.mem_singleton.1 hb]
        exact ⟨k, xs, hopen⟩
    obtain ⟨j, ys, hj⟩ := hown
    rcases eq_or_ne k j with rfl | hne
    · have hkey : key b = key a := by
        have := hj.sent.symm.trans hopen.sent
        exact (Prod.mk.inj (Option.some.inj this)).1
      refine ⟨k, xs ++ [a], ?_, hj.not_done⟩
      rw [hkey]
      exact List.getElem?_set_self hlt
    · refine ⟨j, ys, ?_, hj.not_done⟩
      rw [Mux.send, List.getElem?_set_ne hne]
      exact hj.sent
  · intro j j' i i' ys zs hj hjj hsj hsj'
    show ((m.queue ++ [a]).map key).idxOf i < ((m.queue ++ [a]).map key).idxOf i'
    obtain ⟨ys', hsj⟩ := hold hsj
    obtain ⟨zs', hsj'⟩ := hold hsj'
    rw [h.idxOf_push hj hsj, h.idxOf_push (Nat.le_of_lt (Nat.lt_of_le_of_lt hj hjj)) hsj']
    exact h.order j j' i i' ys' zs' hj hjj hsj hsj'

/-! ### Handing out -/

/-- The item at the head of the queue goes to its stream, whichever way that changes the list of the started
streams. -/
theorem take_head {handed : List (List α)} (h : m.Inv key) (hqueue : m.queue = a :: rest)
    (hopen : m.Open k (key a) xs) (hlen : m.handed.length ≤ handed.length) (hk : k < handed.length)
    (hle : handed.length ≤ m.sent.length) (hne : ∀ (j : ℕ) ys, handed[j]? = some ys → ys ≠ [])
    (hself : (handed[k]?).getD [] = m.handedTo k ++ [a])
    (hother : ∀ j, j ≠ k → (handed[j]?).getD [] = m.handedTo j) :
    Inv key { m with handed := handed, queue := rest } := by
  -- only the stream `k` has the key of the item
  have hkey : ∀ {j i ys}, m.Open j i ys → j ≠ k → key a ≠ i := fun hj hjk heq =>
    hjk (h.open_unique (heq ▸ hj) hopen)
  refine ⟨hle, h.sent_ne, hne, h.reuse, ?_, ?_, fun j hj => (h.done_started j hj).trans_le hlen, ?_, ?_⟩
  · rintro j i ys ⟨hj, hdone⟩
    show (handed[j]?).getD [] ++ rest.filter _ = ys
    have hys := h.conserved j i ys ⟨hj, hdone⟩
    rw [hqueue] at hys
    rcases eq_or_ne j k with rfl | hjk
    · obtain ⟨rfl, -⟩ := Prod.mk.inj (Option.some.inj (hj.symm.trans hopen.sent))
      rw [List.filter_cons_of_pos (by simp)] at hys
      rw [hself, List.append_assoc, List.singleton_append]
      exact hys
    · rw [List.filter_cons_of_neg (by simpa using hkey ⟨hj, hdone⟩ hjk)] at hys
      rw [hother j hjk]
      exact hys
  · intro j i ys hj hdone
    show (handed[j]?).getD [] = ys
    rw [hother j fun heq => hopen.not_done (heq ▸ hdone)]
    exact h.complete j i ys hj hdone
  · intro b hb
    obtain ⟨j, ys, hj, hdone⟩ := h.owned b (by rw [hqueue]; exact List.mem_cons_of_mem _ hb)
    exact ⟨j, ys, hj, hdone⟩
  · intro j j' i i' ys zs hj hjj hsj hsj'
    -- the keys of the streams that are not started yet stand behind the head of the queue
    have hjk : k < j := hk.trans_le hj
    have hj : m.handed.length ≤ j := hlen.trans hj
    have hidx := h.order j j' i i' ys zs hj hjj hsj hsj'
    rw [hqueue, List.map_cons, List.idxOf_cons_ne _ (hkey ⟨hsj, h.not_done_of_le hj⟩ hjk.ne'),
      List.idxOf_cons_ne _ (hkey ⟨hsj', h.not_done_of_le (hj.trans hjj.le)⟩ (hjk.trans hjj).ne')] at hidx
    exact Nat.lt_of_succ_lt_succ hidx

theorem hand (h : m.Inv key) (hqueue : m.queue = a :: rest) (hopen : m.Open k (key a) xs)
    (hk : k < m.handed.length) : (m.hand k a rest).Inv key := by
  have hlen : (m.handed.set k (m.handedTo k ++ [a])).length = m.handed.length := List.length_set
  refine h.take_head hqueue hopen hlen.ge (hlen ▸ hk) (hlen ▸ h.started) ?_ ?_ ?_
  · intro j ys hj
    rcases getElem?_set_cases hj with ⟨-, rfl⟩ | ⟨-, hj⟩
    · exact List.concat_ne_nil _ _
    · exact h.handed_ne j ys hj
  · rw [List.getElem?_set_self hk, Option.getD_some]
  · intro j hne
    rw [List.getElem?_set_ne hne.symm]
    rfl

theorem start (h : m.Inv key) (hqueue : m.queue = a :: rest) (hopen : m.Open m.handed.length (key a) xs) :
    (m.start a rest).Inv key := by
  have hlen : (m.handed ++ [[a]]).length = m.handed.length + 1 := by
    rw [List.length_append, List.length_singleton]
  refine h.take_head hqueue hopen ?_ ?_ ?_ ?_ ?_ ?_
  · rw [hlen]
    exact Nat.le_succ _
  · rw [hlen]
    exact Nat.lt_succ_self _
  · rw [hlen]
    exact (List.getElem?_eq_some_iff.1 hopen.sent).1
  · intro j ys hj
    rcases getElem?_concat_cases hj with hj | ⟨-, rfl⟩
    · exact h.handed_ne j ys hj
    · exact List.cons_ne_nil _ _
  · rw [List.getElem?_concat_length, handedTo_of_le (Nat.le_refl _), Option.getD_some, List.nil_append]
  · intro j hne
    rcases Nat.lt_or_gt_of_ne hne with hlt | hgt
    · rw [List.getElem?_append_left hlt]
      rfl
    · rw [handedTo_of_le (Nat.le_of_lt hgt), List.getElem?_eq_none (by rw [hlen]; exact hgt), Option.getD_none]

theorem close (h : m.Inv key) (hk : k < m.handed.length) (hsent : m.sent[k]? = some (i, xs))
    (hall : m.handedTo k = xs) : (m.close k).Inv key := by
  refine ⟨h.started, h.sent_ne, h.handed_ne, ?_, ?_, ?_, ?_, ?_, h.order⟩
  · intro j j' i' ys zs hjj hj hj'
    exact Set.mem_insert_of_mem _ (h.reuse j j' i' ys zs hjj hj hj')
  · rintro j i' ys ⟨hj, hdone⟩
    exact h.conserved j i' ys ⟨hj, fun hmem => hdone (Set.mem_insert_of_mem _ hmem)⟩
  · intro j i' ys hj hdone
    rcases hdone with rfl | hdone
    · obtain ⟨-, rfl⟩ := Prod.mk.inj (Option.some.inj (hj.symm.trans hsent))
      exact hall
    · exact h.complete j i' ys hj hdone
  · rintro j (rfl | hdone)
    · exact hk
    · exact h.done_started j hdone
  · intro b hb
    obtain ⟨j, ys, hj, hdone⟩ := h.owned b hb
    refine ⟨j, ys, hj, ?_⟩
    rintro (rfl | hmem)
    · -- nothing of the stream is left in the queue
      obtain ⟨rfl, rfl⟩ := Prod.mk.inj (Option.some.inj (hj.symm.trans hsent))
      have hxs := h.conserved j (key b) ys ⟨hj, hdone⟩
      rw [hall, List.append_right_eq_self, List.filter_eq_nil_iff] at hxs
      exact hxs b hb (by simp)
    · exact hdone hmem

end Inv

end Mux

end Wire

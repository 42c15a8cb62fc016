import Tchannel.Lib.Bytes
import Mathlib.Data.Finmap

/-!
# Strings as UTF-8, and maps without an order

`utf8` and `fromUtf8` convert between strings and their bytes. `HashMap` is a finite map; `Iter m` is
the type of the orders in which its entries can be visited, of which a program may rely on none.
-/

namespace Wire

/-! ### UTF-8 -/

/-- The bytes of a string. -/
def utf8 (s : String) : Bytes := s.toByteArray.data.toList

/-- The string whose bytes are `b`, if `b` is well-formed UTF-8. -/
def fromUtf8 (b : Bytes) : Option String := String.fromUTF8? b.toByteArray

theorem utf8_toByteArray (s : String) : (utf8 s).toByteArray = s.toByteArray := by
  apply ByteArray.ext
  apply Array.toList_inj.1
  rw [List.toList_data_toByteArray, utf8]

@[simp] theorem fromUtf8_utf8 (s : String) : fromUtf8 (utf8 s) = some s := by
  have hv : (utf8 s).toByteArray.IsValidUTF8 := by rw [utf8_toByteArray]; exact s.isValidUTF8
  rw [fromUtf8, String.fromUTF8?, dif_pos hv]
  congr 1
  apply String.toByteArray_inj.1
  exact utf8_toByteArray s

theorem utf8_of_fromUtf8 {b : Bytes} {s : String} (h : fromUtf8 b = some s) : utf8 s = b := by
  rw [fromUtf8, String.fromUTF8?] at h
  split at h
  · rw [← Option.some.inj h, utf8]
    exact List.toList_data_toByteArray
  · cases h

theorem utf8_length_le (s : String) : (utf8 s).length ≤ 4 * s.length := by
  have hsize : ∀ s : String, (utf8 s).length = s.utf8ByteSize := by
    intro s
    rw [utf8, Array.length_toList]
    rfl
  rw [hsize]
  obtain ⟨l, rfl⟩ : ∃ l, s = String.ofList l := ⟨s.toList, by simp⟩
  induction l with
  | nil => simp
  | cons c l ih =>
    have := c.utf8Size_le_four
    simp only [String.ofList_cons, String.utf8ByteSize_append, String.length_append,
      String.utf8ByteSize_singleton, String.length_singleton]
    omega

/-- The length of the longest well-formed start of `b`. -/
def validUpTo (b : Bytes) : Nat :=
  ((List.range (b.length + 1)).filter fun n => (fromUtf8 (b.take n)).isSome).getLast?.getD 0

/-- For ill-formed `b`, the number of bytes of its first character that can be skipped; `none` if `b`
ends inside that character. -/
def errorLen : Bytes → Option Nat
  | [] => none
  | b₀ :: rest =>
    if 0xC2 ≤ b₀ ∧ b₀ ≤ 0xDF then
      if rest = [] then none else some 1
    else if 0xE0 ≤ b₀ ∧ b₀ ≤ 0xEF then
      match rest with
      | [] => none
      | b₁ :: rest => if ¬ second b₀ b₁ then some 1 else if rest = [] then none else some 2
    else if 0xF0 ≤ b₀ ∧ b₀ ≤ 0xF4 then
      match rest with
      | [] => none
      | [b₁] => if second b₀ b₁ then none else some 1
      | b₁ :: b₂ :: rest =>
        if ¬ second b₀ b₁ then some 1
        else if ¬ (0x80 ≤ b₂ ∧ b₂ ≤ 0xBF) then some 2
        else if rest = [] then none else some 3
    else some 1
where
  /-- The second bytes that may follow `b₀` in a character of three or four bytes. -/
  second (b₀ b₁ : UInt8) : Bool :=
    match b₀ with
    | 0xE0 => 0xA0 ≤ b₁ ∧ b₁ ≤ 0xBF
    | 0xED => 0x80 ≤ b₁ ∧ b₁ ≤ 0x9F
    | 0xF0 => 0x90 ≤ b₁ ∧ b₁ ≤ 0xBF
    | 0xF4 => 0x80 ≤ b₁ ∧ b₁ ≤ 0x8F
    | _ => 0x80 ≤ b₁ ∧ b₁ ≤ 0xBF

/-! ### Maps -/

abbrev HashMap (κ ν : Type) := Finmap fun _ : κ => ν

/-- An order in which the entries of `m` are visited. -/
structure Iter {κ ν : Type} (m : HashMap κ ν) where
  entries : List (Σ _ : κ, ν)
  visits : (entries : Multiset (Σ _ : κ, ν)) = m.entries

namespace Iter

variable {κ ν : Type} {m : HashMap κ ν}

theorem nodupKeys (it : Iter m) : it.entries.NodupKeys := by
  have := m.nodupKeys
  rwa [← it.visits, Multiset.coe_nodupKeys] at this

theorem mem_iff [DecidableEq κ] (it : Iter m) {k : κ} {v : ν} :
    ⟨k, v⟩ ∈ it.entries ↔ m.lookup k = some v := by
  rw [Finmap.lookup_eq_some_iff, ← it.visits, Multiset.mem_coe]

end Iter

/-- Inserting `l` entry by entry, as a reader does that meets them in this order. -/
def insertAll {κ ν : Type} [DecidableEq κ] (m : HashMap κ ν) (l : List (Σ _ : κ, ν)) : HashMap κ ν :=
  l.foldl (fun m e => m.insert e.1 e.2) m

theorem lookup_insertAll {κ ν : Type} [DecidableEq κ] (m : HashMap κ ν) (l : List (Σ _ : κ, ν)) (k : κ) :
    (insertAll m l).lookup k = (l.reverse.dlookup k).or (m.lookup k) := by
  induction l generalizing m with
  | nil => rfl
  | cons e l ih =>
    show (insertAll (m.insert e.1 e.2) l).lookup k = _
    rw [ih, List.reverse_cons, List.dlookup_append, Option.or_assoc]
    congr 1
    by_cases hk : k = e.1
    · subst hk
      rw [Finmap.lookup_insert, List.dlookup_cons_eq, Option.some_or]
    · rw [Finmap.lookup_insert_of_ne _ hk, List.dlookup_cons_ne _ _ hk, List.dlookup_nil, Option.none_or]

/-- A map written in any order and read back entry by entry is the same map. -/
theorem insertAll_iter {κ ν : Type} [DecidableEq κ] {m : HashMap κ ν} (it : Iter m) :
    insertAll ∅ it.entries = m := by
  have hnd : it.entries.reverse.NodupKeys := (List.perm_nodupKeys it.entries.reverse_perm).2 it.nodupKeys
  apply Finmap.ext_lookup
  intro k
  rw [lookup_insertAll, Finmap.lookup_empty, Option.or_none]
  ext v
  rw [← it.mem_iff, ← List.mem_reverse]
  exact List.mem_dlookup_iff hnd

theorem insertAll_entries_le {κ ν : Type} [DecidableEq κ] (l : List (Σ _ : κ, ν)) :
    (insertAll ∅ l : HashMap κ ν).entries ≤ (l : Multiset (Σ _ : κ, ν)) := by
  rw [Multiset.le_iff_subset (Finmap.nodup_entries _)]
  rintro ⟨k, v⟩ he
  have hlookup := Finmap.lookup_eq_some_iff.2 he
  rw [lookup_insertAll, Finmap.lookup_empty, Option.or_none] at hlookup
  exact Multiset.mem_coe.2 (List.mem_reverse.1 (List.of_mem_dlookup hlookup))

/-- It holds all of them exactly if no key comes twice. -/
theorem insertAll_entries_eq_iff {κ ν : Type} [DecidableEq κ] {l : List (Σ _ : κ, ν)} :
    (insertAll ∅ l : HashMap κ ν).entries = (l : Multiset (Σ _ : κ, ν)) ↔ l.NodupKeys := by
  constructor
  · intro h
    have := (insertAll ∅ l : HashMap κ ν).nodupKeys
    rwa [h, Multiset.coe_nodupKeys] at this
  · intro h
    have := insertAll_iter (m := ⟨l, Multiset.coe_nodupKeys.2 h⟩) ⟨l, rfl⟩
    rw [this]

/-- What the keys are mapped to, changed for each. -/
def mapValues {κ ν ν' : Type} (f : κ → ν → ν') (m : HashMap κ ν) : HashMap κ ν' where
  entries := m.entries.map fun e => ⟨e.1, f e.1 e.2⟩
  nodupKeys := by
    have h := Multiset.nodup_keys.2 m.nodupKeys
    rw [← Multiset.nodup_keys, Multiset.keys, Multiset.map_map]
    exact h

theorem lookup_mapValues {κ ν ν' : Type} [DecidableEq κ] (f : κ → ν → ν') (m : HashMap κ ν) (k : κ) :
    (mapValues f m).lookup k = (m.lookup k).map (f k) := by
  ext v
  rw [Option.map_eq_some_iff, Finmap.lookup_eq_some_iff]
  constructor
  · intro h
    obtain ⟨e, he, heq⟩ := Multiset.mem_map.1 h
    obtain ⟨rfl, hv⟩ := Sigma.mk.inj heq
    exact ⟨e.2, Finmap.lookup_eq_some_iff.2 he, eq_of_heq hv⟩
  · rintro ⟨v, hv, rfl⟩
    exact Multiset.mem_map.2 ⟨_, Finmap.lookup_eq_some_iff.1 hv, rfl⟩

end Wire

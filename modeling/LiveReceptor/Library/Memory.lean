import Mathlib.Data.List.Basic

namespace LiveReceptor

-- A block of memory of a known size. A new one holds anything.
abbrev Allocation (α : Type*) (size : Nat) := { memory : List α // memory.length = size }

namespace Memory

variable {α : Type*} {block written bytes : List α} {position n : Nat}

-- Bytes stored at a position. Those beyond the end of the block are not kept.
def store (block : List α) (position : Nat) (bytes : List α) : List α :=
  block.take position ++ bytes.take (block.length - position) ++ block.drop (position + bytes.length)

theorem length_store (block : List α) (position : Nat) (bytes : List α) (h : position ≤ block.length) :
    (store block position bytes).length = block.length := by
  simp only [store, List.length_append, List.length_take, List.length_drop]
  omega

-- What lies before the position is untouched.
theorem take_store_of_le (h : n ≤ position) (hposition : position ≤ block.length) :
    (store block position bytes).take n = block.take n := by
  have hn : n ≤ (block.take position).length := by
    rw [List.length_take]
    omega
  rw [store, List.append_assoc, List.take_append_of_le_length hn, List.take_take, Nat.min_eq_left h]

theorem drop_store (hposition : position ≤ block.length) : (store block position bytes).drop position =
    bytes.take (block.length - position) ++ block.drop (position + bytes.length) := by
  have hfront : (block.take position).length = position := by
    rw [List.length_take, Nat.min_eq_left hposition]
  rw [store, List.append_assoc]
  exact List.drop_left' hfront

-- What a store of as many bytes takes the place of.
theorem store_between {front old back : List α} (hposition : front.length = position)
    (hlength : old.length = bytes.length) :
    store (front ++ (old ++ back)) position bytes = front ++ (bytes ++ back) := by
  have hfits : bytes.take ((front ++ (old ++ back)).length - position) = bytes := by
    apply List.take_of_length_le
    simp only [List.length_append]
    omega
  rw [store, hfits, ← List.drop_drop, List.take_left' hposition, List.drop_left' hposition, ← hlength,
    List.drop_left, List.append_assoc]

theorem exists_cut (h : n ≤ block.length) :
    ∃ front back, block = front ++ back ∧ front.length = n ∧ back.length = block.length - n :=
  ⟨block.take n, block.drop n, (List.take_append_drop n block).symm, List.length_take_of_le h,
    List.length_drop⟩

-- Stores one after the other, each at its own position.
def storeEach (block : List α) (stores : List (Nat × List α)) : List α :=
  stores.foldl (fun block one => store block one.1 one.2) block

-- None of them goes beyond the end of a block of this size.
def Inside (size : Nat) (stores : List (Nat × List α)) : Prop :=
  ∀ one ∈ stores, one.1 + one.2.length ≤ size

instance (size : Nat) (stores : List (Nat × List α)) : Decidable (Inside size stores) :=
  List.decidableBAll _ _

-- Fields stored one behind the other, from a position on.
def storeAll (block : List α) (position : Nat) : List (List α) → List α
  | [] => block
  | bytes :: rest => storeAll (store block position bytes) (position + bytes.length) rest

-- When they fill the block, nothing of what it held before is left.
theorem storeAll_eq (fields : List (List α)) (h : position + fields.flatten.length = block.length) :
    storeAll block position fields = block.take position ++ fields.flatten := by
  induction fields generalizing block position with
  | nil =>
      have hposition : position = block.length := by simpa using h
      rw [storeAll, List.flatten_nil, List.append_nil, hposition, List.take_length]
  | cons bytes rest ih =>
      rw [List.flatten_cons, List.length_append] at h
      have hlength := length_store block position bytes (by omega)
      have hbytes : bytes.take (block.length - position) = bytes :=
        List.take_of_length_le (by omega)
      have hfront : (block.take position ++ bytes).length = position + bytes.length := by
        rw [List.length_append, List.length_take, Nat.min_eq_left (by omega)]
      rw [storeAll, ih (by omega), List.flatten_cons, ← List.append_assoc]
      congr 1
      rw [store, hbytes, ← hfront, List.take_left]

-- Two fields with one element between them, stored last. What the stores have
-- written beyond their fields is overwritten or was not kept.
theorem set_store_store {a b : Nat} {first second : List α} (x : α) (hblock : block.length = a + 1 + b)
    (ha : a ≤ first.length) (hb : b ≤ second.length) :
    (store (store block 0 first) (a + 1) second).set a x = first.take a ++ x :: second.take b := by
  have hfirst : (store block 0 first).length = a + 1 + b :=
    (length_store block 0 first (Nat.zero_le _)).trans hblock
  have hlength : (store (store block 0 first) (a + 1) second).length = a + 1 + b :=
    (length_store _ (a + 1) second (by omega)).trans hfirst
  have hfront : (store block 0 first).take a = first.take a := by
    have hwhole : a ≤ (first.take (block.length - 0)).length := by
      rw [List.length_take]
      omega
    rw [store, List.take_zero, List.nil_append, List.take_append_of_le_length hwhole, List.take_take,
      Nat.min_eq_left (by omega)]
  have hback : (store (store block 0 first) (a + 1) second).drop (a + 1) = second.take b := by
    have hfield : (store block 0 first).length - (a + 1) = b := by omega
    have hnothing : (store block 0 first).drop (a + 1 + second.length) = [] :=
      List.drop_of_length_le (by omega)
    rw [drop_store (by omega), hfield, hnothing, List.append_nil]
  rw [List.set_eq_take_append_cons_drop, if_pos (by omega), hback,
    take_store_of_le (Nat.le_succ a) (by omega), hfront]

end Memory

end LiveReceptor

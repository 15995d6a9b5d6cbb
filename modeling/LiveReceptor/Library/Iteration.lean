import LiveReceptor.Library.RobinHood

-- Iterators over a hash table.
namespace LiveReceptor.RobinHood

variable {α κ : Type*} {key : α → κ} {slots : Slots α} {slot : Slot α} {idx j : Nat}

-- fastForward, to the next slot in use; the end is behind the last slot.
def fastForward (slots : Slots α) (idx : Nat) : Nat :=
  idx + ((slots.drop idx).takeWhile Option.isNone).length

def Table.begin (table : Table key) : Nat := fastForward table.slots 0

-- ++it
def Table.next (table : Table key) (idx : Nat) : Nat := fastForward table.slots (idx + 1)

-- erase of an iterator, which points to a slot in use, and the iterator that it
-- returns. When an element has moved back into the slot, it stays there.
def Table.eraseIterator (table : Table key) (idx : Nat) (slot : Slot α)
    (h : slotAt table.slots idx = some slot) : Table key × Nat :=
  let table := table.free idx slot h
  (table, if infoAt table.slots idx ≠ 0 then idx else table.next idx)

section FastForward

theorem le_fastForward (slots : Slots α) (idx : Nat) : idx ≤ fastForward slots idx :=
  Nat.le_add_right _ _

theorem values_drop_takeWhile (slots : Slots α) :
    values (slots.drop (slots.takeWhile Option.isNone).length) = values slots := by
  induction slots with
  | nil => rfl
  | cons first rest ih =>
      cases first with
      | some slot => rfl
      | none => exact ih

theorem values_eq_nil_of_takeWhile (h : slotAt slots (slots.takeWhile Option.isNone).length = none) :
    values slots = [] := by
  induction slots with
  | nil => rfl
  | cons first rest ih =>
      cases first with
      | some slot => cases h
      | none => exact ih h

-- What is stepped over has nothing in it.
theorem ahead_fastForward (slots : Slots α) (idx : Nat) :
    ahead slots (fastForward slots idx) = ahead slots idx := by
  rw [ahead, ahead, fastForward, ← List.drop_drop, values_drop_takeWhile]

-- There is nothing ahead of the end.
theorem ahead_eq_nil_of_fastForward (h : slotAt slots (fastForward slots idx) = none) :
    ahead slots (fastForward slots idx) = [] := by
  rw [ahead_fastForward]
  rw [fastForward, ← slotAt_drop] at h
  exact values_eq_nil_of_takeWhile h

theorem fastForward_of_some (h : slotAt slots idx = some slot) : fastForward slots idx = idx := by
  rw [fastForward, drop_of_slotAt h]
  rfl

theorem fastForward_of_none (h : slotAt slots idx = none) (hlt : idx < slots.length) :
    fastForward slots idx = fastForward slots (idx + 1) := by
  rw [slotAt, List.getElem?_eq_getElem hlt] at h
  have hnone : slots[idx] = none := h
  rw [fastForward, List.drop_eq_getElem_cons hlt, hnone, fastForward, List.takeWhile_cons_of_pos rfl,
    List.length_cons]
  omega

end FastForward

section Erase

theorem ahead_free (table : Table key) (h : slotAt table.slots idx = some slot) :
    ahead (table.free idx slot h).slots idx = ahead table.slots (idx + 1) := by
  show values ((eraseAt table.infoInc table.slots idx).drop idx) = _
  rw [drop_eraseAt (Nat.le_of_lt (slotAt_lt h)), drop_of_slotAt h, values_shiftDown]
  rfl

theorem values_free (table : Table key) (h : slotAt table.slots idx = some slot) {before : List α}
    (hbefore : values table.slots = before ++ ahead table.slots idx) :
    values (table.free idx slot h).slots = before ++ ahead table.slots (idx + 1) := by
  have hsplit : values table.slots = values (table.slots.take idx) ++ ahead table.slots idx := by
    conv_lhs => rw [← List.take_append_drop idx table.slots]
    exact List.filterMap_append
  rw [List.append_cancel_right (hbefore.symm.trans hsplit)]
  exact values_eraseAt h

-- Only what is behind the slot is moved.
theorem slotAt_free_of_lt (table : Table key) (h : slotAt table.slots idx = some slot) (hj : j < idx) :
    slotAt (table.free idx slot h).slots j = slotAt table.slots j :=
  slotAt_eraseAt_of_lt hj (Nat.le_of_lt (slotAt_lt h))

-- The info byte of a slot in use is not 0.
theorem infoAt_ne_zero_iff (table : Table key) :
    infoAt table.slots idx ≠ 0 ↔ (slotAt table.slots idx).isSome = true := by
  cases hslot : slotAt table.slots idx with
  | none => simp [infoAt, hslot]
  | some slot =>
      have hinfo := (table.reachable idx slot hslot).info
      have hbyte := (table.bytes (key slot.value)).1
      have hpos := table.infoInc_pos (key slot.value)
      rw [infoAt_of_slotAt hslot]
      simp only [Option.isSome_some, iff_true]
      omega

-- Whether an element has moved back or not, the iterator goes on with the next
-- slot in use.
theorem eraseIterator_snd (table : Table key) (h : slotAt table.slots idx = some slot) :
    (table.eraseIterator idx slot h).2 = fastForward (table.free idx slot h).slots idx := by
  have hlt : idx < (table.free idx slot h).slots.length := by
    show idx < (eraseAt table.infoInc table.slots idx).length
    rw [length_eraseAt]
    exact slotAt_lt h
  have hnext : (table.eraseIterator idx slot h).2 = if infoAt (table.free idx slot h).slots idx ≠ 0 then idx
      else (table.free idx slot h).next idx := rfl
  rw [hnext]
  cases hslot : slotAt (table.free idx slot h).slots idx with
  | none =>
      rw [if_neg (by rw [infoAt_ne_zero_iff, hslot]; exact Bool.false_ne_true), Table.next,
        fastForward_of_none hslot hlt]
  | some moved =>
      rw [if_pos (by rw [infoAt_ne_zero_iff, hslot]; rfl), fastForward_of_some hslot]

end Erase

end LiveReceptor.RobinHood

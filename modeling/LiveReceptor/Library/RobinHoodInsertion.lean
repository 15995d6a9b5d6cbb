import Mathlib.Order.Nat
import LiveReceptor.Library.RobinHood

-- Inserting into a table with Robin Hood hashing.
namespace LiveReceptor.RobinHood

variable {α κ : Type*} {key : α → κ} {infoInc : Nat} {slots slots' rest : Slots α} {slot carry : Slot α}
  {home : Nat × Nat} {idx info i j : Nat}

-- The info byte of an element that is one slot further from where it belongs.
def Slot.raised (infoInc : Nat) (slot : Slot α) : Slot α := { slot with info := (slot.info + infoInc) % 256 }

-- The search for the empty spot, shiftUp, and the store of the new element, as one
-- walk over the slots from the one that the new element gets: each element takes the
-- slot of the next one, until a slot is empty. The flag says whether one that has
-- moved cannot be moved again. None if the slots end before.
def shiftUp (infoInc : Nat) (carry : Slot α) : Slots α → Option (Slots α × Bool)
  | [] => none
  | none :: rest => some (some carry :: rest, false)
  | some slot :: rest =>
      let slot := slot.raised infoInc
      (shiftUp infoInc slot rest).map fun (moved, full) =>
        (some carry :: moved, full || decide (255 < slot.info + infoInc))

-- An info byte on its own.
def infoOf : Option (Slot α) → Nat
  | none => 0
  | some slot => slot.info

-- The loop with which insert_move skips forward, over the slots from idx on.
def skipForward (infoInc : Nat) : Slots α → Nat → Nat → Nat × Nat
  | [], idx, info => (idx, info)
  | entry :: rest, idx, info =>
      if info ≤ infoOf entry then skipForward infoInc rest (idx + 1) (info + infoInc) else (idx, info)

def nextWhileLess (infoInc : Nat) : Slots α → Nat → Nat → Nat × Nat
  | [], idx, info => (idx, info)
  | entry :: rest, idx, info =>
      if info < infoOf entry then nextWhileLess infoInc rest (idx + 1) (info + infoInc) else (idx, info)

-- The loop of doInsert while there is potentially a match. The flag says whether the
-- key is there.
def whileMatching [DecidableEq κ] (key : α → κ) (infoInc : Nat) (k : κ) : Slots α → Nat → Nat → Nat × Nat × Bool
  | [], idx, info => (idx, info, false)
  | entry :: rest, idx, info =>
      if info = infoOf entry then
        if entry.map (key ·.value) = some k then (idx, info, true)
        else whileMatching key infoInc k rest (idx + 1) (info + infoInc)
      else (idx, info, false)

-- Where a new element goes: the slots on the way hold elements that are no nearer to
-- where they belong, and that of this one is nearer, if it is in use.
structure InsertionPoint (infoInc : Nat) (slots : Slots α) (home : Nat × Nat) (idx info : Nat) : Prop where
  start : home.1 ≤ idx
  expected : info = home.2 + (idx - home.1) * infoInc
  probed : ∀ j, home.1 ≤ j → j < idx → home.2 + (j - home.1) * infoInc ≤ infoAt slots j
  above : infoAt slots idx < info

-- No byte is too large for this to be added.
def Spare (infoInc : Nat) (slots : Slots α) : Prop := ∀ slot, some slot ∈ slots → slot.info + infoInc ≤ 255

section Slots

theorem mem_of_slotAt (h : slotAt slots idx = some slot) : some slot ∈ slots := by
  have hlt := slotAt_lt h
  rw [slotAt, List.getElem?_eq_getElem hlt] at h
  have hentry : slots[idx] = some slot := h
  exact hentry ▸ List.getElem_mem hlt

theorem values_cons_some (slot : Slot α) (rest : Slots α) : values (some slot :: rest) = slot.value :: values rest :=
  rfl

theorem values_append (slots rest : Slots α) : values (slots ++ rest) = values slots ++ values rest :=
  List.filterMap_append

-- Slots that are all in use have as many elements.
theorem length_values_of_used (h : ∀ j < slots.length, slotAt slots j ≠ none) :
    (values slots).length = slots.length := by
  induction slots with
  | nil => rfl
  | cons entry rest ih =>
      have hrest : ∀ j < rest.length, slotAt rest j ≠ none := fun j hj => by
        rw [← slotAt_cons_succ entry rest j]
        exact h (j + 1) (Nat.succ_lt_succ hj)
      cases entry with
      | none => exact absurd rfl (h 0 (Nat.succ_pos _))
      | some slot => rw [values_cons_some, List.length_cons, List.length_cons, ih hrest]

theorem slotAt_cons_zero (entry : Option (Slot α)) (rest : Slots α) : slotAt (entry :: rest) 0 = entry := rfl

theorem length_shiftUp {moved : Slots α} {full : Bool} (h : shiftUp infoInc carry slots = some (moved, full)) :
    moved.length = slots.length := by
  induction slots generalizing carry moved full with
  | nil => cases h
  | cons entry rest ih =>
      cases entry with
      | none =>
          cases h
          rfl
      | some slot =>
          obtain ⟨⟨moved', full'⟩, hmoved, heq⟩ := Option.map_eq_some_iff.mp h
          cases heq
          rw [List.length_cons, List.length_cons, ih hmoved]

theorem values_shiftUp {moved : Slots α} {full : Bool} (h : shiftUp infoInc carry slots = some (moved, full)) :
    (values moved).Perm (carry.value :: values slots) := by
  induction slots generalizing carry moved full with
  | nil => cases h
  | cons entry rest ih =>
      cases entry with
      | none =>
          cases h
          exact .refl _
      | some slot =>
          obtain ⟨⟨moved', full'⟩, hmoved, heq⟩ := Option.map_eq_some_iff.mp h
          cases heq
          exact (ih hmoved).cons carry.value

-- The walk runs into the end only if there is no empty slot.
theorem shiftUp_eq_none_iff : shiftUp infoInc carry slots = none ↔ ∀ j < slots.length, slotAt slots j ≠ none := by
  induction slots generalizing carry with
  | nil => exact iff_of_true rfl fun j hj => absurd hj (Nat.not_lt_zero j)
  | cons entry rest ih =>
      cases entry with
      | none => exact iff_of_false (by simp [shiftUp]) fun h => h 0 (Nat.succ_pos _) rfl
      | some slot =>
          rw [shiftUp, Option.map_eq_none_iff, ih]
          constructor
          · intro h j hj
            cases j with
            | zero => simp [slotAt_cons_zero]
            | succ j =>
                rw [slotAt_cons_succ]
                exact h j (Nat.lt_of_succ_lt_succ hj)
          · intro h j hj
            rw [← slotAt_cons_succ (some slot) rest j]
            exact h (j + 1) (Nat.succ_lt_succ hj)

-- From the first slot up to the last one each gets what was in the one before, a step
-- further from where it belongs. The last one was empty; all the others stay.
structure Inserted (infoInc : Nat) (slots slots' : Slots α) (carry : Slot α) (first last : Nat) : Prop where
  ordered : first ≤ last
  before : ∀ j, j < first → slotAt slots' j = slotAt slots j
  stored : slotAt slots' first = some carry
  moved : ∀ j, first ≤ j → j < last → slotAt slots' (j + 1) = (slotAt slots j).map (Slot.raised infoInc)
  used : ∀ j, first ≤ j → j < last → slotAt slots j ≠ none
  free : slotAt slots last = none
  behind : ∀ j, last < j → slotAt slots' j = slotAt slots j

theorem inserted_shiftUp {moved : Slots α} {full : Bool} (h : shiftUp infoInc carry slots = some (moved, full)) :
    ∃ last, Inserted infoInc slots moved carry 0 last := by
  induction slots generalizing carry moved full with
  | nil => cases h
  | cons entry rest ih =>
      cases entry with
      | none =>
          cases h
          refine ⟨0, Nat.le_refl 0, fun j hj => absurd hj (Nat.not_lt_zero j), rfl,
            fun j _ hj => absurd hj (Nat.not_lt_zero j), fun j _ hj => absurd hj (Nat.not_lt_zero j), rfl,
            fun j hj => ?_⟩
          obtain ⟨k, rfl⟩ := Nat.exists_eq_succ_of_ne_zero (Nat.ne_of_gt hj)
          rw [slotAt_cons_succ, slotAt_cons_succ]
      | some slot =>
          obtain ⟨⟨moved', full'⟩, hmoved, heq⟩ := Option.map_eq_some_iff.mp h
          cases heq
          obtain ⟨last, hinserted⟩ := ih hmoved
          refine ⟨last + 1, Nat.zero_le _, fun j hj => absurd hj (Nat.not_lt_zero j), rfl, fun j _ hj => ?_,
            fun j _ hj => ?_, hinserted.free, fun j hj => ?_⟩
          · cases j with
            | zero => exact hinserted.stored
            | succ j =>
                rw [slotAt_cons_succ, slotAt_cons_succ]
                exact hinserted.moved j (Nat.zero_le j) (Nat.lt_of_succ_lt_succ hj)
          · cases j with
            | zero => simp [slotAt_cons_zero]
            | succ j =>
                rw [slotAt_cons_succ]
                exact hinserted.used j (Nat.zero_le j) (Nat.lt_of_succ_lt_succ hj)
          · cases j with
            | zero => exact absurd hj (Nat.not_lt_zero _)
            | succ j =>
                rw [slotAt_cons_succ, slotAt_cons_succ]
                exact hinserted.behind j (Nat.lt_of_succ_lt_succ hj)

theorem Inserted.infoAt_before {first last : Nat} (h : Inserted infoInc slots slots' carry first last)
    (hj : j < first) : infoAt slots' j = infoAt slots j := by
  rw [infoAt, infoAt, h.before j hj]

theorem Inserted.infoAt_behind {first last : Nat} (h : Inserted infoInc slots slots' carry first last)
    (hj : last < j) : infoAt slots' j = infoAt slots j := by
  rw [infoAt, infoAt, h.behind j hj]

-- The flag tells whether all those that have moved can be moved again.
theorem spare_shiftUp {moved : Slots α} (h : shiftUp infoInc carry slots = some (moved, false))
    (hcarry : carry.info + infoInc ≤ 255) (hspare : Spare infoInc slots) : Spare infoInc moved := by
  induction slots generalizing carry moved with
  | nil => cases h
  | cons entry rest ih =>
      have hrest : Spare infoInc rest := fun slot hslot => hspare slot (List.mem_cons_of_mem _ hslot)
      cases entry with
      | none =>
          cases h
          intro slot hslot
          rcases List.mem_cons.mp hslot with heq | hslot
          · rwa [Option.some.inj heq]
          · exact hrest slot hslot
      | some slot =>
          obtain ⟨⟨moved', full'⟩, hmoved, heq⟩ := Option.map_eq_some_iff.mp h
          obtain ⟨rfl, hflag⟩ := Prod.mk.inj heq
          obtain ⟨rfl, hraised⟩ := Bool.or_eq_false_iff.mp hflag
          have hnext := ih hmoved (Nat.not_lt.mp (of_decide_eq_false hraised)) hrest
          intro other hother
          rcases List.mem_cons.mp hother with heq | hother
          · rwa [Option.some.inj heq]
          · exact hnext other hother

-- A stored byte is a byte.
theorem bytes_shiftUp {moved : Slots α} {full : Bool} (h : shiftUp infoInc carry slots = some (moved, full))
    (hcarry : carry.info ≤ 255) (hbytes : Spare 0 slots) : Spare 0 moved := by
  induction slots generalizing carry moved full with
  | nil => cases h
  | cons entry rest ih =>
      have hrest : Spare 0 rest := fun slot hslot => hbytes slot (List.mem_cons_of_mem _ hslot)
      cases entry with
      | none =>
          cases h
          intro slot hslot
          rcases List.mem_cons.mp hslot with heq | hslot
          · rwa [Option.some.inj heq]
          · exact hrest slot hslot
      | some slot =>
          obtain ⟨⟨moved', full'⟩, hmoved, heq⟩ := Option.map_eq_some_iff.mp h
          obtain ⟨rfl, -⟩ := Prod.mk.inj heq
          have hraised : (slot.raised infoInc).info ≤ 255 :=
            Nat.le_of_lt_succ (Nat.mod_lt _ (Nat.succ_pos 255))
          have hnext := ih hmoved hraised hrest
          intro other hother
          rcases List.mem_cons.mp hother with heq | hother
          · rwa [Option.some.inj heq]
          · exact hnext other hother

theorem inserted_append {moved : Slots α} {last : Nat} (hidx : idx ≤ slots.length)
    (h : Inserted infoInc (slots.drop idx) moved carry 0 last) :
    Inserted infoInc slots (slots.take idx ++ moved) carry idx (idx + last) := by
  have hlength : (slots.take idx).length = idx := List.length_take_of_le hidx
  have hmoved : ∀ j, slotAt (slots.take idx ++ moved) (idx + j) = slotAt moved j := fun j => by
    rw [← slotAt_drop, List.drop_left' hlength]
  have hslots : ∀ j, slotAt (slots.drop idx) j = slotAt slots (idx + j) := slotAt_drop slots idx
  refine ⟨Nat.le_add_right _ _, fun j hj => ?_, ?_, fun j hfirst hj => ?_, fun j hfirst hj => ?_, ?_,
    fun j hj => ?_⟩
  · rw [slotAt, List.getElem?_append_left (by omega), List.getElem?_take_of_lt hj, slotAt]
  · rw [← h.stored, ← hmoved 0, Nat.add_zero]
  · obtain ⟨k, rfl⟩ := Nat.exists_eq_add_of_le hfirst
    rw [Nat.add_assoc, hmoved, ← hslots, h.moved k (Nat.zero_le k) (by omega)]
  · obtain ⟨k, rfl⟩ := Nat.exists_eq_add_of_le hfirst
    rw [← hslots]
    exact h.used k (Nat.zero_le k) (by omega)
  · rw [← hslots, h.free]
  · obtain ⟨k, rfl⟩ := Nat.exists_eq_add_of_le (Nat.le_of_lt (Nat.lt_of_le_of_lt (Nat.le_add_right idx last) hj))
    rw [hmoved, ← hslots, h.behind k (by omega)]

end Slots

section Search

theorem infoOf_slotAt (slots : Slots α) (idx : Nat) : infoOf (slotAt slots idx) = infoAt slots idx := by
  rw [infoAt]
  cases slotAt slots idx <;> rfl

theorem slotAt_of_drop {entry : Option (Slot α)} (h : slots.drop idx = entry :: rest) :
    slotAt slots idx = entry ∧ slots.drop (idx + 1) = rest := by
  have hzero : slotAt (slots.drop idx) 0 = slotAt slots idx := slotAt_drop slots idx 0
  refine ⟨by rw [← hzero, h]; rfl, ?_⟩
  rw [← List.tail_drop, h]
  rfl

theorem infoAt_of_drop_eq_nil (h : slots.drop idx = []) : infoAt slots idx = 0 := by
  have hzero : slotAt (slots.drop idx) 0 = slotAt slots idx := slotAt_drop slots idx 0
  rw [infoAt, ← hzero, h]
  rfl

-- One step further the byte that is looked for is one infoInc higher.
theorem expected_succ (h : home.1 ≤ idx) :
    home.2 + (idx + 1 - home.1) * infoInc = home.2 + (idx - home.1) * infoInc + infoInc := by
  rw [Nat.sub_add_comm h, Nat.succ_mul, Nat.add_assoc]

theorem probed_succ (hinfo : info = home.2 + (idx - home.1) * infoInc) (hhere : info ≤ infoAt slots idx)
    (h : ∀ j, home.1 ≤ j → j < idx → home.2 + (j - home.1) * infoInc ≤ infoAt slots j) :
    ∀ j, home.1 ≤ j → j < idx + 1 → home.2 + (j - home.1) * infoInc ≤ infoAt slots j := by
  intro j hhome hj
  rcases Nat.lt_succ_iff_lt_or_eq.mp hj with hj | rfl
  · exact h j hhome hj
  · exact hinfo ▸ hhere

theorem insertionPoint_skipForward (hpos : 0 < home.2) (hrest : slots.drop idx = rest) (hstart : home.1 ≤ idx)
    (hinfo : info = home.2 + (idx - home.1) * infoInc)
    (hprobed : ∀ j, home.1 ≤ j → j < idx → home.2 + (j - home.1) * infoInc ≤ infoAt slots j) :
    InsertionPoint infoInc slots home (skipForward infoInc rest idx info).1
      (skipForward infoInc rest idx info).2 := by
  induction rest generalizing idx info with
  | nil =>
      have habove : infoAt slots idx < info := by
        rw [infoAt_of_drop_eq_nil hrest]
        omega
      exact ⟨hstart, hinfo, hprobed, habove⟩
  | cons entry rest ih =>
      obtain ⟨hentry, hnext⟩ := slotAt_of_drop hrest
      rw [skipForward, ← hentry, infoOf_slotAt]
      split
      · rename_i hskip
        exact ih hnext (by omega) (by rw [expected_succ hstart, hinfo]) (probed_succ hinfo hskip hprobed)
      · rename_i hstop
        exact ⟨hstart, hinfo, hprobed, Nat.not_le.mp hstop⟩

variable {k : κ}

-- None of the slots that the key would be found in holds it.
def Unmatched (infoInc : Nat) (slots : Slots α) (key : α → κ) (k : κ) (home : Nat × Nat) (idx : Nat) : Prop :=
  ∀ j, home.1 ≤ j → j < idx → infoAt slots j = home.2 + (j - home.1) * infoInc →
    (slotAt slots j).map (key ·.value) ≠ some k

-- What the loop of doInsert over the potential matches starts from and keeps.
structure Searching (infoInc : Nat) (slots : Slots α) (key : α → κ) (k : κ) (home : Nat × Nat)
    (idx info : Nat) : Prop where
  start : home.1 ≤ idx
  expected : info = home.2 + (idx - home.1) * infoInc
  probed : ∀ j, home.1 ≤ j → j < idx → home.2 + (j - home.1) * infoInc ≤ infoAt slots j
  unmatched : Unmatched infoInc slots key k home idx
  near : infoAt slots idx ≤ info

theorem searching_nextWhileLess (hrest : slots.drop idx = rest) (hstart : home.1 ≤ idx)
    (hinfo : info = home.2 + (idx - home.1) * infoInc)
    (hprobed : ∀ j, home.1 ≤ j → j < idx → home.2 + (j - home.1) * infoInc < infoAt slots j) :
    Searching infoInc slots key k home (nextWhileLess infoInc rest idx info).1
      (nextWhileLess infoInc rest idx info).2 := by
  induction rest generalizing idx info with
  | nil =>
      have hnear : infoAt slots idx ≤ info := by
        rw [infoAt_of_drop_eq_nil hrest]
        exact Nat.zero_le _
      refine ⟨hstart, hinfo, fun j hhome hj => (hprobed j hhome hj).le, fun j hhome hj hbyte => ?_, hnear⟩
      exact absurd hbyte (hprobed j hhome hj).ne'
  | cons entry rest ih =>
      obtain ⟨hentry, hnext⟩ := slotAt_of_drop hrest
      rw [nextWhileLess, ← hentry, infoOf_slotAt]
      split
      · rename_i hless
        refine ih hnext (by omega) (by rw [expected_succ hstart, hinfo]) fun j hhome hj => ?_
        rcases Nat.lt_succ_iff_lt_or_eq.mp hj with hj | rfl
        · exact hprobed j hhome hj
        · exact hinfo ▸ hless
      · rename_i hstop
        refine ⟨hstart, hinfo, fun j hhome hj => (hprobed j hhome hj).le, fun j hhome hj hbyte => ?_,
          Nat.not_lt.mp hstop⟩
        exact absurd hbyte (hprobed j hhome hj).ne'

variable [DecidableEq κ]

-- Either the key is in the slot, or it is in none and belongs there.
theorem found_or_point (hpos : 0 < home.2)
    (hgradient : ∀ j, slotAt slots j ≠ none → infoAt slots (j + 1) ≤ infoAt slots j + infoInc)
    (hrest : slots.drop idx = rest) (h : Searching infoInc slots key k home idx info) :
    ((whileMatching key infoInc k rest idx info).2.2 = true ∧
        (slotAt slots (whileMatching key infoInc k rest idx info).1).map (key ·.value) = some k) ∨
      ((whileMatching key infoInc k rest idx info).2.2 = false ∧
        InsertionPoint infoInc slots home (whileMatching key infoInc k rest idx info).1
          (whileMatching key infoInc k rest idx info).2.1 ∧
        Unmatched infoInc slots key k home (whileMatching key infoInc k rest idx info).1) := by
  induction rest generalizing idx info with
  | nil =>
      have habove : infoAt slots idx < info := by
        rw [infoAt_of_drop_eq_nil hrest, h.expected]
        omega
      exact Or.inr ⟨rfl, ⟨h.start, h.expected, h.probed, habove⟩, h.unmatched⟩
  | cons entry rest ih =>
      obtain ⟨hentry, hnext⟩ := slotAt_of_drop hrest
      rw [whileMatching, ← hentry, infoOf_slotAt]
      split
      · rename_i hsame
        split
        · rename_i hmatch
          exact Or.inl ⟨rfl, hmatch⟩
        · rename_i hother
          have hused : slotAt slots idx ≠ none := by
            intro hnone
            have hzero : infoAt slots idx = 0 := by rw [infoAt, hnone]
            have hexpected := h.expected
            omega
          refine ih hnext ⟨Nat.le_succ_of_le h.start, by rw [expected_succ h.start, h.expected],
            probed_succ h.expected hsame.le h.probed, fun j hhome hj hbyte => ?_, ?_⟩
          · rcases Nat.lt_succ_iff_lt_or_eq.mp hj with hj | rfl
            · exact h.unmatched j hhome hj hbyte
            · exact hother
          · rw [hsame]
            exact hgradient idx hused
      · rename_i hdiffers
        exact Or.inr ⟨rfl, ⟨h.start, h.expected, h.probed, Nat.lt_of_le_of_ne h.near (Ne.symm hdiffers)⟩,
          h.unmatched⟩

end Search

namespace Table

variable {table : Table key} {first last : Nat}

-- The bytes of slots in use are at least infoInc.
theorem infoInc_le (table : Table key) (h : slotAt table.slots idx = some slot) : table.infoInc ≤ slot.info := by
  have hbytes := (table.bytes (key slot.value)).1
  have hinfo := (table.reachable idx slot h).info
  omega

-- Along the slots the bytes rise by infoInc at most.
theorem infoAt_succ_le (table : Table key) (hused : slotAt table.slots j ≠ none) :
    infoAt table.slots (j + 1) ≤ infoAt table.slots j + table.infoInc := by
  obtain ⟨here, hhere⟩ := Option.ne_none_iff_exists'.mp hused
  have hbyte := table.infoInc_le hhere
  rw [infoAt_of_slotAt hhere]
  cases hnext : slotAt table.slots (j + 1) with
  | none =>
      rw [infoAt, hnext]
      exact Nat.zero_le _
  | some next =>
      have hreach := table.reachable (j + 1) next hnext
      have hbits := (table.bytes (key next.value)).2
      have hinfo := hreach.info
      rw [infoAt_of_slotAt hnext]
      by_cases hhome : (table.keyToIdx (key next.value)).1 ≤ j
      · have hprobed := hreach.probed j (Nat.le_succ j) hhome
        rw [infoAt_of_slotAt hhere] at hprobed
        rw [expected_succ hhome] at hinfo
        omega
      · have hsame : j + 1 - (table.keyToIdx (key next.value)).1 = 0 := by omega
        rw [hsame, Nat.zero_mul] at hinfo
        omega

theorem infoAt_inserted_succ (hspare : Spare table.infoInc table.slots)
    (h : Inserted table.infoInc table.slots slots' carry first last) (hfirst : first ≤ j) (hj : j < last) :
    infoAt slots' (j + 1) = infoAt table.slots j + table.infoInc := by
  obtain ⟨slot, hslot⟩ := Option.ne_none_iff_exists'.mp (h.used j hfirst hj)
  have hnowrap := hspare slot (mem_of_slotAt hslot)
  rw [infoAt, h.moved j hfirst hj, hslot, infoAt_of_slotAt hslot]
  exact Nat.mod_eq_of_lt (by omega)

-- No byte gets smaller.
theorem infoAt_le_inserted (hspare : Spare table.infoInc table.slots)
    (h : Inserted table.infoInc table.slots slots' carry first last)
    (habove : infoAt table.slots first < carry.info) (j : Nat) : infoAt table.slots j ≤ infoAt slots' j := by
  rcases Nat.lt_trichotomy j first with hbefore | rfl | hafter
  · rw [h.infoAt_before hbefore]
  · rw [infoAt_of_slotAt h.stored]
    exact habove.le
  · obtain ⟨k, rfl⟩ := Nat.exists_eq_succ_of_ne_zero (Nat.ne_of_gt (Nat.lt_of_le_of_lt (Nat.zero_le first) hafter))
    by_cases hlast : k < last
    · rw [infoAt_inserted_succ hspare h (by omega) hlast]
      exact table.infoAt_succ_le (h.used k (by omega) hlast)
    · rw [h.infoAt_behind (by omega)]

-- Every element of the table can be found after the insertion, and so can the new one.
theorem reachable_inserted (table : Table key) (hspare : Spare table.infoInc table.slots)
    (h : Inserted table.infoInc table.slots slots' carry first last)
    (hpoint : InsertionPoint table.infoInc table.slots (table.keyToIdx (key carry.value)) first carry.info) :
    ∀ idx, ∀ slot ∈ slotAt slots' idx,
      Reachable table.infoInc slots' (table.keyToIdx (key slot.value)) idx slot.info := by
  have hgrows := infoAt_le_inserted hspare h hpoint.above
  have hstays : ∀ idx slot, slotAt table.slots idx = some slot →
      Reachable table.infoInc slots' (table.keyToIdx (key slot.value)) idx slot.info := by
    intro idx slot hslot
    have hreach := table.reachable idx slot hslot
    exact ⟨hreach.start, hreach.info, fun j hj hhome => (hreach.probed j hj hhome).trans (hgrows j)⟩
  intro idx slot hslot
  rcases Nat.lt_trichotomy idx first with hbefore | rfl | hafter
  · exact hstays idx slot ((h.before idx hbefore).symm.trans hslot)
  · obtain rfl : carry = slot := Option.some.inj (h.stored.symm.trans hslot)
    refine ⟨hpoint.start, hpoint.expected, fun j hj hhome => ?_⟩
    rcases Nat.lt_or_eq_of_le hj with hj | rfl
    · exact (hpoint.probed j hhome hj).trans (hgrows j)
    · rw [infoAt_of_slotAt h.stored, hpoint.expected]
  · obtain ⟨k, rfl⟩ := Nat.exists_eq_succ_of_ne_zero (Nat.ne_of_gt (Nat.lt_of_le_of_lt (Nat.zero_le first) hafter))
    by_cases hlast : k < last
    · -- the element has come from the slot before
      rw [h.moved k (by omega) hlast] at hslot
      obtain ⟨old, hold, rfl⟩ := Option.map_eq_some_iff.mp hslot
      have hreach := table.reachable k old hold
      have hinfo : (old.raised table.infoInc).info = old.info + table.infoInc :=
        Nat.mod_eq_of_lt (Nat.lt_succ_of_le (hspare old (mem_of_slotAt hold)))
      have hexpected : _ = _ + table.infoInc := expected_succ hreach.start
      refine ⟨Nat.le_succ_of_le hreach.start, ?_, fun j hj hhome => ?_⟩
      · rw [hinfo, hreach.info]
        exact hexpected.symm
      · rcases Nat.lt_or_eq_of_le hj with hj | rfl
        · exact (hreach.probed j (Nat.le_of_lt_succ hj) hhome).trans (hgrows j)
        · rw [infoAt_inserted_succ hspare h (by omega) hlast, infoAt_of_slotAt hold, hreach.info]
          exact hexpected.le
    · rw [h.behind (k + 1) (by omega)] at hslot
      exact hstays (k + 1) slot hslot

end Table

end LiveReceptor.RobinHood

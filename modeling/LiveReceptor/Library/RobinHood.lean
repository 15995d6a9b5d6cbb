import Mathlib.Data.List.Nodup
import Mathlib.Data.List.Pairwise

namespace LiveReceptor

-- Hash tables with open addressing and Robin Hood hashing.
namespace RobinHood

variable {α κ : Type*}

-- A slot that is in use. The info byte counts how far the slot is from the first
-- one that its key may be in, in steps of infoInc, with some bits of the hash
-- below.
structure Slot (α : Type*) where
  info : Nat
  value : α
  deriving DecidableEq, Repr

abbrev Slots (α : Type*) := List (Option (Slot α))

def slotAt (slots : Slots α) (idx : Nat) : Option (Slot α) := (slots[idx]?).join

-- The info byte; that of a slot that is not in use is 0.
def infoAt (slots : Slots α) (idx : Nat) : Nat :=
  match slotAt slots idx with
  | none => 0
  | some slot => slot.info

def values (slots : Slots α) : List α := slots.filterMap (Option.map Slot.value)

def Slot.moved (infoInc : Nat) (slot : Slot α) : Slot α := { slot with info := slot.info - infoInc }

-- shiftDown, from the slot that gets free: those behind it that are not where
-- their keys belong move back by one.
def shiftDown (infoInc : Nat) : Slots α → Slots α
  | [] => []
  | [_] => [none]
  | _ :: none :: rest => none :: none :: rest
  | _ :: some slot :: rest =>
      if 2 * infoInc ≤ slot.info then some (slot.moved infoInc) :: shiftDown infoInc (some slot :: rest)
      else none :: some slot :: rest

-- The loop of find and of erase, with `fuel` slots left.
def probe [DecidableEq κ] (slots : Slots α) (key : α → κ) (infoInc : Nat) (k : κ) :
    Nat → Nat → Nat → Option Nat
  | 0, _, _ => none
  | fuel + 1, idx, info =>
      if infoAt slots idx = info ∧ (slotAt slots idx).map (key ·.value) = some k then some idx
      else if info + infoInc ≤ infoAt slots (idx + 1) then
        probe slots key infoInc k fuel (idx + 1) (info + infoInc)
      else none

-- A slot from which a key is found: it is reached without a slot on the way that
-- is nearer to where its own key belongs. `home` is what keyToIdx gives.
structure Reachable (infoInc : Nat) (slots : Slots α) (home : Nat × Nat) (idx info : Nat) : Prop where
  start : home.1 ≤ idx
  info : info = home.2 + (idx - home.1) * infoInc
  probed : ∀ j, j ≤ idx → home.1 ≤ j → home.2 + (j - home.1) * infoInc ≤ infoAt slots j

-- A table in which every element can be found, and at most one under each key.
structure Table (key : α → κ) where
  infoInc : Nat
  keyToIdx : κ → Nat × Nat
  bytes : ∀ k, infoInc ≤ (keyToIdx k).2 ∧ (keyToIdx k).2 < 2 * infoInc
  slots : Slots α
  reachable : ∀ idx, ∀ slot ∈ slotAt slots idx,
    Reachable infoInc slots (keyToIdx (key slot.value)) idx slot.info
  nodup : ((values slots).map key).Nodup

variable {infoInc : Nat} {slots rest : Slots α} {slot : Slot α} {idx i j : Nat}

section Slots

theorem slotAt_lt (h : slotAt slots idx = some slot) : idx < slots.length := by
  by_contra hout
  rw [slotAt, List.getElem?_eq_none (Nat.not_lt.mp hout)] at h
  cases h

theorem infoAt_of_slotAt (h : slotAt slots idx = some slot) : infoAt slots idx = slot.info := by
  rw [infoAt, h]

theorem slotAt_drop (slots : Slots α) (i j : Nat) : slotAt (slots.drop i) j = slotAt slots (i + j) := by
  rw [slotAt, slotAt, List.getElem?_drop]

theorem slotAt_cons_succ (first : Option (Slot α)) (rest : Slots α) (j : Nat) :
    slotAt (first :: rest) (j + 1) = slotAt rest j := by
  rw [slotAt, slotAt, List.getElem?_cons_succ]

theorem length_shiftDown (slots : Slots α) : (shiftDown infoInc slots).length = slots.length := by
  fun_induction shiftDown infoInc slots with
  | case1 => rfl
  | case2 => rfl
  | case3 => rfl
  | case4 first slot rest hmoves ih =>
      rw [List.length_cons, ih]
      rfl
  | case5 => rfl

-- What is in the table afterwards, in the order of the slots.
theorem values_shiftDown (first : Option (Slot α)) (rest : Slots α) :
    values (shiftDown infoInc (first :: rest)) = values rest := by
  induction rest generalizing first with
  | nil => rfl
  | cons next rest ih =>
      cases next with
      | none => rfl
      | some slot =>
          rw [shiftDown]
          split
          · exact congrArg (slot.value :: ·) (ih (some slot))
          · rfl

-- From the first slot up to the last one each gets what was in the next one, a step
-- nearer to where it belongs. The last one gets free; all the others stay as they are.
structure Shifted (infoInc : Nat) (slots slots' : Slots α) (first last : Nat) : Prop where
  ordered : first ≤ last
  before : ∀ j, j < first → slotAt slots' j = slotAt slots j
  moved : ∀ j, first ≤ j → j < last → slotAt slots' j = (slotAt slots (j + 1)).map (Slot.moved infoInc)
  far : ∀ j, first ≤ j → j < last → 2 * infoInc ≤ infoAt slots (j + 1)
  free : slotAt slots' last = none
  behind : ∀ j, last < j → slotAt slots' j = slotAt slots j
  near : infoAt slots (last + 1) < 2 * infoInc

-- The first slot gets free at once.
theorem shifted_none {next : Slots α} (first : Option (Slot α))
    (hnear : infoAt (first :: next) 1 < 2 * infoInc) :
    Shifted infoInc (first :: next) (none :: next) 0 0 := by
  refine ⟨Nat.le_refl 0, fun j hj => absurd hj (Nat.not_lt_zero j), fun j _ hj => absurd hj (Nat.not_lt_zero j),
    fun j _ hj => absurd hj (Nat.not_lt_zero j), rfl, fun j hj => ?_, hnear⟩
  obtain ⟨k, rfl⟩ := Nat.exists_eq_succ_of_ne_zero (Nat.ne_of_gt hj)
  rw [slotAt_cons_succ, slotAt_cons_succ]

theorem shifted_shiftDown (hinc : 0 < infoInc) (first : Option (Slot α)) (rest : Slots α) :
    ∃ last, Shifted infoInc (first :: rest) (shiftDown infoInc (first :: rest)) 0 last := by
  induction rest generalizing first with
  | nil =>
      refine ⟨0, shifted_none first ?_⟩
      show 0 < 2 * infoInc
      omega
  | cons next rest ih =>
      cases next with
      | none =>
          refine ⟨0, shifted_none first ?_⟩
          show 0 < 2 * infoInc
          omega
      | some slot =>
          rw [shiftDown]
          split
          · rename_i hfar
            obtain ⟨last, h⟩ := ih (some slot)
            refine ⟨last + 1, Nat.zero_le _, fun j hj => absurd hj (Nat.not_lt_zero j), fun j _ hj => ?_,
              fun j _ hj => ?_, h.free, fun j hj => ?_, h.near⟩
            · cases j with
              | zero => rfl
              | succ j =>
                  rw [slotAt_cons_succ, slotAt_cons_succ]
                  exact h.moved j (Nat.zero_le j) (Nat.lt_of_succ_lt_succ hj)
            · cases j with
              | zero => exact hfar
              | succ j => exact h.far j (Nat.zero_le j) (Nat.lt_of_succ_lt_succ hj)
            · cases j with
              | zero => exact absurd hj (Nat.not_lt_zero _)
              | succ j =>
                  rw [slotAt_cons_succ, slotAt_cons_succ]
                  exact h.behind j (Nat.lt_of_succ_lt_succ hj)
          · rename_i hnear
            exact ⟨0, shifted_none first (Nat.not_le.mp hnear)⟩

-- Erasing the element of a slot.
def eraseAt (infoInc : Nat) (slots : Slots α) (idx : Nat) : Slots α :=
  slots.take idx ++ shiftDown infoInc (slots.drop idx)

theorem length_eraseAt (idx : Nat) : (eraseAt infoInc slots idx).length = slots.length := by
  rw [eraseAt, List.length_append, length_shiftDown, ← List.length_append, List.take_append_drop]

theorem slotAt_eraseAt_of_lt (h : j < idx) (hidx : idx ≤ slots.length) :
    slotAt (eraseAt infoInc slots idx) j = slotAt slots j := by
  have hj : j < (slots.take idx).length := by
    rw [List.length_take]
    omega
  rw [slotAt, eraseAt, List.getElem?_append_left hj, List.getElem?_take_of_lt h, slotAt]

theorem drop_eraseAt (hidx : idx ≤ slots.length) :
    (eraseAt infoInc slots idx).drop idx = shiftDown infoInc (slots.drop idx) :=
  List.drop_left' (List.length_take_of_le hidx)

theorem slotAt_eraseAt_add (hidx : idx ≤ slots.length) (j : Nat) :
    slotAt (eraseAt infoInc slots idx) (idx + j) = slotAt (shiftDown infoInc (slots.drop idx)) j := by
  rw [← slotAt_drop, drop_eraseAt hidx]

theorem drop_of_slotAt (h : slotAt slots idx = some slot) :
    slots.drop idx = some slot :: slots.drop (idx + 1) := by
  have hlt := slotAt_lt h
  rw [slotAt, List.getElem?_eq_getElem hlt] at h
  rw [List.drop_eq_getElem_cons hlt]
  exact congrArg (· :: _) h

theorem values_eraseAt (h : slotAt slots idx = some slot) :
    values (eraseAt infoInc slots idx) = values (slots.take idx) ++ values (slots.drop (idx + 1)) := by
  rw [eraseAt, values, List.filterMap_append, drop_of_slotAt h]
  exact congrArg (_ ++ ·) (values_shiftDown (some slot) _)

theorem shifted_eraseAt (hinc : 0 < infoInc) (h : slotAt slots idx = some slot) :
    ∃ last, Shifted infoInc slots (eraseAt infoInc slots idx) idx last := by
  have hidx := Nat.le_of_lt (slotAt_lt h)
  obtain ⟨last, hshifted⟩ := shifted_shiftDown hinc (some slot) (slots.drop (idx + 1))
  rw [← drop_of_slotAt h] at hshifted
  have hinfo : ∀ j, infoAt (slots.drop idx) j = infoAt slots (idx + j) := fun j => by
    rw [infoAt, infoAt, slotAt_drop]
  refine ⟨idx + last, Nat.le_add_right _ _, fun j hj => slotAt_eraseAt_of_lt hj hidx, fun j hfirst hj => ?_,
    fun j hfirst hj => ?_, ?_, fun j hj => ?_, ?_⟩
  · obtain ⟨k, rfl⟩ := Nat.exists_eq_add_of_le hfirst
    have hmoved := hshifted.moved k (Nat.zero_le k) (by omega)
    rw [slotAt_drop, ← Nat.add_assoc] at hmoved
    rw [slotAt_eraseAt_add hidx, hmoved]
  · obtain ⟨k, rfl⟩ := Nat.exists_eq_add_of_le hfirst
    have hfar := hshifted.far k (Nat.zero_le k) (by omega)
    rw [hinfo, ← Nat.add_assoc] at hfar
    exact hfar
  · rw [slotAt_eraseAt_add hidx, hshifted.free]
  · obtain ⟨k, rfl⟩ := Nat.exists_eq_add_of_le (Nat.le_of_lt (Nat.lt_of_le_of_lt (Nat.le_add_right _ _) hj))
    have hbehind := hshifted.behind k (by omega)
    rw [slotAt_drop] at hbehind
    rw [slotAt_eraseAt_add hidx, hbehind]
  · have hnear := hshifted.near
    rw [hinfo, ← Nat.add_assoc] at hnear
    exact hnear

section Shifted

variable {slots' : Slots α} {first last : Nat} {home : Nat × Nat} {info : Nat}

theorem Shifted.infoAt_before (h : Shifted infoInc slots slots' first last) (hj : j < first) :
    infoAt slots' j = infoAt slots j := by
  rw [infoAt, infoAt, h.before j hj]

theorem Shifted.infoAt_behind (h : Shifted infoInc slots slots' first last) (hj : last < j) :
    infoAt slots' j = infoAt slots j := by
  rw [infoAt, infoAt, h.behind j hj]

theorem Shifted.infoAt_moved (h : Shifted infoInc slots slots' first last) (hfirst : first ≤ j)
    (hj : j < last) : infoAt slots' j = infoAt slots (j + 1) - infoInc := by
  rw [infoAt, h.moved j hfirst hj, infoAt]
  cases slotAt slots (j + 1) with
  | none => exact (Nat.zero_sub infoInc).symm
  | some slot => rfl

-- What has not moved can be found where it was.
theorem Shifted.reachable_of_stays (h : Shifted infoInc slots slots' first last) (hinc : infoInc ≤ home.2)
    (hidx : idx < first ∨ last < idx) (hreach : Reachable infoInc slots home idx info) :
    Reachable infoInc slots' home idx info := by
  refine ⟨hreach.start, hreach.info, fun j hj hhome => ?_⟩
  have hprobed := hreach.probed j hj hhome
  rcases hidx with hbefore | hbehind
  · rw [h.infoAt_before (Nat.lt_of_le_of_lt hj hbefore)]
    exact hprobed
  · -- it would not have been reached across the last slot
    have hstart : last < home.1 := by
      by_contra hacross
      have hnext := hreach.probed (last + 1) hbehind (by omega)
      have hstep : 1 * infoInc ≤ (last + 1 - home.1) * infoInc := Nat.mul_le_mul_right _ (by omega)
      have hnear := h.near
      omega
    rw [h.infoAt_behind (Nat.lt_of_lt_of_le hstart hhome)]
    exact hprobed

-- What has moved can be found one slot before.
theorem Shifted.reachable_of_moved (h : Shifted infoInc slots slots' first last) (hbits : home.2 < 2 * infoInc)
    (hfirst : first ≤ idx) (hidx : idx < last) (hinfo : infoAt slots (idx + 1) = info)
    (hreach : Reachable infoInc slots home (idx + 1) info) :
    Reachable infoInc slots' home idx (info - infoInc) := by
  have hfar := h.far idx hfirst hidx
  have hstart : home.1 ≤ idx := by
    by_contra hhome
    have hsame : idx + 1 - home.1 = 0 := by omega
    have hbyte := hreach.info
    rw [hsame, Nat.zero_mul] at hbyte
    omega
  have hstep : ∀ j, home.1 ≤ j → (j + 1 - home.1) * infoInc = (j - home.1) * infoInc + infoInc := by
    intro j hj
    rw [Nat.sub_add_comm hj, Nat.succ_mul]
  refine ⟨hstart, ?_, fun j hj hhome => ?_⟩
  · have hbyte := hreach.info
    rw [hstep idx hstart] at hbyte
    omega
  · by_cases hbefore : j < first
    · rw [h.infoAt_before hbefore]
      exact hreach.probed j (by omega) hhome
    · have hnext := hreach.probed (j + 1) (by omega) (by omega)
      rw [hstep j hhome] at hnext
      rw [h.infoAt_moved (Nat.not_lt.mp hbefore) (by omega)]
      omega

end Shifted

end Slots

namespace Table

variable {key : α → κ}

theorem infoInc_pos (table : Table key) (k : κ) : 0 < table.infoInc := by
  obtain ⟨hinc, hbits⟩ := table.bytes k
  omega

-- No two slots hold the same key.
theorem idx_unique (table : Table key) {other : Slot α} (hi : slotAt table.slots i = some slot)
    (hj : slotAt table.slots j = some other) (hkey : key slot.value = key other.value) : i = j := by
  have hpairs : table.slots.Pairwise fun a b => ∀ x ∈ a.map Slot.value, ∀ y ∈ b.map Slot.value, key x ≠ key y :=
    List.pairwise_filterMap.mp (List.pairwise_map.mp table.nodup)
  have hat : ∀ {idx : Nat} {slot : Slot α}, slotAt table.slots idx = some slot →
      ∀ hlt : idx < table.slots.length, table.slots[idx] = some slot := by
    intro idx slot h hlt
    rw [slotAt, List.getElem?_eq_getElem hlt] at h
    exact h
  have hne : ∀ {i j : Nat} {slot other : Slot α}, slotAt table.slots i = some slot →
      slotAt table.slots j = some other → i < j → key slot.value ≠ key other.value := by
    intro i j slot other hi hj hlt
    refine List.pairwise_iff_getElem.mp hpairs i j (slotAt_lt hi) (slotAt_lt hj) hlt slot.value ?_ other.value ?_
    · rw [hat hi]
      rfl
    · rw [hat hj]
      rfl
  rcases Nat.lt_trichotomy i j with hlt | heq | hgt
  · exact absurd hkey (hne hi hj hlt)
  · exact heq
  · exact absurd hkey.symm (hne hj hi hgt)

variable [DecidableEq κ]

-- find and erase look for a key in this way.
def findIdx (table : Table key) (k : κ) : Option Nat :=
  probe table.slots key table.infoInc k table.slots.length (table.keyToIdx k).1 (table.keyToIdx k).2

theorem probe_sound {fuel info : Nat} {k : κ} {start : Nat}
    (h : probe slots key infoInc k fuel start info = some idx) :
    ∃ slot, slotAt slots idx = some slot ∧ key slot.value = k := by
  induction fuel generalizing start info with
  | zero => cases h
  | succ fuel ih =>
      rw [probe] at h
      split at h
      · rename_i hfound
        obtain ⟨slot, hslot, hkey⟩ := Option.map_eq_some_iff.mp hfound.2
        cases h
        exact ⟨slot, hslot, hkey⟩
      · split at h
        · exact ih h
        · cases h

theorem probe_complete (table : Table key) (hslot : slotAt table.slots idx = some slot) {fuel start : Nat}
    (hhome : (table.keyToIdx (key slot.value)).1 ≤ start) (hstart : start ≤ idx) (hfuel : idx < start + fuel) :
    probe table.slots key table.infoInc (key slot.value) fuel start
      ((table.keyToIdx (key slot.value)).2 + (start - (table.keyToIdx (key slot.value)).1) * table.infoInc) =
        some idx := by
  have hreach := table.reachable idx slot hslot
  induction fuel generalizing start with
  | zero => omega
  | succ fuel ih =>
      rw [probe]
      by_cases hhere : start = idx
      · subst hhere
        rw [if_pos ⟨by rw [infoAt_of_slotAt hslot, hreach.info], by rw [hslot]; rfl⟩]
      · have hother : ¬(infoAt table.slots start = (table.keyToIdx (key slot.value)).2 +
            (start - (table.keyToIdx (key slot.value)).1) * table.infoInc ∧
            (slotAt table.slots start).map (key ·.value) = some (key slot.value)) := by
          rintro ⟨-, hsame⟩
          obtain ⟨other, hslot', hkey⟩ := Option.map_eq_some_iff.mp hsame
          exact hhere (table.idx_unique hslot' hslot hkey)
        have hnext := hreach.probed (start + 1) (by omega) (by omega)
        have hstep : (start + 1 - (table.keyToIdx (key slot.value)).1) * table.infoInc =
            (start - (table.keyToIdx (key slot.value)).1) * table.infoInc + table.infoInc := by
          rw [Nat.sub_add_comm hhome, Nat.succ_mul]
        rw [hstep, ← Nat.add_assoc] at hnext
        have hlater := @ih (start + 1) (by omega) (by omega) (by omega)
        rw [hstep, ← Nat.add_assoc] at hlater
        rw [if_neg hother, if_pos hnext, hlater]

theorem findIdx_of_slotAt (table : Table key) (h : slotAt table.slots idx = some slot) :
    table.findIdx (key slot.value) = some idx := by
  have hhome := (table.reachable idx slot h).start
  have hlt := slotAt_lt h
  have hfound := @probe_complete _ _ _ _ _ _ table h table.slots.length _ (Nat.le_refl _) hhome (by omega)
  rw [Nat.sub_self, Nat.zero_mul, Nat.add_zero] at hfound
  exact hfound

-- What is left of the table when a slot in use is freed.
def free (table : Table key) (idx : Nat) (slot : Slot α) (h : slotAt table.slots idx = some slot) :
    Table key where
  infoInc := table.infoInc
  keyToIdx := table.keyToIdx
  bytes := table.bytes
  slots := eraseAt table.infoInc table.slots idx
  reachable j other hother := by
    obtain ⟨last, hshifted⟩ := shifted_eraseAt (table.infoInc_pos (key slot.value)) h
    obtain ⟨hinc, hbits⟩ := table.bytes (key other.value)
    by_cases hmoved : idx ≤ j ∧ j < last
    · rw [hshifted.moved j hmoved.1 hmoved.2] at hother
      obtain ⟨old, hold, rfl⟩ := Option.map_eq_some_iff.mp hother
      exact hshifted.reachable_of_moved hbits hmoved.1 hmoved.2 (infoAt_of_slotAt hold)
        (table.reachable (j + 1) old hold)
    · by_cases hlast : j = last
      · rw [hlast, hshifted.free] at hother
        cases hother
      · have hstays : j < idx ∨ last < j := by
          have hordered := hshifted.ordered
          omega
        have hsame : slotAt table.slots j = some other := by
          rcases hstays with hbefore | hbehind
          · rw [← hshifted.before j hbefore]
            exact hother
          · rw [← hshifted.behind j hbehind]
            exact hother
        exact hshifted.reachable_of_stays hinc hstays (table.reachable j other hsame)
  nodup := by
    have hvalues : (values (eraseAt table.infoInc table.slots idx)).Sublist (values table.slots) := by
      rw [values_eraseAt h, values, values, ← List.filterMap_append]
      apply List.Sublist.filterMap _
      conv_rhs => rw [← List.take_append_drop idx table.slots]
      refine List.Sublist.append_left ?_ _
      rw [drop_of_slotAt h]
      exact List.sublist_cons_self _ _
    exact table.nodup.sublist (hvalues.map key)

def erase (table : Table key) (k : κ) : Table key :=
  match table.findIdx k with
  | none => table
  | some idx =>
      match h : slotAt table.slots idx with
      | none => table
      | some slot => table.free idx slot h

theorem erase_of_slotAt (table : Table key) (h : slotAt table.slots idx = some slot) :
    table.erase (key slot.value) = table.free idx slot h := by
  unfold erase
  rw [table.findIdx_of_slotAt h]
  dsimp only
  split
  · rename_i hnone
    rw [h] at hnone
    cases hnone
  · rename_i other hslot
    have hsame : other = slot := Option.some.inj (hslot.symm.trans h)
    subst hsame
    rfl

end Table

-- What a loop over the table has still before it.
def ahead (slots : Slots α) (idx : Nat) : List α := values (slots.drop idx)

theorem ahead_of_none (h : slotAt slots idx = none) : ahead slots idx = ahead slots (idx + 1) := by
  by_cases hlt : idx < slots.length
  · rw [slotAt, List.getElem?_eq_getElem hlt] at h
    have hnone : slots[idx] = none := h
    rw [ahead, List.drop_eq_getElem_cons hlt, hnone]
    rfl
  · rw [ahead, ahead, List.drop_of_length_le (by omega), List.drop_of_length_le (by omega)]

theorem ahead_of_some (h : slotAt slots idx = some slot) :
    ahead slots idx = slot.value :: ahead slots (idx + 1) := by
  rw [ahead, drop_of_slotAt h]
  rfl

theorem ahead_of_length_le (h : slots.length ≤ idx) : ahead slots idx = [] := by
  rw [ahead, List.drop_of_length_le h]
  rfl

-- The slot of the element that is erased is behind the loop: an element that
-- moves back into it is not met any more.
theorem ahead_erase [DecidableEq κ] {key : α → κ} (table : Table key) (h : slotAt table.slots idx = some slot) :
    ahead (table.erase (key slot.value)).slots idx = ahead table.slots (idx + 1) := by
  rw [table.erase_of_slotAt h]
  show values ((eraseAt table.infoInc table.slots idx).drop idx) = _
  rw [drop_eraseAt (Nat.le_of_lt (slotAt_lt h)), drop_of_slotAt h, values_shiftDown]
  rfl

theorem length_erase [DecidableEq κ] {key : α → κ} (table : Table key) (k : κ) :
    (table.erase k).slots.length = table.slots.length := by
  unfold Table.erase
  split
  · rfl
  · split
    · rfl
    · exact length_eraseAt _

end RobinHood

end LiveReceptor

import LiveReceptor.Library.Keyed
import LiveReceptor.Library.RobinHood

-- Loops over a hash table that erase from it.
namespace LiveReceptor.RobinHood

variable {α κ : Type*} {key : α → κ} {slots : Slots α} {slot : Slot α} {idx : Nat}

theorem exists_slotAt_of_mem_values {a : α} (h : a ∈ values slots) :
    ∃ idx slot, slotAt slots idx = some slot ∧ slot.value = a := by
  obtain ⟨entry, hentry, hvalue⟩ := List.mem_filterMap.mp h
  obtain ⟨slot, rfl, rfl⟩ := Option.map_eq_some_iff.mp hvalue
  obtain ⟨idx, hidx⟩ := List.mem_iff_getElem?.mp hentry
  exact ⟨idx, slot, by rw [slotAt, hidx]; rfl, rfl⟩

theorem values_of_slotAt (h : slotAt slots idx = some slot) :
    values slots = values (slots.take idx) ++ slot.value :: values (slots.drop (idx + 1)) := by
  conv_lhs => rw [← List.take_append_drop idx slots, drop_of_slotAt h]
  rw [values, List.filterMap_append]
  rfl

namespace Table

-- The elements of the table, without its layout.
def content (table : Table key) : Keyed key := ⟨values table.slots, table.nodup⟩

theorem mem_content_of_slotAt (table : Table key) (h : slotAt table.slots idx = some slot) :
    slot.value ∈ table.content := by
  show slot.value ∈ values table.slots
  rw [values_of_slotAt h]
  exact List.mem_append_right _ List.mem_cons_self

-- What is still ahead has other keys than the element of the slot.
theorem key_ne_of_mem_ahead (table : Table key) (h : slotAt table.slots idx = some slot) {a : α}
    (ha : a ∈ ahead table.slots (idx + 1)) : key a ≠ key slot.value := by
  have hnodup := table.nodup
  rw [values_of_slotAt h, List.map_append, List.map_cons] at hnodup
  have hnotin := (List.nodup_cons.mp hnodup.of_append_right).1
  exact fun hsame => hnotin (hsame ▸ List.mem_map_of_mem ha)

variable [DecidableEq κ]

-- Erasing from the table is erasing from the container.
theorem content_erase (table : Table key) (k : κ) : (table.erase k).content = table.content.erase k := by
  by_cases hkey : table.content.HasKey k
  · obtain ⟨a, ha, rfl⟩ := hkey
    obtain ⟨idx, slot, hslot, rfl⟩ := exists_slotAt_of_mem_values ha
    have hnodup := table.nodup
    rw [values_of_slotAt hslot, List.map_append, List.map_cons] at hnodup
    obtain ⟨hbehind, -⟩ := List.nodup_cons.mp hnodup.of_append_right
    have hbefore := List.disjoint_of_nodup_append hnodup
    have hentries : values (table.erase (key slot.value)).slots =
        (values table.slots).filter fun a => key a ≠ key slot.value := by
      rw [table.erase_of_slotAt hslot]
      show values (eraseAt table.infoInc table.slots idx) = _
      rw [values_eraseAt hslot, values_of_slotAt hslot, List.filter_append,
        List.filter_cons_of_neg (by simp), List.filter_eq_self.mpr, List.filter_eq_self.mpr]
      · intro a ha
        exact decide_eq_true fun hsame => hbehind (hsame ▸ List.mem_map_of_mem ha)
      · intro a ha
        exact decide_eq_true fun hsame =>
          hbefore (List.mem_map_of_mem ha) (hsame ▸ List.mem_cons_self)
    simp only [content, Keyed.erase, Keyed.filter, hentries]
  · rw [Keyed.erase_of_not_hasKey hkey]
    have hnone : table.findIdx k = none := by
      cases hfind : table.findIdx k with
      | none => rfl
      | some idx =>
          obtain ⟨slot, hslot, rfl⟩ := probe_sound hfind
          exact absurd (.of_mem (table.mem_content_of_slotAt hslot)) hkey
    rw [erase, hnone]

-- What is ahead when the element of a slot is erased is what the table then has
-- from this slot on.
theorem forall_ahead_erase_iff (table : Table key) (h : slotAt table.slots idx = some slot)
    {p : α → Prop} {gone : List α} :
    (∀ a ∈ ahead table.slots idx, p a → a ∈ slot.value :: gone) ↔
      ∀ a ∈ ahead (table.erase (key slot.value)).slots idx, p a → a ∈ gone := by
  rw [ahead_of_some h, List.forall_mem_cons, and_iff_right fun _ => List.mem_cons_self, ahead_erase table h]
  refine forall₂_congr fun a ha => imp_congr_right fun _ => ?_
  have hne : a ≠ slot.value := fun hsame => table.key_ne_of_mem_ahead h ha (hsame ▸ rfl)
  rw [List.mem_cons, or_iff_right hne]

variable (p : α → Prop) [DecidablePred p]

-- The elements that a loop erases that goes over the slots from idx on and erases
-- what p picks, in its order. It goes on with the next slot after that.
def swept : Nat → Nat → Table key → List α
  | 0, _, _ => []
  | left + 1, idx, table =>
      match slotAt table.slots idx with
      | none => swept left (idx + 1) table
      | some slot =>
          if p slot.value then slot.value :: swept left (idx + 1) (table.erase (key slot.value))
          else swept left (idx + 1) table

-- Whenever the loop erases an element, p does not pick the one that moves back
-- into its slot, if there is one.
def NoneMovedBack : Nat → Nat → Table key → Prop
  | 0, _, _ => True
  | left + 1, idx, table =>
      match slotAt table.slots idx with
      | none => NoneMovedBack left (idx + 1) table
      | some slot =>
          if p slot.value then
            (∀ next ∈ slotAt (table.erase (key slot.value)).slots idx, ¬p next.value) ∧
              NoneMovedBack left (idx + 1) (table.erase (key slot.value))
          else NoneMovedBack left (idx + 1) table

variable {p} {left : Nat} {table : Table key}

theorem swept_of_none (h : slotAt table.slots idx = none) :
    table.swept p (left + 1) idx = table.swept p left (idx + 1) := by
  rw [swept, h]

theorem swept_of_kept (h : slotAt table.slots idx = some slot) (hp : ¬p slot.value) :
    table.swept p (left + 1) idx = table.swept p left (idx + 1) := by
  rw [swept, h]
  exact if_neg hp

theorem swept_of_erased (h : slotAt table.slots idx = some slot) (hp : p slot.value) :
    table.swept p (left + 1) idx =
      slot.value :: (table.erase (key slot.value)).swept p left (idx + 1) := by
  rw [swept, h]
  exact if_pos hp

theorem noneMovedBack_of_none (h : slotAt table.slots idx = none) :
    table.NoneMovedBack p (left + 1) idx ↔ table.NoneMovedBack p left (idx + 1) := by
  rw [NoneMovedBack, h]

theorem noneMovedBack_of_kept (h : slotAt table.slots idx = some slot) (hp : ¬p slot.value) :
    table.NoneMovedBack p (left + 1) idx ↔ table.NoneMovedBack p left (idx + 1) := by
  rw [NoneMovedBack, h]
  exact iff_of_eq (if_neg hp)

theorem noneMovedBack_of_erased (h : slotAt table.slots idx = some slot) (hp : p slot.value) :
    table.NoneMovedBack p (left + 1) idx ↔
      (∀ next ∈ slotAt (table.erase (key slot.value)).slots idx, ¬p next.value) ∧
        (table.erase (key slot.value)).NoneMovedBack p left (idx + 1) := by
  rw [NoneMovedBack, h]
  exact iff_of_eq (if_pos hp)

theorem ahead_succ_subset (slots : Slots α) (idx : Nat) : ahead slots (idx + 1) ⊆ ahead slots idx := by
  intro a ha
  cases hslot : slotAt slots idx with
  | none => exact ahead_of_none hslot ▸ ha
  | some slot => exact ahead_of_some hslot ▸ List.mem_cons_of_mem _ ha

-- The loop erases only what p picks among the elements ahead.
theorem of_mem_swept {a : α} (h : a ∈ table.swept p left idx) : a ∈ ahead table.slots idx ∧ p a := by
  induction left generalizing idx table with
  | zero => cases h
  | succ left ih =>
      cases hslot : slotAt table.slots idx with
      | none =>
          rw [swept_of_none hslot] at h
          rw [ahead_of_none hslot]
          exact ih h
      | some slot =>
          by_cases hp : p slot.value
          · rw [swept_of_erased hslot hp] at h
            rcases List.mem_cons.mp h with rfl | hlater
            · exact ⟨ahead_of_some hslot ▸ List.mem_cons_self, hp⟩
            · obtain ⟨hahead, hpa⟩ := ih hlater
              have hrest := ahead_succ_subset _ _ hahead
              rw [ahead_erase table hslot] at hrest
              exact ⟨ahead_succ_subset _ _ hrest, hpa⟩
          · rw [swept_of_kept hslot hp] at h
            obtain ⟨hahead, hpa⟩ := ih h
            exact ⟨ahead_succ_subset _ _ hahead, hpa⟩

-- A loop that goes on with the next slot does not get the element of this one.
theorem forall_ahead_iff : (∀ a ∈ ahead table.slots idx, p a → a ∈ table.swept p left (idx + 1)) ↔
    (∀ next ∈ slotAt table.slots idx, ¬p next.value) ∧
      ∀ a ∈ ahead table.slots (idx + 1), p a → a ∈ table.swept p left (idx + 1) := by
  cases hslot : slotAt table.slots idx with
  | none =>
      rw [ahead_of_none hslot]
      exact (and_iff_right fun next hnext => by cases hnext).symm
  | some slot =>
      have hstays : slot.value ∉ table.swept p left (idx + 1) :=
        fun hswept => table.key_ne_of_mem_ahead hslot (of_mem_swept hswept).1 rfl
      rw [ahead_of_some hslot, List.forall_mem_cons]
      refine and_congr_left fun _ => ?_
      constructor
      · intro hpicked next hnext
        cases hnext
        exact fun hp => hstays (hpicked hp)
      · exact fun hpicked hp => absurd hp (hpicked slot rfl)

-- The loop leaves nothing that p picks exactly when nothing of it moves back.
theorem sweeps_all_iff (hleft : table.slots.length ≤ idx + left) :
    (∀ a ∈ ahead table.slots idx, p a → a ∈ table.swept p left idx) ↔
      table.NoneMovedBack p left idx := by
  induction left generalizing idx table with
  | zero =>
      have hdone : table.slots.length ≤ idx := hleft
      rw [ahead_of_length_le hdone]
      exact iff_of_true (fun a ha => by cases ha) trivial
  | succ left ih =>
      have hnext : table.slots.length ≤ (idx + 1) + left := by omega
      cases hslot : slotAt table.slots idx with
      | none =>
          rw [ahead_of_none hslot, swept_of_none hslot, noneMovedBack_of_none hslot]
          exact ih hnext
      | some slot =>
          by_cases hp : p slot.value
          · have hlength : (table.erase (key slot.value)).slots.length ≤ (idx + 1) + left := by
              rw [length_erase]
              exact hnext
            rw [swept_of_erased hslot hp, noneMovedBack_of_erased hslot hp, forall_ahead_erase_iff _ hslot,
              forall_ahead_iff, ih hlength]
          · rw [ahead_of_some hslot, swept_of_kept hslot hp, noneMovedBack_of_kept hslot hp,
              List.forall_mem_cons, and_iff_right fun hpicked => absurd hpicked hp]
            exact ih hnext

end Table

end LiveReceptor.RobinHood

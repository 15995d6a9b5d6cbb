import LiveReceptor.Library.Iteration
import LiveReceptor.Library.RobinHoodTable

-- What the table is for: the calls on it are those on a container of elements with
-- distinct keys.
namespace LiveReceptor.RobinHood.RawTable

variable {α κ : Type*} {key : α → κ} {hash : κ → UInt64} {t t' : RawTable α} {m m' : Keyed key} {a : α} {k : κ}
  {slots : Slots α} {slot : Slot α} {idx infoInc : Nat}

structure Represents (key : α → κ) (hash : κ → UInt64) (m : Keyed key) (t : RawTable α) : Prop where
  valid : Valid key hash t
  values : (values t.slots).Perm m.entries

theorem empty_represents : Represents key hash ∅ ({} : RawTable α) := ⟨empty_valid, .refl _⟩

theorem Represents.mem_iff (h : Represents key hash m t) : a ∈ RobinHood.values t.slots ↔ a ∈ m := h.values.mem_iff

theorem Represents.hasKey_iff (h : Represents key hash m t) :
    m.HasKey k ↔ k ∈ (RobinHood.values t.slots).map key := by
  rw [Keyed.hasKey_iff_mem, (h.values.map key).mem_iff]

-- The order in which the container has its elements does not matter.
theorem Represents.of_mem_iff (h : Represents key hash m t) (hmem : ∀ a, a ∈ m ↔ a ∈ m') :
    Represents key hash m' t :=
  ⟨h.valid, h.values.trans ((List.perm_ext_iff_of_nodup m.nodup.of_map m'.nodup.of_map).mpr hmem)⟩

section Erasing

theorem mem_shiftDown (h : some slot ∈ shiftDown infoInc slots) :
    ∃ old, some old ∈ slots ∧ slot.info ≤ old.info := by
  fun_induction shiftDown infoInc slots with
  | case1 => cases h
  | case2 first =>
      cases List.mem_singleton.mp h
  | case3 first rest =>
      refine ⟨slot, ?_, Nat.le_refl _⟩
      rcases List.mem_cons.mp h with heq | h
      · cases heq
      · exact List.mem_cons_of_mem _ h
  | case4 first next rest hfar ih =>
      rcases List.mem_cons.mp h with heq | h
      · obtain rfl := Option.some.inj heq
        exact ⟨next, List.mem_cons_of_mem _ List.mem_cons_self, Nat.sub_le _ _⟩
      · obtain ⟨old, hold, hle⟩ := ih h
        exact ⟨old, List.mem_cons_of_mem _ hold, hle⟩
  | case5 first next rest hnear =>
      refine ⟨slot, ?_, Nat.le_refl _⟩
      rcases List.mem_cons.mp h with heq | h
      · cases heq
      · exact List.mem_cons_of_mem _ h

theorem spare_eraseAt {b : Nat} (h : Spare b slots) : Spare b (eraseAt infoInc slots idx) := by
  intro slot hslot
  rcases List.mem_append.mp hslot with hslot | hslot
  · exact h slot (List.mem_of_mem_take hslot)
  · obtain ⟨old, hold, hle⟩ := mem_shiftDown hslot
    have hbyte := h old (List.mem_of_mem_drop hold)
    omega

theorem Valid.eraseIdx (h : Valid key hash t) (hslot : slotAt t.slots idx = some slot) :
    Valid key hash (t.eraseIdx idx) where
  shift := h.shift
  inc := h.inc
  size := by
    refine h.size.imp (fun hzero => ?_) fun hsize => ⟨hsize.1, (length_eraseAt idx).trans hsize.2⟩
    rw [hzero.2.1] at hslot
    cases hslot
  allowed hallowed := ⟨(h.allowed hallowed).1, spare_eraseAt (h.allowed hallowed).2⟩
  count := by
    have hvalues := values_of_slotAt hslot
    show t.numElements - 1 = (values (eraseAt t.infoInc t.slots idx)).length
    rw [values_eraseAt hslot, h.count, hvalues, List.length_append, List.length_append, List.length_cons]
    omega
  load := (Nat.sub_le _ _).trans h.load
  bytes := spare_eraseAt h.bytes
  reachable := (h.toTable.free idx slot hslot).reachable
  nodup := (h.toTable.free idx slot hslot).nodup

variable [DecidableEq κ]

theorem Represents.eraseIdx (h : Represents key hash m t) (hslot : slotAt t.slots idx = some slot) :
    Represents key hash (m.erase (key slot.value)) (t.eraseIdx idx) := by
  refine ⟨h.valid.eraseIdx hslot, ?_⟩
  have hcontent := h.valid.toTable.content_erase (key slot.value)
  rw [h.valid.toTable.erase_of_slotAt hslot] at hcontent
  have hvalues : RobinHood.values (t.eraseIdx idx).slots =
      (RobinHood.values t.slots).filter fun a => key a ≠ key slot.value := congrArg Keyed.entries hcontent
  rw [hvalues]
  exact h.values.filter _

theorem findIdx_of_slotAt (h : Valid key hash t) (hslot : slotAt t.slots idx = some slot) :
    t.findIdx key hash (key slot.value) = some idx := h.toTable.findIdx_of_slotAt hslot

theorem slotAt_of_findIdx (hfind : t.findIdx key hash k = some idx) :
    ∃ slot, slotAt t.slots idx = some slot ∧ key slot.value = k := Table.probe_sound hfind

theorem Represents.findIdx_eq_none_iff (h : Represents key hash m t) :
    t.findIdx key hash k = none ↔ ¬m.HasKey k := by
  constructor
  · rintro hnone ⟨a, ha, rfl⟩
    obtain ⟨idx, slot, hslot, rfl⟩ := exists_slotAt_of_mem_values (h.mem_iff.mpr ha)
    rw [findIdx_of_slotAt h.valid hslot] at hnone
    cases hnone
  · intro hkey
    cases hfind : t.findIdx key hash k with
    | none => rfl
    | some idx =>
        obtain ⟨slot, hslot, rfl⟩ := slotAt_of_findIdx hfind
        have hmem := h.valid.toTable.mem_content_of_slotAt hslot
        exact absurd (.of_mem (h.mem_iff.mp hmem)) hkey

theorem Represents.erase (h : Represents key hash m t) (k : κ) :
    Represents key hash (m.erase k) (t.erase key hash k) := by
  unfold RawTable.erase
  cases hfind : t.findIdx key hash k with
  | none =>
      rw [Keyed.erase_of_not_hasKey (h.findIdx_eq_none_iff.mp hfind)]
      exact h
  | some idx =>
      obtain ⟨slot, hslot, rfl⟩ := slotAt_of_findIdx hfind
      exact h.eraseIdx hslot

-- Looking up gives what is in the container.
theorem Represents.find_eq (h : Represents key hash m t) (k : κ) : t.find key hash k = m.find? k := by
  unfold RawTable.find
  cases hfind : t.findIdx key hash k with
  | none => exact (Keyed.find?_eq_none.mpr (h.findIdx_eq_none_iff.mp hfind)).symm
  | some idx =>
      obtain ⟨slot, hslot, rfl⟩ := slotAt_of_findIdx hfind
      have hmem := h.mem_iff.mp (h.valid.toTable.mem_content_of_slotAt hslot)
      rw [Keyed.find?_eq_some.mpr ⟨hmem, rfl⟩]
      show (slotAt t.slots idx).map Slot.value = _
      rw [hslot]
      rfl

theorem Represents.doInsert (h : Represents key hash m t) (a : α) :
    Sound (fun result => Represents key hash (m.insert a) result.1 ∧ result.2 = decide ¬m.HasKey (key a))
      (doInsert key hash 4 t a) := by
  refine Sound.mono (doInsert_sound h.valid a) fun result hresult => ?_
  have hkey : m.HasKey (key a) ↔ key a ∈ (RobinHood.values t.slots).map key := h.hasKey_iff
  refine ⟨⟨hresult.valid, hresult.values.trans ?_⟩, ?_⟩
  · by_cases hin : m.HasKey (key a)
    · rw [if_pos (hkey.mp hin), Keyed.insert_of_hasKey hin]
      exact h.values
    · rw [if_neg (hkey.not.mp hin), Keyed.entries_insert hin]
      exact (h.values.cons a).trans (List.perm_append_singleton a m.entries).symm
  · rw [hresult.flag]
    exact decide_eq_decide.mpr hkey.not.symm

end Erasing

section Writing

-- The elements are written to in place.
def Slot.written (f : α → α) (slot : Slot α) : Slot α := { slot with value := f slot.value }

def write (t : RawTable α) (f : α → α) : RawTable α :=
  { t with slots := t.slots.map (Option.map (Slot.written f)) }

variable {f : α → α}

theorem slotAt_map_written (slots : Slots α) (idx : Nat) :
    slotAt (slots.map (Option.map (Slot.written f))) idx = (slotAt slots idx).map (Slot.written f) := by
  rw [slotAt, slotAt, List.getElem?_map]
  cases slots[idx]? <;> rfl

theorem infoAt_map_written (slots : Slots α) (idx : Nat) :
    infoAt (slots.map (Option.map (Slot.written f))) idx = infoAt slots idx := by
  rw [infoAt, infoAt, slotAt_map_written]
  cases slotAt slots idx <;> rfl

theorem values_map_written (slots : Slots α) :
    values (slots.map (Option.map (Slot.written f))) = (values slots).map f := by
  rw [values, values, List.filterMap_map, List.map_filterMap]
  congr 1
  funext entry
  cases entry <;> rfl

theorem spare_map_written {b : Nat} (h : Spare b slots) : Spare b (slots.map (Option.map (Slot.written f))) := by
  intro slot hslot
  obtain ⟨entry, hentry, heq⟩ := List.mem_map.mp hslot
  obtain ⟨old, rfl, rfl⟩ := Option.map_eq_some_iff.mp heq
  exact h old hentry

theorem Valid.write (h : Valid key hash t) (hf : ∀ a, key (f a) = key a) : Valid key hash (t.write f) where
  shift := h.shift
  inc := h.inc
  size := by
    refine h.size.imp (fun hzero => ⟨hzero.1, ?_, hzero.2.2⟩) fun hsize => ⟨hsize.1, ?_⟩
    · exact congrArg (List.map _) hzero.2.1
    · exact (List.length_map _).trans hsize.2
  allowed hallowed := ⟨(h.allowed hallowed).1, spare_map_written (h.allowed hallowed).2⟩
  count := by
    rw [show RobinHood.values (t.write f).slots = _ from values_map_written t.slots, List.length_map]
    exact h.count
  load := h.load
  bytes := spare_map_written h.bytes
  reachable idx slot hslot := by
    rw [show slotAt (t.write f).slots idx = _ from slotAt_map_written t.slots idx] at hslot
    obtain ⟨old, hold, rfl⟩ := Option.map_eq_some_iff.mp hslot
    have hreach := h.reachable idx old hold
    have hkey : key (Slot.written f old).value = key old.value := hf old.value
    rw [hkey]
    refine ⟨hreach.start, hreach.info, fun j hj hhome => ?_⟩
    exact (hreach.probed j hj hhome).trans (infoAt_map_written t.slots j).symm.le
  nodup := by
    rw [show RobinHood.values (t.write f).slots = _ from values_map_written t.slots, List.map_map,
      show key ∘ f = key from funext hf]
    exact h.nodup

theorem Represents.write (h : Represents key hash m t) (hf : ∀ a, key (f a) = key a) :
    Represents key hash (m.update f hf) (t.write f) := by
  refine ⟨h.valid.write hf, ?_⟩
  rw [show RobinHood.values (t.write f).slots = _ from values_map_written t.slots, Keyed.entries_update]
  exact h.values.map f

end Writing

section Sweeping

-- erase of an iterator, and the iterator that it returns.
def eraseIterator (t : RawTable α) (idx : Nat) : RawTable α × Nat :=
  let t := t.eraseIdx idx
  (t, if infoAt t.slots idx ≠ 0 then idx else fastForward t.slots (idx + 1))

theorem length_ahead_succ_le (slots : Slots α) (idx : Nat) :
    (ahead slots (idx + 1)).length ≤ (ahead slots idx).length := by
  cases hslot : slotAt slots idx with
  | none => rw [ahead_of_none hslot]
  | some slot =>
      rw [ahead_of_some hslot]
      exact Nat.le_succ _

theorem ahead_eraseIdx (hslot : slotAt t.slots idx = some slot) :
    ahead (t.eraseIdx idx).slots idx = ahead t.slots (idx + 1) := by
  show values ((eraseAt t.infoInc t.slots idx).drop idx) = _
  rw [drop_eraseAt (Nat.le_of_lt (slotAt_lt hslot)), drop_of_slotAt hslot, values_shiftDown]
  rfl

theorem length_ahead_eraseIterator (hslot : slotAt t.slots idx = some slot) :
    (ahead (t.eraseIterator idx).1.slots (t.eraseIterator idx).2).length < (ahead t.slots idx).length := by
  have hless : (ahead (t.eraseIdx idx).slots idx).length < (ahead t.slots idx).length := by
    rw [ahead_eraseIdx hslot, ahead_of_some hslot]
    exact Nat.lt_succ_self _
  unfold RawTable.eraseIterator
  dsimp only
  split
  · exact hless
  · rw [ahead_fastForward]
    exact Nat.lt_of_le_of_lt (length_ahead_succ_le _ idx) hless

-- The loop that erases what is not to be kept, from an iterator on.
def sweep (keep : α → Bool) (t : RawTable α) (it : Nat) : RawTable α :=
  match h : slotAt t.slots it with
  | none => t
  | some slot =>
      if keep slot.value then
        have : (ahead t.slots (fastForward t.slots (it + 1))).length < (ahead t.slots it).length := by
          rw [ahead_fastForward, ahead_of_some h]
          exact Nat.lt_succ_self _
        sweep keep t (fastForward t.slots (it + 1))
      else
        have := length_ahead_eraseIterator h
        sweep keep (t.eraseIterator it).1 (t.eraseIterator it).2
termination_by (ahead t.slots it).length

variable {keep : α → Bool} {it : Nat}

theorem eraseIterator_snd_of_valid (h : Valid key hash t) (hslot : slotAt t.slots it = some slot) :
    (t.eraseIterator it).2 = fastForward (t.eraseIdx it).slots it :=
  RobinHood.eraseIterator_snd h.toTable hslot

-- What the loop has met and kept stands in front of what it has not met yet.
theorem sweep_sound (h : Valid key hash t) (hend : slotAt t.slots it = none → ahead t.slots it = [])
    {before : List α} (hbefore : RobinHood.values t.slots = before ++ ahead t.slots it) :
    Valid key hash (t.sweep keep it) ∧
      RobinHood.values (t.sweep keep it).slots = before ++ (ahead t.slots it).filter keep := by
  fun_induction sweep keep t it generalizing before with
  | case1 t it hslot =>
      rw [hend hslot] at hbefore ⊢
      exact ⟨h, hbefore⟩
  | case2 t it slot hslot hkeep _ ih =>
      have hfirst := ahead_of_some hslot
      rw [hfirst, List.append_cons] at hbefore
      have hrest := ih h ahead_eq_nil_of_fastForward (hbefore.trans (by rw [ahead_fastForward]))
      rw [ahead_fastForward, List.append_assoc] at hrest
      rw [hfirst, List.filter_cons_of_pos hkeep]
      exact hrest
  | case3 t it slot hslot hdrop _ ih =>
      have hvalues : RobinHood.values (t.eraseIdx it).slots = before ++ ahead t.slots (it + 1) :=
        values_free h.toTable hslot hbefore
      have hsnd := eraseIterator_snd_of_valid h hslot
      have hfst : (t.eraseIterator it).1 = t.eraseIdx it := rfl
      rw [hsnd, hfst, ahead_fastForward, ahead_eraseIdx hslot] at ih
      rw [ahead_of_some hslot, List.filter_cons_of_neg hdrop, hsnd, hfst]
      refine ih (h.eraseIdx hslot) (fun hnone => ?_) hvalues
      rw [← ahead_eraseIdx hslot, ← ahead_fastForward]
      exact ahead_eq_nil_of_fastForward hnone

theorem Represents.sweep (h : Represents key hash m t) (keep : α → Bool) :
    Represents key hash (m.filter keep) (t.sweep keep (fastForward t.slots 0)) := by
  obtain ⟨hvalid, hvalues⟩ := @sweep_sound _ _ _ _ _ keep (fastForward t.slots 0) h.valid
    ahead_eq_nil_of_fastForward [] (ahead_fastForward t.slots 0).symm
  refine ⟨hvalid, ?_⟩
  rw [hvalues, ahead_fastForward, Keyed.entries_filter]
  exact h.values.filter keep

end Sweeping

section Emplacing

variable [DecidableEq κ]

def emplace (key : α → κ) (hash : κ → UInt64) (t : RawTable α) (a : α) : Except Fault (RawTable α) :=
  (doInsert key hash 4 t a).map Prod.fst

-- Where a key is looked for before its element is emplaced.
theorem Represents.emplace (h : Represents key hash m t) (a : α) :
    Sound (Represents key hash (m.insert a))
      (if (t.find key hash (key a)).isSome then .ok t else emplace key hash t a) := by
  rw [h.find_eq]
  split
  · rename_i hsome
    obtain ⟨b, hb⟩ := Option.isSome_iff_exists.mp hsome
    rw [Keyed.insert_of_hasKey (Keyed.hasKey_of_find? hb)]
    exact h
  · exact (h.doInsert a).map fun _ hresult => hresult.1

end Emplacing

end LiveReceptor.RobinHood.RawTable

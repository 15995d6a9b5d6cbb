import LiveReceptor.Library.RobinHoodMap

-- When an insertion throws nothing: a table with few elements has room for them in its
-- info bytes.
namespace LiveReceptor.RobinHood

variable {α κ : Type*} {key : α → κ} {infoInc : Nat} {slots moved : Slots α} {slot carry : Slot α} {full : Bool}

theorem mem_shiftUp (h : shiftUp infoInc carry slots = some (moved, full)) : some carry ∈ moved := by
  cases slots with
  | nil => cases h
  | cons entry rest =>
      cases entry with
      | none =>
          cases h
          exact List.mem_cons_self
      | some slot =>
          obtain ⟨result, -, heq⟩ := Option.map_eq_some_iff.mp h
          cases heq
          exact List.mem_cons_self

-- The flag stands for an element that has been moved.
theorem exists_far_of_shiftUp (h : shiftUp infoInc carry slots = some (moved, true)) :
    ∃ slot, some slot ∈ moved ∧ 255 < slot.info + infoInc := by
  induction slots generalizing carry moved with
  | nil => cases h
  | cons entry rest ih =>
      cases entry with
      | none => cases h
      | some slot =>
          obtain ⟨⟨moved', full'⟩, hmoved, heq⟩ := Option.map_eq_some_iff.mp h
          obtain ⟨rfl, hflag⟩ := Prod.mk.inj heq
          rcases (Bool.or_eq_true _ _).mp hflag with hlater | hhere
          · obtain ⟨far, hfar, hbyte⟩ := ih (hlater ▸ hmoved)
            exact ⟨far, List.mem_cons_of_mem _ hfar, hbyte⟩
          · exact ⟨_, List.mem_cons_of_mem _ (mem_shiftUp hmoved), of_decide_eq_true hhere⟩

namespace RawTable

variable {hash : κ → UInt64} {t t' : RawTable α} {a : α} {idx info : Nat}

-- When no more elements are allowed, a bit of the hash can still be given up.
def Roomy (t : RawTable α) : Prop := t.maxNumElementsAllowed = 0 → 2 < t.infoInc

theorem roomy_of_allowed (h : t.maxNumElementsAllowed ≠ 0) : Roomy t := fun hzero => absurd hzero h

theorem calcMaxNumElementsAllowed_pos {n : Nat} (hn : 8 ≤ n) : 0 < calcMaxNumElementsAllowed n := by
  unfold calcMaxNumElementsAllowed
  split <;> omega

section Far

-- With one bit of the hash in the bytes, an element whose byte cannot grow any more has
-- 126 slots in use in front of it.
theorem Valid.many_of_far (h : Valid key hash t) (hinc : t.infoInc ≤ 2) (hslot : some slot ∈ t.slots)
    (hfar : 255 < slot.info + t.infoInc) : 126 < t.numElements := by
  obtain ⟨idx, hidx⟩ := List.mem_iff_getElem?.mp hslot
  have hat : slotAt t.slots idx = some slot := by
    rw [slotAt, hidx]
    rfl
  have hreach := h.reachable idx slot hat
  have hbits := h.keyToIdx_bytes (key slot.value)
  have hbounds := h.infoInc_bounds
  have hdistance := hreach.info
  have hstart := hreach.start
  generalize hhome : t.keyToIdx hash (key slot.value) = home at hbits hdistance hreach hstart
  have htwo : t.infoInc = 2 := by omega
  rw [htwo] at hdistance hbits hfar
  have hlong : 126 ≤ idx - home.1 := by omega
  have hlength : ((t.slots.drop home.1).take (idx - home.1 + 1)).length = idx - home.1 + 1 := by
    have hlt := slotAt_lt hat
    rw [List.length_take, List.length_drop]
    omega
  have hused : ∀ j < ((t.slots.drop home.1).take (idx - home.1 + 1)).length,
      slotAt ((t.slots.drop home.1).take (idx - home.1 + 1)) j ≠ none := by
    intro j hj
    rw [hlength] at hj
    rw [slotAt, List.getElem?_take_of_lt hj, ← slotAt, slotAt_drop]
    have hprobed := hreach.probed (home.1 + j) (by omega) (Nat.le_add_right _ _)
    exact used_of_probed (by omega)
  have hwindow : (values ((t.slots.drop home.1).take (idx - home.1 + 1))).length ≤ (values t.slots).length :=
    (((List.take_sublist _ _).trans (List.drop_sublist _ _)).filterMap _).length_le
  rw [length_values_of_used hused, hlength] at hwindow
  rw [h.count]
  omega

theorem Valid.roomy_of_place (h : Valid key hash t') (hplace : t.place a (idx, info) = .ok t')
    (hallowed : t.maxNumElementsAllowed ≠ 0) (hinfo : info ≤ 255) (hfew : t'.numElements ≤ 126) : Roomy t' := by
  unfold place at hplace
  dsimp only at hplace
  cases hshift : shiftUp t.infoInc ⟨info % 256, a⟩ (t.slots.drop idx) with
  | none =>
      rw [hshift] at hplace
      cases hplace
  | some result =>
      obtain ⟨moved, full⟩ := result
      rw [hshift] at hplace
      obtain rfl := Except.ok.inj hplace
      intro hzero
      by_contra hlow
      refine absurd hfew (Nat.not_le.mpr ?_)
      dsimp only at hzero
      split at hzero
      · rename_i hnoroom
        rcases hnoroom with rfl | hlarge
        · obtain ⟨slot, hslot, hfar⟩ := exists_far_of_shiftUp hshift
          exact h.many_of_far (Nat.not_lt.mp hlow) (List.mem_append_right _ hslot) hfar
        · refine h.many_of_far (Nat.not_lt.mp hlow) (List.mem_append_right _ (mem_shiftUp hshift)) ?_
          rw [Nat.mod_eq_of_lt (Nat.lt_succ_of_le hinfo)]
          exact hlarge
      · exact absurd hzero hallowed

end Far

section Growing

theorem exists_tryIncreaseInfo (h : 2 < t.infoInc) : ∃ t', t.tryIncreaseInfo = some t' :=
  ⟨_, if_neg (Nat.not_le.mpr h)⟩

theorem putMoved_roomy (h : Valid key hash t) (hallowed : t.maxNumElementsAllowed ≠ 0)
    (hload : t.numElements < calcMaxNumElementsAllowed (t.mask + 1))
    (hnew : ∀ b ∈ values t.slots, key b ≠ key a) (hfew : t.numElements < 126) :
    ∃ t', t.putMoved key hash a = .ok t' ∧ Holds key hash (a :: values t.slots) t.mask t' ∧ Roomy t' := by
  obtain ⟨t', hput, hholds⟩ := putMoved_holds h hallowed hload hnew
  refine ⟨t', hput, hholds, hholds.valid.roomy_of_place hput hallowed ?_ ?_⟩
  · exact Nat.le_of_lt_succ (Nat.mod_lt _ (by decide))
  · rw [hholds.valid.count, hholds.values.length_eq, List.length_cons, ← h.count]
    exact hfew

theorem insertMove_roomy (h : Valid key hash t) (hroomy : Roomy t) (hmask : t.mask ≠ 0)
    (hload : t.numElements < calcMaxNumElementsAllowed (t.mask + 1))
    (hnew : ∀ b ∈ values t.slots, key b ≠ key a) (hfew : t.numElements < 126) :
    ∃ t', t.insertMove key hash a = .ok t' ∧ Holds key hash (a :: values t.slots) t.mask t' ∧ Roomy t' := by
  rcases insertMove_cases h hmask hload a with
    ⟨hzero, hlow, -⟩ | ⟨more, hvalid, hallowed, hvalues, hsame, hcount, hinsert⟩
  · exact absurd (hroomy hzero) (Nat.not_lt.mpr hlow)
  · rw [← hvalues] at hnew
    rw [← hsame, ← hcount] at hload
    rw [← hcount] at hfew
    rw [hinsert, ← hvalues, ← hsame]
    exact putMoved_roomy hvalid hallowed hload hnew hfew

theorem foldlM_insertMove_roomy (elements : List α) (h : Valid key hash t) (hroomy : Roomy t) (hmask : t.mask ≠ 0)
    (hload : t.numElements + elements.length ≤ calcMaxNumElementsAllowed (t.mask + 1))
    (hnodup : ((elements ++ values t.slots).map key).Nodup) (hfew : t.numElements + elements.length ≤ 126) :
    ∃ t', elements.foldlM (insertMove key hash) t = .ok t' ∧ Roomy t' := by
  induction elements generalizing t with
  | nil => exact ⟨t, rfl, hroomy⟩
  | cons a rest ih =>
      rw [List.length_cons] at hload hfew
      obtain ⟨hfresh, -⟩ := List.nodup_cons.mp hnodup
      have hnew : ∀ b ∈ values t.slots, key b ≠ key a := fun b hb hkey =>
        hfresh (List.mem_map.mpr ⟨b, List.mem_append_right _ hb, hkey⟩)
      obtain ⟨t', hinsert, hholds, hroomy'⟩ := insertMove_roomy h hroomy hmask (by omega) hnew (by omega)
      have hcount : t'.numElements = t.numElements + 1 := by
        rw [hholds.valid.count, hholds.values.length_eq, h.count, List.length_cons]
      have hmore : (rest ++ values t'.slots).Perm ((a :: rest) ++ values t.slots) :=
        (hholds.values.append_left rest).trans List.perm_middle
      rw [← hholds.mask] at hmask hload
      obtain ⟨t'', hrest, hroomy''⟩ := ih hholds.valid hroomy' hmask (by omega)
        ((hmore.map key).nodup_iff.mpr hnodup) (by omega)
      refine ⟨t'', ?_, hroomy''⟩
      rw [List.foldlM_cons, hinsert]
      exact hrest

theorem rehashPowerOfTwo_roomy (h : Valid key hash t) {n : Nat} (hn : 8 ≤ n)
    (hload : t.numElements ≤ calcMaxNumElementsAllowed n) (hfew : t.numElements ≤ 126) :
    ∃ t', t.rehashPowerOfTwo key hash n = .ok t' ∧ Roomy t' := by
  have hempty : values (initData n : RawTable α).slots = [] := values_replicate_none _
  have hsize : (initData n : RawTable α).mask + 1 = n := Nat.sub_add_cancel (by omega)
  have hnone : (initData n : RawTable α).numElements = 0 := rfl
  rw [h.count] at hload hfew
  refine foldlM_insertMove_roomy _ (initData_valid hn) ?_ ?_ ?_ ?_ ?_
  · exact roomy_of_allowed (calcMaxNumElementsAllowed_pos hn).ne'
  · show n - 1 ≠ 0
    omega
  · rw [hsize, hnone]
    omega
  · rw [hempty, List.append_nil]
    exact h.nodup
  · rw [hnone]
    omega

-- The table is moved when it is full, and makes room in the bytes when it is not.
theorem increaseSize_roomy (h : Valid key hash t) (hroomy : Roomy t)
    (hfull : t.maxNumElementsAllowed ≤ t.numElements) (hfew : t.numElements ≤ 126) :
    ∃ t', t.increaseSize key hash = .ok t' ∧ Roomy t' := by
  unfold increaseSize
  split
  · exact ⟨_, rfl, roomy_of_allowed (show calcMaxNumElementsAllowed 8 ≠ 0 by decide)⟩
  · rename_i hmask
    have hlarge : 8 ≤ t.mask + 1 := by
      obtain ⟨hzero, -⟩ | ⟨hlarge, -⟩ := h.size
      · exact absurd hzero hmask
      · exact hlarge
    have hpos := calcMaxNumElementsAllowed_pos hlarge
    dsimp only
    by_cases hless : t.numElements < calcMaxNumElementsAllowed (t.mask + 1)
    · have hzero : t.maxNumElementsAllowed = 0 := by
        by_contra hallowed
        have hmax := (h.allowed hallowed).1
        omega
      obtain ⟨more, hroom⟩ := exists_tryIncreaseInfo (hroomy hzero)
      obtain ⟨-, -, -, hmax⟩ := tryIncreaseInfo_valid h hmask hroom
      rw [if_pos hless, hroom]
      exact ⟨more, rfl, roomy_of_allowed (by omega)⟩
    · have hfits := calcMaxNumElementsAllowed_lt_double hlarge h.load
      rw [if_neg hless]
      dsimp only
      rw [if_neg (by omega)]
      exact rehashPowerOfTwo_roomy h (by omega) hfits.le hfew

end Growing

section Inserting

variable [DecidableEq κ]

theorem doInsert_roomy (h : Valid key hash t) (hroomy : Roomy t) (hfew : t.numElements < 126) (fuel : Nat) :
    doInsert key hash fuel t a = .error .endless ∨
      ∃ result, doInsert key hash fuel t a = .ok result ∧ Roomy result.1 := by
  induction fuel generalizing t with
  | zero => exact Or.inl rfl
  | succ fuel ih =>
      rcases doInsert_turn h a with ⟨-, hinsert⟩ | ⟨hnotin, ⟨hfull, hinsert⟩ | ⟨hroom, idx, info, hpoint, hinsert⟩⟩
      · exact Or.inr ⟨_, hinsert fuel, hroomy⟩
      · obtain ⟨t', hgrow, hroomy'⟩ := increaseSize_roomy h hroomy hfull hfew.le
        have hsound := increaseSize_sound h
        rw [hgrow] at hsound
        obtain ⟨hvalid, hvalues, -⟩ := hsound
        have hcount := h.count_eq_of_perm hvalid hvalues
        rw [hinsert, hgrow]
        exact ih hvalid hroomy' (by omega)
      · have hallowed : t.maxNumElementsAllowed ≠ 0 := by omega
        obtain ⟨hmax, hspare⟩ := h.allowed hallowed
        have hnew : ∀ b ∈ values t.slots, key b ≠ key a := fun b hb hkey =>
          hnotin (hkey ▸ List.mem_map_of_mem hb)
        obtain ⟨t', hplace, hvalid, hvalues, -⟩ := place_valid h hallowed (by omega) hnew hpoint
        rw [hinsert, hplace]
        refine Or.inr ⟨_, rfl, hvalid.roomy_of_place hplace hallowed (h.info_le hspare hpoint) ?_⟩
        rw [hvalid.count, hvalues.length_eq, List.length_cons, ← h.count]
        exact hfew

variable {m : Keyed key}

-- An insertion that makes it 126 elements at most does not throw.
theorem Represents.emplace_roomy (h : Represents key hash m t) (hroomy : Roomy t)
    (hfew : (m.insert a).entries.length ≤ 126) :
    ∃ t', (if (t.find key hash (key a)).isSome then .ok t else RawTable.emplace key hash t a) = .ok t' ∧
      Represents key hash (m.insert a) t' ∧ Roomy t' := by
  have hsound := h.emplace a
  cases hfind : t.find key hash (key a) with
  | some b =>
      rw [hfind] at hsound
      exact ⟨t, rfl, hsound, hroomy⟩
  | none =>
      rw [hfind] at hsound
      have hnew : ¬m.HasKey (key a) := by rwa [← Keyed.find?_eq_none, ← h.find_eq]
      have hless : t.numElements < 126 := by
        rw [Keyed.entries_insert hnew, List.length_append, List.length_singleton] at hfew
        rw [h.valid.count, h.values.length_eq]
        exact hfew
      have hinsert := doInsert_sound h.valid a
      rcases doInsert_roomy h.valid hroomy hless 4 (a := a) with hend | ⟨result, hok, hroomy'⟩
      · rw [hend] at hinsert
        cases hinsert
      · have hemplace : RawTable.emplace key hash t a = .ok result.1 := by
          rw [RawTable.emplace, hok]
          rfl
        rw [hemplace] at hsound
        exact ⟨result.1, hemplace, hsound, hroomy'⟩

theorem roomy_erase {k : κ} (h : Roomy t) : Roomy (t.erase key hash k) := by
  unfold RawTable.erase
  split
  · exact h
  · exact h

end Inserting

theorem roomy_sweep {keep : α → Bool} {it : Nat} (h : Roomy t) : Roomy (t.sweep keep it) := by
  fun_induction sweep keep t it with
  | case1 => exact h
  | case2 t it slot hslot hkeep _ ih => exact ih h
  | case3 t it slot hslot hdrop _ ih => exact ih h

end RawTable

-- A sequence of calls returns, if each of them does as long as its outcome meets a
-- condition.
theorem exists_foldlM {β ι σ : Type*} (P : σ → β → Prop) (C : σ → Prop) (abstract : σ → ι → σ)
    {call : β → ι → Except Fault β}
    (hcall : ∀ s b i, P s b → C (abstract s i) → ∃ b', call b i = .ok b' ∧ P (abstract s i) b')
    {s : σ} {b : β} (h : P s b) (calls : List ι) (hC : ∀ n, C ((calls.take n).foldl abstract s)) :
    ∃ b', calls.foldlM call b = .ok b' ∧ P (calls.foldl abstract s) b' := by
  induction calls generalizing s b with
  | nil => exact ⟨b, rfl, h⟩
  | cons i rest ih =>
      obtain ⟨b', hfirst, hb'⟩ := hcall s b i h (hC 1)
      obtain ⟨b'', hrest, hb''⟩ := ih hb' fun n => hC (n + 1)
      refine ⟨b'', ?_, hb''⟩
      rw [List.foldlM_cons, hfirst]
      exact hrest

end LiveReceptor.RobinHood

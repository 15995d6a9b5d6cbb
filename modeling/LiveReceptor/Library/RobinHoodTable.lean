import Mathlib.Algebra.Order.Group.Nat
import LiveReceptor.Library.RobinHoodInsertion
import LiveReceptor.Library.Sweep

-- The table itself: it grows, and makes room in the info bytes, when it has to.
namespace LiveReceptor.RobinHood

def initialNumElements : Nat := 8
def initialInfoInc : Nat := 32
def initialInfoHashShift : Nat := 59

-- The elements that a table of this size may have, at a load of at most 80 percent.
def calcMaxNumElementsAllowed (maxElements : Nat) : Nat :=
  if maxElements ≤ 18446744073709551615 / 100 then maxElements * 80 / 100 else maxElements / 100 * 80

def calcNumElementsWithBuffer (numElements : Nat) : Nat :=
  numElements + min (calcMaxNumElementsAllowed numElements) 255

-- A table with nothing allocated has no slots and the mask 0. The sentinel behind the
-- last slot is not among the slots.
structure RawTable (α : Type*) where
  slots : Slots α := []
  numElements : Nat := 0
  mask : Nat := 0
  maxNumElementsAllowed : Nat := 0
  infoInc : Nat := initialInfoInc
  infoHashShift : Nat := initialInfoHashShift
  deriving DecidableEq

-- How a call may end other than by returning: with the exception, behind the last
-- slot, or not at all.
inductive Fault
  | overflowError
  | outside
  | endless
  deriving DecidableEq, Repr

-- It returns what P says, or throws the exception.
def Sound {β : Type*} (P : β → Prop) : Except Fault β → Prop
  | .ok b => P b
  | .error fault => fault = .overflowError

theorem Sound.bind {β γ : Type*} {P : β → Prop} {Q : γ → Prop} {result : Except Fault β}
    {next : β → Except Fault γ} (h : Sound P result) (hnext : ∀ b, P b → Sound Q (next b)) :
    Sound Q (result.bind next) := by
  cases result with
  | error fault => exact h
  | ok b => exact hnext b h

theorem Sound.mono {β : Type*} {P Q : β → Prop} {result : Except Fault β} (h : Sound P result)
    (hPQ : ∀ b, P b → Q b) : Sound Q result := by
  cases result with
  | error fault => exact h
  | ok b => exact hPQ b h

theorem Sound.map {β γ : Type*} {P : β → Prop} {Q : γ → Prop} {result : Except Fault β} {f : β → γ}
    (h : Sound P result) (hf : ∀ b, P b → Q (f b)) : Sound Q (result.map f) := by
  cases result with
  | error fault => exact h
  | ok b => exact hf b h

-- A sequence of calls does what it says in the terms of `abstract`, if each of them does.
theorem Sound.foldlM {β ι σ : Type*} (P : σ → β → Prop) (abstract : σ → ι → σ) {call : β → ι → Except Fault β}
    (hcall : ∀ s b, P s b → ∀ i, Sound (P (abstract s i)) (call b i)) {s : σ} {b : β} (h : P s b) (calls : List ι) :
    Sound (P (calls.foldl abstract s)) (calls.foldlM call b) := by
  induction calls generalizing s b with
  | nil => exact h
  | cons i rest ih =>
      rw [List.foldlM_cons]
      exact Sound.bind (hcall s b h i) fun b' hb' => ih hb'

-- An info byte with one bit of the hash less.
def Slot.halved {α : Type*} (slot : Slot α) : Slot α := { slot with info := slot.info / 2 }

namespace RawTable

variable {α κ : Type*} (key : α → κ) (hash : κ → UInt64)

def keyToIdx (t : RawTable α) (k : κ) : Nat × Nat :=
  ((hash k).toNat &&& t.mask, t.infoInc + (hash k).toNat >>> t.infoHashShift)

def initData (maxElements : Nat) : RawTable α where
  slots := List.replicate (calcNumElementsWithBuffer maxElements) none
  mask := maxElements - 1
  maxNumElementsAllowed := calcMaxNumElementsAllowed maxElements

-- The bytes are halved eight at a time. None if the distances cannot get more room.
def tryIncreaseInfo (t : RawTable α) : Option (RawTable α) :=
  if t.infoInc ≤ 2 then none
  else some { t with
    slots := t.slots.map (Option.map Slot.halved)
    infoInc := t.infoInc / 2
    infoHashShift := t.infoHashShift + 1
    maxNumElementsAllowed := calcMaxNumElementsAllowed (t.mask + 1) }

-- What insert_move and doInsert do when they know the slot of the new element.
def place (t : RawTable α) (a : α) (insertion : Nat × Nat) : Except Fault (RawTable α) :=
  let (idx, info) := insertion
  match shiftUp t.infoInc ⟨info % 256, a⟩ (t.slots.drop idx) with
  | none => .error .outside
  | some (moved, full) => .ok { t with
      slots := t.slots.take idx ++ moved
      numElements := t.numElements + 1
      maxNumElementsAllowed := if full ∨ 255 < info + t.infoInc then 0 else t.maxNumElementsAllowed }

-- Here the byte is cut off first.
def putMoved (t : RawTable α) (a : α) : Except Fault (RawTable α) :=
  let (idx, info) := t.keyToIdx hash (key a)
  let (idx, info) := skipForward t.infoInc (t.slots.drop idx) idx info
  t.place a (idx, info % 256)

def insertMove (t : RawTable α) (a : α) : Except Fault (RawTable α) :=
  if t.maxNumElementsAllowed = 0 then
    match t.tryIncreaseInfo with
    | none => .error .overflowError
    | some t => t.putMoved key hash a
  else t.putMoved key hash a

def rehashPowerOfTwo (t : RawTable α) (numBuckets : Nat) : Except Fault (RawTable α) :=
  (values t.slots).foldlM (insertMove key hash) (initData numBuckets)

def increaseSize (t : RawTable α) : Except Fault (RawTable α) :=
  if t.mask = 0 then .ok (initData initialNumElements)
  else
    let maxNumElementsAllowed := calcMaxNumElementsAllowed (t.mask + 1)
    match if t.numElements < maxNumElementsAllowed then t.tryIncreaseInfo else none with
    | some t => .ok t
    | none =>
        if t.numElements * 2 < maxNumElementsAllowed then .error .overflowError
        else t.rehashPowerOfTwo key hash ((t.mask + 1) * 2)

section Calls

variable [DecidableEq κ]

-- The loop of doInsert, with `fuel` turns left. The flag says whether the element has
-- been inserted.
def doInsert : Nat → RawTable α → α → Except Fault (RawTable α × Bool)
  | 0, _, _ => .error .endless
  | fuel + 1, t, a =>
      let (idx, info) := t.keyToIdx hash (key a)
      let (idx, info) := nextWhileLess t.infoInc (t.slots.drop idx) idx info
      let (idx, info, found) := whileMatching key t.infoInc (key a) (t.slots.drop idx) idx info
      if found then .ok (t, false)
      else if t.maxNumElementsAllowed ≤ t.numElements then
        (t.increaseSize key hash).bind fun t => doInsert fuel t a
      else (t.place a (idx, info)).map fun t => (t, true)

def findIdx (t : RawTable α) (k : κ) : Option Nat :=
  let (idx, info) := t.keyToIdx hash k
  probe t.slots key t.infoInc k t.slots.length idx info

def find (t : RawTable α) (k : κ) : Option α :=
  (t.findIdx key hash k).bind fun idx => (slotAt t.slots idx).map Slot.value

def eraseIdx (t : RawTable α) (idx : Nat) : RawTable α :=
  { t with slots := eraseAt t.infoInc t.slots idx, numElements := t.numElements - 1 }

def erase (t : RawTable α) (k : κ) : RawTable α :=
  match t.findIdx key hash k with
  | none => t
  | some idx => t.eraseIdx idx

end Calls

variable {key hash}

section Sizes

variable {n m : Nat}

theorem calcMaxNumElementsAllowed_lt_double (hn : 8 ≤ n) (hm : m ≤ calcMaxNumElementsAllowed n) :
    m < calcMaxNumElementsAllowed (n * 2) := by
  unfold calcMaxNumElementsAllowed at hm ⊢
  split at hm <;> split <;> omega

theorem double_lt_calcMaxNumElementsAllowed (hn : 8 ≤ n) (hm : m ≤ calcMaxNumElementsAllowed n) :
    m * 2 < calcMaxNumElementsAllowed (n * 2 * 2) := by
  unfold calcMaxNumElementsAllowed at hm ⊢
  split at hm <;> split <;> omega

end Sizes

-- What holds of a table between any two calls: what has been allocated, the counter,
-- the bits of the hash that the bytes have, and that every element can be found. When
-- no more elements are allowed, the next insertion makes room first.
structure Valid (key : α → κ) (hash : κ → UInt64) (t : RawTable α) : Prop where
  shift : 59 ≤ t.infoHashShift ∧ t.infoHashShift ≤ 63
  inc : t.infoInc = 2 ^ (64 - t.infoHashShift)
  size : t.mask = 0 ∧ t.slots = [] ∧ t.maxNumElementsAllowed = 0 ∨
    8 ≤ t.mask + 1 ∧ t.slots.length = calcNumElementsWithBuffer (t.mask + 1)
  allowed : t.maxNumElementsAllowed ≠ 0 →
    t.maxNumElementsAllowed = calcMaxNumElementsAllowed (t.mask + 1) ∧ Spare t.infoInc t.slots
  count : t.numElements = (values t.slots).length
  load : t.numElements ≤ calcMaxNumElementsAllowed (t.mask + 1)
  bytes : Spare 0 t.slots
  reachable : ∀ idx, ∀ slot ∈ slotAt t.slots idx,
    Reachable t.infoInc t.slots (t.keyToIdx hash (key slot.value)) idx slot.info
  nodup : ((values t.slots).map key).Nodup

variable {t t' : RawTable α} {a : α} {k : κ} {idx info : Nat}

section Bytes

theorem Valid.infoInc_bounds (h : Valid key hash t) : 2 ≤ t.infoInc ∧ t.infoInc ≤ 32 := by
  obtain ⟨hlow, hhigh⟩ := h.shift
  have hfew : 2 ^ 1 ≤ 2 ^ (64 - t.infoHashShift) := Nat.pow_le_pow_right (Nat.succ_pos 1) (by omega)
  have hmany : 2 ^ (64 - t.infoHashShift) ≤ 2 ^ 5 := Nat.pow_le_pow_right (Nat.succ_pos 1) (by omega)
  rw [h.inc]
  exact ⟨hfew, hmany⟩

-- A byte has the bits of the hash below infoInc.
theorem Valid.keyToIdx_bytes (h : Valid key hash t) (k : κ) :
    t.infoInc ≤ (t.keyToIdx hash k).2 ∧ (t.keyToIdx hash k).2 < 2 * t.infoInc := by
  have hbits : (hash k).toNat >>> t.infoHashShift < t.infoInc := by
    rw [h.inc, Nat.shiftRight_eq_div_pow]
    apply Nat.div_lt_of_lt_mul
    rw [← Nat.pow_add, Nat.add_sub_of_le (by have := h.shift.2; omega)]
    exact UInt64.toNat_lt _
  refine ⟨Nat.le_add_right _ _, ?_⟩
  rw [Nat.two_mul]
  exact Nat.add_lt_add_left hbits _

theorem keyToIdx_le_mask (hash : κ → UInt64) (t : RawTable α) (k : κ) : (t.keyToIdx hash k).1 ≤ t.mask :=
  Nat.and_le_right

def Valid.toTable (h : Valid key hash t) : Table key where
  infoInc := t.infoInc
  keyToIdx := t.keyToIdx hash
  bytes := h.keyToIdx_bytes
  slots := t.slots
  reachable := h.reachable
  nodup := h.nodup

end Bytes

section Place

-- The byte that a new element gets is a byte.
theorem Valid.info_le (h : Valid key hash t) (hspare : Spare t.infoInc t.slots)
    (hpoint : InsertionPoint t.infoInc t.slots (t.keyToIdx hash k) idx info) : info ≤ 255 := by
  have hinc := h.infoInc_bounds
  have hbits := (h.keyToIdx_bytes k)
  rcases Nat.eq_or_lt_of_le hpoint.start with hhome | hhome
  · have hexpected := hpoint.expected
    rw [← hhome, Nat.sub_self, Nat.zero_mul] at hexpected
    omega
  · obtain ⟨before, rfl⟩ := Nat.exists_eq_add_of_lt hhome
    have hstart : (t.keyToIdx hash k).1 ≤ (t.keyToIdx hash k).1 + before := Nat.le_add_right _ _
    have hprobed := hpoint.probed _ hstart (Nat.lt_succ_self _)
    have hexpected := hpoint.expected
    rw [expected_succ hstart] at hexpected
    cases hslot : slotAt t.slots ((t.keyToIdx hash k).1 + before) with
    | none =>
        rw [infoAt, hslot] at hprobed
        have hzero : (t.keyToIdx hash k).2 = 0 := Nat.eq_zero_of_add_eq_zero_right (Nat.le_zero.mp hprobed)
        omega
    | some slot =>
        rw [infoAt_of_slotAt hslot] at hprobed
        have hbyte := hspare slot (mem_of_slotAt hslot)
        omega

theorem used_of_probed (hpos : 0 < infoAt t.slots idx) : slotAt t.slots idx ≠ none := by
  intro hnone
  rw [infoAt, hnone] at hpos
  exact absurd hpos (Nat.lt_irrefl 0)

-- From where an element belongs there is an empty slot, in front of the sentinel.
theorem Valid.exists_empty (h : Valid key hash t) (hmask : t.mask ≠ 0) {first : Nat} (hfirst : first ≤ t.mask) :
    ∃ j, first ≤ j ∧ j < t.slots.length ∧ slotAt t.slots j = none := by
  by_contra hfull
  push Not at hfull
  obtain ⟨hzero, -⟩ | ⟨-, hlength⟩ := h.size
  · exact hmask hzero
  have hused : ∀ j < (t.slots.drop first).length, slotAt (t.slots.drop first) j ≠ none := by
    intro j hj
    rw [List.length_drop] at hj
    rw [slotAt_drop]
    exact hfull (first + j) (Nat.le_add_right _ _) (by omega)
  have hdrop := length_values_of_used hused
  rw [List.length_drop] at hdrop
  have hvalues : (values (t.slots.drop first)).length ≤ t.numElements := by
    rw [h.count]
    exact ((List.drop_sublist first t.slots).filterMap _).length_le
  have hload := h.load
  have hinc := h.infoInc_bounds
  unfold calcNumElementsWithBuffer at hlength
  -- so many elements are allowed that the last slot is far from where its key belongs
  have hlast : slotAt t.slots (t.mask + 255) ≠ none := hfull _ (by omega) (by omega)
  obtain ⟨slot, hslot⟩ := Option.ne_none_iff_exists'.mp hlast
  have hbyte := h.bytes slot (mem_of_slotAt hslot)
  have hinfo := (h.reachable _ slot hslot).info
  have hhome := keyToIdx_le_mask hash t (key slot.value)
  have hbits := (h.keyToIdx_bytes (key slot.value)).1
  have hfar : 255 * 2 ≤ (t.mask + 255 - (t.keyToIdx hash (key slot.value)).1) * t.infoInc :=
    Nat.mul_le_mul (by omega) hinc.1
  omega

theorem Valid.shiftUp_ne_none (h : Valid key hash t) (hmask : t.mask ≠ 0) {carry : Slot α}
    (hpoint : InsertionPoint t.infoInc t.slots (t.keyToIdx hash k) idx info) :
    shiftUp t.infoInc carry (t.slots.drop idx) ≠ none := by
  intro hnone
  obtain ⟨j, hhome, hj, hempty⟩ := h.exists_empty hmask (keyToIdx_le_mask hash t k)
  have hbits := (h.keyToIdx_bytes k).1
  have hinc := h.infoInc_bounds.1
  -- the slots in front of the insertion point are in use
  have hidx : idx ≤ j := by
    by_contra hbefore
    have hprobed := hpoint.probed j hhome (Nat.not_le.mp hbefore)
    exact used_of_probed (by omega) hempty
  rw [shiftUp_eq_none_iff] at hnone
  refine hnone (j - idx) (by rw [List.length_drop]; omega) ?_
  rw [slotAt_drop, Nat.add_sub_of_le hidx, hempty]

theorem place_valid (h : Valid key hash t) (hallowed : t.maxNumElementsAllowed ≠ 0)
    (hload : t.numElements < calcMaxNumElementsAllowed (t.mask + 1))
    (hnew : ∀ b ∈ values t.slots, key b ≠ key a)
    (hpoint : InsertionPoint t.infoInc t.slots (t.keyToIdx hash (key a)) idx info) :
    ∃ t', t.place a (idx, info) = .ok t' ∧ Valid key hash t' ∧ (values t'.slots).Perm (a :: values t.slots) ∧
      t'.mask = t.mask := by
  have hmask : t.mask ≠ 0 := by
    obtain ⟨-, -, hzero⟩ | ⟨hlarge, -⟩ := h.size
    · exact absurd hzero hallowed
    · omega
  obtain ⟨hmax, hspare⟩ := h.allowed hallowed
  have hinfo := h.info_le hspare hpoint
  have hbyte : info % 256 = info := Nat.mod_eq_of_lt (Nat.lt_succ_of_le hinfo)
  unfold place
  dsimp only
  rw [hbyte]
  cases hshift : shiftUp t.infoInc ⟨info, a⟩ (t.slots.drop idx) with
  | none => exact absurd hshift (h.shiftUp_ne_none hmask hpoint)
  | some result =>
      obtain ⟨moved, full⟩ := result
      have hidx : idx ≤ t.slots.length := by
        by_contra hbehind
        rw [List.drop_of_length_le (by omega)] at hshift
        cases hshift
      obtain ⟨last, hmoved⟩ := inserted_shiftUp hshift
      have hinserted := inserted_append hidx hmoved
      have hvalues : (values (t.slots.take idx ++ moved)).Perm (a :: values t.slots) := by
        conv_rhs => rw [← List.take_append_drop idx t.slots]
        rw [values_append, values_append]
        exact ((values_shiftUp hshift).append_left _).trans List.perm_middle
      have hlength : (t.slots.take idx ++ moved).length = t.slots.length := by
        rw [List.length_append, length_shiftUp hshift, ← List.length_append, List.take_append_drop]
      have htaken : ∀ {b : Nat}, Spare b t.slots → Spare b (t.slots.take idx) :=
        fun hb slot hslot => hb slot (List.mem_of_mem_take hslot)
      have hdropped : ∀ {b : Nat}, Spare b t.slots → Spare b (t.slots.drop idx) :=
        fun hb slot hslot => hb slot (List.mem_of_mem_drop hslot)
      refine ⟨_, rfl, ?_, hvalues, rfl⟩
      refine ⟨h.shift, h.inc, ?_, fun hkept => ?_, ?_, ?_, fun slot hslot => ?_, ?_, ?_⟩
      · refine h.size.imp (fun hzero => absurd hzero.1 hmask) fun hsize => ⟨hsize.1, ?_⟩
        exact hlength.trans hsize.2
      · dsimp only at hkept ⊢
        split at hkept
        · exact absurd rfl hkept
        · rename_i hroom
          obtain ⟨hfull, hnotlarge⟩ := not_or.mp hroom
          rw [if_neg hroom]
          refine ⟨hmax, fun slot hslot => ?_⟩
          rcases List.mem_append.mp hslot with hslot | hslot
          · exact htaken hspare slot hslot
          · rw [Bool.not_eq_true] at hfull
            rw [hfull] at hshift
            exact spare_shiftUp hshift (Nat.not_lt.mp hnotlarge) (hdropped hspare) slot hslot
      · exact (congrArg Nat.succ h.count).trans hvalues.length_eq.symm
      · exact hload
      · rcases List.mem_append.mp hslot with hslot | hslot
        · exact htaken h.bytes slot hslot
        · exact bytes_shiftUp hshift hinfo (hdropped h.bytes) slot hslot
      · exact h.toTable.reachable_inserted hspare hinserted hpoint
      · refine ((hvalues.map key).nodup_iff).mpr (List.nodup_cons.mpr ⟨fun hmem => ?_, h.nodup⟩)
        obtain ⟨b, hb, hkey⟩ := List.mem_map.mp hmem
        exact hnew b hb hkey

end Place

section Resizing

theorem slotAt_map_halved (slots : Slots α) (idx : Nat) :
    slotAt (slots.map (Option.map Slot.halved)) idx = (slotAt slots idx).map Slot.halved := by
  rw [slotAt, slotAt, List.getElem?_map]
  cases slots[idx]? <;> rfl

theorem infoAt_map_halved (slots : Slots α) (idx : Nat) :
    infoAt (slots.map (Option.map Slot.halved)) idx = infoAt slots idx / 2 := by
  rw [infoAt, infoAt, slotAt_map_halved]
  cases slotAt slots idx with
  | none => exact (Nat.zero_div 2).symm
  | some slot => rfl

theorem values_map_halved (slots : Slots α) : values (slots.map (Option.map Slot.halved)) = values slots := by
  rw [values, values, List.filterMap_map]
  congr 1
  funext entry
  cases entry <;> rfl

theorem mem_map_halved {slots : Slots α} {slot : Slot α}
    (h : some slot ∈ slots.map (Option.map Slot.halved)) : ∃ old, some old ∈ slots ∧ old.halved = slot := by
  obtain ⟨entry, hentry, heq⟩ := List.mem_map.mp h
  obtain ⟨old, rfl, hold⟩ := Option.map_eq_some_iff.mp heq
  exact ⟨old, hentry, hold⟩

-- Halving the bytes halves the distances, and the bits of the hash with them.
theorem tryIncreaseInfo_valid (h : Valid key hash t) (hmask : t.mask ≠ 0)
    (hroom : t.tryIncreaseInfo = some t') : Valid key hash t' ∧ values t'.slots = values t.slots ∧
      t'.mask = t.mask ∧ t'.maxNumElementsAllowed = calcMaxNumElementsAllowed (t.mask + 1) := by
  unfold tryIncreaseInfo at hroom
  split at hroom
  · cases hroom
  rename_i hlarge
  obtain rfl := Option.some.inj hroom
  obtain ⟨hlow, hhigh⟩ := h.shift
  have hinc := h.infoInc_bounds
  have hpow : t.infoInc = 2 * 2 ^ (64 - (t.infoHashShift + 1)) := by
    have hbits : 64 - t.infoHashShift = 64 - (t.infoHashShift + 1) + 1 := by omega
    rw [h.inc, hbits, Nat.pow_succ, Nat.mul_comm]
  have hnarrow : t.infoHashShift + 1 ≤ 63 := by
    by_contra hwide
    have hone : 64 - (t.infoHashShift + 1) = 0 := by omega
    rw [hone] at hpow
    omega
  have hhalf : t.infoInc = 2 * (t.infoInc / 2) := by
    rw [hpow, Nat.mul_div_cancel_left _ (Nat.succ_pos 1)]
  have hhome : ∀ k, (t.infoInc + (hash k).toNat >>> t.infoHashShift) / 2 =
      t.infoInc / 2 + (hash k).toNat >>> (t.infoHashShift + 1) := by
    intro k
    rw [Nat.shiftRight_succ]
    omega
  have hexpected : ∀ k d, ((t.infoInc + (hash k).toNat >>> t.infoHashShift) + d * t.infoInc) / 2 =
      (t.infoInc / 2 + (hash k).toNat >>> (t.infoHashShift + 1)) + d * (t.infoInc / 2) := by
    intro k d
    rw [← hhome k]
    conv_lhs => rw [hhalf, Nat.mul_left_comm]
    rw [Nat.add_mul_div_left _ _ (Nat.succ_pos 1), ← hhalf]
  have hvalues := values_map_halved t.slots
  refine ⟨⟨⟨Nat.le_succ_of_le hlow, hnarrow⟩, ?_, ?_, fun _ => ⟨rfl, fun slot hslot => ?_⟩, ?_, h.load, fun slot hslot => ?_,
    fun idx slot hslot => ?_, ?_⟩, hvalues, rfl, rfl⟩
  · show t.infoInc / 2 = _
    rw [hpow, Nat.mul_div_cancel_left _ (Nat.succ_pos 1)]
  · refine h.size.imp (fun hzero => absurd hzero.1 hmask) fun hsize => ⟨hsize.1, ?_⟩
    exact (List.length_map _).trans hsize.2
  · obtain ⟨old, hold, rfl⟩ := mem_map_halved hslot
    have hbyte := h.bytes old hold
    show old.info / 2 + t.infoInc / 2 ≤ 255
    omega
  · show t.numElements = (values (t.slots.map (Option.map Slot.halved))).length
    rw [hvalues, h.count]
  · obtain ⟨old, hold, rfl⟩ := mem_map_halved hslot
    have hbyte := h.bytes old hold
    show old.info / 2 + 0 ≤ 255
    omega
  · rw [slotAt_map_halved] at hslot
    obtain ⟨old, hold, rfl⟩ := Option.map_eq_some_iff.mp hslot
    have hreach := h.reachable idx old hold
    refine ⟨hreach.start, ?_, fun j hj hstart => ?_⟩
    · exact (congrArg (· / 2) hreach.info).trans (hexpected _ _)
    · rw [infoAt_map_halved]
      exact (hexpected _ _).symm.le.trans (Nat.div_le_div_right (hreach.probed j hj hstart))
  · show ((values (t.slots.map (Option.map Slot.halved))).map key).Nodup
    rw [hvalues]
    exact h.nodup

theorem slotAt_replicate_none (n idx : Nat) : slotAt (List.replicate n (none : Option (Slot α))) idx = none := by
  rw [slotAt, List.getElem?_replicate]
  split <;> rfl

theorem values_replicate_none (n : Nat) : values (List.replicate n (none : Option (Slot α))) = [] := by
  induction n with
  | zero => rfl
  | succ n ih => exact ih

theorem empty_valid : Valid key hash ({} : RawTable α) where
  shift := ⟨Nat.le_refl 59, Nat.le_add_right 59 4⟩
  inc := rfl
  size := Or.inl ⟨rfl, rfl, rfl⟩
  allowed h := absurd rfl h
  count := rfl
  load := Nat.zero_le _
  bytes _ h := absurd h List.not_mem_nil
  reachable _ _ h := by cases h
  nodup := List.nodup_nil

theorem initData_valid {n : Nat} (hn : 8 ≤ n) : Valid key hash (initData n : RawTable α) where
  shift := ⟨Nat.le_refl 59, Nat.le_add_right 59 4⟩
  inc := rfl
  size := by
    refine Or.inr ⟨?_, ?_⟩
    · show 8 ≤ n - 1 + 1
      omega
    · show (List.replicate (calcNumElementsWithBuffer n) none).length = calcNumElementsWithBuffer (n - 1 + 1)
      rw [List.length_replicate, Nat.sub_add_cancel (by omega)]
  allowed _ := by
    refine ⟨?_, fun slot hslot => ?_⟩
    · show calcMaxNumElementsAllowed n = calcMaxNumElementsAllowed (n - 1 + 1)
      rw [Nat.sub_add_cancel (by omega)]
    · cases (List.mem_replicate.mp hslot).2
  count := (congrArg List.length (values_replicate_none _)).symm
  load := Nat.zero_le _
  bytes slot hslot := by cases (List.mem_replicate.mp hslot).2
  reachable idx slot hslot := by
    rw [show slotAt (initData n : RawTable α).slots idx = none from slotAt_replicate_none _ _] at hslot
    cases hslot
  nodup := by
    rw [show values (initData n : RawTable α).slots = [] from values_replicate_none _]
    exact List.nodup_nil

end Resizing

section Growing

-- The table has these elements and is as large as before.
structure Holds (key : α → κ) (hash : κ → UInt64) (elements : List α) (mask : Nat) (t : RawTable α) : Prop where
  valid : Valid key hash t
  values : (values t.slots).Perm elements
  mask : t.mask = mask

theorem putMoved_holds (h : Valid key hash t) (hallowed : t.maxNumElementsAllowed ≠ 0)
    (hload : t.numElements < calcMaxNumElementsAllowed (t.mask + 1))
    (hnew : ∀ b ∈ values t.slots, key b ≠ key a) :
    ∃ t', t.putMoved key hash a = .ok t' ∧ Holds key hash (a :: values t.slots) t.mask t' := by
  have hbits := (h.keyToIdx_bytes (key a)).1
  have hinc := h.infoInc_bounds.1
  have hpoint : InsertionPoint t.infoInc t.slots (t.keyToIdx hash (key a)) _ _ :=
    insertionPoint_skipForward (by omega) rfl (Nat.le_refl _) (by rw [Nat.sub_self, Nat.zero_mul, Nat.add_zero])
      fun j hhome hj => absurd hj (Nat.not_lt.mpr hhome)
  have hinfo := h.info_le (h.allowed hallowed).2 hpoint
  obtain ⟨t', hplace, hvalid, hvalues, hmask⟩ := place_valid h hallowed hload hnew hpoint
  refine ⟨t', ?_, hvalid, hvalues, hmask⟩
  unfold putMoved
  dsimp only
  rw [Nat.mod_eq_of_lt (Nat.lt_succ_of_le hinfo)]
  exact hplace

-- It gives up when there is no bit of the hash left to make room with. Otherwise the
-- element goes into a table that has room, with the same elements.
theorem insertMove_cases (h : Valid key hash t) (hmask : t.mask ≠ 0)
    (hload : t.numElements < calcMaxNumElementsAllowed (t.mask + 1)) (a : α) :
    (t.maxNumElementsAllowed = 0 ∧ t.infoInc ≤ 2 ∧ t.insertMove key hash a = .error .overflowError) ∨
      ∃ more, Valid key hash more ∧ more.maxNumElementsAllowed ≠ 0 ∧ values more.slots = values t.slots ∧
        more.mask = t.mask ∧ more.numElements = t.numElements ∧
          t.insertMove key hash a = more.putMoved key hash a := by
  unfold insertMove
  split
  · rename_i hzero
    cases hroom : t.tryIncreaseInfo with
    | none =>
        refine Or.inl ⟨hzero, ?_, rfl⟩
        by_contra hlarge
        rw [tryIncreaseInfo, if_neg hlarge] at hroom
        cases hroom
    | some more =>
        obtain ⟨hvalid, hvalues, hsame, hmax⟩ := tryIncreaseInfo_valid h hmask hroom
        have hcount : more.numElements = t.numElements := by rw [hvalid.count, hvalues, h.count]
        exact Or.inr ⟨more, hvalid, by omega, hvalues, hsame, hcount, rfl⟩
  · rename_i hallowed
    exact Or.inr ⟨t, h, hallowed, rfl, rfl, rfl, rfl⟩

theorem insertMove_sound (h : Valid key hash t) (hmask : t.mask ≠ 0)
    (hload : t.numElements < calcMaxNumElementsAllowed (t.mask + 1))
    (hnew : ∀ b ∈ values t.slots, key b ≠ key a) :
    Sound (Holds key hash (a :: values t.slots) t.mask) (t.insertMove key hash a) := by
  rcases insertMove_cases h hmask hload a with
    ⟨-, -, hinsert⟩ | ⟨more, hvalid, hallowed, hvalues, hsame, hcount, hinsert⟩
  · rw [hinsert]
    rfl
  · rw [← hvalues] at hnew
    rw [← hsame, ← hcount] at hload
    obtain ⟨t', hput, hholds⟩ := putMoved_holds hvalid hallowed hload hnew
    rw [hinsert, hput]
    rwa [hvalues, hsame] at hholds

theorem foldlM_insertMove_sound (elements : List α) (h : Valid key hash t) (hmask : t.mask ≠ 0)
    (hload : t.numElements + elements.length ≤ calcMaxNumElementsAllowed (t.mask + 1))
    (hnodup : ((elements ++ values t.slots).map key).Nodup) :
    Sound (Holds key hash (elements ++ values t.slots) t.mask) (elements.foldlM (insertMove key hash) t) := by
  induction elements generalizing t with
  | nil => exact ⟨h, .refl _, rfl⟩
  | cons a rest ih =>
      have hcons : ((a :: rest) ++ values t.slots).Perm (rest ++ a :: values t.slots) := List.perm_middle.symm
      rw [List.length_cons] at hload
      obtain ⟨hfresh, -⟩ := List.nodup_cons.mp hnodup
      have hnew : ∀ b ∈ values t.slots, key b ≠ key a := fun b hb hkey =>
        hfresh (List.mem_map.mpr ⟨b, List.mem_append_right _ hb, hkey⟩)
      rw [List.foldlM_cons]
      refine Sound.bind (insertMove_sound h hmask (by omega) hnew) fun t' ht' => ?_
      have hmore : (rest ++ values t'.slots).Perm ((a :: rest) ++ values t.slots) :=
        (ht'.values.append_left rest).trans hcons.symm
      have hcount : t'.numElements = t.numElements + 1 := by
        rw [ht'.valid.count, ht'.values.length_eq, h.count, List.length_cons]
      refine Sound.mono (ih ht'.valid ?_ ?_ ?_) fun t'' ht'' => ?_
      · rw [ht'.mask]
        exact hmask
      · rw [ht'.mask, hcount]
        omega
      · exact (hmore.map key).nodup_iff.mpr hnodup
      · exact ⟨ht''.valid, ht''.values.trans hmore, ht''.mask.trans ht'.mask⟩

-- Moving everything to a larger table.
theorem rehashPowerOfTwo_sound (h : Valid key hash t) {n : Nat} (hn : 8 ≤ n)
    (hload : t.numElements ≤ calcMaxNumElementsAllowed n) :
    Sound (Holds key hash (values t.slots) (n - 1)) (t.rehashPowerOfTwo key hash n) := by
  have hempty : values (initData n : RawTable α).slots = [] := values_replicate_none _
  have hsize : (initData n : RawTable α).mask + 1 = n := Nat.sub_add_cancel (by omega)
  have hfold := @foldlM_insertMove_sound α κ key hash (initData n) (values t.slots) (initData_valid hn)
  rw [hempty, List.append_nil, hsize] at hfold
  refine hfold ?_ ?_ h.nodup
  · show n - 1 ≠ 0
    omega
  · show 0 + (values t.slots).length ≤ _
    rw [Nat.zero_add, ← h.count]
    exact hload

-- After increase_size the table has room, or it has been moved to one of twice the
-- size although it was at least half full.
theorem increaseSize_sound (h : Valid key hash t) :
    Sound (fun t' => Valid key hash t' ∧ (values t'.slots).Perm (values t.slots) ∧
      (t'.numElements < t'.maxNumElementsAllowed ∨
        t.mask ≠ 0 ∧ t'.mask + 1 = (t.mask + 1) * 2 ∧
          calcMaxNumElementsAllowed (t.mask + 1) ≤ t.numElements * 2)) (t.increaseSize key hash) := by
  unfold increaseSize
  split
  · rename_i hmask
    have hnone : values t.slots = [] := by
      obtain ⟨-, hslots, -⟩ | ⟨hlarge, -⟩ := h.size
      · rw [hslots]
        rfl
      · omega
    rw [hnone]
    have hinit : values (initData initialNumElements : RawTable α).slots = [] := values_replicate_none _
    exact ⟨initData_valid (Nat.le_refl 8), hinit ▸ .refl _, Or.inl (show 0 < calcMaxNumElementsAllowed 8 by decide)⟩
  · rename_i hmask
    dsimp only
    have hlarge : 8 ≤ t.mask + 1 := by
      obtain ⟨hzero, -⟩ | ⟨hlarge, -⟩ := h.size
      · exact absurd hzero hmask
      · exact hlarge
    cases hroom : (if t.numElements < calcMaxNumElementsAllowed (t.mask + 1) then t.tryIncreaseInfo else none) with
    | some t' =>
        split at hroom
        · rename_i hless
          obtain ⟨hvalid, hvalues, hsame, hmax⟩ := tryIncreaseInfo_valid h hmask hroom
          have hcount : t'.numElements = t.numElements := by rw [hvalid.count, hvalues, h.count]
          exact ⟨hvalid, hvalues ▸ .refl _, Or.inl (by rw [hmax, hcount]; exact hless)⟩
        · cases hroom
    | none =>
        dsimp only
        split
        · rfl
        · rename_i hhalf
          have hfits := calcMaxNumElementsAllowed_lt_double hlarge h.load
          refine Sound.mono (rehashPowerOfTwo_sound h (by omega) hfits.le) fun t' ht' => ?_
          refine ⟨ht'.valid, ht'.values, Or.inr ⟨hmask, ?_, Nat.not_lt.mp hhalf⟩⟩
          rw [ht'.mask]
          omega

end Growing

section Inserting

-- A key of the table is not beyond the point at which a new one would be inserted.
theorem Valid.not_mem_of_point (h : Valid key hash t)
    (hpoint : InsertionPoint t.infoInc t.slots (t.keyToIdx hash k) idx info)
    (hunmatched : Unmatched t.infoInc t.slots key k (t.keyToIdx hash k) idx) :
    ∀ b ∈ values t.slots, key b ≠ k := by
  rintro b hb rfl
  obtain ⟨i, slot, hslot, rfl⟩ := exists_slotAt_of_mem_values hb
  have hreach := h.reachable i slot hslot
  by_cases hbefore : i < idx
  · refine hunmatched i hreach.start hbefore ?_ (by rw [hslot]; rfl)
    rw [infoAt_of_slotAt hslot, hreach.info]
  · have hprobed := hreach.probed idx (Nat.not_lt.mp hbefore) hpoint.start
    have habove := hpoint.above
    have hexpected := hpoint.expected
    omega

theorem Valid.count_eq_of_perm (h : Valid key hash t) (h' : Valid key hash t')
    (hvalues : (values t'.slots).Perm (values t.slots)) : t'.numElements = t.numElements := by
  rw [h'.count, hvalues.length_eq, h.count]

variable [DecidableEq κ]

-- What an insertion makes of a table with these elements.
structure Inserts (key : α → κ) (hash : κ → UInt64) (elements : List α) (a : α) (result : RawTable α × Bool) :
    Prop where
  valid : Valid key hash result.1
  flag : result.2 = decide (key a ∉ elements.map key)
  values : (values result.1.slots).Perm (if key a ∈ elements.map key then elements else a :: elements)

theorem Inserts.of_perm {elements elements' : List α} {result : RawTable α × Bool}
    (h : Inserts key hash elements a result) (hperm : elements.Perm elements') :
    Inserts key hash elements' a result := by
  have hmem : key a ∈ elements.map key ↔ key a ∈ elements'.map key := (hperm.map key).mem_iff
  refine ⟨h.valid, ?_, h.values.trans ?_⟩
  · rw [h.flag]
    exact decide_eq_decide.mpr hmem.not
  · by_cases hin : key a ∈ elements.map key
    · rw [if_pos hin, if_pos (hmem.mp hin)]
      exact hperm
    · rw [if_neg hin, if_neg (hmem.not.mp hin)]
      exact hperm.cons a

-- A turn of the loop of doInsert: the key is there, or the table grows and the loop
-- goes on, or the slot of the new element is known.
theorem doInsert_turn (h : Valid key hash t) (a : α) :
    (key a ∈ (values t.slots).map key ∧ ∀ fuel, doInsert key hash (fuel + 1) t a = .ok (t, false)) ∨
      key a ∉ (values t.slots).map key ∧
        ((t.maxNumElementsAllowed ≤ t.numElements ∧ ∀ fuel, doInsert key hash (fuel + 1) t a =
            (t.increaseSize key hash).bind fun t => doInsert key hash fuel t a) ∨
          (t.numElements < t.maxNumElementsAllowed ∧ ∃ idx info,
            InsertionPoint t.infoInc t.slots (t.keyToIdx hash (key a)) idx info ∧
              ∀ fuel, doInsert key hash (fuel + 1) t a = (t.place a (idx, info)).map fun t => (t, true))) := by
  have hbits := (h.keyToIdx_bytes (key a)).1
  have hinc := h.infoInc_bounds.1
  have hsearching : Searching t.infoInc t.slots key (key a) (t.keyToIdx hash (key a)) _ _ :=
    searching_nextWhileLess rfl (Nat.le_refl _) (by rw [Nat.sub_self, Nat.zero_mul, Nat.add_zero])
      fun j hhome hj => absurd hj (Nat.not_lt.mpr hhome)
  have hgradient : ∀ j, slotAt t.slots j ≠ none → infoAt t.slots (j + 1) ≤ infoAt t.slots j + t.infoInc :=
    fun j hj => h.toTable.infoAt_succ_le hj
  rcases found_or_point (by omega) hgradient rfl hsearching with ⟨hfound, hslot⟩ | ⟨hfound, hpoint, hunmatched⟩
  · obtain ⟨slot, hslot, hkey⟩ := Option.map_eq_some_iff.mp hslot
    refine Or.inl ⟨hkey ▸ List.mem_map_of_mem (h.toTable.mem_content_of_slotAt hslot), fun fuel => ?_⟩
    unfold doInsert
    dsimp only
    rw [if_pos hfound]
  · have hnew := h.not_mem_of_point hpoint hunmatched
    refine Or.inr ⟨fun hmem => (List.mem_map.mp hmem).elim fun b hb => hnew b hb.1 hb.2, ?_⟩
    by_cases hfull : t.maxNumElementsAllowed ≤ t.numElements
    · refine Or.inl ⟨hfull, fun fuel => ?_⟩
      rw [doInsert]
      dsimp only
      rw [hfound, if_neg Bool.false_ne_true, if_pos hfull]
    · refine Or.inr ⟨Nat.not_le.mp hfull, _, _, hpoint, fun fuel => ?_⟩
      rw [doInsert]
      dsimp only
      rw [hfound, if_neg Bool.false_ne_true, if_neg hfull]

theorem doInsert_sound_of {fuel : Nat} (h : Valid key hash t)
    (hgrow : t.maxNumElementsAllowed ≤ t.numElements → Sound (Inserts key hash (values t.slots) a)
      ((t.increaseSize key hash).bind fun t => doInsert key hash fuel t a)) :
    Sound (Inserts key hash (values t.slots) a) (doInsert key hash (fuel + 1) t a) := by
  rcases doInsert_turn h a with ⟨hmem, hinsert⟩ | ⟨hnotin, ⟨hfull, hinsert⟩ | ⟨hroom, idx, info, hpoint, hinsert⟩⟩
  · rw [hinsert]
    exact ⟨h, (decide_eq_false (not_not.mpr hmem)).symm, by rw [if_pos hmem]⟩
  · rw [hinsert]
    exact hgrow hfull
  · have hallowed : t.maxNumElementsAllowed ≠ 0 := by omega
    have hmax := (h.allowed hallowed).1
    have hnew : ∀ b ∈ values t.slots, key b ≠ key a := fun b hb hkey =>
      hnotin (hkey ▸ List.mem_map_of_mem hb)
    obtain ⟨t', hplace, hvalid, hvalues, -⟩ := place_valid h hallowed (by omega) hnew hpoint
    rw [hinsert, hplace]
    exact ⟨hvalid, (decide_eq_true hnotin).symm, by rw [if_neg hnotin]; exact hvalues⟩

theorem doInsert_sound_of_room {fuel : Nat} (h : Valid key hash t)
    (hroom : t.numElements < t.maxNumElementsAllowed) :
    Sound (Inserts key hash (values t.slots) a) (doInsert key hash (fuel + 1) t a) :=
  doInsert_sound_of h fun hfull => absurd hroom (Nat.not_lt.mpr hfull)

-- A table that is less than half full is not moved to a larger one again.
theorem doInsert_sound_of_half {fuel : Nat} (h : Valid key hash t)
    (hhalf : t.numElements * 2 < calcMaxNumElementsAllowed (t.mask + 1)) :
    Sound (Inserts key hash (values t.slots) a) (doInsert key hash (fuel + 2) t a) := by
  refine doInsert_sound_of h fun _ => Sound.bind (increaseSize_sound h) ?_
  rintro t' ⟨hvalid, hvalues, hroom | ⟨-, -, hfull⟩⟩
  · exact Sound.mono (doInsert_sound_of_room hvalid hroom) fun _ hresult => hresult.of_perm hvalues
  · omega

-- It takes four turns at most: the table is moved twice at most, and then the bytes
-- make room at most once.
theorem doInsert_sound (h : Valid key hash t) (a : α) :
    Sound (Inserts key hash (values t.slots) a) (doInsert key hash 4 t a) := by
  refine doInsert_sound_of h fun _ => Sound.bind (increaseSize_sound h) ?_
  rintro t' ⟨hvalid', hvalues', hroom | ⟨hmask, hsize, -⟩⟩
  · exact Sound.mono (doInsert_sound_of_room hvalid' hroom) fun _ hresult => hresult.of_perm hvalues'
  refine Sound.mono ?_ fun _ hresult => Inserts.of_perm hresult hvalues'
  refine doInsert_sound_of hvalid' fun _ => Sound.bind (increaseSize_sound hvalid') ?_
  rintro t'' ⟨hvalid, hvalues, hroom | ⟨-, hsize', -⟩⟩
  · exact Sound.mono (doInsert_sound_of_room hvalid hroom) fun _ hresult => hresult.of_perm hvalues
  · have hlarge : 8 ≤ t.mask + 1 := by
      obtain ⟨hzero, -⟩ | ⟨hlarge, -⟩ := h.size
      · exact absurd hzero hmask
      · exact hlarge
    have hcount : t''.numElements = t.numElements :=
      (hvalid'.count_eq_of_perm hvalid hvalues).trans (h.count_eq_of_perm hvalid' hvalues')
    have hhalf := double_lt_calcMaxNumElementsAllowed hlarge h.load
    rw [← hsize, ← hsize', ← hcount] at hhalf
    refine Sound.mono (doInsert_sound_of_half hvalid hhalf) fun _ hresult => ?_
    exact hresult.of_perm hvalues

end Inserting

end RawTable

end LiveReceptor.RobinHood

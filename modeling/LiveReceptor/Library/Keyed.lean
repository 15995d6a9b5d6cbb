import Mathlib.Data.List.Nodup
import Mathlib.Data.List.Count
import Mathlib.Data.List.Sort

namespace LiveReceptor

-- A container whose elements carry their own key, with at most one element a
-- key. The list is the order in which the container happens to be laid out.
structure Keyed {α κ : Type*} (key : α → κ) where
  entries : List α
  nodup : (entries.map key).Nodup

namespace Keyed

variable {α κ : Type*} {key : α → κ}

instance : Membership α (Keyed key) := ⟨fun m a => a ∈ m.entries⟩

def empty : Keyed key := ⟨[], List.nodup_nil⟩

instance : EmptyCollection (Keyed key) := ⟨empty⟩
instance : Inhabited (Keyed key) := ⟨empty⟩

def HasKey (m : Keyed key) (k : κ) : Prop := ∃ a ∈ m, key a = k

instance (m : Keyed key) (P : α → Prop) [DecidablePred P] : Decidable (∀ a ∈ m, P a) :=
  inferInstanceAs (Decidable (∀ a ∈ m.entries, P a))

def filter (m : Keyed key) (p : α → Bool) : Keyed key :=
  ⟨m.entries.filter p, m.nodup.sublist (List.filter_sublist.map key)⟩

def dropWhile (m : Keyed key) (p : α → Bool) : Keyed key :=
  ⟨m.entries.dropWhile p, m.nodup.sublist ((List.dropWhile_sublist p).map key)⟩

-- Rewrites every element in place. The rewriting must leave the keys alone.
def update (m : Keyed key) (f : α → α) (hf : ∀ a, key (f a) = key a) : Keyed key :=
  ⟨m.entries.map f, by
    have h : (m.entries.map f).map key = m.entries.map key := by simp [hf]
    exact h ▸ m.nodup⟩

def count (m : Keyed key) (p : α → Bool) : Nat := m.entries.countP p

theorem mem_def {m : Keyed key} {a : α} : a ∈ m ↔ a ∈ m.entries := Iff.rfl

@[simp] theorem notMem_empty (a : α) : a ∉ (∅ : Keyed key) := List.not_mem_nil

@[simp] theorem mem_filter {m : Keyed key} {p : α → Bool} {a : α} :
    a ∈ m.filter p ↔ a ∈ m ∧ p a = true := List.mem_filter

@[simp] theorem mem_update {m : Keyed key} {f : α → α} {hf : ∀ a, key (f a) = key a} {b : α} :
    b ∈ m.update f hf ↔ ∃ a ∈ m, f a = b := List.mem_map

theorem eq_of_key_eq {m : Keyed key} {a b : α} (ha : a ∈ m) (hb : b ∈ m) (h : key a = key b) :
    a = b := List.inj_on_of_nodup_map m.nodup ha hb h

theorem HasKey.of_mem {m : Keyed key} {a : α} (h : a ∈ m) : m.HasKey (key a) := ⟨a, h, rfl⟩

@[simp] theorem not_hasKey_empty (k : κ) : ¬(∅ : Keyed key).HasKey k := by
  rintro ⟨a, ha, -⟩
  exact notMem_empty a ha

@[simp] theorem hasKey_update {m : Keyed key} {f : α → α} {hf : ∀ a, key (f a) = key a} {k : κ} :
    (m.update f hf).HasKey k ↔ m.HasKey k := by
  constructor
  · rintro ⟨b, hb, rfl⟩
    obtain ⟨a, ha, rfl⟩ := mem_update.mp hb
    exact ⟨a, ha, (hf a).symm⟩
  · rintro ⟨a, ha, rfl⟩
    exact ⟨f a, mem_update.mpr ⟨a, ha, rfl⟩, hf a⟩

@[simp] theorem entries_filter (m : Keyed key) (p : α → Bool) :
    (m.filter p).entries = m.entries.filter p := rfl

@[simp] theorem entries_update (m : Keyed key) (f : α → α) (hf : ∀ a, key (f a) = key a) :
    (m.update f hf).entries = m.entries.map f := rfl

theorem map_key_update {m : Keyed key} {f : α → α} {hf : ∀ a, key (f a) = key a} :
    (m.update f hf).entries.map key = m.entries.map key := by
  rw [entries_update, List.map_map]
  exact List.map_congr_left fun a _ => hf a

theorem hasKey_iff_mem {m : Keyed key} {k : κ} : m.HasKey k ↔ k ∈ m.entries.map key :=
  List.mem_map.symm

@[simp] theorem entries_empty : (∅ : Keyed key).entries = [] := rfl

@[simp] theorem count_empty (p : α → Bool) : (∅ : Keyed key).count p = 0 := rfl

@[simp] theorem update_id (m : Keyed key) : m.update (fun a => a) (fun _ => rfl) = m := by
  obtain ⟨entries, nodup⟩ := m
  simp only [update, List.map_id']

theorem count_update {m : Keyed key} {f : α → α} {hf : ∀ a, key (f a) = key a} {p : α → Bool}
    (h : ∀ a ∈ m, p (f a) = p a) : (m.update f hf).count p = m.count p := by
  simp only [count, entries_update, List.countP_map]
  exact List.countP_congr fun a ha => by simp [h a ha]

theorem count_eq_zero {m : Keyed key} {p : α → Bool} :
    m.count p = 0 ↔ ∀ a ∈ m, ¬p a = true := by
  simp only [count, List.countP_eq_zero]
  rfl

theorem count_filter_le (m : Keyed key) (p q : α → Bool) : (m.filter q).count p ≤ m.count p :=
  (List.filter_sublist (l := m.entries)).countP_le

theorem count_filter_of_imp {m : Keyed key} {p q : α → Bool} (h : ∀ a ∈ m, p a = true → q a = true) :
    (m.filter q).count p = m.count p := by
  simp only [count, entries_filter, List.countP_filter]
  exact List.countP_congr fun a ha => by
    simp only [Bool.and_eq_true, and_iff_left_iff_imp]
    exact h a ha

theorem filter_eq_self {m : Keyed key} {p : α → Bool} (h : ∀ a ∈ m, p a = true) : m.filter p = m := by
  obtain ⟨entries, nodup⟩ := m
  have he : entries.filter p = entries := List.filter_eq_self.mpr h
  simp only [filter, he]

-- What is dropped from the front is all there is to drop when the elements that
-- satisfy p stand in front of the others.
theorem dropWhile_eq_filter {m : Keyed key} {p : α → Bool}
    (h : m.entries.Pairwise fun a b => p b = true → p a = true) :
    m.dropWhile p = m.filter fun a => !p a := by
  obtain ⟨entries, nodup⟩ := m
  simp only [dropWhile, filter, mk.injEq]
  induction entries with
  | nil => rfl
  | cons a rest ih =>
      obtain ⟨hfront, hrest⟩ := List.pairwise_cons.mp h
      cases ha : p a with
      | true =>
          rw [List.dropWhile_cons_of_pos ha, List.filter_cons_of_neg (by simp [ha])]
          exact ih (List.nodup_cons.mp nodup).2 hrest
      | false =>
          have hnone : ∀ b ∈ a :: rest, (!p b) = true := by
            intro b hb
            rcases List.mem_cons.mp hb with rfl | hb
            · simp [ha]
            · simpa [ha] using hfront b hb
          rw [List.dropWhile_cons_of_neg (by simp [ha]), List.filter_eq_self.mpr hnone]

@[simp] theorem filter_filter_self (m : Keyed key) (p : α → Bool) :
    (m.filter p).filter p = m.filter p := filter_eq_self fun _ ha => (mem_filter.mp ha).2

section Lookup

variable [DecidableEq κ]

def find? (m : Keyed key) (k : κ) : Option α := m.entries.find? fun a => key a = k

instance (m : Keyed key) (k : κ) : Decidable (m.HasKey k) :=
  inferInstanceAs (Decidable (∃ a ∈ m.entries, key a = k))

def erase (m : Keyed key) (k : κ) : Keyed key := m.filter fun a => key a ≠ k

-- Adds the element unless its key is taken.
def insert (m : Keyed key) (a : α) : Keyed key :=
  if h : m.HasKey (key a) then m
  else ⟨m.entries ++ [a], by
    rw [List.map_append]
    apply m.nodup.append (List.nodup_singleton _)
    intro k hk ha
    obtain ⟨b, hb, rfl⟩ := List.mem_map.mp hk
    exact h ⟨b, hb, List.mem_singleton.mp ha⟩⟩

def modify (m : Keyed key) (k : κ) (f : α → α) (hf : ∀ a, key (f a) = key a := by intro; rfl) :
    Keyed key :=
  m.update (fun a => if key a = k then f a else a) fun a => by split <;> simp [hf]

theorem find?_eq_some {m : Keyed key} {k : κ} {a : α} :
    m.find? k = some a ↔ a ∈ m ∧ key a = k := by
  constructor
  · intro h
    exact ⟨List.mem_of_find?_eq_some h, by simpa using List.find?_some h⟩
  · rintro ⟨ha, rfl⟩
    cases hb : m.find? (key a) with
    | none =>
        have := List.find?_eq_none.mp hb a ha
        simp at this
    | some b =>
        have hk : key b = key a := by simpa using List.find?_some hb
        rw [eq_of_key_eq (List.mem_of_find?_eq_some hb) ha hk]

@[simp] theorem find?_update {m : Keyed key} {f : α → α} {hf : ∀ a, key (f a) = key a} {k : κ} :
    (m.update f hf).find? k = (m.find? k).map f := by
  rw [find?, find?, entries_update, List.find?_map]
  simp only [Function.comp_def, hf]

theorem find?_eq_none {m : Keyed key} {k : κ} : m.find? k = none ↔ ¬m.HasKey k := by
  simp only [find?, List.find?_eq_none, decide_eq_true_eq, HasKey, not_exists, not_and]
  rfl

theorem exists_find?_of_hasKey {m : Keyed key} {k : κ} (h : m.HasKey k) : ∃ a, m.find? k = some a := by
  obtain ⟨a, ha, hk⟩ := h
  exact ⟨a, find?_eq_some.mpr ⟨ha, hk⟩⟩

theorem hasKey_of_find? {m : Keyed key} {k : κ} {a : α} (h : m.find? k = some a) : m.HasKey k :=
  ⟨a, find?_eq_some.mp h⟩

@[simp] theorem mem_erase {m : Keyed key} {k : κ} {a : α} : a ∈ m.erase k ↔ a ∈ m ∧ key a ≠ k := by
  simp [erase]

theorem erase_of_not_hasKey {m : Keyed key} {k : κ} (h : ¬m.HasKey k) : m.erase k = m :=
  filter_eq_self fun a ha => decide_eq_true fun hk => h ⟨a, ha, hk⟩

theorem length_erase_lt {m : Keyed key} {a : α} (ha : a ∈ m) :
    (m.erase (key a)).entries.length < m.entries.length :=
  List.length_filter_lt_length_iff_exists.mpr ⟨a, ha, by simp⟩

theorem find?_erase_of_ne {m : Keyed key} {k k' : κ} (h : k ≠ k') : (m.erase k').find? k = m.find? k := by
  cases hfind : m.find? k with
  | none =>
      refine find?_eq_none.mpr ?_
      rintro ⟨a, ha, hk⟩
      exact find?_eq_none.mp hfind ⟨a, (mem_erase.mp ha).1, hk⟩
  | some a =>
      obtain ⟨ha, rfl⟩ := find?_eq_some.mp hfind
      exact find?_eq_some.mpr ⟨mem_erase.mpr ⟨ha, h⟩, rfl⟩

@[simp] theorem hasKey_erase {m : Keyed key} {k k' : κ} :
    (m.erase k).HasKey k' ↔ m.HasKey k' ∧ k' ≠ k := by
  constructor
  · rintro ⟨a, ha, rfl⟩
    obtain ⟨ha, hk⟩ := mem_erase.mp ha
    exact ⟨⟨a, ha, rfl⟩, hk⟩
  · rintro ⟨⟨a, ha, rfl⟩, hk⟩
    exact ⟨a, mem_erase.mpr ⟨ha, hk⟩, rfl⟩

theorem entries_insert {m : Keyed key} {a : α} (h : ¬m.HasKey (key a)) :
    (m.insert a).entries = m.entries ++ [a] := by
  simp [insert, h]

theorem insert_of_hasKey {m : Keyed key} {a : α} (h : m.HasKey (key a)) : m.insert a = m := by
  simp [insert, h]

theorem mem_insert {m : Keyed key} {a b : α} (h : ¬m.HasKey (key a)) :
    b ∈ m.insert a ↔ b ∈ m ∨ b = a := by
  rw [mem_def, entries_insert h, List.mem_append, List.mem_singleton]
  rfl

theorem mem_insert_of_mem {m : Keyed key} {a b : α} (h : b ∈ m) : b ∈ m.insert a := by
  by_cases ha : m.HasKey (key a)
  · exact (insert_of_hasKey ha).symm ▸ h
  · exact (mem_insert ha).mpr (Or.inl h)

@[simp] theorem hasKey_insert {m : Keyed key} {a : α} {k : κ} :
    (m.insert a).HasKey k ↔ m.HasKey k ∨ k = key a := by
  by_cases h : m.HasKey (key a)
  · rw [insert_of_hasKey h]
    exact ⟨Or.inl, fun hk => hk.elim id fun hk => hk ▸ h⟩
  · constructor
    · rintro ⟨b, hb, rfl⟩
      rcases (mem_insert h).mp hb with hb | rfl
      · exact Or.inl ⟨b, hb, rfl⟩
      · exact Or.inr rfl
    · rintro (⟨b, hb, rfl⟩ | rfl)
      · exact ⟨b, (mem_insert h).mpr (Or.inl hb), rfl⟩
      · exact ⟨a, (mem_insert h).mpr (Or.inr rfl), rfl⟩

theorem mem_modify {m : Keyed key} {k : κ} {f : α → α} {hf : ∀ a, key (f a) = key a} {b : α} :
    b ∈ m.modify k f hf ↔ (∃ a ∈ m, key a = k ∧ f a = b) ∨ (b ∈ m ∧ key b ≠ k) := by
  simp only [modify, mem_update]
  constructor
  · rintro ⟨a, ha, rfl⟩
    by_cases h : key a = k
    · exact Or.inl ⟨a, ha, h, by simp [h]⟩
    · exact Or.inr ⟨by simpa [h] using ha, by simp [h]⟩
  · rintro (⟨a, ha, h, rfl⟩ | ⟨hb, h⟩)
    · exact ⟨a, ha, by simp [h]⟩
    · exact ⟨b, hb, by simp [h]⟩

theorem mem_modify_of_ne {m : Keyed key} {k : κ} {f : α → α} {hf : ∀ a, key (f a) = key a} {b : α}
    (h : key b ≠ k) : b ∈ m.modify k f hf ↔ b ∈ m := by
  rw [mem_modify]
  constructor
  · rintro (⟨a, -, rfl, rfl⟩ | ⟨hb, -⟩)
    · exact absurd (hf a) h
    · exact hb
  · exact fun hb => Or.inr ⟨hb, h⟩

@[simp] theorem hasKey_modify {m : Keyed key} {k k' : κ} {f : α → α}
    {hf : ∀ a, key (f a) = key a} : (m.modify k f hf).HasKey k' ↔ m.HasKey k' := hasKey_update

theorem erase_modify {m : Keyed key} {k : κ} {f : α → α} {hf : ∀ a, key (f a) = key a} :
    (m.modify k f hf).erase k = m.erase k := by
  obtain ⟨entries, nodup⟩ := m
  have hentries : (entries.map fun a => if key a = k then f a else a).filter (fun a => key a ≠ k) =
      entries.filter fun a => key a ≠ k := by
    clear nodup
    induction entries with
    | nil => rfl
    | cons a rest ih =>
        rw [List.map_cons, List.filter_cons, List.filter_cons, ih]
        by_cases ha : key a = k
        · simp [ha, hf]
        · simp [ha]
  simp only [erase, modify, filter, update, hentries]

-- Removing the element under a key takes one off the counts that saw it.
theorem count_erase {m : Keyed key} {a : α} (ha : a ∈ m) (p : α → Bool) :
    m.count p = (m.erase (key a)).count p + if p a = true then 1 else 0 := by
  obtain ⟨entries, nodup⟩ := m
  change a ∈ entries at ha
  change entries.countP p = (entries.filter fun b => decide (key b ≠ key a)).countP p + _
  induction entries with
  | nil => cases ha
  | cons b rest ih =>
      have hn := List.nodup_cons.mp nodup
      by_cases hb : key b = key a
      · have hrest : rest.filter (fun c => decide (key c ≠ key a)) = rest := by
          refine List.filter_eq_self.mpr fun c hc => ?_
          have hck : key c ≠ key a := fun h => hn.1 (List.mem_map.mpr ⟨c, hc, h.trans hb.symm⟩)
          simp [hck]
        have hab : b = a := List.inj_on_of_nodup_map nodup List.mem_cons_self ha hb
        subst hab
        rw [List.filter_cons_of_neg (by simp), hrest, List.countP_cons]
      · have har : a ∈ rest := (List.mem_cons.mp ha).resolve_left fun h => hb (h ▸ rfl)
        rw [List.filter_cons_of_pos (by simp [hb]), List.countP_cons, List.countP_cons,
          ih hn.2 har]
        omega

theorem count_insert {m : Keyed key} {a : α} (h : ¬m.HasKey (key a)) (p : α → Bool) :
    (m.insert a).count p = m.count p + if p a = true then 1 else 0 := by
  simp only [count, entries_insert h, List.countP_append, List.countP_singleton]

-- Adding an element for each of the keys that are not there yet.
theorem mem_foldl_insert {make : κ → α} (hmake : ∀ k, key (make k) = k) (keys : List κ)
    (m : Keyed key) {a : α} : a ∈ keys.foldl (fun m k => m.insert (make k)) m ↔
      a ∈ m ∨ (¬m.HasKey (key a) ∧ key a ∈ keys ∧ make (key a) = a) := by
  induction keys generalizing m with
  | nil => simp
  | cons k rest ih =>
      rw [List.foldl_cons, ih, hasKey_insert, hmake]
      by_cases hk : m.HasKey k
      · rw [insert_of_hasKey ((hmake k).symm ▸ hk)]
        refine or_congr_right ⟨?_, ?_⟩
        · rintro ⟨hn, hr, ha⟩
          exact ⟨fun h => hn (Or.inl h), List.mem_cons_of_mem _ hr, ha⟩
        · rintro ⟨hn, hr, ha⟩
          have hne : key a ≠ k := fun h => hn (h ▸ hk)
          exact ⟨fun h => h.elim hn hne, (List.mem_cons.mp hr).resolve_left hne, ha⟩
      · rw [mem_insert ((hmake k).symm ▸ hk)]
        constructor
        · rintro ((ha | rfl) | ⟨hn, hr, ha⟩)
          · exact Or.inl ha
          · rw [hmake]
            exact Or.inr ⟨hk, List.mem_cons_self, rfl⟩
          · exact Or.inr ⟨fun h => hn (Or.inl h), List.mem_cons_of_mem _ hr, ha⟩
        · rintro (ha | ⟨hn, hr, ha⟩)
          · exact Or.inl (Or.inl ha)
          · by_cases hak : key a = k
            · exact Or.inl (Or.inr (hak ▸ ha.symm))
            · exact Or.inr ⟨fun h => h.elim hn hak, (List.mem_cons.mp hr).resolve_left hak, ha⟩

end Lookup

end Keyed

section Arrangement

-- An order in which a container may yield its elements: hashed containers
-- promise no more than that every element comes exactly once.
structure Arrangement (α : Type*) where
  arrange : List α → List α
  perm : ∀ l, (arrange l).Perm l

-- A sort by a strict comparison. Elements that compare equal may come in any
-- order.
structure Sorter {α : Type*} (less : α → α → Prop) extends Arrangement α where
  sorted : ∀ l, (arrange l).Pairwise fun a b => ¬less b a

variable {α : Type*}

instance : Inhabited (Arrangement α) := ⟨⟨id, fun _ => .refl _⟩⟩

@[simp] theorem Arrangement.mem_arrange (order : Arrangement α) {l : List α} {a : α} :
    a ∈ order.arrange l ↔ a ∈ l := (order.perm l).mem_iff

@[simp] theorem Sorter.mem_arrange {less : α → α → Prop} (order : Sorter less) {l : List α} {a : α} :
    a ∈ order.arrange l ↔ a ∈ l := (order.perm l).mem_iff

-- Insertion sort by an integer measure, smallest first.
def Sorter.insertion (measure : α → Int) : Sorter fun a b => measure a < measure b where
  arrange := List.insertionSort fun a b => measure a ≤ measure b
  perm := List.perm_insertionSort _
  sorted l := by
    have : Std.Total fun a b : α => measure a ≤ measure b := ⟨fun a b => le_total _ _⟩
    have : IsTrans α fun a b => measure a ≤ measure b := ⟨fun _ _ _ => le_trans⟩
    exact (List.pairwise_insertionSort (fun a b => measure a ≤ measure b) l).imp fun h => not_lt.mpr h

end Arrangement

end LiveReceptor

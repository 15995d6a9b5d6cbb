import Mathlib.Data.List.Basic

namespace LiveReceptor

-- A record once ended in a way that `start` describes, and nothing in `stop`
-- has happened since.
def Since {α : Type*} (start : List α → Prop) (stop : α → Prop) (record : List α) : Prop :=
  ∃ before after, record = before ++ after ∧ start before ∧ ∀ a ∈ after, ¬stop a

namespace Since

variable {α : Type*} {start : List α → Prop} {stop : α → Prop} {record more : List α}

theorem of_start (h : start record) : Since start stop record :=
  ⟨record, [], (List.append_nil _).symm, h, by simp⟩

theorem append (h : Since start stop record) (hmore : ∀ a ∈ more, ¬stop a) :
    Since start stop (record ++ more) := by
  obtain ⟨before, after, rfl, hstart, hafter⟩ := h
  refine ⟨before, after ++ more, List.append_assoc _ _ _, hstart, fun a ha => ?_⟩
  exact (List.mem_append.mp ha).elim (hafter a) (hmore a)

-- What one more element does: it may be the start, or end what there was.
theorem concat_iff {a : α} :
    Since start stop (record ++ [a]) ↔ start (record ++ [a]) ∨ Since start stop record ∧ ¬stop a := by
  constructor
  · rintro ⟨before, after, hrecord, hstart, hafter⟩
    rcases List.eq_nil_or_concat' after with rfl | ⟨between, b, rfl⟩
    · rw [List.append_nil] at hrecord
      exact Or.inl (hrecord ▸ hstart)
    · rw [← List.append_assoc] at hrecord
      obtain ⟨hbefore, hb⟩ := List.append_inj' hrecord rfl
      obtain rfl : a = b := by simpa using hb
      refine Or.inr ⟨⟨before, between, hbefore, hstart, fun b hb => ?_⟩, ?_⟩
      · exact hafter b (List.mem_append_left _ hb)
      · exact hafter a (by simp)
  · rintro (hstart | ⟨h, ha⟩)
    · exact of_start hstart
    · exact h.append (by simpa using ha)

end Since

-- The elements of a record that `fact` speaks about were added when it held.
def Justified {α : Type*} (fact : List α → α → Prop) (record : List α) : Prop :=
  ∀ before a, before ++ [a] <+: record → fact before a

namespace Justified

variable {α : Type*} {fact : List α → α → Prop} {record more : List α}

theorem nil : Justified fact [] := by
  intro before a h
  have := List.prefix_nil.mp h
  simp at this

theorem concat {a : α} (h : Justified fact record) (ha : fact record a) :
    Justified fact (record ++ [a]) := by
  intro before b hb
  rcases List.prefix_concat_iff.mp hb with he | hb
  · obtain ⟨rfl, hab⟩ := List.append_inj' he rfl
    obtain rfl : b = a := by simpa using hab
    exact ha
  · exact h before b hb

theorem concat_iff {a : α} : Justified fact (record ++ [a]) ↔ Justified fact record ∧ fact record a := by
  constructor
  · intro h
    exact ⟨fun before b hb => h before b (hb.trans (List.prefix_append _ _)), h record a List.prefix_rfl⟩
  · rintro ⟨h, ha⟩
    exact h.concat ha

-- Elements that the fact does not speak about need no justification.
theorem append (h : Justified fact record) (hmore : ∀ a ∈ more, ∀ before, fact before a) :
    Justified fact (record ++ more) := by
  induction more generalizing record with
  | nil => simpa using h
  | cons a rest ih =>
      rw [List.append_cons]
      exact ih (h.concat (hmore a List.mem_cons_self record)) fun b hb =>
        hmore b (List.mem_cons_of_mem _ hb)

end Justified

end LiveReceptor

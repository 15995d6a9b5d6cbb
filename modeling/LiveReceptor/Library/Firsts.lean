import Mathlib.Data.List.Nodup
import Mathlib.Data.List.Induction

namespace LiveReceptor

-- What is left of a list when, of the elements with the same key, only the first one
-- stays. Elements without a key all stay.
section Firsts

variable {α κ : Type*} [DecidableEq κ] (key : α → Option κ)

def keepFirst (kept : List α) (a : α) : List α :=
  if (key a).isSome = true ∧ key a ∈ kept.map key then kept else kept ++ [a]

def firsts (l : List α) : List α := l.foldl (keepFirst key) []

variable {key} {l kept : List α} {a : α} {k : κ}

theorem firsts_concat (l : List α) (a : α) : firsts key (l ++ [a]) = keepFirst key (firsts key l) a :=
  List.foldl_concat _ _ _ _

theorem keepFirst_of_none (h : key a = none) : keepFirst key kept a = kept ++ [a] := by
  simp [keepFirst, h]

theorem keepFirst_of_mem (h : key a = some k) (hk : some k ∈ kept.map key) : keepFirst key kept a = kept := by
  rw [keepFirst, h]
  exact if_pos ⟨rfl, hk⟩

theorem keepFirst_of_notMem (h : key a = some k) (hk : some k ∉ kept.map key) :
    keepFirst key kept a = kept ++ [a] := by
  rw [keepFirst, h]
  exact if_neg fun hmem => hk hmem.2

-- The keys are those of the list.
theorem mem_map_key_firsts : some k ∈ (firsts key l).map key ↔ some k ∈ l.map key := by
  induction l using List.reverseRecOn with
  | nil => exact Iff.rfl
  | append_singleton l a ih =>
      rw [firsts_concat, List.map_append, List.mem_append, ← ih]
      cases hkey : key a with
      | none => rw [keepFirst_of_none hkey, List.map_append, List.mem_append]
      | some k' =>
          by_cases hmem : some k' ∈ (firsts key l).map key
          · rw [keepFirst_of_mem hkey hmem]
            refine ⟨Or.inl, fun h => h.elim id fun h => ?_⟩
            rwa [List.mem_singleton.mp h, hkey]
          · rw [keepFirst_of_notMem hkey hmem, List.map_append, List.mem_append]

-- No key comes twice.
theorem nodup_filterMap_firsts : ((firsts key l).filterMap key).Nodup := by
  induction l using List.reverseRecOn with
  | nil => exact List.nodup_nil
  | append_singleton l a ih =>
      rw [firsts_concat]
      cases hkey : key a with
      | none => simpa [keepFirst_of_none hkey, hkey] using ih
      | some k =>
          by_cases hmem : some k ∈ (firsts key l).map key
          · rwa [keepFirst_of_mem hkey hmem]
          · rw [keepFirst_of_notMem hkey hmem, List.filterMap_append]
            refine ih.append (by simp [hkey]) fun k' hk' hmem' => hmem ?_
            obtain ⟨b, hb, hkb⟩ := List.mem_filterMap.mp hk'
            obtain rfl : k' = k := by simpa [hkey] using hmem'
            exact List.mem_map.mpr ⟨b, hb, hkb⟩

end Firsts

end LiveReceptor

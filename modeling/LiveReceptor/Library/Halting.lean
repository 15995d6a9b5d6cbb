import Mathlib.Data.Option.Basic
import Mathlib.Data.List.Basic

namespace LiveReceptor

-- Runs of a machine that may come to a halt in the middle of a step.
namespace Halting

variable {σ τ ι : Type*}

-- The property of what is left when the machine has not halted.
def Ensures (P : σ → Prop) (result : Option σ) : Prop := ∀ s, result = some s → P s

def run (step : ι → σ → Option σ) (result : Option σ) (inputs : List ι) : Option σ :=
  inputs.foldl (fun result input => result.bind (step input)) result

variable {step : ι → σ → Option σ} {P Q : σ → Prop} {result : Option σ} {s : σ}

@[simp] theorem ensures_some : Ensures P (some s) ↔ P s :=
  ⟨fun h => h s rfl, fun h _ he => Option.some.inj he ▸ h⟩

@[simp] theorem ensures_none : Ensures P none := fun _ he => by cases he

theorem Ensures.bind {R : τ → Prop} {next : σ → Option τ} (h : Ensures P result)
    (hnext : ∀ s, P s → Ensures R (next s)) : Ensures R (result.bind next) := by
  intro t ht
  obtain ⟨s, hs, hst⟩ := Option.bind_eq_some_iff.mp ht
  exact hnext s (h s hs) t hst

theorem Ensures.mono (h : Ensures P result) (hPQ : ∀ s, P s → Q s) : Ensures Q result :=
  fun s hs => hPQ s (h s hs)

-- A loop of steps that may halt keeps what each turn keeps.
theorem ensures_foldlM {α : Type*} {turn : σ → α → Option σ} {items : List α}
    (hturn : ∀ s, P s → ∀ item ∈ items, Ensures P (turn s item)) (h : P s) :
    Ensures P (items.foldlM turn s) := by
  induction items generalizing s with
  | nil => exact ensures_some.mpr h
  | cons item rest ih =>
      rw [List.foldlM_cons]
      refine Ensures.bind (hturn s h item List.mem_cons_self) fun t ht => ?_
      exact ih (fun s hs item hi => hturn s hs item (List.mem_cons_of_mem _ hi)) ht

@[simp] theorem run_nil : run step result [] = result := rfl

@[simp] theorem run_cons (input : ι) (rest : List ι) :
    run step result (input :: rest) = run step (result.bind (step input)) rest := rfl

@[simp] theorem run_append (before after : List ι) :
    run step result (before ++ after) = run step (run step result before) after := List.foldl_append

@[simp] theorem run_none (inputs : List ι) : run step none inputs = none := by
  induction inputs with
  | nil => rfl
  | cons input rest ih => exact ih

theorem ensures_run {inputs : List ι} (hstep : ∀ input ∈ inputs, ∀ s, P s → Ensures P (step input s))
    (h : Ensures P result) : Ensures P (run step result inputs) := by
  induction inputs generalizing result with
  | nil => exact h
  | cons input rest ih =>
      refine ih (fun input hi => hstep input (List.mem_cons_of_mem _ hi)) ?_
      exact h.bind (hstep input List.mem_cons_self)

end Halting

end LiveReceptor

import Mathlib.Data.List.Basic

namespace LiveReceptor

-- Runs of a machine that takes one input at a time.
namespace Runs

variable {σ ι : Type*} (step : ι → σ → σ)

def run (s : σ) (inputs : List ι) : σ := inputs.foldl (fun s i => step i s) s

-- Every step of the run, seen as its input and the state it is taken in.
def EveryStep (P : ι → σ → Prop) : σ → List ι → Prop
  | _, [] => True
  | s, i :: rest => P i s ∧ EveryStep P (step i s) rest

-- Every state of the run, the first and the last included.
def EveryState (Q : σ → Prop) : σ → List ι → Prop
  | s, [] => Q s
  | s, i :: rest => Q s ∧ EveryState Q (step i s) rest

-- What the steps of the run yield, one after the other.
def collect {α : Type*} (yield : ι → σ → List α) : σ → List ι → List α
  | _, [] => []
  | s, i :: rest => yield i s ++ collect yield (step i s) rest

instance decidableEveryStep (P : ι → σ → Prop) [∀ i s, Decidable (P i s)] :
    (s : σ) → (inputs : List ι) → Decidable (EveryStep step P s inputs)
  | _, [] => inferInstanceAs (Decidable True)
  | s, i :: rest =>
      have := decidableEveryStep P (step i s) rest
      inferInstanceAs (Decidable (_ ∧ _))

instance decidableEveryState (Q : σ → Prop) [∀ s, Decidable (Q s)] :
    (s : σ) → (inputs : List ι) → Decidable (EveryState step Q s inputs)
  | s, [] => inferInstanceAs (Decidable (Q s))
  | s, i :: rest =>
      have := decidableEveryState Q (step i s) rest
      inferInstanceAs (Decidable (_ ∧ _))

@[simp] theorem run_nil (s : σ) : run step s [] = s := rfl

@[simp] theorem run_cons (s : σ) (i : ι) (rest : List ι) :
    run step s (i :: rest) = run step (step i s) rest := rfl

@[simp] theorem run_append (s : σ) (before after : List ι) :
    run step s (before ++ after) = run step (run step s before) after := List.foldl_append

variable {step}

theorem run_invariant {Inv : σ → Prop} (hstep : ∀ i s, Inv s → Inv (step i s))
    {s : σ} (h : Inv s) (inputs : List ι) : Inv (run step s inputs) := by
  induction inputs generalizing s with
  | nil => exact h
  | cons i rest ih => exact ih (hstep i s h)

-- The same when the invariant survives only the steps that meet a condition.
theorem run_invariant_of {Inv : σ → Prop} {P : ι → σ → Prop}
    (hstep : ∀ i s, Inv s → P i s → Inv (step i s)) {s : σ} (h : Inv s) {inputs : List ι}
    (hP : EveryStep step P s inputs) : Inv (run step s inputs) := by
  induction inputs generalizing s with
  | nil => exact h
  | cons i rest ih => exact ih (hstep i s h hP.1) hP.2

theorem everyState_of {Inv Q : σ → Prop} {P : ι → σ → Prop}
    (hstep : ∀ i s, Inv s → P i s → Inv (step i s)) (hQ : ∀ s, Inv s → Q s)
    {s : σ} (h : Inv s) {inputs : List ι} (hP : EveryStep step P s inputs) :
    EveryState step Q s inputs := by
  induction inputs generalizing s with
  | nil => exact hQ s h
  | cons i rest ih => exact ⟨hQ s h, ih (hstep i s h hP.1) hP.2⟩

theorem everyStep_of_forall {P : ι → σ → Prop} (hP : ∀ i s, P i s) (s : σ) (inputs : List ι) :
    EveryStep step P s inputs := by
  induction inputs generalizing s with
  | nil => trivial
  | cons i rest ih => exact ⟨hP i s, ih _⟩

theorem everyStep_mono {P Q : ι → σ → Prop} (hQ : ∀ i s, P i s → Q i s) {s : σ} {inputs : List ι}
    (hP : EveryStep step P s inputs) : EveryStep step Q s inputs := by
  induction inputs generalizing s with
  | nil => trivial
  | cons i rest ih => exact ⟨hQ i s hP.1, ih hP.2⟩

theorem EveryStep.and {P Q : ι → σ → Prop} {s : σ} {inputs : List ι} (hP : EveryStep step P s inputs)
    (hQ : EveryStep step Q s inputs) : EveryStep step (fun i s => P i s ∧ Q i s) s inputs := by
  induction inputs generalizing s with
  | nil => trivial
  | cons i rest ih => exact ⟨⟨hP.1, hQ.1⟩, ih hP.2 hQ.2⟩

-- An invariant that needs P at every step, and Q where both hold.
theorem everyStep_of {Inv : σ → Prop} {P Q : ι → σ → Prop}
    (hstep : ∀ i s, Inv s → P i s → Inv (step i s)) (hQ : ∀ i s, Inv s → P i s → Q i s)
    {s : σ} (h : Inv s) {inputs : List ι} (hP : EveryStep step P s inputs) :
    EveryStep step Q s inputs := by
  induction inputs generalizing s with
  | nil => trivial
  | cons i rest ih => exact ⟨hQ i s h hP.1, ih (hstep i s h hP.1) hP.2⟩

-- Two properties of the steps that agree wherever the first has held so far.
theorem everyStep_iff {Inv : σ → Prop} {P Q : ι → σ → Prop}
    (hstep : ∀ i s, Inv s → P i s → Inv (step i s)) (hPQ : ∀ i s, Inv s → (P i s ↔ Q i s))
    {s : σ} (h : Inv s) (inputs : List ι) :
    EveryStep step P s inputs ↔ EveryStep step Q s inputs := by
  induction inputs generalizing s with
  | nil => exact Iff.rfl
  | cons i rest ih =>
      have hhead := hPQ i s h
      constructor
      · rintro ⟨hi, hrest⟩
        exact ⟨hhead.mp hi, (ih (hstep i s h hi)).mp hrest⟩
      · rintro ⟨hi, hrest⟩
        have hi' := hhead.mpr hi
        exact ⟨hi', (ih (hstep i s h hi')).mpr hrest⟩

theorem EveryState.head {Q : σ → Prop} {s : σ} {inputs : List ι}
    (h : EveryState step Q s inputs) : Q s := by
  cases inputs with
  | nil => exact h
  | cons i rest => exact h.1

-- The first state, and the one behind each step.
theorem everyState_iff_next {Q : σ → Prop} {s : σ} {inputs : List ι} :
    EveryState step Q s inputs ↔ Q s ∧ EveryStep step (fun i s => Q (step i s)) s inputs := by
  induction inputs generalizing s with
  | nil => exact (and_iff_left trivial).symm
  | cons i rest ih => exact and_congr_right fun _ => ih

-- A property of the states that a step keeps exactly when it meets P.
theorem everyState_iff_everyStep {Inv Q : σ → Prop} {P : ι → σ → Prop}
    (hstep : ∀ i s, Inv s → Inv (step i s)) (hP : ∀ i s, Inv s → Q s → (Q (step i s) ↔ P i s))
    {s : σ} (h : Inv s) (hs : Q s) (inputs : List ι) :
    EveryState step Q s inputs ↔ EveryStep step P s inputs := by
  induction inputs generalizing s with
  | nil => exact ⟨fun _ => trivial, fun _ => hs⟩
  | cons i rest ih =>
      constructor
      · rintro ⟨-, hrest⟩
        have hs' : Q (step i s) := hrest.head
        exact ⟨(hP i s h hs).mp hs', (ih (hstep i s h) hs').mp hrest⟩
      · rintro ⟨hi, hrest⟩
        have hs' : Q (step i s) := (hP i s h hs).mpr hi
        exact ⟨hs, (ih (hstep i s h) hs').mpr hrest⟩

-- The same for the end of the run, when no later step can make up for the loss.
theorem run_iff_everyStep {Inv Q : σ → Prop} {P : ι → σ → Prop}
    (hstep : ∀ i s, Inv s → Inv (step i s)) (hP : ∀ i s, Inv s → (Q (step i s) ↔ Q s ∧ P i s))
    {s : σ} (h : Inv s) (inputs : List ι) :
    Q (run step s inputs) ↔ Q s ∧ EveryStep step P s inputs := by
  induction inputs generalizing s with
  | nil => exact (and_iff_left trivial).symm
  | cons i rest ih =>
      rw [run_cons, ih (hstep i s h), hP i s h]
      exact and_assoc

-- Where no step raises the measure before the goal is reached, and every step that
-- works lowers it, the goal is reached within as many of these.
theorem run_reaches {Inv Goal : σ → Prop} {P : ι → σ → Prop} {works : ι → Bool} {measure : σ → Nat}
    (hstep : ∀ i s, Inv s → P i s → Inv (step i s))
    (hgoal : ∀ i s, Inv s → P i s → Goal s → Goal (step i s))
    (hmeasure : ∀ i s, Inv s → P i s → ¬Goal s →
      measure (step i s) + (if works i then 1 else 0) ≤ measure s)
    {s : σ} (h : Inv s) {inputs : List ι} (hP : EveryStep step P s inputs)
    (hlong : measure s < inputs.countP works) : Goal (run step s inputs) := by
  induction inputs generalizing s with
  | nil => exact absurd hlong (Nat.not_lt_zero _)
  | cons i rest ih =>
      obtain ⟨hi, hrest⟩ := hP
      by_cases hs : Goal s
      · have hboth : ∀ i s, Inv s ∧ Goal s → P i s → Inv (step i s) ∧ Goal (step i s) := fun i s h hi =>
          ⟨hstep i s h.1 hi, hgoal i s h.1 hi h.2⟩
        have hkept := run_invariant_of hboth ⟨hstep i s h hi, hgoal i s h hi hs⟩ hrest
        exact hkept.2
      · have hless := hmeasure i s h hi hs
        rw [List.countP_cons] at hlong
        have hlong' : measure (step i s) < rest.countP works := by omega
        exact ih (hstep i s h hi) hrest hlong'

-- The states of a run are the ends of its prefixes.
theorem everyState_iff_prefix {Q : σ → Prop} {s : σ} {inputs : List ι} :
    EveryState step Q s inputs ↔ ∀ before after, inputs = before ++ after → Q (run step s before) := by
  induction inputs generalizing s with
  | nil =>
      constructor
      · intro h before after he
        obtain ⟨rfl, -⟩ := List.append_eq_nil_iff.mp he.symm
        exact h
      · intro h
        exact h [] [] rfl
  | cons i rest ih =>
      constructor
      · rintro ⟨hs, hrest⟩ before after he
        cases before with
        | nil => exact hs
        | cons j before =>
            obtain ⟨rfl, rfl⟩ := List.cons_eq_cons.mp he
            exact ih.mp hrest before after rfl
      · intro h
        refine ⟨h [] (i :: rest) rfl, ih.mpr fun before after he => ?_⟩
        exact h (i :: before) after (by rw [he]; rfl)

-- The steps of a run are its inputs, each taken at the end of what precedes it.
theorem everyStep_iff_prefix {P : ι → σ → Prop} {s : σ} {inputs : List ι} :
    EveryStep step P s inputs ↔
      ∀ before i after, inputs = before ++ i :: after → P i (run step s before) := by
  induction inputs generalizing s with
  | nil => exact ⟨fun _ before i after he => by simp at he, fun _ => trivial⟩
  | cons i rest ih =>
      constructor
      · rintro ⟨hi, hrest⟩ before j after he
        cases before with
        | nil =>
            obtain ⟨rfl, rfl⟩ := List.cons_eq_cons.mp he
            exact hi
        | cons k before =>
            obtain ⟨rfl, rfl⟩ := List.cons_eq_cons.mp he
            exact ih.mp hrest before j after rfl
      · intro h
        refine ⟨h [] i rest rfl, ih.mpr fun before j after he => ?_⟩
        exact h (i :: before) j after (by rw [he]; rfl)

theorem everyStep_append {P : ι → σ → Prop} {s : σ} {before after : List ι} :
    EveryStep step P s (before ++ after) ↔
      EveryStep step P s before ∧ EveryStep step P (run step s before) after := by
  induction before generalizing s with
  | nil => exact ⟨fun h => ⟨trivial, h⟩, fun h => h.2⟩
  | cons i rest ih => exact (and_congr_right fun _ => ih).trans and_assoc.symm

theorem everyStep_forall {β : Type*} {P : β → ι → σ → Prop} {s : σ} {inputs : List ι} :
    EveryStep step (fun i s => ∀ b, P b i s) s inputs ↔ ∀ b, EveryStep step (P b) s inputs := by
  constructor
  · exact fun h b => everyStep_mono (fun _ _ hP => hP b) h
  · exact fun h => everyStep_iff_prefix.mpr fun before i after he b =>
      everyStep_iff_prefix.mp (h b) before i after he

-- On a way back to where it held, a property that every step keeps is gained by
-- none of them.
theorem everyStep_of_return {Q : σ → Prop} {P : ι → σ → Prop}
    (hstep : ∀ i s, P i s → Q s → Q (step i s)) {s : σ} {inputs : List ι}
    (hP : EveryStep step P s inputs) (hreturn : Q (run step s inputs) → Q s) :
    EveryStep step (fun i s => Q (step i s) → Q s) s inputs := by
  apply everyStep_iff_prefix.mpr
  rintro before i after rfl hgained
  obtain ⟨hbefore, -, hafter⟩ := everyStep_append.mp hP
  have hkept : ∀ i s, Q s → P i s → Q (step i s) := fun i s hs hi => hstep i s hi hs
  have hend : Q (run step s (before ++ i :: after)) := by
    rw [run_append, run_cons]
    exact run_invariant_of hkept hgained hafter
  exact run_invariant_of hkept (hreturn hend) hbefore

-- Two machines: where every step of the one that meets P is matched by steps of the
-- other, so is a run of such steps.
theorem exists_run {τ κ : Type*} {step' : κ → τ → τ} {R : σ → τ → Prop} {P : ι → σ → Prop}
    (hstep : ∀ i s t, R s t → P i s → ∃ inputs, R (step i s) (run step' t inputs))
    {s : σ} {t : τ} (h : R s t) {inputs : List ι} (hP : EveryStep step P s inputs) :
    ∃ inputs', R (run step s inputs) (run step' t inputs') := by
  induction inputs generalizing s t with
  | nil => exact ⟨[], h⟩
  | cons i rest ih =>
      obtain ⟨first, h'⟩ := hstep i s t h hP.1
      obtain ⟨more, hend⟩ := ih h' hP.2
      refine ⟨first ++ more, ?_⟩
      rwa [run_append]

end Runs

end LiveReceptor

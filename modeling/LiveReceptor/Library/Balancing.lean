import LiveReceptor.Library.Runs
import Mathlib.Order.Lattice

namespace LiveReceptor

-- Servers spread over bins, and a machine that levels the loads of the bins.
-- Only the active bins take new servers.
namespace Balancing

variable {σ ι ρ ω α : Type*} [LinearOrder α] (active : ρ → Prop) (load : σ → ρ → α)
  (serves : σ → ω → ρ → Prop)

-- An active bin that no active bin has less than.
def Least (s : σ) (r : ρ) : Prop := active r ∧ ∀ q, active q → load s r ≤ load s q

-- One round. An active bin that loses servers stays above some active bin. A
-- server is new to a bin only when it served all that was below it before, as
-- far as the round has left that alone.
structure Round (s s' : σ) : Prop where
  inactive : ∀ r, ¬active r → load s' r ≤ load s r
  shrink : ∀ r, active r → load s' r < load s r → ∃ q, active q ∧ load s q < load s' r
  grow : ∀ r, active r → load s r < load s' r → ∃ w, serves s' w r ∧ ¬serves s w r ∧
    ∀ q, active q → load s q < load s r → load s' q = load s q → serves s w q

-- A server is new to a bin only when the bin is a least one, or when the server
-- does not serve all the least ones.
def Fair (s s' : σ) : Prop := ∀ w r, serves s' w r → ¬serves s w r →
  Least active load s r ∨ ∃ q, Least active load s q ∧ ¬serves s w q

variable {active load serves} {s s' : σ} {r : ρ} {b : α}

-- The least load never falls.
theorem Round.le_load (h : Round active load serves s s') (hb : ∀ r, active r → b ≤ load s r) :
    ∀ r, active r → b ≤ load s' r := by
  intro r hr
  by_cases hless : load s' r < load s r
  · obtain ⟨q, hq, hlt⟩ := h.shrink r hr hless
    exact (hb q hq).trans hlt.le
  · exact (hb r hr).trans (not_lt.mp hless)

-- Where it does not rise either, no bin becomes a least one, and those that
-- stay least keep their load.
theorem Round.least (h : Round active load serves s s')
    (hrise : ∀ b, (∀ r, active r → b ≤ load s' r) → ∀ r, active r → b ≤ load s r)
    (hr : Least active load s' r) : Least active load s r ∧ load s' r = load s r := by
  have hfloor : ∀ q, active q → load s' r ≤ load s q := hrise (load s' r) hr.2
  have hle : load s r ≤ load s' r := by
    by_contra hlt
    obtain ⟨q, hq, hless⟩ := h.shrink r hr.1 (not_le.mp hlt)
    exact absurd (hfloor q hq) (not_le.mpr hless)
  exact ⟨⟨hr.1, fun q hq => hle.trans (hfloor q hq)⟩, le_antisymm (hfloor r hr.1) hle⟩

-- Where the least bins stay the least ones, a fair round adds to none.
theorem Round.load_le (h : Round active load serves s s') (hfair : Fair active load serves s s')
    (hleast : ∀ r, Least active load s r → load s' r = load s r) : ∀ r, load s' r ≤ load s r := by
  intro r
  by_cases hr : active r
  · by_contra hlt
    obtain ⟨w, hnew, hold, hbelow⟩ := h.grow r hr (not_le.mp hlt)
    have hnot : ¬Least active load s r := fun hl => hlt (hleast r hl).le
    obtain hl | ⟨q, hq, hserves⟩ := hfair w r hnew hold
    · exact hnot hl
    · refine hserves (hbelow q hq.1 (lt_of_le_of_ne (hq.2 r hr) fun he => hnot ?_) (hleast q hq))
      exact ⟨hr, fun p hp => he ▸ hq.2 p hp⟩
  · exact h.inactive r hr

variable {step : ι → σ → σ} {inputs : List ι}

-- Fair rounds that come back to the loads they started with have moved none.
theorem load_eq_of_return
    (hsteps : Runs.EveryStep step (fun i s => Round active load serves s (step i s) ∧
      Fair active load serves s (step i s)) s inputs)
    (hreturn : ∀ r, load (Runs.run step s inputs) r = load s r) :
    Runs.EveryStep step (fun i s => ∀ r, load (step i s) r = load s r) s inputs := by
  have hrise : Runs.EveryStep step (fun i s => ∀ b, (∀ r, active r → b ≤ load (step i s) r) →
      ∀ r, active r → b ≤ load s r) s inputs :=
    Runs.everyStep_forall.mpr fun b =>
      Runs.everyStep_of_return (fun _ _ h => h.1.le_load) hsteps fun hend r hr =>
        hreturn r ▸ hend r hr
  have hleast : Runs.EveryStep step (fun i s => ∀ r, ¬Least active load (step i s) r →
      ¬Least active load s r) s inputs := by
    refine Runs.everyStep_forall.mpr fun r => ?_
    have hkept : ∀ i s, ((Round active load serves s (step i s) ∧ Fair active load serves s (step i s)) ∧
        ∀ b, (∀ r, active r → b ≤ load (step i s) r) → ∀ r, active r → b ≤ load s r) →
          ¬Least active load s r → ¬Least active load (step i s) r :=
      fun _ _ h hr hr' => hr (h.1.1.least h.2 hr').1
    refine Runs.everyStep_of_return hkept (hsteps.and hrise) fun hend hr => hend ⟨hr.1, fun q hq => ?_⟩
    rw [hreturn, hreturn]
    exact hr.2 q hq
  have hfalls : Runs.EveryStep step (fun i s => ∀ r, load (step i s) r ≤ load s r) s inputs := by
    refine Runs.everyStep_mono (fun i s h => ?_) ((hsteps.and hrise).and hleast)
    obtain ⟨⟨⟨hround, hfair⟩, hrise⟩, hleast⟩ := h
    refine hround.load_le hfair fun r hr => (hround.least hrise ?_).2
    by_contra hr'
    exact hleast r hr' hr
  have hback : Runs.EveryStep step (fun i s => ∀ b r, load (step i s) r ≤ b → load s r ≤ b) s inputs :=
    Runs.everyStep_forall.mpr fun b => Runs.everyStep_forall.mpr fun r =>
      Runs.everyStep_of_return (fun _ _ h => (h r).trans) hfalls fun hend => hreturn r ▸ hend
  exact Runs.everyStep_mono (fun i s h r => le_antisymm (h.1 r) (h.2 _ r le_rfl)) (hfalls.and hback)

end Balancing

end LiveReceptor

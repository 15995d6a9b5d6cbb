import Mathlib.Data.List.Basic

namespace LiveReceptor

-- A machine that runs calls on a stack, the innermost one first.
namespace StackMachine

variable {σ φ : Type*}

def after (step : σ → σ) : Nat → σ → σ
  | 0, s => s
  | n + 1, s => after step n (step s)

variable (step : σ → σ) (stack : σ → List φ) (size : φ → Nat)

-- A step stops the machine, returns from the innermost call or makes that call
-- smaller, perhaps with a new call inside it.
def Progress (s : σ) : Prop :=
  ∀ frame callers, stack s = frame :: callers →
    stack (step s) = [] ∨ stack (step s) = callers ∨
      ∃ smaller, size smaller < size frame ∧
        (stack (step s) = smaller :: callers ∨ ∃ called, stack (step s) = called :: smaller :: callers)

variable {step stack size}

theorem after_add (m n : Nat) (s : σ) : after step (m + n) s = after step n (after step m s) := by
  induction m generalizing s with
  | zero => rw [Nat.zero_add, after]
  | succ m ih => rw [Nat.succ_add, after, after, ih]

theorem after_succ (n : Nat) (s : σ) : after step (n + 1) s = step (after step n s) :=
  after_add n 1 s

theorem after_of_fixed {s : σ} (h : step s = s) (n : Nat) : after step n s = s := by
  induction n with
  | zero => rfl
  | succ n ih => rw [after, h, ih]

-- The induction is on how much deeper the stack may get, and inside on the size
-- of the call: a call that it makes has one level less, and leaves it smaller.
theorem returns (depth : Nat) (s : σ) (frame : φ) (callers : List φ) (hstack : stack s = frame :: callers)
    (hprogress : ∀ n, Progress step stack size (after step n s))
    (hdepth : ∀ n, (stack (after step n s)).length ≤ callers.length + depth) :
    ∃ n, stack (after step n s) = [] ∨ stack (after step n s) = callers := by
  induction depth generalizing s frame callers with
  | zero =>
      have hlength := hdepth 0
      rw [after, hstack, List.length_cons] at hlength
      omega
  | succ depth ihdepth =>
      induction hsize : size frame using Nat.strongRecOn generalizing s frame with
      | _ n ihsize =>
          have hnext : ∀ m n, after step n (after step m s) = after step (m + n) s :=
            fun m n => (after_add m n s).symm
          -- what is known of the run is known of the rest of it
          have hcontinue : ∀ m smaller, stack (after step m s) = smaller :: callers →
              size smaller < n →
              ∃ k, stack (after step k s) = [] ∨ stack (after step k s) = callers := by
            intro m smaller hsmaller hlt
            obtain ⟨k, hk⟩ := ihsize (size smaller) hlt (after step m s) smaller hsmaller
              (fun k => hnext m k ▸ hprogress (m + k)) (fun k => hnext m k ▸ hdepth (m + k)) rfl
            exact ⟨m + k, hnext m k ▸ hk⟩
          rcases hprogress 0 frame callers hstack with hempty | hreturn | ⟨smaller, hlt, hstep⟩
          · exact ⟨1, Or.inl hempty⟩
          · exact ⟨1, Or.inr hreturn⟩
          · rw [hsize] at hlt
            rcases hstep with hloop | ⟨called, hcall⟩
            · exact hcontinue 1 smaller hloop hlt
            · have hdeeper : ∀ k, (stack (after step k (step s))).length ≤
                  (smaller :: callers).length + depth := by
                intro k
                have hlength := hdepth (1 + k)
                rw [← hnext 1 k] at hlength
                rw [List.length_cons]
                have hsame : after step 1 s = step s := rfl
                rw [hsame] at hlength
                omega
              obtain ⟨k, hk⟩ := ihdepth (step s) called (smaller :: callers) hcall
                (fun k => hnext 1 k ▸ hprogress (1 + k)) hdeeper
              have hback : after step k (step s) = after step (1 + k) s := hnext 1 k
              rw [hback] at hk
              rcases hk with hempty | hreturned
              · exact ⟨1 + k, Or.inl hempty⟩
              · exact hcontinue (1 + k) smaller hreturned hlt

-- Calls that shrink and a stack that does not grow without bound: the machine
-- stops.
theorem halts {depth : Nat} {s : σ} (hprogress : ∀ n, Progress step stack size (after step n s))
    (hdepth : ∀ n, (stack (after step n s)).length ≤ depth) : ∃ n, stack (after step n s) = [] := by
  induction hlength : (stack s).length generalizing s with
  | zero => exact ⟨0, List.length_eq_zero_iff.mp hlength⟩
  | succ length ih =>
      obtain ⟨frame, callers, hstack⟩ := List.exists_cons_of_length_eq_add_one hlength
      obtain ⟨n, hempty | hcallers⟩ := returns depth s frame callers hstack hprogress
        (fun n => Nat.le_trans (hdepth n) (Nat.le_add_left _ _))
      · exact ⟨n, hempty⟩
      · have hnext : ∀ k, after step k (after step n s) = after step (n + k) s :=
          fun k => (after_add n k s).symm
        have hshort : (stack (after step n s)).length = length := by
          rw [hcallers]
          rw [hstack, List.length_cons] at hlength
          omega
        obtain ⟨k, hk⟩ := ih (fun k => hnext k ▸ hprogress (n + k)) (fun k => hnext k ▸ hdepth (n + k))
          hshort
        exact ⟨n + k, hnext k ▸ hk⟩

section Converse

variable (hgrow : ∀ s, (stack (step s)).length ≤ (stack s).length + 1)
  (hstopped : ∀ s, stack s = [] → stack (step s) = [])
include hgrow

theorem length_after_le (n : Nat) (s : σ) :
    (stack (after step n s)).length ≤ (stack s).length + n := by
  induction n generalizing s with
  | zero => exact Nat.le_refl _
  | succ n ih =>
      have hrest := ih (step s)
      have hfirst := hgrow s
      rw [after]
      omega

include hstopped

-- A machine that stops has only so deep a stack.
theorem bounded_of_halts {n : Nat} {s : σ} (hhalts : stack (after step n s) = []) (m : Nat) :
    (stack (after step m s)).length ≤ (stack s).length + n := by
  have hempty : ∀ k, stack (after step (n + k) s) = [] := by
    intro k
    induction k with
    | zero => exact hhalts
    | succ k ih =>
        rw [← Nat.add_assoc, after_succ]
        exact hstopped _ ih
  rcases Nat.le_total m n with hle | hle
  · have hlength := length_after_le hgrow m s
    omega
  · rw [← Nat.add_sub_of_le hle, hempty]
    exact Nat.zero_le _

end Converse

end StackMachine

end LiveReceptor

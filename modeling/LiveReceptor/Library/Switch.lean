import Mathlib.Data.List.Basic

namespace LiveReceptor

-- What one party tells another about a switch that the other one holds.
inductive SwitchCommand
  | on
  | off
  deriving DecidableEq, Repr

namespace SwitchCommand

variable {held between wanted : Bool} {commands more : List SwitchCommand}

-- Carrying out the commands takes the switch from one position to the other,
-- and each `on` finds it off.
def Turns : Bool → List SwitchCommand → Bool → Prop
  | held, [], wanted => held = wanted
  | held, .on :: rest, wanted => held = false ∧ Turns true rest wanted
  | _, .off :: rest, wanted => Turns false rest wanted

@[simp] theorem turns_nil : Turns held [] wanted ↔ held = wanted := Iff.rfl

@[simp] theorem turns_on_cons : Turns held (.on :: commands) wanted ↔
    held = false ∧ Turns true commands wanted := Iff.rfl

@[simp] theorem turns_off_cons : Turns held (.off :: commands) wanted ↔
    Turns false commands wanted := Iff.rfl

-- The sender may go on from where its last command leaves the switch.
theorem Turns.append (h : Turns held commands between) (hmore : Turns between more wanted) :
    Turns held (commands ++ more) wanted := by
  induction commands generalizing held with
  | nil =>
      rw [turns_nil.mp h]
      exact hmore
  | cons command rest ih =>
      cases command with
      | on => exact ⟨h.1, ih h.2⟩
      | off =>
          have hrest : Turns false rest between := h
          exact ih hrest

-- The same, and each `off` finds it on.
def Toggles : Bool → List SwitchCommand → Bool → Prop
  | held, [], wanted => held = wanted
  | held, .on :: rest, wanted => held = false ∧ Toggles true rest wanted
  | held, .off :: rest, wanted => held = true ∧ Toggles false rest wanted

@[simp] theorem toggles_nil : Toggles held [] wanted ↔ held = wanted := Iff.rfl

theorem Toggles.append (h : Toggles held commands between) (hmore : Toggles between more wanted) :
    Toggles held (commands ++ more) wanted := by
  induction commands generalizing held with
  | nil =>
      rw [toggles_nil.mp h]
      exact hmore
  | cons command rest ih =>
      cases command with
      | on => exact ⟨h.1, ih h.2⟩
      | off => exact ⟨h.1, ih h.2⟩

theorem Toggles.turns (h : Toggles held commands wanted) : Turns held commands wanted := by
  induction commands generalizing held with
  | nil => exact h
  | cons command rest ih =>
      cases command with
      | on => exact ⟨h.1, ih h.2⟩
      | off => exact ih h.2

-- A switch that is off stays off when nothing turns it on.
theorem turns_false_of_not_mem (h : .on ∉ commands) : Turns false commands false := by
  induction commands with
  | nil => rfl
  | cons command rest ih =>
      rw [List.mem_cons, not_or] at h
      cases command with
      | on => exact absurd rfl h.1
      | off => exact ih h.2

end SwitchCommand

end LiveReceptor

import Mathlib.Data.List.Basic
import Mathlib.Data.List.Infix

namespace LiveReceptor

-- Takes the first complete frame off the front of a stream, when there is one.
-- Whether it is complete must not depend on what comes after it.
structure FrameDecoder (α β : Type*) where
  next : List α → Option (β × List α)
  shrinks : ∀ {data frame rest}, next data = some (frame, rest) → rest.length < data.length
  stable : ∀ {data frame rest} (more : List α), next data = some (frame, rest) →
    next (data ++ more) = some (frame, rest ++ more)

namespace FrameDecoder

variable {α β : Type*} (decoder : FrameDecoder α β)

-- All complete frames at the front, and what is left behind them.
def drain (data : List α) : List β × List α :=
  match h : decoder.next data with
  | none => ([], data)
  | some (frame, rest) =>
      have := decoder.shrinks h
      let tail := drain rest
      (frame :: tail.1, tail.2)
termination_by data.length

variable {decoder}

theorem drain_of_none {data : List α} (h : decoder.next data = none) :
    decoder.drain data = ([], data) := by
  rw [drain]
  split
  · rfl
  · rename_i he
    simp [h] at he

theorem drain_of_some {data rest : List α} {frame : β} (h : decoder.next data = some (frame, rest)) :
    decoder.drain data = (frame :: (decoder.drain rest).1, (decoder.drain rest).2) := by
  rw [drain]
  split
  · rename_i he
    simp [h] at he
  · rename_i frame' rest' he
    obtain ⟨rfl, rfl⟩ : frame = frame' ∧ rest = rest' := by simpa [h] using he
    rfl

@[elab_as_elim]
theorem drain_induction {motive : List α → Prop}
    (none : ∀ data, decoder.next data = none → motive data)
    (some : ∀ data frame rest, decoder.next data = some (frame, rest) → motive rest → motive data)
    (data : List α) : motive data := by
  induction h : data.length using Nat.strong_induction_on generalizing data with
  | _ n ih =>
      subst h
      cases he : decoder.next data with
      | none => exact none data he
      | some pair => exact some data pair.1 pair.2 he (ih _ (decoder.shrinks he) pair.2 rfl)

theorem next_drain (data : List α) : decoder.next (decoder.drain data).2 = none := by
  induction data using decoder.drain_induction with
  | none data h => rw [drain_of_none h]; exact h
  | some data frame rest h ih => rw [drain_of_some h]; exact ih

-- Where the stream is cut does not matter: draining a prefix and then what is
-- left together with the rest is draining the whole.
theorem drain_append (data more : List α) :
    decoder.drain (data ++ more) =
      ((decoder.drain data).1 ++ (decoder.drain ((decoder.drain data).2 ++ more)).1,
        (decoder.drain ((decoder.drain data).2 ++ more)).2) := by
  induction data using decoder.drain_induction with
  | none data h => simp [drain_of_none h]
  | some data frame rest h ih =>
      rw [drain_of_some (decoder.stable more h), drain_of_some h, ih]
      rfl

end FrameDecoder

end LiveReceptor

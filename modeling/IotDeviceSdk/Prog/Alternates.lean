import Mathlib.Data.List.Basic

/-!
# Calls that alternate

`Alternates on off flag calls` says that the calls are `on`, `off`, `on`, and so on, and that `flag`
is whether the last of them is `on`.  `switchCalls` is what moves such a switch from one flag to
another; `Alternates.switch` appends it.
-/

namespace IotDeviceSdk

variable {α : Type}

/-- `on` and `off` alternate, starting with `on`; the flag is whether the last call is `on`. -/
inductive Alternates (on off : α) : Bool → List α → Prop
  | nil : Alternates on off false []
  | on {calls : List α} : Alternates on off false calls → Alternates on off true (calls ++ [on])
  | off {calls : List α} : Alternates on off true calls → Alternates on off false (calls ++ [off])

/-- The calls that move a switch from one flag to another. -/
def switchCalls (on off : α) (before after : Bool) : List α :=
  if after && !before then [on] else if !after && before then [off] else []

theorem switchCalls_self (on off : α) (flag : Bool) : switchCalls on off flag flag = [] := by
  cases flag <;> rfl

theorem Alternates.switch {on off : α} {before : Bool} {calls : List α}
    (h : Alternates on off before calls) (after : Bool) :
    Alternates on off after (calls ++ switchCalls on off before after) := by
  cases before with
  | false =>
    cases after with
    | false =>
      rw [switchCalls_self, List.append_nil]
      exact h
    | true => exact h.on
  | true =>
    cases after with
    | false => exact h.off
    | true =>
      rw [switchCalls_self, List.append_nil]
      exact h

end IotDeviceSdk

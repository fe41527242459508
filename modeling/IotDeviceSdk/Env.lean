import IotDeviceSdk.CJson.Basic
import IotDeviceSdk.Libc.Time
import IotDeviceSdk.Prog.Basic

/-!
# The environment of the SDK

What the SDK's code finds outside itself and does not control: which of its allocations succeed,
what its uninitialised stack frames hold, the JSON text functions, and the file system's answers
about paths.  A run reads the allocation outcomes and the frames one after the other, so the
state of a run is the position in these two streams.
-/

namespace IotDeviceSdk

/-- The outside world during a run. -/
structure Env where
  /-- Whether the `i`-th allocation of the run succeeds. -/
  mallocs : ℕ → Bool
  /-- The indeterminate content of the `i`-th uninitialised `struct tm` of the run. -/
  frames : ℕ → Tm
  /-- `cJSON_Parse`, `none` for `NULL`. -/
  parseJson : String → Option CJson
  /-- `cJSON_Print`, `none` for `NULL`. -/
  printJson : CJson → Option String
  /-- `realpath`, `none` for `NULL`. -/
  realpath : String → Option String
  /-- Whether `fopen` in mode `"wb"` succeeds on a resolved path. -/
  writable : String → Bool

/-- The position of a run in the streams of its environment. -/
structure Cursor where
  malloc : ℕ
  frame : ℕ
  deriving DecidableEq, Inhabited

/-- Code of the SDK. -/
abbrev Sdk (α : Type) : Type := Prog Env Cursor α

/-- No allocation of the run fails. -/
def Env.AllocsSucceed (env : Env) : Prop := ∀ i, env.mallocs i = true

/-- An environment in which no allocation fails, every uninitialised time is zero, there is no JSON
text and no file. -/
def Env.plentiful : Env where
  mallocs := fun _ => true
  frames := fun _ =>
    { tm_year := 0, tm_mon := 0, tm_mday := 0, tm_hour := 0, tm_min := 0, tm_sec := 0 }
  parseJson := fun _ => none
  printJson := fun _ => none
  realpath := fun _ => none
  writable := fun _ => false

theorem Env.plentiful_allocsSucceed : Env.plentiful.AllocsSucceed := fun _ => rfl

/-- Ask for memory: whether the allocation succeeds. -/
def malloc : Sdk Bool := fun env c => some (env.mallocs c.malloc, { c with malloc := c.malloc + 1 })

/-- Ask the outside world. -/
def ask {α : Type} (question : Env → α) : Sdk α := fun env c => some (question env, c)

/-- A local `struct tm` without initialiser. -/
def uninitialisedTm : Sdk Tm := fun env c =>
  some (env.frames c.frame, { c with frame := c.frame + 1 })

open Prog

variable {env : Env}

theorem malloc_returns : Returns env malloc fun b => env.AllocsSucceed → b = true :=
  fun _ => ⟨_, _, rfl, fun h => h _⟩

/-- What is done after an allocation, which fails only where allocations may fail. -/
theorem returns_memory {α : Type} {failed rest : Sdk α} {P : α → Prop}
    (hfailed : ¬env.AllocsSucceed → Returns env failed P) (hrest : Returns env rest P) :
    Returns env (malloc >>= fun allocated => if !allocated then failed else rest) P := by
  apply malloc_returns.bind
  intro allocated hallocated
  cases allocated with
  | false => exact hfailed fun hA => absurd (hallocated hA) (by decide)
  | true => exact hrest

theorem yields_memory {α : Type} {failed rest : Sdk α} {P : α → Prop}
    (hfailed : ¬env.AllocsSucceed → Yields env failed P) (hrest : Yields env rest P) :
    Yields env (malloc >>= fun allocated => if !allocated then failed else rest) P := by
  refine malloc_returns.yields.bind fun allocated hallocated => ?_
  cases allocated with
  | false => exact hfailed fun hA => absurd (hallocated hA) (by decide)
  | true => exact hrest

/-- What is done after an allocation: `P` holds when it fails as well, `Q` when none fails. -/
theorem returns_allocated {α : Type} {failed : α} {rest : Sdk α} {P Q : α → Prop}
    (hfailed : P failed) (hrest : Returns env rest fun r => P r ∧ (env.AllocsSucceed → Q r)) :
    Returns env (malloc >>= fun allocated => if !allocated then pure failed else rest) fun r =>
      P r ∧ (env.AllocsSucceed → Q r) :=
  returns_memory (fun hfails => returns_pure ⟨hfailed, fun hA => absurd hA hfails⟩) hrest

theorem yields_allocated {α : Type} {failed rest : Sdk α} {P : α → Prop}
    (hfailed : Yields env failed P) (hrest : Yields env rest P) :
    Yields env (malloc >>= fun allocated => if !allocated then failed else rest) P :=
  yields_memory (fun _ => hfailed) hrest

theorem ask_returns {α : Type} (question : Env → α) :
    Returns env (ask question) fun answer => answer = question env :=
  fun _ => ⟨_, _, rfl, rfl⟩

theorem uninitialisedTm_returns : Returns env uninitialisedTm fun _ => True :=
  fun _ => ⟨_, _, rfl, trivial⟩

end IotDeviceSdk

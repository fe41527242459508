import IotDeviceSdk.DeviceRule.Equiv.RuleScheduling
import IotDeviceSdk.DeviceRule.TimerLoop
import Mathlib.Data.List.Chain

/-!
# The seconds the timer thread evaluates

The time an iteration asks to sleep ends with the second of its later clock reading
(`TimerIteration.wake_eq`), so the next iteration finds a later second, and the following one when
it is punctual.

* `timerLoop_seconds`: the seconds of a run of the loop are strictly increasing, and punctual
  iterations leave none out.
-/

namespace IotDeviceSdk.DeviceRule

open Prog

variable {env : Env} {wakeMs : ℤ} {iterations : List TimerIteration}

/-! ### One iteration -/

/-- What an iteration computes from its clock readings. -/
structure TimerIteration.Timed (iteration : TimerIteration) (first second : Timeval) : Prop where
  first_eq : iteration.first = first
  second_eq : iteration.second = second
  epochTime_eq : iteration.epochTime = geySysTmeInMs first / 1000
  sleepMs_eq : iteration.sleepMs = 1000 - geySysTmeInMs second % 1000

theorem cInt_mod_thousand (n : ℕ) : cInt (n % 1000) = n % 1000 := by
  have hlow : 0 ≤ (n : ℤ) % 1000 := by omega
  have hhigh : (n : ℤ) % 1000 < 1000 := by omega
  exact cInt_eq (by omega) (by omega)

theorem ruleMgrCheckAndExecuteIteration_timed (first second : Timeval) (tested mgr : RuleMgr) :
    Yields env (ruleMgrCheckAndExecuteIteration first second tested mgr)
      fun iteration => iteration.Timed first second := by
  have hsleep : 1000 - cInt (geySysTmeInMs second % 1000) = 1000 - geySysTmeInMs second % 1000 := by
    rw [cInt_mod_thousand]
  unfold ruleMgrCheckAndExecuteIteration
  dsimp only
  split
  · exact yields_trivial.bind fun runs _ => yields_pure ⟨rfl, rfl, rfl, hsleep⟩
  · exact yields_pure ⟨rfl, rfl, rfl, hsleep⟩

namespace TimerIteration

variable {iteration : TimerIteration} {first second : Timeval}

theorem Timed.sleepMs_mem (h : iteration.Timed first second) :
    1 ≤ iteration.sleepMs ∧ iteration.sleepMs ≤ 1000 := by
  have hsleep := h.sleepMs_eq
  omega

/-- **The sleep ends with the second** of the later clock reading. -/
theorem Timed.wake_eq (h : iteration.Timed first second) :
    geySysTmeInMs second + iteration.sleepMs = ((geySysTmeInMs second : ℤ) / 1000 + 1) * 1000 := by
  have hsleep := h.sleepMs_eq
  omega

/-- The pass ended in the second it evaluated, and the sleep took less than a second longer than it
was asked to. -/
structure Punctual (iteration next : TimerIteration) : Prop where
  pass : geySysTmeInMs iteration.second / 1000 = geySysTmeInMs iteration.first / 1000
  sleep : (geySysTmeInMs next.first : ℤ) < geySysTmeInMs iteration.second + iteration.sleepMs + 1000

end TimerIteration

/-! ### Runs of the loop -/

/-- No iteration evaluates a second before the one the loop wakes up in. -/
theorem TimerLoop.wake_le (h : TimerLoop env wakeMs iterations) :
    ∀ iteration ∈ iterations, wakeMs / 1000 ≤ iteration.epochTime := by
  induction h with
  | nil => simp
  | cons hwake hclock hiteration _ ih =>
    intro x hx
    have htimed := ruleMgrCheckAndExecuteIteration_timed _ _ _ _ _ hiteration
    have hepoch := htimed.epochTime_eq
    rcases List.mem_cons.mp hx with rfl | hx
    · omega
    · have hlater := ih x hx
      rw [htimed.wake_eq] at hlater
      omega

/-- An iteration is followed by one in a later second. -/
theorem TimerLoop.pairwise (h : TimerLoop env wakeMs iterations) :
    iterations.Pairwise fun x y => x.epochTime < y.epochTime := by
  induction h with
  | nil => exact List.Pairwise.nil
  | cons hwake hclock hiteration hrest ih =>
    refine List.pairwise_cons.mpr ⟨fun y hy => ?_, ih⟩
    have htimed := ruleMgrCheckAndExecuteIteration_timed _ _ _ _ _ hiteration
    have hepoch := htimed.epochTime_eq
    have hlater := hrest.wake_le y hy
    rw [htimed.wake_eq] at hlater
    omega

theorem TimerLoop.sleepMs_mem (h : TimerLoop env wakeMs iterations) :
    ∀ iteration ∈ iterations, 1 ≤ iteration.sleepMs ∧ iteration.sleepMs ≤ 1000 := by
  induction h with
  | nil => simp
  | cons _ _ hiteration _ ih =>
    intro x hx
    rcases List.mem_cons.mp hx with rfl | hx
    · exact (ruleMgrCheckAndExecuteIteration_timed _ _ _ _ _ hiteration).sleepMs_mem
    · exact ih x hx

/-- A punctual iteration is followed by one in the next second. -/
theorem TimerLoop.punctual {iteration next : TimerIteration} {rest : List TimerIteration}
    (h : TimerLoop env wakeMs (iteration :: next :: rest)) (hpunctual : iteration.Punctual next) :
    next.epochTime = iteration.epochTime + 1 := by
  cases h with
  | cons _ _ hiteration hrest =>
    cases hrest with
    | cons hwake _ hnext _ =>
      have htimed := ruleMgrCheckAndExecuteIteration_timed _ _ _ _ _ hiteration
      have hthen := ruleMgrCheckAndExecuteIteration_timed _ _ _ _ _ hnext
      have hpass := hpunctual.pass
      have hsleep := hpunctual.sleep
      have hepoch := htimed.epochTime_eq
      have hnextEpoch := hthen.epochTime_eq
      rw [htimed.first_eq, htimed.second_eq] at hpass
      rw [htimed.second_eq, hthen.first_eq, htimed.wake_eq] at hsleep
      rw [htimed.wake_eq] at hwake
      omega

/-- The iterations from one of them on are a run of the loop. -/
theorem TimerLoop.suffix {before : List TimerIteration}
    (h : TimerLoop env wakeMs (before ++ iterations)) :
    ∃ wakeMs', TimerLoop env wakeMs' iterations := by
  induction before generalizing wakeMs with
  | nil => exact ⟨wakeMs, h⟩
  | cons iteration before ih =>
    cases h with
    | cons _ _ _ hrest => exact ih hrest

/-- Numbers that follow each other leave none out. -/
theorem mem_of_isChain_succ {x y t : ℤ} {xs : List ℤ}
    (h : (x :: xs).IsChain fun a b => b = a + 1) (hy : y ∈ x :: xs) (hx : x ≤ t) (hty : t ≤ y) :
    t ∈ x :: xs := by
  induction xs generalizing x with
  | nil =>
    have hyx := List.mem_singleton.mp hy
    exact List.mem_singleton.mpr (by omega)
  | cons z xs ih =>
    obtain ⟨hz, hrest⟩ := List.isChain_cons_cons.mp h
    rcases eq_or_lt_of_le hx with rfl | hlt
    · exact List.mem_cons_self
    · refine List.mem_cons_of_mem _ (ih hrest ?_ (by omega))
      rcases List.mem_cons.mp hy with rfl | hy
      · omega
      · exact hy

/-- Punctual iterations leave no second out. -/
theorem TimerLoop.visits (h : TimerLoop env wakeMs iterations)
    (hpunctual : iterations.IsChain TimerIteration.Punctual) {x y : TimerIteration}
    (hx : x ∈ iterations) (hy : y ∈ iterations) {t : ℤ} (hxt : x.epochTime ≤ t)
    (hty : t ≤ y.epochTime) : ∃ z ∈ iterations, z.epochTime = t := by
  obtain ⟨before, after, rfl⟩ := List.append_of_mem hx
  obtain ⟨wakeMs', hsuffix⟩ := h.suffix
  rcases List.mem_append.mp hy with hbefore | hafter
  · -- `y` comes before `x`, in an earlier second
    have hlt := (List.pairwise_append.mp h.pairwise).2.2 y hbefore x (by simp)
    omega
  · have hsucc : ((x :: after).map TimerIteration.epochTime).IsChain fun a b => b = a + 1 := by
      rw [List.isChain_map, List.isChain_iff_forall_rel_of_append_cons_cons]
      intro a b l₁ l₂ heq
      obtain ⟨wake, hpair⟩ := TimerLoop.suffix (heq ▸ hsuffix)
      have hchain := (List.isChain_append.mp hpunctual).2.1
      exact hpair.punctual (List.isChain_iff_forall_rel_of_append_cons_cons.mp hchain heq)
    have hmem : t ∈ (x :: after).map TimerIteration.epochTime :=
      mem_of_isChain_succ hsucc (List.mem_map_of_mem hafter) hxt hty
    obtain ⟨z, hz, rfl⟩ := List.mem_map.mp hmem
    exact ⟨z, List.mem_append_right _ hz, rfl⟩

/-- The pass of an iteration is the one at its second, unless it found no rules. -/
def TimerIteration.PassesAt (env : Env) (iteration : TimerIteration) : Prop :=
  ∃ tested mgr : RuleMgr, (tested.ruleInfosList = [] → iteration.runs = []) ∧
    (tested.ruleInfosList ≠ [] →
      Outcome env (ruleMgrCheckAndExecute iteration.epochTime mgr) iteration.runs)

theorem ruleMgrCheckAndExecuteIteration_passesAt (first second : Timeval) (tested mgr : RuleMgr) :
    Yields env (ruleMgrCheckAndExecuteIteration first second tested mgr)
      (TimerIteration.PassesAt env) := by
  unfold ruleMgrCheckAndExecuteIteration
  dsimp only
  by_cases hempty : tested.ruleInfosList = []
  · rw [hempty]
    exact yields_pure ⟨tested, mgr, fun _ => rfl, fun hne => absurd hempty hne⟩
  · rw [if_pos (by simpa using hempty)]
    intro iteration hiteration
    obtain ⟨runs, hruns, hpure⟩ := outcome_bind hiteration
    obtain rfl := outcome_pure.mp hpure
    exact ⟨tested, mgr, fun h => absurd h hempty, fun _ => hruns⟩

theorem TimerLoop.passesAt (h : TimerLoop env wakeMs iterations) :
    ∀ iteration ∈ iterations, iteration.PassesAt env := by
  induction h with
  | nil => simp
  | cons _ _ hiteration _ ih =>
    intro x hx
    rcases List.mem_cons.mp hx with rfl | hx
    · exact ruleMgrCheckAndExecuteIteration_passesAt _ _ _ _ _ hiteration
    · exact ih x hx

/-- **The timer loop evaluates no second twice**: its passes are those at its seconds, these are
strictly increasing, it asks to sleep for 1 to 1000 ms, and a punctual iteration is followed by one
in the next second, so iterations that are all punctual leave no second out. -/
theorem timerLoop_seconds (h : TimerLoop env wakeMs iterations) :
    (∀ iteration ∈ iterations, iteration.PassesAt env) ∧
    (iterations.map TimerIteration.epochTime).Pairwise (· < ·) ∧
    (∀ iteration ∈ iterations, 1 ≤ iteration.sleepMs ∧ iteration.sleepMs ≤ 1000) ∧
    (∀ before iteration next after, iterations = before ++ iteration :: next :: after →
      iteration.Punctual next → next.epochTime = iteration.epochTime + 1) ∧
    (iterations.IsChain TimerIteration.Punctual → ∀ x ∈ iterations, ∀ y ∈ iterations,
      ∀ t, x.epochTime ≤ t → t ≤ y.epochTime → ∃ z ∈ iterations, z.epochTime = t) := by
  refine ⟨h.passesAt, List.pairwise_map.mpr h.pairwise, h.sleepMs_mem, ?_, ?_⟩
  · rintro before iteration next after rfl hpunctual
    obtain ⟨wakeMs', hsuffix⟩ := h.suffix
    exact hsuffix.punctual hpunctual
  · intro hpunctual x hx y hy t hxt hty
    exact h.visits hpunctual hx hy hxt hty

/-- A manager with a rule that fires once. -/
def fireOnceMgr : RuleMgr :=
  { ruleInfosList := [bareRule "or" [fireOnce]], files := fun _ => none }

/-- A pass that starts on a second boundary and takes 999 ms is followed by one in the next second.
-/
theorem timerLoop_seconds_boundary :
    ∃ iterations, TimerLoop Env.plentiful 0 iterations ∧
      iterations.map (fun x => (x.epochTime, x.sleepMs)) = [(7, 1), (8, 1000)] ∧
      (iterations.map TimerIteration.epochTime).Pairwise (· < ·) := by
  let first : Sdk TimerIteration :=
    ruleMgrCheckAndExecuteIteration ⟨7, 0⟩ ⟨7, 999999⟩ fireOnceMgr fireOnceMgr
  let second : Sdk TimerIteration :=
    ruleMgrCheckAndExecuteIteration ⟨8, 0⟩ ⟨9, 0⟩ fireOnceMgr fireOnceMgr
  have hfirst : (first Env.plentiful default).map (fun r => (r.1.epochTime, r.1.sleepMs)) =
      some (7, 1) := by
    decide +kernel
  have hsecond : (second Env.plentiful default).map (fun r => (r.1.epochTime, r.1.sleepMs)) =
      some (8, 1000) := by
    decide +kernel
  obtain ⟨⟨x, c⟩, hx, hxtimes⟩ := Option.map_eq_some_iff.mp hfirst
  obtain ⟨⟨y, c'⟩, hy, hytimes⟩ := Option.map_eq_some_iff.mp hsecond
  have hsleep : x.sleepMs = 1 := (Prod.mk.inj hxtimes).2
  have hloop : TimerLoop Env.plentiful 0 [x, y] := by
    refine .cons (by decide) (by decide) ⟨_, _, hx⟩ (.cons ?_ (by decide) ⟨_, _, hy⟩ .nil)
    rw [hsleep]
    decide
  refine ⟨[x, y], hloop, ?_, (timerLoop_seconds hloop).2.1⟩
  rw [List.map_cons, List.map_cons, List.map_nil, hxtimes, hytimes]

end IotDeviceSdk.DeviceRule

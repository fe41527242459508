import Mathlib.Data.Set.Basic
import Mathlib.Data.Int.ModEq
import Mathlib.Data.List.Induction

/-!
# Windows of a periodic clock

Time is cut into periods (days) of a fixed length, and something is allowed in certain windows of
the listed days.

* `windows`: the union of the windows; `mem_windows_iff_overnight` decides it for windows that open
  on the day before.
* `Schedule`: windows that share a few slots, and in each slot the mark of the last run.
  `Schedule.fires_iff` says that the marks make a run happen at most once in each window.
-/

namespace IotDeviceSdk

/-! ### Unions of windows -/

section Windows

variable {L opens closes t : ℤ} {listed : ℤ → Prop}

/-- The instants between `opens` and `closes`, counted from the start of a listed day. -/
def windows (L : ℤ) (listed : ℤ → Prop) (opens closes : ℤ) : Set ℤ :=
  {t | ∃ day, listed day ∧ day * L + opens ≤ t ∧ t ≤ day * L + closes}

/-- Windows that open on the day before and close on the day. -/
theorem mem_windows_iff_overnight (hL : 0 < L) (hopens : 0 ≤ opens) (hopens' : opens < L)
    (hcloses : 0 ≤ closes) (hcloses' : closes < L) :
    t ∈ windows L listed (opens - L) closes ↔
      listed (t / L) ∧ t % L ≤ closes ∨ listed (t / L + 1) ∧ opens ≤ t % L := by
  have hsplit : t / L * L + t % L = t := Int.ediv_mul_add_emod t L
  have hlow : 0 ≤ t % L := Int.emod_nonneg t (by omega)
  have hhigh : t % L < L := Int.emod_lt_of_pos t hL
  constructor
  · rintro ⟨day, hday, hfrom, huntil⟩
    -- the instant lies on the day, or on the day before
    rcases lt_or_ge t (day * L) with hbefore | hon
    · have heq : t / L = day - 1 := by
        rw [Int.ediv_eq_iff_of_pos hL, Int.sub_mul]
        omega
      rw [heq, Int.sub_mul] at hsplit
      refine Or.inr ⟨?_, by omega⟩
      rw [heq, Int.sub_add_cancel]
      exact hday
    · have heq : t / L = day := (Int.ediv_eq_iff_of_pos hL).mpr ⟨hon, by omega⟩
      rw [heq] at hsplit ⊢
      exact Or.inl ⟨hday, by omega⟩
  · rintro (⟨hday, huntil⟩ | ⟨hday, hfrom⟩)
    · exact ⟨t / L, hday, by omega, by omega⟩
    · refine ⟨t / L + 1, hday, ?_, ?_⟩
      · rw [Int.add_mul]
        omega
      · rw [Int.add_mul]
        omega

end Windows

/-! ### Once in each window -/

/-- Windows of a clock: which window an instant lies in, and the slot a window keeps its mark in.
Two instants of one window are closer than `width`, two instants of different windows of one slot
are not. -/
structure Schedule (ω κ : Type) where
  window : ℤ → Option ω
  slot : ω → κ
  width : ℤ
  close : ∀ {e t : ℤ} {a : ω}, window e = some a → window t = some a → t - e < width
  apart : ∀ {e t : ℤ} {a b : ω}, window e = some a → window t = some b → slot a = slot b →
    a ≠ b → e ≤ t → width ≤ t - e

namespace Schedule

variable {ω κ : Type} {S : Schedule ω κ} {es : List ℤ} {t : ℤ}

/-- Marking an instant in the slot of its window. -/
def mark [DecidableEq κ] (S : Schedule ω κ) (last : κ → ℤ) (e : ℤ) : κ → ℤ :=
  match S.window e with
  | some a => Function.update last (S.slot a) e
  | none => last

/-- The instant lies in a window whose slot has not been marked for `width`. -/
def Fires (S : Schedule ω κ) (last : κ → ℤ) (t : ℤ) : Prop :=
  ∃ a, S.window t = some a ∧ S.width ≤ t - last (S.slot a)

/-- The instant keeps its mark in the slot. -/
def InSlot (S : Schedule ω κ) (k : κ) (e : ℤ) : Prop := ∃ a, S.window e = some a ∧ S.slot a = k

/-- A slot holds the last instant marked in it, `0` before there is one. -/
def Marked (S : Schedule ω κ) (es : List ℤ) (last : κ → ℤ) : Prop :=
  ∀ k, (last k = 0 ∧ ∀ e ∈ es, ¬S.InSlot k e) ∨
    (last k ∈ es ∧ S.InSlot k (last k) ∧ ∀ e ∈ es, S.InSlot k e → e ≤ last k)

theorem marked_nil : S.Marked [] fun _ => 0 := fun _ => Or.inl ⟨rfl, by simp⟩

variable [DecidableEq κ]

theorem mark_of_inSlot {last : κ → ℤ} {k : κ} (h : S.InSlot k t) : S.mark last t k = t := by
  obtain ⟨a, ha, rfl⟩ := h
  rw [mark, ha]
  exact Function.update_self ..

theorem mark_of_not_inSlot {last : κ → ℤ} {k : κ} (h : ¬S.InSlot k t) :
    S.mark last t k = last k := by
  rw [mark]
  cases ha : S.window t with
  | none => rfl
  | some a => exact Function.update_of_ne (fun heq => h ⟨a, ha, heq.symm⟩) _ _

/-- One more instant, not earlier than those marked so far. -/
theorem Marked.mark {last : κ → ℤ} (h : S.Marked es last) (hle : ∀ e ∈ es, e ≤ t) :
    S.Marked (es ++ [t]) (S.mark last t) := by
  intro k
  by_cases hslot : S.InSlot k t
  · rw [mark_of_inSlot hslot]
    refine Or.inr ⟨by simp, hslot, fun e he _ => ?_⟩
    rcases List.mem_append.mp he with he | he
    · exact hle e he
    · exact le_of_eq (List.mem_singleton.mp he)
  · have hsame : ∀ e ∈ es ++ [t], S.InSlot k e → e ∈ es := by
      intro e he hin
      rcases List.mem_append.mp he with he | he
      · exact he
      · rw [List.mem_singleton.mp he] at hin
        exact absurd hin hslot
    rw [mark_of_not_inSlot hslot]
    rcases h k with ⟨hzero, hnone⟩ | ⟨hmem, hin, hlast⟩
    · exact Or.inl ⟨hzero, fun e he hin => hnone e (hsame e he hin) hin⟩
    · exact Or.inr ⟨by simp [hmem], hin, fun e he hin => hlast e (hsame e he hin) hin⟩

theorem marked_foldl (hsorted : es.Pairwise (· ≤ ·)) :
    S.Marked es (es.foldl S.mark fun _ => 0) := by
  induction es using List.reverseRecOn with
  | nil => exact marked_nil
  | append_singleton es e ih =>
    obtain ⟨hes, -, hle⟩ := List.pairwise_append.mp hsorted
    rw [List.foldl_append]
    exact (ih hes).mark fun x hx => hle x hx e (by simp)

/-- **Once in each window**: after marking some instants in their order, an instant fires exactly
when it lies in a window none of them lies in. -/
theorem fires_iff (hsorted : es.Pairwise (· ≤ ·)) (hle : ∀ e ∈ es, e ≤ t) (ht : S.width ≤ t) :
    S.Fires (es.foldl S.mark fun _ => 0) t ↔
      ∃ a, S.window t = some a ∧ ∀ e ∈ es, S.window e ≠ some a := by
  have hmarked := marked_foldl (S := S) hsorted
  refine exists_congr fun a => and_congr_right fun ha => ?_
  rcases hmarked (S.slot a) with ⟨hzero, hnone⟩ | ⟨hmem, ⟨b, hb, hslot⟩, hlast⟩
  · rw [hzero]
    refine ⟨fun _ e he hwindow => hnone e he ⟨a, hwindow, rfl⟩, fun _ => by omega⟩
  · constructor
    · -- a mark of this very window would be at least as late as the last one, and close to `t`
      intro hwidth e he hwindow
      have hclose := S.close hwindow ha
      have hearlier := hlast e he ⟨a, hwindow, rfl⟩
      omega
    · intro hnone
      refine S.apart hb ha hslot ?_ (hle _ hmem)
      rintro rfl
      exact hnone _ hmem hb

end Schedule

end IotDeviceSdk

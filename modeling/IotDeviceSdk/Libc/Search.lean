import IotDeviceSdk.Text.Search

/-!
# Searching a C string for a character

A pointer into a text is the text from there on, so `strchr` returns the text from the first
occurrence on, and `strrchr` that from the last one on.
-/

namespace IotDeviceSdk

/-- `'/'`. -/
def slash : UInt8 := 47

/-- `':'`. -/
def colon : UInt8 := 58

/-- `'?'`. -/
def questionMark : UInt8 := 63

/-- `strchr`. -/
def strchr (text : List UInt8) (c : UInt8) : Option (List UInt8) := Text.findFirst [c] text

/-- `strrchr`. -/
def strrchr : List UInt8 → UInt8 → Option (List UInt8)
  | [], _ => none
  | b :: text, c =>
    match strrchr text c with
    | some rest => some rest
    | none => if b = c then some (b :: text) else none

variable {text before after rest : List UInt8} {c : UInt8}

@[simp] theorem colon_ne_slash : colon ≠ slash := by decide

@[simp] theorem slash_ne_colon : slash ≠ colon := by decide

theorem strchr_append (hc : c ∉ before) : strchr (before ++ c :: after) c = some (c :: after) :=
  Text.findFirst_singleton hc

/-- The first occurrence cuts the text. -/
theorem strchr_eq_some_iff :
    strchr text c = some rest ↔
      ∃ before after, text = before ++ c :: after ∧ c ∉ before ∧ rest = c :: after := by
  constructor
  · intro h
    have hinfix : [c] <:+: text := Text.findFirst_isSome.mp (by rw [← strchr, h]; rfl)
    obtain ⟨before, after, rfl, hc⟩ :=
      List.eq_append_cons_of_mem ((List.singleton_infix_iff c text).mp hinfix)
    rw [strchr_append hc, Option.some_inj] at h
    exact ⟨before, after, rfl, hc, h.symm⟩
  · rintro ⟨before, after, rfl, hc, rfl⟩
    exact strchr_append hc

theorem strchr_eq_none_iff : strchr text c = none ↔ c ∉ text := by
  rw [strchr, Text.findFirst_eq_none, List.singleton_infix_iff]

theorem strrchr_of_not_mem (hc : c ∉ text) : strrchr text c = none := by
  induction text with
  | nil => rfl
  | cons b text ih =>
    rw [List.mem_cons, not_or] at hc
    rw [strrchr, ih hc.2, if_neg (Ne.symm hc.1)]

theorem strrchr_append (hc : c ∉ after) : strrchr (before ++ c :: after) c = some (c :: after) := by
  induction before with
  | nil => rw [List.nil_append, strrchr, strrchr_of_not_mem hc, if_pos rfl]
  | cons b before ih => rw [List.cons_append, strrchr, ih]

/-- A text is cut at the last occurrence of a character. -/
theorem eq_append_last_of_mem (hc : c ∈ text) :
    ∃ before after, text = before ++ c :: after ∧ c ∉ after := by
  obtain ⟨after, before, hreverse, hfree⟩ :=
    List.eq_append_cons_of_mem (List.mem_reverse.mpr hc)
  refine ⟨before.reverse, after.reverse, ?_, by rwa [List.mem_reverse]⟩
  rw [← List.reverse_reverse text, hreverse, List.reverse_append, List.reverse_cons,
    List.append_assoc]
  rfl

/-! ### Hosts and ports -/

/-- The part of a URL with the port, if there is one. -/
def portText : Option (List UInt8) → List UInt8
  | none => []
  | some port => colon :: port

/-- A text is cut into a host and a port in one way. -/
theorem portText_inj {host host' : List UInt8} {port port' : Option (List UInt8)}
    (hhost : colon ∉ host) (hhost' : colon ∉ host')
    (h : host ++ portText port = host' ++ portText port') :
    host = host' ∧ port = port' := by
  cases port with
  | none =>
    cases port' with
    | none => exact ⟨by simpa [portText] using h, rfl⟩
    -- a `':'` on one side only
    | some text' =>
      rw [portText, List.append_nil] at h
      exact absurd (h ▸ (by simp [portText] : colon ∈ host' ++ portText (some text'))) hhost
  | some text =>
    cases port' with
    | none =>
      rw [portText, portText, List.append_nil] at h
      exact absurd (h ▸ (by simp : colon ∈ host ++ colon :: text)) hhost'
    | some text' =>
      obtain ⟨rfl, rfl⟩ := Text.append_cons_inj hhost hhost' h
      exact ⟨rfl, rfl⟩

theorem slash_not_mem_portText {port : Option (List UInt8)}
    (hport : ∀ text, port = some text → slash ∉ text) :
    slash ∉ portText port := by
  cases port with
  | none => simp [portText]
  | some text => simpa [portText] using hport text rfl

end IotDeviceSdk

import IotDeviceSdk.CJson.Equiv.PrintBuffer
import IotDeviceSdk.CJson.Render

/-!
# Printing strings

`print_string_ptr` first counts the characters that the escapes need in addition
(`length_escaped`), asks for so much room, and then writes the string.  The text is the string with
its escapes (`quoted`), and it fits what has been asked for.
-/

namespace IotDeviceSdk.Json

open Prog

variable {env : PrintEnv} {f : Frame} {acc : List UInt8} {s : PrintState}

/-! ### Escapes -/

/-- What holds of the bytes one by one. -/
theorem forall_byte {P : UInt8 → Prop} (h : ∀ n < 256, P (UInt8.ofNat n)) (b : UInt8) : P b := by
  have hb := h b.toNat b.toNat_lt
  rwa [UInt8.ofNat_toNat] at hb

/-- The first loop counts what the second one writes. -/
theorem length_escaped (b : UInt8) : (escaped b).length = 1 + escapeCharacters b :=
  forall_byte (P := fun b => (escaped b).length = 1 + escapeCharacters b) (by decide +kernel) b

theorem escaped_of_zero {b : UInt8} (h : escapeCharacters b = 0) : escaped b = [b] :=
  forall_byte (P := fun b => escapeCharacters b = 0 → escaped b = [b]) (by decide +kernel) b h

/-- A string has no zero byte in it when it is printed. -/
theorem zero_not_mem_escaped {b : UInt8} (h : b ≠ 0) : 0 ∉ escaped b :=
  forall_byte (P := fun b => b ≠ 0 → 0 ∉ escaped b) (by decide +kernel) b h

theorem length_flatMap_escaped (input : List UInt8) :
    (input.flatMap escaped).length = input.length + (input.map escapeCharacters).sum := by
  induction input with
  | nil => rfl
  | cons b input ih =>
    rw [List.flatMap_cons, List.length_append, ih, length_escaped, List.length_cons, List.map_cons,
      List.sum_cons]
    omega

theorem flatMap_escaped_of_zero {input : List UInt8} (h : (input.map escapeCharacters).sum = 0) :
    input.flatMap escaped = input := by
  induction input with
  | nil => rfl
  | cons b input ih =>
    rw [List.map_cons, List.sum_cons] at h
    rw [List.flatMap_cons, escaped_of_zero (by omega), ih (by omega)]
    rfl

theorem zero_not_mem_quoted (input : Option TextBlock) : 0 ∉ quoted input := by
  have hbody : 0 ∉ stringBody input := by
    unfold stringBody
    rw [List.mem_flatMap]
    rintro ⟨b, hb, hzero⟩
    cases input with
    | none => cases hb
    | some block =>
      refine zero_not_mem_escaped ?_ hzero
      rintro rfl
      exact zero_not_mem_cString _ hb
  unfold quoted
  rw [List.mem_cons, List.mem_append, List.mem_singleton, not_or, not_or]
  exact ⟨by decide, hbody, by decide⟩

/-! ### The loop -/

/-- Writing behind what has been written of a string. -/
theorem wp_writeBehind {written more bytes : List UInt8} {position : ℕ}
    {Q : Unit → PrintState → Prop} (h : At env f acc (written ++ more) s)
    (hposition : position = acc.length + written.length)
    (hroom : position + bytes.length ≤ s.length)
    (hQ : ∀ s', At env f acc (written ++ bytes) s' → s'.length = s.length → s'.depth = s.depth →
      s'.offset = s.offset → Q () s') : Wp env (write position bytes) Q s := by
  apply wp_write h hposition (by rw [List.length_append]; omega) hroom
  rw [List.take_left]
  exact hQ

/-- **The second loop** writes the string with its escapes, and at most a terminator behind them. -/
theorem wp_printCharacters {input written more : List UInt8} {position : ℕ}
    {Q : Unit → PrintState → Prop} (h : At env f acc (written ++ more) s)
    (hposition : position = acc.length + written.length)
    (hroom : position + (input.flatMap escaped).length < s.length)
    (hQ : ∀ s' more', At env f acc (written ++ (input.flatMap escaped ++ more')) s' →
      s'.length = s.length → s'.depth = s.depth → s'.offset = s.offset → Q () s') :
    Wp env (printCharacters input position) Q s := by
  induction input generalizing s written more position with
  | nil =>
    unfold printCharacters
    rw [wp_pure]
    exact hQ s more h rfl rfl rfl
  | cons b input ih =>
    rw [List.flatMap_cons, List.length_append] at hroom
    unfold printCharacters
    rw [wp_ite]
    -- one byte, in its escaped form, and the rest of the string behind it
    have hnext : ∀ s₁ more₁ position₁, At env f acc (written ++ escaped b ++ more₁) s₁ →
        s₁.length = s.length → s₁.depth = s.depth → s₁.offset = s.offset →
        position₁ = position + (escaped b).length →
        Wp env (printCharacters input position₁) Q s₁ := by
      intro s₁ more₁ position₁ h₁ hlength₁ hdepth₁ hoffset₁ hposition₁
      apply ih h₁
      · rw [List.length_append]
        omega
      · omega
      · intro s' more' h' hlength' hdepth' hoffset'
        apply hQ s' more' _ (hlength'.trans hlength₁) (hdepth'.trans hdepth₁)
          (hoffset'.trans hoffset₁)
        rwa [List.flatMap_cons, List.append_assoc, ← List.append_assoc written]
    constructor
    · intro hplain
      have hescaped : escaped b = [b] := if_pos hplain
      rw [hescaped, List.length_singleton] at hroom hnext
      rw [wp_bind]
      apply wp_writeBehind h hposition (by rw [List.length_singleton]; omega)
      intro s₁ h₁ hlength₁ hdepth₁ hoffset₁
      exact hnext s₁ [] _ (by rwa [List.append_nil]) hlength₁ hdepth₁ hoffset₁ rfl
    · intro hescape
      rw [wp_bind]
      cases hletter : escapeLetter b with
      | some letter =>
        have hescaped : escaped b = [92, letter] := by
          rw [escaped, if_neg hescape, hletter]
        rw [hescaped] at hroom hnext
        simp only [List.length_cons, List.length_nil] at hroom hnext
        apply wp_writeBehind h hposition (by rw [List.length_singleton]; omega)
        intro s₁ h₁ hlength₁ hdepth₁ hoffset₁
        dsimp only
        rw [wp_bind]
        apply wp_writeBehind (show At env f acc (written ++ [92] ++ []) s₁ by rwa [List.append_nil])
        · rw [List.length_append, List.length_singleton]
          omega
        · rw [List.length_singleton]
          omega
        · intro s₂ h₂ hlength₂ hdepth₂ hoffset₂
          apply hnext s₂ [] _ _ (hlength₂.trans hlength₁) (hdepth₂.trans hdepth₁)
            (hoffset₂.trans hoffset₁) rfl
          simpa only [List.append_assoc, List.cons_append, List.nil_append] using h₂
      | none =>
        have hescaped : escaped b = 92 :: 117 :: hexWord b := by
          rw [escaped, if_neg hescape, hletter]
        have hlength : (hexWord b).length = 4 := rfl
        rw [hescaped] at hroom hnext
        simp only [List.length_cons, hlength] at hroom hnext
        apply wp_writeBehind h hposition (by rw [List.length_singleton]; omega)
        intro s₁ h₁ hlength₁ hdepth₁ hoffset₁
        dsimp only
        rw [wp_bind]
        apply wp_writeBehind (show At env f acc (written ++ [92] ++ []) s₁ by rwa [List.append_nil])
        · rw [List.length_append, List.length_singleton]
          omega
        · simp only [List.length_append, List.length_cons, hlength, List.length_nil]
          omega
        · intro s₂ h₂ hlength₂ hdepth₂ hoffset₂
          apply hnext s₂ [0] _ _ (hlength₂.trans hlength₁) (hdepth₂.trans hdepth₁)
            (hoffset₂.trans hoffset₁) rfl
          simpa only [List.append_assoc, List.cons_append, List.nil_append] using h₂

/-! ### Strings -/

/-- What a print of a value leaves: the text behind the offset it started at, of which a part may be
in front of the offset it ends at, or a reason why it cannot be printed. -/
structure Printed (env : PrintEnv) (f : Frame) (acc : List UInt8) (t : Option (List UInt8))
    (s : PrintState) (r : Bool) (s' : PrintState) : Prop where
  printed : r = true → ∃ done pending, t = some (done ++ pending) ∧
    At env f (acc ++ done) (pending ++ [0]) s' ∧ s'.depth = s.depth ∧
    acc.length + (done ++ pending).length + 2 ≤ s'.length
  failed : r = false → f.Holds env s' ∧
    ∀ text, t = some text → Refused env f (acc.length + text.length + 2)

theorem printed_failed {t : Option (List UInt8)} {s' : PrintState} (hframe : f.Holds env s')
    {size : ℕ} (hrefused : Refused env f size)
    (hsize : ∀ text, t = some text → size ≤ acc.length + text.length + 2) :
    Printed env f acc t s false s' :=
  ⟨fun h => absurd h Bool.false_ne_true, fun _ =>
    ⟨hframe, fun text ht => hrefused.mono (hsize text ht)⟩⟩

theorem printed_text {text : List UInt8} {s' : PrintState} (h : At env f acc (text ++ [0]) s')
    (hdepth : s'.depth = s.depth) (hroom : acc.length + text.length + 2 ≤ s'.length) :
    Printed env f acc (some text) s true s' :=
  ⟨fun _ => ⟨[], text, rfl, by rwa [List.append_nil], hdepth, hroom⟩,
    fun h => absurd h.symm Bool.false_ne_true⟩

/-- The closing quote and the terminator behind the characters, however these have been written. -/
theorem wp_closeString {written more : List UInt8} {position next : ℕ} {s₀ : PrintState}
    (h : At env f acc (written ++ more) s) (hposition : position = acc.length + written.length)
    (hnext : next = position + 1) (hroom : acc.length + written.length + 3 ≤ s.length)
    (hdepth : s.depth = s₀.depth) :
    Wp env (do
      write position [34]
      write next [0]
      return true) (Printed env f acc (some (written ++ [34])) s₀) s := by
  rw [wp_bind]
  apply wp_writeBehind h hposition (by rw [List.length_singleton]; omega)
  intro s₁ h₁ hlength₁ hdepth₁ _
  rw [wp_bind]
  apply wp_writeBehind (show At env f acc (written ++ [34] ++ []) s₁ by rwa [List.append_nil])
  · rw [List.length_append, List.length_singleton]
    omega
  · rw [List.length_singleton]
    omega
  · intro s₂ h₂ hlength₂ hdepth₂ _
    rw [wp_pure]
    apply printed_text h₂ (hdepth₂.trans (hdepth₁.trans hdepth))
    rw [List.length_append, List.length_singleton]
    omega

/-- **`print_string_ptr`** prints the string with its escapes and its quotes. -/
theorem printStringPtr_spec {tail : List UInt8} (input : Option TextBlock)
    (h : At env f acc tail s) :
    Wp env (printStringPtr input) (Printed env f acc (some (quoted input)) s) s := by
  have hlength : (quoted input).length = (stringBody input).length + 2 := by
    unfold quoted
    rw [List.length_cons, List.length_append, List.length_singleton]
  unfold printStringPtr
  cases input with
  | none =>
    -- without a string two quotes are printed
    dsimp only
    rw [wp_bind]
    apply wp_ensure h
    · intro s₁ h₁ hroom₁ hdepth₁
      rw [wp_ite]
      refine ⟨fun hno => absurd hno Bool.false_ne_true, fun _ => ?_⟩
      rw [wp_bind, wp_get, wp_bind]
      apply wp_write_offset h₁ (by simp only [List.length_cons, List.length_nil]; omega)
      intro s₂ h₂ hlength₂ hdepth₂
      rw [wp_pure]
      exact printed_text h₂ (hdepth₂.trans hdepth₁) (by rw [hlength, hlength₂]; exact hroom₁)
    · intro s' hframe hrefused
      rw [wp_ite]
      refine ⟨fun _ => ?_, fun hno => absurd rfl hno⟩
      rw [wp_pure]
      apply printed_failed hframe hrefused
      intro text htext
      obtain rfl := Option.some.inj htext
      rw [hlength]
      omega
  | some block =>
    have hbody : stringBody (some block) = (cString block.bytes).flatMap escaped := rfl
    have hcount := length_flatMap_escaped (cString block.bytes)
    rw [hbody] at hlength
    dsimp only
    rw [wp_bind]
    apply wp_ensure h
    · intro s₁ h₁ hroom₁ hdepth₁
      have hoffset₁ := h₁.offset
      rw [wp_ite]
      refine ⟨fun hno => absurd hno Bool.false_ne_true, fun _ => ?_⟩
      rw [wp_bind, wp_get, wp_bind]
      apply wp_write_offset h₁ (by rw [List.length_singleton]; omega)
      intro s₂ h₂ hlength₂ hdepth₂
      -- both ways to write the body go on with the closing quote
      have hend : ∀ s₃ more,
          At env f acc ([34] ++ ((cString block.bytes).flatMap escaped ++ more)) s₃ →
          s₃.length = s₂.length → s₃.depth = s₂.depth →
          Wp env (do
            write (s₁.offset + ((cString block.bytes).length +
              ((cString block.bytes).map escapeCharacters).sum) + 1) [34]
            write (s₁.offset + ((cString block.bytes).length +
              ((cString block.bytes).map escapeCharacters).sum) + 2) [0]
            return true) (Printed env f acc (some (quoted (some block))) s) s₃ := by
        intro s₃ more h₃ hlength₃ hdepth₃
        rw [← List.append_assoc] at h₃
        apply wp_closeString h₃
        · rw [List.length_append, List.length_singleton]
          omega
        · rfl
        · rw [List.length_append, List.length_singleton]
          omega
        · exact hdepth₃.trans (hdepth₂.trans hdepth₁)
      rw [wp_ite]
      constructor
      · -- no byte is escaped: the body is copied whole
        intro hzero
        have hplain := flatMap_escaped_of_zero hzero
        rw [wp_bind]
        apply wp_writeBehind (show At env f acc ([34] ++ []) s₂ by rwa [List.append_nil])
        · rw [List.length_singleton, hoffset₁]
        · omega
        · intro s₃ h₃ hlength₃ hdepth₃ _
          apply hend s₃ [] _ hlength₃ hdepth₃
          rwa [List.append_nil, hplain]
      · intro _
        rw [wp_bind]
        apply wp_printCharacters (show At env f acc ([34] ++ []) s₂ by rwa [List.append_nil])
        · rw [List.length_singleton, hoffset₁]
        · omega
        · intro s₃ more h₃ hlength₃ hdepth₃ _
          exact hend s₃ more h₃ hlength₃ hdepth₃
    · intro s' hframe hrefused
      rw [wp_ite]
      refine ⟨fun _ => ?_, fun hno => absurd rfl hno⟩
      rw [wp_pure]
      apply printed_failed hframe hrefused
      intro text htext
      obtain rfl := Option.some.inj htext
      rw [hlength]
      omega

end IotDeviceSdk.Json

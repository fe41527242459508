import IotDeviceSdk.CJson.Equiv.PrintNumber
import IotDeviceSdk.CJson.Equiv.PrintString

/-!
# What the printer prints

`printValue_spec`: for every tree of items `print_value` is defined, prints the text of the item
behind what stands in front of the offset, and refuses only a text that is not there or does not
fit.  The loops over the elements of an array and the members of an object are `LoopPrinted`.
-/

namespace IotDeviceSdk.Json

open Prog

/-! ### Items -/

namespace Item

mutual

/-- The numbers of the item and of those a print finds in it are an `int` and a `double`. -/
def Typed : Item → Prop
  | ⟨_, type, _, _, _, valueint, valuedouble, _, child⟩ =>
    (type = .number → INT_MIN ≤ valueint ∧ valueint ≤ INT_MAX ∧ IsDouble valuedouble) ∧
      (type = .array ∨ type = .object → ListTyped child)
termination_by structural item => item

def ListTyped : List Item → Prop
  | [] => True
  | item :: next => Typed item ∧ ListTyped next
termination_by structural items => items

end

end Item

variable {env : PrintEnv} {f : Frame} {acc tail : List UInt8} {s : PrintState}

/-! ### Scalars -/

/-- **A number always fits** the buffer it is printed into first. -/
theorem numberBuffer_some {valueint : ℤ} {d : ℚ} (hlow : INT_MIN ≤ valueint)
    (hhigh : valueint ≤ INT_MAX) (hd : IsDouble d) :
    ∃ text, numberBuffer valueint d = some text ∧ text.length ≤ 25 ∧ 0 ∉ text := by
  cases hinf : isInf d with
  | true =>
    refine ⟨ascii "null", ?_, by decide, by decide⟩
    rw [numberBuffer, if_pos hinf]
    exact sprintfNumber_of_length (by decide)
  | false =>
    obtain ⟨n, hn, hlength, hbuffer, -⟩ := numberBuffer_spec hlow hhigh hd hinf
    refine ⟨_, hbuffer, by rwa [length_bytesOfChars], ?_⟩
    intro hzero
    obtain ⟨c, hc, hbyte⟩ := List.mem_map.mp hzero
    have hnumber := (isNumberChar_of_mem hn.blank c hc).isNumberByte
    rw [hbyte] at hnumber
    exact absurd hnumber (by decide)

theorem printNumber_spec {valueint : ℤ} {d : ℚ} (hlow : INT_MIN ≤ valueint)
    (hhigh : valueint ≤ INT_MAX) (hd : IsDouble d) (h : At env f acc tail s) :
    Wp env (printNumber valueint d) (Printed env f acc (numberBuffer valueint d) s) s := by
  obtain ⟨text, hbuffer, hlength, -⟩ := numberBuffer_some hlow hhigh hd
  unfold printNumber
  rw [wp_bind, wp_ofOption]
  refine ⟨text, hbuffer, ?_⟩
  rw [wp_ite]
  refine ⟨fun hlong => by omega, fun _ => ?_⟩
  rw [wp_bind]
  apply wp_ensure h
  · intro s₁ h₁ hroom₁ hdepth₁
    rw [wp_ite]
    refine ⟨fun hno => absurd hno Bool.false_ne_true, fun _ => ?_⟩
    rw [wp_bind, wp_get, wp_bind]
    apply wp_write_offset h₁
    · rw [List.length_append, List.length_singleton]
      omega
    · intro s₂ h₂ hlength₂ hdepth₂
      rw [wp_bind]
      apply wp_moveOffset h₂ (by omega)
      intro s₃ h₃ hlength₃ hdepth₃
      rw [wp_pure]
      have hdepth : s₃.depth = s.depth := by rw [hdepth₃, hdepth₂, hdepth₁]
      refine ⟨fun _ => ⟨text, [], ?_, h₃, hdepth, ?_⟩, fun hno => absurd hno.symm Bool.false_ne_true⟩
      · rw [List.append_nil]
        exact hbuffer
      · rw [List.append_nil]
        omega
  · intro s' hframe hrefused
    rw [wp_ite]
    refine ⟨fun _ => ?_, fun hno => absurd rfl hno⟩
    rw [wp_pure]
    apply printed_failed hframe hrefused
    intro text' htext'
    obtain rfl := Option.some.inj (hbuffer.symm.trans htext')
    omega

theorem printText_spec {needed : ℕ} {text : List UInt8} (hneeded : needed = text.length + 1)
    (h : At env f acc tail s) :
    Wp env (printText needed text) (Printed env f acc (some text) s) s := by
  subst hneeded
  unfold printText
  rw [wp_bind]
  apply wp_ensure h
  · intro s₁ h₁ hroom₁ hdepth₁
    rw [wp_ite]
    refine ⟨fun hno => absurd hno Bool.false_ne_true, fun _ => ?_⟩
    rw [wp_bind, wp_get, wp_bind]
    apply wp_write_offset h₁
    · rw [List.length_append, List.length_singleton]
      omega
    · intro s₂ h₂ hlength₂ hdepth₂
      rw [wp_pure]
      exact printed_text h₂ (hdepth₂.trans hdepth₁) (by omega)
  · intro s' hframe hrefused
    rw [wp_ite]
    refine ⟨fun _ => ?_, fun hno => absurd rfl hno⟩
    rw [wp_pure]
    apply printed_failed hframe hrefused
    intro text' htext'
    obtain rfl := Option.some.inj htext'
    omega

/-! ### Steps of the loops -/

/-- What a loop over the items of an array or an object leaves: their text in front of the offset,
or a reason why it cannot be printed with the closing bracket behind it. -/
structure LoopPrinted (env : PrintEnv) (f : Frame) (acc : List UInt8) (t : Option (List UInt8))
    (s : PrintState) (r : Bool) (s' : PrintState) : Prop where
  printed : r = true → ∃ text, t = some text ∧ At env f (acc ++ text) [] s' ∧ s'.depth = s.depth
  failed : r = false → f.Holds env s' ∧
    ∀ text, t = some text → Refused env f (acc.length + text.length + 3)

theorem loopPrinted_text {text : List UInt8} {s' : PrintState} (h : At env f (acc ++ text) [] s')
    (hdepth : s'.depth = s.depth) : LoopPrinted env f acc (some text) s true s' :=
  ⟨fun _ => ⟨text, rfl, h, hdepth⟩, fun hno => absurd hno.symm Bool.false_ne_true⟩

theorem loopPrinted_failed {t : Option (List UInt8)} {s' : PrintState} (hframe : f.Holds env s')
    {size : ℕ} (hrefused : Refused env f size)
    (hsize : ∀ text, t = some text → size ≤ acc.length + text.length + 3) :
    LoopPrinted env f acc t s false s' :=
  ⟨fun h => absurd h Bool.false_ne_true, fun _ =>
    ⟨hframe, fun text ht => hrefused.mono (hsize text ht)⟩⟩

/-- Room for a text, the text with or without a terminator, and the step over it. -/
theorem append_spec {needed : ℕ} {text terminator : List UInt8} (h : At env f acc [] s)
    (hneeded : text.length + terminator.length ≤ needed) (hle : needed ≤ text.length + 1) :
    Wp env (do
      if !(← ensure needed) then return false
      else
        write (← get).offset (text ++ terminator)
        moveOffset text.length
        return true) (LoopPrinted env f acc (some text) s) s := by
  rw [wp_bind]
  apply wp_ensure h
  · intro s₁ h₁ hroom₁ hdepth₁
    rw [wp_ite]
    refine ⟨fun hno => absurd hno Bool.false_ne_true, fun _ => ?_⟩
    rw [wp_bind, wp_get, wp_bind]
    apply wp_write_offset h₁
    · rw [List.length_append]
      omega
    · intro s₂ h₂ hlength₂ hdepth₂
      rw [wp_bind]
      apply wp_moveOffset h₂ (by omega)
      intro s₃ h₃ hlength₃ hdepth₃
      rw [wp_pure]
      exact loopPrinted_text h₃.weaken (by rw [hdepth₃, hdepth₂, hdepth₁])
  · intro s' hframe hrefused
    rw [wp_ite]
    refine ⟨fun _ => ?_, fun hno => absurd rfl hno⟩
    rw [wp_pure]
    apply loopPrinted_failed hframe hrefused
    intro text' htext'
    obtain rfl := Option.some.inj htext'
    omega

theorem printComma_spec (more : Bool) (h : At env f acc [] s) :
    Wp env (printComma more) (LoopPrinted env f acc (some (comma env.format more)) s) s := by
  unfold printComma comma
  rw [wp_ite]
  constructor
  · rintro rfl
    rw [if_pos rfl, wp_bind, wp_read]
    exact append_spec h (by rw [List.length_singleton]) le_rfl
  · intro hmore
    rw [if_neg hmore, wp_pure]
    exact loopPrinted_text (by rwa [List.append_nil]) rfl

theorem printMemberEnd_spec (more : Bool) (h : At env f acc [] s) :
    Wp env (printMemberEnd more) (LoopPrinted env f acc (some (memberEnd env.format more)) s) s := by
  unfold printMemberEnd memberEnd
  rw [wp_bind, wp_read]
  exact append_spec h (by rw [List.length_singleton]) le_rfl

theorem printTabs_spec (h : At env f acc [] s) :
    Wp env printTabs (LoopPrinted env f acc (some (tabs env.format s.depth)) s) s := by
  unfold printTabs tabs
  rw [wp_bind, wp_read, wp_ite]
  constructor
  · intro hformat
    have happend := @append_spec env f acc s s.depth (List.replicate s.depth 9) [] h
      (by rw [List.length_replicate, List.length_nil, Nat.add_zero])
      (by rw [List.length_replicate]; omega)
    rw [List.append_nil, List.length_replicate] at happend
    rw [if_pos hformat, wp_bind, wp_get]
    exact happend
  · intro hformat
    rw [if_neg hformat, wp_pure]
    exact loopPrinted_text (by rwa [List.replicate_zero, List.append_nil]) rfl

theorem printColon_spec (h : At env f acc [] s) :
    Wp env printColon (LoopPrinted env f acc (some (colon env.format)) s) s := by
  unfold printColon colon
  rw [wp_bind, wp_read]
  have happend := @append_spec env f acc s _ (if env.format = true then [58, 9] else [58]) [] h
    le_rfl (Nat.le_succ _)
  rw [List.append_nil] at happend
  exact happend

/-- Two steps of a loop. -/
theorem LoopPrinted.then {text : List UInt8} {t : Option (List UInt8)} {p q : Print Bool}
    (hp : Wp env p (LoopPrinted env f acc (some text) s) s)
    (hq : ∀ s', At env f (acc ++ text) [] s' → s'.depth = s.depth →
      Wp env q (LoopPrinted env f (acc ++ text) t s') s') :
    Wp env (do if !(← p) then return false else q)
      (LoopPrinted env f acc (t.map fun rest => text ++ rest) s) s := by
  rw [wp_bind]
  apply hp.mono
  intro r s₁ hr
  rw [wp_ite]
  constructor
  · intro hno
    obtain rfl : r = false := by simpa using hno
    obtain ⟨hframe, hrefused⟩ := hr.failed rfl
    rw [wp_pure]
    apply loopPrinted_failed hframe (hrefused text rfl)
    intro whole hwhole
    obtain ⟨rest, -, rfl⟩ := Option.map_eq_some_iff.mp hwhole
    rw [List.length_append]
    omega
  · intro hyes
    obtain rfl : r = true := by simpa using hyes
    obtain ⟨text', htext, hat, hdepth⟩ := hr.printed rfl
    obtain rfl := Option.some.inj htext
    apply (hq s₁ hat hdepth).mono
    intro r' s' hr'
    constructor
    · intro hyes'
      obtain ⟨rest, rfl, hat', hdepth'⟩ := hr'.printed hyes'
      refine ⟨text ++ rest, rfl, ?_, hdepth'.trans hdepth⟩
      rwa [← List.append_assoc]
    · intro hno'
      obtain ⟨hframe, hrefused⟩ := hr'.failed hno'
      refine ⟨hframe, fun whole hwhole => ?_⟩
      obtain ⟨rest, hrest, rfl⟩ := Option.map_eq_some_iff.mp hwhole
      apply (hrefused rest hrest).mono
      rw [List.length_append, List.length_append]
      omega

/-- A value and the step over it, in front of further steps. -/
theorem Printed.then {t u : Option (List UInt8)} {p q : Print Bool}
    (hp : Wp env p (Printed env f acc t s) s) (hzero : ∀ text, t = some text → 0 ∉ text)
    (hq : ∀ text s', t = some text → At env f (acc ++ text) [] s' → s'.depth = s.depth →
      Wp env q (LoopPrinted env f (acc ++ text) u s') s') :
    Wp env (do if !(← p) then return false else do updateOffset; q)
      (LoopPrinted env f acc (t.bind fun text => u.map fun rest => text ++ rest) s) s := by
  rw [wp_bind]
  apply hp.mono
  intro r s₁ hr
  rw [wp_ite]
  constructor
  · intro hno
    obtain rfl : r = false := by simpa using hno
    -- the value was refused, so the whole text is too
    obtain ⟨hframe, hrefused⟩ := hr.failed rfl
    rw [wp_pure]
    refine ⟨fun hno' => absurd hno' Bool.false_ne_true, fun _ => ⟨hframe, fun whole hwhole => ?_⟩⟩
    obtain ⟨text, htext, hwhole⟩ := Option.bind_eq_some_iff.mp hwhole
    obtain ⟨rest, -, rfl⟩ := Option.map_eq_some_iff.mp hwhole
    apply (hrefused text htext).mono
    rw [List.length_append]
    omega
  · intro hyes
    obtain rfl : r = true := by simpa using hyes
    obtain ⟨done, pending, htext, hat, hdepth, hroom⟩ := hr.printed rfl
    -- update_offset stops at the first zero byte, which is the terminator
    have hnot : 0 ∉ pending := fun hmem => hzero _ htext (List.mem_append_right _ hmem)
    rw [List.length_append] at hroom
    rw [wp_bind]
    apply wp_updateOffset hat hnot
    · rw [List.length_append]
      omega
    · intro s₂ hat₂ hlength₂ hdepth₂
      rw [List.append_assoc] at hat₂
      apply (hq _ s₂ htext hat₂.weaken (hdepth₂.trans hdepth)).mono
      intro r' s' hr'
      constructor
      · intro hyes'
        obtain ⟨rest, rfl, hat', hdepth'⟩ := hr'.printed hyes'
        refine ⟨done ++ pending ++ rest, by rw [htext]; rfl, ?_, ?_⟩
        · rwa [← List.append_assoc]
        · rw [hdepth', hdepth₂, hdepth]
      · intro hno'
        obtain ⟨hframe, hrefused⟩ := hr'.failed hno'
        refine ⟨hframe, fun whole hwhole => ?_⟩
        rw [htext, Option.bind_some] at hwhole
        obtain ⟨rest, hrest, rfl⟩ := Option.map_eq_some_iff.mp hwhole
        apply (hrefused rest hrest).mono
        simp only [List.length_append]
        omega

theorem printKey_spec (string : Option TextBlock) (h : At env f acc [] s) :
    Wp env (printKey string)
      (LoopPrinted env f acc (some (keyText env.format s.depth string)) s) s := by
  unfold printKey
  apply LoopPrinted.then (t := some (quoted string ++ colon env.format)) (printTabs_spec h)
  intro s₁ h₁ hdepth₁
  apply Printed.then (t := some (quoted string)) (u := some (colon env.format))
    (printStringPtr_spec string h₁)
  · intro text htext
    obtain rfl := Option.some.inj htext
    exact zero_not_mem_quoted string
  · intro text s₂ htext h₂ hdepth₂
    exact printColon_spec h₂

/-! ### Arrays and objects -/

theorem At.withDepth (h : At env f acc tail s) (depth : ℕ) :
    At env f acc tail { s with depth := depth } :=
  ⟨h.block, h.offset, h.inside, h.limit, h.frame⟩

/-- The closing bracket with what stands in front of it. -/
theorem close_spec {needed : ℕ} {text : List UInt8} (hneeded : needed = text.length + 1)
    (h : At env f acc [] s) :
    Wp env (do
      if !(← ensure needed) then return false
      else
        write (← get).offset (text ++ [0])
        flatten
        return true) (Printed env f acc (some text) { s with depth := s.depth - 1 }) s := by
  rw [wp_bind]
  apply wp_ensure h
  · intro s₁ h₁ hroom₁ hdepth₁
    rw [wp_ite]
    refine ⟨fun hno => absurd hno Bool.false_ne_true, fun _ => ?_⟩
    rw [wp_bind, wp_get, wp_bind]
    apply wp_write_offset h₁
    · rw [List.length_append, List.length_singleton]
      omega
    · intro s₂ h₂ hlength₂ hdepth₂
      unfold flatten
      rw [wp_bind, wp_modify, wp_pure]
      apply printed_text (h₂.withDepth _)
      · show s₂.depth - 1 = s.depth - 1
        omega
      · show acc.length + text.length + 2 ≤ s₂.length
        omega
  · intro s' hframe hrefused
    rw [wp_ite]
    refine ⟨fun _ => ?_, fun hno => absurd rfl hno⟩
    rw [wp_pure]
    apply printed_failed hframe hrefused
    intro text' htext'
    obtain rfl := Option.some.inj htext'
    omega

/-- What stands between brackets, and the closing bracket. -/
theorem brackets_spec {opening closing : List UInt8} {t : Option (List UInt8)}
    {loop close : Print Bool} {s₁ : PrintState} (hclosing : closing ≠ [])
    (hdepth : s₁.depth = s.depth + 1)
    (hloop : Wp env loop (LoopPrinted env f (acc ++ opening) t s₁) s₁)
    (hclose : ∀ text s', At env f (acc ++ opening ++ text) [] s' → s'.depth = s₁.depth →
      Wp env close (Printed env f (acc ++ opening ++ text) (some closing)
        { s' with depth := s'.depth - 1 }) s') :
    Wp env (do if !(← loop) then return false else close)
      (Printed env f acc (t.map fun text => opening ++ (text ++ closing)) s) s₁ := by
  have hpos := List.length_pos_iff.mpr hclosing
  rw [wp_bind]
  apply hloop.mono
  intro r s₂ hr
  rw [wp_ite]
  constructor
  · intro hno
    obtain rfl : r = false := by simpa using hno
    -- a loop that fails was refused its own text already
    obtain ⟨hframe, hrefused⟩ := hr.failed rfl
    rw [wp_pure]
    refine ⟨fun hno' => absurd hno' Bool.false_ne_true, fun _ => ⟨hframe, fun whole hwhole => ?_⟩⟩
    obtain ⟨text, htext, rfl⟩ := Option.map_eq_some_iff.mp hwhole
    apply (hrefused text htext).mono
    simp only [List.length_append]
    omega
  · intro hyes
    obtain rfl : r = true := by simpa using hyes
    obtain ⟨text, rfl, h₂, hdepth₂⟩ := hr.printed rfl
    -- the closing bracket is printed behind the text of the loop
    apply (hclose text s₂ h₂ hdepth₂).mono
    intro r' s' hr'
    constructor
    · intro hyes'
      obtain ⟨done, pending, hsplit, h', hdepth', hroom'⟩ := hr'.printed hyes'
      obtain rfl := Option.some.inj hsplit
      refine ⟨opening ++ (text ++ done), pending, ?_, ?_, ?_, ?_⟩
      · simp only [Option.map_some, List.append_assoc]
      · simp only [List.append_assoc] at h' ⊢
        exact h'
      · rw [hdepth']
        show s₂.depth - 1 = s.depth
        omega
      · simp only [List.length_append] at hroom' ⊢
        omega
    · intro hno'
      obtain ⟨hframe, hrefused⟩ := hr'.failed hno'
      refine ⟨hframe, fun whole hwhole => ?_⟩
      obtain rfl := Option.some.inj hwhole
      apply (hrefused closing rfl).mono
      simp only [List.length_append]
      omega

/-- No room for the opening bracket is no room for the text. -/
theorem opening_failed {opening closing : List UInt8} {t : Option (List UInt8)} {needed : ℕ}
    {s' : PrintState} (hneeded : needed ≤ opening.length + closing.length) (hframe : f.Holds env s')
    (hrefused : Refused env f (acc.length + needed + 1)) :
    Printed env f acc (t.map fun text => opening ++ (text ++ closing)) s false s' := by
  apply printed_failed hframe hrefused
  intro whole hwhole
  obtain ⟨text, -, rfl⟩ := Option.map_eq_some_iff.mp hwhole
  simp only [List.length_append]
  omega

/-- **`print_array`**, from what its loop prints. -/
theorem printArray_spec {t : Option (List UInt8)} {loop : Print Bool}
    (hloop : ∀ s', At env f (acc ++ [91]) [] s' → s'.depth = s.depth + 1 →
      Wp env loop (LoopPrinted env f (acc ++ [91]) t s') s')
    (h : At env f acc tail s) :
    Wp env (printArray loop) (Printed env f acc (t.map fun text => [91] ++ (text ++ [93])) s) s := by
  unfold printArray
  rw [wp_bind]
  apply wp_ensure h
  · intro s₁ h₁ hroom₁ hdepth₁
    rw [wp_ite]
    refine ⟨fun hno => absurd hno Bool.false_ne_true, fun _ => ?_⟩
    rw [wp_bind, wp_get, wp_bind]
    apply wp_write_offset h₁ (by rw [List.length_singleton]; omega)
    intro s₂ h₂ hlength₂ hdepth₂
    rw [wp_bind]
    apply @wp_moveOffset _ _ _ _ _ [91] _ h₂ (by rw [List.length_singleton]; omega)
    intro s₃ h₃ hlength₃ hdepth₃
    have hdeep : s₃.depth + 1 = s.depth + 1 := by omega
    unfold deepen
    rw [wp_bind, wp_modify]
    apply brackets_spec (List.cons_ne_nil _ _) hdeep (hloop _ (h₃.withDepth _) hdeep)
    intro text s' h' _
    exact @close_spec env f _ s' 2 [93] rfl h'
  · intro s' hframe hrefused
    rw [wp_ite]
    refine ⟨fun _ => ?_, fun hno => absurd rfl hno⟩
    rw [wp_pure]
    exact opening_failed (by decide) hframe hrefused

theorem length_objectStart_le (format : Bool) (depth : ℕ) :
    (objectStart format).length + 1 ≤
      (objectStart format).length + (objectEnd format depth).length := by
  unfold objectEnd
  rw [List.length_append, List.length_singleton]
  omega

/-- **`print_object`**, from what its loop prints. -/
theorem printObject_spec {t : Option (List UInt8)} {loop : Print Bool}
    (hloop : ∀ s', At env f (acc ++ objectStart env.format) [] s' → s'.depth = s.depth + 1 →
      Wp env loop (LoopPrinted env f (acc ++ objectStart env.format) t s') s')
    (h : At env f acc tail s) :
    Wp env (printObject loop) (Printed env f acc (t.map fun text =>
      objectStart env.format ++ (text ++ objectEnd env.format s.depth)) s) s := by
  unfold printObject
  rw [wp_bind, wp_read]
  show Wp env (do
    if !(← ensure ((objectStart env.format).length + 1)) then return false
    else
      write (← get).offset (objectStart env.format)
      deepen
      moveOffset (objectStart env.format).length
      if !(← loop) then return false
      else
        let depth := (← get).depth
        if !(← ensure (if env.format then depth + 1 else 2)) then return false
        else
          let tabs := if env.format then depth - 1 else 0
          write (← get).offset (List.replicate tabs 9 ++ [125, 0])
          flatten
          return true) _ s
  rw [wp_bind]
  apply wp_ensure h
  · intro s₁ h₁ hroom₁ hdepth₁
    rw [wp_ite]
    refine ⟨fun hno => absurd hno Bool.false_ne_true, fun _ => ?_⟩
    rw [wp_bind, wp_get, wp_bind]
    apply wp_write_offset h₁ (by omega)
    intro s₂ h₂ hlength₂ hdepth₂
    unfold deepen
    rw [wp_bind, wp_modify, wp_bind]
    -- the opening bracket is written but not yet counted
    have h₂' : At env f acc (objectStart env.format ++ []) { s₂ with depth := s₂.depth + 1 } := by
      rw [List.append_nil]
      exact h₂.withDepth _
    apply wp_moveOffset h₂' (by show _ < s₂.length; omega)
    intro s₃ h₃ hlength₃ hdepth₃
    have hdeep : s₃.depth = s.depth + 1 := by
      rw [hdepth₃]
      show s₂.depth + 1 = s.depth + 1
      omega
    apply brackets_spec (List.append_ne_nil_of_right_ne_nil _ (List.cons_ne_nil _ _)) hdeep
      (hloop _ h₃ hdeep)
    intro text s' h' hdepth'
    have hs' : s'.depth - 1 = s.depth := by omega
    rw [wp_bind, wp_get]
    have hend : objectEnd env.format s.depth =
        List.replicate (if env.format then s'.depth - 1 else 0) 9 ++ [125] := by
      rw [hs']
      rfl
    have hneeded : (if env.format = true then s'.depth + 1 else 2) =
        (objectEnd env.format s.depth).length + 1 := by
      rw [hend, List.length_append, List.length_replicate, List.length_singleton]
      split <;> omega
    -- the tabs are those of the level outside, for the loop has not been left yet
    have hclose := @close_spec env f _ s' _ (objectEnd env.format s.depth) hneeded h'
    have hwrite : objectEnd env.format s.depth ++ [0] =
        List.replicate (if env.format then s'.depth - 1 else 0) 9 ++ [125, 0] := by
      rw [hend, List.append_assoc]
      rfl
    rw [hwrite] at hclose
    exact hclose
  · intro s' hframe hrefused
    rw [wp_ite]
    refine ⟨fun _ => ?_, fun hno => absurd rfl hno⟩
    rw [wp_pure]
    exact opening_failed (length_objectStart_le _ _) hframe hrefused

/-! ### Trees -/

theorem zero_not_mem_append {t u : List UInt8} (ht : 0 ∉ t) (hu : 0 ∉ u) : 0 ∉ t ++ u := by
  rw [List.mem_append, not_or]
  exact ⟨ht, hu⟩

theorem zero_not_mem_tabs (format : Bool) (depth : ℕ) : 0 ∉ tabs format depth := by
  intro h
  exact absurd (List.eq_of_mem_replicate h) (by decide)

/-- **A printed text is a C string**: there is no zero byte in it. -/
theorem zero_not_mem_text (format : Bool) :
    (∀ item : Item, item.Typed → ∀ depth text, item.text format depth = some text → 0 ∉ text) ∧
      ∀ items, Item.ListTyped items → ∀ depth text,
        (Item.elementsText format depth items = some text → 0 ∉ text) ∧
        (Item.membersText format depth items = some text → 0 ∉ text) := by
  have hcomma : ∀ more, 0 ∉ comma format more := by
    intro more
    cases format <;> cases more <;> decide
  have hcolon : 0 ∉ colon format := by cases format <;> decide
  have hend : ∀ more, 0 ∉ memberEnd format more := by
    intro more
    cases format <;> cases more <;> decide
  apply Item.both_induction
  · rintro ⟨address, type, isReference, stringIsConst, valuestring, valueint, valuedouble, string,
      child⟩ ih ⟨hnumber, hchild⟩ depth text htext
    cases type with
    | invalid => cases htext
    | false =>
      obtain rfl := Option.some.inj htext
      decide
    | true =>
      obtain rfl := Option.some.inj htext
      decide
    | null =>
      obtain rfl := Option.some.inj htext
      decide
    | number =>
      obtain ⟨hlow, hhigh, hdouble⟩ := hnumber rfl
      obtain ⟨text', hbuffer, -, hzero⟩ := numberBuffer_some hlow hhigh hdouble
      obtain rfl := Option.some.inj (hbuffer.symm.trans htext)
      exact hzero
    | string =>
      obtain rfl := Option.some.inj htext
      exact zero_not_mem_quoted _
    | array =>
      obtain ⟨inner, hinner, rfl⟩ := Option.map_eq_some_iff.mp htext
      have hzero := (ih (hchild (.inl rfl)) (depth + 1) inner).1 hinner
      exact zero_not_mem_append (t := [91]) (by decide) (zero_not_mem_append hzero (by decide))
    | object =>
      obtain ⟨inner, hinner, rfl⟩ := Option.map_eq_some_iff.mp htext
      have hzero := (ih (hchild (.inr rfl)) (depth + 1) inner).2 hinner
      apply zero_not_mem_append
      · cases format <;> decide
      · exact zero_not_mem_append hzero
          (zero_not_mem_append (zero_not_mem_tabs _ _) (by decide))
    | raw =>
      obtain ⟨block, -, rfl⟩ := Option.map_eq_some_iff.mp htext
      exact zero_not_mem_cString _
  · intro _ depth text
    constructor
    · intro htext
      obtain rfl := Option.some.inj htext
      exact List.not_mem_nil
    · intro htext
      obtain rfl := Option.some.inj htext
      exact List.not_mem_nil
  · rintro item next hitem hnext ⟨htyped, htyped'⟩ depth text
    constructor
    · -- an element, a comma when more follow, and the rest
      intro htext
      obtain ⟨first, hfirst, hmap⟩ := Option.bind_eq_some_iff.mp htext
      obtain ⟨rest, hrest, rfl⟩ := Option.map_eq_some_iff.mp hmap
      exact zero_not_mem_append (hitem htyped depth first hfirst)
        (zero_not_mem_append (hcomma _) ((hnext htyped' depth rest).1 hrest))
    · -- a key, a value, a comma when more follow, and the rest
      intro htext
      obtain ⟨first, hfirst, hmap⟩ := Option.bind_eq_some_iff.mp htext
      obtain ⟨rest, hrest, rfl⟩ := Option.map_eq_some_iff.mp hmap
      apply zero_not_mem_append
      · exact zero_not_mem_append (zero_not_mem_tabs _ _)
          (zero_not_mem_append (zero_not_mem_quoted _) hcolon)
      · exact zero_not_mem_append (hitem htyped depth first hfirst)
          (zero_not_mem_append (hend _) ((hnext htyped' depth rest).2 hrest))

/-- **`print_value`** prints the text of every tree of items. -/
theorem printValue_spec :
    (∀ item : Item, item.Typed → ∀ acc tail s, At env f acc tail s →
      Wp env (printValue item) (Printed env f acc (item.text env.format s.depth) s) s) ∧
    ∀ items, Item.ListTyped items → ∀ acc s, At env f acc [] s →
      Wp env (printElements items)
        (LoopPrinted env f acc (Item.elementsText env.format s.depth items) s) s ∧
      Wp env (printMembers items)
        (LoopPrinted env f acc (Item.membersText env.format s.depth items) s) s := by
  have hzero := (zero_not_mem_text env.format).1
  apply Item.both_induction
  · rintro ⟨address, type, isReference, stringIsConst, valuestring, valueint, valuedouble, string,
      child⟩ ih ⟨hnumber, hchild⟩ acc tail s h
    cases type with
    | invalid =>
      show Wp env (pure false) _ s
      rw [wp_pure]
      exact ⟨fun hno => absurd hno Bool.false_ne_true, fun _ =>
        ⟨h.frame, fun text htext => by cases htext⟩⟩
    | false => exact printText_spec rfl h
    | true => exact printText_spec rfl h
    | null => exact printText_spec rfl h
    | number =>
      obtain ⟨hlow, hhigh, hdouble⟩ := hnumber rfl
      exact printNumber_spec hlow hhigh hdouble h
    | string => exact printStringPtr_spec valuestring h
    | array =>
      -- the loop runs one level deeper
      apply printArray_spec (fun s' h' hdepth' => ?_) h
      have hloop := (ih (hchild (.inl rfl)) _ s' h').1
      rwa [hdepth'] at hloop
    | object =>
      apply printObject_spec (fun s' h' hdepth' => ?_) h
      have hloop := (ih (hchild (.inr rfl)) _ s' h').2
      rwa [hdepth'] at hloop
    | raw =>
      cases valuestring with
      | none =>
        show Wp env (pure false) _ s
        rw [wp_pure]
        exact ⟨fun hno => absurd hno Bool.false_ne_true, fun _ =>
          ⟨h.frame, fun text htext => by cases htext⟩⟩
      | some block => exact printText_spec rfl h
  · intro _ acc s h
    -- the end of the list prints nothing
    have hnil : LoopPrinted env f acc (some []) s true s :=
      loopPrinted_text (by rwa [List.append_nil]) rfl
    constructor
    · show Wp env (pure true) _ s
      rw [wp_pure]
      exact hnil
    · show Wp env (pure true) _ s
      rw [wp_pure]
      exact hnil
  · rintro item next hitem hnext ⟨htyped, htyped'⟩ acc s h
    constructor
    · -- an element is its value, a comma when more follow, and the rest
      have hstep := Printed.then (u := (Item.elementsText env.format s.depth next).map fun rest =>
          comma env.format (!next.isEmpty) ++ rest)
        (q := do if !(← printComma !next.isEmpty) then return false else printElements next)
        (hitem htyped acc [] s h) (fun text htext => hzero item htyped s.depth text htext)
        (fun text s₁ _ h₁ hdepth₁ => by
          apply LoopPrinted.then (printComma_spec _ h₁)
          intro s₂ h₂ hdepth₂
          have hrest := (hnext htyped' _ s₂ h₂).1
          rwa [hdepth₂, hdepth₁] at hrest)
      have htext : Item.elementsText env.format s.depth (item :: next) =
          (item.text env.format s.depth).bind fun text =>
            ((Item.elementsText env.format s.depth next).map fun rest =>
              comma env.format (!next.isEmpty) ++ rest).map fun rest => text ++ rest := by
        simp only [Option.map_map, Function.comp_def]
        rfl
      rw [htext]
      exact hstep
    · -- a member is its key, its value, a comma when more follow, and the rest
      have hstep := LoopPrinted.then
        (t := (item.text env.format s.depth).bind fun text =>
          ((Item.membersText env.format s.depth next).map fun rest =>
            memberEnd env.format (!next.isEmpty) ++ rest).map fun rest => text ++ rest)
        (q := do
          if !(← printValue item) then return false
          else
            updateOffset
            if !(← printMemberEnd !next.isEmpty) then return false else printMembers next)
        (printKey_spec item.string h)
        (fun s₁ h₁ hdepth₁ => by
          have hvalue := hitem htyped _ [] s₁ h₁
          rw [hdepth₁] at hvalue
          apply Printed.then hvalue (fun text htext => hzero item htyped s.depth text htext)
          intro text s₂ _ h₂ hdepth₂
          apply LoopPrinted.then (printMemberEnd_spec _ h₂)
          intro s₃ h₃ hdepth₃
          have hrest := (hnext htyped' _ s₃ h₃).2
          rwa [hdepth₃, hdepth₂, hdepth₁] at hrest)
      have htext : Item.membersText env.format s.depth (item :: next) =
          ((item.text env.format s.depth).bind fun text =>
            ((Item.membersText env.format s.depth next).map fun rest =>
              memberEnd env.format (!next.isEmpty) ++ rest).map fun rest => text ++ rest).map
                fun rest => keyText env.format s.depth item.string ++ rest := by
        simp only [Option.map_map, Option.map_bind, Function.comp_def]
        rfl
      rw [htext]
      exact hstep

end IotDeviceSdk.Json

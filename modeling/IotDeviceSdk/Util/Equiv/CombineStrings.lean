import IotDeviceSdk.Util.CombineStrings
import IotDeviceSdk.Util.StringUtil

/-!
# The buffers of `CombineStrings`

The counter `length` is the length of the text so far and one byte for the terminator, which is the
size of the buffer: `combineStrings_go_some` is one round of the loop.

* `combineStrings_eq_concatenation`: with memory the result is the concatenation of the texts, and
  each call fits its buffer (`exactCalls`); without it the result is `NULL`.
* `combineStrings_refines`: on texts the function is the `combineStrings` the topics are built with.
-/

namespace IotDeviceSdk.Blocks

open Prog

variable {env : Env} {c : Cursor} {fresh : Fresh} {text : List UInt8}
  {args : List (Option CharBlock)} {calls : List StringCall}

/-! ### Definitions -/

/-- The texts that are not `NULL`. -/
def joinedText (args : List (Option CharBlock)) : List UInt8 :=
  args.flatMap fun arg => (arg.map CharBlock.text).getD []

/-- The number of texts that are not `NULL`, each of which takes an allocation. -/
def textCount (args : List (Option CharBlock)) : ℕ := args.countP Option.isSome

/-- The calls of a round that fit: the copy leaves exactly the room of the text that is appended,
and with it the buffer is full. -/
def roundCalls (text suffix : List UInt8) : List StringCall :=
  [.strcpy (text.length + suffix.length + 1) text EOK,
   .strcat (text.length + suffix.length + 1) text suffix EOK]

/-- The calls of the loop when each fits. -/
def exactCalls : List UInt8 → List (Option CharBlock) → List StringCall
  | _, [] => []
  | text, none :: args => exactCalls text args
  | text, some temStr :: args =>
    roundCalls text temStr.text ++ exactCalls (text ++ temStr.text) args

/-- A call that does not fail since its text fits; after an appended text the buffer is full. -/
def StringCall.Fits : StringCall → Prop
  | .strcpy destMax strSrc error => strSrc.length + 1 ≤ destMax ∧ error = EOK
  | .strcat destMax strDest strSrc error =>
    strDest.length + strSrc.length + 1 = destMax ∧ error = EOK

@[simp] theorem joinedText_nil : joinedText [] = [] := rfl

@[simp] theorem joinedText_none : joinedText (none :: args) = joinedText args := rfl

@[simp] theorem joinedText_some (temStr : CharBlock) :
    joinedText (some temStr :: args) = temStr.text ++ joinedText args := rfl

@[simp] theorem textCount_none : textCount (none :: args) = textCount args := rfl

@[simp] theorem textCount_some (temStr : CharBlock) :
    textCount (some temStr :: args) = textCount args + 1 := by
  simp [textCount]

theorem fits_of_mem_exactCalls {call : StringCall} (h : call ∈ exactCalls text args) :
    call.Fits := by
  induction args generalizing text with
  | nil => simp [exactCalls] at h
  | cons arg args ih =>
    cases arg with
    | none => exact ih h
    | some temStr =>
      rw [exactCalls, roundCalls, List.mem_append, List.mem_cons, List.mem_singleton, or_assoc] at h
      rcases h with rfl | rfl | h
      · exact ⟨by omega, rfl⟩
      · exact ⟨rfl, rfl⟩
      · exact ih h

/-! ### Lengths -/

theorem int_eq {n : ℤ} (hlow : 0 ≤ n) (hhigh : n ≤ INT_MAX) : int n = pure n := by
  apply if_pos
  unfold INT_MIN
  exact ⟨by omega, hhigh⟩

theorem stringLength_go_eq {block : List UInt8} {len : ℤ} (hzero : 0 ∈ block) (hlen : 0 ≤ len)
    (hmax : len + (cString block).length ≤ INT_MAX) :
    stringLength.go block len = pure (len + (cString block).length) := by
  induction block generalizing len with
  | nil => simp at hzero
  | cons b block ih =>
    unfold stringLength.go
    by_cases hb : b = 0
    · subst hb
      simp [cString]
    · have hcons : cString (b :: block) = b :: cString block := by simp [cString, hb]
      have hrest : 0 ∈ block := by
        rcases List.mem_cons.mp hzero with h | h
        · exact absurd h.symm hb
        · exact h
      rw [hcons, List.length_cons] at hmax ⊢
      push_cast at hmax ⊢
      rw [if_pos hb, int_eq (by omega) (by omega), pure_bind, ih hrest (by omega) (by omega)]
      congr 1
      omega

/-- `StringLength` of a text that is not too long. -/
theorem stringLength_eq {str : CharBlock} (h : (str.text.length : ℤ) ≤ INT_MAX) :
    stringLength (some str) = pure (str.text.length : ℤ) := by
  have hgo := stringLength_go_eq str.zero_mem (le_refl 0) (by rw [zero_add]; exact h)
  rw [zero_add] at hgo
  exact hgo

/-! ### One round -/

/-- A block of an allocation that succeeds. -/
def freshBlock (fresh : Fresh) (i size : ℕ) : List UInt8 := (List.range size).map (fresh i)

@[simp] theorem length_freshBlock (fresh : Fresh) (i size : ℕ) :
    (freshBlock fresh i size).length = size := by
  rw [freshBlock, List.length_map, List.length_range]

/-- The cursor after an allocation. -/
def nextAllocation (c : Cursor) : Cursor := { c with malloc := c.malloc + 1 }

theorem mallocBlock_apply (fresh : Fresh) (size : ℕ) (env : Env) (c : Cursor) :
    mallocBlock fresh size env c =
      some (if env.mallocs c.malloc then some (freshBlock fresh c.malloc size) else none,
        nextAllocation c) := rfl

theorem malloc_nextAllocation (c : Cursor) (i : ℕ) :
    (nextAllocation c).malloc + i = c.malloc + (i + 1) := by
  show c.malloc + 1 + i = _
  omega

/-- The two calls of a round: the copy leaves exactly the room of the text that is appended. -/
theorem copies_fit {block suffix : List UInt8} (htext : 0 ∉ text)
    (hblock : block.length = text.length + suffix.length + 1)
    (hmax : block.length ≤ SECUREC_STRING_MAX_LEN) :
    ∃ copy, strcpyS block (text.length + suffix.length + 1) text = some (copy, EOK) ∧
      cString copy = text ∧
      strcatS copy (text.length + suffix.length + 1) suffix =
        some (text ++ suffix ++ [0], EOK) := by
  rw [hblock] at hmax
  refine ⟨text ++ 0 :: block.drop (text.length + 1),
    strcpyS_eq hmax (le_of_eq hblock.symm) (by omega), cString_append_zero htext, ?_⟩
  have hroom : text.length + suffix.length + 1 ≤
      (text ++ 0 :: block.drop (text.length + 1)).length := by
    rw [List.length_append, List.length_cons, List.length_drop, hblock]
    omega
  have hfull : (block.drop (text.length + 1)).drop suffix.length = [] := by
    rw [List.drop_drop]
    exact List.drop_of_length_le (by omega)
  rw [strcatS_eq htext hmax hroom (by omega), hfull]

/-- **A round of the loop**: the counter stays one more than the length of the text, the buffer
full. -/
theorem combineStrings_go_some {n : ℕ} {temStr : CharBlock} (htext : 0 ∉ text)
    (hlength : (text.length + temStr.text.length + 1 : ℤ) ≤ INT_MAX) :
    combineStrings.go fresh (n + 1) (some temStr :: args) (text.length + 1 : ℤ) (text ++ [0]) calls
        env c =
      if env.mallocs c.malloc then
        combineStrings.go fresh n args ((text ++ temStr.text).length + 1 : ℤ)
          (text ++ temStr.text ++ [0])
          (calls ++ roundCalls text temStr.text) env (nextAllocation c)
      else some ((none, calls), nextAllocation c) := by
  have hmax : INT_MAX = 2147483647 := rfl
  have hsize : ((text.length + 1 : ℤ) + temStr.text.length).toNat =
      text.length + temStr.text.length + 1 := by omega
  have hsecure : text.length + temStr.text.length + 1 ≤ SECUREC_STRING_MAX_LEN := by
    unfold SECUREC_STRING_MAX_LEN
    omega
  have hcounter : (text.length + 1 : ℤ) + temStr.text.length =
      ((text ++ temStr.text).length + 1 : ℤ) := by
    rw [List.length_append]
    push_cast
    omega
  rw [combineStrings.go, stringLength_eq (by omega), pure_bind, int_eq (by omega) (by omega),
    pure_bind, bind_apply, mallocBlock_apply, Option.bind_some, hsize]
  by_cases hmalloc : env.mallocs c.malloc
  · have hblock := length_freshBlock fresh c.malloc (text.length + temStr.text.length + 1)
    obtain ⟨copy, hcopy, hcopied, happend⟩ :=
      copies_fit htext hblock (by rw [hblock]; exact hsecure)
    rw [if_pos hmalloc, if_pos hmalloc]
    dsimp only
    rw [readString_append htext, ofOption, pure_bind, hcopy, ofOption, pure_bind]
    dsimp only
    rw [if_neg (not_not.mpr rfl), happend, ofOption, pure_bind]
    dsimp only
    rw [if_neg (not_not.mpr rfl), hcopied, hcounter, List.append_assoc calls]
    rfl
  · rw [if_neg hmalloc, if_neg hmalloc]
    rfl

/-! ### The loop -/

/-- What the loop makes of a text and the rest of the arguments. -/
structure Concatenates (env : Env) (c : Cursor) (text : List UInt8)
    (args : List (Option CharBlock)) (calls : List StringCall) (r : Combined) : Prop where
  result : (∀ i < textCount args, env.mallocs (c.malloc + i) = true) →
    r = (some (text ++ joinedText args ++ [0]), calls ++ exactCalls text args)
  null : (∃ i < textCount args, env.mallocs (c.malloc + i) = false) → r.1 = none
  fits : ∃ made, r.2 = calls ++ made ∧ made <+: exactCalls text args

theorem Concatenates.skip {r : Combined} (h : Concatenates env c text args calls r) :
    Concatenates env c text (none :: args) calls r :=
  ⟨h.result, h.null, h.fits⟩

/-- A round whose allocation succeeds. -/
theorem Concatenates.round {temStr : CharBlock} {r : Combined}
    (hmalloc : env.mallocs c.malloc = true)
    (h : Concatenates env (nextAllocation c) (text ++ temStr.text) args
      (calls ++ roundCalls text temStr.text) r) :
    Concatenates env c text (some temStr :: args) calls r := by
  obtain ⟨hresult, hnull, made, hcalls, hprefix⟩ := h
  refine ⟨fun hall => ?_, ?_, ?_⟩
  · have hrest : ∀ i < textCount args, env.mallocs ((nextAllocation c).malloc + i) = true := by
      intro i hi
      rw [malloc_nextAllocation]
      exact hall (i + 1) (by rw [textCount_some]; omega)
    rw [hresult hrest, exactCalls, joinedText_some, List.append_assoc calls, List.append_assoc text]
  · rintro ⟨i, hi, hfails⟩
    -- this allocation, which succeeds, or a later one
    cases i with
    | zero =>
      rw [Nat.add_zero, hmalloc] at hfails
      cases hfails
    | succ i =>
      rw [textCount_some] at hi
      exact hnull ⟨i, by omega, by rw [malloc_nextAllocation]; exact hfails⟩
  · refine ⟨roundCalls text temStr.text ++ made, ?_, ?_⟩
    · rw [hcalls, List.append_assoc]
    · exact (List.prefix_append_right_inj _).mpr hprefix

/-- What a round needs, and what it leaves to the next one. -/
theorem round_bounds {temStr : CharBlock} (htext : 0 ∉ text)
    (hlength : ((text ++ joinedText (some temStr :: args)).length + 1 : ℤ) ≤ INT_MAX) :
    (text.length + temStr.text.length + 1 : ℤ) ≤ INT_MAX ∧ 0 ∉ text ++ temStr.text ∧
      ((text ++ temStr.text ++ joinedText args).length + 1 : ℤ) ≤ INT_MAX := by
  rw [joinedText_some, ← List.append_assoc] at hlength
  refine ⟨?_, ?_, hlength⟩
  · simp only [List.length_append] at hlength
    push_cast at hlength
    omega
  · rw [List.mem_append]
    rintro (h | h)
    · exact htext h
    · exact temStr.zero_not_mem_text h

theorem combineStrings_go_concatenates (htext : 0 ∉ text)
    (hlength : ((text ++ joinedText args).length + 1 : ℤ) ≤ INT_MAX) :
    ∃ r c',
      combineStrings.go fresh args.length args (text.length + 1 : ℤ) (text ++ [0]) calls env c =
      some (r, c') ∧ Concatenates env c text args calls r := by
  induction args generalizing text calls c with
  | nil =>
    refine ⟨_, _, rfl, fun _ => ?_, ?_, [], ?_, List.prefix_rfl⟩
    · simp [exactCalls]
    · rintro ⟨i, hi, -⟩
      exact absurd hi (Nat.not_lt_zero i)
    · simp
  | cons arg args ih =>
    cases arg with
    | none =>
      obtain ⟨r, c', hrun, hr⟩ := ih htext hlength
      exact ⟨r, c', hrun, hr.skip⟩
    | some temStr =>
      obtain ⟨hshort, hjoined, hrest⟩ := round_bounds htext hlength
      rw [List.length_cons, combineStrings_go_some htext hshort]
      by_cases hmalloc : env.mallocs c.malloc
      · rw [if_pos hmalloc]
        obtain ⟨r, c', hrun, hr⟩ := @ih (nextAllocation c) _ _ hjoined hrest
        exact ⟨r, c', hrun, hr.round hmalloc⟩
      · -- without memory the loop returns at once
        rw [if_neg hmalloc]
        refine ⟨_, _, rfl, ?_, fun _ => rfl, [], ?_, List.nil_prefix⟩
        · intro hall
          have hfirst := hall 0 (by rw [textCount_some]; omega)
          exact absurd hfirst hmalloc
        · simp

/-! ### The function -/

/-- The calls of the function when each fits. -/
def allCalls (str1 : CharBlock) (args : List (Option CharBlock)) : List StringCall :=
  .strcpy (str1.text.length + 1) str1.text EOK :: exactCalls str1.text args

/-- The first text has its own buffer, which it fills. -/
theorem combineStrings_eq {n : ℕ} {str1 : CharBlock} (hne : str1.text ≠ [])
    (hlength : (str1.text.length + 1 : ℤ) ≤ INT_MAX) :
    combineStrings fresh (n + 1) (some str1) args env c =
      if env.mallocs c.malloc then
        combineStrings.go fresh n args (str1.text.length + 1 : ℤ) (str1.text ++ [0])
          [.strcpy (str1.text.length + 1) str1.text EOK] env (nextAllocation c)
      else some ((none, []), nextAllocation c) := by
  have hmax : INT_MAX = 2147483647 := rfl
  have hpos := List.length_pos_iff.mpr hne
  have hsize : ((str1.text.length : ℤ) + 1).toNat = str1.text.length + 1 := by omega
  have hsecure : str1.text.length + 1 ≤ SECUREC_STRING_MAX_LEN := by
    unfold SECUREC_STRING_MAX_LEN
    omega
  have hblock := length_freshBlock fresh c.malloc (str1.text.length + 1)
  have hcopy := strcpyS_eq hsecure (le_of_eq hblock.symm) (Nat.lt_succ_self str1.text.length)
  rw [List.drop_of_length_le (le_of_eq hblock)] at hcopy
  rw [combineStrings, stringLength_eq (by omega), pure_bind, int_eq (by omega) hlength, pure_bind,
    if_neg (by omega), bind_apply, mallocBlock_apply, Option.bind_some, hsize]
  by_cases hmalloc : env.mallocs c.malloc
  · rw [if_pos hmalloc, if_pos hmalloc]
    dsimp only [Option.map_some, Option.getD_some]
    rw [hcopy, ofOption, pure_bind]
    dsimp only
    rw [if_neg (not_not.mpr rfl), Nat.add_sub_cancel]
  · rw [if_neg hmalloc, if_neg hmalloc]
    rfl

/-- **`CombineStrings`** gives the concatenation of its texts when it gets its memory, and `NULL`
otherwise; its calls fit their buffers, and the appended texts fill them. -/
theorem combineStrings_concatenates (env : Env) (c : Cursor) (fresh : Fresh) (str1 : CharBlock)
    (args : List (Option CharBlock)) (hne : str1.text ≠ [])
    (hlength : (str1.text ++ joinedText args).length < 2 ^ 31 - 1) :
    ∃ result calls c',
      combineStrings fresh (args.length + 1) (some str1) args env c = some ((result, calls), c') ∧
      ((∀ i ≤ textCount args, env.mallocs (c.malloc + i) = true) →
        result = some (str1.text ++ joinedText args ++ [0]) ∧ calls = allCalls str1 args) ∧
      ((∃ i ≤ textCount args, env.mallocs (c.malloc + i) = false) → result = none) ∧
      calls <+: allCalls str1 args ∧ ∀ call ∈ calls, call.Fits := by
  have hmax : INT_MAX = 2147483647 := rfl
  have hfirst : (str1.text.length + 1 : ℤ) ≤ INT_MAX := by
    rw [List.length_append] at hlength
    omega
  have hfits : ∀ call ∈ allCalls str1 args, call.Fits := by
    intro call hcall
    rcases List.mem_cons.mp hcall with rfl | hcall
    · exact ⟨le_refl _, rfl⟩
    · exact fits_of_mem_exactCalls hcall
  rw [combineStrings_eq hne hfirst]
  by_cases hmalloc : env.mallocs c.malloc
  · obtain ⟨r, c', hrun, hresult, hnull, made, hcalls, hprefix⟩ :=
      @combineStrings_go_concatenates env (nextAllocation c) fresh str1.text args
        [.strcpy (str1.text.length + 1) str1.text EOK] str1.zero_not_mem_text (by omega)
    have hprefix' : r.2 <+: allCalls str1 args := by
      rw [hcalls]
      exact (List.prefix_append_right_inj _).mpr hprefix
    rw [if_pos hmalloc]
    refine ⟨r.1, r.2, c', hrun, fun hall => ?_, ?_, hprefix',
      fun call hcall => hfits call (hprefix'.subset hcall)⟩
    · have hrest : ∀ i < textCount args, env.mallocs ((nextAllocation c).malloc + i) = true := by
        intro i hi
        rw [malloc_nextAllocation]
        exact hall (i + 1) hi
      rw [hresult hrest]
      exact ⟨rfl, rfl⟩
    · rintro ⟨i, hi, hfails⟩
      cases i with
      | zero => exact absurd hmalloc (by rw [Nat.add_zero] at hfails; rw [hfails]; decide)
      | succ i => exact hnull ⟨i, hi, by rw [malloc_nextAllocation]; exact hfails⟩
  · rw [if_neg hmalloc]
    refine ⟨none, [], _, rfl, fun hall => ?_, fun _ => rfl, List.nil_prefix, by simp⟩
    exact absurd (hall 0 (Nat.zero_le _)) hmalloc

/-- Two texts and a `NULL` between them. -/
theorem combineStrings_concatenates_two :
    (CharBlock.ofBytes [97]).text ≠ [] ∧
    ∃ calls c', combineStrings (fun _ _ => 7) 3 (some (.ofBytes [97])) [none, some (.ofBytes [98])]
      .plentiful default = some ((some [97, 98, 0], calls), c') ∧ ∀ call ∈ calls, call.Fits := by
  have hne : (CharBlock.ofBytes [97]).text ≠ [] := by decide
  obtain ⟨result, calls, c', hrun, hall, -, -, hfits⟩ :=
    combineStrings_concatenates .plentiful default (fun _ _ => 7) (.ofBytes [97])
      [none, some (.ofBytes [98])] hne (by decide)
  obtain ⟨rfl, -⟩ := hall fun _ _ => rfl
  exact ⟨hne, calls, c', hrun, hfits⟩

/-! ### The topics -/

/-- What is left of a run on buffers when only the texts are looked at. -/
def onTexts (r : Combined × Cursor) : Option String × Cursor :=
  (r.1.1.map fun buffer => textOfBytes (cString buffer), r.2)

theorem textOfBytes_append (text suffix : List UInt8) :
    textOfBytes (text ++ suffix) = textOfBytes text ++ textOfBytes suffix := by
  simp [textOfBytes]

theorem malloc_apply (env : Env) (c : Cursor) :
    malloc env c = some (env.mallocs c.malloc, nextAllocation c) := rfl

theorem combineStrings_go_refines (htext : 0 ∉ text)
    (hlength : ((text ++ joinedText args).length + 1 : ℤ) ≤ INT_MAX) :
    (combineStrings.go fresh args.length args (text.length + 1 : ℤ) (text ++ [0]) calls env c).map
        onTexts =
      IotDeviceSdk.combineStrings.go (args.map (Option.map CharBlock.string)) (textOfBytes text) env
        c := by
  induction args generalizing text calls c with
  | nil =>
    show some (some (textOfBytes (cString (text ++ [0]))), c) = some (some (textOfBytes text), c)
    rw [cString_append_zero htext]
  | cons arg args ih =>
    cases arg with
    | none => exact ih htext hlength
    | some temStr =>
      obtain ⟨hshort, hjoined, hrest⟩ := round_bounds htext hlength
      rw [List.length_cons, combineStrings_go_some htext hshort, List.map_cons, Option.map_some,
        IotDeviceSdk.combineStrings.go, bind_apply, malloc_apply, Option.bind_some]
      by_cases hmalloc : env.mallocs c.malloc
      · have hround := @ih (nextAllocation c) _ (calls ++ roundCalls text temStr.text) hjoined hrest
        rw [textOfBytes_append] at hround
        rw [if_pos hmalloc, hround, hmalloc]
        rfl
      · rw [if_neg hmalloc, Bool.not_eq_true _ |>.mp hmalloc]
        rfl

/-- **On texts** the function is the one the topics are built with. -/
theorem combineStrings_refines (env : Env) (c : Cursor) (fresh : Fresh) (str1 : CharBlock)
    (args : List (Option CharBlock)) (hne : str1.text ≠ [])
    (hlength : (str1.text ++ joinedText args).length < 2 ^ 31 - 1) :
    (combineStrings fresh (args.length + 1) (some str1) args env c).map onTexts =
      IotDeviceSdk.combineStrings (some str1.string) (args.map (Option.map CharBlock.string)) env
        c := by
  have hmax : INT_MAX = 2147483647 := rfl
  have hfirst : (str1.text.length + 1 : ℤ) ≤ INT_MAX := by
    rw [List.length_append] at hlength
    omega
  have hstring : IotDeviceSdk.stringLength (some str1.string) = str1.text.length := by
    show ((String.ofList _).length : ℤ) = _
    rw [← String.length_toList, String.toList_ofList, List.length_map]
  have hpos := List.length_pos_iff.mpr hne
  have hlong : ¬(str1.text.length : ℤ) + 1 = 1 := by omega
  rw [combineStrings_eq hne hfirst, IotDeviceSdk.combineStrings, hstring, if_neg hlong,
    bind_apply, malloc_apply, Option.bind_some]
  by_cases hmalloc : env.mallocs c.malloc
  · rw [if_pos hmalloc, hmalloc, combineStrings_go_refines str1.zero_not_mem_text (by omega)]
    rfl
  · rw [if_neg hmalloc, Bool.not_eq_true _ |>.mp hmalloc]
    rfl

end IotDeviceSdk.Blocks

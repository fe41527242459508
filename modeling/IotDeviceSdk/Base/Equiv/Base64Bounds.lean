import IotDeviceSdk.Base.Base64Decode
import IotDeviceSdk.Base.Equiv.Base64

/-!
# The accesses of `base64_decode`

* `base64Loop_eq`: the loop decodes groups of characters, and needs room for them.
* `base64DecodeBlock_defined_iff`: the texts without an access outside.
* `base64Decode_of_defined`: their results are those of `base64Decode`.
-/

namespace IotDeviceSdk.Base

open Prog

variable {env : Env} {code : List UInt8} {i : ℕ}

/-! ### The loop -/

/-- The bytes that a round writes. -/
def base64Group (code : List UInt8) (i : ℕ) : Option (UInt8 × UInt8 × UInt8) := do
  let t₀ ← base64Entry code i
  let t₁ ← base64Entry code (i + 1)
  let t₂ ← base64Entry code (i + 2)
  let t₃ ← base64Entry code (i + 3)
  return (t₀ <<< 2 ||| t₁ >>> 4, t₁ <<< 4 ||| t₂ >>> 2, t₂ <<< 6 ||| t₃)

/-- Write three bytes in the front. -/
def overwriteThree (bytes : UInt8 × UInt8 × UInt8) : List UInt8 → Option (List UInt8)
  | _ :: _ :: _ :: rest => some (bytes.1 :: bytes.2.1 :: bytes.2.2 :: rest)
  | _ => none

/-- The three writes of a round. -/
theorem writeThree_eq (before rest : List UInt8) (x y z : UInt8) :
    (do
      let res ← writeAt (before ++ rest) before.length x
      let res ← writeAt res (before.length + 1) y
      writeAt res (before.length + 2) z) =
      (overwriteThree (x, y, z) rest).map (before ++ ·) := by
  match rest with
  | [] => simp [writeAt, overwriteThree]
  | [a] => simp [writeAt, overwriteThree]
  | [a, b] => simp [writeAt, overwriteThree]
  | a :: b :: c :: rest => simp [writeAt, overwriteThree, List.set_append_right]

/-- **One round**: the bytes of a group are written over the next three. -/
theorem base64Round_eq (code : List UInt8) (i : ℕ) (before rest : List UInt8) :
    base64Round code i before.length (before ++ rest) = (do
      let bytes ← base64Group code i
      let rest ← overwriteThree bytes rest
      return before ++ rest) := by
  unfold base64Round base64Group
  simp only [Option.bind_eq_bind, Option.pure_def, Option.bind_assoc, Option.bind_some]
  congr 1
  funext t₀
  congr 1
  funext t₁
  congr 1
  funext t₂
  congr 1
  funext t₃
  exact (writeThree_eq before rest _ _ _).trans Option.map_eq_bind

theorem base64Entry_eq (code : List UInt8) (i k : ℕ) :
    base64Entry code (i + k) = (code.drop i)[k]?.bind fun c => base64Table[c.toNat]? := by
  rw [List.getElem?_drop]
  rfl

/-- The loop over groups, from the characters that are read by an index. -/
theorem base64Groups_drop (n : ℕ) (code : List UInt8) (i : ℕ) :
    base64Groups (n + 1) (code.drop i) = (do
      let bytes ← base64Group code i
      let decoded ← base64Groups n (code.drop (i + 4))
      return bytes.1 :: bytes.2.1 :: bytes.2.2 :: decoded) := by
  have hnext : code.drop (i + 4) = (code.drop i).drop 4 := List.drop_drop.symm
  have h₀ := base64Entry_eq code i 0
  have h₁ := base64Entry_eq code i 1
  have h₂ := base64Entry_eq code i 2
  have h₃ := base64Entry_eq code i 3
  rw [add_zero] at h₀
  unfold base64Group
  rw [hnext, h₀, h₁, h₂, h₃]
  -- fewer than four characters give no group on either side
  match code.drop i with
  | [] => rfl
  | [c₀] => simp [base64Groups]
  | [c₀, c₁] => simp [base64Groups]
  | [c₀, c₁, c₂] => simp [base64Groups]
  | c₀ :: c₁ :: c₂ :: c₃ :: code => simp [base64Groups, Option.bind_assoc]

theorem length_base64Groups {n : ℕ} {code decoded : List UInt8}
    (h : base64Groups n code = some decoded) : decoded.length = 3 * n := by
  induction n generalizing code decoded with
  | zero =>
    cases h
    rfl
  | succ n ih =>
    rw [← List.drop_zero (l := code), base64Groups_drop] at h
    obtain ⟨bytes, -, h⟩ := Option.bind_eq_some_iff.mp h
    obtain ⟨rest, hrest, h⟩ := Option.bind_eq_some_iff.mp h
    cases h
    simp only [List.length_cons, ih hrest]
    omega

/-- **The loop** decodes the groups, when there is room for their bytes. -/
theorem base64Loop_eq (code : List UInt8) {bound i n : ℕ} (hn : n = (bound - i + 3) / 4)
    (before rest : List UInt8) :
    base64Loop code bound i before.length (before ++ rest) = (do
      let decoded ← base64Groups n (code.drop i)
      if decoded.length ≤ rest.length then
        return before ++ decoded ++ rest.drop decoded.length
      else none) := by
  induction n generalizing i before rest with
  | zero =>
    rw [base64Loop, if_neg (by omega)]
    simp [base64Groups]
  | succ n ih =>
    rw [base64Loop, if_pos (by omega), base64Round_eq, base64Groups_drop]
    cases base64Group code i with
    | none => rfl
    | some bytes =>
      simp only [Option.bind_eq_bind, Option.bind_some, Option.pure_def, Option.bind_assoc]
      rcases rest with _ | ⟨a, _ | ⟨b, _ | ⟨c, rest⟩⟩⟩
      -- there is no room for three bytes
      · cases base64Groups n (code.drop (i + 4)) <;> simp [overwriteThree]
      · cases base64Groups n (code.drop (i + 4)) <;> simp [overwriteThree]
      · cases base64Groups n (code.drop (i + 4)) <;> simp [overwriteThree]
      · -- the bytes of the round belong to the front of the next one
        have hnext := ih (i := i + 4) (by omega) (before ++ [bytes.1, bytes.2.1, bytes.2.2]) rest
        rw [List.append_assoc, List.length_append] at hnext
        refine hnext.trans ?_
        cases base64Groups n (code.drop (i + 4)) with
        | none => rfl
        | some decoded => simp

/-! ### The whole function -/

/-- The last character with an entry in the table. -/
theorem base64Table_isSome_iff (c : UInt8) : (∃ t, base64Table[c.toNat]? = some t) ↔ c ≤ 122 := by
  have hlength : base64Table.length = 123 := by decide +kernel
  rw [← Option.isSome_iff_exists, isSome_getElem?, hlength, UInt8.le_iff_toNat_le]
  show c.toNat < 123 ↔ c.toNat ≤ 122
  omega

/-- The groups can be decoded when they are there and all their characters have an entry. -/
theorem base64Groups_isSome_iff (n : ℕ) (code : List UInt8) :
    (∃ decoded, base64Groups n code = some decoded) ↔
      4 * n ≤ code.length ∧ ∀ c ∈ code.take (4 * n), c ≤ 122 := by
  induction n generalizing code with
  | zero => simp [base64Groups]
  | succ n ih =>
    rcases code with _ | ⟨c₀, _ | ⟨c₁, _ | ⟨c₂, _ | ⟨c₃, code⟩⟩⟩⟩
    · exact iff_of_false (by simp [base64Groups]) fun h => absurd h.1 (by simp)
    · exact iff_of_false (by simp [base64Groups]) fun h => absurd h.1 (by simp; omega)
    · exact iff_of_false (by simp [base64Groups]) fun h => absurd h.1 (by simp; omega)
    · exact iff_of_false (by simp [base64Groups]) fun h => absurd h.1 (by simp; omega)
    · have htake : 4 * (n + 1) = 4 * n + 4 := by omega
      have hgroup :
          (∃ decoded, base64Groups (n + 1) (c₀ :: c₁ :: c₂ :: c₃ :: code) = some decoded) ↔
          ((∃ t, base64Table[c₀.toNat]? = some t) ∧ (∃ t, base64Table[c₁.toNat]? = some t) ∧
            (∃ t, base64Table[c₂.toNat]? = some t) ∧ (∃ t, base64Table[c₃.toNat]? = some t)) ∧
          ∃ decoded, base64Groups n code = some decoded := by
        constructor
        · rintro ⟨_, h⟩
          obtain ⟨t₀, h₀, h⟩ := Option.bind_eq_some_iff.mp h
          obtain ⟨t₁, h₁, h⟩ := Option.bind_eq_some_iff.mp h
          obtain ⟨t₂, h₂, h⟩ := Option.bind_eq_some_iff.mp h
          obtain ⟨t₃, h₃, h⟩ := Option.bind_eq_some_iff.mp h
          obtain ⟨decoded, h, -⟩ := Option.bind_eq_some_iff.mp h
          exact ⟨⟨⟨t₀, h₀⟩, ⟨t₁, h₁⟩, ⟨t₂, h₂⟩, ⟨t₃, h₃⟩⟩, decoded, h⟩
        · rintro ⟨⟨⟨t₀, h₀⟩, ⟨t₁, h₁⟩, ⟨t₂, h₂⟩, ⟨t₃, h₃⟩⟩, decoded, h⟩
          rw [base64Groups, h₀, h₁, h₂, h₃, h]
          exact ⟨_, rfl⟩
      rw [hgroup, ih, htake]
      -- an entry for each of the four characters, and the groups of the rest
      simp only [base64Table_isSome_iff, List.length_cons, List.take_succ_cons,
        List.forall_mem_cons, Nat.add_le_add_iff_right]
      tauto

/-- The block before the loop. -/
def base64Start (code : List UInt8) (fresh : ℕ → UInt8) : List UInt8 :=
  ((List.range (base64StrLen code + 1).toNat).map fresh).set (base64StrLen code).toNat 0

theorem length_base64Start {code : List UInt8} (hstr : 0 ≤ base64StrLen code) (fresh : ℕ → UInt8) :
    (base64Start code fresh).length = (base64StrLen code).toNat + 1 := by
  rw [base64Start, List.length_set, List.length_map, List.length_range]
  omega

/-- The terminator is the last byte of the block. -/
theorem drop_base64Start {code : List UInt8} (hstr : 0 ≤ base64StrLen code) (fresh : ℕ → UInt8) :
    (base64Start code fresh).drop (base64StrLen code).toNat = [0] := by
  have hlength := length_base64Start hstr fresh
  obtain ⟨a, ha⟩ : ∃ a, (base64Start code fresh).drop (base64StrLen code).toNat = [a] := by
    apply List.length_eq_one_iff.mp
    rw [List.length_drop]
    omega
  have hlast : (base64Start code fresh)[(base64StrLen code).toNat]? = some 0 := by
    unfold base64Start at hlength ⊢
    rw [List.length_set] at hlength
    rw [List.getElem?_set_self (by omega)]
  rw [← Nat.add_zero (base64StrLen code).toNat, ← List.getElem?_drop, ha] at hlast
  obtain rfl : a = 0 := Option.some.inj hlast
  exact ha

theorem base64Fill_eq (code : List UInt8) (fresh : ℕ → UInt8) (hstr : 0 ≤ base64StrLen code) :
    base64Fill code fresh = (do
      let decoded ← base64Groups ((base64Bound code.length + 3) / 4) (code ++ [0])
      if decoded.length ≤ (base64StrLen code).toNat + 1 then
        return decoded ++ (base64Start code fresh).drop decoded.length
      else none) := by
  have hroom : (base64StrLen code).toNat <
      ((List.range (base64StrLen code + 1).toNat).map fresh).length := by
    rw [List.length_map, List.length_range]
    omega
  have hn : (base64Bound code.length + 3) / 4 = (base64Bound code.length - 0 + 3) / 4 := rfl
  have hloop := base64Loop_eq (code ++ [0]) hn [] (base64Start code fresh)
  rw [length_base64Start hstr] at hloop
  unfold base64Fill
  dsimp only
  rw [if_neg (by omega), writeAt, if_pos hroom]
  exact hloop

/-- A text on which every access is inside: it has no double padding and no open group of three, and
the table has an entry for the characters of its groups. -/
structure DecodesInside (code : List UInt8) : Prop where
  two_le : 2 ≤ code.length
  length_mod : code.length % 4 ≠ 3
  double : ¬ascii "==" <:+: code
  short : code.length < 4 → ¬ascii "=" <:+: code
  chars : ∀ c ∈ code.take (code.length / 4 * 4), c ≤ 122

/-- A text whose size is the largest `size_t`. -/
theorem base64StrLen_lt_iff (code : List UInt8) :
    base64StrLen code + 1 < 0 ↔ code.length < 4 ∧ ascii "==" <:+: code := by
  unfold base64StrLen
  dsimp only
  by_cases hdouble : ascii "==" <:+: code
  · rw [if_pos hdouble]
    simp only [hdouble, and_true]
    omega
  · rw [if_neg hdouble]
    simp only [hdouble, and_false, iff_false]
    split <;> omega

/-- The room for the groups, in a text that is long enough. -/
theorem base64StrLen_room_iff {code : List UInt8} (hlength : 2 ≤ code.length) :
    0 ≤ base64StrLen code ∧ 3 * ((code.length + 1) / 4) ≤ (base64StrLen code).toNat + 1 ↔
      code.length % 4 ≠ 3 ∧ ¬ascii "==" <:+: code ∧
        (code.length < 4 → ¬ascii "=" <:+: code) := by
  unfold base64StrLen
  dsimp only
  by_cases hdouble : ascii "==" <:+: code
  · rw [if_pos hdouble]
    simp only [hdouble, not_true_eq_false, false_and, and_false, iff_false]
    omega
  · rw [if_neg hdouble]
    by_cases hsingle : ascii "=" <:+: code
    · rw [if_pos hsingle]
      simp only [hdouble, hsingle, not_true_eq_false, not_false_eq_true, true_and, imp_false]
      omega
    · rw [if_neg hsingle]
      simp only [hdouble, hsingle, not_false_eq_true, implies_true, and_true]
      omega

theorem base64Fill_of_neg {code : List UInt8} (hstr : base64StrLen code < 0)
    (fresh : ℕ → UInt8) : base64Fill code fresh = none := by
  unfold base64Fill
  dsimp only
  rw [if_pos hstr]
  rfl

/-- The characters that the loop reads. -/
theorem take_groups {code : List UInt8} (hmod : code.length % 4 ≠ 3) :
    (code ++ [0]).take (4 * ((code.length + 1) / 4)) = code.take (code.length / 4 * 4) := by
  have hcount : 4 * ((code.length + 1) / 4) = code.length / 4 * 4 := by omega
  rw [hcount, List.take_append_of_le_length (by omega)]

/-- **The block is filled** exactly on these texts. -/
theorem base64Fill_defined_iff (code : List UInt8) (fresh : ℕ → UInt8) :
    (∃ res, base64Fill code fresh = some res) ↔ DecodesInside code := by
  by_cases hstr : 0 ≤ base64StrLen code
  · have hfilled : (∃ res, base64Fill code fresh = some res) ↔
        (∃ decoded, base64Groups ((base64Bound code.length + 3) / 4) (code ++ [0]) = some decoded) ∧
          3 * ((base64Bound code.length + 3) / 4) ≤ (base64StrLen code).toNat + 1 := by
      rw [base64Fill_eq code fresh hstr]
      constructor
      · rintro ⟨_, h⟩
        obtain ⟨decoded, hdecoded, h⟩ := Option.bind_eq_some_iff.mp h
        obtain ⟨hroom, -⟩ := Option.ite_none_right_eq_some.mp h
        rw [length_base64Groups hdecoded] at hroom
        exact ⟨⟨decoded, hdecoded⟩, hroom⟩
      · rintro ⟨⟨decoded, hdecoded⟩, hroom⟩
        rw [← length_base64Groups hdecoded] at hroom
        rw [hdecoded, Option.bind_eq_bind, Option.bind_some, if_pos hroom]
        exact ⟨_, rfl⟩
    rw [hfilled, base64Groups_isSome_iff, List.length_append, List.length_singleton]
    -- below two characters `len - 2` wraps to a bound that no text reaches
    by_cases hlength : code.length < 2
    · have hbound : base64Bound code.length = code.length + 2 ^ 64 - 2 := if_pos hlength
      refine iff_of_false ?_ fun h => absurd h.two_le (by omega)
      rw [hbound]
      omega
    · have hrounds : (base64Bound code.length + 3) / 4 = (code.length + 1) / 4 := by
        rw [base64Bound, if_neg hlength]
        omega
      have hroom := base64StrLen_room_iff (not_lt.mp hlength)
      rw [hrounds]
      constructor
      · rintro ⟨⟨-, hchars⟩, hle⟩
        obtain ⟨hmod, hdouble, hshort⟩ := hroom.mp ⟨hstr, hle⟩
        rw [take_groups hmod] at hchars
        exact ⟨not_lt.mp hlength, hmod, hdouble, hshort, hchars⟩
      · intro h
        obtain ⟨-, hle⟩ := hroom.mpr ⟨h.length_mod, h.double, h.short⟩
        have hchars := h.chars
        rw [← take_groups h.length_mod] at hchars
        exact ⟨⟨by omega, hchars⟩, hle⟩
  · rw [base64Fill_of_neg (not_le.mp hstr)]
    refine iff_of_false (by simp) fun h => hstr ?_
    exact ((base64StrLen_room_iff h.two_le).mpr ⟨h.length_mod, h.double, h.short⟩).1

/-- Without memory nothing is accessed. -/
theorem base64DecodeBlock_of_null (code : CString) (fresh : ℕ → UInt8) {c : Cursor}
    (h : base64StrLen code.bytes + 1 < 0 ∨ env.mallocs c.malloc = false) :
    ∃ c', base64DecodeBlock code fresh env c = some (none, c') := by
  unfold base64DecodeBlock
  by_cases hnever : base64StrLen code.bytes + 1 < 0
  · rw [if_pos hnever]
    exact ⟨c, rfl⟩
  · rw [if_neg hnever, bind_apply]
    simp only [malloc, h.resolve_left hnever]
    exact ⟨_, rfl⟩

/-- With memory the block is filled. -/
theorem base64DecodeBlock_of_malloc {code : CString} (fresh : ℕ → UInt8) {c : Cursor}
    (hsize : ¬base64StrLen code.bytes + 1 < 0) (hmalloc : env.mallocs c.malloc = true) :
    base64DecodeBlock code fresh env c =
      (base64Fill code.bytes fresh).map fun res =>
        (some res, { c with malloc := c.malloc + 1 }) := by
  unfold base64DecodeBlock
  rw [if_neg hsize, bind_apply]
  simp only [malloc, hmalloc]
  cases base64Fill code.bytes fresh with
  | none => rfl
  | some res => rfl

/-- **`base64_decode` stays inside** its text, its table and its block exactly when no memory is
granted, or the text is one of these. -/
theorem base64DecodeBlock_defined_iff (code : CString) (fresh : ℕ → UInt8) (env : Env)
    (c : Cursor) :
    (∃ r, base64DecodeBlock code fresh env c = some r) ↔
      env.mallocs c.malloc = false ∨ (code.bytes.length < 4 ∧ ascii "==" <:+: code.bytes) ∨
        DecodesInside code.bytes := by
  rw [← base64StrLen_lt_iff]
  by_cases hnull : base64StrLen code.bytes + 1 < 0 ∨ env.mallocs c.malloc = false
  · obtain ⟨c', h⟩ := base64DecodeBlock_of_null code fresh hnull
    exact iff_of_true ⟨_, h⟩ (hnull.elim (fun h => Or.inr (Or.inl h)) Or.inl)
  · obtain ⟨hsize, hmalloc⟩ := not_or.mp hnull
    -- only the text decides
    rw [or_iff_right hmalloc, or_iff_right hsize, ← base64Fill_defined_iff code.bytes fresh,
      base64DecodeBlock_of_malloc fresh hsize (Bool.not_eq_false _ ▸ hmalloc)]
    cases base64Fill code.bytes fresh with
    | none => exact iff_of_false (fun ⟨_, h⟩ => nomatch h) (fun ⟨_, h⟩ => nomatch h)
    | some res => exact iff_of_true ⟨_, rfl⟩ ⟨_, rfl⟩

/-- A text with the usual padding is decoded past the end of the block. -/
theorem base64DecodeBlock_undefined_padded :
    ¬∀ (code : CString) (fresh : ℕ → UInt8) (env : Env) (c : Cursor),
      ∃ r, base64DecodeBlock code fresh env c = some r := by
  intro h
  obtain ⟨r, hr⟩ := h ⟨ascii "YQ==", by decide⟩ (fun _ => 0) Env.plentiful default
  rw [base64DecodeBlock_of_malloc _ (by decide +kernel) rfl] at hr
  obtain ⟨res, hres, -⟩ := Option.map_eq_some_iff.mp hr
  exact ((base64Fill_defined_iff _ _).mp ⟨res, hres⟩).double (by decide)

/-! ### The same result -/

theorem base64StrLen_eq (code : List UInt8) [Decidable (ascii "==" <:+: code)]
    [Decidable (ascii "=" <:+: code)] :
    ((code.length / 4 * 3 : ℕ) : ℤ) -
      (if ascii "==" <:+: code then 2 else if ascii "=" <:+: code then 1 else 0) =
      base64StrLen code := by
  unfold base64StrLen
  dsimp only
  by_cases hdouble : ascii "==" <:+: code
  · rw [if_pos hdouble, if_pos hdouble]
  · rw [if_neg hdouble, if_neg hdouble]
    by_cases hsingle : ascii "=" <:+: code
    · rw [if_pos hsingle, if_pos hsingle]
    · rw [if_neg hsingle, if_neg hsingle, sub_zero]

/-- The block after the loop: the decoded bytes, and the terminator when it has not been
overwritten. -/
theorem base64Fill_eq_take {code : List UInt8} {fresh : ℕ → UInt8} {res : List UInt8}
    (h : base64Fill code fresh = some res) :
    ∃ decoded, base64Groups ((code.length + 1) / 4) (code ++ [0]) = some decoded ∧
      res = (decoded ++ [0]).take ((base64StrLen code).toNat + 1) := by
  have hinside := (base64Fill_defined_iff code fresh).mp ⟨res, h⟩
  obtain ⟨hstr, hroom⟩ := (base64StrLen_room_iff hinside.two_le).mpr
    ⟨hinside.length_mod, hinside.double, hinside.short⟩
  have hrounds : (base64Bound code.length + 3) / 4 = (code.length + 1) / 4 := by
    have htwo := hinside.two_le
    rw [base64Bound, if_neg (by omega)]
    omega
  rw [base64Fill_eq code fresh hstr, hrounds] at h
  obtain ⟨decoded, hdecoded, h⟩ := Option.bind_eq_some_iff.mp h
  obtain ⟨-, h⟩ := Option.ite_none_right_eq_some.mp h
  cases h
  refine ⟨decoded, hdecoded, ?_⟩
  have hlow : (base64StrLen code).toNat ≤ decoded.length := by
    rw [length_base64Groups hdecoded, ← base64StrLen_eq]
    split <;> omega
  -- the terminator stays, or the last group has one byte more than the text
  by_cases hend : decoded.length = (base64StrLen code).toNat
  · rw [hend, drop_base64Start hstr, ← hend, List.take_of_length_le (by simp)]
  · have hfull : decoded.length = (base64StrLen code).toNat + 1 := by
      rw [← length_base64Groups hdecoded] at hroom
      omega
    rw [← hfull, List.drop_of_length_le (by rw [length_base64Start hstr, hfull]), List.append_nil,
      List.take_left]

/-- **The result** is that of `base64Decode`, if there is a zero byte in it. -/
theorem base64Decode_of_defined {code : CString} {fresh : ℕ → UInt8} {c c' : Cursor}
    {res : List UInt8} {block : CharBlock} (hblock : block.text = code.bytes)
    (h : base64DecodeBlock code fresh env c = some (some res, c')) (hzero : 0 ∈ res) :
    base64Decode block env c = some (some ⟨res, hzero⟩, c') := by
  by_cases hnull : base64StrLen code.bytes + 1 < 0 ∨ env.mallocs c.malloc = false
  · obtain ⟨c'', hnone⟩ := base64DecodeBlock_of_null code fresh hnull
    cases h.symm.trans hnone
  · obtain ⟨hsize, hmalloc⟩ := not_or.mp hnull
    rw [Bool.not_eq_false] at hmalloc
    rw [base64DecodeBlock_of_malloc fresh hsize hmalloc] at h
    obtain ⟨res', hfill, h⟩ := Option.map_eq_some_iff.mp h
    cases h
    have hinside := (base64Fill_defined_iff _ _).mp ⟨res, hfill⟩
    obtain ⟨hstr, -⟩ := (base64StrLen_room_iff hinside.two_le).mpr
      ⟨hinside.length_mod, hinside.double, hinside.short⟩
    have htwo := hinside.two_le
    obtain ⟨decoded, hdecoded, rfl⟩ := base64Fill_eq_take hfill
    unfold base64Decode
    rw [hblock]
    dsimp only
    rw [base64StrLen_eq, if_neg (by omega), bind_apply]
    simp only [malloc, hmalloc, Option.bind_some, Bool.not_true, Bool.false_eq_true, if_false]
    rw [if_neg (by omega), hdecoded]
    show (pure decoded >>= _ : Sdk _) env _ = _
    rw [pure_bind, dif_pos hzero]
    rfl

end IotDeviceSdk.Base

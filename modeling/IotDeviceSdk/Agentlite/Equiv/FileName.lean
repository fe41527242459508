import IotDeviceSdk.Agentlite.PackageUrl

/-!
# The two scanners for file names

Both scanners look for the last `'/'` in front of the first `'?'` of a URL.

* `iotaOTAv2GetFileNameFromUrl_name`, `getFileNameToUrl_name`: the text between them is the name.
* `iotaOTAv2GetFileNameFromUrl_no_name`, `getFileNameToUrl_no_name`: without a `'/'` both fail.
* `fileNamesAgree_iff`: the first has nowhere to start when there is no `'?'`, and the second no
  room for the terminator when the `'?'` is at the index 1024.  For all other URLs they are defined
  and agree.
-/

namespace IotDeviceSdk.Agentlite

open Text

variable {before after name text : List UInt8}

/-! ### Bounds-checked copies -/

/-- A buffer with room for `count` characters and a terminator. -/
structure Room (buffer : List UInt8) (count : ℕ) : Prop where
  count_lt : count < buffer.length
  length_le : buffer.length ≤ SECUREC_STRING_MAX_LEN

theorem Room.mono {buffer : List UInt8} {count count' : ℕ} (h : Room buffer count)
    (hle : count' ≤ count) : Room buffer count' :=
  ⟨hle.trans_lt h.count_lt, h.length_le⟩

theorem cString_overwrite_zero {dest : List UInt8} (hname : 0 ∉ name) :
    cString (overwrite dest 0 (name ++ [0])) = name := by
  rw [overwrite, List.take_zero, List.nil_append, List.append_assoc]
  exact cString_append_zero hname

/-- A copy of the first characters of a text. -/
theorem strncpyS_eq {dest : List UInt8} (hroom : Room dest name.length) (after : List UInt8) :
    strncpyS dest (name ++ after) name.length = (overwrite dest 0 (name ++ [0]), EOK) := by
  have hlt := hroom.count_lt
  have hle := hroom.length_le
  unfold strncpyS
  dsimp only
  rw [if_neg (by omega), if_neg (by omega), if_neg, List.take_left]
  rw [List.length_append]
  omega

/-- A copy to the start of a buffer of zeros. -/
theorem memcpyS_replicate (src : List UInt8) {n count : ℕ} (hrange : CopyInRange n count)
    (hsrc : count ≤ src.length) :
    memcpyS (List.replicate n 0) n src count =
      some (overwrite (List.replicate n 0) 0 (src.take count), EOK) := by
  rw [memcpyS_eq hrange (le_of_eq List.length_replicate.symm) hsrc]
  rfl

theorem overwrite_replicate (name : List UInt8) (n : ℕ) :
    overwrite (List.replicate n 0) 0 name = name ++ List.replicate (n - name.length) 0 := by
  rw [overwrite, List.take_zero, List.nil_append, Nat.zero_add, List.drop_replicate]

theorem overwrite_replicate_of_lt {n : ℕ} (hlt : name.length < n) :
    overwrite (List.replicate n 0) 0 name =
      name ++ 0 :: List.replicate (n - name.length - 1) 0 := by
  obtain ⟨k, hk⟩ : ∃ k, n - name.length = k + 1 := ⟨n - name.length - 1, by omega⟩
  rw [overwrite_replicate, hk, List.replicate_succ, Nat.add_sub_cancel]

/-! ### Going back -/

/-- The loop passes over characters that are not `'/'`. -/
theorem slashIndex_pass (start : List UInt8) {m : ℕ} {mid : List UInt8}
    (hstart : start.length = m + 1) (hmid : slash ∉ mid) (rest : List UInt8) :
    slashIndex (start ++ mid ++ rest) (m + mid.length) = slashIndex (start ++ mid ++ rest) m := by
  -- the loop goes back, so the last character of `mid` is read first
  induction mid using List.reverseRecOn generalizing rest with
  | nil => rfl
  | append_singleton mid c ih =>
    rw [List.mem_append, not_or, List.mem_singleton] at hmid
    have hread : (start ++ (mid ++ [c]) ++ rest)[m + mid.length + 1]? = some c := by
      rw [List.append_assoc, List.append_assoc, List.getElem?_append_right (by omega),
        List.getElem?_append_right (by omega)]
      -- the character at the pointer is the one behind `start` and `mid`
      have hzero : m + mid.length + 1 - start.length - mid.length = 0 := by omega
      rw [hzero]
      rfl
    have hlength : m + (mid ++ [c]).length = m + mid.length + 1 := by
      rw [List.length_append, List.length_singleton]
      omega
    have hsplit : start ++ (mid ++ [c]) ++ rest = start ++ mid ++ (c :: rest) := by simp
    rw [hlength, slashIndex, hread, Option.bind_eq_bind, Option.bind_some,
      if_neg (Ne.symm hmid.2), hsplit]
    exact ih hmid.1 (c :: rest)

/-- The loop finds the last `'/'`, if it is not the first character of the URL. -/
theorem slashIndex_name (hbefore : before ≠ []) (hname : slash ∉ name) (after : List UInt8) :
    slashIndex (before ++ slash :: (name ++ questionMark :: after))
      (before ++ slash :: name).length = some (some before.length) := by
  have hsplit : before ++ slash :: (name ++ questionMark :: after) =
      (before ++ [slash]) ++ (name ++ [questionMark]) ++ after := by simp
  have hmid : slash ∉ name ++ [questionMark] := by
    simpa [slash, questionMark] using hname
  have hpass := slashIndex_pass (before ++ [slash]) (m := before.length) (by simp) hmid after
  have hlength : before.length + (name ++ [questionMark]).length =
      (before ++ slash :: name).length := by
    simp
  rw [hlength, ← hsplit] at hpass
  rw [hpass]
  obtain ⟨k, hk⟩ : ∃ k, before.length = k + 1 :=
    ⟨before.length - 1, by have := List.length_pos_iff.mpr hbefore; omega⟩
  have hread : (before ++ slash :: (name ++ questionMark :: after))[k + 1]? = some slash := by
    rw [← hk, List.getElem?_append_right (le_refl _), Nat.sub_self]
    rfl
  -- the loop stops at a positive index only
  rw [hk, slashIndex, hread, Option.bind_eq_bind, Option.bind_some, if_pos rfl]
  rfl

/-- The loop finds nothing behind the first character. -/
theorem slashIndex_none (hfree : slash ∉ text.tail) (after : List UInt8) :
    slashIndex (text ++ questionMark :: after) text.length = some none := by
  cases text with
  | nil => rfl
  | cons c text =>
    have hmid : slash ∉ text ++ [questionMark] := by
      simpa [slash, questionMark] using hfree
    have hpass := slashIndex_pass [c] (m := 0) rfl hmid after
    have hsplit : [c] ++ (text ++ [questionMark]) ++ after =
        c :: text ++ questionMark :: after := by
      simp
    have hlength : 0 + (text ++ [questionMark]).length = (c :: text).length := by simp
    rw [hsplit, hlength] at hpass
    rw [hpass]
    rfl

/-! ### `IOTA_OTAv2GetFileNameFromUrl` -/

/-- The text in front of the first `'?'`. -/
theorem findFirst_question (hquery : questionMark ∉ text) (after : List UInt8) :
    findFirst HTTP_URL_QUERY_START_MARK (text ++ questionMark :: after) =
      some (questionMark :: after) :=
  findFirst_singleton hquery

theorem length_sub_question (text after : List UInt8) :
    (text ++ questionMark :: after).length - (questionMark :: after).length = text.length := by
  rw [List.length_append, Nat.add_sub_cancel]

theorem iotaOTAv2GetFileNameFromUrl_eq {url : CString} (fileName : List UInt8)
    (hurl : url.bytes = text ++ questionMark :: after) (hquery : questionMark ∉ text) :
    iotaOTAv2GetFileNameFromUrl url fileName = (do
      match ← slashIndex url.bytes text.length with
      | none => return (IOTA_FAILURE, fileName)
      | some start =>
        let start := start + 1
        let (fileName, ret) := strncpyS fileName (url.bytes.drop start) (text.length - start)
        return (if ret ≠ EOK then IOTA_FAILURE else IOTA_SUCCESS, fileName)) := by
  unfold iotaOTAv2GetFileNameFromUrl
  rw [hurl, findFirst_question hquery]
  dsimp only
  rewrite [length_sub_question]
  rfl

/-- **The name** between the last `'/'` and the first `'?'`. -/
theorem iotaOTAv2GetFileNameFromUrl_name {url : CString} {fileName : List UInt8}
    (hurl : url.bytes = before ++ slash :: name ++ questionMark :: after) (hbefore : before ≠ [])
    (hname : slash ∉ name) (hquery : questionMark ∉ before ++ slash :: name)
    (hroom : Room fileName name.length) :
    iotaOTAv2GetFileNameFromUrl url fileName =
      some (IOTA_SUCCESS, overwrite fileName 0 (name ++ [0])) := by
  have hsplit : before ++ slash :: name ++ questionMark :: after =
      before ++ slash :: (name ++ questionMark :: after) := by simp
  have hdrop : (before ++ slash :: (name ++ questionMark :: after)).drop (before.length + 1) =
      name ++ questionMark :: after := by
    rw [List.drop_append, List.drop_of_length_le (by omega), Nat.add_sub_cancel_left]
    rfl
  have hcount : (before ++ slash :: name).length - (before.length + 1) = name.length := by
    rw [List.length_append, List.length_cons]
    omega
  rw [iotaOTAv2GetFileNameFromUrl_eq fileName hurl hquery, hurl, hsplit,
    slashIndex_name hbefore hname, Option.bind_eq_bind, Option.bind_some]
  dsimp only
  rw [hdrop, hcount, strncpyS_eq hroom]
  rfl

theorem iotaOTAv2GetFileNameFromUrl_no_name {url : CString} (fileName : List UInt8)
    (hurl : url.bytes = text ++ questionMark :: after) (hfree : slash ∉ text.tail)
    (hquery : questionMark ∉ text) :
    iotaOTAv2GetFileNameFromUrl url fileName = some (IOTA_FAILURE, fileName) := by
  rw [iotaOTAv2GetFileNameFromUrl_eq fileName hurl hquery, hurl, slashIndex_none hfree]
  rfl

/-- There is a name, or there is none behind the first character. -/
theorem exists_name_or (text : List UInt8) :
    (∃ before name, text = before ++ slash :: name ∧ before ≠ [] ∧ slash ∉ name) ∨
      slash ∉ text.tail := by
  by_cases hmem : slash ∈ text.tail
  · obtain ⟨before, name, htail, hname⟩ := eq_append_last_of_mem hmem
    cases text with
    | nil => cases hmem
    | cons c text =>
      left
      exact ⟨c :: before, name, congrArg (c :: ·) htail, by simp, hname⟩
  · exact Or.inr hmem

/-- It is defined when there is a `'?'`. -/
theorem iotaOTAv2GetFileNameFromUrl_defined_iff (url : CString) (fileName : List UInt8) :
    (∃ r, iotaOTAv2GetFileNameFromUrl url fileName = some r) ↔ questionMark ∈ url.bytes := by
  by_cases hmem : questionMark ∈ url.bytes
  · refine iff_of_true ?_ hmem
    obtain ⟨text, after, hurl, hquery⟩ := List.eq_append_cons_of_mem hmem
    rcases exists_name_or text with ⟨before, name, rfl, hbefore, hname⟩ | hfree
    · have hsplit : before ++ slash :: name ++ questionMark :: after =
          before ++ slash :: (name ++ questionMark :: after) := by simp
      rw [iotaOTAv2GetFileNameFromUrl_eq fileName hurl hquery, hurl, hsplit,
        slashIndex_name hbefore hname]
      exact ⟨_, rfl⟩
    · exact ⟨_, iotaOTAv2GetFileNameFromUrl_no_name fileName hurl hfree hquery⟩
  · have hnone : findFirst HTTP_URL_QUERY_START_MARK url.bytes = none :=
      strchr_eq_none_iff.mpr hmem
    -- `strstr` returns `NULL`, and the pointer is read from there
    refine iff_of_false ?_ hmem
    unfold iotaOTAv2GetFileNameFromUrl
    rw [hnone]
    simp

/-! ### `getFileNameToUrl` -/

/-- The buffer `data` after the copy of a text that is shorter. -/
theorem getFileNameToUrl_eq {url : CString} (fileName : List UInt8)
    (hurl : url.bytes = text ++ questionMark :: after) (hquery : questionMark ∉ text)
    (hlength : text.length < 1024) :
    getFileNameToUrl url fileName =
      match strrchr text slash with
      | none => some (IOTA_FAILURE, fileName)
      | some begin => (do
        let (fileName, ret) ← memcpyS fileName fileName.length begin.tail (begin.length - 1)
        return (if ret ≠ 0 then IOTA_FAILURE else IOTA_SUCCESS, fileName)) := by
  have hzero : 0 ∉ text := fun hmem => url.zero_not_mem (hurl ▸ List.mem_append_left _ hmem)
  have hrange : CopyInRange 1024 text.length := ⟨by decide, by decide, by omega⟩
  have hcopy := memcpyS_replicate (text ++ questionMark :: after) hrange (by simp)
  rw [List.take_left] at hcopy
  rw [overwrite_replicate_of_lt hlength] at hcopy
  unfold getFileNameToUrl
  rw [hurl, strchr_append hquery]
  dsimp only
  rw [length_sub_question, hcopy, Option.bind_eq_bind, Option.bind_some]
  dsimp only
  rw [if_neg (by decide), if_neg (by simp), cString_append_zero hzero]
  rfl

theorem getFileNameToUrl_name {url : CString} {n : ℕ}
    (hurl : url.bytes = before ++ slash :: name ++ questionMark :: after) (hname : slash ∉ name)
    (hquery : questionMark ∉ before ++ slash :: name)
    (hlength : (before ++ slash :: name).length < 1024)
    (hroom : Room (List.replicate n 0) name.length) :
    getFileNameToUrl url (List.replicate n 0) =
      some (IOTA_SUCCESS, name ++ 0 :: List.replicate (n - name.length - 1) 0) := by
  have hlt := hroom.count_lt
  have hle := hroom.length_le
  rw [List.length_replicate] at hlt hle
  have hrange : CopyInRange n name.length := ⟨by omega, hle, hlt.le⟩
  have hcopy := memcpyS_replicate name hrange (le_refl name.length)
  rw [List.take_length, overwrite_replicate_of_lt hlt] at hcopy
  have hcount : (slash :: name).length - 1 = name.length := rfl
  rw [getFileNameToUrl_eq _ hurl hquery hlength, strrchr_append hname]
  dsimp only [List.tail_cons]
  rw [List.length_replicate, hcount, hcopy]
  rfl

theorem getFileNameToUrl_no_name {url : CString} (fileName : List UInt8)
    (hurl : url.bytes = text ++ questionMark :: after) (hfree : slash ∉ text)
    (hquery : questionMark ∉ text) (hlength : text.length < 1024) :
    getFileNameToUrl url fileName = some (IOTA_FAILURE, fileName) := by
  rw [getFileNameToUrl_eq fileName hurl hquery hlength, strrchr_of_not_mem hfree]

/-- A copy to a buffer that is as large as it is said to be is defined. -/
theorem memcpyS_defined (fileName src : List UInt8) {count : ℕ} (hcount : count ≤ src.length) :
    ∃ r, memcpyS fileName fileName.length src count = some r := by
  by_cases hrange : CopyInRange fileName.length count
  · exact ⟨_, memcpyS_eq hrange (le_refl _) hcount⟩
  · obtain ⟨dest, error, h, -⟩ := memcpyS_error src hrange (le_refl fileName.length)
    exact ⟨_, h⟩

/-- It is defined unless the first `'?'` is where the terminator of the buffer should be. -/
theorem getFileNameToUrl_defined_iff {url : CString} (fileName : List UInt8)
    (hurl : url.bytes = text ++ questionMark :: after) (hquery : questionMark ∉ text) :
    (∃ r, getFileNameToUrl url fileName = some r) ↔ text.length ≠ 1024 := by
  have hzero : 0 ∉ text := fun hmem => url.zero_not_mem (hurl ▸ List.mem_append_left _ hmem)
  rcases Nat.lt_trichotomy text.length 1024 with hlt | heq | hgt
  · refine iff_of_true ?_ hlt.ne
    rw [getFileNameToUrl_eq fileName hurl hquery hlt]
    cases hslash : strrchr text slash with
    | none => exact ⟨_, rfl⟩
    | some begin =>
      have hcount : begin.length - 1 ≤ begin.tail.length := le_of_eq List.length_tail.symm
      obtain ⟨r, hr⟩ := memcpyS_defined fileName begin.tail hcount
      dsimp only
      rw [hr]
      exact ⟨_, rfl⟩
  · -- the copy fits, and leaves no zero in `data` for `strrchr` to stop at
    refine iff_of_false ?_ (not_not.mpr heq)
    have hrange : CopyInRange 1024 text.length := ⟨by decide, by decide, by omega⟩
    have hcopy := memcpyS_replicate (text ++ questionMark :: after) hrange (by simp)
    rw [List.take_left, overwrite_replicate, heq, Nat.sub_self, List.replicate_zero,
      List.append_nil] at hcopy
    unfold getFileNameToUrl
    rw [hurl, strchr_append hquery]
    dsimp only
    rw [length_sub_question, heq, hcopy, Option.bind_eq_bind, Option.bind_some]
    dsimp only
    rw [if_neg (by decide), if_pos hzero]
    simp
  · -- the copy fails, which is checked
    refine iff_of_true ?_ hgt.ne'
    have hrange : ¬CopyInRange 1024 text.length := fun h => absurd h.2.2 (by omega)
    have hdest : 1024 ≤ (List.replicate 1024 (0 : UInt8)).length :=
      le_of_eq List.length_replicate.symm
    obtain ⟨data, error, hcopy, herror⟩ :=
      memcpyS_error (text ++ questionMark :: after) hrange hdest
    unfold getFileNameToUrl
    rw [hurl, strchr_append hquery]
    dsimp only
    rw [length_sub_question, hcopy, Option.bind_eq_bind, Option.bind_some]
    dsimp only
    rw [if_pos (show error ≠ 0 from herror)]
    exact ⟨_, rfl⟩

/-! ### Both scanners -/

/-- The name of a file in a URL: the text between the last `'/'` in front of the first `'?'`, and
that `'?'`. -/
structure IsFileName (url name : List UInt8) : Prop where
  url_eq : ∃ before after, url = before ++ slash :: name ++ questionMark :: after ∧
    questionMark ∉ before ++ slash :: name
  slash_not_mem : slash ∉ name

/-- **The scanners agree** on a URL: both are defined, and when the URL does not start with a `'/'`,
the first `'?'` is at an index below 1024 and there is room, they return the same and leave the same
name, or both fail. -/
structure FileNamesAgree (url : CString) (fileName fileName' : List UInt8) : Prop where
  defined : (∃ r, iotaOTAv2GetFileNameFromUrl url fileName = some r) ∧
    ∃ r, getFileNameToUrl url fileName' = some r
  agree : ∀ text after, url.bytes = text ++ questionMark :: after → questionMark ∉ text →
    url.bytes.head? ≠ some slash → text.length < 1024 → Room fileName text.length →
    Room fileName' text.length →
      (∃ name left left', IsFileName url.bytes name ∧
        iotaOTAv2GetFileNameFromUrl url fileName = some (IOTA_SUCCESS, left) ∧
        getFileNameToUrl url fileName' = some (IOTA_SUCCESS, left') ∧
        cString left = name ∧ cString left' = name) ∨
      ((¬∃ name, IsFileName url.bytes name) ∧
        iotaOTAv2GetFileNameFromUrl url fileName = some (IOTA_FAILURE, fileName) ∧
        getFileNameToUrl url fileName' = some (IOTA_FAILURE, fileName'))

/-- The two names, for a URL that does not start with a `'/'`. -/
theorem fileNames_agree {url : CString} {fileName : List UInt8} {n : ℕ}
    (hurl : url.bytes = text ++ questionMark :: after) (hquery : questionMark ∉ text)
    (hhead : url.bytes.head? ≠ some slash) (hlength : text.length < 1024)
    (hroom : Room fileName text.length) (hroom' : Room (List.replicate n 0) text.length) :
    (∃ name left left', IsFileName url.bytes name ∧
      iotaOTAv2GetFileNameFromUrl url fileName = some (IOTA_SUCCESS, left) ∧
      getFileNameToUrl url (List.replicate n 0) = some (IOTA_SUCCESS, left') ∧
      cString left = name ∧ cString left' = name) ∨
    ((¬∃ name, IsFileName url.bytes name) ∧
      iotaOTAv2GetFileNameFromUrl url fileName = some (IOTA_FAILURE, fileName) ∧
      getFileNameToUrl url (List.replicate n 0) = some (IOTA_FAILURE, List.replicate n 0)) := by
  rcases exists_name_or text with ⟨before, name, rfl, hbefore, hname⟩ | hfree
  · left
    have hle : name.length ≤ (before ++ slash :: name).length := by
      rw [List.length_append, List.length_cons]
      omega
    have hzero : 0 ∉ name := by
      intro hmem
      refine url.zero_not_mem ?_
      rw [hurl]
      simp [hmem]
    exact ⟨name, _, _, ⟨⟨before, after, hurl, hquery⟩, hname⟩,
      iotaOTAv2GetFileNameFromUrl_name hurl hbefore hname hquery (hroom.mono hle),
      getFileNameToUrl_name hurl hname hquery hlength (hroom'.mono hle),
      cString_overwrite_zero hzero, cString_append_zero hzero⟩
  · right
    -- without a `'/'` in front the second scanner does not find the first character either
    have hslash : slash ∉ text := by
      cases text with
      | nil => simp
      | cons c text =>
        rw [hurl, List.cons_append, List.head?_cons] at hhead
        rw [List.mem_cons, not_or]
        exact ⟨fun h => hhead (congrArg some h.symm), hfree⟩
    refine ⟨?_, iotaOTAv2GetFileNameFromUrl_no_name fileName hurl hfree hquery,
      getFileNameToUrl_no_name _ hurl hslash hquery hlength⟩
    -- a name would put a `'/'` into the text in front of the first `'?'`
    rintro ⟨name, ⟨before, after', hurl', hquery'⟩, -⟩
    obtain ⟨rfl, -⟩ := append_cons_inj hquery hquery' (hurl.symm.trans hurl')
    exact hslash (by simp)

/-- **The scanners agree** exactly on the URLs with a `'?'` of which the first is not at the index
1024.  The buffer of `getFileNameToUrl`, which writes no terminator, is zeroed by its callers. -/
theorem fileNamesAgree_iff (url : CString) (fileName : List UInt8) (n : ℕ) :
    FileNamesAgree url fileName (List.replicate n 0) ↔
      ∃ text after, url.bytes = text ++ questionMark :: after ∧ questionMark ∉ text ∧
        text.length ≠ 1024 := by
  constructor
  · rintro ⟨⟨hdefined, hdefined'⟩, -⟩
    rw [iotaOTAv2GetFileNameFromUrl_defined_iff] at hdefined
    obtain ⟨text, after, hurl, hquery⟩ := List.eq_append_cons_of_mem hdefined
    exact ⟨text, after, hurl, hquery, (getFileNameToUrl_defined_iff _ hurl hquery).mp hdefined'⟩
  · rintro ⟨text, after, hurl, hquery, hne⟩
    refine ⟨⟨?_, (getFileNameToUrl_defined_iff _ hurl hquery).mpr hne⟩, ?_⟩
    · rw [iotaOTAv2GetFileNameFromUrl_defined_iff, hurl]
      simp
    · intro text' after' hurl' hquery' hhead hlength hroom hroom'
      exact fileNames_agree hurl' hquery' hhead hlength hroom hroom'

/-- A URL without a `'?'` is read from a `NULL` on. -/
theorem fileNamesAgree_no_query :
    ¬∀ (url : CString) (fileName : List UInt8) (n : ℕ),
      FileNamesAgree url fileName (List.replicate n 0) := by
  intro h
  obtain ⟨r, hr⟩ := (h ⟨ascii "https://h/f.bin", by decide⟩ [] 1024).defined.1
  cases hr

end IotDeviceSdk.Agentlite

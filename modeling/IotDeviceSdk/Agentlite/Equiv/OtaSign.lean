import IotDeviceSdk.Agentlite.IotaDatatrans

/-!
# The signature of an OTA package

`IOTA_OTAVerifySign` should succeed exactly for the hexadecimal digest of the file
(`VerifiesSign`).  It succeeds for each signature that has not 64 characters, and for no other: two
digits and a terminator do not fit the two bytes of `mac32`, so each comparison is with an empty
text (`compareSign_two`).  What is left are the wrong signatures of 64 characters
(`verifiesSign_iff`).

The digest it compares with is that of the whole file, however it is read (`hashFile_eq`).
-/

namespace IotDeviceSdk.Agentlite

open Prog Crypto

variable {env : OtaEnv} {sha256 : IncrementalHash SHA256_DIGEST_LENGTH} {sign : Option CString}
  {otaFilePath : Option String} {otaFilename : String} {content : List UInt8}

/-- The path of a package. -/
def packagePath (otaFilePath : Option String) (otaFilename : String) : String :=
  match otaFilePath with
  | none => otaFilename
  | some path =>
    if strEndWith (some path) (some "/") then path ++ otaFilename else path ++ "/" ++ otaFilename

/-- The package is a file with this content, and there is memory for its path. -/
structure ReadablePackage (env : OtaEnv) (otaFilePath : Option String) (otaFilename : String)
    (content : List UInt8) : Prop where
  allocsSucceed : env.sdk.AllocsSucceed
  path_ne : otaFilePath ≠ some ""
  file : env.files (env.realpath (packagePath otaFilePath otaFilename)) = some content

/-- The signature of a file: the lowercase hexadecimal text of its digest. -/
def IsSignOf (sha256 : IncrementalHash SHA256_DIGEST_LENGTH) (sign : Option CString)
    (content : List UInt8) : Prop :=
  ∃ text, sign = some text ∧ text.bytes = hexText (sha256.digest content)

/-- **Soundness and completeness of the check.** -/
def VerifiesSign (env : OtaEnv) (sha256 : IncrementalHash SHA256_DIGEST_LENGTH)
    (sign : Option CString) (otaFilePath : Option String) (otaFilename : String)
    (content : List UInt8) : Prop :=
  Returns env (iotaOTAVerifySign sha256 sign otaFilePath otaFilename) fun r =>
    r = IOTA_SUCCESS ↔ IsSignOf sha256 sign content

/-! ### The file -/

/-- The digest is that of the whole file. -/
theorem hashFile_eq (context : sha256.Context) (file : List UInt8) :
    hashFile sha256 context file = sha256.update context file := by
  induction hlength : file.length using Nat.strong_induction_on generalizing context file with
  | _ n ih =>
    rw [hashFile]
    by_cases hfile : file = []
    · rw [if_pos hfile, hfile, sha256.update_nil]
    · have hpos : file.length ≠ 0 := by simpa using hfile
      have hdrop : (file.drop 1024).length < n := by
        rw [List.length_drop]
        omega
      rw [if_neg hfile, ih _ hdrop _ _ rfl, sha256.update_take_drop]

theorem liftSdk_returns {α : Type} {p : Sdk α} {Q : α → Prop} (h : Returns env.sdk p Q) :
    Returns env (liftSdk p) Q := h

theorem read_returns : Returns env (read : Ota OtaEnv) fun r => env = r :=
  fun s => ⟨env, s, rfl, rfl⟩

/-- The texts are joined when there is memory. -/
theorem combineStrings_eq {env : Env} (hA : env.AllocsSucceed) {path text : String}
    (hne : path ≠ "") (args : List (Option String))
    (htext : text.toList = path.toList ++ (args.map fun arg => (arg.getD "").toList).flatten) :
    Returns env (combineStrings (some path) args) fun r => r = some text := by
  apply (combineStrings_returns hne args).mono
  rintro r ⟨hr, hsome⟩
  obtain ⟨topic, rfl⟩ := Option.isSome_iff_exists.mp (hsome hA)
  rw [String.toList_inj.mp ((hr topic rfl).trans htext.symm)]

theorem canonicalFilePath_returns (hA : env.sdk.AllocsSucceed) (hne : otaFilePath ≠ some "") :
    Returns env (canonicalFilePath otaFilePath otaFilename) fun r =>
      r = some (env.realpath (packagePath otaFilePath otaFilename)) := by
  unfold canonicalFilePath
  apply read_returns.bind
  rintro _ rfl
  cases otaFilePath with
  | none => exact returns_pure rfl
  | some path =>
    have hpath : path ≠ "" := fun h => hne (by rw [h])
    have hjoin : Returns env (liftSdk <|
        if strEndWith (some path) (some "/") then combineStrings (some path) [some otaFilename]
        else combineStrings (some path) [some "/", some otaFilename])
        fun r => r = some (packagePath (some path) otaFilename) := by
      apply liftSdk_returns
      by_cases hend : strEndWith (some path) (some "/") = true
      · have hpackage : packagePath (some path) otaFilename = path ++ otaFilename := if_pos hend
        rw [if_pos hend, hpackage]
        exact combineStrings_eq hA hpath _ (by simp)
      · have hpackage : packagePath (some path) otaFilename = path ++ "/" ++ otaFilename :=
          if_neg hend
        rw [if_neg hend, hpackage]
        exact combineStrings_eq hA hpath _ (by simp)
    apply hjoin.bind
    rintro _ rfl
    exact returns_pure rfl

/-! ### The comparison -/

/-- Two digits do not fit a buffer of two bytes: it holds an empty text. -/
theorem snprintfS_hexByte (mac32 : List UInt8) (h : UInt8) :
    (snprintfS mac32 2 2 (hexByte h)).1 = 0 :: mac32.tail := rfl

/-- The first comparison fails, whatever the digest is. -/
theorem compareSign_two {hash text mac32 : List UInt8} (hhash : hash ≠ []) (htext : text ≠ [])
    (hzero : 0 ∉ text) : compareSign 2 hash text mac32 = IOTA_FAILURE := by
  obtain ⟨h, hash, rfl⟩ := List.exists_cons_of_ne_nil hhash
  obtain ⟨c, text, rfl⟩ := List.exists_cons_of_ne_nil htext
  have hdiffer : (c :: text).take 2 ≠ (snprintfS mac32 2 2 (hexByte h)).1.take 2 := by
    rw [snprintfS_hexByte]
    intro heq
    exact hzero (by simp [(List.cons.inj heq).1])
  unfold compareSign
  rw [if_pos hdiffer]

/-- **What `IOTA_OTAVerifySign` answers**: success unless the signature has 64 characters. -/
theorem iotaOTAVerifySign_returns
    (hreadable : ReadablePackage env otaFilePath otaFilename content) :
    Returns env (iotaOTAVerifySign sha256 sign otaFilePath otaFilename) fun r =>
      r = IOTA_SUCCESS ↔
        ∀ text, sign = some text → text.bytes.length ≠ SHA256_DIGEST_LENGTH * 2 := by
  cases sign with
  | none => exact returns_pure (by simp [IOTA_SUCCESS])
  | some text =>
    unfold iotaOTAVerifySign
    by_cases hlength : text.bytes.length = SHA256_DIGEST_LENGTH * 2
    · have hfails : ¬∀ text', some text = some text' →
          text'.bytes.length ≠ SHA256_DIGEST_LENGTH * 2 := fun h => h text rfl hlength
      have hhash : sha256.final (hashFile sha256 sha256.init content) ≠ [] := by
        intro h
        have hdigest := sha256.length_final (hashFile sha256 sha256.init content)
        rw [h] at hdigest
        cases hdigest
      have htext : text.bytes ≠ [] := by
        intro h
        rw [h] at hlength
        cases hlength
      simp only [hlength, ne_eq, not_true_eq_false, if_false]
      apply (canonicalFilePath_returns hreadable.allocsSucceed hreadable.path_ne).bind
      rintro _ rfl
      apply read_returns.bind
      rintro _ rfl
      simp only [hreadable.file]
      rw [compareSign_two hhash htext text.zero_not_mem]
      exact returns_pure (iff_of_false (by decide) hfails)
    · have hholds : ∀ text', some text = some text' →
          text'.bytes.length ≠ SHA256_DIGEST_LENGTH * 2 := by
        rintro _ ⟨⟩
        exact hlength
      simp only [ne_eq, hlength, not_false_eq_true, if_true]
      exact returns_pure (iff_of_true rfl hholds)

/-- A signature of a file has 64 characters. -/
theorem IsSignOf.length_eq (h : IsSignOf sha256 sign content) :
    ∃ text, sign = some text ∧ text.bytes.length = SHA256_DIGEST_LENGTH * 2 := by
  obtain ⟨text, hsign, htext⟩ := h
  refine ⟨text, hsign, ?_⟩
  rw [htext, length_hexText, sha256.length_digest, mul_comm]

/-- The check is right when the signatures it accepts are those of the file. -/
theorem verifiesSign_iff_accepts
    (hreadable : ReadablePackage env otaFilePath otaFilename content) :
    VerifiesSign env sha256 sign otaFilePath otaFilename content ↔
      ((∀ text, sign = some text → text.bytes.length ≠ SHA256_DIGEST_LENGTH * 2) ↔
        IsSignOf sha256 sign content) := by
  have hreturns := @iotaOTAVerifySign_returns env sha256 sign _ _ _ hreadable
  constructor
  · intro h
    obtain ⟨r, hr, hright⟩ := h.exists_outcome
    exact (hreturns.yields r hr).symm.trans hright
  · intro h
    apply hreturns.mono
    intro r hr
    rw [hr, h]

/-- **Exactly the wrong signatures of 64 characters are judged rightly.** -/
theorem verifiesSign_iff (hreadable : ReadablePackage env otaFilePath otaFilename content) :
    VerifiesSign env sha256 sign otaFilePath otaFilename content ↔
      ∃ text, sign = some text ∧ text.bytes.length = SHA256_DIGEST_LENGTH * 2 ∧
        text.bytes ≠ hexText (sha256.digest content) := by
  rw [verifiesSign_iff_accepts hreadable]
  constructor
  · intro h
    by_cases haccepts : ∀ text, sign = some text → text.bytes.length ≠ SHA256_DIGEST_LENGTH * 2
    · -- accepted, so of 64 characters, so not accepted
      obtain ⟨text, hsign, hlength⟩ := (h.mp haccepts).length_eq
      exact absurd hlength (haccepts text hsign)
    · push Not at haccepts
      obtain ⟨text, hsign, hlength⟩ := haccepts
      refine ⟨text, hsign, hlength, fun htext => ?_⟩
      exact h.mpr ⟨text, hsign, htext⟩ text hsign hlength
  · rintro ⟨text, hsign, hlength, hwrong⟩
    constructor
    · intro haccepts
      exact absurd hlength (haccepts text hsign)
    · rintro ⟨text', hsign', htext⟩
      rw [hsign] at hsign'
      rw [← Option.some.inj hsign'] at htext
      exact absurd htext hwrong

/-! ### An empty package -/

/-- The SHA-256 of no bytes. -/
def emptyDigest : List UInt8 :=
  [0xe3, 0xb0, 0xc4, 0x42, 0x98, 0xfc, 0x1c, 0x14, 0x9a, 0xfb, 0xf4, 0xc8, 0x99, 0x6f, 0xb9,
    0x24, 0x27, 0xae, 0x41, 0xe4, 0x64, 0x9b, 0x93, 0x4c, 0xa4, 0x95, 0x99, 0x1b, 0x78, 0x52,
    0xb8, 0x55]

/-- A hash function that knows the digest of no bytes. -/
def sampleHash : IncrementalHash SHA256_DIGEST_LENGTH where
  Context := List UInt8
  init := []
  update context bytes := context ++ bytes
  final context := if context = [] then emptyDigest else List.replicate 32 0
  update_nil := List.append_nil
  update_append := List.append_assoc
  length_final context := by split <;> rfl

/-- A file system with one package, which is empty. -/
def sampleFiles : OtaEnv where
  sdk := Env.plentiful
  realpath path := path
  files path := if path = "firmware.bin" then some [] else none
  opens _ := true

theorem sampleFiles_readable : ReadablePackage sampleFiles none "firmware.bin" [] where
  allocsSucceed := Env.plentiful_allocsSucceed
  path_ne := by decide
  file := rfl

/-- A wrong signature is refused. -/
theorem verifiesSign_zeros :
    VerifiesSign sampleFiles sampleHash (some ⟨List.replicate 64 48, by decide⟩) none
      "firmware.bin" [] :=
  (verifiesSign_iff sampleFiles_readable).mpr ⟨_, rfl, rfl, by decide⟩

/-- So is the right one, and no signature at all is accepted. -/
theorem verifiesSign_right_false :
    ¬VerifiesSign sampleFiles sampleHash (some ⟨hexText emptyDigest, by decide⟩) none
        "firmware.bin" [] ∧
      ¬VerifiesSign sampleFiles sampleHash none none "firmware.bin" [] := by
  rw [verifiesSign_iff_accepts sampleFiles_readable, verifiesSign_iff_accepts sampleFiles_readable]
  constructor
  · intro h
    exact h.mpr ⟨_, rfl, rfl⟩ _ rfl rfl
  · intro h
    obtain ⟨text, hsign, -⟩ := h.mp (by simp)
    cases hsign

end IotDeviceSdk.Agentlite

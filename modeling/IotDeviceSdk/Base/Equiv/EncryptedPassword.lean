import IotDeviceSdk.Base.Equiv.MqttRun
import IotDeviceSdk.Base.Equiv.TimestampKeys

/-!
# What `GetEncryptedPassword` derives

When all its steps succeed, `GetEncryptedPassword` should leave `g_username` as it is and assign
the hexadecimal digest, with the text of `*timestamp` as the key, of the device secret or, in group
mode, of the hexadecimal digest of the group secret with the user name as the key (`KeepsIdentity`).

In group mode the key of the first digest is `g_username` itself, which `EncryptWithHMac` rewrites
when the digest has a zero byte; and `HMAC` is called with ten bytes of a key's block where its text
is meant.  The texts of the keys and the first digests say when that does no harm
(`keepsIdentity_of_texts`).
-/

namespace IotDeviceSdk.Base

open Prog

variable {env : MqttEnv} {s s' : MqttState}

/-- The text of a block, empty for `NULL`. -/
def textOf (block : Option CharBlock) : List UInt8 := (block.map CharBlock.text).getD []

/-- The secret that a password should be the digest of. -/
def secretMeant (hmac : Hmac) (g : MqttBase) : List UInt8 :=
  if g.g_bsRegMode ≠ 0 then hexText (hmac.digest (textOf g.g_username) (textOf g.g_bsGroupSecret))
  else textOf g.g_password

/-- **The identity is kept**, from one state of the static variables to another. -/
structure KeepsIdentity (hmac : Hmac) (g g' : MqttBase)
    (timestamp encryptedPwd : Option CharBlock) : Prop where
  username_eq : g'.g_username = g.g_username
  encryptedPwd_eq : textOf encryptedPwd =
    hexText (hmac.digest (textOf timestamp) (secretMeant hmac g))

/-- The first call of `HMAC` is with the text of a key: always with SHA-256, and with SM3 when the
text has ten bytes. -/
def CalledWithText (block : CharBlock) (checkTimestamp : ℤ) : Prop :=
  EN_IOTA_CFG_CHECK_STAMP_SHA256 < checkTimestamp → block.text.length = TIME_STAMP_LENGTH

/-- The numbers that are printed over a key have ten characters at least. -/
def PrintsLong (block : CharBlock) : Prop :=
  10 ^ 9 ≤ strtol block.text + 1 ∨ strtol block.text + (TRY_MAX_TIME - 1 : ℕ) ≤ -10 ^ 8

/-- In group mode the first digest of the group secret has no zero byte. -/
def FirstDigestGood (hmac : Hmac) (g : MqttBase) : Prop :=
  g.g_bsRegMode ≠ 0 → ∀ user key, g.g_username = some user →
    firstKey user g.g_checkTimestamp = some key → 0 ∉ hmac.digest key (textOf g.g_bsGroupSecret)

/-- `HMAC` is called with the texts of the keys.  In group mode the digest with the user name has no
zero byte; that with the timestamp has none either, or the numbers tried after it have ten
characters. -/
structure KeepsIdentityWhen (hmac : Hmac) (g : MqttBase) (timestamp : Option CharBlock) : Prop where
  username : g.g_bsRegMode ≠ 0 → ∀ user, g.g_username = some user →
    CalledWithText user g.g_checkTimestamp ∧
      0 ∉ hmac.digest user.text (textOf g.g_bsGroupSecret)
  timestamp : ∀ stamp, timestamp = some stamp → CalledWithText stamp g.g_checkTimestamp ∧
    (0 ∉ hmac.digest stamp.text (secretMeant hmac g) ∨ PrintsLong stamp)

/-! ### The steps -/

/-- The text is the hexadecimal digest of some data, with the `k`-th key of a block as the key; the
block is left with that key in it. -/
structure IsEncryption (hmac : Hmac) (checkTimestamp : ℤ) (data : List UInt8)
    (block block' : CharBlock) (k : ℕ) (text : List UInt8) : Prop where
  tries : k < TRY_MAX_TIME
  isFirstGood : IsFirstGood hmac data block checkTimestamp k
  text_eq : ∃ key, keyAt block checkTimestamp k = some (block', key) ∧
    text = hexText (hmac.digest key data)

/-- A success of `EncryptWithHMac` with whole digests. -/
theorem encryptWithHMac_isEncryption {hmacs : Hmacs} {inputData inputKey : Option CharBlock}
    {outData : Bool} {checkTimestamp : ℤ} {encryption : Encryption}
    (h : encryptWithHMac hmacs inputData inputKey ENCRYPT_LENGTH outData checkTimestamp =
      some encryption) (hresult : encryption.result = IOTA_SUCCESS) :
    ∃ data block block' k out, inputData = some data ∧ inputKey = some block ∧
      encryption.inputKey = some block' ∧ encryption.outData = some out ∧
      IsEncryption (hmacs.select checkTimestamp) checkTimestamp data.text block block' k
        out.text := by
  obtain ⟨data, block, k, hdata, hblock, hwith⟩ := encryptWithHMac_success h hresult
  obtain ⟨block', key, hkey, rfl⟩ := hwith.encryption_eq
  refine ⟨data, block, block', k, _, hdata, hblock, rfl, rfl, hwith.tries, hwith.isFirstGood, key,
    hkey, ?_⟩
  rw [CharBlock.text_ofBytes (zero_not_mem_hexText _), List.take_of_length_le]
  rw [Hmac.length_digest]
  exact le_refl _

theorem IsEncryption.length_text {hmac : Hmac} {checkTimestamp : ℤ} {data text : List UInt8}
    {block block' : CharBlock} {k : ℕ}
    (h : IsEncryption hmac checkTimestamp data block block' k text) :
    text.length = PASSWORD_ENCRYPT_LENGTH := by
  obtain ⟨key, -, rfl⟩ := h.text_eq
  rw [length_hexText, hmac.length_digest]
  rfl

/-- **The last steps**: the digest of the secret, and its copy. -/
theorem encryptPassword_assigned (tempPwd timestamp : Option CharBlock) :
    Wlp env (encryptPassword tempPwd timestamp)
      (fun run s' => run.assigned ≠ none → s'.base.g_username = s.base.g_username ∧
        ∃ secret stamp stamp' k, tempPwd = some secret ∧ timestamp = some stamp ∧
          run.timestamp = some stamp' ∧
          IsEncryption (env.hmacs.select s.base.g_checkTimestamp) s.base.g_checkTimestamp
            secret.text stamp stamp' k (textOf run.assigned)) s := by
  unfold encryptPassword
  simp only [wlp_bind, wlp_globals, wlp_read, wlp_ofOption, wlp_observe, wlp_ite, wlp_assign,
    wlp_pure, wlp_sdk, ne_eq, not_true_eq_false, false_implies, implies_true, true_and]
  intro encryption hencryption hresult
  obtain ⟨secret, stamp, stamp', k, out, hsecret, hstamp, hstamp', hout, h⟩ :=
    encryptWithHMac_isEncryption hencryption (not_not.mp hresult)
  refine (copyStrValue_wlp _ _ _).mono fun r c hr _ hassigned => ?_
  obtain ⟨pwd, hpwd⟩ := Option.ne_none_iff_exists'.mp hassigned
  obtain ⟨out', hout', htext⟩ := hr.text_eq (by decide) hpwd
  obtain rfl := Option.some.inj (hout.symm.trans hout')
  refine ⟨secret, stamp, stamp', k, hsecret, hstamp, hstamp', ?_⟩
  have hpassword : textOf r.2 = out.text := by
    rw [hpwd]
    show pwd.text = out.text
    rw [htext, List.take_of_length_le]
    exact le_of_eq h.length_text
  rw [hpassword]
  exact h

/-- What `GetEncryptedPassword` makes of the static variables and of the timestamp when all its
steps succeed. -/
inductive PasswordDerivation (hmac : Hmac) (g g' : MqttBase)
    (stamp stamp' : CharBlock) (k : ℕ) (encryptedPwd : List UInt8) : Prop where
  | device (mode : g.g_bsRegMode = 0) (username_eq : g'.g_username = g.g_username)
    (encryption : IsEncryption hmac g.g_checkTimestamp (textOf g.g_password) stamp stamp' k
      encryptedPwd)
  | group {user user' : CharBlock} {j : ℕ} {secret : List UInt8} (mode : g.g_bsRegMode ≠ 0)
    (user_eq : g.g_username = some user) (user'_eq : g'.g_username = some user')
    (userEncryption : IsEncryption hmac g.g_checkTimestamp (textOf g.g_bsGroupSecret) user user' j
      secret)
    (encryption : IsEncryption hmac g.g_checkTimestamp secret stamp stamp' k encryptedPwd)

/-- **The steps**: one digest, or two in group mode. -/
theorem derivePassword_assigned {tempPwd : Option CharBlock} (timestamp : Option CharBlock)
    (htemp : ∀ secret, tempPwd = some secret → secret.text = textOf s.base.g_password) :
    Wlp env (derivePassword tempPwd timestamp)
      (fun run s' => run.assigned ≠ none → ∃ stamp stamp' k, timestamp = some stamp ∧
        run.timestamp = some stamp' ∧
        PasswordDerivation (env.hmacs.select s.base.g_checkTimestamp) s.base s'.base stamp stamp' k
          (textOf run.assigned)) s := by
  unfold derivePassword
  simp only [wlp_bind, wlp_globals, wlp_read, wlp_ofOption, wlp_observe, wlp_ite, wlp_assign,
    wlp_pure, wlp_sdk, ne_eq, not_true_eq_false, false_implies, implies_true, true_and]
  constructor
  · intro hmode
    refine wlp_true fun allocated c encryption hencryption hresult => ?_
    obtain ⟨secret, user, user', j, out, hsecret, huser, huser', hout, h⟩ :=
      encryptWithHMac_isEncryption hencryption (not_not.mp hresult)
    refine (encryptPassword_assigned _ _).mono fun run s' hrun hassigned => ?_
    obtain ⟨husername, out', stamp, stamp', k, hout', hstamp, hstamp', hpassword⟩ := hrun hassigned
    obtain rfl := Option.some.inj (hout.symm.trans hout')
    have hdata : secret.text = textOf s.base.g_bsGroupSecret := by
      rw [hsecret]
      rfl
    rw [hdata] at h
    exact ⟨stamp, stamp', k, hstamp, hstamp',
      .group hmode huser (husername.trans huser') h hpassword⟩
  · intro hmode
    refine (encryptPassword_assigned _ _).mono fun run s' hrun hassigned => ?_
    obtain ⟨husername, secret, stamp, stamp', k, hsecret, hstamp, hstamp', hpassword⟩ :=
      hrun hassigned
    rw [htemp secret hsecret] at hpassword
    exact ⟨stamp, stamp', k, hstamp, hstamp', .device (not_not.mp hmode) husername hpassword⟩

theorem getEncryptedPassword_assigned (timestamp : Option CharBlock) :
    Wlp env (getEncryptedPassword timestamp)
      (fun run s' => run.assigned ≠ none → ∃ stamp stamp' k, timestamp = some stamp ∧
        run.timestamp = some stamp' ∧
        PasswordDerivation (env.hmacs.select s.base.g_checkTimestamp) s.base s'.base stamp stamp' k
          (textOf run.assigned)) s := by
  unfold getEncryptedPassword
  simp only [wlp_bind, wlp_globals, wlp_ite, wlp_pure, wlp_sdk, ne_eq, not_true_eq_false,
    false_implies, implies_true, true_and]
  intro _
  refine (copyStrValue_wlp _ _ _).mono fun r c hr hsuccess => ?_
  have htemp : ∀ secret, r.2 = some secret → secret.text = textOf s.base.g_password := by
    intro secret hsecret
    cases hr with
    | nothing => cases hsecret
    | failed => cases hsecret
    | @copied block _ hblock =>
      obtain rfl := Option.some.inj hsecret
      rw [hblock]
      show CharBlock.text (.padded (block.text.take (blockLength (some block)).toNat) _) =
        block.text
      rw [CharBlock.text_padded fun hmem => block.zero_not_mem_text (List.mem_of_mem_take hmem)]
      exact List.take_of_length_le (le_refl _)
  refine wlp_true fun allocated c' _ => ?_
  exact derivePassword_assigned timestamp htemp

/-! ### The identity -/

/-- A key is left as it was exactly when the first digest with it has no zero byte. -/
theorem IsEncryption.block_eq_iff {hmac : Hmac} {checkTimestamp : ℤ} {data text : List UInt8}
    {block block' : CharBlock} {k : ℕ}
    (h : IsEncryption hmac checkTimestamp data block block' k text) :
    block' = block ↔ LooksShortAt hmac data block checkTimestamp 0 false := by
  obtain ⟨key, hkey, -⟩ := h.text_eq
  constructor
  · intro heq
    rcases Nat.eq_zero_or_pos k with rfl | hpos
    · exact h.isFirstGood.good
    · exact absurd heq (keyAt_ne hpos h.tries hkey)
  · intro hgood
    obtain rfl : k = 0 := h.isFirstGood.eq ⟨hgood, by simp⟩
    obtain ⟨key', -, heq⟩ := Option.bind_eq_some_iff.mp hkey
    exact (Prod.mk.inj (Option.some.inj heq)).1.symm

/-! ### The bytes of a key -/

variable {hmac : Hmac} {checkTimestamp : ℤ} {block block' : CharBlock} {data key text : List UInt8}
  {k : ℕ}

theorem firstBytes_eq_text {n : ℕ} (hlength : block.text.length = n) :
    block.firstBytes n = some block.text := by
  obtain ⟨rest, hbytes⟩ := bytes_eq_text_append block
  have hroom : n ≤ block.bytes.length := by
    rw [hbytes, List.length_append, hlength]
    omega
  rw [CharBlock.firstBytes, if_pos hroom, hbytes, ← hlength, List.take_left]

theorem firstKey_eq_text (h : CalledWithText block checkTimestamp) :
    firstKey block checkTimestamp = some block.text := by
  unfold firstKey
  split
  · rfl
  · rename_i hsm3
    exact firstBytes_eq_text (h (not_le.mp hsm3))

/-- A number far from zero has ten characters. -/
theorem length_decimalText_of_long {n : ℤ} (h : 10 ^ 9 ≤ n ∨ n ≤ -10 ^ 8) :
    TIME_STAMP_LENGTH ≤ (decimalText n).length := by
  have hdigits : ∀ {d m : ℕ}, 0 < d → 10 ^ d ≤ m → d < (Nat.toDigits 10 m).length := by
    intro d m hd hm
    rw [← not_le, Nat.length_toDigits_le_iff (by decide) hd]
    exact not_lt.mpr hm
  unfold decimalText TIME_STAMP_LENGTH
  rw [List.length_append, List.length_map]
  rcases h with hpos | hneg
  · have hlong := hdigits (d := 9) (m := n.natAbs) (by decide) (by omega)
    omega
  · have hlong := hdigits (d := 8) (m := n.natAbs) (by decide) (by omega)
    rw [if_pos (by omega), List.length_singleton]
    omega

/-- A number of ten characters is printed over all of the ten bytes. -/
theorem keyAt_eq_text (hlong : PrintsLong block) (hk : k + 1 < TRY_MAX_TIME)
    (hkey : keyAt block checkTimestamp (k + 1) = some (block', key)) : key = block'.text := by
  obtain ⟨htext, -⟩ := keyAt_text hkey
  have hlength : block'.text.length = TIME_STAMP_LENGTH := by
    rw [htext, List.length_take, min_eq_left_iff, strtol_text]
    apply length_decimalText_of_long
    unfold PrintsLong TRY_MAX_TIME at hlong
    unfold TRY_MAX_TIME at hk
    omega
  have hbytes := firstBytes_eq_text hlength
  rw [keyAt] at hkey
  obtain ⟨⟨inputKey, _⟩, -, hkey⟩ := Option.bind_eq_some_iff.mp hkey
  obtain ⟨timeTmp, -, hkey⟩ := Option.bind_eq_some_iff.mp hkey
  obtain ⟨inputKey', -, hkey⟩ := Option.bind_eq_some_iff.mp hkey
  obtain ⟨key', hfirst, heq⟩ := Option.bind_eq_some_iff.mp hkey
  obtain ⟨rfl, rfl⟩ := Prod.mk.inj (Option.some.inj heq)
  exact Option.some.inj (hfirst.symm.trans hbytes)

/-- The first digest with a key whose text `HMAC` is called with. -/
theorem looksShortAt_zero (h : CalledWithText block checkTimestamp) (short : Bool) :
    LooksShortAt hmac data block checkTimestamp 0 short ↔
      looksShort (hmac.digest block.text data) = short := by
  unfold LooksShortAt keyAt
  rw [firstKey_eq_text h]
  constructor
  · rintro ⟨inputKey, key, hkey, hshort⟩
    obtain ⟨-, rfl⟩ := Prod.mk.inj (Option.some.inj hkey)
    exact hshort
  · exact fun hshort => ⟨block, block.text, rfl, hshort⟩

/-- The text is the digest with the text that is left in the block as the key. -/
theorem IsEncryption.text_eq_of_texts
    (h : IsEncryption hmac checkTimestamp data block block' k text)
    (hcalled : CalledWithText block checkTimestamp)
    (hkeys : 0 ∉ hmac.digest block.text data ∨ PrintsLong block) :
    text = hexText (hmac.digest block'.text data) := by
  obtain ⟨key, hkey, rfl⟩ := h.text_eq
  have hsame : key = block'.text := by
    cases k with
    | zero =>
      obtain ⟨key', hfirst, heq⟩ := Option.bind_eq_some_iff.mp hkey
      obtain ⟨rfl, rfl⟩ := Prod.mk.inj (Option.some.inj heq)
      exact Option.some.inj (hfirst.symm.trans (firstKey_eq_text hcalled))
    | succ k =>
      -- the first digest has a zero byte, so the numbers are long
      have hshort := (looksShortAt_zero hcalled true).mp (h.isFirstGood.first 0 (Nat.succ_pos k))
      rw [looksShort_iff (hmac.length_digest _ _)] at hshort
      exact keyAt_eq_text (hkeys.resolve_left (not_not.mpr hshort)) h.tries hkey
  rw [hsame]

/-! ### The identity -/

theorem IsEncryption.firstKey_ne_none
    (h : IsEncryption hmac checkTimestamp data block block' k text) :
    firstKey block checkTimestamp ≠ none := by
  obtain ⟨inputKey, key, hkey, -⟩ : ∃ inputKey key,
      keyAt block checkTimestamp 0 = some (inputKey, key) ∧ True := by
    rcases Nat.eq_zero_or_pos k with rfl | hpos
    · obtain ⟨key, hkey, -⟩ := h.text_eq
      exact ⟨_, _, hkey, trivial⟩
    · obtain ⟨_, _, hkey, -⟩ := h.isFirstGood.first 0 hpos
      exact ⟨_, _, hkey, trivial⟩
  obtain ⟨key', hfirst, -⟩ := Option.bind_eq_some_iff.mp hkey
  rw [hfirst]
  exact Option.some_ne_none key'

theorem firstDigestGood_iff {g : MqttBase} {user : CharBlock} (hmode : g.g_bsRegMode ≠ 0)
    (huser : g.g_username = some user) (hkey : firstKey user g.g_checkTimestamp ≠ none) :
    FirstDigestGood hmac g ↔
      LooksShortAt hmac (textOf g.g_bsGroupSecret) user g.g_checkTimestamp 0 false := by
  obtain ⟨key, hkey⟩ := Option.ne_none_iff_exists'.mp hkey
  have hdigest : looksShort (hmac.digest key (textOf g.g_bsGroupSecret)) = false ↔
      0 ∉ hmac.digest key (textOf g.g_bsGroupSecret) := by
    rw [← Bool.not_eq_true, looksShort_iff (hmac.length_digest _ _)]
  unfold FirstDigestGood LooksShortAt keyAt
  rw [huser, hkey]
  constructor
  · intro h
    exact ⟨user, key, rfl, hdigest.mpr (h hmode user key rfl hkey)⟩
  · rintro ⟨_, _, heq, hshort⟩ - user' key' huser' hkey'
    obtain rfl := Option.some.inj huser'
    obtain rfl := Option.some.inj (hkey.symm.trans hkey')
    obtain ⟨-, rfl⟩ := Prod.mk.inj (Option.some.inj heq)
    exact hdigest.mp hshort

/-- **The identity** in a derivation of which all steps succeed: `g_username` is kept exactly when
the first digest of the group secret has no zero byte, and the password is the digest that it should
be under `KeepsIdentityWhen`. -/
theorem keepsIdentity_of_texts {timestamp : Option CharBlock} {run : PasswordRun}
    (h : getEncryptedPassword timestamp env s = some (run, s')) (hassigned : run.assigned ≠ none) :
    (s'.base.g_username = s.base.g_username ↔
        FirstDigestGood (env.hmacs.select s.base.g_checkTimestamp) s.base) ∧
      (KeepsIdentityWhen (env.hmacs.select s.base.g_checkTimestamp) s.base timestamp →
        KeepsIdentity (env.hmacs.select s.base.g_checkTimestamp) s.base s'.base run.timestamp
          run.assigned) := by
  obtain ⟨stamp, stamp', k, rfl, hstamp', hderivation⟩ :=
    getEncryptedPassword_assigned timestamp run s' h hassigned
  rw [hstamp']
  cases hderivation with
  | device hmode husername hencryption =>
    have hmeant : secretMeant (env.hmacs.select s.base.g_checkTimestamp) s.base =
        textOf s.base.g_password := if_neg (not_not.mpr hmode)
    refine ⟨iff_of_true husername fun hgroup => absurd hmode hgroup, fun hwhen => ⟨husername, ?_⟩⟩
    obtain ⟨hcalled, hkeys⟩ := hwhen.timestamp stamp rfl
    rw [hmeant] at hkeys ⊢
    exact hencryption.text_eq_of_texts hcalled hkeys
  | @group user user' j secret hmode huser huser' huserEncryption hencryption =>
    have hkept : s'.base.g_username = s.base.g_username ↔
        FirstDigestGood (env.hmacs.select s.base.g_checkTimestamp) s.base := by
      rw [firstDigestGood_iff hmode huser huserEncryption.firstKey_ne_none,
        ← huserEncryption.block_eq_iff, huser', huser, Option.some_inj]
    refine ⟨hkept, fun hwhen => ?_⟩
    obtain ⟨hcalledUser, hgood⟩ := hwhen.username hmode user huser
    have husername : s'.base.g_username = s.base.g_username := by
      rw [hkept]
      intro _ user₁ key₁ huser₁ hkey₁
      obtain rfl := Option.some.inj (huser.symm.trans huser₁)
      obtain rfl := Option.some.inj ((firstKey_eq_text hcalledUser).symm.trans hkey₁)
      exact hgood
    obtain rfl : user' = user := by
      rw [huser', huser, Option.some_inj] at husername
      exact husername
    have hmeant : secretMeant (env.hmacs.select s.base.g_checkTimestamp) s.base = secret := by
      rw [huserEncryption.text_eq_of_texts hcalledUser (Or.inl hgood), secretMeant, if_pos hmode,
        huser]
      rfl
    obtain ⟨hcalled, hkeys⟩ := hwhen.timestamp stamp rfl
    refine ⟨husername, ?_⟩
    rw [hmeant] at hkeys ⊢
    exact hencryption.text_eq_of_texts hcalled hkeys

/-- A client in group mode. -/
def groupClient : MqttState :=
  { base := {
      g_bsRegMode := 1
      g_username := sampleText "device0001"
      g_bsGroupSecret := sampleText "abc" } }

/-- The identity is kept when the digest with the first timestamp has a zero byte and the next
timestamp is used. -/
theorem keepsIdentity_nextTimestamp : ∃ run s',
    getEncryptedPassword (sampleText "2024010100")
        { sampleMqttEnv with hmacs := ⟨firstKeyZeroHmac, firstKeyZeroHmac⟩ } groupClient =
          some (run, s') ∧
      run.assigned ≠ none ∧ run.timestamp.map CharBlock.text = some (ascii "2024010101") ∧
      KeepsIdentity firstKeyZeroHmac groupClient.base s'.base run.timestamp run.assigned := by
  have hrun : ((getEncryptedPassword (sampleText "2024010100")
      { sampleMqttEnv with hmacs := ⟨firstKeyZeroHmac, firstKeyZeroHmac⟩ } groupClient).map
        fun r => (r.1.assigned.isSome, r.1.timestamp.map CharBlock.text)) =
          some (true, some (ascii "2024010101")) := by
    decide +kernel
  obtain ⟨⟨run, s'⟩, hrun, hresult⟩ := Option.map_eq_some_iff.mp hrun
  obtain ⟨hassigned, htimestamp⟩ := Prod.mk.inj hresult
  have hne : run.assigned ≠ none := Option.isSome_iff_ne_none.mp hassigned
  refine ⟨run, s', hrun, hne, htimestamp, (keepsIdentity_of_texts hrun hne).2 ⟨?_, ?_⟩⟩
  · rintro - user huser
    obtain rfl := Option.some.inj huser
    exact ⟨fun hsm3 => absurd hsm3 (by decide), by decide⟩
  · rintro stamp hstamp
    obtain rfl := Option.some.inj hstamp
    exact ⟨fun hsm3 => absurd hsm3 (by decide), Or.inr (Or.inl (by decide))⟩

/-- A digest that is zero with one key. -/
def zeroKeyHmac : Hmac where
  digest key _ := List.replicate 32 (if key = ascii "device0001" then 0 else 1)
  length_digest _ _ := rfl

/-- The digest with the user name as the key has a zero byte, and the user name becomes `"1"`. -/
theorem keepsIdentity_zeroKey_false : ¬∀ env s s' timestamp run,
    getEncryptedPassword timestamp env s = some (run, s') → run.assigned ≠ none →
      KeepsIdentity (env.hmacs.select s.base.g_checkTimestamp) s.base s'.base run.timestamp
        run.assigned := by
  intro h
  have hrun : ((getEncryptedPassword (sampleText "2024010100")
      { sampleMqttEnv with hmacs := ⟨zeroKeyHmac, zeroKeyHmac⟩ } groupClient).map
        fun r => (r.1.assigned.isSome, textOf r.2.base.g_username)) = some (true, ascii "1") := by
    decide +kernel
  obtain ⟨⟨run, s'⟩, hrun, hresult⟩ := Option.map_eq_some_iff.mp hrun
  obtain ⟨hassigned, htext⟩ := Prod.mk.inj hresult
  have hkeeps := h _ _ _ _ _ hrun (Option.isSome_iff_ne_none.mp hassigned)
  rw [hkeeps.username_eq] at htext
  exact absurd htext (by decide)

end IotDeviceSdk.Base

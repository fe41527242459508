import IotDeviceSdk.Libc.Decimal
import IotDeviceSdk.Libc.LittleEndian
import IotDeviceSdk.Service.DetectAnomaly.MaliciousIP

/-!
# The remote address of a connection

A line of `/proc/net/tcp` has the addresses as 32-bit words in hexadecimal.  The loop that prints
the remote address reads the two digits at the head of its word in each of its four rounds, and
takes the letters among them for other numbers.

* `upperHex_append`: the digits of a number, cut in two.
* `bytes2Int_upperHex`: what two digits are taken for.
* `printDigits_eq`: the loop prints the same number in each round.
* `netWorkInfoLineToIPString_procNetLine`: so it prints the last number of the address four times.
* `decodesRemote_iff`: this is the address when its four numbers are equal and have no letters.
-/

namespace IotDeviceSdk.Service

open Text

variable {line ip done : List UInt8} {n rounds offset bufferLen ipNibbleCnt : ℕ}
  {splitter : UInt8} {notAllZero : Bool}

/-! ### Lines -/

/-- An uppercase hexadecimal digit. -/
def upperHexDigit (n : ℕ) : UInt8 := UInt8.ofNat (if n < 10 then 48 + n else 55 + n)

/-- `%0wX` of a number below `16 ^ w`. -/
def upperHex : ℕ → ℕ → List UInt8
  | 0, _ => []
  | width + 1, n => upperHex width (n / 16) ++ [upperHexDigit (n % 16)]

/-- An IPv4 address. -/
structure Ipv4 where
  a : UInt8
  b : UInt8
  c : UInt8
  d : UInt8
  deriving DecidableEq

/-- The bytes of an address, in network order, as a word of a little-endian machine. -/
def Ipv4.word (addr : Ipv4) : ℕ := leValue [addr.a, addr.b, addr.c, addr.d]

/-- The dotted text of an address. -/
def Ipv4.dotted (addr : Ipv4) : List UInt8 :=
  decimalText addr.a.toNat ++ 46 :: (decimalText addr.b.toNat ++ 46 ::
    (decimalText addr.c.toNat ++ 46 :: decimalText addr.d.toNat))

/-- An address and a port, `%08X:%04X`. -/
def endpoint (addr : Ipv4) (port : UInt16) : List UInt8 :=
  upperHex 8 addr.word ++ 58 :: upperHex 4 port.toNat

/-- `%4d`. -/
def slotNumber (sl : ℕ) : List UInt8 :=
  List.replicate (4 - (decimalText sl).length) 32 ++ decimalText sl

/-- The line of a connection: its number, the two ends and the other columns. -/
def procNetLine (sl : ℕ) (local_address : Ipv4) (local_port : UInt16) (rem_address : Ipv4)
    (rem_port : UInt16) (columns : List UInt8) : List UInt8 :=
  slotNumber sl ++ 58 :: 32 :: (endpoint local_address local_port ++ 32 ::
    (endpoint rem_address rem_port ++ 32 :: columns))

/-- The remote address of a line is written as a dotted text, and the result says whether it is not
0.0.0.0. -/
def DecodesRemote (line : List UInt8) (rem_address : Ipv4) (ip : List UInt8) : Prop :=
  ∃ verdict buffer, netWorkInfoLineToIPString line false ip IP_STR_MAX_LEN =
    some (verdict, buffer) ∧
    cString buffer = rem_address.dotted ∧ (verdict = true ↔ rem_address ≠ ⟨0, 0, 0, 0⟩)

/-! ### Digits -/

theorem upperHex_append (w k n : ℕ) :
    upperHex (w + k) n = upperHex w (n / 16 ^ k) ++ upperHex k n := by
  induction k generalizing n with
  | zero => rw [upperHex, List.append_nil, pow_zero, Nat.div_one, Nat.add_zero]
  | succ k ih =>
    rw [← Nat.add_assoc, upperHex, ih, upperHex, List.append_assoc, Nat.div_div_eq_div_mul,
      pow_succ, Nat.mul_comm 16]

/-- What a digit is taken for. -/
def digitTaken (n : ℕ) : ℕ := if n < 10 then n else n + 7

/-- What a number of two digits is taken for. -/
def byteTaken (n : ℕ) : ℕ := 16 * digitTaken (n / 16) + digitTaken (n % 16)

theorem charValue_upperHexDigit {n : ℕ} (h : n < 16) :
    charValue (upperHexDigit n) = 48 + digitTaken n := by
  have hall : ∀ n < 16, charValue (upperHexDigit n) = 48 + digitTaken n := by decide
  exact hall n h

/-- **Two digits** are taken for a number that is too large when there are letters. -/
theorem bytes2Int_upperHex {n : ℕ} (h : n < 256) (rest : List UInt8) :
    bytes2Int (upperHex 2 n ++ rest) 2 = some (byteTaken n) := by
  have hhigh := charValue_upperHexDigit (show n / 16 % 16 < 16 by omega)
  have hlow := charValue_upperHexDigit (show n % 16 < 16 by omega)
  have hmod : n / 16 % 16 = n / 16 := by omega
  have hsmall : ∀ m < 16, digitTaken m ≤ 22 := by decide
  have hboundHigh := hsmall (n / 16) (by omega)
  have hboundLow := hsmall (n % 16) (by omega)
  rw [hmod] at hhigh
  show bytes2Int.go (upperHexDigit (n / 16 % 16) :: upperHexDigit (n % 16) :: rest) 2 0 = _
  rw [hmod, bytes2Int.go, bytes2Int.go, bytes2Int.go, hhigh, hlow, byteTaken]
  refine congrArg some ?_
  omega

theorem byteTaken_eq_iff {n : ℕ} : byteTaken n = n ↔ n / 16 ≤ 9 ∧ n % 16 ≤ 9 := by
  unfold byteTaken digitTaken
  split <;> split <;> omega

theorem byteTaken_eq_zero_iff {n : ℕ} : byteTaken n = 0 ↔ n = 0 := by
  unfold byteTaken digitTaken
  split <;> split <;> omega

theorem isDigit_of_mem_decimalText {n : ℕ} {b : UInt8} (h : b ∈ decimalText n) :
    48 ≤ b.toNat ∧ b.toNat ≤ 57 := by
  rw [decimalText_natCast] at h
  obtain ⟨c, hc, rfl⟩ := List.mem_map.mp h
  have hdigit := isDigit_bounds (Nat.isDigit_of_mem_toDigits (by decide) (by decide) hc)
  rw [UInt8.toNat_ofNat']
  omega

theorem dot_not_mem_decimalText (n : ℕ) : (46 : UInt8) ∉ decimalText n := by
  intro h
  exact absurd (isDigit_of_mem_decimalText h).1 (by decide)

theorem decimalText_injective {n m : ℕ} (hn : n < 2 ^ 63) (hm : m < 2 ^ 63)
    (h : decimalText n = decimalText m) : n = m := by
  have heq := congrArg strtol h
  rw [strtol_decimalText (by exact_mod_cast hn), strtol_decimalText (by exact_mod_cast hm)] at heq
  exact_mod_cast heq

/-! ### Columns -/

theorem pastNext_append {before after : List UInt8} {c : UInt8} (h : c ∉ before) :
    pastNext (before ++ c :: after) c = some after := by
  rw [pastNext, strchr_append h]
  rfl

theorem upperHexDigit_ge {n : ℕ} (h : n < 16) : 48 ≤ (upperHexDigit n).toNat ∧
    (upperHexDigit n).toNat ≠ 58 := by
  have hall : ∀ n < 16, 48 ≤ (upperHexDigit n).toNat ∧ (upperHexDigit n).toNat ≠ 58 := by decide
  exact hall n h

theorem of_mem_upperHex {width n : ℕ} {b : UInt8} (h : b ∈ upperHex width n) :
    48 ≤ b.toNat ∧ b.toNat ≠ 58 := by
  induction width generalizing n with
  | zero => simp [upperHex] at h
  | succ width ih =>
    rw [upperHex, List.mem_append, List.mem_singleton] at h
    rcases h with h | rfl
    · exact ih h
    · exact upperHexDigit_ge (Nat.mod_lt _ (by decide))

theorem colon_not_mem_slotNumber (sl : ℕ) : (58 : UInt8) ∉ slotNumber sl := by
  rw [slotNumber, List.mem_append, not_or]
  refine ⟨fun h => ?_, fun h => ?_⟩
  · exact absurd (List.eq_of_mem_replicate h) (by decide)
  · exact absurd (isDigit_of_mem_decimalText h).2 (by decide)

/-- **The columns** before the remote address are skipped, however wide they are. -/
theorem remote_of_procNetLine (sl : ℕ) (local_address : Ipv4) (local_port : UInt16)
    (rem_address : Ipv4) (rem_port : UInt16) (columns : List UInt8) :
    (pastNext (procNetLine sl local_address local_port rem_address rem_port columns) 58 >>=
      fun line => pastNext line 58 >>= fun line => pastNext line 32) =
        some (endpoint rem_address rem_port ++ 32 :: columns) := by
  have haddress : (58 : UInt8) ∉ 32 :: upperHex 8 local_address.word := by
    rw [List.mem_cons, not_or]
    exact ⟨by decide, fun h => (of_mem_upperHex h).2 rfl⟩
  have hport : (32 : UInt8) ∉ upperHex 4 local_port.toNat := by
    intro h
    exact absurd (of_mem_upperHex h).1 (by decide)
  have hsecond : pastNext (32 :: (endpoint local_address local_port ++ 32 ::
      (endpoint rem_address rem_port ++ 32 :: columns))) 58 =
        some (upperHex 4 local_port.toNat ++ 32 :: (endpoint rem_address rem_port ++
          32 :: columns)) := by
    rw [endpoint, List.append_assoc, List.cons_append, ← List.cons_append]
    exact pastNext_append haddress
  rw [procNetLine, pastNext_append (colon_not_mem_slotNumber sl)]
  show (pastNext _ 58 >>= _) = _
  rw [hsecond]
  exact pastNext_append hport

/-! ### The loop -/

/-- What a round prints. -/
def roundText (ipDigit : ℕ) (splitter : UInt8) : List UInt8 := decimalText ipDigit ++ [splitter]

theorem zero_not_mem_roundText {ipDigit : ℕ} (hsplitter : splitter ≠ 0) :
    0 ∉ roundText ipDigit splitter := by
  rw [roundText, List.mem_append, not_or, List.mem_singleton]
  exact ⟨zero_not_mem_decimalText _, hsplitter.symm⟩

/-- The end of the function: the last splitter becomes the terminator. -/
theorem printDigits_zero (hne : done ≠ []) (hzero : 0 ∉ done) (rest : List UInt8) :
    ∃ buffer, printDigits line ipNibbleCnt splitter bufferLen 0 (done ++ rest) done.length
        notAllZero = some (notAllZero, buffer) ∧ cString buffer = done.dropLast := by
  have hsplit := List.dropLast_append_getLast hne
  have hlength : done.length = done.dropLast.length + 1 := by
    rw [List.length_dropLast]
    have hpos := List.length_pos_iff.mpr hne
    omega
  have hblock : done ++ rest = done.dropLast ++ done.getLast hne :: rest := by
    rw [← List.singleton_append, ← List.append_assoc, hsplit]
  have hset : (done.dropLast ++ done.getLast hne :: rest).set done.dropLast.length 0 =
      done.dropLast ++ 0 :: rest := by
    rw [List.set_append_right _ _ (le_refl _), Nat.sub_self, List.set_cons_zero]
  refine ⟨done.dropLast ++ 0 :: rest, ?_, ?_⟩
  · rw [printDigits, if_neg (by omega), hlength, Nat.add_sub_cancel, hblock, writeAt,
      if_pos (by rw [List.length_append, List.length_cons]; omega), hset]
    rfl
  · exact cString_append_zero fun h => hzero (List.mem_of_mem_dropLast h)

/-- **The loop** prints the same number in each round. -/
theorem printDigits_eq {ipDigit : ℕ} {rest : List UInt8}
    (hdigit : bytes2Int line ipNibbleCnt = some ipDigit) (hsplitter : splitter ≠ 0)
    (hmax : bufferLen ≤ SECUREC_STRING_MAX_LEN) (hip : (done ++ rest).length = bufferLen)
    (hzero : 0 ∉ done) (hsome : 0 < done.length + rounds)
    (hroom : done.length + rounds * (roundText ipDigit splitter).length < bufferLen) :
    ∃ buffer, printDigits line ipNibbleCnt splitter bufferLen rounds (done ++ rest) done.length
        notAllZero = some (notAllZero || (decide (0 < rounds) && ipDigit ≠ 0), buffer) ∧
      cString buffer =
        (done ++ (List.replicate rounds (roundText ipDigit splitter)).flatten).dropLast := by
  induction rounds generalizing done rest notAllZero with
  | zero =>
    have hne : done ≠ [] := List.ne_nil_of_length_pos (by omega)
    obtain ⟨buffer, hrun, hbuffer⟩ := @printDigits_zero line done bufferLen ipNibbleCnt splitter
      notAllZero hne hzero rest
    refine ⟨buffer, ?_, ?_⟩
    · rw [hrun]
      simp
    · rw [hbuffer, List.replicate_zero, List.flatten_nil, List.append_nil]
  | succ rounds ih =>
    -- the digits are at the same place in the round that follows
    rw [Nat.succ_mul] at hroom
    rw [List.length_append] at hip
    have hprint := @sprintfS_eq rest (roundText ipDigit splitter) (bufferLen - done.length)
      (by omega) (by omega) (by omega)
    have hzero' : 0 ∉ done ++ roundText ipDigit splitter := by
      rw [List.mem_append, not_or]
      exact ⟨hzero, zero_not_mem_roundText hsplitter⟩
    have hlength : (done ++ roundText ipDigit splitter ++
        (0 :: rest.drop ((roundText ipDigit splitter).length + 1))).length = bufferLen := by
      simp only [List.length_append, List.length_cons, List.length_drop]
      omega
    obtain ⟨buffer, hrun, hbuffer⟩ := @ih (done ++ roundText ipDigit splitter)
      (notAllZero || ipDigit ≠ 0) _ hlength hzero' (by rw [List.length_append, roundText]; simp)
      (by rw [List.length_append]; omega)
    refine ⟨buffer, ?_, ?_⟩
    · have hcount : ((roundText ipDigit splitter).length : ℤ) ≠ -1 := by omega
      unfold roundText at hprint hcount hrun
      rw [printDigits, hdigit, Option.bind_eq_bind, Option.bind_some, List.drop_left,
        List.take_left, hprint]
      dsimp only [Option.bind_eq_bind, Option.bind_some]
      rw [if_neg hcount, Int.toNat_natCast, ← List.append_assoc, ← List.length_append, hrun]
      by_cases hdigit0 : ipDigit = 0 <;> simp [hdigit0]
    · rw [hbuffer, List.replicate_succ, List.flatten_cons, List.append_assoc]

/-! ### The function -/

/-- The digits of the last number of an address stand first. -/
theorem endpoint_eq (addr : Ipv4) (port : UInt16) :
    ∃ rest, endpoint addr port = upperHex 2 addr.d.toNat ++ rest := by
  have hd : addr.word / 16 ^ 6 = addr.d.toNat := by
    have ha := addr.a.toNat_lt
    have hb := addr.b.toNat_lt
    have hc := addr.c.toNat_lt
    simp only [Ipv4.word, leValue]
    omega
  refine ⟨upperHex 6 addr.word ++ 58 :: upperHex 4 port.toNat, ?_⟩
  rw [endpoint, show (8 : ℕ) = 2 + 6 from rfl, upperHex_append, hd, List.append_assoc]

/-- A number as the text of an address. -/
def fourTimes (n : ℕ) : List UInt8 :=
  decimalText n ++ 46 :: (decimalText n ++ 46 :: (decimalText n ++ 46 :: decimalText n))

theorem dropLast_rounds (n : ℕ) :
    ([] ++ (List.replicate 4 (roundText n 46)).flatten).dropLast = fourTimes n := by
  have hflat : [] ++ (List.replicate 4 (roundText n 46)).flatten = fourTimes n ++ [46] := by
    simp [List.replicate, roundText, fourTimes]
  rw [hflat, List.dropLast_concat]

theorem byteTaken_le {n : ℕ} (h : n < 256) : byteTaken n ≤ 374 := by
  unfold byteTaken digitTaken
  split <;> split <;> omega

theorem length_roundText {n : ℕ} (h : n < 1000) (splitter : UInt8) :
    (roundText n splitter).length ≤ 4 := by
  have hdigits : (Nat.toDigits 10 n).length ≤ 3 :=
    (Nat.length_toDigits_le_iff (by decide) (by decide)).mpr (by omega)
  rw [roundText, List.length_append, List.length_singleton, decimalText_natCast, List.length_map]
  omega

/-- **What the function makes of a line**: the last number of the remote address, as it takes it,
four times, and whether it is not zero. -/
theorem netWorkInfoLineToIPString_procNetLine (sl : ℕ) (local_address : Ipv4) (local_port : UInt16)
    (rem_address : Ipv4) (rem_port : UInt16) (columns : List UInt8)
    (hip : ip.length = IP_STR_MAX_LEN) :
    ∃ buffer, netWorkInfoLineToIPString
        (procNetLine sl local_address local_port rem_address rem_port columns) false ip
        IP_STR_MAX_LEN = some (decide (rem_address.d ≠ 0), buffer) ∧
      cString buffer = fourTimes (byteTaken rem_address.d.toNat) := by
  have hd := rem_address.d.toNat_lt
  obtain ⟨line₁, hfirst, hline⟩ := Option.bind_eq_some_iff.mp
    (remote_of_procNetLine sl local_address local_port rem_address rem_port columns)
  obtain ⟨line₂, hsecond, hthird⟩ := Option.bind_eq_some_iff.mp hline
  obtain ⟨rest, hrest⟩ := endpoint_eq rem_address rem_port
  have hdigit := bytes2Int_upperHex hd (rest ++ 32 :: columns)
  rw [← List.append_assoc, ← hrest] at hdigit
  have htaken := byteTaken_le hd
  have hround := length_roundText (show byteTaken rem_address.d.toNat < 1000 by omega) 46
  have hroom : ([] : List UInt8).length + 4 *
      (roundText (byteTaken rem_address.d.toNat) 46).length < IP_STR_MAX_LEN := by
    show 0 + 4 * _ < 40
    omega
  obtain ⟨buffer, hrun, hbuffer⟩ := @printDigits_eq _ [] 4 IP_STR_MAX_LEN 2 46 false _ ip hdigit
    (by decide) (by decide) (by rw [List.nil_append]; exact hip) (by simp) (by simp) hroom
  refine ⟨buffer, ?_, ?_⟩
  · have hverdict : (false || (decide (0 < 4) && decide (byteTaken rem_address.d.toNat ≠ 0))) =
        decide (rem_address.d ≠ 0) := by
      rw [Bool.false_or, decide_eq_true (by decide : 0 < 4), Bool.true_and, decide_eq_decide,
        ne_eq, byteTaken_eq_zero_iff, ne_eq, ← UInt8.toNat_inj]
      rfl
    rw [← hverdict]
    unfold netWorkInfoLineToIPString
    rw [hfirst, Option.bind_eq_bind, Option.bind_some, hsecond, Option.bind_some, hthird,
      Option.bind_some]
    exact hrun
  · rw [hbuffer, dropLast_rounds]

theorem dotted_injective {n m n' m' k k' l l' : ℕ} (hn : n < 2 ^ 63) (hn' : n' < 2 ^ 63)
    (hm : m < 2 ^ 63) (hm' : m' < 2 ^ 63) (hk : k < 2 ^ 63) (hk' : k' < 2 ^ 63)
    (hl : l < 2 ^ 63) (hl' : l' < 2 ^ 63)
    (h : decimalText n ++ 46 :: (decimalText m ++ 46 :: (decimalText k ++ 46 :: decimalText l)) =
      decimalText n' ++ 46 :: (decimalText m' ++ 46 :: (decimalText k' ++ 46 :: decimalText l'))) :
    n = n' ∧ m = m' ∧ k = k' ∧ l = l' := by
  obtain ⟨hfirst, h⟩ := append_cons_inj (dot_not_mem_decimalText n) (dot_not_mem_decimalText n') h
  obtain ⟨hsecond, h⟩ := append_cons_inj (dot_not_mem_decimalText m) (dot_not_mem_decimalText m') h
  obtain ⟨hthird, hfourth⟩ :=
    append_cons_inj (dot_not_mem_decimalText k) (dot_not_mem_decimalText k') h
  exact ⟨decimalText_injective hn hn' hfirst, decimalText_injective hm hm' hsecond,
    decimalText_injective hk hk' hthird, decimalText_injective hl hl' hfourth⟩

/-- One number four times is the text of an address with this number everywhere. -/
theorem fourTimes_eq_dotted_iff {n : ℕ} (h : n < 2 ^ 63) (addr : Ipv4) :
    fourTimes n = addr.dotted ↔
      n = addr.a.toNat ∧ n = addr.b.toNat ∧ n = addr.c.toNat ∧ n = addr.d.toNat := by
  have hbyte : ∀ b : UInt8, b.toNat < 2 ^ 63 := fun b => b.toNat_lt.trans (by decide)
  constructor
  · intro heq
    exact dotted_injective h (hbyte _) h (hbyte _) h (hbyte _) h (hbyte _) heq
  · rintro ⟨ha, hb, hc, hd⟩
    rw [Ipv4.dotted, ← ha, ← hb, ← hc, ← hd, fourTimes]

/-- The number printed is every number of the address. -/
theorem taken_eq_all_iff (addr : Ipv4) :
    (byteTaken addr.d.toNat = addr.a.toNat ∧ byteTaken addr.d.toNat = addr.b.toNat ∧
        byteTaken addr.d.toNat = addr.c.toNat ∧ byteTaken addr.d.toNat = addr.d.toNat) ↔
      addr.a = addr.d ∧ addr.b = addr.d ∧ addr.c = addr.d ∧ addr.d.toNat / 16 ≤ 9 ∧
        addr.d.toNat % 16 ≤ 9 := by
  rw [← UInt8.toNat_inj, ← UInt8.toNat_inj, ← UInt8.toNat_inj]
  constructor
  · rintro ⟨ha, hb, hc, hd⟩
    obtain ⟨hhigh, hlow⟩ := byteTaken_eq_iff.mp hd
    exact ⟨by omega, by omega, by omega, hhigh, hlow⟩
  · rintro ⟨ha, hb, hc, hhigh, hlow⟩
    have hd := byteTaken_eq_iff.mpr ⟨hhigh, hlow⟩
    exact ⟨by omega, by omega, by omega, hd⟩

/-- **The remote address** is decoded exactly when its four numbers are equal and written with
decimal digits only. -/
theorem decodesRemote_iff (sl : ℕ) (local_address : Ipv4) (local_port : UInt16) (rem_address : Ipv4)
    (rem_port : UInt16) (columns ip : List UInt8) (hip : ip.length = IP_STR_MAX_LEN) :
    DecodesRemote (procNetLine sl local_address local_port rem_address rem_port columns) rem_address
        ip ↔
      rem_address.a = rem_address.d ∧ rem_address.b = rem_address.d ∧
        rem_address.c = rem_address.d ∧ rem_address.d.toNat / 16 ≤ 9 ∧
        rem_address.d.toNat % 16 ≤ 9 := by
  have hsmall : byteTaken rem_address.d.toNat < 2 ^ 63 :=
    (byteTaken_le rem_address.d.toNat_lt).trans_lt (by decide)
  obtain ⟨buffer, hrun, hbuffer⟩ := netWorkInfoLineToIPString_procNetLine sl local_address
    local_port rem_address rem_port columns hip
  rw [← taken_eq_all_iff, ← fourTimes_eq_dotted_iff hsmall]
  constructor
  · rintro ⟨verdict, buffer', hrun', htext, hverdict⟩
    obtain ⟨-, rfl⟩ := Prod.mk.inj (Option.some.inj (hrun.symm.trans hrun'))
    rw [← hbuffer, htext]
  · intro htext
    obtain ⟨ha, hb, hc, -, -⟩ := (taken_eq_all_iff rem_address).mp
      ((fourTimes_eq_dotted_iff hsmall rem_address).mp htext)
    refine ⟨_, buffer, hrun, hbuffer.trans htext, ?_⟩
    -- with equal numbers, one that is not zero is enough
    rw [decide_eq_true_iff, not_iff_not]
    constructor
    · intro hd
      show (⟨rem_address.a, rem_address.b, rem_address.c, rem_address.d⟩ : Ipv4) = _
      rw [ha, hb, hc, hd]
    · intro haddr
      rw [haddr]

/-- 1.1.1.1 is decoded. -/
theorem decodesRemote_ones : DecodesRemote
    (procNetLine 1069 ⟨0, 0, 0, 0⟩ 5353 ⟨1, 1, 1, 1⟩ 443 [48, 49]) ⟨1, 1, 1, 1⟩
    (List.replicate IP_STR_MAX_LEN 0) :=
  (decodesRemote_iff 1069 ⟨0, 0, 0, 0⟩ 5353 ⟨1, 1, 1, 1⟩ 443 [48, 49]
    (List.replicate IP_STR_MAX_LEN 0) List.length_replicate).mpr (by decide)

/-- 10.0.0.1 is not: the function writes 1.1.1.1. -/
theorem not_decodesRemote_private : ¬∀ (sl : ℕ) (local_address : Ipv4) (local_port : UInt16)
    (rem_address : Ipv4) (rem_port : UInt16) (columns ip : List UInt8),
    ip.length = IP_STR_MAX_LEN →
    DecodesRemote (procNetLine sl local_address local_port rem_address rem_port columns)
      rem_address ip := by
  intro hall
  obtain ⟨verdict, buffer, hrun, htext, -⟩ := hall 1069 ⟨0, 0, 0, 0⟩ 5353 ⟨10, 0, 0, 1⟩ 443 []
    (List.replicate IP_STR_MAX_LEN 0) List.length_replicate
  obtain ⟨buffer', hrun', htext'⟩ := @netWorkInfoLineToIPString_procNetLine
    (List.replicate IP_STR_MAX_LEN 0) 1069 ⟨0, 0, 0, 0⟩ 5353 ⟨10, 0, 0, 1⟩ 443 []
    List.length_replicate
  obtain ⟨-, rfl⟩ := Prod.mk.inj (Option.some.inj (hrun.symm.trans hrun'))
  exact absurd (htext.symm.trans htext') (by decide)

end IotDeviceSdk.Service

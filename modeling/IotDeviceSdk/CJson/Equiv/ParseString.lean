import IotDeviceSdk.CJson.Equiv.StringToken

/-!
# The loops of `parse_string`

* `stringEnd_eq_some_iff`: the first loop finds the first quote that no backslash escapes, and
  counts the escapes in front of it.
* `unescape_spec`: the second loop stays inside its input and inside the block that is allocated from
  this count.  The loops may disagree about where an escape starts, behind a malformed `\u`; the
  invariant is a bound for both ways to count (`escapeBound`).
* `unescape_decodes`: what it writes is the decoded string, as far as a C string shows it.
* `unescape_of_spells`: it accepts every spelling of a text.
-/

namespace IotDeviceSdk.Json

/-! ### The end of a string -/

/-- What stands between the quotes of a string: each backslash with the byte behind it, and no other
quote. -/
inductive Closed : List UInt8 → Prop where
  | nil : Closed []
  | byte {b : UInt8} {body : List UInt8} : b ≠ 34 → b ≠ 92 → Closed body → Closed (b :: body)
  | escape {e : UInt8} {body : List UInt8} : Closed body → Closed (92 :: e :: body)

/-- The escapes of a body, read from its start. -/
def escapes : List UInt8 → ℕ
  | [] => 0
  | c :: body =>
    if c = 92 then
      match body with
      | [] => 0
      | _ :: body => escapes body + 1
    else escapes body

theorem escapes_byte {b : UInt8} (hb : b ≠ 92) (body : List UInt8) :
    escapes (b :: body) = escapes body := by
  rw [escapes.eq_def]
  exact if_neg hb

theorem escapes_escape (e : UInt8) (body : List UInt8) :
    escapes (92 :: e :: body) = escapes body + 1 := rfl

theorem stringEnd_append {body : List UInt8} (h : Closed body) (rest : List UInt8) :
    stringEnd (body ++ 34 :: rest) = some (body.length, escapes body) := by
  induction h with
  | nil =>
    rw [List.nil_append, stringEnd.eq_def]
    rfl
  | @byte b body hquote hslash _ ih =>
    rw [List.cons_append, stringEnd.eq_def]
    dsimp only
    rw [if_neg hquote, if_neg hslash, ih, escapes_byte hslash]
    rfl
  | @escape e body _ ih =>
    rw [List.cons_append, stringEnd.eq_def]
    show (stringEnd (body ++ 34 :: rest)).map _ = _
    rw [ih, escapes_escape]
    rfl

/-- **The first loop** finds the closing quote, when there is one. -/
theorem stringEnd_eq_some_iff {input : List UInt8} {length skipped : ℕ} :
    stringEnd input = some (length, skipped) ↔
      ∃ body rest, input = body ++ 34 :: rest ∧ Closed body ∧ length = body.length ∧
        skipped = escapes body := by
  constructor
  · intro h
    fun_induction stringEnd input generalizing length skipped with
    | case1 => cases h
    | case2 rest =>
      obtain ⟨rfl, rfl⟩ := Prod.mk.inj (Option.some.inj h)
      exact ⟨[], rest, rfl, .nil, rfl, rfl⟩
    | case3 => cases h
    | case4 e input hquote ih =>
      obtain ⟨⟨n, k⟩, hn, heq⟩ := Option.map_eq_some_iff.mp h
      obtain ⟨rfl, rfl⟩ := Prod.mk.inj heq
      obtain ⟨body, rest, rfl, hclosed, rfl, rfl⟩ := ih hn
      exact ⟨92 :: e :: body, rest, rfl, .escape hclosed, rfl, rfl⟩
    | case5 c input hquote hslash ih =>
      obtain ⟨⟨n, k⟩, hn, heq⟩ := Option.map_eq_some_iff.mp h
      obtain ⟨rfl, rfl⟩ := Prod.mk.inj heq
      obtain ⟨body, rest, rfl, hclosed, rfl, rfl⟩ := ih hn
      exact ⟨c :: body, rest, rfl, .byte hquote hslash hclosed, rfl, (escapes_byte hslash body).symm⟩
  · rintro ⟨body, rest, rfl, hclosed, rfl, rfl⟩
    exact stringEnd_append hclosed rest

/-! ### Room for the decoded text -/

/-- The escapes of a body, read from its start or from its second byte. -/
def escapeBound (body : List UInt8) : ℕ := max (escapes body) (escapes body.tail)

theorem escapeBound_byte {b : UInt8} (hb : b ≠ 92) (body : List UInt8) :
    escapeBound (b :: body) ≤ escapeBound body := by
  show max (escapes (b :: body)) (escapes body) ≤ max (escapes body) _
  rw [escapes_byte hb, max_self]
  exact le_max_left _ _

theorem escapes_cons_le (c : UInt8) (body : List UInt8) :
    escapes (c :: body) ≤ escapeBound body + 1 := by
  by_cases hc : c = 92
  · subst hc
    cases body with
    | nil => exact Nat.zero_le _
    | cons e body => exact Nat.succ_le_succ (le_max_right _ _)
  · rw [escapes_byte hc]
    exact (le_max_left _ _).trans (Nat.le_succ _)

theorem escapeBound_cons_le (c : UInt8) (body : List UInt8) :
    escapeBound (c :: body) ≤ escapeBound body + 1 :=
  max_le (escapes_cons_le c body) ((le_max_left _ _).trans (Nat.le_succ _))

theorem escapeBound_escape (e : UInt8) (body : List UInt8) :
    escapeBound (92 :: e :: body) ≤ escapeBound body + 1 :=
  max_le (Nat.succ_le_succ (le_max_left _ _)) (escapes_cons_le e body)

/-- Each backslash is one escape at most. -/
theorem escapeBound_append_le (text body : List UInt8) :
    escapeBound (text ++ body) ≤ text.count 92 + escapeBound body := by
  induction text with
  | nil => exact (Nat.zero_add _).ge
  | cons c text ih =>
    by_cases hc : c = 92
    · subst hc
      have hcons := escapeBound_cons_le 92 (text ++ body)
      rw [List.count_cons_self]
      show escapeBound (92 :: (text ++ body)) ≤ _
      omega
    · have hbyte := escapeBound_byte hc (text ++ body)
      rw [List.count_cons_of_ne hc]
      exact hbyte.trans ih

theorem hexDigitValue_isSome {digits : List UInt8} {code : ℕ} (h : hexValue digits = some code) :
    ∀ c ∈ digits, (hexDigitValue c).isSome := by
  have hgo : ∀ (digits : List UInt8) (n code : ℕ), digits.foldlM
      (fun n c => (hexDigitValue c).map fun digit => 16 * n + digit) n = some code →
      ∀ c ∈ digits, (hexDigitValue c).isSome := by
    intro digits
    induction digits with
    | nil =>
      intro n code _ c hc
      cases hc
    | cons d digits ih =>
      intro n code hcode c hc
      rw [List.foldlM_cons, Option.bind_eq_bind, Option.bind_eq_some_iff] at hcode
      obtain ⟨n', hn', hcode⟩ := hcode
      rcases List.mem_cons.mp hc with rfl | hc
      · obtain ⟨digit, hdigit, -⟩ := Option.map_eq_some_iff.mp hn'
        rw [hdigit]
        rfl
      · exact ih n' code hcode c hc
  exact hgo digits 0 code h

theorem count_slash_digits {digits : List UInt8} {code : ℕ} (h : hexValue digits = some code) :
    digits.count 92 = 0 := by
  rw [List.count_eq_zero]
  intro hmem
  have hsome := hexDigitValue_isSome h 92 hmem
  exact absurd hsome (by decide)

theorem length_utf8EncodeChar_le (c : Char) : (String.utf8EncodeChar c).length ≤ 4 := by
  rw [String.length_utf8EncodeChar]
  exact Char.utf8Size_le_four c

/-- A token makes room for what it is decoded to, and for an escape more in front of it. -/
theorem Taken.room {text bytes : List UInt8} (h : Taken text bytes) (body : List UInt8) :
    bytes.length + escapeBound (text ++ body) ≤ text.length + escapeBound body := by
  have hcount := escapeBound_append_le text body
  rcases h with h | ⟨⟨digits, rfl, hdigits, -⟩, rfl⟩
  · cases h with
    | @byte b hb =>
      have hbyte := escapeBound_byte hb body
      show 1 + escapeBound (b :: body) ≤ 1 + escapeBound body
      omega
    | @escape e b he =>
      have hescape := escapeBound_escape e body
      show 1 + escapeBound (92 :: e :: body) ≤ 2 + escapeBound body
      omega
    | @unit digits c hdigits hvalue =>
      have hshort := length_utf8EncodeChar_le c
      have hzero := count_slash_digits hvalue
      rw [List.count_cons_self, List.count_cons_of_ne (by decide), hzero] at hcount
      simp only [List.length_cons, hdigits]
      omega
    | @pair digits digits' high low c hdigits hdigits' hhigh hlow _ _ _ =>
      have hshort := length_utf8EncodeChar_le c
      have hzero := count_slash_digits hhigh
      have hzero' := count_slash_digits hlow
      rw [List.count_append, List.count_cons_self, List.count_cons_of_ne (by decide), hzero,
        List.count_cons_self, List.count_cons_of_ne (by decide), hzero'] at hcount
      simp only [List.length_cons, List.length_append, hdigits, hdigits']
      omega
  · have hle := digits.count_le_length (a := 92)
    rw [List.count_cons_self, List.count_cons_of_ne (by decide)] at hcount
    simp only [List.length_cons, List.length_nil, hdigits] at hle ⊢
    omega

theorem escapes_le_length (body : List UInt8) : escapes body ≤ body.length := by
  fun_induction escapes body with
  | case1 => exact le_rfl
  | case2 => exact Nat.zero_le _
  | case3 e body ih =>
    simp only [List.length_cons]
    omega
  | case4 c body hc ih => exact ih.trans (Nat.le_succ _)

theorem escapeBound_le_length (body : List UInt8) : escapeBound body ≤ body.length := by
  have htail := escapes_le_length body.tail
  rw [List.length_tail] at htail
  exact max_le (escapes_le_length body) (htail.trans (Nat.sub_le _ _))

theorem Taken.length_of_two {text bytes : List UInt8} (h : Taken text bytes)
    (htwo : text.length = 2) : bytes.length = 1 := by
  rcases h with h | ⟨⟨digits, rfl, hdigits, -⟩, -⟩
  · cases h with
    | byte => cases htwo
    | escape => rfl
    | unit hdigits => simp [hdigits] at htwo
    | pair hdigits hdigits' => simp [hdigits, hdigits'] at htwo
  · simp [hdigits] at htwo

/-! ### The second loop -/

section Unescape

variable {capacity : ℕ}

theorem unescape_zero (fuel : ℕ) (input output : List UInt8) :
    unescape capacity fuel input 0 output = some (some output, 0) := by
  cases fuel <;> rfl

theorem unescape_succ (fuel : ℕ) (input output : List UInt8) (left : ℕ) :
    unescape capacity (fuel + 1) input (left + 1) output =
      (stringToken input (left + 1)).bind fun token =>
      match token with
      | none => some (none, left + 1)
      | some (length, bytes) =>
        (emit capacity output bytes).bind fun output =>
        unescape capacity fuel (input.drop length) (left + 1 - length) output := rfl

/-- A token in front of the loop. -/
theorem unescape_token {fuel left : ℕ} {text rest bytes output : List UInt8}
    (h : stringToken (text ++ rest) (left + 1) = some (some (text.length, bytes)))
    (hroom : output.length + bytes.length ≤ capacity) :
    unescape capacity (fuel + 1) (text ++ rest) (left + 1) output =
      unescape capacity fuel rest (left + 1 - text.length) (output ++ bytes) := by
  rw [unescape_succ, h, Option.bind_some]
  dsimp only
  rw [emit, if_pos hroom, Option.bind_some, List.drop_left]

/-- A text in front of a body is a part of it when it is not longer. -/
theorem split_body {body rest text rest' : List UInt8} (h : body ++ 34 :: rest = text ++ rest')
    (hle : text.length ≤ body.length) :
    ∃ body', body = text ++ body' ∧ rest' = body' ++ 34 :: rest := by
  rcases List.append_eq_append_iff.mp h with ⟨more, rfl, hmore⟩ | ⟨body', rfl, hrest⟩
  · obtain rfl : more = [] := by
      rw [List.length_append] at hle
      exact List.eq_nil_of_length_eq_zero (by omega)
    exact ⟨[], by simp, by simpa using hmore.symm⟩
  · exact ⟨body', rfl, hrest⟩

/-- **The second loop is defined**, with room for the terminator at its end. -/
theorem unescape_spec {fuel : ℕ} {body output : List UInt8} (rest : List UInt8)
    (hfuel : body.length ≤ fuel)
    (hroom : output.length + body.length + 1 ≤ capacity + escapeBound body) :
    ∃ r, unescape capacity fuel (body ++ 34 :: rest) body.length output = some r ∧
      ∀ out, r.1 = some out → out.length + 1 ≤ capacity := by
  induction fuel generalizing body output with
  | zero =>
    obtain rfl := List.eq_nil_of_length_eq_zero (Nat.le_zero.mp hfuel)
    refine ⟨_, unescape_zero 0 _ _, fun out hout => ?_⟩
    obtain rfl := Option.some.inj hout
    exact hroom
  | succ fuel ih =>
    cases hlength : body.length with
    | zero =>
      obtain rfl := List.eq_nil_of_length_eq_zero hlength
      refine ⟨_, unescape_zero _ _ _, fun out hout => ?_⟩
      obtain rfl := Option.some.inj hout
      exact hroom
    | succ left =>
      have hinside : left + 1 < (body ++ 34 :: rest).length := by
        simp only [List.length_append, List.length_cons]
        omega
      rcases stringToken_cases (Nat.succ_pos left) hinside with
        hfail | ⟨text, rest', bytes, htext, htaken, hle, hstep⟩
      · exact ⟨(none, left + 1), by rw [unescape_succ, hfail]; rfl, fun out hout => by cases hout⟩
      have hpos := htaken.length_pos
      rw [htext] at hstep ⊢
      by_cases hfits : text.length ≤ body.length
      · -- a token inside the string
        obtain ⟨body', rfl, rfl⟩ := split_body htext hfits
        have htoken := htaken.room body'
        have hshort := escapeBound_le_length body'
        rw [List.length_append] at hlength hfuel hroom
        rw [unescape_token hstep (by omega), show left + 1 - text.length = body'.length by omega]
        apply ih (by omega)
        rw [List.length_append]
        omega
      · -- an escape that takes the closing quote: the last byte in front of it is a backslash
        obtain ⟨htwo, rfl⟩ : text.length = 2 ∧ left = 0 := by omega
        obtain ⟨c, rfl⟩ := List.length_eq_one_iff.mp hlength
        have hone := htaken.length_of_two htwo
        have hzero : escapeBound [c] = 0 := by
          by_cases hc : c = 92
          · rw [hc]
            rfl
          · exact Nat.le_zero.mp (escapeBound_byte hc [])
        rw [List.length_singleton] at hroom
        rw [unescape_token hstep (by omega), htwo, unescape_zero]
        refine ⟨_, rfl, fun out hout => ?_⟩
        obtain rfl := Option.some.inj hout
        rw [List.length_append]
        omega

/-- The loop keeps what it has written. -/
theorem unescape_starts {fuel left left' : ℕ} {input output out : List UInt8}
    (h : unescape capacity fuel input left output = some (some out, left')) : output <+: out := by
  induction fuel generalizing input left output with
  | zero =>
    cases left with
    | zero =>
      obtain ⟨hout, -⟩ := Prod.mk.inj (Option.some.inj h)
      obtain rfl := Option.some.inj hout
      exact List.prefix_rfl
    | succ left => cases h
  | succ fuel ih =>
    cases left with
    | zero =>
      obtain ⟨hout, -⟩ := Prod.mk.inj (Option.some.inj h)
      obtain rfl := Option.some.inj hout
      exact List.prefix_rfl
    | succ left =>
      rw [unescape_succ, Option.bind_eq_some_iff] at h
      obtain ⟨token, -, h⟩ := h
      obtain _ | ⟨length, bytes⟩ := token
      · cases h
      · obtain ⟨output', hemit, h⟩ := Option.bind_eq_some_iff.mp h
        obtain ⟨-, hemit⟩ := Option.ite_none_right_eq_some.mp hemit
        obtain rfl := Option.some.inj hemit
        exact (List.prefix_append output bytes).trans (ih h)

end Unescape

/-! ### Decoded strings -/

/-- A body of tokens, and the text it spells. -/
inductive Spells : List UInt8 → List UInt8 → Prop where
  | nil : Spells [] []
  | token {text bytes body t : List UInt8} : Token text bytes → Spells body t →
    Spells (text ++ body) (bytes ++ t)

/-- What the parser decodes a body to: a malformed token is a zero byte, which ends the C string. -/
inductive Decodes : List UInt8 → List UInt8 → Prop where
  | nil : Decodes [] []
  | token {text bytes body t : List UInt8} : Token text bytes → Decodes body t →
    Decodes (text ++ body) (bytes ++ t)
  | malformed {text body : List UInt8} : Malformed text → Decodes (text ++ body) [0]

theorem Closed.tail {c : UInt8} {body : List UInt8} (h : Closed (c :: body)) (hc : c ≠ 92) :
    Closed body := by
  cases h with
  | byte _ _ hbody => exact hbody
  | escape => exact absurd rfl hc

theorem Closed.of_escape {e : UInt8} {body : List UInt8} (h : Closed (92 :: e :: body)) :
    Closed body := by
  cases h with
  | byte _ hslash => exact absurd rfl hslash
  | escape hbody => exact hbody

theorem Closed.of_append {text body : List UInt8} (h : Closed (text ++ body))
    (htext : 92 ∉ text) : Closed body := by
  induction text with
  | nil => exact h
  | cons c text ih =>
    rw [List.mem_cons, not_or] at htext
    exact ih (Closed.tail h fun hc => htext.1 hc.symm) htext.2

/-- A token in front of a closed body leaves a closed one. -/
theorem Token.closed {text bytes body : List UInt8} (h : Token text bytes)
    (hclosed : Closed (text ++ body)) : Closed body := by
  have hdigits : ∀ {digits : List UInt8} {code : ℕ}, hexValue digits = some code → 92 ∉ digits :=
    fun hvalue => List.count_eq_zero.mp (count_slash_digits hvalue)
  cases h with
  | byte hb => exact Closed.tail hclosed hb
  | escape he => exact Closed.of_escape hclosed
  | unit _ hvalue => exact (Closed.of_escape hclosed).of_append (hdigits hvalue)
  | pair _ _ hhigh hlow _ _ _ =>
    simp only [List.cons_append, List.append_assoc] at hclosed
    have hsecond := (Closed.of_escape hclosed).of_append (hdigits hhigh)
    exact (Closed.of_escape hsecond).of_append (hdigits hlow)

theorem Taken.slash_of_two {text bytes : List UInt8} (h : Taken text bytes)
    (htwo : text.length = 2) : ∃ e, text = [92, e] := by
  rcases h with h | ⟨⟨digits, rfl, hdigits, -⟩, -⟩
  · cases h with
    | byte => cases htwo
    | @escape e b => exact ⟨e, rfl⟩
    | unit hdigits => simp [hdigits] at htwo
    | pair hdigits hdigits' => simp [hdigits, hdigits'] at htwo
  · simp [hdigits] at htwo

/-- **What the second loop writes** is the decoded string, up to the first zero byte. -/
theorem unescape_decodes {capacity fuel left : ℕ} {body rest output out : List UInt8}
    (hclosed : Closed body)
    (h : unescape capacity fuel (body ++ 34 :: rest) body.length output = some (some out, left)) :
    ∃ t, Decodes body t ∧ output ++ t <+: out ∧ (out = output ++ t ∨ 0 ∈ t) := by
  induction fuel generalizing body output with
  | zero =>
    cases hlength : body.length with
    | zero =>
      obtain rfl := List.eq_nil_of_length_eq_zero hlength
      obtain ⟨hout, -⟩ := Prod.mk.inj (Option.some.inj h)
      obtain rfl := Option.some.inj hout
      exact ⟨[], .nil, by simp, .inl (by simp)⟩
    | succ n =>
      rw [hlength] at h
      cases h
  | succ fuel ih =>
    cases hlength : body.length with
    | zero =>
      obtain rfl := List.eq_nil_of_length_eq_zero hlength
      rw [hlength, unescape_zero] at h
      obtain ⟨hout, -⟩ := Prod.mk.inj (Option.some.inj h)
      obtain rfl := Option.some.inj hout
      exact ⟨[], .nil, by simp, .inl (by simp)⟩
    | succ n =>
      have hinside : n + 1 < (body ++ 34 :: rest).length := by
        simp only [List.length_append, List.length_cons]
        omega
      rw [hlength] at h
      rcases stringToken_cases (Nat.succ_pos n) hinside with
        hfail | ⟨text, rest', bytes, htext, htaken, hle, hstep⟩
      · rw [unescape_succ, hfail] at h
        cases h
      rw [htext] at hstep h
      -- a token stays inside the body
      have hfits : text.length ≤ body.length := by
        rcases hle with hle | ⟨htwo, hone⟩
        · omega
        · -- no closed string ends in a backslash
          obtain ⟨e, rfl⟩ := htaken.slash_of_two htwo
          obtain ⟨c, rfl⟩ := List.length_eq_one_iff.mp (show body.length = 1 by omega)
          obtain ⟨rfl, -⟩ := List.cons.inj htext
          cases hclosed with
          | byte hquote hslash => exact absurd rfl hslash
      obtain ⟨body', rfl, rfl⟩ := split_body htext hfits
      -- otherwise the write behind the output would be undefined
      have hroom : output.length + bytes.length ≤ capacity := by
        by_contra hno
        rw [unescape_succ, hstep, Option.bind_some] at h
        dsimp only at h
        rw [emit, if_neg hno] at h
        cases h
      rw [List.length_append] at hlength
      rw [unescape_token hstep hroom, show n + 1 - text.length = body'.length by omega] at h
      rcases htaken with htoken | ⟨hmalformed, rfl⟩
      · -- a token is taken, and the induction goes on behind it
        obtain ⟨t, hdecodes, hstart, heq⟩ := ih (htoken.closed hclosed) h
        rw [List.append_assoc] at hstart heq
        refine ⟨bytes ++ t, .token htoken hdecodes, hstart, ?_⟩
        rcases heq with rfl | hzero
        · exact .inl rfl
        · exact .inr (List.mem_append_right _ hzero)
      · -- a malformed token is written as a zero byte, which ends the text
        exact ⟨[0], .malformed hmalformed, unescape_starts h, .inr (by simp)⟩

/-- **Every spelling of a text is accepted.** -/
theorem unescape_of_spells {capacity fuel : ℕ} {body t output : List UInt8} (h : Spells body t)
    (rest : List UInt8) (hfuel : body.length ≤ fuel)
    (hroom : output.length + t.length ≤ capacity) :
    unescape capacity fuel (body ++ 34 :: rest) body.length output = some (some (output ++ t), 0) := by
  induction h generalizing fuel output with
  | nil =>
    rw [List.append_nil]
    exact unescape_zero fuel _ output
  | @token text bytes body t htoken _ ih =>
    have hpos := Taken.length_pos (.inl htoken)
    rw [List.length_append] at hfuel hroom ⊢
    obtain ⟨fuel, rfl⟩ : ∃ n, fuel = n + 1 := ⟨fuel - 1, by omega⟩
    obtain ⟨left, hleft⟩ : ∃ left, text.length + body.length = left + 1 :=
      ⟨text.length + body.length - 1, by omega⟩
    have hstep := @stringToken_of_token _ _ htoken (left + 1) (by omega) (body ++ 34 :: rest)
    rw [hleft, List.append_assoc, unescape_token hstep (by omega),
      show left + 1 - text.length = body.length by omega,
      ih (by omega) (by rw [List.length_append]; omega), List.append_assoc]

/-- A text is not longer than its spelling, with an escape less. -/
theorem Spells.room {body t : List UInt8} (h : Spells body t) :
    t.length + escapeBound body ≤ body.length := by
  induction h with
  | nil => exact le_rfl
  | @token text bytes body t htoken _ ih =>
    have hroom := Taken.room (.inl htoken) body
    simp only [List.length_append]
    omega

end IotDeviceSdk.Json

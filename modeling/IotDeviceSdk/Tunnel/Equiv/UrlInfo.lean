import IotDeviceSdk.Tunnel.UrlInfo

/-!
# The parts of a tunnel URL

`WssClientSplitUrl` looks for the first `':'` in all of the text behind the protocol.  So it meets
its purpose (`SplitsRight`) exactly for the texts of `SiteAndPath`, in which that `':'` does not
come after the first `'/'` (`wssClientSplitUrl_right_iff`).
-/

namespace IotDeviceSdk.Tunnel

open Prog Text

variable {env : Env} {siteHead pathHead site rest : List UInt8} {port : Option (List UInt8)}

/-! ### Texts of a URL -/

/-- A text with a site, perhaps a port, and a path, of which the first `':'` is the one of the
port. -/
structure SiteAndPath (siteHead site : List UInt8) (port : Option (List UInt8))
    (rest : List UInt8) : Prop where
  siteHead_eq : siteHead = site ++ portText port ++ slash :: rest
  site_ne : site ≠ []
  colon_not_mem : colon ∉ site
  slash_not_mem : slash ∉ site
  port_ne : ∀ text, port = some text → text ≠ [] ∧ slash ∉ text
  rest_eq : port = none → colon ∉ rest

/-- A tunnel URL. -/
structure IsTunnelUrl (url site : List UInt8) (port : Option (List UInt8)) (rest : List UInt8) :
    Prop where
  url_eq : url = ascii "wss://" ++ (site ++ portText port ++ slash :: rest)
  site_ne : site ≠ []
  colon_not_mem : colon ∉ site
  slash_not_mem : slash ∉ site
  port_ne : ∀ text, port = some text → text ≠ [] ∧ colon ∉ text ∧ slash ∉ text

namespace SiteAndPath

theorem authority (h : SiteAndPath siteHead site port rest) : slash ∉ site ++ portText port := by
  rw [List.mem_append, not_or]
  exact ⟨h.slash_not_mem, slash_not_mem_portText fun text htext => (h.port_ne text htext).2⟩

/-- The parts of a text are determined. -/
theorem unique {site' rest' : List UInt8} {port' : Option (List UInt8)}
    (h : SiteAndPath siteHead site port rest) (hsite' : colon ∉ site')
    (hauthority : slash ∉ site' ++ portText port')
    (heq : siteHead = site' ++ portText port' ++ slash :: rest') :
    site = site' ∧ port = port' ∧ rest = rest' := by
  obtain ⟨hcut, rfl⟩ := append_cons_inj h.authority hauthority (h.siteHead_eq.symm.trans heq)
  obtain ⟨rfl, rfl⟩ := portText_inj h.colon_not_mem hsite' hcut
  exact ⟨rfl, rfl, rfl⟩

/-- The path is found behind the site and the port. -/
theorem strchr_slash (h : SiteAndPath siteHead site port rest) :
    strchr siteHead slash = some (slash :: rest) := by
  rw [h.siteHead_eq]
  exact strchr_append h.authority

end SiteAndPath

/-! ### The copies -/

/-- The text that `CopyStrValue` makes, `none` when there is nothing to copy. -/
def copiedText (src : List UInt8) (length : ℤ) : Option (List UInt8) :=
  if length ≤ 0 then none else some (src.take length.toNat)

theorem copied_text {src : List UInt8} (hsrc : 0 ∉ src) {length : ℤ} {r : ℤ × Option CharBlock}
    (h : Copied none (some (.ofBytes src)) length r) (hr : r.1 = IOTA_SUCCESS) :
    r.2.map CharBlock.text = copiedText src length := by
  cases h with
  | nothing hle => exact (if_pos hle).symm
  | failed => exact absurd hr (by decide)
  | @copied block hpos hblock =>
    obtain rfl := Option.some.inj hblock
    rw [copiedText, if_neg (by omega), Option.map_some, CharBlock.text_ofBytes hsrc,
      CharBlock.text_padded fun hmem => hsrc (List.mem_of_mem_take hmem)]

/-- A copy and what comes after it: `P` holds when the copy fails as well, `Q` when no allocation
fails. -/
theorem returns_copy {src : List UInt8} (hsrc : 0 ∉ src) (length : ℤ)
    {next : ℤ × Option CharBlock → Sdk (ℤ × UrlInfo)} {P Q : ℤ × UrlInfo → Prop}
    (hfailed : P (IOTA_FAILURE, {}))
    (hnext : ∀ ret copy, copy.map CharBlock.text = copiedText src length →
      Returns env (next (ret, copy)) fun r => P r ∧ (env.AllocsSucceed → Q r)) :
    Returns env (copyStrValue none (some (.ofBytes src)) length >>= fun r =>
      if r.1 ≠ IOTA_SUCCESS then pure (IOTA_FAILURE, {}) else next r) fun r =>
        P r ∧ (env.AllocsSucceed → Q r) := by
  refine (copyStrValue_returns none (some (.ofBytes src)) length).bind ?_
  rintro ⟨ret, copy⟩ ⟨hcopied, hsome⟩
  dsimp only
  by_cases hret : ret = IOTA_SUCCESS
  · rw [if_neg (not_not.mpr hret)]
    exact hnext ret copy (copied_text hsrc hcopied hret)
  · rw [if_pos hret]
    refine returns_pure ⟨hfailed, fun hA => absurd ?_ hret⟩
    cases hcopied with
    | nothing => rfl
    | failed hpos => exact absurd rfl (hsome hA hpos (by simp))
    | copied => rfl

/-- The fields of a `URL_INFO` that is filled from a text. -/
structure FilledFrom (siteHead pathHead : List UInt8) (info : UrlInfo) : Prop where
  site : info.site.map CharBlock.text = copiedText siteHead (siteAndPort siteHead pathHead).siteLen
  port : info.port.map CharBlock.text =
    copiedText (siteAndPort siteHead pathHead).portHead (siteAndPort siteHead pathHead).portLen
  path : info.path.map CharBlock.text = copiedText pathHead pathHead.length
  token : info.token ≠ none

theorem zero_not_mem_portHead (hsite : 0 ∉ siteHead) :
    0 ∉ (siteAndPort siteHead pathHead).portHead := by
  unfold siteAndPort
  cases hport : strchr siteHead colon with
  | none =>
    show (0 : UInt8) ∉ TUNNEL_WSSCLIENT_DEFAULT_PORT
    decide
  | some portHead =>
    obtain ⟨before, after, rfl, -, rfl⟩ := strchr_eq_some_iff.mp hport
    intro hzero
    exact hsite (List.mem_append_right _ (List.mem_cons_of_mem _ hzero))

/-- **The copies** of `WssClientSplitUrl` once the protocol and the path are found. -/
theorem wssClientSplitUrl_found (url token : CString)
    (hprotocol : ascii "wss://" <:+: url.bytes)
    (hpath : strchr (url.bytes.drop 6) slash = some pathHead) :
    Returns env (wssClientSplitUrl (some url) (some token)) fun r =>
      (r.1 = IOTA_SUCCESS → FilledFrom (url.bytes.drop 6) pathHead r.2) ∧
        (env.AllocsSucceed → r.1 = IOTA_SUCCESS) := by
  have hsite : 0 ∉ url.bytes.drop 6 := fun hzero => url.zero_not_mem (List.mem_of_mem_drop hzero)
  have hpathHead : 0 ∉ pathHead := by
    obtain ⟨before, after, hcut, -, rfl⟩ := strchr_eq_some_iff.mp hpath
    exact fun hzero => hsite (hcut ▸ List.mem_append_right _ hzero)
  have hfound : findFirst (ascii "wss://") url.bytes ≠ none := by
    rw [ne_eq, findFirst_eq_none]
    exact not_not.mpr hprotocol
  let Filled := fun r : ℤ × UrlInfo => r.1 = IOTA_SUCCESS →
    FilledFrom (url.bytes.drop 6) pathHead r.2
  let Success := fun r : ℤ × UrlInfo => r.1 = IOTA_SUCCESS
  have hfailed : Filled (IOTA_FAILURE, {}) := fun h => absurd h (by decide)
  have hlength : (ascii "wss://").length = 6 := rfl
  unfold wssClientSplitUrl
  show Returns env (pure token >>= _) fun r => Filled r ∧ (env.AllocsSucceed → Success r)
  rw [pure_bind]
  dsimp only
  rw [if_neg hfound, hlength, hpath]
  dsimp only
  -- the path, the site and the port are copied in this order
  refine returns_copy hpathHead _ hfailed fun _ path hpath => ?_
  refine returns_copy hsite _ hfailed fun _ site hsiteCopy => ?_
  refine returns_copy (zero_not_mem_portHead hsite) _ hfailed fun _ port hport => ?_
  refine malloc_returns.bind fun allocated hallocated => ?_
  cases allocated with
  | false => exact returns_pure ⟨hfailed, fun hA => absurd (hallocated hA) (by decide)⟩
  | true => exact returns_pure ⟨fun _ => ⟨hsiteCopy, hport, hpath, by simp⟩, fun _ => rfl⟩

/-! ### The parts -/

theorem copiedText_ne_none_iff {src : List UInt8} {length : ℤ} :
    copiedText src length ≠ none ↔ 0 < length := by
  unfold copiedText
  split
  · simp only [ne_eq, not_true_eq_false, false_iff]
    omega
  · simp only [ne_eq, reduceCtorEq, not_false_eq_true, true_iff]
    omega

theorem copiedText_append {before : List UInt8} (after : List UInt8) (hne : before ≠ []) :
    copiedText (before ++ after) before.length = some before := by
  have hpos := List.length_pos_iff.mpr hne
  rw [copiedText, if_neg (by omega), Int.toNat_natCast, List.take_left]

/-- What is copied of such a text. -/
theorem SiteAndPath.copies (h : SiteAndPath siteHead site port rest) :
    copiedText siteHead (siteAndPort siteHead (slash :: rest)).siteLen = some site ∧
      copiedText (siteAndPort siteHead (slash :: rest)).portHead
        (siteAndPort siteHead (slash :: rest)).portLen =
          some (port.getD TUNNEL_WSSCLIENT_DEFAULT_PORT) := by
  obtain rfl := h.siteHead_eq
  cases port with
  | none =>
    -- without a `':'` in the rest the default port is taken
    have hcolon : strchr (site ++ portText none ++ slash :: rest) colon = none := by
      refine strchr_eq_none_iff.mpr ?_
      have hrest := h.rest_eq rfl
      simp [portText, h.colon_not_mem, hrest]
    have hlength : ((site ++ portText none ++ slash :: rest).length : ℤ) - (slash :: rest).length =
        site.length := by
      simp [portText]
    unfold siteAndPort
    rw [hcolon, portText, List.append_nil] at *
    refine ⟨?_, rfl⟩
    dsimp only
    rw [hlength]
    exact copiedText_append _ h.site_ne
  | some text =>
    -- the port goes from the `':'` to the path
    have hsplit : site ++ portText (some text) ++ slash :: rest =
        site ++ colon :: (text ++ slash :: rest) := by
      simp [portText]
    have hcolon : strchr (site ++ colon :: (text ++ slash :: rest)) colon =
        some (colon :: (text ++ slash :: rest)) := strchr_append h.colon_not_mem
    have hsite : ((site ++ colon :: (text ++ slash :: rest)).length : ℤ) -
        (colon :: (text ++ slash :: rest)).length = site.length := by
      simp
    have hport : ((text ++ slash :: rest).length : ℤ) - (slash :: rest).length = text.length := by
      simp
    unfold siteAndPort
    rw [hsplit, hcolon]
    dsimp only [List.tail_cons]
    rw [hsite, hport]
    exact ⟨copiedText_append _ h.site_ne, copiedText_append _ (h.port_ne text rfl).1⟩

/-- The text has these parts when the site and the port are copied. -/
theorem siteAndPath_of_copies (hpath : strchr siteHead slash = some pathHead)
    (hsite : 0 < (siteAndPort siteHead pathHead).siteLen)
    (hport : 0 < (siteAndPort siteHead pathHead).portLen) :
    ∃ site port rest, SiteAndPath siteHead site port rest := by
  obtain ⟨before, rest, rfl, hslash, rfl⟩ := strchr_eq_some_iff.mp hpath
  unfold siteAndPort at hsite hport
  cases hcolon : strchr (before ++ slash :: rest) colon with
  | none =>
    have hfree := strchr_eq_none_iff.mp hcolon
    rw [hcolon] at hsite
    simp only [List.length_append] at hsite
    refine ⟨before, none, rest, by simp [portText], ?_, ?_, hslash, by simp, ?_⟩
    · rintro rfl
      simp at hsite
    · exact fun hmem => hfree (List.mem_append_left _ hmem)
    · exact fun _ hmem => hfree (List.mem_append_right _ (List.mem_cons_of_mem _ hmem))
  | some portHead =>
    obtain ⟨site, after, hcut, hfree, rfl⟩ := strchr_eq_some_iff.mp hcolon
    rw [hcolon] at hsite hport
    have hlength := congrArg List.length hcut
    simp only [List.length_append, List.length_cons, List.tail_cons] at hsite hport hlength
    -- the first `':'` is in front of the first `'/'`
    have hstart : site ++ [colon] <+: before := by
      have hwhole : site ++ [colon] <+: before ++ slash :: rest :=
        ⟨after, by rw [hcut, List.append_assoc]; rfl⟩
      refine List.prefix_of_prefix_length_le hwhole ⟨_, rfl⟩ ?_
      rw [List.length_append, List.length_singleton]
      omega
    obtain ⟨text, rfl⟩ := hstart
    refine ⟨site, some text, rest, by simp [portText], ?_, hfree, ?_, ?_, by simp⟩
    · rintro rfl
      simp at hsite hlength
      omega
    · exact fun hmem => hslash (by simp [hmem])
    · rintro _ ⟨⟩
      refine ⟨?_, fun hmem => hslash (by simp [hmem])⟩
      rintro rfl
      simp at hport hlength
      omega

/-! ### The purpose -/

/-- **The purpose of `WssClientSplitUrl`**: what it reports as a success has all parts, and a tunnel
URL is split into its parts when no allocation fails. -/
structure SplitsRight (env : Env) (url : List UInt8) (r : ℤ × UrlInfo) : Prop where
  filled : r.1 = IOTA_SUCCESS →
    r.2.site ≠ none ∧ r.2.port ≠ none ∧ r.2.path ≠ none ∧ r.2.token ≠ none
  parts : ∀ site port rest, IsTunnelUrl url site port rest → env.AllocsSucceed →
    r.1 = IOTA_SUCCESS ∧ r.2.site.map CharBlock.text = some site ∧
      r.2.port.map CharBlock.text = some (port.getD TUNNEL_WSSCLIENT_DEFAULT_PORT) ∧
      r.2.path.map CharBlock.text = some (slash :: rest)

/-- When there is a protocol, and a `'/'` behind its six characters, these are a site, perhaps a
port, and a path, and no other `':'` comes first. -/
def SplitsWhen (url : List UInt8) : Prop :=
  ascii "wss://" <:+: url → slash ∈ url.drop 6 →
    ∃ site port rest, SiteAndPath (url.drop 6) site port rest

/-- A URL that is reported as an error. -/
theorem wssClientSplitUrl_error (url token : CString)
    (h : ¬(ascii "wss://" <:+: url.bytes ∧ slash ∈ url.bytes.drop 6)) :
    Returns env (wssClientSplitUrl (some url) (some token)) fun r => r.1 ≠ IOTA_SUCCESS := by
  have hlength : (ascii "wss://").length = 6 := rfl
  unfold wssClientSplitUrl
  show Returns env (pure token >>= _) fun r : ℤ × UrlInfo => r.1 ≠ IOTA_SUCCESS
  rw [pure_bind]
  dsimp only
  rw [hlength]
  by_cases hprotocol : findFirst (ascii "wss://") url.bytes = none
  · rw [if_pos hprotocol]
    exact returns_pure (by decide)
  · have hslash : strchr (url.bytes.drop 6) slash = none := by
      refine strchr_eq_none_iff.mpr fun hmem => h ⟨?_, hmem⟩
      rw [findFirst_eq_none] at hprotocol
      exact not_not.mp hprotocol
    rw [if_neg hprotocol, hslash]
    exact returns_pure (by decide)

theorem drop_tunnelUrl (rest : List UInt8) : (ascii "wss://" ++ rest).drop 6 = rest := rfl

theorem IsTunnelUrl.found {url : List UInt8} (h : IsTunnelUrl url site port rest) :
    ascii "wss://" <:+: url ∧ slash ∈ url.drop 6 := by
  rw [h.url_eq, drop_tunnelUrl]
  exact ⟨(List.prefix_append _ _).isInfix, by simp⟩

/-- The parts of a tunnel URL are those that are found. -/
theorem IsTunnelUrl.parts_eq {url site' rest' : List UInt8} {port' : Option (List UInt8)}
    (h : IsTunnelUrl url site' port' rest') (hparts : SiteAndPath (url.drop 6) site port rest) :
    site = site' ∧ port = port' ∧ rest = rest' := by
  refine hparts.unique h.colon_not_mem ?_ (by rw [h.url_eq, drop_tunnelUrl])
  rw [List.mem_append, not_or]
  exact ⟨h.slash_not_mem, slash_not_mem_portText fun text htext => (h.port_ne text htext).2.2⟩

/-- The parts that are found are the ones to be split into. -/
theorem FilledFrom.splitsRight {url : List UInt8} {r : ℤ × UrlInfo}
    (hparts : SiteAndPath (url.drop 6) site port rest)
    (hfilled : r.1 = IOTA_SUCCESS → FilledFrom (url.drop 6) (slash :: rest) r.2)
    (hsuccess : env.AllocsSucceed → r.1 = IOTA_SUCCESS) : SplitsRight env url r := by
  obtain ⟨hsite, hport⟩ := hparts.copies
  have hpath : copiedText (slash :: rest) (slash :: rest).length = some (slash :: rest) := by
    have h := copiedText_append [] (List.cons_ne_nil slash rest)
    rwa [List.append_nil] at h
  have hfields : r.1 = IOTA_SUCCESS → r.2.site.map CharBlock.text = some site ∧
      r.2.port.map CharBlock.text = some (port.getD TUNNEL_WSSCLIENT_DEFAULT_PORT) ∧
      r.2.path.map CharBlock.text = some (slash :: rest) ∧ r.2.token ≠ none := by
    intro hret
    obtain ⟨hsite', hport', hpath', htoken⟩ := hfilled hret
    exact ⟨hsite'.trans hsite, hport'.trans hport, hpath'.trans hpath, htoken⟩
  constructor
  · intro hret
    obtain ⟨hsite', hport', hpath', htoken⟩ := hfields hret
    refine ⟨?_, ?_, ?_, htoken⟩
    · rintro hnone
      rw [hnone] at hsite'
      cases hsite'
    · rintro hnone
      rw [hnone] at hport'
      cases hport'
    · rintro hnone
      rw [hnone] at hpath'
      cases hpath'
  · -- the parts of the URL are the ones that were found, as both end at the first `'/'`
    intro site' port' rest' hurl hA
    obtain ⟨rfl, rfl, rfl⟩ := hurl.parts_eq hparts
    obtain ⟨hsite', hport', hpath', -⟩ := hfields (hsuccess hA)
    exact ⟨hsuccess hA, hsite', hport', hpath'⟩

/-- **`WssClientSplitUrl` splits a URL right**, in every environment, exactly when the first `':'`
behind the protocol does not come after the first `'/'`, and there is a site, and a port behind the
`':'`. -/
theorem wssClientSplitUrl_right_iff (url token : CString) :
    (∀ env, Returns env (wssClientSplitUrl (some url) (some token)) (SplitsRight env url.bytes)) ↔
      SplitsWhen url.bytes := by
  constructor
  · intro h hprotocol hslash
    obtain ⟨before, rest, hcut, hfree⟩ := List.eq_append_cons_of_mem hslash
    have hpath : strchr (url.bytes.drop 6) slash = some (slash :: rest) :=
      strchr_eq_some_iff.mpr ⟨before, rest, hcut, hfree, rfl⟩
    have hfound : Returns Env.plentiful _ _ := wssClientSplitUrl_found url token hprotocol hpath
    -- in an environment with memory the run is a success, so its texts are there
    obtain ⟨r, -, hright, hfilled, hsuccess⟩ :=
      ((h .plentiful).and_yields hfound.yields).exists_outcome
    have hret := hsuccess Env.plentiful_allocsSucceed
    obtain ⟨hsite, hport, -⟩ := hright.filled hret
    have hcopies := hfilled hret
    refine siteAndPath_of_copies hpath ?_ ?_
    · rw [← copiedText_ne_none_iff, ← hcopies.site, ne_eq, Option.map_eq_none_iff]
      exact hsite
    · rw [← copiedText_ne_none_iff, ← hcopies.port, ne_eq, Option.map_eq_none_iff]
      exact hport
  · intro hwhen env
    by_cases hfound : ascii "wss://" <:+: url.bytes ∧ slash ∈ url.bytes.drop 6
    · obtain ⟨site, port, rest, hparts⟩ := hwhen hfound.1 hfound.2
      refine (wssClientSplitUrl_found url token hfound.1 hparts.strchr_slash).mono ?_
      exact fun r hr => FilledFrom.splitsRight hparts hr.1 hr.2
    · refine (wssClientSplitUrl_error url token hfound).mono fun r hr => ?_
      exact ⟨fun hret => absurd hret hr, fun _ _ _ hurl => absurd hurl.found hfound⟩

/-- A `':'` in the path: the site is cut at it, and there is no port. -/
theorem wssClientSplitUrl_colon_in_path :
    ¬∀ (url token : CString) (env : Env),
      Returns env (wssClientSplitUrl (some url) (some token)) (SplitsRight env url.bytes) := by
  intro h
  have hrun : (wssClientSplitUrl (some ⟨ascii "wss://h/a:b", by decide⟩) (some ⟨[], by decide⟩)
      Env.plentiful default).map (fun r => (r.1.1, r.1.2.port)) = some (IOTA_SUCCESS, none) := by
    decide +kernel
  obtain ⟨r, s', hr, hright⟩ :=
    h ⟨ascii "wss://h/a:b", by decide⟩ ⟨[], by decide⟩ Env.plentiful default
  rw [hr] at hrun
  obtain ⟨hret, hport⟩ := Prod.mk.inj (Option.some.inj hrun)
  exact (hright.filled hret).2.1 hport

end IotDeviceSdk.Tunnel

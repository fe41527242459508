import IotDeviceSdk.Agentlite.Equiv.FileName

/-!
# The host and the port of a package

`IOTA_GetUrlData` takes the text up to the first `':'` behind the `"//"` for the host
(`iotaGetUrlData_success_iff`).  That is wrong when there is no port and a `':'` in the path, and
`IOTA_GetUrlData` does not fail when a `'/'` comes after it (`Misread`, `urlDataRight_iff`).
-/

namespace IotDeviceSdk.Agentlite

open Text

variable {url host text rest after : List UInt8} {port ip : List UInt8}

/-- A copy that does not fit. -/
theorem strncpyS_error {dest : List UInt8} (hroom : ¬Room dest text.length) (after : List UInt8) :
    (strncpyS dest (text ++ after) text.length).2 ≠ EOK := by
  have hnot : ¬(text.length < dest.length ∧ dest.length ≤ SECUREC_STRING_MAX_LEN) :=
    fun h => hroom ⟨h.1, h.2⟩
  unfold strncpyS
  dsimp only
  by_cases hsize : dest.length = 0 ∨ dest.length > SECUREC_STRING_MAX_LEN
  · rw [if_pos hsize]
    show ERANGE ≠ EOK
    decide
  · have hreset : ERANGE_AND_RESET ≠ EOK := by decide
    rw [if_neg hsize]
    by_cases hcount : text.length > SECUREC_STRING_MAX_LEN
    · rw [if_pos hcount]
      exact hreset
    · have hfull : dest.length ≤ min text.length (text ++ after).length := by
        rw [List.length_append]
        omega
      rw [if_neg hcount, if_pos hfull]
      exact hreset

/-- The text behind the first `"//"`, with the first `':'` and the first `'/'` after it. -/
structure FoundIn (url host text rest : List UInt8) : Prop where
  found : findFirst DOUBLE_OBLIQUE_LINE url =
    some (slash :: slash :: (host ++ colon :: (text ++ slash :: rest)))
  colon_not_mem : colon ∉ host
  slash_not_mem : slash ∉ text

theorem findFirst_colon (hhost : colon ∉ host) (after : List UInt8) :
    findFirst COLON (slash :: slash :: (host ++ colon :: after)) = some (colon :: after) := by
  have hfree : colon ∉ slash :: slash :: host := by simpa using hhost
  show findFirst [colon] ((slash :: slash :: host) ++ colon :: after) = _
  exact findFirst_singleton hfree

theorem findFirst_slash (htext : slash ∉ text) (rest : List UInt8) :
    findFirst SINGLE_SLANT (colon :: (text ++ slash :: rest)) = some (slash :: rest) := by
  have hfree : slash ∉ colon :: text := by simpa using htext
  show findFirst [slash] ((colon :: text) ++ slash :: rest) = _
  exact findFirst_singleton hfree

/-- The count for the host is its length. -/
theorem host_count (host after : List UInt8) :
    (slash :: slash :: (host ++ colon :: after)).length - (colon :: after).length -
      DOUBLE_OBLIQUE_LINE.length = host.length := by
  simp [DOUBLE_OBLIQUE_LINE]
  omega

theorem host_drop (host after : List UInt8) :
    (slash :: slash :: (host ++ colon :: after)).drop DOUBLE_OBLIQUE_LINE.length =
      host ++ colon :: after := rfl

theorem iotaGetUrlData_no_host {url : CString}
    (hfound : findFirst DOUBLE_OBLIQUE_LINE url.bytes =
      some (slash :: slash :: (host ++ colon :: after))) (hhost : colon ∉ host)
    (hroom : ¬Room ip host.length) : (iotaGetUrlData url port ip).uri = none := by
  unfold iotaGetUrlData
  rw [hfound]
  dsimp only
  rw [findFirst_colon hhost]
  dsimp only
  rw [host_count, host_drop, if_pos (show _ ≠ 0 from strncpyS_error hroom _)]

/-- The first part of `IOTA_GetUrlData`: the host. -/
theorem iotaGetUrlData_host {url : CString}
    (hfound : findFirst DOUBLE_OBLIQUE_LINE url.bytes =
      some (slash :: slash :: (host ++ colon :: after))) (hhost : colon ∉ host)
    (hroom : Room ip host.length) :
    iotaGetUrlData url port ip =
      match findFirst SINGLE_SLANT (colon :: after) with
      | none => { uri := none, port := (strncpyS port after (SECUREC_STRING_MAX_LEN + 1)).1,
                  ip := overwrite ip 0 (host ++ [0]) }
      | some uri =>
        let (port, ret) := strncpyS port after ((colon :: after).length - uri.length - 1)
        if ret ≠ EOK then { uri := none, port := port, ip := overwrite ip 0 (host ++ [0]) }
        else { uri := some uri, port := port, ip := overwrite ip 0 (host ++ [0]) } := by
  unfold iotaGetUrlData
  rw [hfound]
  dsimp only
  rw [findFirst_colon hhost]
  dsimp only
  rw [host_count, host_drop, strncpyS_eq hroom]
  rfl

/-- The count for the port is its length. -/
theorem port_count (text rest : List UInt8) :
    (colon :: (text ++ slash :: rest)).length - (slash :: rest).length - 1 = text.length := by
  simp
  omega

/-- **A success** leaves the text in front of the first `':'` as the host, and the text between it
and the next `'/'` as the port. -/
theorem iotaGetUrlData_found {url : CString} (h : FoundIn url.bytes host text rest)
    (hip : Room ip host.length) (hport : Room port text.length) :
    iotaGetUrlData url port ip =
      { uri := some (slash :: rest)
        port := overwrite port 0 (text ++ [0])
        ip := overwrite ip 0 (host ++ [0]) } := by
  rw [iotaGetUrlData_host h.found h.colon_not_mem hip, findFirst_slash h.slash_not_mem]
  dsimp only
  rw [port_count, strncpyS_eq hport]
  rfl

theorem iotaGetUrlData_success_iff {url : CString} {uri : List UInt8} :
    (iotaGetUrlData url port ip).uri = some uri ↔
      ∃ host text rest, FoundIn url.bytes host text rest ∧ Room ip host.length ∧
        Room port text.length ∧ uri = slash :: rest := by
  constructor
  · intro h
    -- each exit of the function leads to a contradiction, or gives one of the texts
    cases htmp : findFirst DOUBLE_OBLIQUE_LINE url.bytes with
    | none =>
      unfold iotaGetUrlData at h
      rw [htmp] at h
      cases h
    | some tmp =>
      obtain ⟨before, -, ⟨after, rfl⟩, -⟩ := findFirst_eq_some_iff.mp htmp
      change _ = some (slash :: slash :: after) at htmp
      by_cases hcolon : colon ∈ after
      · obtain ⟨host, after, rfl, hhost⟩ := List.eq_append_cons_of_mem hcolon
        by_cases hip : Room ip host.length
        · rw [iotaGetUrlData_host htmp hhost hip] at h
          by_cases hslash : slash ∈ after
          · obtain ⟨text, rest, rfl, htext⟩ := List.eq_append_cons_of_mem hslash
            rw [findFirst_slash htext] at h
            dsimp only at h
            rw [port_count] at h
            by_cases hport : Room port text.length
            · rw [strncpyS_eq hport, if_neg (not_not.mpr rfl)] at h
              exact ⟨host, text, rest, ⟨htmp, hhost, htext⟩, hip, hport, (Option.some.inj h).symm⟩
            · rw [if_pos (strncpyS_error hport _)] at h
              cases h
          · have hnone : findFirst SINGLE_SLANT (colon :: after) = none :=
              strchr_eq_none_iff.mpr (by simpa using hslash)
            rw [hnone] at h
            cases h
        · rw [iotaGetUrlData_no_host htmp hhost hip] at h
          cases h
      · have hnone : findFirst COLON (slash :: slash :: after) = none :=
          strchr_eq_none_iff.mpr (by simpa using hcolon)
        unfold iotaGetUrlData at h
        rw [htmp] at h
        dsimp only at h
        rw [hnone] at h
        cases h
  · rintro ⟨host, text, rest, hfound, hip, hport, rfl⟩
    rw [iotaGetUrlData_found hfound hip hport]

/-! ### The purpose -/

/-- The URL of a package. -/
structure IsPackageUrl (url host : List UInt8) (port : Option (List UInt8)) (rest : List UInt8) :
    Prop where
  url_eq : ∃ scheme, slash ∉ scheme ∧
    url = scheme ++ ascii "://" ++ (host ++ portText port ++ slash :: rest)
  host_ne : host ≠ []
  colon_not_mem : colon ∉ host
  slash_not_mem : slash ∉ host
  digits : ∀ text, port = some text → ∀ c ∈ text, 48 ≤ c ∧ c ≤ 57

/-- **The purpose of `IOTA_GetUrlData`**: it fails, or there is no `'/'` in the host that it leaves,
and the host, the port and the path are those of the URL. -/
structure UrlDataRight (url : List UInt8) (data : UrlData) : Prop where
  host_free : data.uri ≠ none → slash ∉ cString data.ip
  parts : ∀ host port rest, IsPackageUrl url host port rest → data.uri ≠ none →
    cString data.ip = host ∧ cString data.port = port.getD [] ∧ data.uri = some (slash :: rest)

/-- There is a `'/'` between the first `"//"` and the next `':'`, another `'/'` behind that `':'`,
and there is room for the texts in front of the `':'` and of the second `'/'`. -/
def Misread (url port ip : List UInt8) : Prop :=
  ∃ host text rest, FoundIn url host text rest ∧ slash ∈ host ∧ Room ip host.length ∧
    Room port text.length

theorem FoundIn.mem {c : UInt8} (h : FoundIn url host text rest) (hc : c ∈ host ∨ c ∈ text) :
    c ∈ url := by
  obtain ⟨before, hurl, -, -⟩ := findFirst_eq_some_iff.mp h.found
  rw [hurl]
  rcases hc with hc | hc
  · simp [hc]
  · simp [hc]

/-- The parts that are found in the URL of a package, if there is no `'/'` in the host. -/
theorem FoundIn.eq_of_isPackageUrl {host' rest' : List UInt8} {port' : Option (List UInt8)}
    (h : FoundIn url host text rest) (hslash : slash ∉ host)
    (hurl : IsPackageUrl url host' port' rest') :
    host = host' ∧ some text = port' ∧ rest = rest' := by
  obtain ⟨scheme, hscheme, rfl⟩ := hurl.url_eq
  have hsplit : scheme ++ ascii "://" ++ (host' ++ portText port' ++ slash :: rest') =
      (scheme ++ [colon]) ++ slash :: slash :: (host' ++ portText port' ++ slash :: rest') := by
    have hmark : ascii "://" = [colon, slash, slash] := by decide
    rw [hmark]
    simp
  have hfirst : findFirst DOUBLE_OBLIQUE_LINE
      (scheme ++ ascii "://" ++ (host' ++ portText port' ++ slash :: rest')) =
      some (slash :: slash :: (host' ++ portText port' ++ slash :: rest')) := by
    have hfree : slash ∉ scheme ++ [colon] := by simpa using hscheme
    rw [hsplit]
    exact (findFirst_append hfree).trans (findFirst_of_start ⟨_, rfl⟩)
  -- the scheme has no `'/'`, so the first `"//"` is the one behind it
  have hfound := Option.some.inj (h.found.symm.trans hfirst)
  have hcut : (host ++ portText (some text)) ++ slash :: rest =
      (host' ++ portText port') ++ slash :: rest' := by
    rw [List.append_assoc]
    exact (List.cons.inj (List.cons.inj hfound).2).2
  have hleft : slash ∉ host ++ portText (some text) := by
    rw [List.mem_append, not_or]
    refine ⟨hslash, slash_not_mem_portText ?_⟩
    rintro _ ⟨⟩
    exact h.slash_not_mem
  have hright : slash ∉ host' ++ portText port' := by
    rw [List.mem_append, not_or]
    refine ⟨hurl.slash_not_mem, slash_not_mem_portText fun digits hdigits hmem => ?_⟩
    exact absurd (hurl.digits digits hdigits slash hmem).1 (by decide)
  obtain ⟨hauthority, rfl⟩ := append_cons_inj hleft hright hcut
  obtain ⟨rfl, hport⟩ := portText_inj h.colon_not_mem hurl.colon_not_mem hauthority
  exact ⟨rfl, hport, rfl⟩

/-- **`IOTA_GetUrlData` is right** exactly when the URL is not misread. -/
theorem urlDataRight_iff (url : CString) (port ip : List UInt8) :
    UrlDataRight url.bytes (iotaGetUrlData url port ip) ↔ ¬Misread url.bytes port ip := by
  have hzero : ∀ {host text rest}, FoundIn url.bytes host text rest → 0 ∉ host ∧ 0 ∉ text :=
    fun hfound => ⟨fun h => url.zero_not_mem (hfound.mem (Or.inl h)),
      fun h => url.zero_not_mem (hfound.mem (Or.inr h))⟩
  constructor
  · -- a misread host is left with its `'/'`
    rintro hright ⟨host, text, rest, hfound, hslash, hip, hport⟩
    have hfree := hright.host_free
    rw [iotaGetUrlData_found hfound hip hport] at hfree
    refine hfree (by simp) ?_
    show slash ∈ cString (overwrite ip 0 (host ++ [0]))
    rw [cString_overwrite_zero (hzero hfound).1]
    exact hslash
  · intro hmisread
    have hsuccess : ∀ {uri}, (iotaGetUrlData url port ip).uri = some uri →
        ∃ host text rest, FoundIn url.bytes host text rest ∧ slash ∉ host ∧ uri = slash :: rest ∧
          cString (iotaGetUrlData url port ip).ip = host ∧
          cString (iotaGetUrlData url port ip).port = text := by
      intro uri huri
      obtain ⟨host, text, rest, hfound, hip, hport, rfl⟩ := iotaGetUrlData_success_iff.mp huri
      rw [iotaGetUrlData_found hfound hip hport]
      exact ⟨host, text, rest, hfound,
        fun hslash => hmisread ⟨host, text, rest, hfound, hslash, hip, hport⟩, rfl,
        cString_overwrite_zero (hzero hfound).1, cString_overwrite_zero (hzero hfound).2⟩
    constructor
    · intro hne
      obtain ⟨uri, huri⟩ := Option.ne_none_iff_exists'.mp hne
      obtain ⟨host, text, rest, -, hfree, -, hhost, -⟩ := hsuccess huri
      rw [hhost]
      exact hfree
    · intro host' port' rest' hurl hne
      obtain ⟨uri, huri⟩ := Option.ne_none_iff_exists'.mp hne
      obtain ⟨host, text, rest, hfound, hfree, rfl, hhost, hport⟩ := hsuccess huri
      obtain ⟨rfl, rfl, rfl⟩ := hfound.eq_of_isPackageUrl hfree hurl
      exact ⟨hhost, hport, huri⟩

/-- A `':'` in the path of a URL without a port: the host that is left has a `'/'`. -/
theorem urlDataRight_colon_in_path :
    ¬∀ url : CString, UrlDataRight url.bytes
      (iotaGetUrlData url (List.replicate PORT_LENGTH 0) (List.replicate IP_LENGTH 0)) := by
  intro h
  have hright := (h ⟨ascii "https://h/a:b/c", by decide⟩).host_free
  revert hright
  decide +kernel

end IotDeviceSdk.Agentlite

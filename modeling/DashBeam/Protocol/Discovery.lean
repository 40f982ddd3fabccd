import DashBeam.Lib.IpAddr
import DashBeam.Protocol.FolderName

/-!
# Relay and discovery settings in the engine

The engine's checks of a relay URL, of a discovery URL and of a DNS origin. URLs are parsed outside
(`Url`). The two checks of URLs are one, up to their texts and what they do about the scheme. A DNS
origin comes out as labels in lower case (`normal_of_parseDnsOrigin`), and is then accepted as it is.
-/

namespace DashBeam.Protocol

open Lib

/-! ## Relay and discovery URLs -/

/-- What is read of a parsed URL; the user name and the password are empty where there is none. -/
structure Url where
  scheme : Text
  username : Text
  password : Text
  host : Option Text
  deriving DecidableEq, Repr

/-- `Url::password`. -/
def Url.passwordOption (url : Url) : Option Text :=
  if url.password = [] then none else some url.password

def httpsScheme : Text := "https".toList

def httpScheme : Text := "http".toList

/-- What `RelayUrl::from_str` and `Url::parse` make of a text. -/
abbrev UrlParser : Type := Text → Option Url

def maxRelayUrlLength : Nat := 2048

def maxDiscoveryUrlLength : Nat := 2048

/-- The body of `has_disallowed_relay_text_char` and of `has_disallowed_discovery_text_char`. -/
def hasDisallowedTextChar (value : Text) : Bool :=
  value.any fun c => isControl c || isWhitespace c

def hasDisallowedRelayTextChar : Text → Bool := hasDisallowedTextChar

def hasDisallowedDiscoveryTextChar : Text → Bool := hasDisallowedTextChar

/-- The body of `is_loopback_relay_host` and of `is_loopback_discovery_host`. -/
def isLoopbackHostBody (host : Text) : Bool :=
  if charsEqIgnoreAsciiCase host "localhost".toList then true
  else ((parseIpAddr host).map IpAddr.isLoopback).getD false

def isLoopbackRelayHost : Text → Bool := isLoopbackHostBody

def isLoopbackDiscoveryHost : Text → Bool := isLoopbackHostBody

/-- The texts of the errors that both checks of URLs make. -/
structure UrlErrors where
  empty : String
  tooLong : String
  disallowed : String
  invalid : String
  credentials : String
  noHost : String

def relayUrlErrors : UrlErrors where
  empty := "Relay URL must not be empty"
  tooLong := "Relay URL is too long"
  disallowed := "Relay URL must not contain whitespace or control characters"
  invalid := "Invalid relay URL"
  credentials := "Relay URL must not include a username or password"
  noHost := "Relay URL must include a host"

def discoveryUrlErrors : UrlErrors where
  empty := "Discovery (pkarr) URL must not be empty"
  tooLong := "Discovery (pkarr) URL is too long"
  disallowed := "Discovery (pkarr) URL must not contain whitespace or control characters"
  invalid := "Invalid discovery (pkarr) URL"
  credentials := "Discovery (pkarr) URL must not include a username or password"
  noHost := "Discovery (pkarr) URL must include a host"

/-- The checks of a URL before its scheme is looked at. -/
def parseUrlBody (errors : UrlErrors) (maxLength : Nat) (hasDisallowed : Text → Bool)
    (parser : UrlParser) (byScheme : Url → Text → Except String Url) (text : Text) :
    Except String Url :=
  if text = [] then .error errors.empty
  else if (utf8 text).length > maxLength then .error errors.tooLong
  else if hasDisallowed text then .error errors.disallowed
  else
    match parser text with
    | none => .error errors.invalid
    | some url =>
      if url.username ≠ [] ∨ url.passwordOption.isSome then .error errors.credentials
      else
        match url.host with
        | none => .error errors.noHost
        | some host => byScheme url host

/-- The last match of `parse_relay_url_for_ipc`. -/
def relayByScheme (hasAuthToken : Bool) (url : Url) (host : Text) : Except String Url :=
  if url.scheme = httpsScheme then .ok url
  else if url.scheme = httpScheme then
    if !hasAuthToken && isLoopbackRelayHost host then .ok url
    else if hasAuthToken then .error "Relay URLs must use https when an auth token is configured"
    else .error "Plain HTTP relay URLs are only allowed for loopback hosts"
  else .error "Relay URL scheme must be https or loopback http"

def parseRelayUrlForIpc (parser : UrlParser) (url : Text) (hasAuthToken : Bool) :
    Except String Url :=
  parseUrlBody relayUrlErrors maxRelayUrlLength hasDisallowedRelayTextChar parser
    (relayByScheme hasAuthToken) url

/-- The last match of `parse_pkarr_relay_url`. -/
def pkarrByScheme (url : Url) (host : Text) : Except String Url :=
  if url.scheme = httpsScheme then .ok url
  else if url.scheme = httpScheme then
    if isLoopbackDiscoveryHost host then .ok url
    else .error "Plain HTTP discovery URLs are only allowed for loopback hosts"
  else .error "Discovery (pkarr) URL scheme must be https or loopback http"

def parsePkarrRelayUrl (parser : UrlParser) (url : Text) : Except String Url :=
  parseUrlBody discoveryUrlErrors maxDiscoveryUrlLength hasDisallowedDiscoveryTextChar parser
    pkarrByScheme url

/-- What both checks ask of a text and its URL, whatever the scheme. -/
structure SoundUrl (parser : UrlParser) (text : Text) (url : Url) (host : Text) : Prop where
  nonempty : text ≠ []
  length_le : (utf8 text).length ≤ 2048
  allowed : hasDisallowedTextChar text = false
  parsed : parser text = some url
  username : url.username = []
  password : url.password = []
  host : url.host = some host

theorem passwordOption_isSome {url : Url} : url.passwordOption.isSome = true ↔ url.password ≠ [] := by
  rw [Url.passwordOption]
  split
  · rename_i h
    simp [h]
  · rename_i h
    simp [h]

theorem parseUrlBody_of_sound {errors : UrlErrors} {parser : UrlParser}
    {byScheme : Url → Text → Except String Url} {text host : Text} {url : Url}
    (h : SoundUrl parser text url host) :
    parseUrlBody errors 2048 hasDisallowedTextChar parser byScheme text = byScheme url host := by
  have hcredentials : ¬ (url.username ≠ [] ∨ url.passwordOption.isSome = true) := by
    rw [passwordOption_isSome, h.username, h.password]
    simp
  rw [parseUrlBody, if_neg h.nonempty, if_neg (Nat.not_lt.mpr h.length_le),
    if_neg (by rw [h.allowed]; exact Bool.false_ne_true), h.parsed]
  simp only [if_neg hcredentials, h.host]

theorem sound_of_parseUrlBody {errors : UrlErrors} {parser : UrlParser}
    {byScheme : Url → Text → Except String Url} {text : Text} {result : Url}
    (h : parseUrlBody errors 2048 hasDisallowedTextChar parser byScheme text = .ok result) :
    ∃ url host, SoundUrl parser text url host ∧ byScheme url host = .ok result := by
  rw [parseUrlBody] at h
  split at h
  · cases h
  rename_i hne
  split at h
  · cases h
  rename_i hlength
  split at h
  · cases h
  rename_i hallowed
  split at h
  · cases h
  rename_i url hparsed
  split at h
  · cases h
  rename_i hcredentials
  split at h
  · cases h
  rename_i host hhost
  rw [not_or, not_not, passwordOption_isSome, not_not] at hcredentials
  exact ⟨url, host, ⟨hne, Nat.not_lt.mp hlength, Bool.eq_false_iff.mpr hallowed, hparsed,
    hcredentials.1, hcredentials.2, hhost⟩, h⟩

/-- A scheme that the checks allow, given whether plain `http` is. -/
def AllowedScheme (url : Url) (plain : Prop) : Prop :=
  url.scheme = httpsScheme ∨ url.scheme = httpScheme ∧ plain

theorem relayByScheme_ok {hasAuthToken : Bool} {url result : Url} {host : Text} :
    relayByScheme hasAuthToken url host = .ok result ↔
      result = url ∧ AllowedScheme url (hasAuthToken = false ∧ isLoopbackHostBody host = true) := by
  rw [relayByScheme, AllowedScheme, isLoopbackRelayHost]
  by_cases hhttps : url.scheme = httpsScheme
  · rw [if_pos hhttps, Except.ok.injEq, and_iff_left (Or.inl hhttps)]
    exact eq_comm
  · by_cases hhttp : url.scheme = httpScheme
    · rw [if_neg hhttps, if_pos hhttp, or_iff_right hhttps]
      cases hasAuthToken <;> cases isLoopbackHostBody host <;> simp [hhttp, eq_comm]
    · rw [if_neg hhttps, if_neg hhttp, or_iff_right hhttps]
      simp [hhttp]

theorem pkarrByScheme_ok {url result : Url} {host : Text} :
    pkarrByScheme url host = .ok result ↔
      result = url ∧ AllowedScheme url (isLoopbackHostBody host = true) := by
  rw [pkarrByScheme, AllowedScheme, isLoopbackDiscoveryHost]
  by_cases hhttps : url.scheme = httpsScheme
  · rw [if_pos hhttps, Except.ok.injEq, and_iff_left (Or.inl hhttps)]
    exact eq_comm
  · by_cases hhttp : url.scheme = httpScheme
    · rw [if_neg hhttps, if_pos hhttp, or_iff_right hhttps]
      cases isLoopbackHostBody host <;> simp [hhttp, eq_comm]
    · rw [if_neg hhttps, if_neg hhttp, or_iff_right hhttps]
      simp [hhttp]

theorem parseRelayUrlForIpc_ok {parser : UrlParser} {text : Text} {hasAuthToken : Bool} :
    (∃ result, parseRelayUrlForIpc parser text hasAuthToken = .ok result) ↔
      ∃ url host, SoundUrl parser text url host ∧
        AllowedScheme url (hasAuthToken = false ∧ isLoopbackHostBody host = true) := by
  constructor
  · rintro ⟨result, h⟩
    obtain ⟨url, host, hsound, hscheme⟩ := sound_of_parseUrlBody h
    exact ⟨url, host, hsound, (relayByScheme_ok.mp hscheme).2⟩
  · rintro ⟨url, host, hsound, hscheme⟩
    exact ⟨url, (parseUrlBody_of_sound hsound).trans (relayByScheme_ok.mpr ⟨rfl, hscheme⟩)⟩

theorem parsePkarrRelayUrl_ok {parser : UrlParser} {text : Text} :
    (∃ result, parsePkarrRelayUrl parser text = .ok result) ↔
      ∃ url host, SoundUrl parser text url host ∧
        AllowedScheme url (isLoopbackHostBody host = true) := by
  constructor
  · rintro ⟨result, h⟩
    obtain ⟨url, host, hsound, hscheme⟩ := sound_of_parseUrlBody h
    exact ⟨url, host, hsound, (pkarrByScheme_ok.mp hscheme).2⟩
  · rintro ⟨url, host, hsound, hscheme⟩
    exact ⟨url, (parseUrlBody_of_sound hsound).trans (pkarrByScheme_ok.mpr ⟨rfl, hscheme⟩)⟩

theorem isLoopbackHost_bracket (s : Text) : isLoopbackHostBody ('[' :: s) = false := by
  have hlocalhost : charsEqIgnoreAsciiCase ('[' :: s) "localhost".toList = false := by
    rw [charsEqIgnoreAsciiCase, beq_eq_false_iff_ne]
    intro heq
    have hhead := congrArg List.head? heq
    exact absurd hhead (by rw [List.map_cons, List.head?_cons]; decide)
  rw [isLoopbackHostBody, if_neg (by rw [hlocalhost]; exact Bool.false_ne_true), parseIpAddr_bracket]
  rfl

/-! ## DNS origins -/

def maxDnsOriginLength : Nat := 253

/-- `is_valid_dns_origin_label`: bytes of characters that are not ASCII are no letters or digits. -/
def isValidDnsOriginLabel (label : Text) : Bool :=
  if label = [] ∨ (utf8 label).length > 63 then false
  else if label.head?.all Char.isAlphanum = false ∨ label.getLast?.all Char.isAlphanum = false then
    false
  else label.all fun c => c.isAlphanum || c == '-'

def hasUrlForm (raw : Text) : Bool :=
  decide ("://".toList <:+: raw) || decide ('/' ∈ raw) || decide ('@' ∈ raw) || decide (':' ∈ raw)

def parseDnsOrigin (origin : Option Text) : Except String (Option Text) :=
  match (origin.map (trimEnds isWhitespace)).filter fun raw => !raw.isEmpty with
  | none => .ok none
  | some raw =>
    if (utf8 raw).length > maxDnsOriginLength then .error "DNS origin is too long"
    else if hasDisallowedDiscoveryTextChar raw then
      .error "DNS origin must not contain whitespace or control characters"
    else if hasUrlForm raw then
      .error "DNS origin must be a hostname (e.g. example.com), not a URL"
    else
      let withoutDot := raw.rdropWhile (· == '.')
      if withoutDot = [] then .error "DNS origin must not be empty"
      else if withoutDot = ['.'] then .error "DNS origin must be a hostname (e.g. example.com)"
      else if !(withoutDot.splitOn '.').all isValidDnsOriginLabel then
        .error "DNS origin contains an invalid hostname label"
      else .ok (some (withoutDot.map Char.toLower))

/-- A trimmed text that the checks let through. -/
structure GoodOrigin (raw : Text) : Prop where
  length_le : (utf8 raw).length ≤ 253
  allowed : hasDisallowedTextChar raw = false
  noUrl : hasUrlForm raw = false
  nonempty : raw.rdropWhile (· == '.') ≠ []
  labels : ∀ label ∈ (raw.rdropWhile (· == '.')).splitOn '.', isValidDnsOriginLabel label = true

theorem parseDnsOrigin_empty {s : Text} (h : trimEnds isWhitespace s = []) :
    parseDnsOrigin (some s) = .ok none := by
  rw [parseDnsOrigin, Option.map_some, h]
  rfl

theorem parseDnsOrigin_some {s raw : Text} (hraw : trimEnds isWhitespace s = raw)
    (hne : raw ≠ []) (d : Option Text) :
    parseDnsOrigin (some s) = .ok d ↔
      GoodOrigin raw ∧ d = some ((raw.rdropWhile (· == '.')).map Char.toLower) := by
  have hfilter : ((some s).map (trimEnds isWhitespace)).filter (fun raw => !raw.isEmpty) =
      some raw := by
    rw [Option.map_some, hraw, Option.filter_some]
    cases raw with
    | nil => exact absurd rfl hne
    | cons c raw => rfl
  rw [parseDnsOrigin, hfilter]
  constructor
  · intro h
    dsimp only at h
    split at h
    · cases h
    rename_i hlength
    split at h
    · cases h
    rename_i hallowed
    split at h
    · cases h
    rename_i hurl
    split at h
    · cases h
    rename_i hwithout
    split at h
    · cases h
    split at h
    · cases h
    rename_i hlabels
    rw [Bool.not_eq_true', Bool.not_eq_false, List.all_eq_true] at hlabels
    exact ⟨⟨Nat.not_lt.mp hlength, Bool.eq_false_iff.mpr hallowed, Bool.eq_false_iff.mpr hurl,
      hwithout, hlabels⟩, (Except.ok.inj h).symm⟩
  · rintro ⟨hgood, rfl⟩
    have hnot : raw.rdropWhile (· == '.') ≠ ['.'] := by
      intro heq
      have hlast := last_rdropWhile (p := (· == '.')) (l := raw) (a := '.') (by rw [heq]; rfl)
      exact absurd hlast (by decide)
    have hlabels := List.all_eq_true.mpr hgood.labels
    simp only [Nat.not_lt.mpr hgood.length_le, hasDisallowedDiscoveryTextChar, hgood.allowed,
      hgood.noUrl, hgood.nonempty, hnot, hlabels, maxDnsOriginLength, if_false, Bool.not_true,
      Bool.false_eq_true]

/-! ### The normal form -/

/-- A label of letters, digits and hyphens, with a letter or a digit at its ends. -/
structure NormalLabel (label : Text) : Prop where
  nonempty : label ≠ []
  length_le : label.length ≤ 63
  chars : ∀ c ∈ label, c.isAlphanum = true ∨ c = '-'
  begins : ∀ c, label.head? = some c → c.isAlphanum = true
  ends : ∀ c, label.getLast? = some c → c.isAlphanum = true

/-- A list of labels in lower case. -/
structure NormalOrigin (d : Text) : Prop where
  lower : ∀ c ∈ d, c.isUpper = false
  length_le : d.length ≤ 253
  noTrailingDot : d.getLast? ≠ some '.'
  labels : ∀ label ∈ d.splitOn '.', NormalLabel label

/-- What a normal origin is made of. -/
def OriginChar (c : Char) : Prop := c.isAlphanum = true ∨ c = '-' ∨ c = '.'

theorem ascii_of_isAlphanum {c : Char} (h : c.isAlphanum = true) : c.toNat < 128 := by
  change (decide (c.val ≥ 'A'.val ∧ c.val ≤ 'Z'.val) || c.val ≥ 'a'.val && c.val ≤ 'z'.val ||
    c.val ≥ '0'.val && c.val ≤ '9'.val) = true at h
  simp only [Bool.or_eq_true, Bool.and_eq_true, decide_eq_true_eq, ge_iff_le,
    UInt32.le_iff_toNat_le] at h
  have hval : c.val.toNat = c.toNat := rfl
  simp only [hval, show 'Z'.val.toNat = 90 from rfl, show 'z'.val.toNat = 122 from rfl,
    show '9'.val.toNat = 57 from rfl] at h
  omega

theorem OriginChar.ascii {c : Char} (h : OriginChar c) : c.toNat < 128 := by
  rcases h with h | rfl | rfl
  · exact ascii_of_isAlphanum h
  · decide
  · decide

/-- None of them is white space, a control character or a mark of a URL. -/
theorem OriginChar.plain {c : Char} (h : OriginChar c) :
    isControl c = false ∧ isWhitespace c = false ∧ c ≠ '/' ∧ c ≠ '@' ∧ c ≠ ':' :=
  forall_ascii (P := fun c => c.isAlphanum = true ∨ c = '-' ∨ c = '.' →
    isControl c = false ∧ isWhitespace c = false ∧ c ≠ '/' ∧ c ≠ '@' ∧ c ≠ ':')
    (by decide +kernel) h.ascii h

theorem toLower_of_not_upper {c : Char} (h : c.isUpper = false) : c.toLower = c := by
  by_cases hc : c.toNat < 128
  · exact forall_ascii (P := fun c => c.isUpper = false → c.toLower = c) (by decide +kernel) hc h
  · exact toLower_of_large (by omega)

/-- Lower case keeps the class of a character, and adds no capital. -/
theorem toLower_class (c : Char) :
    c.toLower.isAlphanum = c.isAlphanum ∧ c.toLower.isUpper = false ∧
      (c.toLower = '-' ↔ c = '-') ∧ (c.toLower = '.' ↔ c = '.') := by
  by_cases hc : c.toNat < 128
  · exact forall_ascii (P := fun c => c.toLower.isAlphanum = c.isAlphanum ∧
      c.toLower.isUpper = false ∧ (c.toLower = '-' ↔ c = '-') ∧ (c.toLower = '.' ↔ c = '.'))
      (by decide +kernel) hc
  · have hlower := toLower_of_large (c := c) (by omega)
    rw [hlower]
    refine ⟨rfl, ?_, Iff.rfl, Iff.rfl⟩
    rw [← Bool.not_eq_true]
    intro hupper
    have halnum : c.isAlphanum = true := by
      change (c.isUpper || c.isLower || c.isDigit) = true
      rw [hupper]
      rfl
    exact hc (ascii_of_isAlphanum halnum)

theorem splitOn_map_toLower (s : Text) :
    (s.map Char.toLower).splitOn '.' = (s.splitOn '.').map (List.map Char.toLower) := by
  induction s with
  | nil => rfl
  | cons c s ih =>
    have hdot : c.toLower = '.' ↔ c = '.' := (toLower_class c).2.2.2
    rw [List.map_cons, List.splitOn_cons_eq_if_modifyHead, List.splitOn_cons_eq_if_modifyHead, ih]
    by_cases hc : c = '.'
    · simp [hc]
    · have hne := List.splitOn_ne_nil '.' s
      cases hsplit : s.splitOn '.' with
      | nil => exact absurd hsplit hne
      | cons first rest => simp [hc, hdot]

theorem normalLabel_of_valid {label : Text} (h : isValidDnsOriginLabel label = true) :
    NormalLabel (label.map Char.toLower) := by
  rw [isValidDnsOriginLabel] at h
  split at h
  · cases h
  rename_i hbounds
  split at h
  · cases h
  rename_i hends
  rw [not_or, Nat.not_lt] at hbounds
  rw [not_or, Bool.not_eq_false, Bool.not_eq_false] at hends
  rw [List.all_eq_true] at h
  refine ⟨?_, ?_, ?_, ?_, ?_⟩
  · simpa using hbounds.1
  · rw [List.length_map]
    exact (length_le_utf8 label).trans hbounds.2
  · intro c hc
    obtain ⟨x, hx, rfl⟩ := List.mem_map.mp hc
    have hchar := h x hx
    rw [Bool.or_eq_true, beq_iff_eq] at hchar
    rw [(toLower_class x).1, (toLower_class x).2.2.1]
    exact hchar
  · intro c hc
    rw [List.head?_map] at hc
    obtain ⟨x, hx, rfl⟩ := Option.map_eq_some_iff.mp hc
    have hfirst := hends.1
    rw [hx, Option.all_some] at hfirst
    rw [(toLower_class x).1]
    exact hfirst
  · intro c hc
    rw [List.getLast?_map] at hc
    obtain ⟨x, hx, rfl⟩ := Option.map_eq_some_iff.mp hc
    have hlast := hends.2
    rw [hx, Option.all_some] at hlast
    rw [(toLower_class x).1]
    exact hlast

theorem NormalLabel.valid {label : Text} (h : NormalLabel label) :
    isValidDnsOriginLabel label = true := by
  have hascii : ∀ c ∈ label, c.toNat < 128 := fun c hc =>
    OriginChar.ascii ((h.chars c hc).imp_right Or.inl)
  have hfirst : label.head?.all Char.isAlphanum = true := by
    cases hhead : label.head? with
    | none => rfl
    | some c => exact h.begins c hhead
  have hlast : label.getLast?.all Char.isAlphanum = true := by
    cases hend : label.getLast? with
    | none => rfl
    | some c => exact h.ends c hend
  rw [isValidDnsOriginLabel, length_utf8_ascii hascii,
    if_neg (not_or.mpr ⟨h.nonempty, Nat.not_lt.mpr h.length_le⟩), hfirst, hlast, if_neg (by decide),
    List.all_eq_true]
  intro c hc
  rw [Bool.or_eq_true, beq_iff_eq]
  exact h.chars c hc

theorem NormalOrigin.chars {d : Text} (h : NormalOrigin d) : ∀ c ∈ d, OriginChar c := by
  intro c hc
  by_cases hdot : c = '.'
  · exact Or.inr (Or.inr hdot)
  · obtain ⟨label, hlabel, hmem⟩ := mem_splitOn_of_mem hc hdot
    exact ((h.labels label hlabel).chars c hmem).imp_right Or.inl

theorem normal_of_good {raw : Text} (h : GoodOrigin raw) :
    NormalOrigin ((raw.rdropWhile (· == '.')).map Char.toLower) := by
  refine ⟨?_, ?_, ?_, ?_⟩
  · intro c hc
    obtain ⟨x, -, rfl⟩ := List.mem_map.mp hc
    exact (toLower_class x).2.1
  · rw [List.length_map]
    exact (List.rdropWhile_prefix _ raw).length_le.trans ((length_le_utf8 raw).trans h.length_le)
  · rw [List.getLast?_map]
    intro hdot
    obtain ⟨x, hx, hlower⟩ := Option.map_eq_some_iff.mp hdot
    obtain rfl := (toLower_class x).2.2.2.mp hlower
    exact absurd (last_rdropWhile hx) (by decide)
  · rw [splitOn_map_toLower]
    intro label hlabel
    obtain ⟨piece, hpiece, rfl⟩ := List.mem_map.mp hlabel
    exact normalLabel_of_valid (h.labels piece hpiece)

theorem NormalOrigin.accepted {d : Text} (h : NormalOrigin d) (hne : d ≠ []) :
    parseDnsOrigin (some d) = .ok (some d) := by
  have htrim : trimEnds isWhitespace d = d :=
    trimEnds_of_trimmed (trimmed_of_all fun c hc => (h.chars c hc).plain.2.1)
  have hdots : d.rdropWhile (· == '.') = d := by
    refine rdropWhile_of_last fun c hc => ?_
    rw [beq_eq_false_iff_ne]
    rintro rfl
    exact h.noTrailingDot hc
  have hlower : d.map Char.toLower = d := by
    conv_rhs => rw [← List.map_id d]
    exact List.map_congr_left fun c hc => toLower_of_not_upper (h.lower c hc)
  have hslash : '/' ∉ d := fun hmem => (h.chars _ hmem).plain.2.2.1 rfl
  have hat : '@' ∉ d := fun hmem => (h.chars _ hmem).plain.2.2.2.1 rfl
  have hcolon : ':' ∉ d := fun hmem => (h.chars _ hmem).plain.2.2.2.2 rfl
  have hscheme : ¬ "://".toList <:+: d := fun hinside => hslash (hinside.subset (by decide))
  refine (parseDnsOrigin_some htrim hne _).mpr ⟨⟨?_, ?_, ?_, ?_, ?_⟩, ?_⟩
  · rw [length_utf8_ascii fun c hc => (h.chars c hc).ascii]
    exact h.length_le
  · rw [hasDisallowedTextChar, List.any_eq_false]
    intro c hc
    rw [(h.chars c hc).plain.1, (h.chars c hc).plain.2.1]
    exact Bool.false_ne_true
  · rw [hasUrlForm, decide_eq_false hscheme, decide_eq_false hslash, decide_eq_false hat,
      decide_eq_false hcolon]
    rfl
  · rw [hdots]
    exact hne
  · rw [hdots]
    exact fun label hlabel => (h.labels label hlabel).valid
  · rw [hdots, hlower]

/-- Whatever origin is returned is normal and returned again. -/
theorem normal_of_parseDnsOrigin {s d : Text} (h : parseDnsOrigin (some s) = .ok (some d)) :
    NormalOrigin d ∧ parseDnsOrigin (some d) = .ok (some d) := by
  by_cases hne : trimEnds isWhitespace s = []
  · rw [parseDnsOrigin_empty hne] at h
    cases h
  · obtain ⟨hgood, hd⟩ := (parseDnsOrigin_some rfl hne _).mp h
    obtain rfl := Option.some.inj hd
    have hnormal := normal_of_good hgood
    exact ⟨hnormal, hnormal.accepted (by simpa using hgood.nonempty)⟩

end DashBeam.Protocol

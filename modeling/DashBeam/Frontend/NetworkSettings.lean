import DashBeam.Frontend.Receiver
import DashBeam.Protocol.Discovery

/-!
# Relay and discovery settings in the browser

What the settings screen accepts before it hands a text to the engine. For URLs the two sides differ
in two ways: the screen counts code units and the engine bytes, and the screen takes `[::1]` for a
loopback host, which the engine does not read as an address. DNS origins are accepted by both or by
none.
-/

namespace DashBeam.Frontend

open Lib Protocol
open Receiver (isJsWhitespace isJsWhitespace_ascii)

/-! ## URLs -/

def protocol (url : Url) : Text := url.scheme ++ [':']

/-- `URL.hostname`, empty where there is no host. -/
def hostname (url : Url) : Text := url.host.getD []

def isLoopbackHost (hostname : Text) : Bool :=
  decide (hostname = "localhost".toList) || decide (hostname = "127.0.0.1".toList) ||
    decide (hostname = "[::1]".toList)

/-- The tests of a parsed URL, which both validators share. -/
def isSafeUrl (parsed : Url) : Bool :=
  if hostname parsed = [] then false
  else if parsed.username ≠ [] ∨ parsed.password ≠ [] then false
  else if protocol parsed = "https:".toList then true
  else if protocol parsed = "http:".toList ∧ isLoopbackHost (hostname parsed) = true then true
  else false

def isValidUrlBody (maxLength : Nat) (parser : UrlParser) (url : Text) : Bool :=
  if (utf16 url).length = 0 ∨ (utf16 url).length > maxLength then false
  else
    match parser url with
    | none => false
    | some parsed => isSafeUrl parsed

def isValidRelayUrl : UrlParser → Text → Bool := isValidUrlBody maxRelayUrlLength

def isValidDiscoveryUrl : UrlParser → Text → Bool := isValidUrlBody maxDiscoveryUrlLength

theorem protocol_https {url : Url} : protocol url = "https:".toList ↔ url.scheme = httpsScheme := by
  show url.scheme ++ [':'] = httpsScheme ++ [':'] ↔ _
  exact List.append_left_inj [':']

theorem protocol_http {url : Url} : protocol url = "http:".toList ↔ url.scheme = httpScheme := by
  show url.scheme ++ [':'] = httpScheme ++ [':'] ↔ _
  exact List.append_left_inj [':']

theorem isSafeUrl_iff {url : Url} :
    isSafeUrl url = true ↔ url.username = [] ∧ url.password = [] ∧ ∃ host, url.host = some host ∧
      host ≠ [] ∧ AllowedScheme url (isLoopbackHost host = true) := by
  simp only [isSafeUrl, hostname, AllowedScheme, protocol_https, protocol_http]
  cases url.host with
  | none => simp
  | some host =>
    rw [Option.getD_some]
    constructor
    · intro h
      split at h
      · cases h
      rename_i hne
      split at h
      · cases h
      rename_i hcredentials
      rw [not_or, not_not, not_not] at hcredentials
      refine ⟨hcredentials.1, hcredentials.2, host, rfl, hne, ?_⟩
      split at h
      · exact Or.inl ‹_›
      · split at h
        · exact Or.inr ‹_›
        · cases h
    · rintro ⟨husername, hpassword, host', hhost, hne, hscheme⟩
      obtain rfl := Option.some.inj hhost
      rw [if_neg hne, if_neg (by rw [husername, hpassword]; simp)]
      by_cases hhttps : url.scheme = httpsScheme
      · exact if_pos hhttps
      · rw [if_neg hhttps]
        exact if_pos (hscheme.resolve_left hhttps)

theorem isValidUrlBody_iff {parser : UrlParser} {text : Text} :
    isValidUrlBody 2048 parser text = true ↔ text ≠ [] ∧ (utf16 text).length ≤ 2048 ∧
      ∃ url, parser text = some url ∧ isSafeUrl url = true := by
  have hlength : (utf16 text).length = 0 ↔ text = [] :=
    List.length_eq_zero_iff.trans utf16_eq_nil
  simp only [isValidUrlBody, hlength]
  constructor
  · intro h
    split at h
    · cases h
    rename_i hbounds
    rw [not_or, Nat.not_lt] at hbounds
    split at h
    · cases h
    rename_i url hurl
    exact ⟨hbounds.1, hbounds.2, url, hurl, h⟩
  · rintro ⟨hne, hle, url, hurl, hsafe⟩
    rw [if_neg (not_or.mpr ⟨hne, Nat.not_lt.mpr hle⟩), hurl]
    exact hsafe

/-- What the screen accepts, the engine accepts: a relay without a token, one over `https` with a token
as well, and a discovery URL. -/
structure EngineAccepts (parser : UrlParser) (text : Text) : Prop where
  relay : isValidRelayUrl parser text = true →
    ∃ url, parseRelayUrlForIpc parser text false = .ok url
  withToken : isValidRelayUrl parser text = true →
    (∀ url, parser text = some url → url.scheme = httpsScheme) →
    ∃ url, parseRelayUrlForIpc parser text true = .ok url
  discovery : isValidDiscoveryUrl parser text = true →
    ∃ url, parsePkarrRelayUrl parser text = .ok url

/-- A text that parses as a URL the screen takes for safe, within its length, is not too long for the
engine and not plain `http` to `[::1]`. -/
def Compatible (parser : UrlParser) (text : Text) : Prop :=
  ∀ url, parser text = some url → isSafeUrl url = true → (utf16 text).length ≤ 2048 →
    (utf8 text).length ≤ 2048 ∧
      ¬ (url.scheme = httpScheme ∧ url.host = some "[::1]".toList)

theorem isLoopbackHostBody_of_screen {host : Text} (h : isLoopbackHost host = true)
    (hne : host ≠ "[::1]".toList) : isLoopbackHostBody host = true := by
  rw [isLoopbackHost, Bool.or_eq_true, Bool.or_eq_true, decide_eq_true_iff, decide_eq_true_iff,
    decide_eq_true_iff] at h
  rcases h with (rfl | rfl) | rfl
  · decide +kernel
  · decide +kernel
  · exact absurd rfl hne

theorem httpScheme_ne_https : httpScheme ≠ httpsScheme := by decide

theorem sound_of_compatible {parser : UrlParser} {text : Text}
    (hallowed : hasDisallowedTextChar text = false) (hcompatible : Compatible parser text)
    (h : isValidUrlBody 2048 parser text = true) :
    ∃ url host, SoundUrl parser text url host ∧
      AllowedScheme url (isLoopbackHostBody host = true) := by
  obtain ⟨hne, hle, url, hurl, hsafe⟩ := isValidUrlBody_iff.mp h
  obtain ⟨husername, hpassword, host, hhost, -, hscheme⟩ := isSafeUrl_iff.mp hsafe
  obtain ⟨hbytes, hnot⟩ := hcompatible url hurl hsafe hle
  refine ⟨url, host, ⟨hne, hbytes, hallowed, hurl, husername, hpassword, hhost⟩, ?_⟩
  refine hscheme.imp_right fun hhttp => ⟨hhttp.1, ?_⟩
  refine isLoopbackHostBody_of_screen hhttp.2 ?_
  rintro rfl
  exact hnot ⟨hhttp.1, hhost⟩

/-- For a text without white space or control characters, the engine accepts what the screen accepts
exactly when the text is compatible. -/
theorem settings_urls_accepted_iff (parser : UrlParser) (text : Text) (hempty : parser [] = none)
    (hallowed : hasDisallowedTextChar text = false) :
    EngineAccepts parser text ↔ Compatible parser text := by
  constructor
  · rintro ⟨hrelay, -, -⟩ url hurl hsafe hle
    have hne : text ≠ [] := by
      rintro rfl
      rw [hempty] at hurl
      cases hurl
    obtain ⟨url', host, hsound, hscheme⟩ := parseRelayUrlForIpc_ok.mp
      (hrelay (isValidUrlBody_iff.mpr ⟨hne, hle, url, hurl, hsafe⟩))
    obtain rfl := Option.some.inj (hurl.symm.trans hsound.parsed)
    refine ⟨hsound.length_le, ?_⟩
    rintro ⟨hhttp, hhost⟩
    obtain rfl := Option.some.inj (hhost.symm.trans hsound.host)
    rcases hscheme with hhttps | ⟨-, -, hloopback⟩
    · exact httpScheme_ne_https (hhttp.symm.trans hhttps)
    · exact absurd ((isLoopbackHost_bracket _).symm.trans hloopback) Bool.false_ne_true
  · intro hcompatible
    refine ⟨?_, ?_, ?_⟩
    · intro h
      obtain ⟨url, host, hsound, hscheme⟩ := sound_of_compatible hallowed hcompatible h
      exact parseRelayUrlForIpc_ok.mpr
        ⟨url, host, hsound, hscheme.imp_right fun hhttp => ⟨hhttp.1, rfl, hhttp.2⟩⟩
    · intro h hhttps
      obtain ⟨url, host, hsound, -⟩ := sound_of_compatible hallowed hcompatible h
      exact parseRelayUrlForIpc_ok.mpr ⟨url, host, hsound, Or.inl (hhttps url hsound.parsed)⟩
    · intro h
      exact parsePkarrRelayUrl_ok.mpr (sound_of_compatible hallowed hcompatible h)

def demoUrl : UrlParser := fun text =>
  if text = "https://relay.example.com/".toList then
    some ⟨httpsScheme, [], [], some "relay.example.com".toList⟩
  else if text = "http://[::1]:3340".toList then some ⟨httpScheme, [], [], some "[::1]".toList⟩
  else none

/-- A relay over `https` is accepted by both. -/
theorem settings_urls_accepted_https :
    EngineAccepts demoUrl "https://relay.example.com/".toList := by
  refine (settings_urls_accepted_iff demoUrl "https://relay.example.com/".toList (by decide +kernel)
    (by decide +kernel)).mpr ?_
  intro url hurl _ _
  have hparsed : demoUrl "https://relay.example.com/".toList =
      some ⟨httpsScheme, [], [], some "relay.example.com".toList⟩ := by decide +kernel
  obtain rfl := Option.some.inj (hparsed.symm.trans hurl)
  decide +kernel

/-- A local relay at `[::1]` is accepted by the screen and refused by the engine. -/
theorem settings_url_refused :
    ¬ ∀ (parser : UrlParser) (text : Text), parser [] = none → hasDisallowedTextChar text = false →
      EngineAccepts parser text := by
  intro h
  obtain ⟨url, hurl⟩ := (h demoUrl "http://[::1]:3340".toList (by decide +kernel)
    (by decide +kernel)).relay (by decide +kernel)
  have hrefused : parseRelayUrlForIpc demoUrl "http://[::1]:3340".toList false =
      .error "Plain HTTP relay URLs are only allowed for loopback hosts" := by
    rfl
  rw [hrefused] at hurl
  cases hurl

/-! ## DNS origins -/

/-- `isValidDnsOriginLabel`, its regular expressions as classes of ASCII characters. -/
def isValidDnsOriginLabel (label : Text) : Bool :=
  if (utf16 label).length = 0 ∨ (utf16 label).length > 63 then false
  else if label.head?.all Char.isAlphanum = false ∨ label.getLast?.all Char.isAlphanum = false then
    false
  else label.all fun c => c.isAlphanum || c == '-'

def hasDisallowedDnsOriginChar (value : Text) : Bool :=
  value.any fun c =>
    decide (c.toNat ≤ 0x1F) || (decide (0x7F ≤ c.toNat) && decide (c.toNat ≤ 0x9F)) ||
      isJsWhitespace c

def maxDnsOriginLength : Nat := 253

def isValidDnsOrigin (origin : Text) : Bool :=
  let trimmed := trimEnds isJsWhitespace origin
  if (utf16 trimmed).length = 0 then true
  else if (utf16 trimmed).length > maxDnsOriginLength then false
  else if hasDisallowedDnsOriginChar trimmed then false
  else if "://".toList <:+: trimmed ∨ '/' ∈ trimmed ∨ '@' ∈ trimmed ∨ ':' ∈ trimmed then false
  else
    let withoutDot := trimmed.rdropWhile (· == '.')
    if (utf16 withoutDot).length = 0 ∨ withoutDot = ['.'] then false
    else (withoutDot.splitOn '.').all isValidDnsOriginLabel

theorem isValidDnsOriginLabel_ascii {label : Text} (h : ∀ c ∈ label, c.toNat < 128) :
    isValidDnsOriginLabel label = Protocol.isValidDnsOriginLabel label := by
  simp only [isValidDnsOriginLabel, Protocol.isValidDnsOriginLabel, length_utf16_ascii h,
    length_utf8_ascii h, List.length_eq_zero_iff]

theorem hasDisallowedDnsOriginChar_ascii {value : Text} (h : ∀ c ∈ value, c.toNat < 128) :
    hasDisallowedDnsOriginChar value = hasDisallowedTextChar value := by
  rw [hasDisallowedDnsOriginChar, hasDisallowedTextChar, Bool.eq_iff_iff, List.any_eq_true,
    List.any_eq_true]
  refine exists_congr fun c => and_congr_right fun hc => ?_
  have hlow : c.toNat ≤ 0x1F ↔ c.toNat < 0x20 := by omega
  rw [isJsWhitespace_ascii (h c hc), isControl]
  simp only [hlow, Bool.or_eq_true]

theorem hasUrlForm_iff {raw : Text} : hasUrlForm raw = true ↔
    "://".toList <:+: raw ∨ '/' ∈ raw ∨ '@' ∈ raw ∨ ':' ∈ raw := by
  simp only [hasUrlForm, Bool.or_eq_true, decide_eq_true_eq, or_assoc]

theorem isValidDnsOrigin_iff {s raw : Text} (hraw : trimEnds isWhitespace s = raw)
    (hs : ∀ c ∈ s, c.toNat < 128) :
    isValidDnsOrigin s = true ↔ raw = [] ∨ GoodOrigin raw := by
  have htrim : trimEnds isJsWhitespace s = raw :=
    (trimEnds_congr fun c hc => isJsWhitespace_ascii (hs c hc)).trans hraw
  have hascii : ∀ c ∈ raw, c.toNat < 128 := by
    rw [← hraw]
    exact fun c hc => hs c (mem_of_mem_trimEnds hc)
  have hwithout : ∀ c ∈ raw.rdropWhile (· == '.'), c.toNat < 128 :=
    fun c hc => hascii c ((List.rdropWhile_prefix _ raw).subset hc)
  have hlabels : ((raw.rdropWhile (· == '.')).splitOn '.').all isValidDnsOriginLabel =
      ((raw.rdropWhile (· == '.')).splitOn '.').all Protocol.isValidDnsOriginLabel := by
    rw [Bool.eq_iff_iff, List.all_eq_true, List.all_eq_true]
    refine forall_congr' fun label => forall_congr' fun hlabel => ?_
    have hlabelAscii : ∀ c ∈ label, c.toNat < 128 :=
      fun c hc => hwithout c (mem_of_mem_splitOn hlabel hc)
    rw [isValidDnsOriginLabel_ascii hlabelAscii]
  simp only [isValidDnsOrigin, htrim, length_utf16_ascii hascii, length_utf16_ascii hwithout,
    List.length_eq_zero_iff, hasDisallowedDnsOriginChar_ascii hascii, ← hasUrlForm_iff, hlabels]
  by_cases hne : raw = []
  · simp [hne]
  · rw [if_neg hne, or_iff_right hne]
    constructor
    · intro h
      split at h
      · cases h
      rename_i hlength
      split at h
      · cases h
      rename_i hallowed
      split at h
      · cases h
      rename_i hurl
      split at h
      · cases h
      rename_i hends
      rw [not_or] at hends
      rw [List.all_eq_true] at h
      refine ⟨?_, Bool.eq_false_iff.mpr hallowed, Bool.eq_false_iff.mpr hurl, hends.1, h⟩
      rw [length_utf8_ascii hascii]
      exact Nat.not_lt.mp hlength
    · intro hgood
      have hlength := hgood.length_le
      rw [length_utf8_ascii hascii] at hlength
      have hnot : raw.rdropWhile (· == '.') ≠ ['.'] := by
        intro heq
        have hlast := last_rdropWhile (p := (· == '.')) (l := raw) (a := '.') (by rw [heq]; rfl)
        exact absurd hlast (by decide)
      have hall := List.all_eq_true.mpr hgood.labels
      simp only [Nat.not_lt.mpr hlength, hgood.allowed, hgood.noUrl, hgood.nonempty, hnot, hall,
        maxDnsOriginLength, if_false, or_self, Bool.false_eq_true]

/-- On ASCII strings the screen accepts just the origins that the engine does, and an origin the engine
returns is in the normal form and returned again. -/
theorem dns_origin_agrees (s : Text) (hs : ∀ c ∈ s, c.toNat < 128) :
    (isValidDnsOrigin s = true ↔ ∃ result, parseDnsOrigin (some s) = .ok result) ∧
    ∀ d, parseDnsOrigin (some s) = .ok (some d) →
      NormalOrigin d ∧ parseDnsOrigin (some d) = .ok (some d) := by
  refine ⟨?_, fun d => normal_of_parseDnsOrigin⟩
  rw [isValidDnsOrigin_iff rfl hs]
  by_cases hne : trimEnds isWhitespace s = []
  · exact iff_of_true (Or.inl hne) ⟨_, parseDnsOrigin_empty hne⟩
  · rw [or_iff_right hne]
    simp only [parseDnsOrigin_some rfl hne]
    exact ⟨fun hgood => ⟨_, hgood, rfl⟩, fun ⟨_, hgood, _⟩ => hgood⟩

/-- An origin with white space, a capital and a final dot, and its normal form. -/
theorem dns_origin_agrees_example :
    isValidDnsOrigin " Example.com. ".toList = true ↔
      ∃ result, parseDnsOrigin (some " Example.com. ".toList) = .ok result :=
  (dns_origin_agrees " Example.com. ".toList (forall_chars (by decide))).1

example : parseDnsOrigin (some " Example.com. ".toList) = .ok (some "example.com".toList) := rfl

end DashBeam.Frontend

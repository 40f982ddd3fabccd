import DashBeam.Desktop.HistoryRecordingEmitter
import DashBeam.Lib.BaseEncoding
import DashBeam.Lib.Trim
import DashBeam.Native.PairedOperations

/-!
# Pairing tickets

A ticket is written as its endpoint id alone when it needs no relay hint, and as a JSON object
otherwise; the reader tries both. Which relays need no hint is a test for a piece of the URL's text, not
of its host, so a ticket comes back as it was meant exactly when the two agree on its relay.

The JSON of a ticket is modelled here; its text is `serde_json`'s and enters through `SerdeJson`.
-/

namespace DashBeam.Protocol

open Lib
open Desktop.Recording (Json)
open Native (trim)

/-! ## The code -/

structure PairingTicket where
  v : UInt32
  kind : String
  endpointId : String
  relayUrl : Option String
  deriving DecidableEq, Repr

def isEndpointIdHex (s : String) : Bool :=
  (utf8 s.toList).length == 64 && s.toList.all fun c => (hexValue c).isSome

/-- `str::contains`. -/
def containsText (s pattern : String) : Bool := decide (pattern.toList <:+: s.toList)

def isPublicRelayUrl (url : String) : Bool :=
  containsText url "relay.n0.iroh.link" || containsText url ".iroh.link"

def pairingTicketRelayHint (relayUrl : Option String) : Option String :=
  relayUrl.filter fun url => !isPublicRelayUrl url

namespace PairingTicket

/-- `PairingTicket::KIND`. -/
def ticketKind : String := "pair"

/-- The derived `Serialize`. -/
def toJson (ticket : PairingTicket) : Json :=
  .object ((if ticket.v = 1 then [] else [("v", .unsigned ticket.v.toNat)]) ++
    [("kind", .string ticket.kind), ("endpoint_id", .string ticket.endpointId)] ++
    match ticket.relayUrl with
    | none => []
    | some url => [("relay_url", .string url)])

/-- The fields that the derived `Deserialize` has seen of an object. -/
structure Seen where
  v : Option UInt32 := none
  kind : Option String := none
  endpointId : Option String := none
  relayUrl : Option (Option String) := none

def asU32 : Json → Option UInt32
  | .unsigned n => if n < 2 ^ 32 then some (UInt32.ofNat n) else none
  | _ => none

def asOptionString : Json → Option (Option String)
  | .null => some none
  | .string s => some (some s)
  | _ => none

/-- One field of an object: a field seen twice is an error, an unknown one is passed over. -/
def Seen.visit (seen : Seen) (field : String × Json) : Option Seen :=
  if field.1 = "v" then
    if seen.v.isSome then none else (asU32 field.2).map fun v => { seen with v := some v }
  else if field.1 = "kind" then
    if seen.kind.isSome then none else field.2.asString.map fun s => { seen with kind := some s }
  else if field.1 = "endpoint_id" then
    if seen.endpointId.isSome then none
    else field.2.asString.map fun s => { seen with endpointId := some s }
  else if field.1 = "relay_url" then
    if seen.relayUrl.isSome then none
    else (asOptionString field.2).map fun url => { seen with relayUrl := some url }
  else some seen

/-- The defaults of the fields that were not seen. -/
def Seen.finish (seen : Seen) : Option PairingTicket :=
  match seen.kind, seen.endpointId with
  | some kind, some endpointId =>
    some ⟨seen.v.getD 1, kind, endpointId, seen.relayUrl.getD none⟩
  | _, _ => none

/-- The derived `Deserialize`, which also reads the fields of an array in order. -/
def ofJson : Json → Option PairingTicket
  | .object fields => (fields.foldlM Seen.visit {}).bind Seen.finish
  | .array [v, kind, endpointId] =>
    match asU32 v, kind.asString, endpointId.asString with
    | some v, some kind, some endpointId => some ⟨v, kind, endpointId, none⟩
    | _, _, _ => none
  | .array [v, kind, endpointId, relayUrl] =>
    match asU32 v, kind.asString, endpointId.asString, asOptionString relayUrl with
    | some v, some kind, some endpointId, some relayUrl => some ⟨v, kind, endpointId, relayUrl⟩
    | _, _, _, _ => none
  | _ => none

end PairingTicket

open PairingTicket

/-- What the code relies on of `serde_json`: the text of a ticket is read back, has no white space
around it, and a text with an object or an array in it has a bracket. -/
structure SerdeJson where
  toString : Json → String
  fromStr : String → Option Json
  fromStr_toString : ∀ ticket : PairingTicket, fromStr (toString ticket.toJson) = some ticket.toJson
  toString_trimmed : ∀ ticket : PairingTicket, (toString ticket.toJson).toList ≠ [] ∧
    Trimmed isWhitespace (toString ticket.toJson).toList
  bracket_of_object : ∀ s fields, fromStr s = some (.object fields) → '\x7b' ∈ s.toList
  bracket_of_array : ∀ s items, fromStr s = some (.array items) → '[' ∈ s.toList

namespace PairingTicket

def encode (serde : SerdeJson) (ticket : PairingTicket) : Except String String :=
  match pairingTicketRelayHint ticket.relayUrl with
  | none =>
    if isEndpointIdHex ticket.endpointId then .ok ticket.endpointId
    else .error "invalid endpoint id"
  | some url => .ok (serde.toString { ticket with relayUrl := some url }.toJson)

/-- `PairingTicket::decode`, with the strings that `EndpointId::from_str` reads. -/
def decode (serde : SerdeJson) (parses : String → Bool) (s : String) :
    Except String PairingTicket :=
  match (serde.fromStr (trim s)).bind ofJson with
  | some ticket =>
    if ticket.kind ≠ ticketKind then .error "not a pairing ticket"
    else if !parses ticket.endpointId then .error "invalid endpoint id in pairing ticket"
    else .ok ticket
  | none =>
    if isEndpointIdHex (trim s) then
      if !parses (trim s) then .error "invalid endpoint id in pairing ticket"
      else .ok ⟨1, ticketKind, trim s, none⟩
    else .error "invalid pairing ticket"

end PairingTicket

/-! ## What a ticket should come back as -/

/-- The domain `iroh.link` or one below it, with or without the dot of the root. -/
def isPublicHost (host : String) : Bool :=
  let domain := if host.toList.getLast? = some '.' then host.toList.dropLast else host.toList
  decide (domain = "iroh.link".toList) || decide (".iroh.link".toList <:+ domain)

/-- A public relay is left out, a custom one is kept. -/
def PairingTicket.meant (hostOf : String → Option String) (ticket : PairingTicket) : PairingTicket :=
  if (ticket.relayUrl.bind hostOf).any isPublicHost then { ticket with relayUrl := none } else ticket

/-- Text with something around it. -/
def surrounded (front : Text) (s : String) (back : Text) : String :=
  String.ofList (front ++ s.toList ++ back)

/-- A ticket can be encoded, and is decoded as it was meant, whatever white space is around it. -/
def RoundTrips (serde : SerdeJson) (parses : String → Bool) (hostOf : String → Option String)
    (ticket : PairingTicket) : Prop :=
  ∃ s, ticket.encode serde = .ok s ∧ decode serde parses s = .ok (ticket.meant hostOf) ∧
    ∀ front back : Text, (∀ c ∈ front, isWhitespace c = true) → (∀ c ∈ back, isWhitespace c = true) →
      decode serde parses (surrounded front s back) = .ok (ticket.meant hostOf)

theorem trim_surrounded {front back : Text} {s : String} (hfront : ∀ c ∈ front, isWhitespace c = true)
    (hback : ∀ c ∈ back, isWhitespace c = true) (hne : s.toList ≠ [])
    (hs : Trimmed isWhitespace s.toList) : trim (surrounded front s back) = s := by
  rw [trim, surrounded, String.toList_ofList, trimEnds_surrounded hfront hback hne hs,
    String.ofList_toList]

theorem surrounded_nil (s : String) : surrounded [] s [] = s := by
  rw [surrounded, List.nil_append, List.append_nil, String.ofList_toList]

/-! ## Reading back -/

theorem ofJson_toJson (ticket : PairingTicket) : ofJson ticket.toJson = some ticket := by
  obtain ⟨v, kind, endpointId, relayUrl⟩ := ticket
  have hu32 : asU32 (.unsigned v.toNat) = some v := by
    rw [asU32, if_pos v.toNat_lt, UInt32.ofNat_toNat]
  by_cases hv : v = 1
  · subst hv
    cases relayUrl <;> rfl
  · cases relayUrl with
    | none => simp [toJson, ofJson, hv, Seen.visit, hu32, Json.asString, Seen.finish]
    | some url =>
      simp [toJson, ofJson, hv, Seen.visit, hu32, Json.asString, asOptionString, Seen.finish]

theorem structured_of_ofJson {value : Json} {ticket : PairingTicket}
    (h : ofJson value = some ticket) :
    (∃ fields, value = .object fields) ∨ ∃ items, value = .array items := by
  cases value with
  | object fields => exact Or.inl ⟨fields, rfl⟩
  | array items => exact Or.inr ⟨items, rfl⟩
  | _ => cases h

theorem hex_chars {s : String} (h : isEndpointIdHex s = true) :
    s.toList ≠ [] ∧ ∀ c ∈ s.toList, (hexValue c).isSome = true := by
  rw [isEndpointIdHex, Bool.and_eq_true, beq_iff_eq, List.all_eq_true] at h
  refine ⟨?_, h.2⟩
  intro hnil
  rw [hnil] at h
  exact absurd h.1 (by decide)

/-- Neither white space nor a bracket is a hex digit. -/
theorem hexValue_of_whitespace {c : Char} (h : isWhitespace c = true) : hexValue c = none := by
  by_cases hc : c.toNat < 128
  · exact forall_ascii (P := fun c => isWhitespace c = true → hexValue c = none) (by decide +kernel)
      hc h
  · exact hexValue_of_large (by omega)

theorem trimmed_of_hex {s : String} (h : isEndpointIdHex s = true) :
    Trimmed isWhitespace s.toList := by
  refine trimmed_of_all fun c hc => ?_
  by_contra hspace
  have hnone := hexValue_of_whitespace (Bool.not_eq_false _ ▸ hspace)
  have hsome := (hex_chars h).2 c hc
  rw [hnone] at hsome
  cases hsome

theorem fromStr_of_hex (serde : SerdeJson) {s : String} (h : isEndpointIdHex s = true) :
    (serde.fromStr s).bind ofJson = none := by
  cases hvalue : serde.fromStr s with
  | none => rfl
  | some value =>
    rw [Option.bind_some]
    by_contra hsome
    obtain ⟨ticket, hticket⟩ := Option.ne_none_iff_exists'.mp hsome
    rcases structured_of_ofJson hticket with ⟨fields, rfl⟩ | ⟨items, rfl⟩
    · have hmem := (hex_chars h).2 _ (serde.bracket_of_object s fields hvalue)
      exact absurd hmem (by decide)
    · have hmem := (hex_chars h).2 _ (serde.bracket_of_array s items hvalue)
      exact absurd hmem (by decide)

theorem decode_hex (serde : SerdeJson) {parses : String → Bool} {s id : String}
    (htrim : trim s = id) (hhex : isEndpointIdHex id = true) (hparses : parses id = true) :
    decode serde parses s = .ok ⟨1, ticketKind, id, none⟩ := by
  rw [decode, htrim, fromStr_of_hex serde hhex]
  simp only [hhex, hparses, if_true, Bool.not_true, Bool.false_eq_true, if_false]

theorem decode_json (serde : SerdeJson) {parses : String → Bool} {s : String} {ticket : PairingTicket}
    (htrim : trim s = serde.toString ticket.toJson) (hkind : ticket.kind = ticketKind)
    (hparses : parses ticket.endpointId = true) : decode serde parses s = .ok ticket := by
  rw [decode, htrim, serde.fromStr_toString, Option.bind_some, ofJson_toJson]
  simp only [hkind, hparses, ne_eq, not_true_eq_false, if_false, Bool.not_true, Bool.false_eq_true]

theorem decode_ok {serde : SerdeJson} {parses : String → Bool} {s : String} {ticket : PairingTicket}
    (h : decode serde parses s = .ok ticket) :
    ticket.kind = ticketKind ∧ parses ticket.endpointId = true := by
  rw [decode] at h
  split at h
  · rename_i found hfound
    split at h
    · cases h
    · rename_i hkind
      split at h
      · cases h
      · rename_i hparses
        obtain rfl := Except.ok.inj h
        exact ⟨not_not.mp hkind, by simpa using hparses⟩
  · split at h
    · split at h
      · cases h
      · rename_i hparses
        obtain rfl := Except.ok.inj h
        exact ⟨rfl, by simpa using hparses⟩
    · cases h

theorem roundTrips_iff_meant {serde : SerdeJson} {parses : String → Bool}
    {hostOf : String → Option String} {ticket found : PairingTicket} {s : String}
    (hencode : ticket.encode serde = .ok s)
    (hdecode : ∀ front back : Text, (∀ c ∈ front, isWhitespace c = true) →
      (∀ c ∈ back, isWhitespace c = true) →
      decode serde parses (surrounded front s back) = .ok found) :
    RoundTrips serde parses hostOf ticket ↔ ticket.meant hostOf = found := by
  have hnil : ∀ c ∈ ([] : Text), isWhitespace c = true := fun c hc => absurd hc List.not_mem_nil
  have hplain := hdecode [] [] hnil hnil
  rw [surrounded_nil] at hplain
  constructor
  · rintro ⟨s', hs', hmeant, -⟩
    rw [hencode] at hs'
    obtain rfl := Except.ok.inj hs'
    rw [hplain] at hmeant
    exact (Except.ok.inj hmeant).symm
  · intro hfound
    refine ⟨s, hencode, ?_, ?_⟩
    · rw [hfound]
      exact hplain
    · rw [hfound]
      exact hdecode

/-- A ticket with nothing left out, or a public relay left out, is written as its id. -/
theorem roundTrips_bare {serde : SerdeJson} {parses : String → Bool}
    {hostOf : String → Option String} {ticket : PairingTicket} (hv : ticket.v = 1)
    (hkind : ticket.kind = ticketKind) (hhex : isEndpointIdHex ticket.endpointId = true)
    (hparses : parses ticket.endpointId = true)
    (hhint : pairingTicketRelayHint ticket.relayUrl = none) :
    RoundTrips serde parses hostOf ticket ↔
      ticket.meant hostOf = { ticket with relayUrl := none } := by
  refine roundTrips_iff_meant (s := ticket.endpointId) ?_ ?_
  · simp only [encode, hhint, hhex, if_true]
  · intro front back hfront hback
    rw [decode_hex serde (trim_surrounded hfront hback (hex_chars hhex).1 (trimmed_of_hex hhex)) hhex
      hparses, ← hv, ← hkind]

/-- A ticket with a relay that the code takes for a custom one is written as JSON. -/
theorem roundTrips_json {serde : SerdeJson} {parses : String → Bool}
    {hostOf : String → Option String} {ticket : PairingTicket} {url : String}
    (hkind : ticket.kind = ticketKind) (hparses : parses ticket.endpointId = true)
    (hurl : ticket.relayUrl = some url)
    (hhint : pairingTicketRelayHint ticket.relayUrl = some url) :
    RoundTrips serde parses hostOf ticket ↔ ticket.meant hostOf = ticket := by
  refine roundTrips_iff_meant (s := serde.toString ticket.toJson) ?_ ?_
  · rw [encode, hhint]
    show Except.ok (serde.toString { ticket with relayUrl := some url }.toJson) = _
    rw [← hurl]
  · intro front back hfront hback
    obtain ⟨hne, htrimmed⟩ := serde.toString_trimmed ticket
    exact decode_json serde (trim_surrounded hfront hback hne htrimmed) hkind hparses

/-- The relay of a ticket is told public by the code just when its host is. -/
def RelayTold (hostOf : String → Option String) (ticket : PairingTicket) : Prop :=
  ∀ url host, ticket.relayUrl = some url → hostOf url = some host →
    (isPublicRelayUrl url = true ↔ isPublicHost host = true)

theorem roundTrips_iff_told {serde : SerdeJson} {parses : String → Bool}
    {hostOf : String → Option String} {ticket : PairingTicket} (hv : ticket.v = 1)
    (hkind : ticket.kind = ticketKind) (hhex : isEndpointIdHex ticket.endpointId = true)
    (hparses : parses ticket.endpointId = true)
    (hurl : ∀ url, ticket.relayUrl = some url → (hostOf url).isSome = true) :
    RoundTrips serde parses hostOf ticket ↔ RelayTold hostOf ticket := by
  cases hrelay : ticket.relayUrl with
  | none =>
    have hhint : pairingTicketRelayHint ticket.relayUrl = none := by rw [hrelay]; rfl
    rw [roundTrips_bare hv hkind hhex hparses hhint]
    refine iff_of_true ?_ ?_
    · rw [meant, hrelay, Option.bind_none, Option.any_none, if_neg Bool.false_ne_true, ← hrelay]
    · intro url host h
      rw [hrelay] at h
      cases h
  | some url =>
    obtain ⟨host, hhost⟩ := Option.isSome_iff_exists.mp (hurl url hrelay)
    have hmeant : ticket.meant hostOf =
        if isPublicHost host = true then { ticket with relayUrl := none } else ticket := by
      rw [meant, hrelay, Option.bind_some, hhost, Option.any_some]
    have hne : ticket ≠ { ticket with relayUrl := none } := by
      intro heq
      have hnone := congrArg relayUrl heq
      rw [hrelay] at hnone
      cases hnone
    have htold : RelayTold hostOf ticket ↔ (isPublicRelayUrl url = true ↔ isPublicHost host = true) := by
      constructor
      · exact fun h => h url host hrelay hhost
      · intro h url' host' hurl' hhost'
        obtain rfl := Option.some.inj (hrelay.symm.trans hurl')
        obtain rfl := Option.some.inj (hhost.symm.trans hhost')
        exact h
    rw [htold]
    by_cases hpublic : isPublicRelayUrl url = true
    · have hhint : pairingTicketRelayHint ticket.relayUrl = none := by
        rw [hrelay, pairingTicketRelayHint, Option.filter_some, hpublic]
        rfl
      rw [roundTrips_bare hv hkind hhex hparses hhint, hmeant, iff_true_left hpublic]
      split
      · rename_i hhost'
        exact iff_of_true rfl hhost'
      · rename_i hhost'
        exact iff_of_false hne hhost'
    · have hhint : pairingTicketRelayHint ticket.relayUrl = some url := by
        rw [hrelay, pairingTicketRelayHint, Option.filter_some, Bool.eq_false_iff.mpr hpublic]
        rfl
      rw [roundTrips_json hkind hparses hrelay hhint, hmeant, iff_false_left hpublic]
      split
      · rename_i hhost'
        exact iff_of_false hne.symm (not_not.mpr hhost')
      · rename_i hhost'
        exact iff_of_true rfl hhost'

/-- A ticket with a parsable hex id round-trips, losing just a public relay, exactly when its relay is
told by its text as it would be by its host; and whatever is decoded is a pairing ticket with an id that
can be parsed. -/
theorem pairing_ticket_round_trip_iff (serde : SerdeJson) (parses : String → Bool)
    (hostOf : String → Option String) (ticket : PairingTicket) (hv : ticket.v = 1)
    (hkind : ticket.kind = ticketKind) (hhex : isEndpointIdHex ticket.endpointId = true)
    (hparses : parses ticket.endpointId = true)
    (hurl : ∀ url, ticket.relayUrl = some url → (hostOf url).isSome = true) :
    (RoundTrips serde parses hostOf ticket ↔ RelayTold hostOf ticket) ∧
    ∀ s found, decode serde parses s = .ok found →
      found.kind = ticketKind ∧ parses found.endpointId = true :=
  ⟨roundTrips_iff_told hv hkind hhex hparses hurl, fun _ _ => decode_ok⟩

/-! ## A codec -/

/-- A string in a code of its own: each character behind an `x`, and a dot. -/
def codeText (s : String) : Text := s.toList.flatMap (fun c => ['x', c]) ++ ['.']

def readText : Text → Text × Text
  | 'x' :: c :: rest => (c :: (readText rest).1, (readText rest).2)
  | _ :: rest => ([], rest)
  | [] => ([], [])

theorem readText_codeText (s : String) (rest : Text) :
    readText (codeText s ++ rest) = (s.toList, rest) := by
  rw [codeText, List.append_assoc]
  induction s.toList with
  | nil => rfl
  | cons c chars ih =>
    rw [List.flatMap_cons, List.append_assoc]
    simp only [List.cons_append, List.nil_append, readText] at ih ⊢
    rw [ih]

def codeTicket (ticket : PairingTicket) : Text :=
  codeText (String.ofList (List.replicate ticket.v.toNat 'v')) ++ codeText ticket.kind ++
    codeText ticket.endpointId ++
    (match ticket.relayUrl with
    | none => ['n']
    | some url => 's' :: codeText url) ++ ['\x7d']

theorem codeTicket_ends (ticket : PairingTicket) :
    ∃ front, codeTicket ticket = front ++ ['\x7d'] := ⟨_, rfl⟩

def readTicket (code : Text) : PairingTicket :=
  let (v, code) := readText code
  let (kind, code) := readText code
  let (endpointId, code) := readText code
  ⟨UInt32.ofNat v.length, String.ofList kind, String.ofList endpointId,
    match code with
    | 's' :: code => some (String.ofList (readText code).1)
    | _ => none⟩

theorem readTicket_codeTicket (ticket : PairingTicket) : readTicket (codeTicket ticket) = ticket := by
  obtain ⟨v, kind, endpointId, relayUrl⟩ := ticket
  simp only [codeTicket, readTicket, List.append_assoc, readText_codeText, String.toList_ofList,
    List.length_replicate, UInt32.ofNat_toNat, String.ofList_toList]
  cases relayUrl with
  | none => rfl
  | some url =>
    show (⟨v, kind, endpointId, some (String.ofList (readText (codeText url ++ ['\x7d'])).1)⟩ :
      PairingTicket) = _
    rw [readText_codeText, String.ofList_toList]

def relayedTicket : PairingTicket :=
  ⟨1, ticketKind, "d75a980182b10ab7d54bfed3c964073a0ee172f3daa62325af021a68f707511a",
    some "https://relay.example.com/"⟩

def relayedText : String :=
  "\x7b\"kind\":\"pair\",\"endpoint_id\":\"d75a980182b10ab7d54bfed3c964073a0ee172f3daa62325af021a68f707511a\",\"relay_url\":\"https://relay.example.com/\"\x7d"

theorem relayedText_shape : relayedText.toList ≠ [] ∧ relayedText.toList.head? = some '\x7b' ∧
    (relayedText.toList.drop 1).head? = some '"' ∧ relayedText.toList.getLast? = some '\x7d' := by
  decide +kernel

/-- The text of a ticket: JSON for that one, and a code of its own for others. -/
def demoText (ticket : PairingTicket) : String :=
  if ticket = relayedTicket then relayedText
  else String.ofList ('\x7b' :: '#' :: codeTicket ticket)

/-- A codec that writes and reads one ticket as `serde_json` does. -/
def demoSerde : SerdeJson where
  toString value := ((ofJson value).map demoText).getD "null"
  fromStr s :=
    if s = relayedText then some relayedTicket.toJson
    else
      match s.toList with
      | '\x7b' :: '#' :: code => some (readTicket code).toJson
      | _ => none
  fromStr_toString ticket := by
    rw [ofJson_toJson, Option.map_some, Option.getD_some, demoText]
    by_cases h : ticket = relayedTicket
    · rw [if_pos h, if_pos rfl, h]
    · have hother : String.ofList ('\x7b' :: '#' :: codeTicket ticket) ≠ relayedText := by
        intro heq
        have hsecond := congrArg (fun s => (s.toList.drop 1).head?) heq
        rw [String.toList_ofList, relayedText_shape.2.2.1] at hsecond
        exact absurd (Option.some.inj hsecond) (by decide)
      rw [if_neg h, if_neg hother, String.toList_ofList]
      show some (readTicket (codeTicket ticket)).toJson = _
      rw [readTicket_codeTicket]
  toString_trimmed ticket := by
    rw [ofJson_toJson, Option.map_some, Option.getD_some, demoText]
    by_cases h : ticket = relayedTicket
    · rw [if_pos h]
      obtain ⟨hne, hfirst, -, hlast⟩ := relayedText_shape
      refine ⟨hne, ⟨?_, ?_⟩⟩
      · intro c hc
        rw [hfirst] at hc
        obtain rfl := Option.some.inj hc
        decide
      · intro c hc
        rw [hlast] at hc
        obtain rfl := Option.some.inj hc
        decide
    · rw [if_neg h, String.toList_ofList]
      refine ⟨List.cons_ne_nil _ _, ⟨?_, ?_⟩⟩
      · intro c hc
        obtain rfl := Option.some.inj hc
        decide
      · intro c hc
        obtain ⟨front, hfront⟩ := codeTicket_ends ticket
        rw [hfront, ← List.cons_append, ← List.cons_append, List.getLast?_concat] at hc
        obtain rfl := Option.some.inj hc
        decide
  bracket_of_object s fields h := by
    by_cases heq : s = relayedText
    · rw [heq]
      exact List.mem_of_head? relayedText_shape.2.1
    · rw [if_neg heq] at h
      split at h
      · rename_i code hcode
        rw [hcode]
        exact List.mem_cons_self
      · cases h
  bracket_of_array s items h := by
    by_cases heq : s = relayedText
    · rw [if_pos heq] at h
      cases h
    · rw [if_neg heq] at h
      split at h
      · cases h
      · cases h

def demoHost (url : String) : Option String :=
  if url = "https://relay.example.com/" then some "relay.example.com"
  else if url = "https://relay.iroh.link.example.com/" then some "relay.iroh.link.example.com"
  else none

def demoParses (s : String) : Bool := s == relayedTicket.endpointId

/-- The relay at `relay.example.com` comes back. -/
theorem pairing_ticket_round_trip_relayed :
    RoundTrips demoSerde demoParses demoHost relayedTicket := by
  refine (pairing_ticket_round_trip_iff demoSerde demoParses demoHost relayedTicket rfl rfl
    (by decide +kernel) (by decide +kernel) ?_).1.mpr ?_
  · intro url h
    obtain rfl := Option.some.inj h
    decide +kernel
  · intro url host h hhost
    obtain rfl := Option.some.inj h
    have heq : demoHost "https://relay.example.com/" = some "relay.example.com" := by decide +kernel
    obtain rfl := Option.some.inj (heq.symm.trans hhost)
    decide +kernel

/-- A relay at `relay.iroh.link.example.com` is dropped, as its text has the public domain in it. -/
theorem pairing_ticket_drops_relay :
    ¬ ∀ (serde : SerdeJson) (parses : String → Bool) (hostOf : String → Option String)
      (ticket : PairingTicket), ticket.v = 1 → ticket.kind = ticketKind →
      isEndpointIdHex ticket.endpointId = true → parses ticket.endpointId = true →
      (∀ url, ticket.relayUrl = some url → (hostOf url).isSome = true) →
      RoundTrips serde parses hostOf ticket := by
  intro h
  have hhost : demoHost "https://relay.iroh.link.example.com/" =
      some "relay.iroh.link.example.com" := by decide +kernel
  have hurl : ∀ url, some "https://relay.iroh.link.example.com/" = some url →
      (demoHost url).isSome = true := by
    intro url hurl
    obtain rfl := Option.some.inj hurl
    rw [hhost]
    rfl
  have htrips := h demoSerde demoParses demoHost
    { relayedTicket with relayUrl := some "https://relay.iroh.link.example.com/" } rfl rfl
    (by decide +kernel) (by decide +kernel) hurl
  have htold := (roundTrips_iff_told rfl rfl (by decide +kernel) (by decide +kernel) hurl).mp htrips
  have hsame := htold _ _ rfl hhost
  exact absurd (hsame.mp (by decide +kernel)) (by decide +kernel)

end DashBeam.Protocol

import Mathlib.Data.Finset.Basic

/-!
# Control messages and pairing records

The messages of the control ALPN, the policy that decides which of them an unpaired peer may send,
and the record a device keeps of a paired peer. An endpoint id is a public key; what the code does
with it (its string forms, signatures over a connection's keying material) is iroh's, and enters
through `Iroh`.
-/

namespace DashBeam.Protocol

/-! ### Messages -/

inductive RememberVote
  | remember
  | no
  deriving DecidableEq, Repr

inductive InviteResponse
  | accepted
  | declined
  deriving DecidableEq, Repr

inductive ControlMessage
  | pairingInfo (endpointId displayName deviceType os signature : String)
  | rememberVote (sessionId : String) (vote : RememberVote)
  | invite (blobTicket : String) (fileCount totalSize : Nat) (senderName : String)
  | inviteResponse (sessionId : String) (response : InviteResponse)
  | recognition (signature : String)
  | forget (signature : String)
  | whoAreYou
  | identity (endpointId displayName deviceType os : String)
  | pairRequest (senderName deviceType os : String)
  deriving DecidableEq, Repr

/-- `DeviceInfo`: what a device says about itself. -/
structure DeviceInfo where
  endpointId : String
  displayName : String
  deviceType : String
  os : String
  deriving DecidableEq, Repr

/-! ### Local-network policy -/

inductive Discoverability
  | everyone
  | pairedOnly
  | off
  deriving DecidableEq, Repr

def shouldAnswerIdentity (setting : Discoverability) (peerIsPaired : Bool) : Bool :=
  match setting with
  | .everyone => true
  | .pairedOnly => peerIsPaired
  | .off => false

def allowsUnpairedControl (setting : Discoverability) : Bool :=
  match setting with
  | .everyone => true
  | _ => false

/-- Messages an unpaired peer may send over the control ALPN. -/
def unpairedMessageAllowed (msg : ControlMessage) : Bool :=
  match msg with
  | .whoAreYou | .invite .. | .inviteResponse .. | .pairRequest .. => true
  | _ => false

/-! ### Pairing -/

/-- How long a freshly stored pairing counts as still settling. -/
def recentPairingGraceMs : Nat := 10000

/-- With no time to live the pairing host stays open until it is stopped. -/
def pairingHostIsPersistent (ttlSecs : Option Nat) : Bool :=
  ttlSecs.isNone

inductive PairingStatus
  | active
  | unpairedRemotely
  | staleLocalIdentity
  deriving DecidableEq, Repr

def PairingStatus.isActive : PairingStatus → Bool
  | .active => true
  | _ => false

/-- Devices that should keep outbound presence loops and allowlist entries. -/
def PairingStatus.isConnectable : PairingStatus → Bool
  | .active | .staleLocalIdentity => true
  | .unpairedRemotely => false

structure PairedDevice where
  endpointId : String
  displayName : String
  deviceType : String
  os : String
  pairedAt : Nat
  lastSeenAt : Nat
  relayUrl : Option String
  pairingStatus : PairingStatus
  trusted : Bool
  deriving DecidableEq, Repr

/-! ### Endpoint ids -/

/-- What the code relies on from outside the repository: the string forms of an endpoint id,
lowercasing, and the signatures over a connection's keying material. A connection stands for its
keying material, by number. -/
structure Iroh (Id : Type) where
  /-- `EndpointId::to_string`, lowercase hex. -/
  toStr : Id → String
  /-- `EndpointId::from_str`. -/
  fromStr : String → Option Id
  /-- `str::to_lowercase`. -/
  toLowercase : String → String
  /-- `verify_challenge`. -/
  verifyChallenge : Id → Nat → String → Bool
  /-- `sign_challenge` by the secret key of an id. -/
  signChallenge : Id → Nat → String
  fromStr_toStr : ∀ x, fromStr (toStr x) = some x
  toLowercase_toStr : ∀ x, toLowercase (toStr x) = toStr x
  toLowercase_idem : ∀ s, toLowercase (toLowercase s) = toLowercase s
  /-- Hex and base32 are read in lower case as well, and as the same id. -/
  fromStr_toLowercase : ∀ {s x}, fromStr s = some x → fromStr (toLowercase s) = some x

/-- Two spellings that parse and differ by case only are spellings of one id. -/
theorem Iroh.fromStr_unique {Id : Type} (I : Iroh Id) {s t : String} {x y : Id}
    (hlower : I.toLowercase s = I.toLowercase t) (hs : I.fromStr s = some x)
    (ht : I.fromStr t = some y) : x = y := by
  have hx := I.fromStr_toLowercase hs
  rw [hlower, I.fromStr_toLowercase ht] at hx
  exact (Option.some.inj hx).symm

theorem Iroh.toStr_injective {Id : Type} (I : Iroh Id) {x y : Id} (h : I.toStr x = I.toStr y) :
    x = y := by
  have hx := I.fromStr_toStr x
  rw [h, I.fromStr_toStr] at hx
  exact (Option.some.inj hx).symm

def eqIgnoreAsciiCase (a b : String) : Bool :=
  a.toList.map Char.toLower == b.toList.map Char.toLower

end DashBeam.Protocol

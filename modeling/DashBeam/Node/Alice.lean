import DashBeam.Protocol.Keys
import DashBeam.Node.Machine

/-!
# Alice's node

The node that the concrete runs of the later modules are computed on, and the pieces these runs are
put together from. Alice starts with an empty store and is discoverable by everyone.
-/

namespace DashBeam.Node

open Protocol Native

def alice : Config Key := ⟨Key.iroh, .alice, "Alice", "laptop", "linux", "desktop"⟩

/-- Every file operation and every stream works, and nothing is dialled or read. -/
def quiet : Env := ⟨⟨true, true⟩, 0, 0, none, none, true⟩

/-- A dial comes back with this connection. -/
def dialling (num : Nat) : Env := { quiet with dialled := some num }

def replying (num : Nat) (reply : ControlMessage) : Env :=
  { dialling num with reply := some reply }

def aliceStart (store : StoreFile) : State Key :=
  start alice store false ⟨true, true⟩ .everyone none

def recordOf (peer : Key) : PairedDevice :=
  ⟨peer.hex, "Peer", "phone", "android", 0, 0, none, .active, false⟩

/-- A task goes through its next critical sections. -/
def go (pid steps : Nat) : List (Act Key) := List.replicate steps (.exec pid quiet)

/-- The supervisor's first refresh, which is task 0. -/
def supervisor : List (Act Key) := go 0 2

/-- A peer is seen on the local network, by task `pid`; its probe is the next task. -/
def sighting (pid : Nat) (peer : Key) : List (Act Key) := .lan (.appeared peer.hex) :: go pid 2

/-- `request_nearby_pair`, by task `pid`, up to the message being sent. -/
def requestSent (pid : Nat) (peer : Key) (num : Nat) : List (Act Key) :=
  [.call (.requestNearbyPair peer.hex), .exec pid quiet, .exec pid (dialling num), .exec pid quiet]

/-- A connection from an unpaired peer is accepted, by task `pid`, over a direct path. -/
def accepted (pid : Nat) (peer : Key) (num : Nat) : List (Act Key) :=
  .connect ⟨peer, num⟩ :: go pid 5

/-- `accept_nearby_invite`, by task `pid`; the connect loop is the next task. -/
def inviteAccepted (pid : Nat) (peer : Key) (num : Nat) : List (Act Key) :=
  .call (.acceptNearbyInvite peer.hex) :: go pid 6 ++ [.exec pid (dialling num)] ++ go pid 4

/-- `forget_paired` of a peer without a session, by task `pid`; the dial that tells the peer is the
next task. -/
def forgotten (pid : Nat) (peer : Key) : List (Act Key) := .call (.forgetPaired peer.hex) :: go pid 10

/-- `start_pairing_host` with a time to live, by task `pid`; the expiry is the next task. -/
def windowOpened (pid : Nat) : List (Act Key) := .call (.startPairingHost (some 60)) :: go pid 10

/-- A connection becomes a pairing-host session, by task `pid`. -/
def hosted (pid : Nat) (peer : Key) (num : Nat) : List (Act Key) := .connect ⟨peer, num⟩ :: go pid 5

/-- A pairing-host session reads what completes a pairing: an info with this id in it, signed by the
key of `signer`, and the vote. -/
def completed (pid : Nat) (signer : Key) (endpointId : String) (num : Nat) : List (Act Key) :=
  [.recv pid (.pairingInfo endpointId "Bob" "phone" "android" (signer.sign num)),
    .recv pid (.rememberVote "" .remember)]

/-- `join_pairing` with a host, by task `pid`; the connect loop is the next task. -/
def joined (pid : Nat) (host : Key) (num : Nat) : List (Act Key) :=
  [.call (.joinPairing host.hex none), .exec pid (dialling num),
    .exec pid (replying num (.pairingInfo host.hex "Bob" "phone" "android" (host.sign num)))] ++
    go pid 6

end DashBeam.Node

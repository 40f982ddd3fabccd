import Mathlib.Logic.Function.Basic
import DashBeam.Native.PairedDeviceStore
import DashBeam.Native.RateLimit
import DashBeam.Native.Nearby

/-!
# The state of a node

A node is what its tasks share, and the tasks. Everything shared is behind a lock, and a task touches
it one critical section at a time; between two of them any other task may run. So a task is its local
variables and the list of critical sections (`Instr`) it has still to go through, and one step of the
node is one `Instr` of one task. A `read` at the head of the list waits for the next message.
-/

namespace DashBeam.Node

open Protocol Native

/-- A connection as one of its ends holds it. The number is the connection's stable id, and stands
for its keying material. -/
structure Conn (Id : Type) where
  remote : Id
  num : Nat
  deriving DecidableEq, Repr

/-- The node itself: what it uses of iroh, its key and what it says about itself. -/
structure Config (Id : Type) where
  iroh : Iroh Id
  self : Id
  displayName : String
  deviceType : String
  os : String
  defaultDeviceType : String

/-- Identity snapshot taken when we invite a nearby peer. -/
structure PendingNearbyInvite where
  displayName : String
  deviceType : String
  os : String
  deriving DecidableEq, Repr

/-! ### What the tasks share -/

/-- The fields of `ControlCtx`, `NodeService` and `PairedConnectionManager`. `windows` counts the
pairing windows opened so far, each with whether it is persistent; no code reads it. -/
structure Shared (Id : Type) where
  allowed : Finset Id
  pairingHostOpen : Bool
  discoverability : Discoverability
  hostFlag : Bool
  pairingHostPersistent : Bool
  pairingExpireTask : Option Nat
  blocked : Finset String
  pendingNearbyInvites : String → Option PendingNearbyInvite
  pairedStore : StoreFile
  presence : String → Option Bool
  sessions : String → Option (Conn Id)
  tasks : List (String × Nat)
  nearby : NearbyRegistry
  unpairedLimiter : UnpairedRateLimiter
  homeRelayUrl : Option String
  windows : List Bool

/-! ### Calls of the node's service -/

inductive Call
  | inviteNearbyDevice (endpointId blobTicket : String) (fileCount totalSize : Nat)
  | requestNearbyPair (endpointId : String)
  | acceptNearbyInvite (endpointId : String)
  | declineNearbyInvite (endpointId : String) (block : Bool)
  | joinPairing (endpointId : String) (relayUrl : Option String)
  | forgetPaired (endpointId : String)
  | invitePairedDevice (endpointId blobTicket : String) (fileCount totalSize : Nat)
  | respondPairedInvite (endpointId : String) (accepted : Bool)
  | startPairingHost (ttlSecs : Option Nat)
  | stopPairingHost
  | setDiscoverability (setting : Discoverability)
  | refresh
  deriving DecidableEq, Repr

/-- What a call comes back with. -/
inductive Ret
  | ok
  | okBool (value : Bool)
  | err
  deriving DecidableEq, Repr

inductive LanEvent
  | appeared (endpointId : String)
  | vanished (endpointId : String)
  deriving DecidableEq, Repr

/-! ### Tasks -/

/-- Locals of `handle_control_session`. -/
structure ControlSession (Id : Type) where
  conn : Conn Id
  peerIsPaired : Bool
  registered : Bool
  deriving DecidableEq, Repr

/-- Locals of the pairing-host branch of `handle_connection`. `window` is the number of windows that
had been opened when the connection was accepted. -/
structure HostSession (Id : Type) where
  conn : Conn Id
  window : Nat
  remoteInfo : Option DeviceInfo
  remoteVote : Option RememberVote
  deriving DecidableEq, Repr

/-- Locals of `connect_loop`. -/
structure ConnectLoop (Id : Type) where
  endpointId : String
  conn : Option (Conn Id)
  deriving DecidableEq, Repr

inductive Kind (Id : Type)
  | inbound (conn : Conn Id)
  | control (session : ControlSession Id)
  | host (session : HostSession Id)
  | connect (loop : ConnectLoop Id)
  | call (call : Call)
  | expiry
  | lan
  | background
  deriving DecidableEq, Repr

inductive AppEvent
  | pairedInviteReceived (remote blobTicket : String) (fileCount totalSize : Nat)
      (senderName : String)
  | nearbyPairRequestReceived (remote senderName deviceType os : String)
  | pairedInviteResponse (endpointId : String) (displayName : Option String)
      (response : InviteResponse)
  | pairedDevicePresence (endpointId : String) (online : Bool) (lastSeenAt : Nat)
  | devicePaired (displayName : String)
  | deviceUnpaired (endpointId : String) (displayName : Option String) (reason : String)
  | pairingHostExpired
  | nearbyDeviceFound (endpointId : String)
  | nearbyDeviceIdentified (endpointId : String)
  | nearbyDeviceLost (endpointId : String)
  deriving DecidableEq, Repr

/-- The four places that store a pairing, with whom they then allow. -/
inductive PairingFlow (Id : Type)
  | pairingHost (remote : Id)
  | join (peer : Id)
  | acceptNearby (endpointId : String)
  | commitNearby (remote : Id)
  deriving DecidableEq, Repr

/-- Why a message is delivered, which decides what follows. -/
inductive Purpose
  | nearbyInvite (pending : PendingNearbyInvite)
  | pairedInvite
  | accept
  | decline
  | respond
  deriving DecidableEq, Repr

structure Delivery where
  endpointId : String
  msg : ControlMessage
  useCachedSession : Bool
  purpose : Purpose
  deriving DecidableEq, Repr

/-- What `connect_loop` is doing when it applies a remote unpair: handling a `Forget` on a
connection, or a refused `Recognition`. -/
inductive UnpairCause (Id : Type)
  | forgetReceived (conn : Conn Id)
  | recognitionRefused
  deriving DecidableEq, Repr

/-- Critical sections that several kinds of task go through. `racing` marks the one await inside
`connect_loop`'s `select!` that is not a read. -/
inductive CommonInstr (Id : Type)
  | read
  | sleep
  | remember (flow : PairingFlow Id) (device : PairedDevice)
  | allow (id : Id)
  | disallow (id : Id) (racing : Bool)
  | markUnpaired (id : Id)
  | touch (endpointId : String)
  | setPresence (endpointId : String) (online : Bool)
  | emitPresence (endpointId : String) (online : Bool)
  | insertSession (key : String) (conn : Conn Id)
  | removeSession (key : String)
  | removeSessionIf (key : String) (conn : Conn Id)
  | abortTask (key : String)
  | refreshList
  | refreshTasks (active : List PairedDevice)
  | expireNearby (endpointId : String)
  | emit (event : AppEvent)
  | emitInviteResponse (endpointId : String) (response : InviteResponse)
      (fallbackName : Option String)
  | ret (value : Ret)
  deriving DecidableEq, Repr

/-- `PairedOnlyHook::after_handshake` and the head of `handle_connection`. -/
inductive AcceptInstr
  | hookBlocked
  | hookAccess
  | hookDirectPath
  | acceptWindow
  | acceptAllowed (pairingHostOpen : Bool) (window : Nat)
  deriving DecidableEq, Repr

/-- `handle_control_session`. -/
inductive ControlInstr
  | recheckAllowed (msg : ControlMessage)
  | chargeToken (msg : ControlMessage)
  | answerIdentity
  | hangUp (code : Nat) (reason : String)
  | registerInbound
  | takePending (response : InviteResponse)
  | commitNearby (pending : PendingNearbyInvite)
  | emitPairedName
  deriving DecidableEq, Repr

/-- The pairing-host branch of `handle_connection`. -/
inductive HostInstr
  | hostHello
  | hostInvite (event : AppEvent)
  | hostRecord (info : DeviceInfo)
  | hostVote
  | loadPersistent
  deriving DecidableEq, Repr

/-- `connect_loop`. -/
inductive ConnectInstr (Id : Type)
  | loopTop
  | dial
  | settling
  | unpairGet (endpointId : String) (cause : UnpairCause Id)
  | unpairMark (endpointId : String) (cause : UnpairCause Id)
  deriving DecidableEq, Repr

/-- The calls of `NodeService`. -/
inductive ServiceInstr (Id : Type)
  | findNearby (endpointId : String) (msg : ControlMessage)
  | checkAllowed (id : Id) (delivery : Delivery)
  | deliverStored (delivery : Delivery)
  | waitSession (delivery : Delivery)
  | deliverDial (delivery : Delivery)
  | deliverWrite (delivery : Delivery) (conn : Conn Id)
  | insertPending (endpointId : String) (pending : PendingNearbyInvite)
  | probeAccept (endpointId : String)
  | joinDial (endpointId : String) (relayUrl : Option String)
  | joinReply (conn : Conn Id) (relayUrl : Option String)
  | forgetGet (endpointId : String)
  | forgetLive (endpointId : String)
  | forgetSend (endpointId : String) (conn : Conn Id)
  | forgetRecord (endpointId : String)
  | notifyForget (endpointId : String)
  | block (endpointId : String)
  | setDiscoverability (setting : Discoverability)
  | rebuild (previous setting : Discoverability)
  | restoreDiscoverability (previous : Discoverability)
  | clearNearby
  deriving DecidableEq, Repr

/-- `start_pairing_host`, `stop_pairing_host` and the expiry task. -/
inductive WindowInstr
  | takeExpireTask
  | storePersistent (value : Bool)
  | storeHostFlag (value : Bool)
  | openWindow (persistent : Bool)
  | closeWindow
  | spawnExpiry
  | setExpireTask (pid : Nat)
  deriving DecidableEq, Repr

/-- `spawn_lan_event_loop`, `spawn_identity_probe` and `nudge_reconnect`. -/
inductive LanInstr
  | appeared (endpointId : String)
  | observe (endpointId : String) (peerIsPaired : Bool)
  | vanished (endpointId : String)
  | nudgeGet (endpointId : String)
  | nudgeSession (key : String) (device : PairedDevice)
  | respawn (key : String) (device : PairedDevice)
  | probe (endpointId : String)
  | setIdentity (endpointId displayName deviceType : String) (os : Option String)
  deriving DecidableEq, Repr

/-- One critical section. -/
inductive Instr (Id : Type)
  | common (instr : CommonInstr Id)
  | accept (instr : AcceptInstr)
  | control (instr : ControlInstr)
  | host (instr : HostInstr)
  | connect (instr : ConnectInstr Id)
  | service (instr : ServiceInstr Id)
  | window (instr : WindowInstr)
  | lan (instr : LanInstr)
  deriving DecidableEq, Repr

structure Task (Id : Type) where
  kind : Kind Id
  todo : List (Instr Id)
  /-- The task's handle was aborted while it was running. -/
  aborted : Bool
  deriving DecidableEq, Repr

structure State (Id : Type) where
  shared : Shared Id
  procs : List (Task Id)

/-- What the outside answers to one step: the file system, the clocks, the network. -/
structure Env where
  io : Io
  nowMs : Nat
  instant : Nat
  /-- The connection a dial came back with. -/
  dialled : Option Nat
  /-- The reply read from a connection. -/
  reply : Option ControlMessage
  /-- Whether opening and writing a stream worked, a direct path appeared, the rebuild worked. -/
  ok : Bool
  deriving DecidableEq, Repr

/-- What a step shows to the outside. -/
inductive Out (Id : Type)
  | event (event : AppEvent)
  | sent (conn : Conn Id) (msg : ControlMessage)
  | closed (conn : Conn Id) (code : Nat) (reason : String)
  | returned (value : Ret)
  deriving DecidableEq, Repr

inductive Act (Id : Type)
  /-- A task goes through its next critical section. -/
  | exec (pid : Nat) (env : Env)
  /-- A message arrives at a task that waits for one. -/
  | recv (pid : Nat) (msg : ControlMessage)
  /-- The connection of a task closes. -/
  | close (pid : Nat) (reason : String)
  /-- An aborted task is dropped at an await. -/
  | drop (pid : Nat)
  | connect (conn : Conn Id)
  | call (call : Call)
  | lan (event : LanEvent)
  deriving DecidableEq, Repr

end DashBeam.Node

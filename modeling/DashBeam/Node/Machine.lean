import DashBeam.Lib.Machine
import DashBeam.Node.Programs

/-!
# The node as a machine

`write` is what a critical section does to the shared state, `next` what its task does then: the
critical sections that come before the rest of its list, what it shows to the outside, the tasks it
spawns and those it aborts. Both read the state as it is when the lock is taken.

An aborted task stops where it waits. One that is running when its handle is aborted goes on until
it next waits, and may be dropped at any lock on the way.
-/

namespace DashBeam.Node

open Protocol Native Lib

variable {Id : Type} [DecidableEq Id] (C : Config Id)

/-- The peer whose connection a task serves. -/
def Kind.remote : Kind Id → Option Id
  | .inbound conn => some conn.remote
  | .control session => some session.conn.remote
  | .host session => some session.conn.remote
  | .connect loop => loop.conn.map (·.remote)
  | _ => none

/-! ### Effects on the shared state -/

/-- The tasks a `refresh` starts, from pid `fresh` on, and the task map with them in it. -/
def spawnMissing (tasks : List (String × Nat)) (fresh : Nat) :
    List PairedDevice → List (String × Nat) × List (Task Id)
  | [] => (tasks, [])
  | device :: rest =>
    if (tasks.lookup (C.key device.endpointId)).isSome then spawnMissing tasks fresh rest
    else
      let (tasks, spawned) :=
        spawnMissing (tasks ++ [(C.key device.endpointId, fresh)]) (fresh + 1) rest
      (tasks, connectTask device :: spawned)

/-- The entries of the task map that `refresh` keeps. -/
def keptTasks (tasks : List (String × Nat)) (active : List PairedDevice) : List (String × Nat) :=
  tasks.filter fun entry => active.any fun d => C.key d.endpointId == entry.1

def writeCommon (s : Shared Id) (fresh : Nat) (env : Env) : CommonInstr Id → Shared Id
  | .remember _ device =>
    { s with pairedStore := (s.pairedStore.remember C.iroh env.io device).2 }
  | .allow id => { s with allowed := insert id s.allowed }
  | .disallow id _ => { s with allowed := s.allowed.erase id }
  | .markUnpaired id =>
    { s with pairedStore :=
        (s.pairedStore.markUnpairedRemotely C.iroh env.io (C.iroh.toStr id)).2 }
  | .touch endpointId =>
    { s with pairedStore := s.pairedStore.touch C.iroh env.io endpointId env.nowMs }
  | .setPresence endpointId online =>
    { s with presence := Function.update s.presence (C.key endpointId) (some online) }
  | .insertSession key conn =>
    { s with sessions := Function.update s.sessions key (some conn) }
  | .removeSession key => { s with sessions := Function.update s.sessions key none }
  | .removeSessionIf key conn =>
    { s with sessions :=
        if (s.sessions key).any fun current => current.num = conn.num then
          Function.update s.sessions key none
        else s.sessions }
  | .abortTask key => { s with tasks := s.tasks.filter fun entry => entry.1 ≠ key }
  | .refreshTasks active =>
    { s with tasks := (spawnMissing C (keptTasks C s.tasks active) fresh active).1 }
  | .expireNearby endpointId => { s with nearby := (s.nearby.expire endpointId).2 }
  | _ => s

def writeService (s : Shared Id) (env : Env) : ServiceInstr Id → Shared Id
  | .insertPending endpointId pending =>
    { s with pendingNearbyInvites :=
        Function.update s.pendingNearbyInvites endpointId (some pending) }
  | .forgetRecord endpointId =>
    { s with pairedStore := (s.pairedStore.forget C.iroh env.io endpointId).2 }
  | .block endpointId => { s with blocked := insert endpointId s.blocked }
  | .setDiscoverability setting => { s with discoverability := setting }
  | .restoreDiscoverability previous => { s with discoverability := previous }
  | .clearNearby => { s with nearby := .new }
  | _ => s

def writeWindow (s : Shared Id) : WindowInstr → Shared Id
  | .takeExpireTask => { s with pairingExpireTask := none }
  | .storePersistent value => { s with pairingHostPersistent := value }
  | .storeHostFlag value => { s with hostFlag := value }
  | .openWindow persistent =>
    { s with pairingHostOpen := true, windows := s.windows ++ [persistent] }
  | .closeWindow => { s with pairingHostOpen := false }
  | .setExpireTask pid => { s with pairingExpireTask := some pid }
  | .spawnExpiry => s

def writeLan (s : Shared Id) (fresh : Nat) (env : Env) : LanInstr → Shared Id
  | .observe endpointId peerIsPaired =>
    { s with nearby := (s.nearby.observe endpointId peerIsPaired env.nowMs).2 }
  | .vanished endpointId => { s with nearby := (s.nearby.expire endpointId).2 }
  | .respawn key _ =>
    { s with tasks := (s.tasks.filter fun entry => entry.1 ≠ key) ++ [(key, fresh)] }
  | .setIdentity endpointId displayName deviceType os =>
    { s with nearby := (s.nearby.setIdentity endpointId displayName deviceType os).2 }
  | _ => s

/-- The shared state after a critical section of a task of this kind. `fresh` is the pid the next
spawned task gets. -/
def write (s : Shared Id) (kind : Kind Id) (fresh : Nat) (env : Env) : Instr Id → Shared Id
  | .common instr => writeCommon C s fresh env instr
  | .service instr => writeService C s env instr
  | .window instr => writeWindow s instr
  | .lan instr => writeLan s fresh env instr
  | .control (.chargeToken _) =>
    { s with unpairedLimiter :=
        match kind.remote with
        | some remote => (s.unpairedLimiter.allow C.iroh (C.iroh.toStr remote) env.instant).2
        | none => s.unpairedLimiter }
  | .control (.takePending _) =>
    { s with pendingNearbyInvites :=
        match kind.remote with
        | some remote => Function.update s.pendingNearbyInvites (C.iroh.toStr remote) none
        | none => s.pendingNearbyInvites }
  | .connect (.unpairMark endpointId _) =>
    { s with pairedStore := (s.pairedStore.markUnpairedRemotely C.iroh env.io endpointId).2 }
  | _ => s

/-! ### What the task does next -/

/-- What follows a critical section. -/
structure Next (Id : Type) where
  push : List (Instr Id)
  out : List (Out Id) := []
  spawn : List (Task Id) := []
  abort : List Nat := []

def nextCommon (s : Shared Id) (fresh : Nat) (env : Env) : CommonInstr Id → Next Id
  | .read | .sleep | .allow _ | .disallow .. | .touch _ | .insertSession .. | .expireNearby _ =>
    { push := [] }
  | .remember flow device =>
    { push := afterRemember C flow device (s.pairedStore.remember C.iroh env.io device).1 }
  | .markUnpaired id =>
    let endpointId := C.iroh.toStr id
    match (s.pairedStore.markUnpairedRemotely C.iroh env.io endpointId).1 with
    | some device =>
      { push := [.common (.disallow id false), .common (.setPresence endpointId false)] ++
          managerForget C endpointId ++
          [.common (.emit (.deviceUnpaired device.endpointId (some device.displayName) "remote"))] }
    | none => { push := [] }
  | .setPresence endpointId online =>
    { push := if s.presence (C.key endpointId) = some online then []
        else [.common (.emitPresence endpointId online)] }
  | .emitPresence endpointId online =>
    let stored := (s.pairedStore.get C.iroh env.io endpointId).join
    { push := []
      out := [.event (.pairedDevicePresence endpointId online ((stored.map (·.lastSeenAt)).getD 0))] }
  | .removeSession key =>
    { push := if (s.sessions key).isSome then [.common (.setPresence key false)] else [] }
  | .removeSessionIf key conn =>
    { push := if (s.sessions key).any fun current => current.num = conn.num then
          [.common (.setPresence key false)]
        else [] }
  | .abortTask key =>
    { push := [], abort := (s.tasks.filter fun entry => entry.1 = key).map (·.2) }
  | .refreshList =>
    match s.pairedStore.readFile env.io with
    | some devices =>
      { push := [.common (.refreshTasks
          (devices.filter fun d => d.pairingStatus.isConnectable))] }
    | none => { push := [] }
  | .refreshTasks active =>
    { push := []
      spawn := (spawnMissing C (keptTasks C s.tasks active) fresh active).2
      abort := (s.tasks.filter fun entry =>
        !(active.any fun d => C.key d.endpointId == entry.1)).map (·.2) }
  | .emit event => { push := [], out := [.event event] }
  | .emitInviteResponse endpointId response fallbackName =>
    let stored := ((s.pairedStore.get C.iroh env.io endpointId).join).map (·.displayName)
    { push := []
      out := [.event (.pairedInviteResponse endpointId (stored.or fallbackName) response)] }
  | .ret value => { push := [], out := [.returned value] }

def nextAccept (s : Shared Id) (conn : Conn Id) (env : Env) : AcceptInstr → Kind Id × Next Id
  | .hookBlocked =>
    if C.iroh.toStr conn.remote ∈ s.blocked then
      (.inbound conn, { push := [], out := [.closed conn 403 "blocked peer"] })
    else (.inbound conn, { push := [.accept .hookAccess] })
  | .hookAccess =>
    if s.pairingHostOpen || conn.remote ∈ s.allowed then
      (.inbound conn, { push := [.accept .acceptWindow] })
    else if allowsUnpairedControl s.discoverability then
      (.inbound conn, { push := [.accept .hookDirectPath] })
    else (.inbound conn, { push := [], out := [.closed conn 403 "unauthorized control peer"] })
  | .hookDirectPath =>
    if env.ok then (.inbound conn, { push := [.accept .acceptWindow] })
    else (.inbound conn, { push := [], out := [.closed conn 403 "unauthorized control peer"] })
  | .acceptWindow =>
    (.inbound conn, { push := [.accept (.acceptAllowed s.pairingHostOpen s.windows.length)] })
  | .acceptAllowed pairingHostOpen window =>
    if conn.remote ∈ s.allowed then
      (.control ⟨conn, true, false⟩, { push := [.common .read] })
    else if !pairingHostOpen then
      (.control ⟨conn, false, false⟩, { push := [.common .read] })
    else (.host ⟨conn, window, none, none⟩, { push := [.host .hostHello] })

def nextControl (s : Shared Id) (session : ControlSession Id) (env : Env) :
    ControlInstr → ControlSession Id × Next Id
  | .recheckAllowed msg =>
    if session.conn.remote ∈ s.allowed then
      let (session, push) := dispatch C { session with peerIsPaired := true } msg
      (session, { push := push })
    else (session, { push := [.control (.hangUp 403 "not permitted for unpaired peer")] })
  | .chargeToken msg =>
    if (s.unpairedLimiter.allow C.iroh (C.iroh.toStr session.conn.remote) env.instant).1 then
      let (session, push) := dispatch C session msg
      (session, { push := push })
    else (session, { push := [.control (.hangUp 429 "unpaired control rate limit")] })
  | .answerIdentity =>
    if shouldAnswerIdentity s.discoverability session.peerIsPaired then
      (session,
        { push := [.common .read]
          out := if env.ok then [.sent session.conn
              (.identity (C.iroh.toStr C.self) C.displayName C.deviceType C.os)]
            else [] })
    else if session.peerIsPaired then (session, { push := [.common .read] })
    else (session, { push := [.control (.hangUp 403 "not discoverable")] })
  | .hangUp code reason =>
    (session, { push := leaveSession C session, out := [.closed session.conn code reason] })
  | .registerInbound =>
    let key := C.key (C.iroh.toStr session.conn.remote)
    (session,
      { push := if (s.sessions key).isSome then [.common (.setPresence key true)]
          else setSession key session.conn })
  | .takePending response =>
    match s.pendingNearbyInvites (C.iroh.toStr session.conn.remote) with
    | none => (session, { push := [] })
    | some pending =>
      (session,
        { push := (if response = .accepted then [.control (.commitNearby pending)] else []) ++
            [.common (.emitInviteResponse (C.iroh.toStr session.conn.remote) response
              (some pending.displayName))] })
  | .commitNearby pending =>
    let info := committedInfo C s.nearby session.conn.remote pending
    (session,
      { push := [.common (.remember (.commitNearby session.conn.remote)
          (nearbyRecord info env.nowMs))] })
  | .emitPairedName =>
    let stored := (s.pairedStore.get C.iroh env.io (C.iroh.toStr session.conn.remote)).join
    (session,
      { push := [], out := [.event (.devicePaired ((stored.map (·.displayName)).getD ""))] })

def nextHost (s : Shared Id) (session : HostSession Id) (env : Env) : HostInstr → Next Id
  | .hostHello =>
    if env.ok then
      { push := [.common .read], out := [.sent session.conn (C.pairingInfo session.conn)] }
    else { push := [] }
  | .hostInvite event =>
    { push := [], out := if session.conn.remote ∈ s.allowed then [.event event] else [] }
  | .hostRecord info =>
    { push := [.common (.remember (.pairingHost session.conn.remote)
        (hostDevice info s.homeRelayUrl env.nowMs))] }
  | .hostVote =>
    { push := []
      out := if env.ok then [.sent session.conn (.rememberVote "" .remember)] else [] }
  | .loadPersistent =>
    { push := if s.pairingHostPersistent then [] else [.window .closeWindow] }

def nextConnect (s : Shared Id) (loop : ConnectLoop Id) (env : Env) :
    ConnectInstr Id → ConnectLoop Id × Next Id
  | .loopTop =>
    match (s.pairedStore.get C.iroh env.io loop.endpointId).join with
    | some device =>
      (loop, { push := if device.pairingStatus.isActive then [.connect .dial] else [] })
    | none => (loop, { push := [] })
  | .dial =>
    match C.iroh.fromStr loop.endpointId, env.dialled, env.ok with
    | some remote, some num, true =>
      ({ loop with conn := some ⟨remote, num⟩ },
        { push := setSession (C.key loop.endpointId) ⟨remote, num⟩ ++ [.common .read]
          out := [.sent ⟨remote, num⟩ (.recognition (C.iroh.signChallenge C.self num))] })
    | _, _, _ => (loop, { push := .common (.setPresence loop.endpointId false) :: backOff })
  | .settling =>
    match (s.pairedStore.get C.iroh env.io loop.endpointId).join with
    | some existing =>
      (loop,
        { push := if env.nowMs - existing.pairedAt < recentPairingGraceMs then backOff
            else [.connect (.unpairGet loop.endpointId .recognitionRefused)] })
    | none => (loop, { push := [.connect (.unpairGet loop.endpointId .recognitionRefused)] })
  | .unpairGet endpointId cause =>
    match (s.pairedStore.get C.iroh env.io endpointId).join with
    | some existing =>
      (loop,
        { push := if existing.pairingStatus.isActive then
              [.connect (.unpairMark endpointId cause)]
            else unpairSkipped cause })
    | none => (loop, { push := unpairSkipped cause })
  | .unpairMark endpointId cause =>
    match (s.pairedStore.markUnpairedRemotely C.iroh env.io endpointId).1 with
    | some device =>
      (loop,
        { push := unpairEffects C endpointId device cause ++
            unpairApplied C loop.endpointId cause })
    | none => (loop, { push := unpairSkipped cause })

def nextService (s : Shared Id) (env : Env) : ServiceInstr Id → Next Id
  | .findNearby endpointId msg =>
    match s.nearby.list.find? fun d => d.endpointId == endpointId with
    | some device => { push := onFound C endpointId msg device }
    | none => { push := [.common (.ret .err)] }
  | .checkAllowed id delivery =>
    { push := if id ∈ s.allowed then [.service (.deliverStored delivery)]
        else [.common (.ret .err)] }
  | .deliverStored delivery =>
    match C.iroh.fromStr delivery.endpointId,
      s.pairedStore.get C.iroh env.io delivery.endpointId with
    | some _, some _ =>
      { push := if delivery.useCachedSession then [.service (.waitSession delivery)]
          else [.service (.deliverDial delivery)] }
    | _, _ => { push := onError delivery }
  | .waitSession delivery =>
    match s.sessions (C.key delivery.endpointId) with
    | some conn => { push := [.service (.deliverWrite delivery conn)] }
    | none => { push := [.service (.deliverDial delivery)] }
  | .deliverDial delivery =>
    match C.iroh.fromStr delivery.endpointId, env.dialled with
    | none, _ => { push := onError delivery }
    | some _, none => { push := onUnreached delivery }
    | some remote, some num =>
      { push := (if delivery.purpose = .pairedInvite then recognise delivery.endpointId else []) ++
          [.service (.deliverWrite delivery ⟨remote, num⟩)] }
  | .deliverWrite delivery conn =>
    if env.ok then { push := onSent delivery, out := [.sent conn delivery.msg] }
    else { push := onError delivery }
  | .probeAccept endpointId =>
    let info := nearbyPeerIdentity C endpointId (probeIdentityVia C endpointId env).2
    { push := [.common (.remember (.acceptNearby endpointId) (nearbyRecord info env.nowMs))]
      out := (probeIdentityVia C endpointId env).1 }
  | .joinDial endpointId relayUrl =>
    match C.iroh.fromStr endpointId, env.dialled, env.ok with
    | some remote, some num, true =>
      { push := [.service (.joinReply ⟨remote, num⟩ relayUrl)]
        out := [.sent ⟨remote, num⟩ (C.pairingInfo ⟨remote, num⟩),
          .sent ⟨remote, num⟩ (.rememberVote "" .remember)] }
    | _, _, _ => { push := [.common (.ret .err)] }
  | .joinReply conn relayUrl => { push := onHostReply C conn relayUrl env.nowMs env.reply }
  | .forgetGet endpointId =>
    { push := if (s.pairedStore.get C.iroh env.io endpointId).isSome then
          [.service (.forgetLive endpointId)]
        else [.common (.ret .err)] }
  | .forgetLive endpointId =>
    match s.sessions (C.key endpointId) with
    | some conn => { push := [.service (.forgetSend endpointId conn)] }
    | none => { push := forgetRest C endpointId, spawn := [notifyTask endpointId] }
  | .forgetSend endpointId conn =>
    if env.ok then
      { push := forgetRest C endpointId
        out := [.sent conn (.forget (C.iroh.signChallenge C.self conn.num))] }
    else { push := forgetRest C endpointId, spawn := [notifyTask endpointId] }
  | .forgetRecord endpointId =>
    { push := if (s.pairedStore.forget C.iroh env.io endpointId).1 then
          managerForget C endpointId ++ [.common (.setPresence endpointId false),
            .common (.emit (.deviceUnpaired endpointId none "local")), .common (.ret .ok)]
        else [.common (.ret .err)] }
  | .notifyForget endpointId =>
    match C.iroh.fromStr endpointId, env.dialled, env.ok with
    | some remote, some num, true =>
      { push := [], out := [.sent ⟨remote, num⟩ (.forget (C.iroh.signChallenge C.self num))] }
    | _, _, _ => { push := [] }
  | .setDiscoverability setting =>
    { push := if decide (s.discoverability = .off) = decide (setting = .off) then
          [.common (.ret .ok)]
        else stopPairingHost ++ [.service (.rebuild s.discoverability setting)] }
  | .rebuild previous setting =>
    { push := if env.ok then
          .common .refreshList ::
            ((if setting = .off then [.service .clearNearby] else []) ++ [.common (.ret .ok)])
        else [.service (.restoreDiscoverability previous), .common (.ret .err)] }
  | .insertPending .. | .block _ | .restoreDiscoverability _ | .clearNearby => { push := [] }

def nextWindow (s : Shared Id) (fresh : Nat) : WindowInstr → Next Id
  | .takeExpireTask => { push := [], abort := s.pairingExpireTask.toList }
  | .spawnExpiry => { push := [.window (.setExpireTask fresh)], spawn := [expiryTask] }
  | _ => { push := [] }

def nextLan (s : Shared Id) (env : Env) : LanInstr → Next Id
  | .appeared endpointId =>
    { push := [.lan (.observe endpointId
        ((C.iroh.fromStr endpointId).any fun id => id ∈ s.allowed))] }
  | .observe endpointId peerIsPaired =>
    match (s.nearby.observe endpointId peerIsPaired env.nowMs).1 with
    | .probeNeeded =>
      { push := []
        out := [.event (.nearbyDeviceFound endpointId)]
        spawn := [probeTask endpointId] }
    | .refreshNeeded => { push := [], spawn := [probeTask endpointId] }
    | .paired => { push := [.lan (.nudgeGet endpointId)] }
    | .known | .invalid => { push := [] }
  | .vanished endpointId =>
    { push := []
      out := if (s.nearby.expire endpointId).1 then [.event (.nearbyDeviceLost endpointId)]
        else [] }
  | .nudgeGet endpointId =>
    match (s.pairedStore.get C.iroh env.io endpointId).join with
    | some device =>
      { push := if device.pairingStatus.isConnectable then
            [.lan (.nudgeSession (C.key endpointId) device)]
          else [] }
    | none => { push := [] }
  | .nudgeSession key device =>
    { push := if (s.sessions key).isSome then [] else [.lan (.respawn key device)] }
  | .respawn key device =>
    { push := []
      spawn := [connectTask device]
      abort := (s.tasks.filter fun entry => entry.1 = key).map (·.2) }
  | .probe endpointId =>
    { push := match (probeIdentityVia C endpointId env).2 with
        | some info => [.lan (.setIdentity endpointId info.displayName info.deviceType
            (if info.os = "" then none else some info.os))]
        | none => []
      out := (probeIdentityVia C endpointId env).1 }
  | .setIdentity endpointId displayName deviceType os =>
    { push := []
      out := if (s.nearby.setIdentity endpointId displayName deviceType os).1 then
          [.event (.nearbyDeviceIdentified endpointId)]
        else [] }

/-- What a task of this kind does after a critical section, and its local variables then. A task
that reads waits for `recv` or `close`. -/
def next (s : Shared Id) (kind : Kind Id) (fresh : Nat) (env : Env) :
    Instr Id → Option (Kind Id × Next Id)
  | .common .read => none
  | .common instr => some (kind, nextCommon C s fresh env instr)
  | .service instr => some (kind, nextService C s env instr)
  | .window instr => some (kind, nextWindow s fresh instr)
  | .lan instr => some (kind, nextLan C s env instr)
  | .accept instr =>
    match kind with
    | .inbound conn => some (nextAccept C s conn env instr)
    | _ => none
  | .control instr =>
    match kind with
    | .control session =>
      some (.control (nextControl C s session env instr).1, (nextControl C s session env instr).2)
    | _ => none
  | .host instr =>
    match kind with
    | .host session => some (.host session, nextHost C s session env instr)
    | _ => none
  | .connect instr =>
    match kind with
    | .connect loop =>
      some (.connect (nextConnect C s loop env instr).1, (nextConnect C s loop env instr).2)
    | _ => none

/-! ### Tasks stopping -/

/-- Critical sections at which a task waits for the outside and not for a lock. -/
def Instr.parks : Instr Id → Bool
  | .common .read | .common .sleep | .connect .dial => true
  | _ => false

/-- Critical sections behind an await, at which an aborted task may be dropped. -/
def Instr.awaits : Instr Id → Bool
  | .common (.insertSession ..) | .common (.removeSession _) | .common (.removeSessionIf ..)
  | .common (.disallow ..) | .window .closeWindow => true
  | _ => false

def Task.parked (t : Task Id) : Bool := t.todo.head?.any Instr.parks

/-- A task that was aborted stops as soon as it waits. -/
def Task.settle (t : Task Id) : Task Id :=
  if t.aborted && t.parked then { t with todo := [] } else t

def Task.abort (t : Task Id) : Task Id := Task.settle ⟨t.kind, t.todo, true⟩

def abortAll (pids : List Nat) (procs : List (Task Id)) : List (Task Id) :=
  procs.mapIdx fun pid t => if pid ∈ pids then t.abort else t

/-! ### Steps -/

def exec (s : State Id) (pid : Nat) (env : Env) : Option (State Id × List (Out Id)) :=
  match s.procs[pid]? with
  | none => none
  | some t =>
    match t.todo with
    | [] => none
    | instr :: rest =>
      match next C s.shared t.kind s.procs.length env instr with
      | none => none
      | some (kind, n) =>
        let t' : Task Id := Task.settle ⟨kind, n.push ++ rest, t.aborted⟩
        some (⟨write C s.shared t.kind s.procs.length env instr,
          abortAll n.abort (s.procs.set pid t' ++ n.spawn)⟩, n.out)

/-- A task reading a message: the three message loops. -/
def received (kind : Kind Id) (msg : ControlMessage) : Option (Kind Id × List (Instr Id)) :=
  match kind with
  | .control session =>
    some (.control (receiveControl C session msg).1, (receiveControl C session msg).2)
  | .host session => some (.host (receiveHost C session msg).1, (receiveHost C session msg).2)
  | .connect loop =>
    match loop.conn with
    | some conn => some (.connect loop, readOutbound C conn msg)
    | none => none
  | _ => none

def recv (s : State Id) (pid : Nat) (msg : ControlMessage) : Option (State Id) :=
  match s.procs[pid]? with
  | some ⟨kind, .common .read :: _, aborted⟩ =>
    match received C kind msg with
    | some (kind, todo) =>
      some { s with procs := s.procs.set pid (Task.settle ⟨kind, todo, aborted⟩) }
    | none => none
  | _ => none

/-- What a task does when its connection closes under it. -/
def closedTodo (kind : Kind Id) (reason : String) : List (Instr Id) :=
  match kind with
  | .control session => leaveSession C session
  | .host session => if session.remoteInfo.isSome then [.host .hostVote] else []
  | .connect loop =>
    match loop.conn with
    | some conn =>
      .common (.removeSessionIf (C.key loop.endpointId) conn) ::
        if reason = "not permitted for unpaired peer" then [.connect .settling] else backOff
    | none => []
  | _ => []

/-- Whether the closing of its connection reaches a task here: at a read, and in `connect_loop` also
at the lock inside its `select!`. -/
def Instr.seesClose : Instr Id → Bool
  | .common .read | .common (.disallow _ true) => true
  | _ => false

def close (s : State Id) (pid : Nat) (reason : String) : Option (State Id) :=
  match s.procs[pid]? with
  | some ⟨kind, instr :: _, aborted⟩ =>
    if instr.seesClose then
      let t' : Task Id := Task.settle ⟨kind, closedTodo C kind reason, aborted⟩
      some { s with procs := s.procs.set pid t' }
    else none
  | _ => none

/-- An aborted task is dropped at an await. -/
def dropTask (s : State Id) (pid : Nat) : Option (State Id) :=
  match s.procs[pid]? with
  | some ⟨kind, instr :: _, true⟩ =>
    if instr.awaits then some { s with procs := s.procs.set pid ⟨kind, [], true⟩ } else none
  | _ => none

def started : Act Id → Option (Task Id)
  | .connect conn => some ⟨.inbound conn, [.accept .hookBlocked], false⟩
  | .call call => some ⟨.call call, program C call, false⟩
  | .lan (.appeared endpointId) => some ⟨.lan, [.lan (.appeared endpointId)], false⟩
  | .lan (.vanished endpointId) => some ⟨.lan, [.lan (.vanished endpointId)], false⟩
  | _ => none

def step (s : State Id) (a : Act Id) : Option (State Id × List (Out Id)) :=
  match a with
  | .exec pid env => exec C s pid env
  | .recv pid msg => (recv C s pid msg).map (·, [])
  | .close pid reason => (close C s pid reason).map (·, [])
  | .drop pid => (dropTask s pid).map (·, [])
  | a => (started C a).map fun t => ({ s with procs := s.procs ++ [t] }, [])

def machine : Machine (State Id) (Act Id) (Out Id) := ⟨step C⟩

/-- `NodeService::start` on a store, with whether this device's own key had changed: the allowlist is
loaded, then the records are marked stale if it had, and the supervisor refreshes the connect
loops. -/
def start (store : StoreFile) (identityRotated : Bool) (io : Io)
    (discoverability : Discoverability) (homeRelayUrl : Option String) : State Id where
  shared :=
    { allowed := StoreFile.loadAllowed C.iroh store.stored
      pairingHostOpen := false
      discoverability := discoverability
      hostFlag := false
      pairingHostPersistent := false
      pairingExpireTask := none
      blocked := ∅
      pendingNearbyInvites := fun _ => none
      pairedStore :=
        if identityRotated then store.markStaleAfterLocalIdentityRotation io else store
      presence := fun _ => none
      sessions := fun _ => none
      tasks := []
      nearby := .new
      unpairedLimiter := .new
      homeRelayUrl := homeRelayUrl
      windows := [] }
  procs := [⟨.call .refresh, program C .refresh, false⟩]

end DashBeam.Node

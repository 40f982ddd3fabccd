import DashBeam.Node.State

/-!
# What the tasks go through

The functions of `node.rs`, `pairing_host.rs` and `paired_connections.rs`, each as the critical
sections it goes through. A function that decides on what it finds under a lock goes on from there
in `Node.Machine`; what is decided on local variables alone is decided here.
-/

namespace DashBeam.Node

open Protocol Native

variable {Id : Type} (C : Config Id)

/-- The key of a peer in the session, task and presence maps. -/
def Config.key (endpointId : String) : String := C.iroh.toLowercase endpointId

/-- What `NodeService` says about this device. -/
def Config.pairingInfo (conn : Conn Id) : ControlMessage :=
  .pairingInfo (C.iroh.toStr C.self) C.displayName C.deviceType C.os
    (C.iroh.signChallenge C.self conn.num)

/-! ### The connection manager -/

def setSession (key : String) (conn : Conn Id) : List (Instr Id) :=
  [.common (.insertSession key conn), .common (.setPresence key true), .common (.touch key)]

/-- `PairedConnectionManager::forget`. -/
def managerForget (endpointId : String) : List (Instr Id) :=
  [.common (.abortTask (C.key endpointId)), .common (.removeSession (C.key endpointId))]

/-- What the three message loops do with a verified `Recognition`. -/
def recognise (endpointId : String) : List (Instr Id) :=
  [.common (.touch endpointId), .common (.setPresence endpointId true)]

/-- The task `spawn_connect_task` starts. -/
def connectTask (device : PairedDevice) : Task Id :=
  ⟨.connect ⟨device.endpointId, none⟩, [.connect .loopTop], false⟩

/-- The end of `connect_loop`'s round: sleep, then try again. -/
def backOff : List (Instr Id) := [.common .sleep, .connect .loopTop]

/-- What follows `apply_remote_unpair` when it marked the record, in the loop started for
`loopId`. -/
def unpairApplied (loopId : String) : UnpairCause Id → List (Instr Id)
  | .forgetReceived conn => [.common (.removeSessionIf (C.key loopId) conn)]
  | .recognitionRefused => []

/-- What follows `apply_remote_unpair` when it did not. -/
def unpairSkipped : UnpairCause Id → List (Instr Id)
  | .forgetReceived _ => [.common .read]
  | .recognitionRefused => backOff

/-- The effects of `apply_remote_unpair` once the record is marked. -/
def unpairEffects (endpointId : String) (device : PairedDevice) (cause : UnpairCause Id) :
    List (Instr Id) :=
  (match C.iroh.fromStr endpointId with
    | some id => [.common (.disallow id (match cause with
        | .forgetReceived _ => true
        | .recognitionRefused => false))]
    | none => []) ++
  [.common (.setPresence endpointId false),
    .common (.emit (.deviceUnpaired device.endpointId (some device.displayName) "remote"))]

/-- One message of `read_outbound_control_loop`. -/
def readOutbound (conn : Conn Id) (msg : ControlMessage) : List (Instr Id) :=
  let remote := C.iroh.toStr conn.remote
  match msg with
  | .invite blobTicket fileCount totalSize senderName =>
    [.common (.emit (.pairedInviteReceived remote blobTicket fileCount totalSize senderName)),
      .common .read]
  | .inviteResponse _ response =>
    [.common (.emitInviteResponse remote response none), .common .read]
  | .recognition signature =>
    if C.iroh.verifyChallenge conn.remote conn.num signature then
      recognise remote ++ [.common .read]
    else [.common .read]
  | .forget signature =>
    if C.iroh.verifyChallenge conn.remote conn.num signature then
      [.connect (.unpairGet remote (.forgetReceived conn))]
    else [.common .read]
  | _ => [.common .read]

/-! ### Control sessions -/

/-- The end of `handle_control_session`. -/
def leaveSession (session : ControlSession Id) : List (Instr Id) :=
  if session.registered then
    [.common (.removeSessionIf (C.key (C.iroh.toStr session.conn.remote)) session.conn)]
  else []

/-- `handle_paired_control_message`, and the loop going on or ending after it. -/
def handlePairedControlMessage (session : ControlSession Id) (msg : ControlMessage) :
    List (Instr Id) :=
  let remote := C.iroh.toStr session.conn.remote
  match msg with
  | .invite blobTicket fileCount totalSize senderName =>
    [.common (.emit (.pairedInviteReceived remote blobTicket fileCount totalSize senderName)),
      .common .read]
  | .pairRequest senderName deviceType os =>
    [.common (.emit (.nearbyPairRequestReceived remote senderName deviceType os)), .common .read]
  | .inviteResponse _ response =>
    if session.peerIsPaired then
      [.common (.emitInviteResponse remote response none), .common .read]
    else [.control (.takePending response), .common .read]
  | .recognition signature =>
    if C.iroh.verifyChallenge session.conn.remote session.conn.num signature then
      recognise remote ++ [.common .read]
    else [.common .read]
  | .forget signature =>
    if C.iroh.verifyChallenge session.conn.remote session.conn.num signature then
      [.common (.markUnpaired session.conn.remote), .control (.hangUp 0 "unpaired")]
    else [.common .read]
  | _ => [.common .read]

/-- A message that passed the gate: the session after it, and what is left to do. Registration is
lazy, and not for a probe. -/
def dispatch (session : ControlSession Id) (msg : ControlMessage) :
    ControlSession Id × List (Instr Id) :=
  if msg = .whoAreYou then (session, [.control .answerIdentity])
  else if session.peerIsPaired && !session.registered then
    ({ session with registered := true },
      .control .registerInbound :: handlePairedControlMessage C session msg)
  else (session, handlePairedControlMessage C session msg)

/-- One message of `handle_control_session`: an unpaired peer's message is checked against the
allowlist or charged a token, a paired peer's is handled. -/
def receiveControl (session : ControlSession Id) (msg : ControlMessage) :
    ControlSession Id × List (Instr Id) :=
  if session.peerIsPaired then dispatch C session msg
  else if unpairedMessageAllowed msg then (session, [.control (.chargeToken msg)])
  else (session, [.control (.recheckAllowed msg)])

/-! ### Pairing-host sessions -/

/-- The check at the end of the pairing-host loop: the pairing is complete, or the next message. -/
def hostNext (session : HostSession Id) : List (Instr Id) :=
  match session.remoteInfo, session.remoteVote with
  | some info, some .remember => [.host (.hostRecord info)]
  | _, _ => [.common .read]

def receiveHost (session : HostSession Id) (msg : ControlMessage) :
    HostSession Id × List (Instr Id) :=
  let remote := C.iroh.toStr session.conn.remote
  match msg with
  | .pairingInfo endpointId displayName deviceType os signature =>
    match C.iroh.fromStr endpointId with
    | none => (session, [.common .read])
    | some peer =>
      if C.iroh.verifyChallenge peer session.conn.num signature then
        let session := { session with remoteInfo := some ⟨endpointId, displayName, deviceType, os⟩ }
        (session, hostNext session)
      else (session, [.common .read])
  | .rememberVote _ vote =>
    let session := { session with remoteVote := some vote }
    (session, hostNext session)
  | .invite blobTicket fileCount totalSize senderName =>
    (session, .host (.hostInvite
      (.pairedInviteReceived remote blobTicket fileCount totalSize senderName)) :: hostNext session)
  | .inviteResponse _ response =>
    (session, .common (.emitInviteResponse remote response none) :: hostNext session)
  | .recognition signature =>
    if C.iroh.verifyChallenge session.conn.remote session.conn.num signature then
      (session, recognise remote ++ hostNext session)
    else (session, hostNext session)
  | .forget signature =>
    if C.iroh.verifyChallenge session.conn.remote session.conn.num signature then
      (session, .common (.markUnpaired session.conn.remote) :: hostNext session)
    else (session, hostNext session)
  | .whoAreYou | .identity .. | .pairRequest .. => (session, hostNext session)

/-- The record a pairing-host session stores. -/
def hostDevice (info : DeviceInfo) (relayUrl : Option String) (nowMs : Nat) : PairedDevice :=
  ⟨info.endpointId, info.displayName, info.deviceType, info.os, nowMs, nowMs, relayUrl, .active,
    false⟩

/-! ### Pairing through a nearby invite -/

/-- The record the two nearby flows store. -/
def nearbyRecord (info : DeviceInfo) (nowMs : Nat) : PairedDevice :=
  ⟨info.endpointId, info.displayName, info.deviceType, info.os, nowMs, nowMs, none, .active, false⟩

/-- The first eight characters of an id, which stand in for a name. -/
def idPrefix (endpointId : String) : String := String.ofList (endpointId.toList.take 8)

def snapshot (endpointId : String) (device : NearbyDevice) : PendingNearbyInvite :=
  if device.identified then
    ⟨device.displayName.getD (idPrefix endpointId), device.deviceType.getD C.defaultDeviceType,
      device.os.getD ""⟩
  else ⟨idPrefix endpointId, C.defaultDeviceType, ""⟩

/-- The identity `commit_nearby_pairing` stores: what Nearby knows now, or the snapshot. -/
def committedInfo (nearby : NearbyRegistry) (remote : Id) (pending : PendingNearbyInvite) :
    DeviceInfo :=
  let endpointId := C.iroh.toStr remote
  match nearby.list.find? fun d => d.identified && eqIgnoreAsciiCase d.endpointId endpointId with
  | some fresh =>
    ⟨endpointId, fresh.displayName.getD pending.displayName,
      fresh.deviceType.getD pending.deviceType, fresh.os.getD pending.os⟩
  | none => ⟨endpointId, pending.displayName, pending.deviceType, pending.os⟩

def nearbyPeerIdentity (endpointId : String) (probed : Option DeviceInfo) : DeviceInfo :=
  let fallback : DeviceInfo := ⟨endpointId, idPrefix endpointId, C.defaultDeviceType, ""⟩
  match probed with
  | some info =>
    if eqIgnoreAsciiCase info.endpointId endpointId then { info with endpointId := endpointId }
    else fallback
  | none => fallback

/-- `probe_identity_via`: what it sends, and the identity in the reply. -/
def probeIdentityVia (endpointId : String) (env : Env) : List (Out Id) × Option DeviceInfo :=
  match C.iroh.fromStr endpointId, env.dialled, env.ok with
  | some remote, some num, true =>
    ([.sent ⟨remote, num⟩ .whoAreYou],
      match env.reply with
      | some (.identity id displayName deviceType os) => some ⟨id, displayName, deviceType, os⟩
      | _ => none)
  | _, _, _ => ([], none)

/-- What follows `remember` in each of the pairing flows, by whether it went through. -/
def afterRemember (flow : PairingFlow Id) (device : PairedDevice) (stored : Bool) :
    List (Instr Id) :=
  match flow with
  | .pairingHost remote =>
    [.common (.allow remote), .common .refreshList,
      .common (.emit (.devicePaired device.displayName)), .host .hostVote, .host .loadPersistent]
  | .join peer =>
    if stored then
      [.common (.allow peer), .common .refreshList,
        .common (.emit (.devicePaired device.displayName)), .common (.ret .ok)]
    else [.common (.ret .err)]
  | .acceptNearby endpointId =>
    if stored then
      .common (.expireNearby endpointId) ::
        match C.iroh.fromStr endpointId with
        | some id =>
          [.common (.allow id), .common (.emit (.devicePaired device.displayName)),
            .service (.deliverStored
              ⟨endpointId, .inviteResponse "" .accepted, false, .accept⟩)]
        | none => [.common (.ret .err)]
    else [.common (.ret .err)]
  | .commitNearby remote =>
    if stored then
      [.common (.expireNearby (C.iroh.toStr remote)), .common (.allow remote),
        .common .refreshList, .control .emitPairedName]
    else []

/-! ### Calls -/

/-- What `invite_nearby_device` and `request_nearby_pair` do with the device they found. Only the
first asks for a ticket, and only it looks the peer's relay up in the store. -/
def onFound (endpointId : String) (msg : ControlMessage) (device : NearbyDevice) :
    List (Instr Id) :=
  let delivery : Delivery := ⟨endpointId, msg, false, .nearbyInvite (snapshot C endpointId device)⟩
  match msg with
  | .invite blobTicket .. =>
    if blobTicket = "" then [.common (.ret .err)] else [.service (.deliverStored delivery)]
  | _ => [.service (.deliverDial delivery)]

/-- What `join_pairing` does with the host's reply on the dialled connection. -/
def onHostReply (conn : Conn Id) (relayUrl : Option String) (nowMs : Nat) :
    Option ControlMessage → List (Instr Id)
  | some (.pairingInfo endpointId displayName deviceType os signature) =>
    match C.iroh.fromStr endpointId with
    | some peer =>
      if C.iroh.verifyChallenge peer conn.num signature then
        [.common (.remember (.join peer) ⟨endpointId, displayName, deviceType, os, nowMs, nowMs,
          relayUrl, .active, false⟩)]
      else [.common (.ret .err)]
    | none => [.common (.ret .err)]
  | _ => [.common (.ret .err)]

def onSent (d : Delivery) : List (Instr Id) :=
  match d.purpose with
  | .nearbyInvite pending =>
    [.service (.insertPending d.endpointId pending), .common (.ret (.okBool true))]
  | .pairedInvite => [.common (.ret (.okBool true))]
  | .accept => [.common .refreshList, .common (.ret .ok)]
  | .decline | .respond => [.common (.ret .ok)]

/-- What follows when the peer could not be reached. -/
def onUnreached (d : Delivery) : List (Instr Id) :=
  match d.purpose with
  | .nearbyInvite _ | .pairedInvite => [.common (.ret (.okBool false))]
  | .accept => [.common .refreshList, .common (.ret .ok)]
  | .decline | .respond => [.common (.ret .err)]

def onError (d : Delivery) : List (Instr Id) :=
  match d.purpose with
  | .accept => [.common .refreshList, .common (.ret .ok)]
  | _ => [.common (.ret .err)]

def stopPairingHost : List (Instr Id) :=
  [.window .takeExpireTask, .window (.storePersistent false), .window (.storeHostFlag false),
    .window .closeWindow]

def startPairingHost (ttlSecs : Option Nat) : List (Instr Id) :=
  stopPairingHost ++
    [.window (.storePersistent (pairingHostIsPersistent ttlSecs)), .window (.storeHostFlag true),
      .window (.openWindow (pairingHostIsPersistent ttlSecs))] ++
    (if ttlSecs.isSome then [.window .spawnExpiry] else []) ++ [.common (.ret .ok)]

def expiryTask : Task Id :=
  ⟨.expiry, [.common .sleep, .window (.storeHostFlag false), .window (.storePersistent false),
    .window .closeWindow, .common (.emit .pairingHostExpired)], false⟩

/-- What `forget_paired` does after trying to tell the peer. -/
def forgetRest (endpointId : String) : List (Instr Id) :=
  (match C.iroh.fromStr endpointId with
    | some id => [.common (.disallow id false)]
    | none => []) ++ [.service (.forgetRecord endpointId)]

/-- The detached dial of `forget_paired`. -/
def notifyTask (endpointId : String) : Task Id :=
  ⟨.background, [.service (.notifyForget endpointId)], false⟩

/-- `spawn_identity_probe`. -/
def probeTask (endpointId : String) : Task Id :=
  ⟨.background, [.lan (.probe endpointId)], false⟩

/-- Where a call starts. The two paired ones parse the id first. -/
def program (call : Call) : List (Instr Id) :=
  match call with
  | .inviteNearbyDevice endpointId blobTicket fileCount totalSize =>
    [.service (.findNearby endpointId (.invite blobTicket fileCount totalSize C.displayName))]
  | .requestNearbyPair endpointId =>
    [.service (.findNearby endpointId (.pairRequest C.displayName C.deviceType C.os))]
  | .acceptNearbyInvite endpointId => [.service (.probeAccept endpointId)]
  | .declineNearbyInvite endpointId block =>
    (if block then [.common (.expireNearby endpointId), .service (.block endpointId)] else []) ++
      [.service (.deliverStored ⟨endpointId, .inviteResponse "" .declined, false, .decline⟩)]
  | .joinPairing endpointId relayUrl => [.service (.joinDial endpointId relayUrl)]
  | .forgetPaired endpointId => [.service (.forgetGet endpointId)]
  | .invitePairedDevice endpointId blobTicket fileCount totalSize =>
    match C.iroh.fromStr endpointId with
    | some id =>
      [.service (.checkAllowed id ⟨endpointId,
        .invite blobTicket fileCount totalSize C.displayName, true, .pairedInvite⟩)]
    | none => [.common (.ret .err)]
  | .respondPairedInvite endpointId accepted =>
    match C.iroh.fromStr endpointId with
    | some id =>
      [.service (.checkAllowed id ⟨endpointId,
        .inviteResponse "" (if accepted then .accepted else .declined), true, .respond⟩)]
    | none => [.common (.ret .err)]
  | .startPairingHost ttlSecs => startPairingHost ttlSecs
  | .stopPairingHost => stopPairingHost ++ [.common (.ret .ok)]
  | .setDiscoverability setting => [.service (.setDiscoverability setting)]
  | .refresh => [.common .refreshList]

end DashBeam.Node

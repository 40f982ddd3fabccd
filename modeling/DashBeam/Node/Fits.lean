import DashBeam.Node.Steps

/-!
# What a task can have to do

`Fits C kind instr` says that `instr` is among the critical sections a task of this kind can have to
go through, with the arguments it then has: a session touches the presence, the session entry and
the allowlist entry of its own remote, a call those of the id it was given. Every task of every
reachable state fits (`fits_run`). The later modules read off this what a task that is about to do
something is, and to whom it does it.
-/

namespace DashBeam.Node

open Protocol Native Lib

set_option linter.unusedSectionVars false

variable {Id : Type} [DecidableEq Id] {C : Config Id}

@[simp]
theorem Config.key_toStr (C : Config Id) (x : Id) : C.key (C.iroh.toStr x) = C.iroh.toStr x :=
  C.iroh.toLowercase_toStr x

@[simp]
theorem Config.key_key (C : Config Id) (e : String) : C.key (C.key e) = C.key e :=
  C.iroh.toLowercase_idem e

/-! ### Definitions -/

/-- The events a session of `remote` emits without looking anything up. -/
def AppEvent.OfSession (remote : String) : AppEvent → Prop
  | .pairedInviteReceived r .. | .nearbyPairRequestReceived r .. => r = remote
  | .deviceUnpaired .. | .devicePaired _ => True
  | _ => False

/-- What every session of `conn` may have to do. -/
def SessionFits (C : Config Id) (conn : Conn Id) : CommonInstr Id → Prop
  | .read | .refreshList | .refreshTasks _ => True
  | .touch e | .setPresence e _ | .emitPresence e _ | .abortTask e | .removeSession e
  | .expireNearby e | .emitInviteResponse e .. => e = C.iroh.toStr conn.remote
  | .insertSession e c | .removeSessionIf e c => e = C.iroh.toStr conn.remote ∧ c = conn
  | .emit event => event.OfSession (C.iroh.toStr conn.remote)
  | .markUnpaired id | .allow id => id = conn.remote
  | .disallow id racing => id = conn.remote ∧ racing = false
  | .remember .. | .sleep | .ret _ => False

/-- `handle_control_session`. -/
def ControlFits (C : Config Id) (c : ControlSession Id) : Instr Id → Prop
  | .common (.remember flow device) => flow = .commitNearby c.conn.remote ∧
      device.endpointId = C.iroh.toStr c.conn.remote ∧ device.pairingStatus = .active
  | .common instr => SessionFits C c.conn instr
  | .control _ => True
  | _ => False

/-- The pairing-host branch of `handle_connection`. -/
def HostFits (C : Config Id) (h : HostSession Id) : Instr Id → Prop
  | .common (.remember flow device) => flow = .pairingHost h.conn.remote ∧
      (∃ info, h.remoteInfo = some info ∧ device.endpointId = info.endpointId) ∧
      device.pairingStatus = .active
  | .common instr => SessionFits C h.conn instr
  | .host (.hostInvite event) => event.OfSession (C.iroh.toStr h.conn.remote)
  | .host (.hostRecord info) => h.remoteInfo = some info
  | .host _ | .window .closeWindow => True
  | _ => False

/-- `connect_loop`, started for `e`. -/
def ConnectFits (C : Config Id) (e : String) : Instr Id → Prop
  | .common (.insertSession key conn) => key = C.key e ∧ C.iroh.fromStr e = some conn.remote
  | .common (.disallow id _) => C.iroh.fromStr e = some id
  | .common (.emitInviteResponse r ..) => ∃ x, C.iroh.fromStr e = some x ∧ r = C.iroh.toStr x
  | .common (.emit (.pairedInviteReceived r ..)) =>
    ∃ x, C.iroh.fromStr e = some x ∧ r = C.iroh.toStr x
  | .common (.emit (.deviceUnpaired ..)) => True
  | .common .read | .common .sleep | .common (.touch _) | .common (.setPresence ..)
  | .common (.emitPresence ..) | .common (.removeSessionIf ..) => True
  | .connect (.unpairGet r (.forgetReceived conn)) | .connect (.unpairMark r (.forgetReceived conn)) =>
    C.iroh.fromStr e = some conn.remote ∧ r = C.iroh.toStr conn.remote
  | .connect (.unpairGet r .recognitionRefused) | .connect (.unpairMark r .recognitionRefused) =>
    r = e ∧ (C.iroh.fromStr e).isSome = true
  | .connect .settling => (C.iroh.fromStr e).isSome = true
  | .connect _ => True
  | _ => False

/-- The call invites a nearby device to pair. -/
def Call.Invites (call : Call) (e : String) : Prop :=
  (∃ ticket count size, call = .inviteNearbyDevice e ticket count size) ∨ call = .requestNearbyPair e

/-- The delivery is one the call makes. Only the two calls for paired devices use a cached
session. -/
def Delivery.Of (call : Call) (d : Delivery) : Prop :=
  match d.purpose with
  | .nearbyInvite _ => call.Invites d.endpointId ∧ d.useCachedSession = false
  | .accept => call = .acceptNearbyInvite d.endpointId ∧ d.useCachedSession = false ∧
      d.msg = .inviteResponse "" .accepted
  | .decline => d.useCachedSession = false
  | .pairedInvite | .respond => True

/-- The calls of `NodeService`. -/
def ServiceFits (C : Config Id) (call : Call) : ServiceInstr Id → Prop
  | .findNearby e _ | .insertPending e _ => call.Invites e
  | .checkAllowed _ d | .deliverStored d | .deliverDial d => d.Of call
  | .waitSession d => d.Of call ∧ d.useCachedSession = true
  | .deliverWrite d conn => d.Of call ∧
      (d.useCachedSession = false → C.iroh.fromStr d.endpointId = some conn.remote)
  | .probeAccept e => call = .acceptNearbyInvite e
  | .joinDial e relayUrl => call = .joinPairing e relayUrl
  | .joinReply conn relayUrl => ∃ e, call = .joinPairing e relayUrl ∧
      C.iroh.fromStr e = some conn.remote
  | .forgetGet e | .forgetLive e | .forgetSend e _ | .forgetRecord e => call = .forgetPaired e
  | .block e => call = .declineNearbyInvite e true
  | .setDiscoverability _ | .rebuild .. | .restoreDiscoverability _ | .clearNearby => True
  | .notifyForget _ => False

def CallFits (C : Config Id) (call : Call) : Instr Id → Prop
  | .common (.remember (.join peer) device) => (∃ e relayUrl, call = .joinPairing e relayUrl) ∧
      C.iroh.fromStr device.endpointId = some peer ∧ device.pairingStatus = .active
  | .common (.remember (.acceptNearby e) device) => call = .acceptNearbyInvite e ∧
      device.endpointId = e ∧ device.pairingStatus = .active
  | .common (.allow id) => (∃ e relayUrl, call = .joinPairing e relayUrl) ∨
      ∃ e, call = .acceptNearbyInvite e ∧ C.iroh.fromStr e = some id
  | .common (.disallow id racing) => racing = false ∧
      ∃ e, call = .forgetPaired e ∧ C.iroh.fromStr e = some id
  | .common (.emit (.devicePaired _)) | .common (.emit (.deviceUnpaired ..)) => True
  | .common (.abortTask _) | .common (.removeSession _) | .common (.touch _)
  | .common (.setPresence ..) | .common (.emitPresence ..) | .common (.expireNearby _)
  | .common .refreshList | .common (.refreshTasks _) | .common (.ret _) => True
  | .service instr => ServiceFits C call instr
  | .window _ => True
  | _ => False

def ExpiryFits : Instr Id → Prop
  | .common .sleep | .window (.storeHostFlag false) | .window (.storePersistent false)
  | .window .closeWindow | .common (.emit .pairingHostExpired) => True
  | _ => False

/-- The two detached tasks. -/
def BackgroundFits : Instr Id → Prop
  | .service (.notifyForget _) | .lan (.probe _) | .lan (.setIdentity ..) => True
  | _ => False

/-- The critical section is one that a task of this kind can have to go through. -/
def Fits (C : Config Id) : Kind Id → Instr Id → Prop
  | .inbound _, .accept _ => True
  | .control c, instr => ControlFits C c instr
  | .host h, instr => HostFits C h instr
  | .connect l, instr => ConnectFits C l.endpointId instr
  | .call call, instr => CallFits C call instr
  | .expiry, instr => ExpiryFits instr
  | .lan, .lan _ => True
  | .background, instr => BackgroundFits instr
  | _, _ => False

/-- A connect loop's connection is to the id it was started for. -/
def KindFits (C : Config Id) : Kind Id → Prop
  | .connect l => ∀ conn, l.conn = some conn → C.iroh.fromStr l.endpointId = some conn.remote
  | _ => True

/-! ### Critical sections lead to fitting ones -/

section Next

variable {s : Shared Id} {fresh : Nat} {env : Env}

theorem SessionFits.control {c : ControlSession Id} {instr : CommonInstr Id}
    (h : SessionFits C c.conn instr) : ControlFits C c (.common instr) := by
  cases instr <;> first | exact h | exact h.elim

theorem SessionFits.host {c : HostSession Id} {instr : CommonInstr Id}
    (h : SessionFits C c.conn instr) : HostFits C c (.common instr) := by
  cases instr <;> first | exact h | exact h.elim

/-- A session's common critical sections, apart from storing a pairing. -/
theorem ControlFits.session {c : ControlSession Id} {instr : CommonInstr Id}
    (h : ControlFits C c (.common instr)) (hr : ∀ flow device, instr ≠ .remember flow device) :
    SessionFits C c.conn instr := by
  cases instr with
  | remember flow device => exact absurd rfl (hr flow device)
  | _ => exact h

theorem HostFits.session {c : HostSession Id} {instr : CommonInstr Id}
    (h : HostFits C c (.common instr)) (hr : ∀ flow device, instr ≠ .remember flow device) :
    SessionFits C c.conn instr := by
  cases instr with
  | remember flow device => exact absurd rfl (hr flow device)
  | _ => exact h

theorem sessionFits_next {conn : Conn Id} {instr : CommonInstr Id} (h : SessionFits C conn instr) :
    ∀ i ∈ (nextCommon C s fresh env instr).push, ∃ j, i = .common j ∧ SessionFits C conn j := by
  intro i hi
  cases instr with
  | markUnpaired id =>
    obtain rfl : id = conn.remote := h
    simp only [nextCommon] at hi
    split at hi
    · simp only [managerForget, Config.key_toStr, List.cons_append, List.nil_append,
        List.mem_cons, List.not_mem_nil, or_false] at hi
      rcases hi with rfl | rfl | rfl | rfl | rfl
      · exact ⟨_, rfl, rfl, rfl⟩
      · exact ⟨_, rfl, rfl⟩
      · exact ⟨_, rfl, rfl⟩
      · exact ⟨_, rfl, rfl⟩
      · exact ⟨_, rfl, trivial⟩
    · simp at hi
  | setPresence e online =>
    simp only [nextCommon] at hi
    split at hi
    · simp at hi
    · rw [List.mem_singleton] at hi
      exact ⟨_, hi, h⟩
  | removeSession e =>
    simp only [nextCommon] at hi
    split at hi
    · rw [List.mem_singleton] at hi
      exact ⟨_, hi, h⟩
    · simp at hi
  | removeSessionIf e c =>
    simp only [nextCommon] at hi
    split at hi
    · rw [List.mem_singleton] at hi
      exact ⟨_, hi, h.1⟩
    · simp at hi
  | refreshList =>
    simp only [nextCommon] at hi
    split at hi
    · rw [List.mem_singleton] at hi
      exact ⟨_, hi, trivial⟩
    · simp at hi
  | remember | sleep | ret => exact h.elim
  | _ => simp [nextCommon] at hi

theorem sessionFits_recognise {conn : Conn Id} {i : Instr Id}
    (hi : i ∈ recognise (C.iroh.toStr conn.remote)) :
    ∃ j, i = .common j ∧ SessionFits C conn j := by
  simp only [recognise, List.mem_cons, List.not_mem_nil, or_false] at hi
  rcases hi with rfl | rfl <;> exact ⟨_, rfl, rfl⟩

theorem fits_leaveSession {c : ControlSession Id} {i : Instr Id} (hi : i ∈ leaveSession C c) :
    ControlFits C c i := by
  unfold leaveSession at hi
  split at hi
  · rw [Config.key_toStr, List.mem_singleton] at hi
    subst hi
    exact ⟨rfl, rfl⟩
  · simp at hi

theorem fits_handlePaired {c c' : ControlSession Id} (hconn : c'.conn = c.conn)
    {msg : ControlMessage} {i : Instr Id} (hi : i ∈ handlePairedControlMessage C c msg) :
    ControlFits C c' i := by
  have hread : ControlFits C c' (.common .read) := trivial
  cases msg with
  | invite | pairRequest =>
    simp only [handlePairedControlMessage, List.mem_cons, List.not_mem_nil, or_false] at hi
    rcases hi with rfl | rfl
    · rw [← hconn]
      exact SessionFits.control (c := c') rfl
    · exact hread
  | inviteResponse id response =>
    simp only [handlePairedControlMessage] at hi
    split at hi
    · simp only [List.mem_cons, List.not_mem_nil, or_false] at hi
      rcases hi with rfl | rfl
      · rw [← hconn]
        exact SessionFits.control (c := c') rfl
      · exact hread
    · simp only [List.mem_cons, List.not_mem_nil, or_false] at hi
      rcases hi with rfl | rfl
      · trivial
      · exact hread
  | recognition signature =>
    simp only [handlePairedControlMessage] at hi
    split at hi
    · rw [List.mem_append, List.mem_singleton, ← hconn] at hi
      rcases hi with hi | rfl
      · obtain ⟨j, rfl, hj⟩ := sessionFits_recognise hi
        exact hj.control
      · exact hread
    · rw [List.mem_singleton] at hi
      exact hi ▸ hread
  | forget signature =>
    simp only [handlePairedControlMessage] at hi
    split at hi
    · simp only [List.mem_cons, List.not_mem_nil, or_false] at hi
      rcases hi with rfl | rfl
      · rw [← hconn]
        exact SessionFits.control (c := c') rfl
      · trivial
    · rw [List.mem_singleton] at hi
      exact hi ▸ hread
  | pairingInfo | rememberVote | whoAreYou | identity =>
    simp only [handlePairedControlMessage, List.mem_singleton] at hi
    exact hi ▸ hread

theorem fits_dispatch {c : ControlSession Id} {msg : ControlMessage} {i : Instr Id}
    (hi : i ∈ (dispatch C c msg).2) : ControlFits C (dispatch C c msg).1 i := by
  unfold dispatch at hi ⊢
  split at hi
  · rw [List.mem_singleton] at hi
    subst hi
    trivial
  · split at hi
    · rw [List.mem_cons] at hi
      rcases hi with rfl | hi
      · trivial
      · rename_i hmsg hreg
        rw [if_neg hmsg, if_pos hreg]
        exact fits_handlePaired rfl hi
    · rename_i hmsg hreg
      rw [if_neg hmsg, if_neg hreg]
      exact fits_handlePaired rfl hi

theorem ControlFits.of_conn {c c' : ControlSession Id} (hconn : c'.conn = c.conn) {i : Instr Id}
    (h : ControlFits C c i) : ControlFits C c' i := by
  unfold ControlFits at h ⊢
  rw [hconn]
  exact h

theorem fits_receiveControl {c : ControlSession Id} {msg : ControlMessage} {i : Instr Id}
    (hi : i ∈ (receiveControl C c msg).2) : ControlFits C (receiveControl C c msg).1 i := by
  unfold receiveControl at hi ⊢
  split
  · rename_i hpaired
    rw [if_pos hpaired] at hi
    exact fits_dispatch hi
  · rename_i hpaired
    rw [if_neg hpaired] at hi
    split at hi <;> (rw [List.mem_singleton] at hi; subst hi; split <;> trivial)

theorem fits_nextControl {c : ControlSession Id} {instr : ControlInstr} {i : Instr Id}
    (hi : i ∈ (nextControl C s c env instr).2.push) :
    ControlFits C (nextControl C s c env instr).1 i := by
  cases instr with
  | recheckAllowed msg =>
    simp only [nextControl] at hi ⊢
    split at hi
    · rename_i hmem
      rw [if_pos hmem]
      exact fits_dispatch hi
    · rw [List.mem_singleton] at hi
      subst hi
      trivial
  | chargeToken msg =>
    simp only [nextControl] at hi ⊢
    split at hi
    · rename_i hallow
      rw [if_pos hallow]
      exact fits_dispatch hi
    · rw [List.mem_singleton] at hi
      subst hi
      trivial
  | answerIdentity =>
    refine ControlFits.of_conn (sessionStep_nextControl s c env .answerIdentity).conn ?_
    simp only [nextControl] at hi
    split at hi
    · rw [List.mem_singleton] at hi
      subst hi
      trivial
    · split at hi <;> (rw [List.mem_singleton] at hi; subst hi; trivial)
  | hangUp code reason => exact fits_leaveSession hi
  | registerInbound =>
    simp only [nextControl, Config.key_toStr] at hi
    split at hi
    · rw [List.mem_singleton] at hi
      subst hi
      exact rfl
    · simp only [setSession, List.mem_cons, List.not_mem_nil, or_false] at hi
      rcases hi with rfl | rfl | rfl
      · exact ⟨rfl, rfl⟩
      · exact rfl
      · exact rfl
  | takePending response =>
    refine ControlFits.of_conn (sessionStep_nextControl s c env (.takePending response)).conn ?_
    simp only [nextControl] at hi
    split at hi
    · simp at hi
    · rw [List.mem_append, List.mem_singleton] at hi
      rcases hi with hi | rfl
      · split at hi
        · rw [List.mem_singleton] at hi
          subst hi
          trivial
        · simp at hi
      · exact rfl
  | commitNearby pending =>
    rw [nextControl, List.mem_singleton] at hi
    subst hi
    refine ⟨rfl, ?_, rfl⟩
    simp only [nearbyRecord, committedInfo]
    split <;> rfl
  | emitPairedName => simp [nextControl] at hi

theorem fits_hostNext {h : HostSession Id} {i : Instr Id} (hi : i ∈ hostNext h) :
    HostFits C h i := by
  unfold hostNext at hi
  split at hi
  · rename_i info hinfo hvote
    rw [List.mem_singleton] at hi
    subst hi
    exact hinfo
  · rw [List.mem_singleton] at hi
    subst hi
    trivial

theorem fits_receiveHost {h : HostSession Id} {msg : ControlMessage} {i : Instr Id}
    (hi : i ∈ (receiveHost C h msg).2) : HostFits C (receiveHost C h msg).1 i := by
  have hread : ∀ h : HostSession Id, HostFits C h (.common .read) := fun _ => trivial
  cases msg with
  | pairingInfo endpointId displayName deviceType os signature =>
    simp only [receiveHost] at hi ⊢
    split
    · rename_i hparse
      rw [hparse, List.mem_singleton] at hi
      exact hi ▸ hread h
    · rename_i peer hparse
      rw [hparse] at hi
      simp only at hi
      split at hi
      · rename_i hverify
        rw [if_pos hverify]
        exact fits_hostNext hi
      · rename_i hverify
        rw [if_neg hverify]
        rw [List.mem_singleton] at hi
        exact hi ▸ hread h
  | rememberVote id vote => exact fits_hostNext hi
  | invite | inviteResponse =>
    simp only [receiveHost, List.mem_cons] at hi ⊢
    rcases hi with rfl | hi
    · exact rfl
    · exact fits_hostNext hi
  | recognition signature =>
    simp only [receiveHost] at hi ⊢
    split at hi
    · rename_i hverify
      rw [if_pos hverify]
      rw [List.mem_append] at hi
      rcases hi with hi | hi
      · obtain ⟨j, rfl, hj⟩ := sessionFits_recognise hi
        exact hj.host
      · exact fits_hostNext hi
    · rename_i hverify
      rw [if_neg hverify]
      exact fits_hostNext hi
  | forget signature =>
    simp only [receiveHost] at hi ⊢
    split at hi
    · rename_i hverify
      rw [if_pos hverify]
      rw [List.mem_cons] at hi
      rcases hi with rfl | hi
      · exact rfl
      · exact fits_hostNext hi
    · rename_i hverify
      rw [if_neg hverify]
      exact fits_hostNext hi
  | whoAreYou | identity | pairRequest => exact fits_hostNext hi

theorem fits_nextHost {h : HostSession Id} {instr : HostInstr} {i : Instr Id}
    (hfits : HostFits C h (.host instr)) (hi : i ∈ (nextHost C s h env instr).push) :
    HostFits C h i := by
  cases instr with
  | hostHello =>
    simp only [nextHost] at hi
    split at hi
    · rw [List.mem_singleton] at hi
      subst hi
      trivial
    · simp at hi
  | hostRecord info =>
    rw [nextHost, List.mem_singleton] at hi
    subst hi
    exact ⟨rfl, ⟨info, hfits, rfl⟩, rfl⟩
  | loadPersistent =>
    simp only [nextHost] at hi
    split at hi
    · simp at hi
    · rw [List.mem_singleton] at hi
      subst hi
      trivial
  | hostInvite | hostVote => simp [nextHost] at hi

theorem fits_nextControl_common {c : ControlSession Id} {instr : CommonInstr Id} {i : Instr Id}
    (hfits : ControlFits C c (.common instr)) (hi : i ∈ (nextCommon C s fresh env instr).push) :
    ControlFits C c i := by
  by_cases hr : ∃ flow device, instr = .remember flow device
  · obtain ⟨flow, device, rfl⟩ := hr
    obtain ⟨rfl, -, -⟩ := hfits
    simp only [nextCommon, afterRemember] at hi
    split at hi
    · simp only [List.mem_cons, List.not_mem_nil, or_false] at hi
      rcases hi with rfl | rfl | rfl | rfl
      · exact rfl
      · exact rfl
      · trivial
      · trivial
    · simp at hi
  · have hsession := hfits.session (fun flow device heq => hr ⟨flow, device, heq⟩)
    obtain ⟨j, rfl, hj⟩ := sessionFits_next hsession i hi
    exact hj.control

theorem fits_nextHost_common {h : HostSession Id} {instr : CommonInstr Id} {i : Instr Id}
    (hfits : HostFits C h (.common instr)) (hi : i ∈ (nextCommon C s fresh env instr).push) :
    HostFits C h i := by
  by_cases hr : ∃ flow device, instr = .remember flow device
  · obtain ⟨flow, device, rfl⟩ := hr
    obtain ⟨rfl, -, -⟩ := hfits
    simp only [nextCommon, afterRemember, List.mem_cons, List.not_mem_nil, or_false] at hi
    rcases hi with rfl | rfl | rfl | rfl | rfl
    · exact rfl
    all_goals trivial
  · have hsession := hfits.session (fun flow device heq => hr ⟨flow, device, heq⟩)
    obtain ⟨j, rfl, hj⟩ := sessionFits_next hsession i hi
    exact hj.host

/-! ### Connect loops -/

theorem fits_backOff {e : String} {i : Instr Id} (hi : i ∈ (backOff : List (Instr Id))) :
    ConnectFits C e i := by
  simp only [backOff, List.mem_cons, List.not_mem_nil, or_false] at hi
  rcases hi with rfl | rfl <;> trivial

theorem fits_readOutbound {e : String} {conn : Conn Id}
    (hconn : C.iroh.fromStr e = some conn.remote) {msg : ControlMessage} {i : Instr Id}
    (hi : i ∈ readOutbound C conn msg) : ConnectFits C e i := by
  have hread : ConnectFits C e (.common .read : Instr Id) := trivial
  cases msg with
  | invite | inviteResponse =>
    simp only [readOutbound, List.mem_cons, List.not_mem_nil, or_false] at hi
    rcases hi with rfl | rfl
    · exact ⟨_, hconn, rfl⟩
    · exact hread
  | recognition signature =>
    simp only [readOutbound] at hi
    split at hi
    · simp only [recognise, List.cons_append, List.nil_append, List.mem_cons, List.not_mem_nil,
        or_false] at hi
      rcases hi with rfl | rfl | rfl <;> trivial
    · rw [List.mem_singleton] at hi
      exact hi ▸ hread
  | forget signature =>
    simp only [readOutbound] at hi
    split at hi
    · rw [List.mem_singleton] at hi
      subst hi
      exact ⟨hconn, rfl⟩
    · rw [List.mem_singleton] at hi
      exact hi ▸ hread
  | pairingInfo | rememberVote | whoAreYou | identity | pairRequest =>
    simp only [readOutbound, List.mem_singleton] at hi
    exact hi ▸ hread

theorem fits_nextConnect {l : ConnectLoop Id} {instr : ConnectInstr Id} {i : Instr Id}
    (hfits : ConnectFits C l.endpointId (.connect instr))
    (hi : i ∈ (nextConnect C s l env instr).2.push) : ConnectFits C l.endpointId i := by
  cases connectPush_next hi with
  | insertSession hremote => exact ⟨rfl, hremote⟩
  | unpairGet => exact ⟨rfl, hfits⟩
  | @unpairMark e cause => cases cause <;> exact hfits
  | disallowForgotten hid =>
    obtain ⟨hl, rfl⟩ := hfits
    rw [C.iroh.fromStr_toStr] at hid
    exact hl.trans hid
  | disallowRefused hid =>
    obtain ⟨rfl, -⟩ := hfits
    exact hid
  | dial | online | touch | read | offline | sleep | loopTop | skippedGet | skippedMark | marked
  | unpaired | removeSessionIf => trivial

theorem fits_nextConnect_common {e : String} {instr : CommonInstr Id} {i : Instr Id}
    (hfits : ConnectFits C e (.common instr)) (hi : i ∈ (nextCommon C s fresh env instr).push) :
    ConnectFits C e i := by
  cases instr with
  | setPresence =>
    simp only [nextCommon] at hi
    split at hi
    · simp at hi
    · rw [List.mem_singleton] at hi
      subst hi
      trivial
  | removeSessionIf =>
    simp only [nextCommon] at hi
    split at hi
    · rw [List.mem_singleton] at hi
      subst hi
      trivial
    · simp at hi
  | remember | markUnpaired | removeSession | refreshList => exact hfits.elim
  | _ => simp [nextCommon] at hi

/-! ### Calls -/

theorem fits_onSent {call : Call} {d : Delivery} (hd : d.Of call) {i : Instr Id}
    (hi : i ∈ onSent d) : CallFits C call i := by
  unfold onSent at hi
  unfold Delivery.Of at hd
  split at hi
  · rename_i pending hpurpose
    rw [hpurpose] at hd
    simp only [List.mem_cons, List.not_mem_nil, or_false] at hi
    rcases hi with rfl | rfl
    · exact hd.1
    · trivial
  all_goals
    simp only [List.mem_cons, List.not_mem_nil, or_false] at hi
    rcases hi with rfl | rfl <;> trivial

theorem fits_onUnreached {call : Call} {d : Delivery} {i : Instr Id} (hi : i ∈ onUnreached d) :
    CallFits C call i := by
  unfold onUnreached at hi
  split at hi <;> simp only [List.mem_cons, List.not_mem_nil, or_false] at hi <;>
    rcases hi with rfl | rfl <;> trivial

theorem fits_onError {call : Call} {d : Delivery} {i : Instr Id} (hi : i ∈ onError d) :
    CallFits C call i := by
  unfold onError at hi
  split at hi <;> simp only [List.mem_cons, List.not_mem_nil, or_false] at hi <;>
    rcases hi with rfl | rfl <;> trivial

theorem fits_onFound {call : Call} {e : String} (he : call.Invites e) {msg : ControlMessage}
    {device : NearbyDevice} {i : Instr Id} (hi : i ∈ onFound C e msg device) :
    CallFits C call i := by
  have hdelivery : Delivery.Of call ⟨e, msg, false, .nearbyInvite (snapshot C e device)⟩ :=
    ⟨he, rfl⟩
  unfold onFound at hi
  split at hi
  · split at hi
    · rw [List.mem_singleton] at hi
      subst hi
      trivial
    · rw [List.mem_singleton] at hi
      subst hi
      exact hdelivery
  · rw [List.mem_singleton] at hi
    subst hi
    exact hdelivery

theorem fits_onHostReply {e : String} {relayUrl : Option String} {conn : Conn Id} {nowMs : Nat}
    {reply : Option ControlMessage} {i : Instr Id}
    (hi : i ∈ onHostReply C conn relayUrl nowMs reply) :
    CallFits C (.joinPairing e relayUrl) i := by
  have hret : CallFits C (.joinPairing e relayUrl) (.common (.ret .err) : Instr Id) := trivial
  unfold onHostReply at hi
  split at hi
  · split at hi
    · rename_i peer hparse
      split at hi
      · rw [List.mem_singleton] at hi
        subst hi
        exact ⟨⟨e, relayUrl, rfl⟩, hparse, rfl⟩
      · rw [List.mem_singleton] at hi
        exact hi ▸ hret
    · rw [List.mem_singleton] at hi
      exact hi ▸ hret
  · rw [List.mem_singleton] at hi
    exact hi ▸ hret

theorem fits_forgetRest {e : String} {i : Instr Id} (hi : i ∈ forgetRest C e) :
    CallFits C (.forgetPaired e) i := by
  unfold forgetRest at hi
  rw [List.mem_append, List.mem_singleton] at hi
  rcases hi with hi | rfl
  · split at hi
    · rename_i id hparse
      rw [List.mem_singleton] at hi
      subst hi
      exact ⟨rfl, e, rfl, hparse⟩
    · simp at hi
  · exact rfl

theorem fits_managerForget {call : Call} {e : String} {i : Instr Id}
    (hi : i ∈ managerForget C e) : CallFits C call i := by
  simp only [managerForget, List.mem_cons, List.not_mem_nil, or_false] at hi
  rcases hi with rfl | rfl <;> trivial

theorem fits_stopPairingHost {call : Call} {i : Instr Id}
    (hi : i ∈ (stopPairingHost : List (Instr Id))) : CallFits C call i := by
  simp only [stopPairingHost, List.mem_cons, List.not_mem_nil, or_false] at hi
  rcases hi with rfl | rfl | rfl | rfl <;> trivial

theorem fits_startPairingHost {call : Call} {ttlSecs : Option Nat} {i : Instr Id}
    (hi : i ∈ (startPairingHost ttlSecs : List (Instr Id))) : CallFits C call i := by
  unfold startPairingHost at hi
  simp only [List.mem_append, List.mem_singleton] at hi
  rcases hi with ((hi | hi) | hi) | rfl
  · exact fits_stopPairingHost hi
  · simp only [List.mem_cons, List.not_mem_nil, or_false] at hi
    rcases hi with rfl | rfl | rfl <;> trivial
  · split at hi
    · rw [List.mem_singleton] at hi
      subst hi
      trivial
    · simp at hi
  · trivial

theorem fits_program {call : Call} {i : Instr Id} (hi : i ∈ program C call) :
    CallFits C call i := by
  cases call with
  | inviteNearbyDevice e ticket count size =>
    rw [program, List.mem_singleton] at hi
    subst hi
    exact .inl ⟨_, _, _, rfl⟩
  | requestNearbyPair e =>
    rw [program, List.mem_singleton] at hi
    subst hi
    exact .inr rfl
  | declineNearbyInvite e block =>
    simp only [program, List.mem_append, List.mem_singleton] at hi
    rcases hi with hi | rfl
    · split at hi
      · rename_i hblock
        simp only [List.mem_cons, List.not_mem_nil, or_false] at hi
        rcases hi with rfl | rfl
        · trivial
        · rw [hblock]
          exact rfl
      · simp at hi
    · exact rfl
  | invitePairedDevice | respondPairedInvite =>
    simp only [program] at hi
    split at hi <;> (rw [List.mem_singleton] at hi; subst hi; trivial)
  | startPairingHost ttlSecs => exact fits_startPairingHost hi
  | stopPairingHost =>
    rw [program, List.mem_append, List.mem_singleton] at hi
    rcases hi with hi | rfl
    · exact fits_stopPairingHost hi
    · trivial
  | acceptNearbyInvite | joinPairing | forgetPaired =>
    rw [program, List.mem_singleton] at hi
    subst hi
    exact rfl
  | setDiscoverability | refresh =>
    rw [program, List.mem_singleton] at hi
    subst hi
    trivial

theorem fits_nextService {call : Call} {instr : ServiceInstr Id} {i : Instr Id}
    (hfits : ServiceFits C call instr) (hi : i ∈ (nextService C s env instr).push) :
    CallFits C call i := by
  have hret : ∀ v, CallFits C call (.common (.ret v) : Instr Id) := fun _ => trivial
  cases instr with
  | findNearby e msg =>
    simp only [nextService] at hi
    split at hi
    · exact fits_onFound hfits hi
    · rw [List.mem_singleton] at hi
      exact hi ▸ hret _
  | checkAllowed id d =>
    simp only [nextService] at hi
    split at hi
    · rw [List.mem_singleton] at hi
      subst hi
      exact hfits
    · rw [List.mem_singleton] at hi
      exact hi ▸ hret _
  | deliverStored d =>
    simp only [nextService] at hi
    split at hi
    · split at hi
      · rename_i hcached
        rw [List.mem_singleton] at hi
        subst hi
        exact ⟨hfits, hcached⟩
      · rw [List.mem_singleton] at hi
        subst hi
        exact hfits
    · exact fits_onError hi
  | waitSession d =>
    simp only [nextService] at hi
    split at hi
    · rw [List.mem_singleton] at hi
      subst hi
      exact ⟨hfits.1, fun hcached => absurd (hcached.symm.trans hfits.2) (by simp)⟩
    · rw [List.mem_singleton] at hi
      subst hi
      exact hfits.1
  | deliverDial d =>
    simp only [nextService] at hi
    split at hi
    · exact fits_onError hi
    · exact fits_onUnreached hi
    · rename_i remote num hparse hdial
      rw [List.mem_append, List.mem_singleton] at hi
      rcases hi with hi | rfl
      · split at hi
        · simp only [recognise, List.mem_cons, List.not_mem_nil, or_false] at hi
          rcases hi with rfl | rfl <;> trivial
        · simp at hi
      · exact ⟨hfits, fun _ => hparse⟩
  | deliverWrite d conn =>
    simp only [nextService] at hi
    split at hi
    · exact fits_onSent hfits.1 hi
    · exact fits_onError hi
  | probeAccept e =>
    obtain rfl : call = .acceptNearbyInvite e := hfits
    rw [nextService, List.mem_singleton] at hi
    subst hi
    refine ⟨rfl, ?_, rfl⟩
    simp only [nearbyRecord, nearbyPeerIdentity]
    split
    · split <;> rfl
    · rfl
  | joinDial e relayUrl =>
    obtain rfl : call = .joinPairing e relayUrl := hfits
    simp only [nextService] at hi
    split at hi
    · rename_i hparse _ _
      rw [List.mem_singleton] at hi
      subst hi
      exact ⟨e, rfl, hparse⟩
    · rw [List.mem_singleton] at hi
      exact hi ▸ hret _
  | joinReply conn relayUrl =>
    obtain ⟨e, rfl, -⟩ := hfits
    exact fits_onHostReply hi
  | forgetGet e =>
    simp only [nextService] at hi
    split at hi
    · rw [List.mem_singleton] at hi
      subst hi
      exact hfits
    · rw [List.mem_singleton] at hi
      exact hi ▸ hret _
  | forgetLive e =>
    have hcall : call = .forgetPaired e := hfits
    simp only [nextService] at hi
    split at hi
    · rw [List.mem_singleton] at hi
      subst hi
      exact hcall
    · rw [hcall]
      exact fits_forgetRest hi
  | forgetSend e conn =>
    obtain rfl : call = .forgetPaired e := hfits
    simp only [nextService] at hi
    split at hi <;> exact fits_forgetRest hi
  | forgetRecord e =>
    simp only [nextService] at hi
    split at hi
    · rw [List.mem_append] at hi
      rcases hi with hi | hi
      · exact fits_managerForget hi
      · simp only [List.mem_cons, List.not_mem_nil, or_false] at hi
        rcases hi with rfl | rfl | rfl <;> trivial
    · rw [List.mem_singleton] at hi
      exact hi ▸ hret _
  | setDiscoverability setting =>
    simp only [nextService] at hi
    split at hi
    · rw [List.mem_singleton] at hi
      exact hi ▸ hret _
    · rw [List.mem_append, List.mem_singleton] at hi
      rcases hi with hi | rfl
      · exact fits_stopPairingHost hi
      · trivial
  | rebuild previous setting =>
    simp only [nextService] at hi
    split at hi
    · simp only [List.mem_cons, List.mem_append] at hi
      rcases hi with rfl | hi | rfl | hi
      · trivial
      · split at hi
        · rw [List.mem_singleton] at hi
          subst hi
          trivial
        · simp at hi
      · trivial
      · simp at hi
    · simp only [List.mem_cons, List.not_mem_nil, or_false] at hi
      rcases hi with rfl | rfl <;> trivial
  | notifyForget e => exact hfits.elim
  | insertPending | block | restoreDiscoverability | clearNearby => simp [nextService] at hi

theorem fits_nextCall_common {call : Call} {instr : CommonInstr Id} {i : Instr Id}
    (hfits : CallFits C call (.common instr)) (hi : i ∈ (nextCommon C s fresh env instr).push) :
    CallFits C call i := by
  cases instr with
  | remember flow device =>
    cases flow with
    | join peer =>
      obtain ⟨hjoin, -, -⟩ := hfits
      simp only [nextCommon, afterRemember] at hi
      split at hi
      · simp only [List.mem_cons, List.not_mem_nil, or_false] at hi
        rcases hi with rfl | rfl | rfl | rfl
        · exact .inl hjoin
        all_goals trivial
      · rw [List.mem_singleton] at hi
        subst hi
        trivial
    | acceptNearby e =>
      obtain ⟨rfl, -, -⟩ := hfits
      simp only [nextCommon, afterRemember] at hi
      split at hi
      · rw [List.mem_cons] at hi
        rcases hi with rfl | hi
        · trivial
        · split at hi
          · rename_i id hparse
            simp only [List.mem_cons, List.not_mem_nil, or_false] at hi
            rcases hi with rfl | rfl | rfl
            · exact .inr ⟨e, rfl, hparse⟩
            · trivial
            · exact ⟨rfl, rfl, rfl⟩
          · rw [List.mem_singleton] at hi
            subst hi
            trivial
      · rw [List.mem_singleton] at hi
        subst hi
        trivial
    | pairingHost | commitNearby => exact hfits.elim
  | setPresence e online =>
    simp only [nextCommon] at hi
    split at hi
    · simp at hi
    · rw [List.mem_singleton] at hi
      subst hi
      trivial
  | removeSession e =>
    simp only [nextCommon] at hi
    split at hi
    · rw [List.mem_singleton] at hi
      subst hi
      trivial
    · simp at hi
  | refreshList =>
    simp only [nextCommon] at hi
    split at hi
    · rw [List.mem_singleton] at hi
      subst hi
      trivial
    · simp at hi
  | markUnpaired | removeSessionIf => exact hfits.elim
  | _ => simp [nextCommon] at hi

end Next

/-! ### Every task fits -/

/-- A task as it should be. An accepted connection is looked at one critical section at a time. -/
structure TaskFits (C : Config Id) (kind : Kind Id) (todo : List (Instr Id)) : Prop where
  kindFits : KindFits C kind
  fits : ∀ i ∈ todo, Fits C kind i
  accepting : ∀ conn, kind = .inbound conn → todo.length ≤ 1

theorem TaskFits.has {t : Task Id} {kind : Kind Id} {todo : List (Instr Id)}
    (h : TaskFits C kind todo) (hhas : t.Has kind todo) : TaskFits C t.kind t.todo := by
  obtain rfl := hhas.1
  refine ⟨h.kindFits, fun i hi => h.fits i (hhas.mem hi), fun conn hconn => ?_⟩
  have hlen := h.accepting conn hconn
  rcases hhas.2 with htodo | ⟨htodo, -⟩
  · rw [htodo]
    exact hlen
  · rw [htodo]
    simp

/-- An accepted connection is about to be looked at, and has nothing else to do. -/
theorem TaskFits.inbound {conn : Conn Id} {instr : Instr Id} {rest : List (Instr Id)}
    (h : TaskFits C (.inbound conn) (instr :: rest)) :
    ∃ i, instr = .accept i ∧ rest = [] := by
  have hlen := h.accepting conn rfl
  rw [List.length_cons] at hlen
  have hfits := h.fits instr (by simp)
  cases instr with
  | accept i => exact ⟨i, rfl, List.length_eq_zero_iff.mp (by omega)⟩
  | _ => exact hfits.elim

theorem length_accept (s : Shared Id) (conn : Conn Id) (env : Env) (instr : AcceptInstr) :
    (nextAccept C s conn env instr).2.push.length ≤ 1 := by
  cases instr <;> simp only [nextAccept] <;> (try split) <;> (try split) <;> simp

theorem fits_accept (s : Shared Id) (conn : Conn Id) (env : Env) (instr : AcceptInstr)
    {i : Instr Id} (hi : i ∈ (nextAccept C s conn env instr).2.push) :
    Fits C (nextAccept C s conn env instr).1 i := by
  cases instr with
  | hookBlocked | hookDirectPath =>
    simp only [nextAccept] at hi ⊢
    split at hi <;> (rename_i hcond; simp [hcond] at hi ⊢; try (subst hi; trivial))
  | hookAccess =>
    simp only [nextAccept] at hi ⊢
    split at hi
    · rename_i hopen
      rw [List.mem_singleton] at hi
      rw [if_pos hopen, hi]
      trivial
    · rename_i hopen
      split at hi
      · rename_i hstrangers
        rw [List.mem_singleton] at hi
        rw [if_neg hopen, if_pos hstrangers, hi]
        trivial
      · simp at hi
  | acceptWindow =>
    rw [nextAccept, List.mem_singleton] at hi
    subst hi
    trivial
  | acceptAllowed pairingHostOpen window =>
    simp only [nextAccept] at hi ⊢
    split at hi
    · rename_i hmem
      rw [List.mem_singleton] at hi
      rw [if_pos hmem, hi]
      trivial
    · rename_i hmem
      split at hi
      · rename_i hopen
        rw [List.mem_singleton] at hi
        rw [if_neg hmem, if_pos hopen, hi]
        trivial
      · rename_i hopen
        rw [List.mem_singleton] at hi
        rw [if_neg hmem, if_neg hopen, hi]
        trivial

theorem kindFits_nextConnect {s : Shared Id} {l : ConnectLoop Id} {env : Env}
    {instr : ConnectInstr Id} (h : KindFits C (.connect l)) :
    KindFits C (.connect (nextConnect C s l env instr).1) := by
  intro conn hconn
  rw [nextConnect_endpointId]
  cases instr with
  | dial =>
    simp only [nextConnect] at hconn
    split at hconn
    · rename_i remote num hparse _ _
      obtain rfl := Option.some.inj hconn
      exact hparse
    · exact h conn hconn
  | loopTop | settling | unpairGet | unpairMark =>
    simp only [nextConnect] at hconn
    split at hconn <;> exact h conn hconn

theorem lan_nextLan {s : Shared Id} {env : Env} {instr : LanInstr} {i : Instr Id}
    (hi : i ∈ (nextLan C s env instr).push) : ∃ j, i = .lan j := by
  cases instr with
  | appeared =>
    rw [nextLan, List.mem_singleton] at hi
    exact ⟨_, hi⟩
  | nudgeSession =>
    simp only [nextLan] at hi
    split at hi
    · simp at hi
    · rw [List.mem_singleton] at hi
      exact ⟨_, hi⟩
  | observe =>
    simp only [nextLan] at hi
    split at hi <;> simp at hi
    exact ⟨_, hi⟩
  | nudgeGet =>
    simp only [nextLan] at hi
    split at hi
    · split at hi <;> simp at hi
      exact ⟨_, hi⟩
    · simp at hi
  | probe =>
    simp only [nextLan] at hi
    split at hi
    · rw [List.mem_singleton] at hi
      exact ⟨_, hi⟩
    · simp at hi
  | vanished | respawn | setIdentity => simp [nextLan] at hi

theorem taskFits_exec {s : Shared Id} {kind kind' : Kind Id} {fresh : Nat} {env : Env}
    {instr : Instr Id} {rest : List (Instr Id)} {n : Next Id}
    (h : TaskFits C kind (instr :: rest))
    (hnext : next C s kind fresh env instr = some (kind', n)) :
    TaskFits C kind' (n.push ++ rest) := by
  have hkind := h.kindFits
  have hfits := h.fits instr (by simp)
  have htail : ∀ i ∈ rest, Fits C kind i := fun i hi => h.fits i (by simp [hi])
  -- in all cases but the accept ones what is left still fits, and only the new part is to be shown
  have hsplit : ∀ {k : Kind Id}, KindFits C k → (∀ i ∈ rest, Fits C k i) →
      (∀ i ∈ n.push, Fits C k i) → (∀ conn, k ≠ .inbound conn) → TaskFits C k (n.push ++ rest) := by
    intro k hk hr hp hne
    refine ⟨hk, fun i hi => ?_, fun conn hconn => absurd hconn (hne conn)⟩
    rcases List.mem_append.mp hi with hi | hi
    · exact hp i hi
    · exact hr i hi
  cases kind with
  | inbound conn =>
    obtain ⟨i, rfl, rfl⟩ := h.inbound
    cases next_case hnext with
    | accept hc =>
      cases hc
      rw [List.append_nil]
      refine ⟨?_, fun j hj => fits_accept s conn env i hj, fun _ _ => length_accept s conn env i⟩
      unfold nextAccept
      split <;> (try split) <;> (try split) <;> trivial
  | control c =>
    cases next_case hnext with
    | common => exact hsplit hkind htail (fun i hi => fits_nextControl_common hfits hi) (by simp)
    | control hc =>
      cases hc
      have hconn := (sessionStep_nextControl (C := C) s c env ‹_›).conn
      refine hsplit trivial (fun i hi => ?_) (fun i hi => fits_nextControl hi) (by simp)
      exact ControlFits.of_conn hconn (htail i hi)
    | service | window | lan => exact hfits.elim
    | accept hc | host hc | connect hc => cases hc
  | host c =>
    cases next_case hnext with
    | common => exact hsplit hkind htail (fun i hi => fits_nextHost_common hfits hi) (by simp)
    | host hc =>
      cases hc
      exact hsplit hkind htail (fun i hi => fits_nextHost hfits hi) (by simp)
    | @window instr =>
      refine hsplit hkind htail (fun i hi => ?_) (by simp)
      cases instr with
      | closeWindow => simp [nextWindow] at hi
      | _ => exact hfits.elim
    | service | lan => exact hfits.elim
    | accept hc | control hc | connect hc => cases hc
  | connect l =>
    cases next_case hnext with
    | common => exact hsplit hkind htail (fun i hi => fits_nextConnect_common hfits hi) (by simp)
    | @connect instr l' hc =>
      cases hc
      have hendpoint := nextConnect_endpointId (C := C) s l env instr
      refine hsplit (kindFits_nextConnect hkind) (fun i hi => ?_) (fun i hi => ?_) (by simp)
      · have hi := htail i hi
        simp only [Fits] at hi ⊢
        rw [hendpoint]
        exact hi
      · have hi := fits_nextConnect hfits hi
        simp only [Fits]
        rw [hendpoint]
        exact hi
    | service | window | lan => exact hfits.elim
    | accept hc | control hc | host hc => cases hc
  | call call =>
    cases next_case hnext with
    | common => exact hsplit hkind htail (fun i hi => fits_nextCall_common hfits hi) (by simp)
    | service => exact hsplit hkind htail (fun i hi => fits_nextService hfits hi) (by simp)
    | @window instr =>
      refine hsplit hkind htail (fun i hi => ?_) (by simp)
      cases instr with
      | spawnExpiry =>
        rw [nextWindow, List.mem_singleton] at hi
        subst hi
        trivial
      | _ => simp [nextWindow] at hi
    | lan => exact hfits.elim
    | accept hc | control hc | host hc | connect hc => cases hc
  | expiry =>
    cases next_case hnext with
    | @common instr =>
      refine hsplit hkind htail (fun i hi => ?_) (by simp)
      cases instr with
      | sleep | emit => simp [nextCommon] at hi
      | _ => exact hfits.elim
    | @window instr =>
      refine hsplit hkind htail (fun i hi => ?_) (by simp)
      cases instr with
      | storePersistent | storeHostFlag | closeWindow => simp [nextWindow] at hi
      | _ => exact hfits.elim
    | service | lan => exact hfits.elim
    | accept hc | control hc | host hc | connect hc => cases hc
  | lan =>
    cases next_case hnext with
    | lan =>
      refine hsplit hkind htail (fun i hi => ?_) (by simp)
      obtain ⟨j, rfl⟩ := lan_nextLan hi
      trivial
    | common | service | window => exact hfits.elim
    | accept hc | control hc | host hc | connect hc => cases hc
  | background =>
    cases next_case hnext with
    | @service instr =>
      refine hsplit hkind htail (fun i hi => ?_) (by simp)
      cases instr with
      | notifyForget =>
        simp only [nextService] at hi
        split at hi <;> simp at hi
      | _ => exact hfits.elim
    | @lan instr =>
      refine hsplit hkind htail (fun i hi => ?_) (by simp)
      cases instr with
      | probe =>
        simp only [nextLan] at hi
        split at hi
        · rw [List.mem_singleton] at hi
          subst hi
          trivial
        · simp at hi
      | setIdentity => simp [nextLan] at hi
      | _ => exact hfits.elim
    | common | window => exact hfits.elim
    | accept hc | control hc | host hc | connect hc => cases hc

theorem taskFits_spawned {t : Task Id} (h : Spawned t) : TaskFits C t.kind t.todo := by
  cases h with
  | connect device =>
    refine ⟨fun conn hconn => ?_, ?_, by simp [connectTask]⟩
    · cases hconn
    · simp [connectTask, Fits, ConnectFits]
  | notify e => exact ⟨trivial, by simp [notifyTask, Fits, BackgroundFits], by simp [notifyTask]⟩
  | probe e => exact ⟨trivial, by simp [probeTask, Fits, BackgroundFits], by simp [probeTask]⟩
  | expiry => exact ⟨trivial, by simp [expiryTask, Fits, ExpiryFits], by simp [expiryTask]⟩

theorem taskFits_started {a : Act Id} {t : Task Id} (h : started C a = some t) :
    TaskFits C t.kind t.todo := by
  cases started_case h with
  | connect | appeared | vanished => exact ⟨trivial, by simp [Fits], by simp⟩
  | call call => exact ⟨trivial, fun i hi => fits_program hi, by simp⟩

theorem taskFits_recv {kind kind' : Kind Id} {msg : ControlMessage} {todo : List (Instr Id)}
    (h : KindFits C kind) (hrecv : received C kind msg = some (kind', todo)) :
    TaskFits C kind' todo := by
  cases received_case hrecv with
  | control c => exact ⟨trivial, fun i hi => fits_receiveControl hi, by simp⟩
  | host c => exact ⟨trivial, fun i hi => fits_receiveHost hi, by simp⟩
  | connect hconn => exact ⟨h, fun i hi => fits_readOutbound (h _ hconn) hi, by simp⟩

theorem taskFits_close {kind : Kind Id} (reason : String) (h : KindFits C kind) :
    TaskFits C kind (closedTodo C kind reason) := by
  cases kind with
  | control c => exact ⟨trivial, fun i hi => fits_leaveSession hi, by simp⟩
  | host c =>
    refine ⟨trivial, fun i hi => ?_, by simp⟩
    simp only [closedTodo] at hi
    split at hi
    · rw [List.mem_singleton] at hi
      subst hi
      trivial
    · simp at hi
  | connect l =>
    refine ⟨h, fun i hi => ?_, by simp⟩
    simp only [closedTodo] at hi
    split at hi
    · rename_i conn hconn
      rw [List.mem_cons] at hi
      rcases hi with rfl | hi
      · trivial
      · split at hi
        · rw [List.mem_singleton] at hi
          subst hi
          exact Option.isSome_iff_exists.mpr ⟨_, h conn hconn⟩
        · exact fits_backOff hi
    · simp at hi
  | inbound | call | expiry | lan | background =>
    exact ⟨trivial, by simp [closedTodo], by simp [closedTodo]⟩

/-- Every task of the state fits. -/
def AllFit (C : Config Id) (s : State Id) : Prop :=
  ∀ (p : Nat) (t : Task Id), s.procs[p]? = some t → TaskFits C t.kind t.todo

theorem AllFit.step {s s' : State Id} {a : Act Id} {out : List (Out Id)} (h : AllFit C s)
    (hs : Node.step C s a = some (s', out)) : AllFit C s' := by
  intro q t' hq
  obtain ⟨kind, todo, horigin, hhas⟩ := step_origin hs hq
  refine TaskFits.has ?_ hhas
  cases horigin with
  | kept hne hget => exact h q _ hget
  | exec hget htodo hnext =>
    have hfits := h q _ hget
    rw [htodo] at hfits
    exact taskFits_exec hfits hnext
  | recv hget hrecv => exact taskFits_recv (h q _ hget).kindFits hrecv
  | close hget hsees => exact taskFits_close _ (h q _ hget).kindFits
  | drop hget => exact ⟨(h q _ hget).kindFits, by simp, by simp⟩
  | spawned hget hnext hmem hnew => exact taskFits_spawned (next_spawn hnext hmem)
  | started hactor hstart hnew => exact taskFits_started hstart

theorem allFit_start (C : Config Id) (store : StoreFile) (rotated : Bool) (io : Io)
    (d : Discoverability) (relay : Option String) : AllFit C (start C store rotated io d relay) := by
  intro p t hp
  obtain rfl := eq_of_start hp
  exact ⟨trivial, fun i hi => fits_program hi, by simp⟩

theorem fits_run {ok : State Id → Act Id → Prop} {store : StoreFile} {rotated : Bool} {io : Io}
    {d : Discoverability} {relay : Option String} {tr : List (Step Id)} {s : State Id}
    (hrun : Run (machine C) ok (start C store rotated io d relay) tr s) : AllFit C s :=
  hrun.stateInvariant (allFit_start C store rotated io d relay) (fun h _ hs => h.step hs)

/-- The critical section a task of a reachable state is about to go through. -/
theorem AllFit.head {s : State Id} (h : AllFit C s) {p : Nat} {t : Task Id} {instr : Instr Id}
    {rest : List (Instr Id)} (hget : s.procs[p]? = some t) (htodo : t.todo = instr :: rest) :
    Fits C t.kind instr :=
  (h p t hget).fits instr (by rw [htodo]; simp)

end DashBeam.Node

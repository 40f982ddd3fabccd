import DashBeam.Node.Authority

/-!
# Whom a node writes to

Every message of the node goes to a peer that is meant to get it: the one that the app named in a
call, with a message of that call, the one that a connect loop was started for because it was
paired, the unpaired one that was seen on the local network, which is only asked who it is, or the
one that opened the connection a session answers on (`sent_entitled`). So a `Forget`
that the other node verifies goes back to its user, and of two nodes neither unpairs the other unless
one of the users wants it or it sees the other refuse a connection (`unpaired_between`).
-/

namespace DashBeam.Node

open Protocol Native Lib

set_option linter.unusedSectionVars false

variable {Id : Type} [DecidableEq Id] {C : Config Id}

/-! ### The property -/

/-- The peer that the app named in a call. -/
def Call.target : Call → Option String
  | .inviteNearbyDevice e .. | .requestNearbyPair e | .acceptNearbyInvite e
  | .declineNearbyInvite e _ | .joinPairing e _ | .forgetPaired e | .invitePairedDevice e ..
  | .respondPairedInvite e _ => some e
  | .startPairingHost _ | .stopPairingHost | .setDiscoverability _ | .refresh => none

/-- The message is one that the call has for its peer, on this connection with it. -/
def Call.Says (C : Config Id) (conn : Conn Id) (msg : ControlMessage) : Call → Prop
  | .inviteNearbyDevice _ blobTicket fileCount totalSize
  | .invitePairedDevice _ blobTicket fileCount totalSize =>
    msg = .invite blobTicket fileCount totalSize C.displayName
  | .requestNearbyPair _ => msg = .pairRequest C.displayName C.deviceType C.os
  | .acceptNearbyInvite _ => msg = .whoAreYou ∨ msg = .inviteResponse "" .accepted
  | .declineNearbyInvite .. => msg = .inviteResponse "" .declined
  | .respondPairedInvite _ accepted =>
    msg = .inviteResponse "" (if accepted then .accepted else .declined)
  | .joinPairing .. => msg = C.pairingInfo conn ∨ msg = .rememberVote "" .remember
  | .forgetPaired _ => msg = .forget (C.iroh.signChallenge C.self conn.num)
  | .startPairingHost _ | .stopPairingHost | .setDiscoverability _ | .refresh => False

/-- The store once held a connectable record under this very spelling. -/
def WasPaired (past : List (Step Id)) (e : String) : Prop :=
  ∃ d ∈ past, ∃ device ∈ d.pre.shared.pairedStore.stored,
    device.pairingStatus.isConnectable = true ∧ device.endpointId = e

/-- The app has made a call for this peer that says this. -/
def CalledFor (C : Config Id) (past : List (Step Id)) (conn : Conn Id) (msg : ControlMessage) :
    Prop :=
  ∃ d ∈ past, ∃ call e, d.act = .call call ∧ call.target = some e ∧ C.Names e conn.remote ∧
    call.Says C conn msg

/-- A task has gone through this critical section and found this in what the tasks share. -/
def Ran (past : List (Step Id)) (s : Shared Id) (instr : Instr Id) : Prop :=
  ∃ d ∈ past, ∃ p env, d.act = .exec p env ∧ nextInstr d.pre p = some instr ∧ d.pre.shared = s

/-- This id was announced on the local network, and when the watcher of the network took it in it was
not that of an allowed peer. -/
def Sighted (C : Config Id) (past : List (Step Id)) (e : String) : Prop :=
  (∃ d ∈ past, d.act = .lan (.appeared e)) ∧
    ∃ s, Ran past s (.lan (.appeared e)) ∧ ∀ id ∈ s.allowed, C.iroh.fromStr e ≠ some id

/-- What entitles task `p` to send a message on a connection. -/
inductive Entitled (C : Config Id) (past : List (Step Id)) (s : State Id) (p : Nat) (conn : Conn Id) :
    ControlMessage → Prop
  | call {msg : ControlMessage} (h : CalledFor C past conn msg) : Entitled C past s p conn msg
  | recognition {l : ConnectLoop Id} (hkind : kindOf s p = some (.connect l))
      (hremote : C.Names l.endpointId conn.remote) (hpaired : WasPaired past l.endpointId) :
      Entitled C past s p conn (.recognition (C.iroh.signChallenge C.self conn.num))
  | identity {c : ControlSession Id} (hkind : kindOf s p = some (.control c)) (hconn : c.conn = conn)
      (hanswers : shouldAnswerIdentity s.shared.discoverability c.peerIsPaired = true) :
      Entitled C past s p conn
        (.identity (C.iroh.toStr C.self) C.displayName C.deviceType C.os)
  | hosting {h : HostSession Id} {msg : ControlMessage} (hkind : kindOf s p = some (.host h))
      (hconn : h.conn = conn) (hmsg : msg = C.pairingInfo conn ∨ msg = .rememberVote "" .remember) :
      Entitled C past s p conn msg
  | probe {e : String} (hremote : C.iroh.fromStr e = some conn.remote)
      (hsighted : Sighted C past e) : Entitled C past s p conn .whoAreYou

/-! ### The critical sections that send -/

/-- The critical sections that send a message. -/
inductive SentCase (C : Config Id) (s : Shared Id) (kind : Kind Id) (conn : Conn Id) :
    Instr Id → ControlMessage → Prop
  | delivered (d : Delivery) : SentCase C s kind conn (.service (.deliverWrite d conn)) d.msg
  | joined {e : String} {relayUrl : Option String} {msg : ControlMessage}
      (hremote : C.iroh.fromStr e = some conn.remote)
      (hmsg : msg = C.pairingInfo conn ∨ msg = .rememberVote "" .remember) :
      SentCase C s kind conn (.service (.joinDial e relayUrl)) msg
  | forgotten (e : String) : SentCase C s kind conn (.service (.forgetSend e conn))
      (.forget (C.iroh.signChallenge C.self conn.num))
  | notified {e : String} (hremote : C.iroh.fromStr e = some conn.remote) :
      SentCase C s kind conn (.service (.notifyForget e))
        (.forget (C.iroh.signChallenge C.self conn.num))
  | dialled {l : ConnectLoop Id} (hkind : kind = .connect l)
      (hremote : C.iroh.fromStr l.endpointId = some conn.remote) :
      SentCase C s kind conn (.connect .dial)
        (.recognition (C.iroh.signChallenge C.self conn.num))
  | identified {c : ControlSession Id} (hkind : kind = .control c) (hconn : c.conn = conn)
      (hanswers : shouldAnswerIdentity s.discoverability c.peerIsPaired = true) :
      SentCase C s kind conn (.control .answerIdentity)
        (.identity (C.iroh.toStr C.self) C.displayName C.deviceType C.os)
  | hosted {h : HostSession Id} {instr : HostInstr} {msg : ControlMessage} (hkind : kind = .host h)
      (hconn : h.conn = conn) (hmsg : msg = C.pairingInfo conn ∨ msg = .rememberVote "" .remember) :
      SentCase C s kind conn (.host instr) msg
  | asked {e : String} (hremote : C.iroh.fromStr e = some conn.remote) :
      SentCase C s kind conn (.service (.probeAccept e)) .whoAreYou
  | probed {e : String} (hremote : C.iroh.fromStr e = some conn.remote) :
      SentCase C s kind conn (.lan (.probe e)) .whoAreYou

section Next

variable {s : Shared Id} {kind kind' : Kind Id} {fresh : Nat} {env : Env} {n : Next Id}
  {instr : Instr Id} {conn : Conn Id} {msg : ControlMessage}

theorem sentCase_service {instr : ServiceInstr Id} (ho : .sent conn msg ∈ (nextService C s env instr).out) :
    SentCase C s kind conn (.service instr) msg := by
  cases instr with
  | deliverWrite d conn' =>
    simp only [nextService] at ho
    split at ho
    · simp only [List.mem_singleton, Out.sent.injEq] at ho
      obtain ⟨rfl, rfl⟩ := ho
      exact .delivered d
    · exact absurd ho List.not_mem_nil
  | joinDial e relayUrl =>
    simp only [nextService] at ho
    split at ho
    · rename_i remote num hremote _ _
      simp only [List.mem_cons, Out.sent.injEq, List.not_mem_nil, or_false] at ho
      rcases ho with ⟨rfl, rfl⟩ | ⟨rfl, rfl⟩
      · exact .joined hremote (.inl rfl)
      · exact .joined hremote (.inr rfl)
    · exact absurd ho List.not_mem_nil
  | forgetSend e conn' =>
    simp only [nextService] at ho
    split at ho
    · simp only [List.mem_singleton, Out.sent.injEq] at ho
      obtain ⟨rfl, rfl⟩ := ho
      exact .forgotten e
    · exact absurd ho List.not_mem_nil
  | notifyForget e =>
    simp only [nextService] at ho
    split at ho
    · rename_i remote num hremote _ _
      simp only [List.mem_singleton, Out.sent.injEq] at ho
      obtain ⟨rfl, rfl⟩ := ho
      exact .notified hremote
    · exact absurd ho List.not_mem_nil
  | probeAccept e =>
    obtain ⟨conn', hremote, heq⟩ := sent_of_probe ho
    obtain ⟨rfl, rfl⟩ := Out.sent.inj heq
    exact .asked hremote
  | findNearby | deliverStored | waitSession | deliverDial | forgetLive =>
    simp only [nextService] at ho
    split at ho <;> exact absurd ho List.not_mem_nil
  | _ => exact absurd ho List.not_mem_nil

theorem sentCase_control {c : ControlSession Id} {instr : ControlInstr}
    (ho : .sent conn msg ∈ (nextControl C s c env instr).2.out) :
    SentCase C s (.control c) conn (.control instr) msg := by
  cases instr with
  | answerIdentity =>
    simp only [nextControl] at ho
    split at ho
    · rename_i hanswers
      split at ho
      · simp only [List.mem_singleton, Out.sent.injEq] at ho
        obtain ⟨rfl, rfl⟩ := ho
        exact .identified rfl rfl hanswers
      · exact absurd ho List.not_mem_nil
    · split at ho <;> exact absurd ho List.not_mem_nil
  | recheckAllowed | chargeToken | takePending =>
    simp only [nextControl] at ho
    split at ho <;> exact absurd ho List.not_mem_nil
  | hangUp =>
    simp only [nextControl, List.mem_singleton] at ho
    cases ho
  | registerInbound | commitNearby => exact absurd ho List.not_mem_nil
  | emitPairedName =>
    simp only [nextControl, List.mem_singleton] at ho
    cases ho

theorem sentCase_host {h : HostSession Id} {instr : HostInstr}
    (ho : .sent conn msg ∈ (nextHost C s h env instr).out) :
    SentCase C s (.host h) conn (.host instr) msg := by
  cases instr with
  | hostHello =>
    simp only [nextHost] at ho
    split at ho
    · simp only [List.mem_singleton, Out.sent.injEq] at ho
      obtain ⟨rfl, rfl⟩ := ho
      exact .hosted rfl rfl (.inl rfl)
    · exact absurd ho List.not_mem_nil
  | hostVote =>
    simp only [nextHost] at ho
    split at ho
    · simp only [List.mem_singleton, Out.sent.injEq] at ho
      obtain ⟨rfl, rfl⟩ := ho
      exact .hosted rfl rfl (.inr rfl)
    · exact absurd ho List.not_mem_nil
  | hostInvite =>
    simp only [nextHost] at ho
    split at ho
    · simp only [List.mem_singleton] at ho
      cases ho
    · exact absurd ho List.not_mem_nil
  | hostRecord | loadPersistent => exact absurd ho List.not_mem_nil

theorem sentCase_connect {l : ConnectLoop Id} {instr : ConnectInstr Id}
    (ho : .sent conn msg ∈ (nextConnect C s l env instr).2.out) :
    SentCase C s (.connect l) conn (.connect instr) msg := by
  cases instr with
  | dial =>
    simp only [nextConnect] at ho
    split at ho
    · rename_i remote num hremote _ _
      simp only [List.mem_singleton, Out.sent.injEq] at ho
      obtain ⟨rfl, rfl⟩ := ho
      exact .dialled rfl hremote
    · exact absurd ho List.not_mem_nil
  | loopTop | settling | unpairGet | unpairMark =>
    simp only [nextConnect] at ho
    split at ho <;> exact absurd ho List.not_mem_nil

theorem sent_case (h : next C s kind fresh env instr = some (kind', n))
    (ho : .sent conn msg ∈ n.out) : SentCase C s kind conn instr msg := by
  cases next_case h with
  | @common instr hread =>
    exfalso
    cases instr with
    | emit | emitInviteResponse | emitPresence | ret =>
      simp only [nextCommon, List.mem_singleton] at ho
      cases ho
    | markUnpaired | refreshList =>
      simp only [nextCommon] at ho
      split at ho <;> exact absurd ho List.not_mem_nil
    | _ => exact absurd ho List.not_mem_nil
  | service => exact sentCase_service ho
  | @window instr => cases instr <;> exact absurd ho List.not_mem_nil
  | @lan instr =>
    cases instr with
    | probe e =>
      obtain ⟨conn', hremote, heq⟩ := sent_of_probe ho
      obtain ⟨rfl, rfl⟩ := Out.sent.inj heq
      exact .probed hremote
    | _ =>
      simp only [nextLan] at ho
      (try split at ho) <;> simp at ho
  | @accept instr conn' hkind =>
    cases instr <;> simp only [nextAccept] at ho <;> (try split at ho) <;> (try split at ho) <;>
      simp at ho
  | control hkind =>
    subst hkind
    exact sentCase_control ho
  | host hkind =>
    subst hkind
    exact sentCase_host ho
  | connect hkind =>
    subst hkind
    exact sentCase_connect ho

end Next

/-! ### Every task knows whom it writes to -/

/-- The delivery is of a message that the call has, to the peer of the call. -/
def Delivery.SaidBy (C : Config Id) (call : Call) (d : Delivery) : Prop :=
  call.target = some d.endpointId ∧ ∀ conn, call.Says C conn d.msg

def Instr.Meant (C : Config Id) (past : List (Step Id)) (kind : Kind Id) : Instr Id → Prop
  | .service (.findNearby e msg) =>
    ∃ call, kind = .call call ∧ call.target = some e ∧ ∀ conn, call.Says C conn msg
  | .service (.checkAllowed _ d) | .service (.deliverStored d) | .service (.waitSession d)
  | .service (.deliverDial d) => ∃ call, kind = .call call ∧ d.SaidBy C call
  | .service (.deliverWrite d conn) =>
    ∃ call, kind = .call call ∧ d.SaidBy C call ∧ C.Names d.endpointId conn.remote
  | .service (.forgetSend e conn) => C.Names e conn.remote
  | .service (.notifyForget e) => ∃ d ∈ past, d.act = .call (.forgetPaired e)
  | .common (.refreshTasks active) => ∀ device ∈ active, WasPaired past device.endpointId
  | .lan (.nudgeSession _ device) | .lan (.respawn _ device) => WasPaired past device.endpointId
  | .lan (.appeared e) => ∃ d ∈ past, d.act = .lan (.appeared e)
  | .lan (.observe e paired) => paired = false → Sighted C past e
  | .lan (.probe e) => Sighted C past e
  | _ => True

theorem WasPaired.later {past : List (Step Id)} {e : String} (h : WasPaired past e) (x : Step Id) :
    WasPaired (past ++ [x]) e := by
  obtain ⟨d, hd, hrest⟩ := h
  exact ⟨d, List.mem_append_left _ hd, hrest⟩

theorem Sighted.later {past : List (Step Id)} {e : String} (h : Sighted C past e) (x : Step Id) :
    Sighted C (past ++ [x]) e := by
  obtain ⟨⟨d, hd, hact⟩, s, ⟨d', hd', hran⟩, hallowed⟩ := h
  exact ⟨⟨d, List.mem_append_left _ hd, hact⟩, s, ⟨d', List.mem_append_left _ hd', hran⟩, hallowed⟩

theorem Instr.Meant.later {past : List (Step Id)} {kind : Kind Id} {i : Instr Id}
    (h : i.Meant C past kind) (x : Step Id) : i.Meant C (past ++ [x]) kind := by
  unfold Instr.Meant at h ⊢
  split at h
  case h_8 | h_12 =>
    obtain ⟨d, hd, hact⟩ := h
    exact ⟨d, List.mem_append_left _ hd, hact⟩
  case h_9 => exact fun device hmem => (h device hmem).later x
  case h_10 | h_11 | h_14 => exact h.later x
  case h_13 => exact fun hpaired => (h hpaired).later x
  all_goals exact h

theorem Instr.Meant.of_kind {past : List (Step Id)} {kind kind' : Kind Id} {i : Instr Id}
    (h : i.Meant C past kind) (hsame : ∀ call, kind = .call call → kind' = .call call) :
    i.Meant C past kind' := by
  unfold Instr.Meant at h ⊢
  split at h
  all_goals first
    | exact h
    | (obtain ⟨call, hkind, hrest⟩ := h
       exact ⟨call, hsame call hkind, hrest⟩)

section Meant

variable {s : Shared Id} {fresh : Nat} {env : Env} {i : Instr Id} {past : List (Step Id)}

/-- The records of the store are those of the past from now on. -/
def Recorded (past : List (Step Id)) (s : Shared Id) : Prop :=
  ∀ device ∈ s.pairedStore.stored, device.pairingStatus.isConnectable = true →
    WasPaired past device.endpointId

theorem meant_program {call : Call} (hi : i ∈ program C call) : i.Meant C past (.call call) := by
  have hone : ∀ {j : Instr Id}, i ∈ [j] → j.Meant C past (.call call) →
      i.Meant C past (.call call) := by
    intro j hj hmeant
    rw [List.mem_singleton] at hj
    exact hj ▸ hmeant
  cases call with
  | inviteNearbyDevice | requestNearbyPair => exact hone hi ⟨_, rfl, rfl, fun _ => rfl⟩
  | declineNearbyInvite e block =>
    rw [program, List.mem_append] at hi
    rcases hi with hi | hi
    · split at hi
      · simp only [List.mem_cons, List.not_mem_nil, or_false] at hi
        rcases hi with rfl | rfl <;> trivial
      · exact absurd hi List.not_mem_nil
    · exact hone hi ⟨_, rfl, rfl, fun _ => rfl⟩
  | invitePairedDevice | respondPairedInvite =>
    simp only [program] at hi
    split at hi
    · exact hone hi ⟨_, rfl, rfl, fun _ => rfl⟩
    · exact hone hi trivial
  | acceptNearbyInvite | joinPairing | forgetPaired | setDiscoverability | refresh =>
    exact hone hi trivial
  | startPairingHost ttlSecs =>
    simp only [program, startPairingHost, stopPairingHost] at hi
    split at hi <;>
      simp only [List.cons_append, List.nil_append, List.mem_cons, List.not_mem_nil,
        or_false] at hi
    · rcases hi with rfl | rfl | rfl | rfl | rfl | rfl | rfl | rfl | rfl <;> trivial
    · rcases hi with rfl | rfl | rfl | rfl | rfl | rfl | rfl | rfl <;> trivial
  | stopPairingHost =>
    simp only [program, stopPairingHost, List.cons_append, List.nil_append, List.mem_cons,
      List.not_mem_nil, or_false] at hi
    rcases hi with rfl | rfl | rfl | rfl | rfl <;> trivial

theorem meant_nextCommon {kind : Kind Id} {instr : CommonInstr Id}
    (hfits : Fits C kind (.common instr)) (hstore : Recorded past s)
    (hi : i ∈ (nextCommon C s fresh env instr).push) : i.Meant C past kind := by
  cases instr with
  | refreshList =>
    simp only [nextCommon] at hi
    split at hi
    · rename_i devices hread
      rw [List.mem_singleton] at hi
      subst hi
      intro device hdevice
      obtain ⟨hmem, hconn⟩ := List.mem_filter.mp hdevice
      exact hstore device (StoreFile.stored_of_readFile hread ▸ hmem) hconn
    · exact absurd hi List.not_mem_nil
  | remember flow device =>
    cases flow with
    | acceptNearby e =>
      cases kind with
      | call call =>
        obtain ⟨rfl, -, -⟩ := hfits
        simp only [nextCommon, afterRemember] at hi
        split at hi
        · split at hi <;> simp only [List.mem_cons, List.not_mem_nil, or_false] at hi
          · rcases hi with rfl | rfl | rfl | rfl
            · trivial
            · trivial
            · trivial
            · exact ⟨_, rfl, rfl, fun _ => .inr rfl⟩
          · rcases hi with rfl | rfl <;> trivial
        · rw [List.mem_singleton] at hi
          subst hi
          trivial
      | control | host =>
        obtain ⟨hflow, -⟩ := hfits
        cases hflow
      | inbound | connect | expiry | lan | background => exact hfits.elim
    | pairingHost =>
      simp only [nextCommon, afterRemember, List.mem_cons, List.not_mem_nil, or_false] at hi
      rcases hi with rfl | rfl | rfl | rfl | rfl <;> trivial
    | join =>
      simp only [nextCommon, afterRemember] at hi
      split at hi <;> simp only [List.mem_cons, List.not_mem_nil, or_false] at hi
      · rcases hi with rfl | rfl | rfl | rfl <;> trivial
      · subst hi
        trivial
    | commitNearby =>
      simp only [nextCommon, afterRemember] at hi
      split at hi
      · simp only [List.mem_cons, List.not_mem_nil, or_false] at hi
        rcases hi with rfl | rfl | rfl | rfl <;> trivial
      · exact absurd hi List.not_mem_nil
  | markUnpaired =>
    simp only [nextCommon, managerForget] at hi
    split at hi
    · simp only [List.cons_append, List.nil_append, List.mem_cons, List.not_mem_nil,
        or_false] at hi
      rcases hi with rfl | rfl | rfl | rfl | rfl <;> trivial
    · exact absurd hi List.not_mem_nil
  | setPresence | removeSession | removeSessionIf =>
    simp only [nextCommon] at hi
    split at hi
    all_goals first
      | exact absurd hi List.not_mem_nil
      | (rw [List.mem_singleton] at hi
         subst hi
         trivial)
  | _ => exact absurd hi List.not_mem_nil

theorem meant_onError {d : Delivery} {kind : Kind Id} (hi : i ∈ onError d) :
    i.Meant C past kind := by
  unfold onError at hi
  split at hi <;> simp only [List.mem_cons, List.not_mem_nil, or_false] at hi
  · rcases hi with rfl | rfl <;> trivial
  · subst hi
    trivial

theorem meant_onSent {d : Delivery} {kind : Kind Id} (hi : i ∈ onSent d) :
    i.Meant C past kind := by
  unfold onSent at hi
  split at hi <;> simp only [List.mem_cons, List.not_mem_nil, or_false] at hi
  all_goals first
    | (subst hi; trivial)
    | (rcases hi with rfl | rfl <;> trivial)

theorem meant_onUnreached {d : Delivery} {kind : Kind Id} (hi : i ∈ onUnreached d) :
    i.Meant C past kind := by
  unfold onUnreached at hi
  split at hi <;> simp only [List.mem_cons, List.not_mem_nil, or_false] at hi
  all_goals first
    | (subst hi; trivial)
    | (rcases hi with rfl | rfl <;> trivial)

theorem meant_forgetRest {e : String} {kind : Kind Id} (hi : i ∈ forgetRest C e) :
    i.Meant C past kind := by
  unfold forgetRest at hi
  split at hi <;>
    simp only [List.cons_append, List.nil_append, List.mem_cons, List.not_mem_nil, or_false] at hi
  · rcases hi with rfl | rfl <;> trivial
  · subst hi
    trivial

/-- A call goes on with what its peer is meant to get: a session it finds, or a dial, leads there. -/
theorem meant_nextService {call : Call} {instr : ServiceInstr Id}
    (hnamed : ∀ key conn, s.sessions key = some conn → C.iroh.fromStr key = some conn.remote)
    (h : Instr.Meant C past (.call call) (.service instr))
    (hi : i ∈ (nextService C s env instr).push) : i.Meant C past (.call call) := by
  have hone : ∀ {j : Instr Id}, i ∈ [j] → j.Meant C past (.call call) →
      i.Meant C past (.call call) := by
    intro j hj hmeant
    rw [List.mem_singleton] at hj
    exact hj ▸ hmeant
  cases instr with
  | findNearby e msg =>
    simp only [nextService] at hi
    split at hi
    · unfold onFound at hi
      split at hi
      · split at hi
        · exact hone hi trivial
        · exact hone hi h
      · exact hone hi h
    · exact hone hi trivial
  | checkAllowed id d =>
    simp only [nextService] at hi
    split at hi
    · exact hone hi h
    · exact hone hi trivial
  | deliverStored d =>
    simp only [nextService] at hi
    split at hi
    · split at hi <;> exact hone hi h
    · exact meant_onError hi
  | waitSession d =>
    simp only [nextService] at hi
    split at hi
    · rename_i conn hheld
      obtain ⟨call', hkind, hsaid⟩ := h
      exact hone hi ⟨call', hkind, hsaid, hnamed _ _ hheld⟩
    · exact hone hi h
  | deliverDial d =>
    simp only [nextService, recognise] at hi
    split at hi
    · exact meant_onError hi
    · exact meant_onUnreached hi
    · rename_i remote num hremote _
      obtain ⟨call', hkind, hsaid⟩ := h
      rcases List.mem_append.mp hi with hi | hi
      · split at hi <;> simp only [List.mem_cons, List.not_mem_nil, or_false] at hi
        rcases hi with rfl | rfl <;> trivial
      · exact hone hi ⟨call', hkind, hsaid, names_of_fromStr hremote⟩
  | deliverWrite d conn =>
    simp only [nextService] at hi
    split at hi
    · exact meant_onSent hi
    · exact meant_onError hi
  | probeAccept e => exact hone hi trivial
  | joinDial e relayUrl =>
    simp only [nextService] at hi
    split at hi <;> exact hone hi trivial
  | joinReply conn relayUrl =>
    simp only [nextService, onHostReply] at hi
    split at hi
    · split at hi
      · split at hi <;> exact hone hi trivial
      · exact hone hi trivial
    · exact hone hi trivial
  | forgetGet e =>
    simp only [nextService] at hi
    split at hi <;> exact hone hi trivial
  | forgetLive e =>
    simp only [nextService] at hi
    split at hi
    · rename_i conn hheld
      exact hone hi (hnamed _ _ hheld)
    · exact meant_forgetRest hi
  | forgetSend e conn =>
    simp only [nextService] at hi
    split at hi <;> exact meant_forgetRest hi
  | forgetRecord e =>
    simp only [nextService, managerForget] at hi
    split at hi <;>
      simp only [List.cons_append, List.nil_append, List.mem_cons, List.not_mem_nil,
        or_false] at hi
    · rcases hi with rfl | rfl | rfl | rfl | rfl <;> trivial
    · subst hi
      trivial
  | setDiscoverability setting =>
    simp only [nextService, stopPairingHost] at hi
    split at hi <;>
      simp only [List.cons_append, List.nil_append, List.mem_cons, List.not_mem_nil,
        or_false] at hi
    · subst hi
      trivial
    · rcases hi with rfl | rfl | rfl | rfl | rfl <;> trivial
  | rebuild previous setting =>
    simp only [nextService] at hi
    split at hi
    · rcases List.mem_cons.mp hi with rfl | hi
      · trivial
      · split at hi <;>
          simp only [List.cons_append, List.nil_append, List.mem_cons, List.not_mem_nil,
            or_false] at hi
        · rcases hi with rfl | rfl <;> trivial
        · subst hi
          trivial
    · simp only [List.mem_cons, List.not_mem_nil, or_false] at hi
      rcases hi with rfl | rfl <;> trivial
  | notifyForget e =>
    simp only [nextService] at hi
    split at hi <;> exact absurd hi List.not_mem_nil
  | insertPending | block | restoreDiscoverability | clearNearby =>
    exact absurd hi List.not_mem_nil

theorem meant_nextLan {kind : Kind Id} {instr : LanInstr} (hstore : Recorded past s)
    (hran : Ran past s (.lan instr)) (h : Instr.Meant C past kind (.lan instr))
    (hi : i ∈ (nextLan C s env instr).push) : i.Meant C past kind := by
  have hone : ∀ {j : Instr Id}, i ∈ [j] → j.Meant C past kind → i.Meant C past kind := by
    intro j hj hmeant
    rw [List.mem_singleton] at hj
    exact hj ▸ hmeant
  cases instr with
  | nudgeGet e =>
    simp only [nextLan] at hi
    split at hi
    · rename_i device hfound
      split at hi
      · rename_i hconn
        rw [Option.join_eq_some_iff, StoreFile.get, Option.map_eq_some_iff] at hfound
        obtain ⟨list, hread, hfound⟩ := hfound
        rw [StoreFile.stored_of_readFile hread] at hfound
        exact hone hi (hstore device (List.mem_of_find?_eq_some hfound) hconn)
      · exact absurd hi List.not_mem_nil
    · exact absurd hi List.not_mem_nil
  | nudgeSession key device =>
    simp only [nextLan] at hi
    split at hi
    · exact absurd hi List.not_mem_nil
    · exact hone hi h
  | appeared e =>
    refine hone hi fun hpaired => ⟨h, s, hran, fun id hid hparse => ?_⟩
    rw [hparse, Option.any_some, decide_eq_false_iff_not] at hpaired
    exact hpaired hid
  | observe e paired =>
    simp only [nextLan] at hi
    split at hi
    all_goals first
      | exact hone hi trivial
      | exact absurd hi List.not_mem_nil
  | probe e =>
    simp only [nextLan] at hi
    split at hi
    · exact hone hi trivial
    · exact absurd hi List.not_mem_nil
  | vanished | respawn | setIdentity => exact absurd hi List.not_mem_nil

theorem ControlPush.meant {kind : Kind Id} (h : ControlPush i) : i.Meant C past kind := by
  cases h <;> trivial

theorem HostReceives.meant {h₀ : HostSession Id} {msg : ControlMessage} {kind : Kind Id}
    (h : HostReceives C h₀ msg i) : i.Meant C past kind := by
  cases h <;> trivial

theorem ConnectPush.meant {l : ConnectLoop Id} {instr : ConnectInstr Id} {kind : Kind Id}
    (h : ConnectPush C s l env instr i) : i.Meant C past kind := by
  cases h <;> trivial

theorem meant_nextHost {h : HostSession Id} {instr : HostInstr} {kind : Kind Id}
    (hi : i ∈ (nextHost C s h env instr).push) : i.Meant C past kind := by
  cases instr with
  | hostHello | loadPersistent =>
    simp only [nextHost] at hi
    split at hi
    all_goals first
      | exact absurd hi List.not_mem_nil
      | (rw [List.mem_singleton] at hi
         subst hi
         trivial)
  | hostRecord =>
    rw [nextHost, List.mem_singleton] at hi
    subst hi
    trivial
  | hostInvite | hostVote => exact absurd hi List.not_mem_nil

theorem meant_readOutbound {conn : Conn Id} {msg : ControlMessage} {kind : Kind Id}
    (hi : i ∈ readOutbound C conn msg) : i.Meant C past kind := by
  cases msg with
  | recognition | forget =>
    simp only [readOutbound, recognise] at hi
    split at hi <;>
      simp only [List.cons_append, List.nil_append, List.mem_cons, List.not_mem_nil,
        or_false] at hi
    all_goals first
      | (subst hi; trivial)
      | (rcases hi with rfl | rfl | rfl <;> trivial)
  | invite | inviteResponse =>
    simp only [readOutbound, List.mem_cons, List.not_mem_nil, or_false] at hi
    rcases hi with rfl | rfl <;> trivial
  | pairingInfo | rememberVote | whoAreYou | identity | pairRequest =>
    rw [readOutbound, List.mem_singleton] at hi
    · subst hi
      trivial
    all_goals simp

/-- One critical section of a task: what it goes on with is meant for someone. -/
theorem meant_next {kind kind' : Kind Id} {instr : Instr Id} {n : Next Id}
    (hnamed : ∀ key conn, s.sessions key = some conn → C.iroh.fromStr key = some conn.remote)
    (hstore : Recorded past s) (hran : Ran past s instr) (hfits : Fits C kind instr)
    (h : instr.Meant C past kind) (hnext : next C s kind fresh env instr = some (kind', n)) (hi : i ∈ n.push) :
    i.Meant C past kind' := by
  cases next_case hnext with
  | common hread => exact meant_nextCommon hfits hstore hi
  | @service instr =>
    cases kind with
    | call call => exact meant_nextService hnamed h hi
    | background =>
      cases instr with
      | notifyForget =>
        simp only [nextService] at hi
        split at hi <;> exact absurd hi List.not_mem_nil
      | _ => exact hfits.elim
    | inbound | control | host | connect | expiry | lan => exact hfits.elim
  | @window instr =>
    cases instr with
    | spawnExpiry =>
      rw [nextWindow, List.mem_singleton] at hi
      subst hi
      trivial
    | _ => exact absurd hi List.not_mem_nil
  | lan => exact meant_nextLan hstore hran h hi
  | accept hkind => cases acceptPush_next hi <;> trivial
  | control hkind => exact (controlPush_next hi).meant
  | host hkind => exact meant_nextHost hi
  | connect hkind => exact (connectPush_next hi).meant

theorem meant_closed {kind : Kind Id} {reason : String} (hi : i ∈ closedTodo C kind reason) :
    i.Meant C past kind := by
  cases kind with
  | control c => exact (controlPush_leaveSession hi).meant
  | host h =>
    simp only [closedTodo] at hi
    split at hi
    · rw [List.mem_singleton] at hi
      subst hi
      trivial
    · exact absurd hi List.not_mem_nil
  | connect l =>
    simp only [closedTodo] at hi
    split at hi
    · rcases List.mem_cons.mp hi with rfl | hi
      · trivial
      · split at hi
        · rw [List.mem_singleton] at hi
          subst hi
          trivial
        · simp only [backOff, List.mem_cons, List.not_mem_nil, or_false] at hi
          rcases hi with rfl | rfl <;> trivial
    · exact absurd hi List.not_mem_nil
  | inbound | call | expiry | lan | background => exact absurd hi List.not_mem_nil

end Meant

/-! ### Where connect loops and dials come from -/

/-- A connect loop that `refresh` starts is for one of the records it was given. -/
theorem device_of_spawnMissing {tasks : List (String × Nat)} {fresh : Nat}
    {active : List PairedDevice} {t : Task Id} (h : t ∈ (spawnMissing C tasks fresh active).2) :
    ∃ device ∈ active, t = connectTask device := by
  induction active generalizing tasks fresh with
  | nil => exact absurd h List.not_mem_nil
  | cons device rest ih =>
    rw [spawnMissing] at h
    split at h
    · obtain ⟨d, hd, ht⟩ := ih h
      exact ⟨d, List.mem_cons_of_mem _ hd, ht⟩
    · rcases List.mem_cons.mp h with rfl | h
      · exact ⟨device, List.mem_cons_self, rfl⟩
      · obtain ⟨d, hd, ht⟩ := ih h
        exact ⟨d, List.mem_cons_of_mem _ hd, ht⟩

theorem connect_spawned {s : Shared Id} {kind kind' : Kind Id} {fresh : Nat} {env : Env}
    {instr : Instr Id} {n : Next Id} {past : List (Step Id)} {t : Task Id} {l : ConnectLoop Id}
    (hnext : next C s kind fresh env instr = some (kind', n)) (ht : t ∈ n.spawn)
    (hl : t.kind = .connect l) (h : instr.Meant C past kind) : WasPaired past l.endpointId := by
  have hsame : ∀ device, t = connectTask device → l.endpointId = device.endpointId := by
    rintro device rfl
    rw [← Kind.connect.inj hl]
  cases next_case hnext with
  | @common instr hread =>
    cases instr with
    | refreshTasks active =>
      obtain ⟨device, hdevice, heq⟩ := device_of_spawnMissing ht
      rw [hsame device heq]
      exact h device hdevice
    | markUnpaired | refreshList =>
      simp only [nextCommon] at ht
      split at ht <;> exact absurd ht List.not_mem_nil
    | _ => exact absurd ht List.not_mem_nil
  | @lan instr =>
    cases instr with
    | respawn key device =>
      rw [hsame device (List.mem_singleton.mp ht)]
      exact h
    | observe e paired =>
      simp only [nextLan] at ht
      split at ht
      all_goals first
        | exact absurd ht List.not_mem_nil
        | (obtain rfl := List.mem_singleton.mp ht
           cases hl)
    | nudgeGet =>
      simp only [nextLan] at ht
      split at ht <;> exact absurd ht List.not_mem_nil
    | _ => exact absurd ht List.not_mem_nil
  | @service instr =>
    cases instr with
    | forgetLive | forgetSend =>
      simp only [nextService] at ht
      split at ht
      · exact absurd ht List.not_mem_nil
      · obtain rfl := List.mem_singleton.mp ht
        cases hl
    | findNearby | deliverStored | waitSession | deliverDial | deliverWrite | joinDial
    | notifyForget =>
      simp only [nextService] at ht
      split at ht <;> exact absurd ht List.not_mem_nil
    | _ => exact absurd ht List.not_mem_nil
  | @window instr =>
    cases instr with
    | spawnExpiry =>
      obtain rfl := List.mem_singleton.mp ht
      cases hl
    | _ => exact absurd ht List.not_mem_nil
  | @accept instr conn hkind =>
    cases instr <;> simp only [nextAccept] at ht <;> (try split at ht) <;> (try split at ht) <;>
      simp at ht
  | @control instr c hkind =>
    cases instr <;> simp only [nextControl] at ht <;> (try split at ht) <;> (try split at ht) <;>
      simp at ht
  | @host instr c hkind =>
    cases instr <;> simp only [nextHost] at ht <;> (try split at ht) <;> simp at ht
  | @connect instr l hkind =>
    cases instr <;> simp only [nextConnect] at ht <;> split at ht <;> simp at ht

/-! ### Runs -/

/-- A connect loop is one of a peer that was paired, and what a task has to do is meant for someone. -/
structure Task.Directed (C : Config Id) (past : List (Step Id)) (kind : Kind Id)
    (todo : List (Instr Id)) : Prop where
  loop : ∀ l, kind = .connect l → WasPaired past l.endpointId
  meant : ∀ i ∈ todo, i.Meant C past kind

theorem Task.Directed.has {past : List (Step Id)} {kind : Kind Id} {todo : List (Instr Id)}
    {t : Task Id} (h : Task.Directed C past kind todo) (hhas : t.Has kind todo) :
    Task.Directed C past t.kind t.todo := by
  obtain rfl := hhas.1
  exact ⟨h.loop, fun i hi => h.meant i (hhas.mem hi)⟩

theorem Task.Directed.later {past : List (Step Id)} {kind : Kind Id} {todo : List (Instr Id)}
    (h : Task.Directed C past kind todo) (x : Step Id) :
    Task.Directed C (past ++ [x]) kind todo :=
  ⟨fun l hl => (h.loop l hl).later x, fun i hi => (h.meant i hi).later x⟩

def AllDirected (C : Config Id) (tr : List (Step Id)) (s : State Id) : Prop :=
  ∀ (p : Nat) (t : Task Id), s.procs[p]? = some t → Task.Directed C tr t.kind t.todo

theorem loop_of_next {s : Shared Id} {kind : Kind Id} {fresh : Nat} {env : Env} {instr : Instr Id}
    {n : Next Id} {l : ConnectLoop Id}
    (hnext : next C s kind fresh env instr = some (.connect l, n)) :
    ∃ l', kind = .connect l' ∧ l'.endpointId = l.endpointId := by
  cases kind with
  | inbound conn =>
    generalize hkind' : Kind.connect l = kind' at hnext
    cases next_case hnext with
    | accept hc => cases hkind' ▸ acceptKind_next rfl
    | common | service | window | lan => cases hkind'
    | control hc | host hc | connect hc => cases hc
  | control c =>
    obtain ⟨c', heq, -⟩ := next_kind hnext
    cases heq
  | connect l' =>
    obtain ⟨l'', heq, hid⟩ := next_kind hnext
    obtain rfl := Kind.connect.inj heq
    exact ⟨l', rfl, hid.symm⟩
  | host | call | expiry | lan | background => cases next_kind hnext

theorem directed_recv {past : List (Step Id)} {kind kind' : Kind Id} {todo todo₀ : List (Instr Id)}
    {msg : ControlMessage} (h : Task.Directed C past kind todo₀)
    (hrecv : received C kind msg = some (kind', todo)) : Task.Directed C past kind' todo := by
  cases received_case hrecv with
  | control c => exact ⟨nofun, fun i hi => (controlPush_receive hi).meant⟩
  | host c => exact ⟨nofun, fun i hi => (hostReceives_of_mem hi).meant⟩
  | connect hconn => exact ⟨h.loop, fun i hi => meant_readOutbound hi⟩

theorem directed_started {past : List (Step Id)} {a : Act Id} {t : Task Id}
    (hact : ∃ d ∈ past, d.act = a) (hstart : started C a = some t) :
    Task.Directed C past t.kind t.todo := by
  cases started_case hstart with
  | call call => exact ⟨nofun, fun i hi => meant_program hi⟩
  | appeared e =>
    refine ⟨nofun, fun i hi => ?_⟩
    obtain rfl := List.mem_singleton.mp hi
    exact hact
  | connect | vanished =>
    refine ⟨nofun, fun i hi => ?_⟩
    obtain rfl := List.mem_singleton.mp hi
    trivial

/-- A spawned task is directed: a dial that tells a peer to forget us comes from the call to, and a
probe from the sighting of an unpaired peer. -/
theorem directed_spawned {tr : List (Step Id)} {s : Shared Id} {p fresh : Nat} {env : Env}
    {t t' : Task Id} {instr : Instr Id} {kind : Kind Id} {n : Next Id}
    (hfits : Fits C t.kind instr) (hacc : Accountable C tr p t.kind t.todo)
    (h : instr.Meant C tr t.kind) (hnext : next C s t.kind fresh env instr = some (kind, n))
    (hmem : t' ∈ n.spawn) : Task.Directed C tr t'.kind t'.todo := by
  refine ⟨fun l hl => connect_spawned hnext hmem hl h, ?_⟩
  cases spawn_case hnext hmem with
  | connect device =>
    intro i hi
    obtain rfl := List.mem_singleton.mp hi
    trivial
  | probe hsighted =>
    intro i hi
    obtain rfl := List.mem_singleton.mp hi
    subst hsighted
    exact h rfl
  | expiry =>
    intro i hi
    simp only [expiryTask, List.mem_cons, List.not_mem_nil, or_false] at hi
    rcases hi with rfl | rfl | rfl | rfl | rfl <;> trivial
  | @notify e hforget =>
    intro i hi
    obtain rfl := List.mem_singleton.mp hi
    have hcall : t.kind = .call (.forgetPaired e) := by
      rcases hforget with rfl | ⟨conn, rfl⟩
      all_goals
        cases hkind : t.kind with
        | call call =>
          rw [hkind] at hfits
          rw [show call = .forgetPaired e from hfits]
        | inbound | control | host | connect | expiry | lan | background =>
          rw [hkind] at hfits
          exact hfits.elim
    rcases hacc.call _ hcall with hrefresh | ⟨d, hd, hact, -⟩
    · cases hrefresh
    · exact ⟨d, hd, hact⟩

theorem AllDirected.step {tr : List (Step Id)} {s s' : State Id} {a : Act Id}
    {out : List (Out Id)} (hfit : AllFit C s) (hnamed : SlotsNamed C s)
    (hacc : AllAccountable C tr s) (h : AllDirected C tr s)
    (hs : Node.step C s a = some (s', out)) : AllDirected C (tr ++ [⟨s, a, s', out⟩]) s' := by
  have hstore : Recorded (tr ++ [⟨s, a, s', out⟩]) s.shared := fun device hmem hconn =>
    ⟨⟨s, a, s', out⟩, by simp, device, hmem, hconn, rfl⟩
  intro p t' hp
  obtain ⟨kind, todo, horigin, hhas⟩ := step_origin hs hp
  refine Task.Directed.has ?_ hhas
  cases horigin with
  | kept hne hget => exact (h p _ hget).later _
  | @exec env t instr rest kind n hget htodo hnext =>
    have hdirected := (h p t hget).later ⟨s, .exec p env, s', out⟩
    rw [htodo] at hdirected
    refine ⟨fun l hl => ?_, fun i hi => ?_⟩
    · subst hl
      obtain ⟨l', hl', hid⟩ := loop_of_next hnext
      exact hid ▸ hdirected.loop l' hl'
    · rcases List.mem_append.mp hi with hi | hi
      · have hran : Ran (tr ++ [⟨s, .exec p env, s', out⟩]) s.shared instr :=
          ⟨_, List.mem_concat_self, p, env, rfl, nextInstr_eq hget htodo, rfl⟩
        exact meant_next hnamed.held hstore hran (hfit.head hget htodo)
          (hdirected.meant instr (by simp)) hnext hi
      · refine (hdirected.meant i (by simp [hi])).of_kind fun call hcall => ?_
        have hstep := next_kind hnext
        rw [hcall] at hstep
        exact hstep
  | recv hget hrecv => exact directed_recv ((h p _ hget).later _) hrecv
  | close hget hsees => exact ⟨((h p _ hget).later _).loop, fun i hi => meant_closed hi⟩
  | drop hget => exact ⟨((h p _ hget).later _).loop, by simp⟩
  | @spawned pid env t t' instr kind n hget hnext hmem hnew hhead =>
    obtain ⟨rest, htodo⟩ := List.head?_eq_some_iff.mp hhead
    have hmeant := ((h pid t hget).later ⟨s, .exec pid env, s', out⟩).meant instr (by rw [htodo]; simp)
    exact directed_spawned (hfit.head hget htodo) ((hacc pid t hget).later _) hmeant hnext hmem
  | started hactor hstart hnew => exact directed_started ⟨_, List.mem_concat_self, rfl⟩ hstart

theorem directed_run {ok : State Id → Act Id → Prop} {store : StoreFile} {rotated : Bool}
    {io : Io} {d : Discoverability} {relay : Option String} {tr : List (Step Id)} {s : State Id}
    (hrun : Run (machine C) ok (start C store rotated io d relay) tr s) : AllDirected C tr s := by
  refine hrun.invariant_of_run (I := AllDirected C) ?_ fun hprev h _ hs =>
    h.step (fits_run hprev) (slotsNamed_run hprev) (accountable_run hprev) hs
  intro p t hp
  obtain rfl := eq_of_start hp
  exact ⟨nofun, fun i hi => meant_program hi⟩

/-- What a task that knows whom it writes to sends, it is entitled to. -/
theorem entitled_of_sent {tr : List (Step Id)} {s : State Id} {p : Nat} {t : Task Id}
    {instr : Instr Id} {rest : List (Instr Id)} {conn : Conn Id} {msg : ControlMessage}
    (hget : s.procs[p]? = some t) (htodo : t.todo = instr :: rest) (hfits : Fits C t.kind instr)
    (hacc : Accountable C tr p t.kind t.todo) (h : Task.Directed C tr t.kind t.todo)
    (hsent : SentCase C s.shared t.kind conn instr msg) : Entitled C tr s p conn msg := by
  have hmeant := h.meant instr (by rw [htodo]; simp)
  have hkindOf := kindOf_eq hget
  have hstarted : ∀ call e, t.kind = .call call → call.target = some e → C.Names e conn.remote →
      call.Says C conn msg → Entitled C tr s p conn msg := by
    intro call e hkind htarget hnames htells
    rcases hacc.call call hkind with rfl | ⟨d, hd, hact, -⟩
    · cases htarget
    · exact .call ⟨d, hd, call, e, hact, htarget, hnames, htells⟩
  cases hsent with
  | delivered d =>
    obtain ⟨call, hkind, ⟨htarget, htells⟩, hnames⟩ := hmeant
    exact hstarted call _ hkind htarget hnames (htells conn)
  | @joined e relayUrl _ hremote hmsg =>
    cases hkind : t.kind with
    | call call =>
      rw [hkind] at hfits
      obtain rfl : call = .joinPairing e relayUrl := hfits
      exact hstarted _ e hkind rfl (names_of_fromStr hremote) hmsg
    | inbound | control | host | connect | expiry | lan | background =>
      rw [hkind] at hfits
      exact hfits.elim
  | forgotten e =>
    cases hkind : t.kind with
    | call call =>
      rw [hkind] at hfits
      obtain rfl : call = .forgetPaired e := hfits
      exact hstarted _ e hkind rfl hmeant rfl
    | inbound | control | host | connect | expiry | lan | background =>
      rw [hkind] at hfits
      exact hfits.elim
  | @notified e hremote =>
    obtain ⟨d, hd, hact⟩ := hmeant
    exact .call ⟨d, hd, .forgetPaired e, e, hact, rfl, names_of_fromStr hremote, rfl⟩
  | dialled hkind hremote =>
    rw [hkind] at hkindOf
    exact .recognition hkindOf (names_of_fromStr hremote) (h.loop _ hkind)
  | identified hkind hconn hanswers =>
    rw [hkind] at hkindOf
    exact .identity hkindOf hconn hanswers
  | hosted hkind hconn hmsg =>
    rw [hkind] at hkindOf
    exact .hosting hkindOf hconn hmsg
  | @asked e hremote =>
    cases hkind : t.kind with
    | call call =>
      rw [hkind] at hfits
      obtain rfl : call = .acceptNearbyInvite e := hfits
      exact hstarted _ e hkind rfl (names_of_fromStr hremote) (.inl rfl)
    | inbound | control | host | connect | expiry | lan | background =>
      rw [hkind] at hfits
      exact hfits.elim
  | probed hremote => exact .probe hremote hmeant

theorem entitled_step {ok : State Id → Act Id → Prop} {store : StoreFile} {rotated : Bool}
    {io : Io} {d : Discoverability} {relay : Option String} {tr : List (Step Id)} {s s' : State Id}
    {a : Act Id} {out : List (Out Id)}
    (hrun : Run (machine C) ok (start C store rotated io d relay) tr s)
    (hs : step C s a = some (s', out)) {conn : Conn Id} {msg : ControlMessage}
    (hsent : .sent conn msg ∈ out) : ∃ p, a.actor = some p ∧ Entitled C tr s p conn msg := by
  rcases step_shared hs with ⟨-, rfl⟩ |
    ⟨p, env, t, instr, rest, kind, n, rfl, hget, htodo, hnext, -, rfl⟩
  · exact absurd hsent List.not_mem_nil
  · exact ⟨p, rfl, entitled_of_sent hget htodo ((fits_run hrun).head hget htodo)
      (accountable_run hrun p t hget) (directed_run hrun p t hget) (sent_case hnext hsent)⟩

/-- In every run, whatever is sent: the app has made a call for this peer that has this very message,
or it is a recognition to a peer that was paired, an identity that the discoverability permits, part
of a pairing-host session, or the question who it is to a peer that was seen on the local network and
not allowed. -/
theorem sent_entitled (C : Config Id) (store : StoreFile) (rotated : Bool) (io : Io)
    (d : Discoverability) (relay : Option String) (tr : List (Step Id)) (s : State Id)
    (hrun : Run (machine C) anyStep (start C store rotated io d relay) tr s) :
    Each (fun past e => ∀ conn msg, .sent conn msg ∈ e.out →
      ∃ p, e.act.actor = some p ∧ Entitled C past e.pre p conn msg) tr := by
  refine hrun.invariant_of_run (I := fun tr _ => Each _ tr) .nil fun {tr s s' a out} hprev hI _ hs => ?_
  exact hI.snoc fun conn msg hsent => entitled_step hprev hs hsent

/-! ### Alice asks Bob to pair -/

/-- Bob is seen, by task 1; he is probed by task 2, and the request is task 3. -/
def bobAsked : List (Act Key) :=
  supervisor ++ sighting 1 .bob ++ [.exec 2 (dialling 7)] ++ requestSent 3 .bob 1

/-- The theorem applies to a run in which Bob is asked who he is and then to pair. -/
theorem sent_entitled_bobAsked : ∃ tr s,
    Run (machine alice) anyStep (aliceStart .missing) tr s ∧
      (∃ e ∈ tr, .sent ⟨.bob, 7⟩ .whoAreYou ∈ e.out) ∧
      (∃ e ∈ tr, .sent ⟨.bob, 1⟩ (.pairRequest "Alice" "laptop" "linux") ∈ e.out) ∧
      Each (fun past e => ∀ conn msg, .sent conn msg ∈ e.out →
        ∃ p, e.act.actor = some p ∧ Entitled alice past e.pre p conn msg) tr := by
  obtain ⟨tr, s, hrun, htest⟩ := Run.of_check (machine alice) anyStep (aliceStart .missing) bobAsked
    (fun tr _ => (∃ e ∈ tr, .sent ⟨.bob, 7⟩ .whoAreYou ∈ e.out) ∧
      ∃ e ∈ tr, .sent ⟨.bob, 1⟩ (.pairRequest "Alice" "laptop" "linux") ∈ e.out) (by decide +kernel)
  obtain ⟨hprobed, hasked⟩ := of_decide_eq_true htest
  exact ⟨tr, s, hrun, hprobed, hasked,
    sent_entitled alice .missing false ⟨true, true⟩ .everyone none tr s hrun⟩

/-! ### Two nodes -/

/-- A user of node `i` has asked it to forget the other node. -/
def AsksToForget (C : Side → Config Id) (past : List (WorldStep Id)) (i : Side) : Prop :=
  ∃ d ∈ locally i past, ∃ id, d.act = .call (.forgetPaired id) ∧ (C i).Names id (peer C i)

/-- Between the two nodes, there is a reason for node `i` to unpair the other: one of the users, or node
`i` saw a connection close with the reason that the other does not know it. -/
def Parted (C : Side → Config Id) (past : List (WorldStep Id)) (i : Side) : Prop :=
  AsksToForget C past i ∨ AsksToForget C past i.other ∨
    ∃ d ∈ locally i past, ∃ p, RecognitionRefused p (peer C i) d

theorem asked_of_forget {C : Side → Config Id} {boot : Side → Boot} {tr : List (WorldStep Id)}
    {w : World Side (State Id) Flight}
    (hrun : Run (net C).machine anyStep (booted C boot) tr w) {e : WorldStep Id} (he : e ∈ tr)
    {o : Out Id} (ho : o ∈ e.out) {i : Side} {num : Nat} {signature : String}
    (hputs : (net C).puts e.act.1 o = some ⟨i, num, .forget signature⟩) : AsksToForget C tr i := by
  obtain ⟨past, hpast, hearlier, -, hs⟩ := hrun.of_mem he
  obtain ⟨wire, s, -, hstep, -⟩ := Net.step_some hs
  cases o with
  | sent conn msg =>
    simp only [net, puts] at hputs
    split at hputs
    · rename_i hremote
      obtain ⟨rfl, rfl, rfl⟩ := Flight.mk.inj (Option.some.inj hputs)
      obtain ⟨p, -, hentitled⟩ := entitled_step (hpast.party e.act.1) hstep ho
      cases hentitled with
      | call h =>
        obtain ⟨d, hd, call, id, hact, htarget, hnames, htells⟩ := h
        refine ⟨d, locally_subset hearlier hd, id, ?_, hremote ▸ hnames⟩
        cases call with
        | forgetPaired id' =>
          obtain rfl := Option.some.inj htarget
          exact hact
        | joinPairing | acceptNearbyInvite => rcases htells with htells | htells <;> cases htells
        | startPairingHost | stopPairingHost | setDiscoverability | refresh => exact htells.elim
        | _ => cases htells
      | hosting hkind hconn hmsg => rcases hmsg with hmsg | hmsg <;> cases hmsg
    · cases hputs
  | event | closed | returned => cases hputs

/-- In every run of two nodes, however their steps and messages interleave and whatever else their
surroundings do: a node unpairs the other only after one of the two users asked for it, or it saw a
connection close as one that the other refused. -/
theorem unpaired_between (C : Side → Config Id) (boot : Side → Boot) (tr : List (WorldStep Id))
    (w : World Side (State Id) Flight)
    (hrun : Run (net C).machine anyStep (booted C boot) tr w) :
    Each (fun past e => ∀ i, e.act.1 = i →
      Unpairs (C i) (peer C i) ⟨e.pre.node i, e.act.2, e.post.node i, e.out⟩ → Parted C past i) tr := by
  refine hrun.invariant_of_run (I := fun tr _ => Each _ tr) .nil
    fun {tr w w' a out} hprev hI _ hs => hI.snoc ?_
  rintro i rfl hunpairs
  obtain ⟨wire, s, -, hstep, rfl⟩ := Net.step_some hs
  simp only [Function.update_self] at hunpairs
  obtain ⟨p, env, t, instr, rest, -, hget, htodo, hagainst⟩ := against_of_unpairs hstep hunpairs
  obtain ⟨d, hd, hwarrant⟩ := (accountable_run (hprev.party a.1) p t hget).warranted instr
    (by rw [htodo]; simp) _ hagainst
  rcases hwarrant with ⟨id, hact, -, hnames⟩ | ⟨conn, msg, hact, hconn, hforget⟩ | hrefused
  · exact .inl ⟨d, hd, id, hact, hnames⟩
  · -- the `Forget` was in flight, so the other node sent it
    refine .inr (.inl ?_)
    obtain ⟨signature, rfl, hremote, -⟩ := hforget
    obtain ⟨e, he, hside, rfl⟩ := mem_locally.mp hd
    obtain ⟨past, hpast, hearlier, -, hs'⟩ := hprev.of_mem he
    obtain ⟨wire', s', htake, -, -⟩ := Net.step_some hs'
    have htakes : (net C).takes e.act.1 (e.pre.node e.act.1) e.act.2 =
        some ⟨a.1.other, conn.num, .forget signature⟩ := by
      rw [hside]
      dsimp only at hact hconn
      rw [hact]
      simp only [net, takes, hconn, hremote, if_true]
    rcases hpast.sent_of_wire _ ((takeOff_some htake).1 _ htakes) with hstart | ⟨e', he', o, ho, hputs⟩
    · exact absurd hstart List.not_mem_nil
    · exact asked_of_forget hprev (hearlier.subset he') ho hputs
  · exact .inr (.inr ⟨d, hd, p, hrefused⟩)

/-! ### Bob leaves Alice -/

def pairedBoot : Side → Boot
  | .a => ⟨.devices [recordOf .bob], false, ⟨true, true⟩, .everyone, none⟩
  | .b => ⟨.devices [recordOf .alice], false, ⟨true, true⟩, .everyone, none⟩

/-- Bob forgets Alice, as his task 2, and his task 3 tells her. Her session with him is task 2. -/
def bobLeaves : List (Side × Act Key) :=
  onSide .b (supervisor ++ forgotten 2 .alice ++ [.exec 3 (dialling 7)]) ++
    onSide .a (supervisor ++ .connect ⟨.bob, 7⟩ :: go 2 4 ++
      .recv 2 (.forget (Key.bob.sign 7)) :: go 2 10)

/-- The theorem applies to a run after which neither allows the other. -/
theorem unpaired_between_bobLeaves : ∃ tr w,
    Run (net couple).machine anyStep (booted couple pairedBoot) tr w ∧
      .bob ∉ (w.node .a).shared.allowed ∧ .alice ∉ (w.node .b).shared.allowed ∧
      Each (fun past e => ∀ i, e.act.1 = i →
        Unpairs (couple i) (peer couple i) ⟨e.pre.node i, e.act.2, e.post.node i, e.out⟩ →
          Parted couple past i) tr := by
  obtain ⟨tr, w, hrun, htest⟩ := Run.of_check (net couple).machine anyStep
    (booted couple pairedBoot) bobLeaves (fun _ w =>
      .bob ∉ (w.node .a).shared.allowed ∧ .alice ∉ (w.node .b).shared.allowed) (by decide +kernel)
  obtain ⟨ha, hb⟩ := of_decide_eq_true htest
  exact ⟨tr, w, hrun, ha, hb, unpaired_between couple pairedBoot tr w hrun⟩

end DashBeam.Node

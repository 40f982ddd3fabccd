import Mathlib.Algebra.BigOperators.Group.List.Basic
import DashBeam.Node.Alice
import DashBeam.Node.InviteAnswers

/-!
# Consent to a nearby pairing

`commit_nearby_pairing` stores and allows a peer because this device invited it. An invite is sent,
recorded as pending, taken out again by the peer's answer and committed, by two tasks and in this
order; what is on its way is counted by `outstanding`. Nothing of this is called off when the peer is
forgotten, unpaired or blocked, so a commit answers an invite sent after that exactly over the runs
in which nothing is outstanding then (`consent`).
-/

namespace DashBeam.Node

open Protocol Native Lib

set_option linter.unusedSectionVars false

variable {Id : Type} [DecidableEq Id] {C : Config Id}

/-! ### Invites, commits and revocations -/

/-- The peer a critical section forgets, unpairs or blocks. -/
def revokedBy (C : Config Id) (s : Shared Id) (env : Env) : Instr Id → Option Id
  | .common (.disallow x _) => some x
  | .common (.markUnpaired x) =>
    if (s.pairedStore.markUnpairedRemotely C.iroh env.io (C.iroh.toStr x)).1.isSome then some x
    else none
  | .connect (.unpairMark e _) =>
    if (s.pairedStore.markUnpairedRemotely C.iroh env.io e).1.isSome then C.iroh.fromStr e else none
  | .service (.forgetRecord e) =>
    if (s.pairedStore.forget C.iroh env.io e).1 then C.iroh.fromStr e else none
  | .service (.block e) => C.iroh.fromStr e
  | _ => none

/-- The peer a nearby invite or a pair request is sent to. -/
def invitedBy (env : Env) : Instr Id → Option Id
  | .service (.deliverWrite d conn) =>
    match d.purpose with
    | .nearbyInvite _ => if env.ok then some conn.remote else none
    | _ => none
  | _ => none

/-- The peer `commit_nearby_pairing` stores. -/
def committedBy (C : Config Id) (s : Shared Id) (env : Env) : Instr Id → Option Id
  | .common (.remember (.commitNearby x) device) =>
    if (s.pairedStore.remember C.iroh env.io device).1 then some x else none
  | _ => none

def revoked (C : Config Id) (s : State Id) (a : Act Id) : Option Id :=
  (doing s a).bind fun (instr, env) => revokedBy C s.shared env instr

def invited (s : State Id) (a : Act Id) : Option Id :=
  (doing s a).bind fun (instr, env) => invitedBy env instr

def committed (C : Config Id) (s : State Id) (a : Act Id) : Option Id :=
  (doing s a).bind fun (instr, env) => committedBy C s.shared env instr

def Kind.isControl : Kind Id → Bool
  | .control _ => true
  | _ => false

/-- The peer `commit_nearby_pairing` puts on the allowlist: only it does so in a control session. -/
def granted (s : State Id) : Act Id → Option Id
  | .exec p _ =>
    match nextInstr s p with
    | some (.common (.allow x)) => if (kindOf s p).any Kind.isControl then some x else none
    | _ => none
  | _ => none

/-- The invites sent to `x` since it was last forgotten, unpaired or blocked. -/
def invitesSince (C : Config Id) (x : Id) (tr : List (Step Id)) : Nat :=
  countSince (fun e => revoked C e.pre e.act = some x) (fun e => invited e.pre e.act = some x) tr

/-- The commits of `x` since then. -/
def commitsSince (C : Config Id) (x : Id) (tr : List (Step Id)) : Nat :=
  countSince (fun e => revoked C e.pre e.act = some x) (fun e => committed C e.pre e.act = some x) tr

/-- A peer is stored and allowed only for an invite sent to it since it was last revoked, and once
for each. -/
structure Consent (C : Config Id) (tr : List (Step Id)) : Prop where
  stored : Each (fun past e => ∀ x, committed C e.pre e.act = some x →
    commitsSince C x past < invitesSince C x past) tr
  allowed : Each (fun past e => ∀ x, granted e.pre e.act = some x → 0 < invitesSince C x past) tr

/-! ### What is outstanding -/

/-- The critical section is on the way from an invite to `x` to its commit. -/
def owes (C : Config Id) (x : Id) (kind : Kind Id) : Instr Id → Bool
  | .service (.insertPending e _) => e = C.iroh.toStr x
  | .control (.commitNearby _) => kind.sessionRemote = some x
  | .common (.remember (.commitNearby y) _) => y = x
  | _ => false

/-- How many invites to `x` a task is on the way with. -/
def Task.owed (C : Config Id) (x : Id) (t : Task Id) : Nat := t.todo.countP (owes C x t.kind)

/-- Whether an invite to `x` is pending. -/
def pendingTo (C : Config Id) (x : Id) (s : Shared Id) : Nat :=
  if (s.pendingNearbyInvites (C.iroh.toStr x)).isSome then 1 else 0

/-- The invites to `x` that are sent and neither committed nor dropped. -/
def outstanding (C : Config Id) (x : Id) (s : State Id) : Nat :=
  (s.procs.map (Task.owed C x)).sum + pendingTo C x s.shared

/-- When a peer is forgotten, unpaired or blocked, no invite to it is outstanding and none is just
being committed. -/
def NothingOutstanding (C : Config Id) (s : State Id) (a : Act Id) : Prop :=
  ∀ x ∈ revoked C s a, outstanding C x s = 0 ∧
    ∀ t ∈ s.procs, t.kind.isControl = true → .common (.allow x) ∉ t.todo

instance (s : State Id) (a : Act Id) : Decidable (NothingOutstanding C s a) :=
  inferInstanceAs (Decidable (∀ x ∈ _, _ ∧ _))

theorem owed_has {x : Id} {t : Task Id} {kind : Kind Id} {todo : List (Instr Id)}
    (h : t.Has kind todo) : t.owed C x ≤ todo.countP (owes C x kind) := by
  obtain ⟨rfl, htodo | ⟨htodo, -⟩⟩ := h
  · rw [Task.owed, htodo]
  · rw [Task.owed, htodo]
    exact Nat.zero_le _

theorem countP_owes_eq_zero {x : Id} {kind : Kind Id} {l : List (Instr Id)}
    (h : ∀ i ∈ l, owes C x kind i = false) : l.countP (owes C x kind) = 0 :=
  List.countP_eq_zero.mpr fun i hi => by rw [h i hi]; simp

theorem sum_owed_mapIdx_le {x : Id} {procs : List (Task Id)} (g : Nat → Task Id → Task Id)
    (hg : ∀ i t, (g i t).owed C x ≤ t.owed C x) :
    ((procs.mapIdx g).map (Task.owed C x)).sum ≤ (procs.map (Task.owed C x)).sum := by
  induction procs generalizing g with
  | nil => simp
  | cons t procs ih =>
    have htail := ih (fun i => g (i + 1)) (fun i => hg (i + 1))
    have hhead := hg 0 t
    simp only [List.mapIdx_cons, List.map_cons, List.sum_cons]
    omega

theorem sum_owed_abortAll_le {x : Id} (pids : List Nat) (procs : List (Task Id)) :
    ((abortAll pids procs).map (Task.owed C x)).sum ≤ (procs.map (Task.owed C x)).sum := by
  refine sum_owed_mapIdx_le _ fun pid t => ?_
  split
  · exact owed_has (Task.has_self t).abort
  · exact Nat.le_refl _

theorem owed_spawned {x : Id} {t : Task Id} (h : Spawned t) : t.owed C x = 0 := by
  cases h <;> exact countP_owes_eq_zero (by simp [connectTask, notifyTask, probeTask, expiryTask, owes])

/-! ### What a critical section adds -/

section Next

variable {x : Id} {kind kind' : Kind Id} {s : Shared Id} {fresh : Nat} {env : Env}

theorem owes_nextCommon {instr : CommonInstr Id} :
    ∀ i ∈ (nextCommon C s fresh env instr).push, owes C x kind i = false :=
  fun i hi => by cases commonPush_next hi <;> rfl

theorem owes_dispatch {c : ControlSession Id} {msg : ControlMessage} :
    ∀ i ∈ (dispatch C c msg).2, owes C x kind i = false := by
  have hhandled : ∀ i ∈ handlePairedControlMessage C c msg, owes C x kind i = false := by
    cases msg with
    | recognition | forget | inviteResponse =>
      simp only [handlePairedControlMessage, recognise]
      split <;> simp [owes]
    | _ => simp [handlePairedControlMessage, owes]
  unfold dispatch
  split
  · simp [owes]
  · split
    · rw [List.forall_mem_cons]
      exact ⟨rfl, hhandled⟩
    · exact hhandled

theorem owes_leaveSession {c : ControlSession Id} :
    ∀ i ∈ leaveSession C c, owes C x kind i = false := by
  unfold leaveSession
  split <;> simp [owes]

theorem owes_hostNext {h : HostSession Id} : ∀ i ∈ hostNext h, owes C x kind i = false := by
  unfold hostNext
  split <;> simp [owes]

theorem owes_stopPairingHost :
    ∀ i ∈ (stopPairingHost : List (Instr Id)), owes C x kind i = false := by
  simp [stopPairingHost, owes]

/-- Only a delivery puts an invite on its way. -/
theorem owes_nextService {instr : ServiceInstr Id}
    (hinstr : ∀ d conn, instr ≠ .deliverWrite d conn) :
    ∀ i ∈ (nextService C s env instr).push, owes C x kind i = false := by
  have hforget : ∀ e, ∀ i ∈ forgetRest C e, owes C x kind i = false := by
    intro e
    unfold forgetRest
    split <;> simp [owes]
  have herror : ∀ d, ∀ i ∈ (onError d : List (Instr Id)), owes C x kind i = false := by
    intro d
    unfold onError
    split <;> simp [owes]
  cases instr with
  | findNearby e msg =>
    simp only [nextService]
    split
    · unfold onFound
      split
      · split <;> simp [owes]
      · simp [owes]
    · simp [owes]
  | checkAllowed | forgetGet =>
    simp only [nextService]
    split <;> simp [owes]
  | deliverStored d =>
    simp only [nextService]
    split
    · split <;> simp [owes]
    · exact herror d
  | waitSession d =>
    simp only [nextService]
    split <;> simp [owes]
  | deliverDial d =>
    simp only [nextService]
    split
    · exact herror d
    · unfold onUnreached
      split <;> simp [owes]
    · simp only [recognise]
      split <;> simp [owes]
  | deliverWrite d conn => exact absurd rfl (hinstr d conn)
  | joinDial | notifyForget =>
    simp only [nextService]
    split <;> simp [owes]
  | joinReply conn relayUrl =>
    simp only [nextService, onHostReply]
    split
    · split
      · split <;> simp [owes]
      · simp [owes]
    · simp [owes]
  | forgetLive e =>
    simp only [nextService]
    split
    · simp [owes]
    · exact hforget e
  | forgetSend e conn =>
    simp only [nextService]
    split <;> exact hforget e
  | forgetRecord e =>
    simp only [nextService, managerForget]
    split <;> simp [owes]
  | setDiscoverability setting =>
    simp only [nextService]
    split
    · simp [owes]
    · rw [List.forall_mem_append]
      exact ⟨owes_stopPairingHost, by simp [owes]⟩
  | rebuild previous setting =>
    simp only [nextService]
    split
    · split <;> simp [owes]
    · simp [owes]
  | probeAccept | insertPending | block | restoreDiscoverability | clearNearby =>
    simp [nextService, owes]

/-- Only taking an invite, and going on to commit it, keeps one on its way in a session. -/
theorem owes_nextControl {c : ControlSession Id} {instr : ControlInstr}
    (htake : ∀ response, instr ≠ .takePending response)
    (hcommit : ∀ pending, instr ≠ .commitNearby pending) :
    ∀ i ∈ (nextControl C s c env instr).2.push, owes C x kind i = false := by
  cases instr with
  | recheckAllowed msg | chargeToken msg =>
    simp only [nextControl]
    split
    · exact owes_dispatch
    · simp [owes]
  | answerIdentity =>
    simp only [nextControl]
    split
    · simp [owes]
    · split <;> simp [owes]
  | hangUp => exact owes_leaveSession
  | registerInbound =>
    simp only [nextControl, setSession]
    split <;> simp [owes]
  | takePending response => exact absurd rfl (htake response)
  | commitNearby pending => exact absurd rfl (hcommit pending)
  | emitPairedName => simp [nextControl]

theorem owes_nextConnect {l : ConnectLoop Id} {instr : ConnectInstr Id} :
    ∀ i ∈ (nextConnect C s l env instr).2.push, owes C x kind i = false := by
  intro i hi
  cases connectPush_next hi <;> simp [owes]

theorem owes_nextLan {instr : LanInstr} :
    ∀ i ∈ (nextLan C s env instr).push, owes C x kind i = false := by
  cases instr with
  | observe | nudgeGet | nudgeSession | probe =>
    simp only [nextLan]
    split <;> (try split) <;> simp [owes]
  | _ => simp [nextLan, owes]

theorem owes_nextHost {h : HostSession Id} {instr : HostInstr} :
    ∀ i ∈ (nextHost C s h env instr).push, owes C x kind i = false := by
  cases instr with
  | hostHello | loadPersistent =>
    simp only [nextHost]
    split <;> simp [owes]
  | _ => simp [nextHost, owes]

theorem owes_nextAccept {conn : Conn Id} {instr : AcceptInstr} :
    ∀ i ∈ (nextAccept C s conn env instr).2.push, owes C x kind i = false := by
  intro i hi
  cases acceptPush_next hi <;> simp [owes]

theorem owes_nextWindow {instr : WindowInstr} :
    ∀ i ∈ (nextWindow s fresh instr : Next Id).push, owes C x kind i = false := by
  cases instr <;> simp [nextWindow, owes]

theorem pendingTo_eq {s s' : Shared Id}
    (h : s'.pendingNearbyInvites (C.iroh.toStr x) = s.pendingNearbyInvites (C.iroh.toStr x)) :
    pendingTo C x s' = pendingTo C x s := by
  rw [pendingTo, pendingTo, h]

/-- A critical section that neither records, takes nor commits an invite. -/
theorem owed_quiet {instr : Instr Id} {n : Next Id}
    (hpush : ∀ i ∈ n.push, owes C x kind' i = false)
    (hpending : (write C s kind fresh env instr).pendingNearbyInvites = s.pendingNearbyInvites)
    (hcommitted : committedBy C s env instr = some x → owes C x kind instr = true) :
    (if committedBy C s env instr = some x then 1 else 0) + n.push.countP (owes C x kind') +
        pendingTo C x (write C s kind fresh env instr) ≤
      (if invitedBy env instr = some x then 1 else 0) +
        (if owes C x kind instr then 1 else 0) + pendingTo C x s := by
  rw [countP_owes_eq_zero hpush, pendingTo_eq (s := s) (by rw [hpending])]
  by_cases h : committedBy C s env instr = some x
  · rw [if_pos h, if_pos (hcommitted h)]
    omega
  · rw [if_neg h]
    omega

/-- What a critical section of a fitting task commits, and leaves outstanding, was outstanding or is
an invite it sent. -/
theorem owed_next {instr : Instr Id} {n : Next Id} (hfits : Fits C kind instr)
    (hnext : next C s kind fresh env instr = some (kind', n)) :
    (if committedBy C s env instr = some x then 1 else 0) + n.push.countP (owes C x kind') +
        pendingTo C x (write C s kind fresh env instr) ≤
      (if invitedBy env instr = some x then 1 else 0) +
        (if owes C x kind instr then 1 else 0) + pendingTo C x s := by
  cases next_case hnext with
  | @common instr =>
    refine owed_quiet owes_nextCommon (by rw [write_pending]) fun h => ?_
    cases instr with
    | remember flow device =>
      cases flow with
      | commitNearby y =>
        simp only [committedBy] at h
        split at h
        · obtain rfl := Option.some.inj h
          simp [owes]
        · cases h
      | pairingHost | join | acceptNearby => cases h
    | _ => cases h
  | @service instr =>
    cases instr with
    | deliverWrite d conn =>
      have hpending : pendingTo C x (write C s kind fresh env (.service (.deliverWrite d conn))) =
          pendingTo C x s := pendingTo_eq (by rw [write_pending])
      rw [hpending, if_neg (by simp [committedBy])]
      cases kind with
      | call call =>
        obtain ⟨hd, hconn⟩ := hfits
        simp only [nextService]
        split
        · rename_i hok
          unfold Delivery.Of at hd
          unfold onSent
          cases hpurpose : d.purpose with
          | nearbyInvite pending =>
            rw [hpurpose] at hd
            have hremote := hconn hd.2
            simp only [invitedBy, hpurpose, hok, if_true, List.countP_cons, List.countP_nil, owes,
              decide_eq_true_eq]
            by_cases he : d.endpointId = C.iroh.toStr x
            · rw [he, C.iroh.fromStr_toStr] at hremote
              rw [if_pos he, if_pos hremote.symm]
              simp
            · rw [if_neg he]
              simp
          | pairedInvite | accept | decline | respond =>
            simp [owes]
        · have herror : ∀ i ∈ (onError d : List (Instr Id)), owes C x (.call call) i = false := by
            unfold onError
            split <;> simp [owes]
          rw [countP_owes_eq_zero herror]
          omega
      | inbound | control | host | connect | expiry | lan | background => exact hfits.elim
    | insertPending e pending =>
      rw [countP_owes_eq_zero (owes_nextService (by simp)), if_neg (by simp [committedBy])]
      simp only [pendingTo, write_pending, owes, decide_eq_true_eq]
      by_cases he : e = C.iroh.toStr x
      · rw [if_pos he, he, Function.update_self]
        simp
        omega
      · rw [Function.update_of_ne (fun h => he h.symm)]
        omega
    | _ =>
      refine owed_quiet (owes_nextService (by simp)) (by rw [write_pending]) ?_
      simp [committedBy]
  | window => exact owed_quiet owes_nextWindow (by rw [write_pending]) (by simp [committedBy])
  | lan => exact owed_quiet owes_nextLan (by rw [write_pending]) (by simp [committedBy])
  | accept hkind => exact owed_quiet owes_nextAccept (by rw [write_pending]) (by simp [committedBy])
  | host hkind => exact owed_quiet owes_nextHost (by rw [write_pending]) (by simp [committedBy])
  | connect hkind => exact owed_quiet owes_nextConnect (by rw [write_pending]) (by simp [committedBy])
  | @control instr c hkind =>
    subst hkind
    cases instr with
    | takePending response =>
      rw [if_neg (by simp [committedBy])]
      simp only [nextControl]
      by_cases hremote : c.conn.remote = x
      · subst hremote
        simp only [pendingTo, write_pending, Kind.remote, Function.update_self]
        split
        · simp
        · rename_i pending hpending
          rw [hpending]
          split <;> simp [owes, Kind.sessionRemote]
      · have hne : C.iroh.toStr x ≠ C.iroh.toStr c.conn.remote :=
          fun h => hremote (C.iroh.toStr_injective h).symm
        have hpending : pendingTo C x (write C s (.control c) fresh env
            (.control (.takePending response))) = pendingTo C x s := by
          refine pendingTo_eq ?_
          rw [write_pending]
          exact Function.update_of_ne hne _ _
        rw [hpending]
        split
        · simp
        · split <;> simp [owes, Kind.sessionRemote, hremote]
    | commitNearby pending =>
      rw [pendingTo_eq (s := s) (by rw [write_pending]), if_neg (by simp [committedBy])]
      simp [nextControl, List.countP_cons, owes, Kind.sessionRemote]
    | _ =>
      refine owed_quiet (owes_nextControl (by simp) (by simp)) (by rw [write_pending]) ?_
      simp [committedBy]

end Next

/-! ### What a step adds -/

theorem sessionRemote_of_kindStep {kind kind' : Kind Id} (h : KindStep kind kind')
    (hinbound : ∀ conn, kind ≠ .inbound conn) : kind'.sessionRemote = kind.sessionRemote := by
  cases kind with
  | inbound conn => exact absurd rfl (hinbound conn)
  | control c =>
    obtain ⟨c', rfl, hstep⟩ := h
    rw [Kind.sessionRemote, Kind.sessionRemote, hstep.conn]
  | connect l =>
    obtain ⟨l', rfl, -⟩ := h
    rfl
  | host | call | expiry | lan | background =>
    cases h
    rfl

theorem owes_of_sessionRemote {x : Id} {kind kind' : Kind Id}
    (h : kind'.sessionRemote = kind.sessionRemote) : owes C x kind' = owes C x kind := by
  funext i
  unfold owes
  rw [h]

/-- A message that was read, a connection that closed and a call that starts put nothing on its
way. -/
theorem owes_received {x : Id} {kind kind' : Kind Id} {msg : ControlMessage}
    {todo : List (Instr Id)} (h : received C kind msg = some (kind', todo)) :
    ∀ i ∈ todo, owes C x kind' i = false := by
  cases received_case h with
  | control c =>
    unfold receiveControl
    split
    · exact owes_dispatch
    · split <;> simp [owes]
  | host c =>
    cases msg with
    | pairingInfo =>
      simp only [receiveHost]
      split
      · simp [owes]
      · split
        · exact owes_hostNext
        · simp [owes]
    | invite | inviteResponse =>
      simp only [receiveHost, List.forall_mem_cons]
      exact ⟨rfl, owes_hostNext⟩
    | recognition | forget =>
      simp only [receiveHost, recognise]
      split
      · simp only [List.cons_append, List.nil_append, List.forall_mem_cons]
        first | exact ⟨rfl, rfl, owes_hostNext⟩ | exact ⟨rfl, owes_hostNext⟩
      · exact owes_hostNext
    | rememberVote | whoAreYou | identity | pairRequest => exact owes_hostNext
  | connect hconn =>
    cases msg with
    | recognition | forget =>
      simp only [readOutbound, recognise]
      split <;> simp [owes]
    | _ => simp [readOutbound, owes]

theorem owes_closedTodo {x : Id} {kind : Kind Id} {reason : String} :
    ∀ i ∈ closedTodo C kind reason, owes C x kind i = false := by
  cases kind with
  | control c => exact owes_leaveSession
  | host c =>
    simp only [closedTodo]
    split <;> simp [owes]
  | connect l =>
    simp only [closedTodo, backOff]
    split
    · split <;> simp [owes]
    · simp
  | inbound | call | expiry | lan | background => simp [closedTodo]

theorem owed_started {x : Id} {a : Act Id} {t : Task Id} (h : started C a = some t) :
    t.owed C x = 0 := by
  refine countP_owes_eq_zero ?_
  cases started_case h with
  | connect | appeared | vanished => simp [owes]
  | call call =>
    cases call with
    | declineNearbyInvite e block =>
      simp only [program]
      split <;> simp [owes]
    | invitePairedDevice | respondPairedInvite =>
      simp only [program]
      split <;> simp [owes]
    | startPairingHost ttlSecs =>
      simp only [program, startPairingHost, List.forall_mem_append]
      refine ⟨⟨⟨owes_stopPairingHost, by simp [owes]⟩, ?_⟩, by simp [owes]⟩
      split <;> simp [owes]
    | stopPairingHost =>
      simp only [program, List.forall_mem_append]
      exact ⟨owes_stopPairingHost, by simp [owes]⟩
    | _ => simp [program, owes]

theorem sum_owed_set {x : Id} {procs : List (Task Id)} {p : Nat} {t t' : Task Id}
    (hget : procs[p]? = some t) (h : t'.owed C x = 0) :
    ((procs.set p t').map (Task.owed C x)).sum ≤ (procs.map (Task.owed C x)).sum := by
  have hset := sum_map_set (Task.owed C x) hget t'
  omega

theorem outstanding_step {s s' : State Id} {a : Act Id} {out : List (Out Id)} (hfits : AllFit C s)
    (hs : step C s a = some (s', out)) (x : Id) :
    (if committed C s a = some x then 1 else 0) + outstanding C x s' ≤
      (if invited s a = some x then 1 else 0) + outstanding C x s := by
  unfold outstanding
  cases step_case hs with
  | @exec p env t instr rest kind n hget htodo hnext =>
    have hfit := hfits p t hget
    rw [htodo] at hfit
    have hnext' := owed_next (x := x) (hfit.fits instr (by simp)) hnext
    have hspawn : (n.spawn.map (Task.owed C x)).sum = 0 := by
      rw [List.sum_eq_zero]
      intro k hk
      obtain ⟨t', ht', rfl⟩ := List.mem_map.mp hk
      exact owed_spawned (next_spawn hnext ht')
    have hrest : rest.countP (owes C x kind) = rest.countP (owes C x t.kind) := by
      by_cases hinbound : ∃ conn, t.kind = .inbound conn
      · obtain ⟨conn, hconn⟩ := hinbound
        rw [hconn] at hfit
        obtain ⟨i, -, rfl⟩ := hfit.inbound
        rfl
      · have hsame := sessionRemote_of_kindStep (next_kind hnext)
          (fun conn hconn => hinbound ⟨conn, hconn⟩)
        rw [owes_of_sessionRemote hsame]
    have hbefore : t.owed C x =
        rest.countP (owes C x t.kind) + if owes C x t.kind instr then 1 else 0 := by
      rw [Task.owed, htodo, List.countP_cons]
    have hafter := owed_has (C := C) (x := x) (Task.has_settle kind (n.push ++ rest) t.aborted)
    rw [List.countP_append, hrest] at hafter
    have hset := sum_map_set (Task.owed C x) hget (Task.settle ⟨kind, n.push ++ rest, t.aborted⟩)
    have habort := sum_owed_abortAll_le (C := C) (x := x) n.abort
      (s.procs.set p (Task.settle ⟨kind, n.push ++ rest, t.aborted⟩) ++ n.spawn)
    rw [List.map_append, List.sum_append, hspawn] at habort
    simp only [committed, invited, doing_exec hget htodo, Option.bind_some]
    omega
  | @recv p msg kind kind' rest todo aborted hget hrecv =>
    have hzero : (Task.settle ⟨kind', todo, aborted⟩).owed C x = 0 := by
      have hle := owed_has (C := C) (x := x) (Task.has_settle kind' todo aborted)
      rw [countP_owes_eq_zero (owes_received hrecv)] at hle
      omega
    have hset := sum_owed_set hget hzero
    rw [if_neg (by simp [committed, doing])]
    simp only
    omega
  | @close p reason kind instr rest aborted hget hsees =>
    have hzero : (Task.settle ⟨kind, closedTodo C kind reason, aborted⟩).owed C x = 0 := by
      have hle := owed_has (C := C) (x := x)
        (Task.has_settle kind (closedTodo C kind reason) aborted)
      rw [countP_owes_eq_zero owes_closedTodo] at hle
      omega
    have hset := sum_owed_set hget hzero
    rw [if_neg (by simp [committed, doing])]
    simp only
    omega
  | @drop p kind instr rest hget hawaits =>
    have hset := sum_owed_set (C := C) (x := x) hget
      (show (Task.mk kind [] true).owed C x = 0 from rfl)
    rw [if_neg (by simp [committed, doing])]
    simp only
    omega
  | @start _ t hactor hstart =>
    have hdoing : doing s a = none := by
      cases a with
      | exec => cases hactor
      | _ => rfl
    rw [committed, hdoing, Option.bind_none, if_neg (by simp), List.map_append, List.sum_append]
    simp only [List.map_cons, List.map_nil, List.sum_cons, List.sum_nil, owed_started hstart]
    omega

/-! ### The allowlist -/

theorem committed_of_allow {s : Shared Id} {c : ControlSession Id} {kind' : Kind Id} {fresh : Nat}
    {env : Env} {instr : Instr Id} {n : Next Id} {x : Id} (hfits : ControlFits C c instr)
    (hnext : next C s (.control c) fresh env instr = some (kind', n))
    (hmem : .common (.allow x) ∈ n.push) : committedBy C s env instr = some x := by
  cases next_case hnext with
  | @common instr =>
    cases instr with
    | remember flow device =>
      obtain ⟨rfl, -, -⟩ := hfits
      simp only [nextCommon, afterRemember] at hmem
      split at hmem
      · rename_i hstored
        simp only [List.mem_cons, Instr.common.injEq, reduceCtorEq, CommonInstr.allow.injEq,
          List.not_mem_nil, or_false, false_or] at hmem
        rw [committedBy, if_pos hstored, hmem]
      · simp at hmem
    | markUnpaired | setPresence | removeSession | removeSessionIf | refreshList =>
      simp only [nextCommon, managerForget] at hmem
      split at hmem <;> simp at hmem
    | _ => simp [nextCommon] at hmem
  | control => cases controlPush_next hmem
  | service | window | lan => exact hfits.elim
  | accept hkind | host hkind | connect hkind => cases hkind

/-! ### The invariant -/

/-- Every commit, and everything outstanding, has an invite of its own since the last revocation; and
a session about to allow a peer has committed it since. -/
structure ConsentInv (C : Config Id) (tr : List (Step Id)) (s : State Id) : Prop where
  balance : ∀ x, commitsSince C x tr + outstanding C x s ≤ invitesSince C x tr
  granting : ∀ x (p : Nat) (t : Task Id), s.procs[p]? = some t → t.kind.isControl = true →
    .common (.allow x) ∈ t.todo → 0 < commitsSince C x tr

theorem invitedBy_of_revokedBy {s : Shared Id} {env : Env} {instr : Instr Id} {x : Id}
    (h : revokedBy C s env instr = some x) :
    invitedBy env instr = none ∧ committedBy C s env instr = none := by
  unfold revokedBy at h
  split at h <;> first | exact ⟨rfl, rfl⟩ | cases h

theorem invitedBy_of_committedBy {s : Shared Id} {env : Env} {instr : Instr Id} {x : Id}
    (h : committedBy C s env instr = some x) : invitedBy env instr = none := by
  unfold committedBy at h
  split at h
  · rfl
  · cases h

theorem invited_of_revoked {s : State Id} {a : Act Id} {x : Id} (h : revoked C s a = some x) :
    invited s a = none ∧ committed C s a = none := by
  obtain ⟨⟨instr, env⟩, hdoing, hrevoked⟩ := Option.bind_eq_some_iff.mp h
  rw [invited, committed, hdoing]
  exact invitedBy_of_revokedBy hrevoked

theorem commitsSince_snoc {tr : List (Step Id)} {e : Step Id} {x : Id}
    (h : revoked C e.pre e.act ≠ some x) : commitsSince C x (tr ++ [e]) =
      commitsSince C x tr + if committed C e.pre e.act = some x then 1 else 0 := by
  rw [commitsSince, countSince_snoc, if_neg (by simpa using h)]
  simp only [decide_eq_true_eq]
  rfl

theorem invitesSince_snoc {tr : List (Step Id)} {e : Step Id} {x : Id}
    (h : revoked C e.pre e.act ≠ some x) : invitesSince C x (tr ++ [e]) =
      invitesSince C x tr + if invited e.pre e.act = some x then 1 else 0 := by
  rw [invitesSince, countSince_snoc, if_neg (by simpa using h)]
  simp only [decide_eq_true_eq]
  rfl

theorem ConsentInv.step {tr : List (Step Id)} {s s' : State Id} {a : Act Id} {out : List (Out Id)}
    (h : ConsentInv C tr s) (hfits : AllFit C s) (hok : NothingOutstanding C s a)
    (hs : Node.step C s a = some (s', out)) : ConsentInv C (tr ++ [⟨s, a, s', out⟩]) s' := by
  constructor
  · intro x
    have hstep := outstanding_step hfits hs x
    have hbefore := h.balance x
    by_cases hrevoked : revoked C s a = some x
    · obtain ⟨hinvited, hcommitted⟩ := invited_of_revoked hrevoked
      rw [hinvited, (hok x hrevoked).1] at hstep
      rw [commitsSince, invitesSince, countSince_snoc, countSince_snoc,
        if_pos (by simpa using hrevoked), if_pos (by simpa using hrevoked)]
      simp only [reduceCtorEq, if_false] at hstep
      omega
    · rw [commitsSince_snoc hrevoked, invitesSince_snoc hrevoked]
      dsimp only
      omega
  · intro x q t' hq hcontrol hmem
    -- a session that was about to allow `x` before still has a commit of it since the revocation
    have hkept : ∀ (t : Task Id), s.procs[q]? = some t → t.kind.isControl = true →
        .common (.allow x) ∈ t.todo → 0 < commitsSince C x (tr ++ [⟨s, a, s', out⟩]) := by
      intro t hget hc hallow
      by_cases hrevoked : revoked C s a = some x
      · exact absurd hallow ((hok x hrevoked).2 t (List.mem_of_getElem? hget) hc)
      · have hbefore := h.granting x q t hget hc hallow
        rw [commitsSince_snoc hrevoked]
        omega
    obtain ⟨kind, todo, horigin, hhas⟩ := step_origin hs hq
    have hmem := hhas.mem hmem
    rw [hhas.1] at hcontrol
    cases horigin with
    | kept hne hget => exact hkept _ hget hcontrol hmem
    | @exec env t instr rest kind n hget htodo hnext =>
      have hfit := hfits q t hget
      rw [htodo] at hfit
      have hk := next_kind hnext
      cases hkind : t.kind with
      | control c =>
        rcases List.mem_append.mp hmem with hmem | hmem
        · have hcommitted : committed C s (.exec q env) = some x := by
            rw [committed, doing_exec hget htodo, Option.bind_some]
            rw [hkind] at hnext hfit
            exact committed_of_allow (hfit.fits instr (by simp)) hnext hmem
          have hrevoked : revoked C s (.exec q env) ≠ some x := by
            intro hrevoked
            rw [(invited_of_revoked hrevoked).2] at hcommitted
            cases hcommitted
          rw [commitsSince_snoc hrevoked, if_pos hcommitted]
          omega
        · exact hkept t hget (by rw [hkind]; rfl) (by rw [htodo]; simp [hmem])
      | inbound conn =>
        rw [hkind] at hnext hfit
        obtain ⟨i, rfl, rfl⟩ := hfit.inbound
        cases next_case hnext with
        | accept =>
          rw [List.append_nil] at hmem
          cases acceptPush_next hmem
      | connect l =>
        rw [hkind] at hk
        obtain ⟨l', rfl, -⟩ := hk
        cases hcontrol
      | host | call | expiry | lan | background =>
        rw [hkind] at hk
        cases hk
        cases hcontrol
    | recv hget hrecv =>
      cases received_case hrecv with
      | control c => cases controlPush_receive hmem
      | host | connect => cases hcontrol
    | @close reason kind instr rest aborted hget hsees =>
      cases kind with
      | control c =>
        simp only [closedTodo, leaveSession] at hmem
        split at hmem <;> simp at hmem
      | _ => cases hcontrol
    | drop hget => simp at hmem
    | spawned hget hnext hmem' hnew =>
      cases next_spawn hnext hmem' <;> cases hcontrol
    | @started a t hactor hstart hnew =>
      cases started_case hstart with
      | connect | call | appeared | vanished => cases hcontrol

theorem consentInv_start (store : StoreFile) (rotated : Bool) (io : Io) (d : Discoverability)
    (relay : Option String) : ConsentInv C [] (start C store rotated io d relay) := by
  constructor
  · intro x
    exact Nat.zero_le _
  · intro x p t hp hcontrol
    obtain rfl := eq_of_start hp
    cases hcontrol

/-- In every run in which no invite to a peer is outstanding when the peer is forgotten, unpaired or
blocked, a peer is stored and allowed only for an invite sent to it since, and once for each. -/
theorem consent (C : Config Id) (store : StoreFile) (rotated : Bool) (io : Io)
    (d : Discoverability) (relay : Option String) (tr : List (Step Id)) (s : State Id)
    (hrun : Run (machine C) (NothingOutstanding C) (start C store rotated io d relay) tr s) :
    Consent C tr := by
  have hinv : ConsentInv C tr s ∧ Consent C tr := by
    refine hrun.invariant_of_run (I := fun tr s => ConsentInv C tr s ∧ Consent C tr)
      ⟨consentInv_start store rotated io d relay, .nil, .nil⟩ ?_
    rintro tr s s' a out hprev ⟨h, hconsent⟩ hok (hs : step C s a = some (s', out))
    have hfits := fits_run hprev
    refine ⟨h.step hfits hok hs, hconsent.stored.snoc ?_, hconsent.allowed.snoc ?_⟩
    · intro x (hcommitted : committed C s a = some x)
      -- what is committed was outstanding
      have hinvited : invited s a ≠ some x := by
        obtain ⟨⟨instr, env⟩, hdoing, hby⟩ := Option.bind_eq_some_iff.mp hcommitted
        have hnone : invited s a = none := by
          rw [invited, hdoing]
          exact invitedBy_of_committedBy hby
        rw [hnone]
        simp
      have hstep := outstanding_step hfits hs x
      rw [if_pos hcommitted, if_neg hinvited] at hstep
      have hbalance := h.balance x
      omega
    · intro x (hgranted : granted s a = some x)
      cases a with
      | exec p env =>
        simp only [granted] at hgranted
        split at hgranted
        · rename_i y hinstr
          split at hgranted
          · rename_i hcontrol
            obtain rfl := Option.some.inj hgranted
            obtain ⟨t, rest, hget, htodo⟩ := exists_of_nextInstr hinstr
            rw [kindOf_eq hget] at hcontrol
            have hcommits := h.granting y p t hget hcontrol (by rw [htodo]; simp)
            have hbalance := h.balance y
            omega
          · cases hgranted
        · cases hgranted
      | recv | close | drop | connect | call | lan => cases hgranted
  exact hinv.2

/-! ### Bob is forgotten and comes back -/

/-- Alice has asked Bob to pair, then accepts an invite of his and forgets him; his answer to her own
request arrives after that. -/
def forgottenAndBack : List (Act Key) :=
  supervisor ++ sighting 1 .bob ++ requestSent 3 .bob 7 ++ go 3 2 ++ accepted 4 .bob 8 ++
    inviteAccepted 5 .bob 9 ++ forgotten 7 .bob ++ [.recv 4 (.inviteResponse "" .accepted)] ++ go 4 4

/-- He is paired again, and no invite was sent to him since he was forgotten. -/
theorem commits_forgotten : ¬ ∀ tr s,
    Run (machine alice) anyStep (aliceStart .missing) tr s → Consent alice tr := by
  intro hclaim
  obtain ⟨tr, s, hrun, htest⟩ := Run.of_check (machine alice) anyStep (aliceStart .missing)
    forgottenAndBack (fun tr _ => ∃ e ∈ tr.getLast?, committed alice e.pre e.act = some .bob ∧
      invitesSince alice .bob tr.dropLast = 0) (by decide +kernel)
  obtain ⟨e, he, hcommitted, hnone⟩ := of_decide_eq_true htest
  have hlt := (hclaim tr s hrun).stored tr.dropLast e [] (List.dropLast_append_getLast? e he).symm
    .bob hcommitted
  omega

/-- Alice pairs with Bob through her request, and forgets him afterwards. -/
def pairedAndForgotten : List (Act Key) :=
  supervisor ++ sighting 1 .bob ++ requestSent 3 .bob 7 ++ go 3 2 ++ accepted 4 .bob 8 ++
    [.recv 4 (.inviteResponse "" .accepted)] ++ go 4 10 ++ forgotten 6 .bob

/-- The theorem applies to a run in which Bob is committed and, with nothing outstanding,
forgotten. -/
theorem consent_pairedAndForgotten :
    ∃ tr s, Run (machine alice) (NothingOutstanding alice) (aliceStart .missing) tr s ∧
      (∃ e ∈ tr, committed alice e.pre e.act = some .bob) ∧ s.shared.allowed = ∅ ∧
      Consent alice tr := by
  obtain ⟨tr, s, hrun, htest⟩ := Run.of_check (machine alice) (NothingOutstanding alice)
    (aliceStart .missing) pairedAndForgotten (fun tr s =>
      (∃ e ∈ tr, committed alice e.pre e.act = some .bob) ∧ s.shared.allowed = ∅)
    (by decide +kernel)
  obtain ⟨hcommitted, hallowed⟩ := of_decide_eq_true htest
  exact ⟨tr, s, hrun, hcommitted, hallowed,
    consent alice .missing false ⟨true, true⟩ .everyone none tr s hrun⟩

end DashBeam.Node

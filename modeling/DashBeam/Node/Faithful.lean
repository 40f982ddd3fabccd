import DashBeam.Node.Slots

/-!
# Pairings that stay

A node that is not asked to forget a peer, and hears no `Forget` from it, takes the peer's pairing
back in one case only: a connect loop whose `Recognition` was refused does, once the pairing no longer
counts as settling. In the runs without that (`KeepsPairing`) no task ever has anything to do that
severs the pairing (`AllFaithful`), so a pairing that is in place stays (`Paired.step`), and the node
does not tell the peer to forget it either (`forget_unsent_step`).
-/

namespace DashBeam.Node

open Protocol Native Lib

set_option linter.unusedSectionVars false

variable {Id : Type} [DecidableEq Id] {C : Config Id}

/-! ### The pairing -/

/-- The peer is on the allowlist and has an active record. -/
def Paired (C : Config Id) (s : Shared Id) (y : Id) : Prop :=
  y ∈ s.allowed ∧ StoreFile.ActiveAs C.iroh s.pairedStore.stored y

instance (s : Shared Id) (y : Id) : Decidable (Paired C s y) := inferInstanceAs (Decidable (_ ∧ _))

/-- The store and the maps take the string for a spelling of the id. -/
def Config.Names (C : Config Id) (e : String) (y : Id) : Prop := C.iroh.fromStr (C.key e) = some y

instance (e : String) (y : Id) : Decidable (C.Names e y) :=
  inferInstanceAs (Decidable (_ = _))

theorem names_of_fromStr {e : String} {y : Id} (h : C.iroh.fromStr e = some y) : C.Names e y :=
  C.iroh.fromStr_toLowercase h

theorem names_toStr {x y : Id} : C.Names (C.iroh.toStr x) y ↔ x = y := by
  rw [Config.Names, Config.key_toStr, C.iroh.fromStr_toStr, Option.some.injEq]

def isForget : ControlMessage → Bool
  | .forget _ => true
  | _ => false

/-- The critical section takes the pairing of `y` back or sends it a `Forget`, or leads to one that
does. -/
def Severs (C : Config Id) (y : Id) (kind : Kind Id) : Instr Id → Prop
  | .common (.markUnpaired id) | .common (.disallow id _) => id = y
  | .control (.recheckAllowed msg) | .control (.chargeToken msg) =>
    isForget msg = true ∧ kind.remote = some y
  | .connect (.unpairGet e _) | .connect (.unpairMark e _) => C.Names e y
  | .service (.forgetGet e) | .service (.forgetLive e) | .service (.forgetRecord e)
  | .service (.notifyForget e) => C.Names e y
  | .service (.forgetSend e conn) => C.Names e y ∨ conn.remote = y
  | .service (.findNearby _ msg) => isForget msg = true
  | .service (.checkAllowed _ d) | .service (.deliverStored d) | .service (.waitSession d)
  | .service (.deliverDial d) | .service (.deliverWrite d _) => isForget d.msg = true
  | _ => False

/-- Critical sections that sever no pairing whatever their arguments are. -/
def Instr.calm : Instr Id → Bool
  | .common (.markUnpaired _) | .common (.disallow ..) => false
  | .control (.recheckAllowed _) | .control (.chargeToken _) => false
  | .connect (.unpairGet ..) | .connect (.unpairMark ..) => false
  | .service (.forgetGet _) | .service (.forgetLive _) | .service (.forgetRecord _)
  | .service (.notifyForget _) | .service (.forgetSend ..) | .service (.findNearby ..)
  | .service (.checkAllowed ..) | .service (.deliverStored _) | .service (.waitSession _)
  | .service (.deliverDial _) | .service (.deliverWrite ..) => false
  | _ => true

theorem not_severs_of_calm {y : Id} {kind : Kind Id} {i : Instr Id} (h : i.calm = true) :
    ¬ Severs C y kind i := by
  rcases i with i | i | i | i | i | i | i | i <;> cases i <;> first | exact id | cases h

/-- What the task has to do leaves the pairing of `y` alone. -/
def Task.Faithful (C : Config Id) (y : Id) (kind : Kind Id) (todo : List (Instr Id)) : Prop :=
  ∀ i ∈ todo, ¬ Severs C y kind i

theorem Task.Faithful.has {y : Id} {kind : Kind Id} {todo : List (Instr Id)} {t : Task Id}
    (h : Task.Faithful C y kind todo) (hhas : t.Has kind todo) :
    Task.Faithful C y t.kind t.todo := by
  obtain rfl := hhas.1
  exact fun i hi => h i (hhas.mem hi)

theorem Task.Faithful.append {y : Id} {kind : Kind Id} {push rest : List (Instr Id)}
    (hpush : Task.Faithful C y kind push) (hrest : Task.Faithful C y kind rest) :
    Task.Faithful C y kind (push ++ rest) := by
  intro i hi
  rcases List.mem_append.mp hi with hi | hi
  · exact hpush i hi
  · exact hrest i hi

theorem Task.Faithful.cons {y : Id} {kind : Kind Id} {i : Instr Id} {rest : List (Instr Id)}
    (hi : ¬ Severs C y kind i) (hrest : Task.Faithful C y kind rest) :
    Task.Faithful C y kind (i :: rest) :=
  List.forall_mem_cons.mpr ⟨hi, hrest⟩

theorem Task.Faithful.of_calm {y : Id} {kind : Kind Id} {todo : List (Instr Id)}
    (h : todo.all Instr.calm = true) : Task.Faithful C y kind todo :=
  fun i hi => not_severs_of_calm (List.all_eq_true.mp h i hi)

/-! ### The store and the allowlist -/

section Write

variable {s : Shared Id} {kind : Kind Id} {fresh : Nat} {env : Env} {instr : Instr Id} {y : Id}

theorem activeAs_write (hnot : ¬ Severs C y kind instr)
    (h : StoreFile.ActiveAs C.iroh s.pairedStore.stored y) :
    StoreFile.ActiveAs C.iroh (write C s kind fresh env instr).pairedStore.stored y := by
  rw [write_pairedStore]
  split
  · exact h.remember
  · rename_i id
    refine h.markUnpaired C.iroh ?_
    rw [C.iroh.toLowercase_toStr, C.iroh.fromStr_toStr]
    exact fun heq => hnot (Option.some.inj heq)
  · exact h.touch
  · exact h.forget C.iroh hnot
  · exact h.markUnpaired C.iroh hnot
  · exact h

theorem allowed_write (hnot : ¬ Severs C y kind instr) (h : y ∈ s.allowed) :
    y ∈ (write C s kind fresh env instr).allowed := by
  rw [write_allowed]
  split
  · exact Finset.mem_insert_of_mem h
  · exact Finset.mem_erase.mpr ⟨fun heq => hnot heq.symm, h⟩
  · exact h

theorem Paired.write (hnot : ¬ Severs C y kind instr) (h : Paired C s y) :
    Paired C (write C s kind fresh env instr) y :=
  ⟨allowed_write hnot h.1, activeAs_write hnot h.2⟩

end Write

/-! ### Faithful tasks stay faithful -/

section Next

variable {s : Shared Id} {fresh : Nat} {env : Env} {y : Id} {kind : Kind Id}

theorem faithful_nextCommon {instr : CommonInstr Id} (hnot : ¬ Severs C y kind (.common instr)) :
    Task.Faithful C y kind (nextCommon C s fresh env instr).push := by
  cases instr with
  | remember flow device =>
    cases flow with
    | pairingHost => exact .of_calm rfl
    | join | commitNearby =>
      simp only [nextCommon, afterRemember]
      split <;> exact .of_calm rfl
    | acceptNearby e =>
      simp only [nextCommon, afterRemember]
      split
      · split
        · exact .cons id (.cons id (.cons id (.cons Bool.false_ne_true (.of_calm rfl))))
        · exact .of_calm rfl
      · exact .of_calm rfl
  | markUnpaired id =>
    simp only [nextCommon]
    split
    · exact .cons hnot (.of_calm rfl)
    · exact .of_calm rfl
  | setPresence | removeSession | removeSessionIf | refreshList =>
    simp only [nextCommon]
    split <;> exact .of_calm rfl
  | _ => exact .of_calm rfl

theorem faithful_onFound {e : String} {msg : ControlMessage} {device : NearbyDevice}
    (hnot : ¬ isForget msg = true) : Task.Faithful C y kind (onFound C e msg device) := by
  unfold onFound
  split
  · split
    · exact .of_calm rfl
    · exact .cons hnot (.of_calm rfl)
  · exact .cons hnot (.of_calm rfl)

theorem faithful_onSent {d : Delivery} : Task.Faithful C y kind (onSent d) := by
  unfold onSent
  split <;> exact .of_calm rfl

theorem faithful_onUnreached {d : Delivery} : Task.Faithful C y kind (onUnreached d) := by
  unfold onUnreached
  split <;> exact .of_calm rfl

theorem faithful_onError {d : Delivery} : Task.Faithful C y kind (onError d) := by
  unfold onError
  split <;> exact .of_calm rfl

theorem faithful_forgetRest {e : String} (hnot : ¬ C.Names e y) :
    Task.Faithful C y kind (forgetRest C e) := by
  unfold forgetRest
  split
  · rename_i id hid
    have hne : id ≠ y := fun heq => hnot (names_of_fromStr (heq ▸ hid))
    exact .cons hne (.cons hnot (.of_calm rfl))
  · exact .cons hnot (.of_calm rfl)

theorem faithful_nextService {instr : ServiceInstr Id}
    (hnamed : ∀ key conn, s.sessions key = some conn → C.iroh.fromStr key = some conn.remote)
    (hnot : ¬ Severs C y kind (.service instr)) :
    Task.Faithful C y kind (nextService C s env instr).push := by
  cases instr with
  | findNearby e msg =>
    simp only [nextService]
    split
    · exact faithful_onFound hnot
    · exact .of_calm rfl
  | checkAllowed id d =>
    simp only [nextService]
    split
    · exact .cons hnot (.of_calm rfl)
    · exact .of_calm rfl
  | deliverStored d =>
    simp only [nextService]
    split
    · split <;> exact .cons hnot (.of_calm rfl)
    · exact faithful_onError
  | waitSession d =>
    simp only [nextService]
    split <;> exact .cons hnot (.of_calm rfl)
  | deliverDial d =>
    simp only [nextService]
    split
    · exact faithful_onError
    · exact faithful_onUnreached
    · refine .append ?_ (.cons hnot (.of_calm rfl))
      split <;> exact .of_calm rfl
  | deliverWrite d conn =>
    simp only [nextService]
    split
    · exact faithful_onSent
    · exact faithful_onError
  | joinDial e relayUrl =>
    simp only [nextService]
    split <;> exact .of_calm rfl
  | joinReply conn relayUrl =>
    simp only [nextService, onHostReply]
    split
    · split
      · split <;> exact .of_calm rfl
      · exact .of_calm rfl
    · exact .of_calm rfl
  | forgetGet e =>
    simp only [nextService]
    split
    · exact .cons hnot (.of_calm rfl)
    · exact .of_calm rfl
  | forgetLive e =>
    simp only [nextService]
    split
    · rename_i conn hheld
      have hremote := hnamed _ _ hheld
      have hne : conn.remote ≠ y := fun heq => hnot (heq ▸ hremote)
      exact .cons (fun h => h.elim hnot hne) (.of_calm rfl)
    · exact faithful_forgetRest hnot
  | forgetSend e conn =>
    have he : ¬ C.Names e y := fun he => hnot (.inl he)
    simp only [nextService]
    split <;> exact faithful_forgetRest he
  | forgetRecord e =>
    simp only [nextService]
    split <;> exact .of_calm rfl
  | notifyForget e =>
    simp only [nextService]
    split <;> exact .of_calm rfl
  | setDiscoverability setting =>
    simp only [nextService, stopPairingHost]
    split <;> exact .of_calm rfl
  | rebuild previous setting =>
    simp only [nextService]
    split
    · split <;> exact .of_calm rfl
    · exact .of_calm rfl
  | insertPending | probeAccept | block | restoreDiscoverability | clearNearby =>
    exact .of_calm rfl

theorem faithful_handlePaired {c : ControlSession Id} {msg : ControlMessage}
    (hmsg : isForget msg = true → c.conn.remote ≠ y) :
    Task.Faithful C y kind (handlePairedControlMessage C c msg) := by
  cases msg with
  | forget signature =>
    have hne : c.conn.remote ≠ y := hmsg rfl
    simp only [handlePairedControlMessage]
    split
    · exact .cons hne (.of_calm rfl)
    · exact .of_calm rfl
  | inviteResponse | recognition =>
    simp only [handlePairedControlMessage]
    split <;> exact .of_calm rfl
  | _ => exact .of_calm rfl

theorem faithful_dispatch {c : ControlSession Id} {msg : ControlMessage}
    (hmsg : isForget msg = true → c.conn.remote ≠ y) :
    Task.Faithful C y kind (dispatch C c msg).2 := by
  unfold dispatch
  split
  · exact .of_calm rfl
  · split
    · exact .cons id (faithful_handlePaired hmsg)
    · exact faithful_handlePaired hmsg

theorem faithful_leaveSession {c : ControlSession Id} :
    Task.Faithful C y kind (leaveSession C c) := by
  unfold leaveSession
  split <;> exact .of_calm rfl

theorem faithful_receiveControl {c : ControlSession Id} {msg : ControlMessage}
    (hmsg : isForget msg = true → c.conn.remote ≠ y) :
    Task.Faithful C y (.control (receiveControl C c msg).1) (receiveControl C c msg).2 := by
  unfold receiveControl
  split
  · exact faithful_dispatch hmsg
  · split
    · exact .cons (fun h => hmsg h.1 (Option.some.inj h.2)) (.of_calm rfl)
    · exact .cons (fun h => hmsg h.1 (Option.some.inj h.2)) (.of_calm rfl)

theorem faithful_nextControl {c : ControlSession Id} {instr : ControlInstr}
    (hnot : ¬ Severs C y (.control c) (.control instr)) :
    Task.Faithful C y kind (nextControl C s c env instr).2.push := by
  cases instr with
  | recheckAllowed msg =>
    simp only [nextControl]
    split
    · exact faithful_dispatch fun hmsg heq => hnot ⟨hmsg, congrArg some heq⟩
    · exact .of_calm rfl
  | chargeToken msg =>
    simp only [nextControl]
    split
    · exact faithful_dispatch fun hmsg heq => hnot ⟨hmsg, congrArg some heq⟩
    · exact .of_calm rfl
  | answerIdentity =>
    simp only [nextControl]
    split
    · exact .of_calm rfl
    · split <;> exact .of_calm rfl
  | hangUp => exact faithful_leaveSession
  | registerInbound =>
    simp only [nextControl]
    split <;> exact .of_calm rfl
  | takePending response =>
    simp only [nextControl]
    split
    · exact .of_calm rfl
    · split <;> exact .of_calm rfl
  | commitNearby | emitPairedName => exact .of_calm rfl

theorem faithful_nextHost {h : HostSession Id} {instr : HostInstr} :
    Task.Faithful C y kind (nextHost C s h env instr).push := by
  cases instr with
  | hostHello | loadPersistent =>
    simp only [nextHost]
    split <;> exact .of_calm rfl
  | hostInvite | hostRecord | hostVote => exact .of_calm rfl

theorem faithful_receiveHost {h : HostSession Id} {msg : ControlMessage}
    (hmsg : isForget msg = true → h.conn.remote ≠ y) :
    Task.Faithful C y kind (receiveHost C h msg).2 := by
  intro i hi
  cases hostReceives_of_mem hi with
  | forgotten heq =>
    subst heq
    exact hmsg rfl
  | read | record | invite | answer | touch | presence => exact id

/-- What a refused connect loop finds when its pairing is still settling. -/
def Settling (C : Config Id) (s : Shared Id) (env : Env) (e : String) : Bool :=
  ((s.pairedStore.get C.iroh env.io e).join).any fun existing =>
    env.nowMs - existing.pairedAt < recentPairingGraceMs

theorem faithful_nextConnect {l : ConnectLoop Id} {instr : ConnectInstr Id} {kind₀ : Kind Id}
    (hsettling : instr = .settling → C.Names l.endpointId y →
      Settling C s env l.endpointId = true)
    (hnot : ¬ Severs C y kind₀ (.connect instr)) :
    Task.Faithful C y kind (nextConnect C s l env instr).2.push := by
  have hbackOff : Task.Faithful C y kind backOff := .of_calm rfl
  have hskipped : ∀ cause : UnpairCause Id, Task.Faithful C y kind (unpairSkipped cause) := by
    intro cause
    cases cause with
    | forgetReceived => exact .of_calm rfl
    | recognitionRefused => exact hbackOff
  cases instr with
  | loopTop =>
    simp only [nextConnect]
    split
    · split <;> exact .of_calm rfl
    · exact .of_calm rfl
  | dial =>
    simp only [nextConnect]
    split
    · exact .of_calm rfl
    · exact .cons id hbackOff
  | settling =>
    by_cases hname : C.Names l.endpointId y
    · -- a pairing with the peer itself is still settling, so the loop just tries again
      have hfound := hsettling rfl hname
      rw [Settling, Option.any_eq_true] at hfound
      obtain ⟨existing, hget, hrecent⟩ := hfound
      simp only [nextConnect, hget]
      rw [if_pos (of_decide_eq_true hrecent)]
      exact hbackOff
    · simp only [nextConnect]
      split
      · split
        · exact hbackOff
        · exact .cons hname (.of_calm rfl)
      · exact .cons hname (.of_calm rfl)
  | unpairGet e cause =>
    simp only [nextConnect]
    split
    · split
      · exact .cons hnot (.of_calm rfl)
      · exact hskipped cause
    · exact hskipped cause
  | unpairMark e cause =>
    have he : ¬ C.Names e y := hnot
    simp only [nextConnect]
    split
    · refine .append ?_ ?_
      · unfold unpairEffects
        split
        · rename_i id hid
          have hne : id ≠ y := fun heq => he (names_of_fromStr (heq ▸ hid))
          exact .cons hne (.of_calm rfl)
        · exact .of_calm rfl
      · unfold unpairApplied
        split <;> exact .of_calm rfl
    · exact hskipped cause

theorem faithful_readOutbound {conn : Conn Id} {msg : ControlMessage}
    (hmsg : isForget msg = true → conn.remote ≠ y) :
    Task.Faithful C y kind (readOutbound C conn msg) := by
  cases msg with
  | recognition =>
    simp only [readOutbound]
    split <;> exact .of_calm rfl
  | forget =>
    have hne : conn.remote ≠ y := hmsg rfl
    simp only [readOutbound]
    split
    · exact .cons (fun h => hne (names_toStr.mp h)) (.of_calm rfl)
    · exact .of_calm rfl
  | _ => exact .of_calm rfl

theorem faithful_closedTodo {reason : String} :
    Task.Faithful C y kind (closedTodo C kind reason) := by
  cases kind with
  | control c => exact faithful_leaveSession
  | host h =>
    simp only [closedTodo]
    split <;> exact .of_calm rfl
  | connect l =>
    simp only [closedTodo]
    split
    · refine .cons id ?_
      split <;> exact .of_calm rfl
    · exact .of_calm rfl
  | _ => exact .of_calm rfl

theorem faithful_nextAccept {conn : Conn Id} {instr : AcceptInstr} :
    Task.Faithful C y kind (nextAccept C s conn env instr).2.push := by
  cases instr with
  | hookBlocked | hookDirectPath =>
    simp only [nextAccept]
    split <;> exact .of_calm rfl
  | hookAccess | acceptAllowed =>
    simp only [nextAccept]
    split
    · exact .of_calm rfl
    · split <;> exact .of_calm rfl
  | acceptWindow => exact .of_calm rfl

theorem faithful_nextLan {instr : LanInstr} :
    Task.Faithful C y kind (nextLan C s env instr).push := by
  cases instr with
  | observe | probe =>
    simp only [nextLan]
    split <;> exact .of_calm rfl
  | nudgeGet =>
    simp only [nextLan]
    split
    · split <;> exact .of_calm rfl
    · exact .of_calm rfl
  | nudgeSession =>
    simp only [nextLan]
    split <;> exact .of_calm rfl
  | _ => exact .of_calm rfl

theorem faithful_nextWindow {instr : WindowInstr} :
    Task.Faithful C y kind (nextWindow s fresh instr).push := by
  cases instr <;> exact .of_calm rfl

theorem faithful_program {call : Call}
    (hforget : ∀ e, call = .forgetPaired e → ¬ C.Names e y) :
    Task.Faithful C y kind (program C call) := by
  cases call with
  | forgetPaired e => exact .cons (hforget e rfl) (.of_calm rfl)
  | declineNearbyInvite e block =>
    cases block with
    | true => exact .cons id (.cons id (.cons Bool.false_ne_true (.of_calm rfl)))
    | false => exact .cons Bool.false_ne_true (.of_calm rfl)
  | invitePairedDevice | respondPairedInvite =>
    simp only [program]
    split
    · exact .cons Bool.false_ne_true (.of_calm rfl)
    · exact .of_calm rfl
  | startPairingHost ttlSecs =>
    simp only [program, startPairingHost, stopPairingHost]
    split <;> exact .of_calm rfl
  | inviteNearbyDevice | requestNearbyPair =>
    exact .cons Bool.false_ne_true (.of_calm rfl)
  | acceptNearbyInvite | joinPairing | stopPairingHost | setDiscoverability | refresh =>
    exact .of_calm rfl

variable {kind' : Kind Id} {n : Next Id} {instr : Instr Id}

theorem faithful_spawned (hnext : next C s kind fresh env instr = some (kind', n))
    (hnot : ¬ Severs C y kind instr) {t : Task Id} (hmem : t ∈ n.spawn) :
    Task.Faithful C y t.kind t.todo := by
  cases spawn_case hnext hmem with
  | connect device => exact .of_calm rfl
  | probe e => exact .of_calm rfl
  | expiry => exact .of_calm rfl
  | notify hforget =>
    refine .cons ?_ (.of_calm rfl)
    rcases hforget with rfl | ⟨conn, rfl⟩
    · exact hnot
    · exact fun he => hnot (.inl he)

/-- Only a critical section that severs the pairing sends a `Forget`. -/
theorem forget_unsent (hnext : next C s kind fresh env instr = some (kind', n))
    (hnot : ¬ Severs C y kind instr) {conn : Conn Id} {msg : ControlMessage}
    (hsent : .sent conn msg ∈ n.out) (hremote : conn.remote = y) : isForget msg = false := by
  cases next_case hnext with
  | @common instr =>
    cases instr with
    | markUnpaired | refreshList =>
      simp only [nextCommon] at hsent
      split at hsent <;> simp at hsent
    | _ => simp [nextCommon] at hsent
  | @service instr =>
    cases instr with
    | deliverWrite d conn' =>
      simp only [nextService] at hsent
      split at hsent
      · simp only [List.mem_singleton, Out.sent.injEq] at hsent
        rw [hsent.2]
        exact Bool.not_eq_true _ ▸ hnot
      · simp at hsent
    | joinDial e relayUrl =>
      simp only [nextService] at hsent
      split at hsent
      · simp only [List.mem_cons, Out.sent.injEq, List.not_mem_nil, or_false] at hsent
        rcases hsent with ⟨-, rfl⟩ | ⟨-, rfl⟩ <;> rfl
      · simp at hsent
    | forgetSend e conn' =>
      simp only [nextService] at hsent
      split at hsent
      · simp only [List.mem_singleton, Out.sent.injEq] at hsent
        rw [hsent.1] at hremote
        exact absurd (.inr hremote) hnot
      · simp at hsent
    | notifyForget e =>
      simp only [nextService] at hsent
      split at hsent
      · rename_i remote num hid _ _
        simp only [List.mem_singleton, Out.sent.injEq] at hsent
        rw [hsent.1] at hremote
        exact absurd (names_of_fromStr (hremote ▸ hid)) hnot
      · simp at hsent
    | findNearby | deliverStored | waitSession | deliverDial | forgetLive =>
      simp only [nextService] at hsent
      split at hsent <;> simp at hsent
    | probeAccept e =>
      obtain ⟨_, -, ho⟩ := sent_of_probe hsent
      cases ho
      rfl
    | _ => simp [nextService] at hsent
  | @window instr => cases instr <;> simp [nextWindow] at hsent
  | @lan instr =>
    cases instr with
    | probe e =>
      obtain ⟨_, -, ho⟩ := sent_of_probe hsent
      cases ho
      rfl
    | _ =>
      simp only [nextLan] at hsent
      (try split at hsent) <;> simp at hsent
  | @accept instr conn' hkind =>
    cases instr <;> simp only [nextAccept] at hsent <;> (try split at hsent) <;>
      (try split at hsent) <;> simp at hsent
  | @control instr c hkind =>
    cases instr with
    | answerIdentity =>
      simp only [nextControl] at hsent
      split at hsent
      · split at hsent
        · simp only [List.mem_singleton, Out.sent.injEq] at hsent
          rw [hsent.2]
          rfl
        · simp at hsent
      · split at hsent <;> simp at hsent
    | recheckAllowed | chargeToken | takePending =>
      simp only [nextControl] at hsent
      split at hsent <;> simp at hsent
    | _ => simp [nextControl] at hsent
  | @host instr h hkind =>
    cases instr with
    | hostHello | hostVote =>
      simp only [nextHost] at hsent
      split at hsent
      · simp only [List.mem_singleton, Out.sent.injEq] at hsent
        rw [hsent.2]
        rfl
      · simp at hsent
    | hostInvite =>
      simp only [nextHost] at hsent
      split at hsent <;> simp at hsent
    | _ => simp [nextHost] at hsent
  | @connect instr l hkind =>
    cases instr with
    | dial =>
      simp only [nextConnect] at hsent
      split at hsent
      · simp only [List.mem_singleton, Out.sent.injEq] at hsent
        rw [hsent.2]
        rfl
      · simp at hsent
    | loopTop | settling | unpairGet | unpairMark =>
      simp only [nextConnect] at hsent
      split at hsent <;> simp at hsent

end Next

/-! ### Runs that give no reason to unpair -/

/-- The id a call disowns: it is to be forgotten, or declined and blocked. -/
def disowned : Act Id → Option String
  | .call (.forgetPaired e) | .call (.declineNearbyInvite e true) => some e
  | _ => none

/-- The record an action stores. -/
def storing (s : State Id) (a : Act Id) : Option (PairedDevice × Env) :=
  match doing s a with
  | some (.common (.remember _ device), env) => some (device, env)
  | _ => none

/-- The peer to whose bucket a message is charged, and when. -/
def charging (s : State Id) : Act Id → Option (Id × Nat)
  | .exec p env =>
    match kindOf s p, nextInstr s p with
    | some (.control c), some (.control (.chargeToken _)) => some (c.conn.remote, env.instant)
    | _, _ => none
  | _ => none

/-- Nobody asks for `y` to be forgotten or blocked, every pairing that is stored goes to disk, and
the rate limiter lets the messages of `y` through. -/
def Undisturbed (C : Config Id) (y : Id) (s : State Id) (a : Act Id) : Prop :=
  (∀ e ∈ disowned a, ¬ C.Names e y) ∧
    (∀ x ∈ storing s a, (s.shared.pairedStore.remember C.iroh x.2.io x.1).1 = true) ∧
    ∀ x ∈ charging s a, x.1 = y →
      (s.shared.unpairedLimiter.allow C.iroh (C.iroh.toStr y) x.2).1 = true

instance (y : Id) (s : State Id) (a : Act Id) : Decidable (Undisturbed C y s a) :=
  inferInstanceAs (Decidable (_ ∧ _ ∧ _))

def acceptanceRead (s : State Id) : Act Id → Option (Kind Id)
  | .recv p (.inviteResponse _ .accepted) => kindOf s p
  | _ => none

/-- The peer for whose acceptance a pending invite is looked up. -/
def acceptanceTaken (s : State Id) : Act Id → Option Id
  | .exec p _ =>
    match kindOf s p, nextInstr s p with
    | some (.control c), some (.control (.takePending .accepted)) => some c.conn.remote
    | _, _ => none
  | _ => none

def refused (s : State Id) : Act Id → Option (String × Env)
  | .exec p env =>
    match kindOf s p, nextInstr s p with
    | some (.connect l), some (.connect .settling) => some (l.endpointId, env)
    | _, _ => none
  | _ => none

/-- The sessions that look a pending invite up when an answer arrives. -/
def Kind.unpairedSession : Kind Id → Bool
  | .control c => !c.peerIsPaired
  | _ => false

/-- An acceptance of `y` is read by a session that counts it as unpaired, and finds the invite it
answers recorded, unless the pairing is in place anyway; and no connect loop of `y` is refused once
the pairing has settled. -/
def FindsInvite (C : Config Id) (y : Id) (s : State Id) (a : Act Id) : Prop :=
  (∀ kind ∈ acceptanceRead s a, kind.remote = some y →
      Paired C s.shared y ∨ kind.unpairedSession = true) ∧
    (∀ x ∈ acceptanceTaken s a, x = y →
      Paired C s.shared y ∨ (s.shared.pendingNearbyInvites (C.iroh.toStr y)).isSome = true) ∧
    ∀ x ∈ refused s a, C.Names x.1 y → Settling C s.shared x.2 x.1 = true

instance (y : Id) (s : State Id) (a : Act Id) : Decidable (FindsInvite C y s a) :=
  inferInstanceAs (Decidable (_ ∧ _ ∧ _))

/-- The message an action reads, and from whom. -/
def heard (s : State Id) : Act Id → Option (Id × ControlMessage)
  | .recv p msg => ((kindOf s p).bind Kind.remote).map (·, msg)
  | _ => none

/-- Undisturbed, finding its invites, and not told by `y` to forget it. -/
structure KeepsPairing (C : Config Id) (y : Id) (s : State Id) (a : Act Id) : Prop where
  undisturbed : Undisturbed C y s a
  finds : FindsInvite C y s a
  unforgotten : ∀ x ∈ heard s a, x.1 = y → isForget x.2 = false

theorem heard_recv {s : State Id} {p : Nat} {msg : ControlMessage} {t : Task Id} {y : Id}
    (hget : s.procs[p]? = some t) (hremote : t.kind.remote = some y) :
    heard s (.recv p msg) = some (y, msg) := by
  rw [heard, kindOf_eq hget, Option.bind_some, hremote]
  rfl

/-- What a message severs it severs for the peer it comes from. -/
theorem KeepsPairing.not_forget {y : Id} {s : State Id} {p : Nat} {msg : ControlMessage}
    (hok : KeepsPairing C y s (.recv p msg)) {t : Task Id} (hget : s.procs[p]? = some t) {x : Id}
    (hremote : t.kind.remote = some x) (hmsg : isForget msg = true) : x ≠ y := by
  rintro rfl
  have hnot := hok.unforgotten _ (heard_recv hget hremote) rfl
  rw [hmsg] at hnot
  cases hnot

/-- Whether a critical section severs a pairing depends on the connection of a control session
alone. -/
theorem Severs.of_kind {y : Id} {kind kind' : Kind Id} {i : Instr Id} (hfits : Fits C kind i)
    (hkind : KindStep kind kind') (hinbound : ∀ conn, kind ≠ .inbound conn)
    (h : Severs C y kind' i) : Severs C y kind i := by
  cases i with
  | control i =>
    cases kind with
    | inbound conn => exact absurd rfl (hinbound conn)
    | control c =>
      obtain ⟨c', rfl, hstep⟩ := hkind
      have hremote : (Kind.control c').remote = (Kind.control c).remote := by
        rw [Kind.remote, Kind.remote, hstep.conn]
      cases i with
      | recheckAllowed | chargeToken => exact ⟨h.1, hremote ▸ h.2⟩
      | _ => exact h
    | host | connect | call | expiry | lan | background => exact hfits.elim
  | common i | connect i | service i => cases i <;> exact h
  | accept i | host i | window i | lan i => exact h

/-- No task of the node has anything to do that severs the pairing. -/
def AllFaithful (C : Config Id) (y : Id) (s : State Id) : Prop :=
  ∀ (p : Nat) (t : Task Id), s.procs[p]? = some t → Task.Faithful C y t.kind t.todo

theorem AllFaithful.head {y : Id} {s : State Id} (h : AllFaithful C y s) {p : Nat} {t : Task Id}
    {instr : Instr Id} {rest : List (Instr Id)} (hget : s.procs[p]? = some t)
    (htodo : t.todo = instr :: rest) : ¬ Severs C y t.kind instr :=
  h p t hget instr (by rw [htodo]; simp)

theorem faithful_exec {y : Id} {s : State Id} {p : Nat} {env : Env} {t : Task Id}
    {instr : Instr Id} {rest : List (Instr Id)} {kind : Kind Id} {n : Next Id}
    (h : AllFaithful C y s) (hfits : AllFit C s) (hnamed : SlotsNamed C s)
    (hok : KeepsPairing C y s (.exec p env)) (hget : s.procs[p]? = some t)
    (htodo : t.todo = instr :: rest)
    (hnext : next C s.shared t.kind s.procs.length env instr = some (kind, n)) :
    Task.Faithful C y kind (n.push ++ rest) := by
  have hnot := h.head hget htodo
  have hfit := hfits p t hget
  have hrest : ∀ i ∈ rest, i ∈ t.todo := fun i hi => by
    rw [htodo]
    exact List.mem_cons_of_mem _ hi
  have hk := next_kind hnext
  by_cases hinbound : ∀ conn, t.kind ≠ .inbound conn
  · refine .append ?_ fun i hi hsevers => ?_
    · cases next_case hnext with
      | common => exact faithful_nextCommon hnot
      | service => exact faithful_nextService hnamed.held hnot
      | window => exact faithful_nextWindow
      | lan => exact faithful_nextLan
      | accept hkind => exact absurd hkind (hinbound _)
      | control hkind =>
        rw [hkind] at hnot
        exact faithful_nextControl hnot
      | host => exact faithful_nextHost
      | @connect instr l hkind =>
        refine faithful_nextConnect (fun hinstr hname => ?_) hnot
        subst hinstr
        refine hok.finds.2.2 (l.endpointId, env) ?_ hname
        rw [refused, kindOf_eq hget, nextInstr_eq hget htodo, hkind]
        rfl
    · exact h p t hget i (hrest i hi) (hsevers.of_kind (hfit.fits i (hrest i hi)) hk hinbound)
  · -- accepting a connection: nothing is left but what the hook goes on to
    simp only [not_forall, not_not] at hinbound
    obtain ⟨conn, hconn⟩ := hinbound
    rw [htodo, hconn] at hfit
    obtain ⟨i, rfl, rfl⟩ := hfit.inbound
    cases next_case hnext with
    | accept hkind =>
      rw [List.append_nil]
      exact faithful_nextAccept

theorem faithful_recv {y : Id} {s : State Id} {p : Nat} {msg : ControlMessage} {t : Task Id}
    {kind' : Kind Id} {todo : List (Instr Id)} (hok : KeepsPairing C y s (.recv p msg))
    (hget : s.procs[p]? = some t) (hrecv : received C t.kind msg = some (kind', todo)) :
    Task.Faithful C y kind' todo := by
  cases hkind : t.kind with
  | control c =>
    rw [hkind] at hrecv
    cases received_case hrecv with
    | control => exact faithful_receiveControl (hok.not_forget hget (by rw [hkind]; rfl))
  | host h =>
    rw [hkind] at hrecv
    cases received_case hrecv with
    | host => exact faithful_receiveHost (hok.not_forget hget (by rw [hkind]; rfl))
  | connect l =>
    rw [hkind] at hrecv
    cases received_case hrecv with
    | connect hconn =>
      refine faithful_readOutbound (hok.not_forget hget ?_)
      rw [hkind, Kind.remote, hconn]
      rfl
  | inbound | call | expiry | lan | background =>
    rw [hkind] at hrecv
    cases hrecv

theorem faithful_started {y : Id} {s : State Id} {a : Act Id} {t : Task Id}
    (hok : KeepsPairing C y s a) (hstart : started C a = some t) :
    Task.Faithful C y t.kind t.todo := by
  cases started_case hstart with
  | connect | appeared | vanished => exact .of_calm rfl
  | call call =>
    refine faithful_program fun e hcall => ?_
    subst hcall
    exact hok.undisturbed.1 e rfl

theorem AllFaithful.step {y : Id} {s s' : State Id} {a : Act Id} {out : List (Out Id)}
    (h : AllFaithful C y s) (hfits : AllFit C s) (hnamed : SlotsNamed C s)
    (hok : KeepsPairing C y s a) (hs : Node.step C s a = some (s', out)) : AllFaithful C y s' := by
  intro q t' hq
  obtain ⟨kind, todo, horigin, hhas⟩ := step_origin hs hq
  refine Task.Faithful.has ?_ hhas
  cases horigin with
  | kept hne hget => exact h q _ hget
  | exec hget htodo hnext => exact faithful_exec h hfits hnamed hok hget htodo hnext
  | recv hget hrecv => exact faithful_recv hok hget hrecv
  | close hget hsees => exact faithful_closedTodo
  | drop hget => exact .of_calm rfl
  | spawned hget hnext hmem hnew hhead =>
    obtain ⟨rest, htodo⟩ := List.head?_eq_some_iff.mp hhead
    exact faithful_spawned hnext (h.head hget htodo) hmem
  | started hactor hstart hnew => exact faithful_started hok hstart

theorem Paired.step {y : Id} {s s' : State Id} {a : Act Id} {out : List (Out Id)}
    (h : Paired C s.shared y) (hfaithful : AllFaithful C y s)
    (hs : Node.step C s a = some (s', out)) : Paired C s'.shared y := by
  rcases step_shared hs with ⟨hsame, -⟩ |
    ⟨p, env, t, instr, rest, kind, n, rfl, hget, htodo, -, hshared, -⟩
  · rw [hsame]
    exact h
  · rw [hshared]
    exact h.write (hfaithful.head hget htodo)

theorem forget_unsent_step {y : Id} {s s' : State Id} {a : Act Id} {out : List (Out Id)}
    (hfaithful : AllFaithful C y s) (hs : Node.step C s a = some (s', out)) {conn : Conn Id}
    {msg : ControlMessage} (hsent : .sent conn msg ∈ out) (hremote : conn.remote = y) :
    isForget msg = false := by
  rcases step_shared hs with ⟨-, rfl⟩ |
    ⟨p, env, t, instr, rest, kind, n, rfl, hget, htodo, hnext, -, rfl⟩
  · simp at hsent
  · exact forget_unsent hnext (hfaithful.head hget htodo) hsent hremote

/-- No task of a run that keeps the pairing ever has anything to do that severs it. -/
theorem allFaithful_run {y : Id} {store : StoreFile} {rotated : Bool} {io : Io}
    {d : Discoverability} {relay : Option String} {tr : List (Step Id)} {s : State Id}
    (hrun : Run (machine C) (KeepsPairing C y) (start C store rotated io d relay) tr s) :
    AllFaithful C y s := by
  refine hrun.invariant_of_run (I := fun _ s => AllFaithful C y s) ?_ ?_
  · intro p t hp
    obtain rfl := eq_of_start hp
    exact .of_calm rfl
  · intro tr s s' a out hprev h hok hs
    exact h.step (fits_run hprev) (slotsNamed_run hprev) hok hs

end DashBeam.Node

import DashBeam.Node.Alice
import DashBeam.Node.Fits

/-!
# The allowlist and the store

Who is paired is kept twice: in the records of the store, and on the allowlist in memory. Every
operation that changes one changes the other a few critical sections later, `remember` before
`allow`, `mark_unpaired_remotely` before the removal, and the removal before `forget`. Between them
one task is responsible for the difference (`Phase`), and after them a restart would load the
allowlist that is there, as long as the two updates are about the same id and both happen
(`allowlist_agrees`).
-/

namespace DashBeam.Node

open Protocol Native Lib

set_option linter.unusedSectionVars false

variable {Id : Type} [DecidableEq Id] {C : Config Id}

/-! ### The property -/

/-- The allowlist that `NodeService::start` would load from the store as it is. -/
def restartAllowed (C : Config Id) (s : Shared Id) : Finset Id :=
  StoreFile.loadAllowed C.iroh s.pairedStore.stored

/-- The second update of an operation that changes both the store and the allowlist, and in
`forget_paired` also the first. -/
def Instr.updates : Instr Id → Bool
  | .common (.allow _) | .common (.disallow ..) | .service (.forgetRecord _) => true
  | _ => false

/-- An operation of this task has changed the store or the allowlist, or is bound to, and has not
changed the other. -/
def Task.updating (t : Task Id) : Bool := t.todo.any Instr.updates

/-- The critical sections from which on an operation changes the two. -/
def Instr.begins : Instr Id → Bool
  | .common (.remember ..) | .common (.markUnpaired _) | .connect (.unpairMark ..)
  | .service (.forgetLive _) | .service (.forgetSend ..) => true
  | _ => false

/-- The operations come one after the other: none begins while another is in between. -/
def OneAtATime (s : State Id) (a : Act Id) : Prop :=
  ∀ i ∈ doing s a, i.1.begins = true → ∀ t ∈ s.procs, t.updating = false

instance (s : State Id) (a : Act Id) : Decidable (OneAtATime s a) :=
  inferInstanceAs (Decidable (∀ i ∈ doing s a, _))

/-- Whenever no operation is in between, the allowlist is the one a restart would load. -/
def Agrees (C : Config Id) (s : State Id) : Prop :=
  (∀ t ∈ s.procs, t.updating = false) → s.shared.allowed = restartAllowed C s.shared

/-! ### When the two updates agree -/

/-- The id that a pairing flow puts on the allowlist. -/
def PairingFlow.allows (C : Config Id) : PairingFlow Id → Option Id
  | .pairingHost remote | .commitNearby remote => some remote
  | .join peer => some peer
  | .acceptNearby endpointId => C.iroh.fromStr endpointId

/-- A pairing-host session goes on when the record could not be stored. -/
def PairingFlow.allowsUnstored : PairingFlow Id → Option Id
  | .pairingHost remote => some remote
  | _ => none

/-- The record is marked, if at all, as the only connectable one of its id. -/
def MarksOnly (C : Config Id) (s : Shared Id) (endpointId : String) : Prop :=
  ∀ x ∈ C.iroh.fromStr endpointId,
    x ∉ StoreFile.loadAllowed C.iroh
      (s.pairedStore.stored.eraseP (StoreFile.sameId C.iroh endpointId))

instance (s : Shared Id) (endpointId : String) : Decidable (MarksOnly C s endpointId) :=
  inferInstanceAs (Decidable (∀ x ∈ C.iroh.fromStr endpointId, _))

/-- The connectable records that `forget` removes are those of the id. -/
def ForgetsOnly (C : Config Id) (s : Shared Id) (endpointId : String) : Prop :=
  ∀ d ∈ s.pairedStore.stored, d.pairingStatus.isConnectable = true →
    ∀ y ∈ C.iroh.fromStr d.endpointId,
      (StoreFile.sameId C.iroh endpointId d = true ↔ C.iroh.fromStr endpointId = some y)

instance (s : Shared Id) (endpointId : String) : Decidable (ForgetsOnly C s endpointId) :=
  inferInstanceAs (Decidable (∀ d ∈ s.pairedStore.stored, _ → ∀ y ∈ C.iroh.fromStr d.endpointId, _))

/-- What an update of the store has to meet for the allowlist to stay in step: a record is stored
under the id that is then allowed, and a pairing-host session that could not store it was about a
peer already allowed; the record marked is the only connectable one of its id; the records forgotten
are those of the id, and where they could not be removed there were none. -/
def InStep (C : Config Id) (s : Shared Id) (io : Io) : Instr Id → Prop
  | .common (.remember flow device) =>
    if (s.pairedStore.remember C.iroh io device).1 then
      C.iroh.fromStr (StoreFile.saved C.iroh s.pairedStore.stored device).endpointId = flow.allows C
    else ∀ x ∈ flow.allowsUnstored, x ∈ s.allowed
  | .common (.markUnpaired id) => MarksOnly C s (C.iroh.toStr id)
  | .connect (.unpairMark endpointId _) => MarksOnly C s endpointId
  | .service (.forgetRecord endpointId) =>
    if (s.pairedStore.forget C.iroh io endpointId).1 then ForgetsOnly C s endpointId
    else ∀ x ∈ C.iroh.fromStr endpointId, x ∉ restartAllowed C s
  | _ => True

instance (s : Shared Id) (io : Io) (instr : Instr Id) : Decidable (InStep C s io instr) := by
  unfold InStep
  split <;> infer_instance

/-- The task whose connection closes, or that is dropped. -/
def cutOff (s : State Id) : Act Id → Option (Task Id)
  | .close pid _ | .drop pid => s.procs[pid]?
  | _ => none

/-- The operations come one after the other, their updates are in step, and none is cut off between
them: by the connection closing where `connect_loop` races its handling of a `Forget` against it, or
by the loop's abort. -/
def StaysInStep (C : Config Id) (s : State Id) (a : Act Id) : Prop :=
  OneAtATime s a ∧ (∀ i ∈ doing s a, InStep C s.shared i.2.io i.1) ∧
    ∀ t ∈ cutOff s a, t.updating = false

instance (s : State Id) (a : Act Id) : Decidable (StaysInStep C s a) :=
  inferInstanceAs (Decidable (_ ∧ (∀ i ∈ doing s a, _) ∧ ∀ t ∈ cutOff s a, _))

/-! ### Where updates come from -/

section Next

variable {s : Shared Id} {fresh : Nat} {env : Env}

theorem updates_handlePaired {c : ControlSession Id} {msg : ControlMessage} :
    (handlePairedControlMessage C c msg).any Instr.updates = false := by
  cases msg <;> simp only [handlePairedControlMessage, recognise] <;> (try split) <;> rfl

theorem updates_dispatch {c : ControlSession Id} {msg : ControlMessage} :
    (dispatch C c msg).2.any Instr.updates = false := by
  unfold dispatch
  split
  · rfl
  · split
    · rw [List.any_cons, updates_handlePaired]
      rfl
    · exact updates_handlePaired

theorem updates_leaveSession {c : ControlSession Id} :
    (leaveSession C c).any Instr.updates = false := by
  unfold leaveSession
  split <;> rfl

theorem updates_nextCommon {instr : CommonInstr Id} (h : (Instr.common instr).begins = false) :
    (nextCommon C s fresh env instr).push.any Instr.updates = false := by
  cases instr with
  | remember | markUnpaired => cases h
  | setPresence | removeSession | removeSessionIf | refreshList =>
    simp only [nextCommon]
    split <;> rfl
  | _ => rfl

theorem updates_nextControl {c : ControlSession Id} {instr : ControlInstr} :
    (nextControl C s c env instr).2.push.any Instr.updates = false := by
  cases instr with
  | recheckAllowed | chargeToken =>
    simp only [nextControl]
    split
    · exact updates_dispatch
    · rfl
  | answerIdentity =>
    simp only [nextControl]
    split
    · rfl
    · split <;> rfl
  | hangUp => exact updates_leaveSession
  | registerInbound =>
    simp only [nextControl, setSession]
    split <;> rfl
  | takePending =>
    simp only [nextControl]
    split
    · rfl
    · split <;> rfl
  | commitNearby | emitPairedName => rfl

theorem updates_nextConnect {l : ConnectLoop Id} {instr : ConnectInstr Id}
    (h : (Instr.connect instr).begins = false) :
    (nextConnect C s l env instr).2.push.any Instr.updates = false := by
  rw [List.any_eq_false]
  intro i hi
  cases connectPush_next hi with
  | disallowForgotten | disallowRefused => cases h
  | dial | insertSession | online | touch | read | offline | sleep | loopTop | unpairGet | unpairMark
  | skippedGet | skippedMark | marked | unpaired | removeSessionIf => simp [Instr.updates]

theorem updates_nextService {instr : ServiceInstr Id} (h : (Instr.service instr).begins = false) :
    (nextService C s env instr).push.any Instr.updates = false := by
  have herror : ∀ d, (onError d : List (Instr Id)).any Instr.updates = false := by
    intro d
    unfold onError
    split <;> rfl
  cases instr with
  | forgetLive | forgetSend => cases h
  | findNearby e msg =>
    simp only [nextService]
    split
    · unfold onFound
      split
      · split <;> rfl
      · rfl
    · rfl
  | deliverStored d =>
    simp only [nextService]
    split
    · split <;> rfl
    · exact herror d
  | deliverDial d =>
    simp only [nextService, recognise]
    split
    · exact herror d
    · unfold onUnreached
      split <;> rfl
    · split <;> rfl
  | deliverWrite d conn =>
    simp only [nextService]
    split
    · unfold onSent
      split <;> rfl
    · exact herror d
  | joinReply conn relayUrl =>
    simp only [nextService, onHostReply]
    split
    · split
      · split <;> rfl
      · rfl
    · rfl
  | rebuild previous setting =>
    simp only [nextService]
    split
    · split <;> rfl
    · rfl
  | checkAllowed | forgetGet | waitSession | joinDial | notifyForget | forgetRecord
  | setDiscoverability =>
    simp only [nextService]
    split <;> rfl
  | probeAccept | insertPending | block | restoreDiscoverability | clearNearby => rfl

theorem updates_next {kind kind' : Kind Id} {instr : Instr Id} {n : Next Id}
    (h : next C s kind fresh env instr = some (kind', n)) (hbegins : instr.begins = false) :
    n.push.any Instr.updates = false := by
  cases next_case h with
  | common => exact updates_nextCommon hbegins
  | service => exact updates_nextService hbegins
  | @window instr => cases instr <;> rfl
  | @lan instr =>
    cases instr with
    | observe | nudgeGet | probe =>
      simp only [nextLan]
      split <;> first | rfl | (split <;> rfl)
    | nudgeSession =>
      simp only [nextLan]
      split <;> rfl
    | _ => rfl
  | @accept instr conn =>
    cases instr with
    | acceptWindow => rfl
    | hookBlocked | hookDirectPath =>
      simp only [nextAccept]
      split <;> rfl
    | hookAccess | acceptAllowed =>
      simp only [nextAccept]
      split
      · rfl
      · split <;> rfl
  | control => exact updates_nextControl
  | @host instr =>
    cases instr with
    | hostHello | loadPersistent =>
      simp only [nextHost]
      split <;> rfl
    | hostInvite | hostRecord | hostVote => rfl
  | connect => exact updates_nextConnect hbegins

end Next

theorem updates_received {kind kind' : Kind Id} {msg : ControlMessage} {todo : List (Instr Id)}
    (h : received C kind msg = some (kind', todo)) : todo.any Instr.updates = false := by
  cases received_case h with
  | control c =>
    unfold receiveControl
    split
    · exact updates_dispatch
    · split <;> rfl
  | host c =>
    have hnext : ∀ c : HostSession Id, (hostNext c).any Instr.updates = false := by
      intro c
      unfold hostNext
      split <;> rfl
    cases msg with
    | pairingInfo =>
      simp only [receiveHost]
      split
      · rfl
      · split
        · exact hnext _
        · rfl
    | rememberVote => exact hnext _
    | invite | inviteResponse =>
      simp only [receiveHost, List.any_cons, hnext]
      rfl
    | recognition | forget =>
      simp only [receiveHost, recognise]
      split
      · simp only [List.cons_append, List.nil_append, List.any_cons, hnext]
        rfl
      · exact hnext _
    | whoAreYou | identity | pairRequest => exact hnext _
  | connect hconn =>
    cases msg <;> simp only [readOutbound, recognise] <;> (try split) <;> rfl

theorem updates_closed {kind : Kind Id} {reason : String} :
    (closedTodo C kind reason).any Instr.updates = false := by
  cases kind with
  | control c => exact updates_leaveSession
  | host c =>
    simp only [closedTodo]
    split <;> rfl
  | connect l =>
    simp only [closedTodo]
    split
    · split <;> rfl
    · rfl
  | inbound | call | expiry | lan | background => rfl

theorem updates_program {call : Call} :
    (program C call : List (Instr Id)).any Instr.updates = false := by
  cases call with
  | declineNearbyInvite | invitePairedDevice | respondPairedInvite =>
    simp only [program]
    split <;> rfl
  | startPairingHost ttlSecs =>
    simp only [program, startPairingHost]
    split <;> rfl
  | _ => rfl

/-- A task is in between only if it was before, and has not moved, or has begun an operation or is
going through one. -/
theorem updating_origin {s : State Id} {a : Act Id} {q : Nat} {kind : Kind Id}
    {todo : List (Instr Id)} (h : Origin C s q a kind todo) (hu : todo.any Instr.updates = true) :
    (∃ t, s.procs[q]? = some t ∧ t.kind = kind ∧ t.todo = todo ∧ a.actor ≠ some q) ∨
      ∃ env t instr rest n, a = .exec q env ∧ s.procs[q]? = some t ∧ t.todo = instr :: rest ∧
        next C s.shared t.kind s.procs.length env instr = some (kind, n) ∧
        todo = n.push ++ rest ∧ (instr.begins = true ∨ t.updating = true) := by
  cases h with
  | @kept a t hne hget => exact .inl ⟨t, hget, rfl, rfl, hne⟩
  | @exec env t instr rest kind n hget htodo hnext =>
    refine .inr ⟨env, t, instr, rest, n, rfl, hget, htodo, hnext, rfl, ?_⟩
    by_cases hbegins : instr.begins = true
    · exact .inl hbegins
    · rw [List.any_append, updates_next hnext (by simpa using hbegins), Bool.false_or] at hu
      exact .inr (by simp [Task.updating, htodo, hu])
  | recv hget hrecv =>
    rw [updates_received hrecv] at hu
    cases hu
  | close hget hsees =>
    rw [updates_closed] at hu
    cases hu
  | drop hget => cases hu
  | spawned hget hnext hmem hnew => cases next_spawn hnext hmem <;> cases hu
  | @started a t hactor hstart hnew =>
    cases started_case hstart with
    | connect | appeared | vanished => cases hu
    | call call =>
      rw [updates_program] at hu
      cases hu

/-! ### One operation -/

/-- How far an operation in between has come, and how far the allowlist is from the one a restart
would load. -/
inductive Phase (C : Config Id) (allowed restart : Finset Id) : List (Instr Id) → Prop
  | allowing {x : Id} {rest : List (Instr Id)} (hrest : rest.any Instr.updates = false)
      (h : insert x allowed = restart) : Phase C allowed restart (.common (.allow x) :: rest)
  | expiring {e : String} {x : Id} {rest : List (Instr Id)}
      (hrest : rest.any Instr.updates = false) (h : insert x allowed = restart) :
      Phase C allowed restart (.common (.expireNearby e) :: .common (.allow x) :: rest)
  | disallowing {x : Id} {racing : Bool} {rest : List (Instr Id)}
      (hrest : rest.any Instr.updates = false) (h : allowed.erase x = restart) :
      Phase C allowed restart (.common (.disallow x racing) :: rest)
  | forgetting {x : Id} {k : String} {rest : List (Instr Id)}
      (hrest : rest.any Instr.updates = false) (hx : C.iroh.fromStr k = some x)
      (h : allowed = restart) : Phase C allowed restart
        (.common (.disallow x false) :: .service (.forgetRecord k) :: rest)
  | removing {k : String} {rest : List (Instr Id)} (hrest : rest.any Instr.updates = false)
      (h : ∀ y, y ∈ allowed ↔ y ∈ restart ∧ C.iroh.fromStr k ≠ some y) :
      Phase C allowed restart (.service (.forgetRecord k) :: rest)

theorem Phase.not_parks {allowed restart : Finset Id} {todo : List (Instr Id)}
    (h : Phase C allowed restart todo) : todo.head?.any Instr.parks = false := by
  cases h <;> rfl

theorem Phase.not_read {allowed restart : Finset Id} {rest : List (Instr Id)} :
    ¬ Phase C allowed restart (.common .read :: rest) := by
  intro h
  cases h

/-- What an operation has done or is in the middle of. -/
def Progress (C : Config Id) (s : Shared Id) (todo : List (Instr Id)) : Prop :=
  (todo.any Instr.updates = false ∧ s.allowed = restartAllowed C s) ∨
    Phase C s.allowed (restartAllowed C s) todo

theorem updates_append {push rest : List (Instr Id)} (hpush : push.any Instr.updates = false)
    (hrest : rest.any Instr.updates = false) : (push ++ rest).any Instr.updates = false := by
  rw [List.any_append, hpush, hrest]
  rfl

section Operations

variable {s : Shared Id} {kind kind' : Kind Id} {fresh : Nat} {env : Env} {n : Next Id}

theorem active_of_fits {flow : PairingFlow Id} {device : PairedDevice}
    (h : Fits C kind (.common (.remember flow device))) : device.pairingStatus = .active := by
  cases kind with
  | control c => exact h.2.2
  | host c => exact h.2.2
  | call call =>
    cases flow with
    | join | acceptNearby => exact h.2.2
    | pairingHost | commitNearby => exact h.elim
  | inbound | connect | expiry | lan | background => exact h.elim

theorem progress_remember {flow : PairingFlow Id} {device : PairedDevice}
    {rest : List (Instr Id)} (hactive : device.pairingStatus = .active)
    (hrest : rest.any Instr.updates = false) (hagree : s.allowed = restartAllowed C s)
    (hstep : InStep C s env.io (.common (.remember flow device))) :
    Progress C (writeCommon C s fresh env (.remember flow device))
      ((nextCommon C s fresh env (.remember flow device)).push ++ rest) := by
  simp only [InStep] at hstep
  have hsettled : ∀ push : List (Instr Id), push.any Instr.updates = false →
      (push ++ rest).any Instr.updates = false := fun _ hpush => updates_append hpush hrest
  cases hresult : s.pairedStore.remember C.iroh env.io device with
  | mk stored file =>
    simp only [writeCommon, nextCommon, hresult]
    rw [hresult] at hstep
    cases stored with
    | true =>
      simp only [if_true] at hstep
      have hstored := StoreFile.remember_eq C.iroh hresult
      cases hallows : flow.allows C with
      | some x =>
        have hload : insert x s.allowed = StoreFile.loadAllowed C.iroh file.stored := by
          rw [hstored, StoreFile.loadAllowed_remembered C.iroh hactive (hstep.trans hallows), hagree]
          rfl
        refine .inr ?_
        cases flow with
        | pairingHost remote =>
          obtain rfl := Option.some.inj hallows
          exact .allowing (hsettled _ rfl) hload
        | join peer =>
          obtain rfl := Option.some.inj hallows
          exact .allowing (hsettled _ rfl) hload
        | commitNearby remote =>
          obtain rfl := Option.some.inj hallows
          exact .expiring (hsettled _ rfl) hload
        | acceptNearby e =>
          simp only [PairingFlow.allows] at hallows
          simp only [afterRemember, hallows, if_true, List.cons_append]
          exact .expiring (hsettled _ rfl) hload
      | none =>
        have hload : s.allowed = StoreFile.loadAllowed C.iroh file.stored := by
          rw [hstored, StoreFile.loadAllowed_remembered_unparsed C.iroh (hstep.trans hallows), hagree]
          rfl
        cases flow with
        | acceptNearby e =>
          simp only [PairingFlow.allows] at hallows
          simp only [afterRemember, hallows, if_true]
          exact .inl ⟨hsettled _ rfl, hload⟩
        | pairingHost | join | commitNearby => cases hallows
    | false =>
      obtain rfl := StoreFile.remember_failed C.iroh hresult
      simp only [Bool.false_eq_true, if_false] at hstep
      cases flow with
      | pairingHost remote =>
        have hin : remote ∈ s.allowed := hstep remote rfl
        exact .inr (.allowing (hsettled _ rfl) ((Finset.insert_eq_of_mem hin).trans hagree))
      | join | acceptNearby | commitNearby => exact .inl ⟨hsettled _ rfl, hagree⟩

theorem progress_markUnpaired {x : Id} {rest : List (Instr Id)}
    (hrest : rest.any Instr.updates = false) (hagree : s.allowed = restartAllowed C s)
    (hstep : MarksOnly C s (C.iroh.toStr x)) :
    Progress C (writeCommon C s fresh env (.markUnpaired x))
      ((nextCommon C s fresh env (.markUnpaired x)).push ++ rest) := by
  have hx := C.iroh.fromStr_toStr x
  cases hresult : s.pairedStore.markUnpairedRemotely C.iroh env.io (C.iroh.toStr x) with
  | mk marked file =>
    simp only [writeCommon, nextCommon, hresult]
    cases marked with
    | some device =>
      obtain ⟨existing, hfound, -, hstored⟩ := StoreFile.markUnpairedRemotely_some C.iroh hresult
      refine .inr (.disallowing (updates_append rfl hrest) ?_)
      rw [hagree]
      simp only [restartAllowed, hstored]
      exact (StoreFile.loadAllowed_unpaired C.iroh hfound hx (hstep x hx)).symm
    | none =>
      obtain rfl := StoreFile.markUnpairedRemotely_none C.iroh hresult
      exact .inl ⟨hrest, hagree⟩

theorem progress_unpairMark {l : ConnectLoop Id} {e : String} {cause : UnpairCause Id} {x : Id}
    {rest : List (Instr Id)} (hx : C.iroh.fromStr e = some x)
    (hrest : rest.any Instr.updates = false) (hagree : s.allowed = restartAllowed C s)
    (hstep : MarksOnly C s e) :
    Progress C (write C s kind fresh env (.connect (.unpairMark e cause)))
      ((nextConnect C s l env (.unpairMark e cause)).2.push ++ rest) := by
  cases hresult : s.pairedStore.markUnpairedRemotely C.iroh env.io e with
  | mk marked file =>
    simp only [write, nextConnect, hresult]
    cases marked with
    | some device =>
      obtain ⟨existing, hfound, -, hstored⟩ := StoreFile.markUnpairedRemotely_some C.iroh hresult
      simp only [unpairEffects, hx]
      refine .inr (.disallowing ?_ ?_)
      · cases cause <;> exact updates_append rfl hrest
      · rw [hagree]
        simp only [restartAllowed, hstored]
        exact (StoreFile.loadAllowed_unpaired C.iroh hfound hx (hstep x hx)).symm
    | none =>
      obtain rfl := StoreFile.markUnpairedRemotely_none C.iroh hresult
      refine .inl ⟨?_, hagree⟩
      cases cause <;> exact updates_append rfl hrest

theorem progress_forgetRest {e : String} {rest : List (Instr Id)}
    (hrest : rest.any Instr.updates = false) (hagree : s.allowed = restartAllowed C s) :
    Progress C s (forgetRest C e ++ rest) := by
  unfold forgetRest
  split
  · rename_i x hx
    exact .inr (.forgetting hrest hx hagree)
  · rename_i hnone
    refine .inr (.removing hrest fun y => ?_)
    rw [hnone, hagree]
    simp

/-- An operation begins when the allowlist is the one a restart would load. -/
theorem progress_begins {instr : Instr Id} {rest : List (Instr Id)} (hfits : Fits C kind instr)
    (hbegins : instr.begins = true) (hrest : rest.any Instr.updates = false)
    (hagree : s.allowed = restartAllowed C s) (hstep : InStep C s env.io instr)
    (hnext : next C s kind fresh env instr = some (kind', n)) :
    Progress C (write C s kind fresh env instr) (n.push ++ rest) := by
  unfold Instr.begins at hbegins
  split at hbegins
  · obtain ⟨rfl, rfl⟩ := Prod.mk.inj (Option.some.inj hnext)
    exact progress_remember (active_of_fits hfits) hrest hagree hstep
  · obtain ⟨rfl, rfl⟩ := Prod.mk.inj (Option.some.inj hnext)
    exact progress_markUnpaired hrest hagree hstep
  · rename_i e cause
    cases next_case hnext with
    | connect hkind =>
      subst hkind
      have hx : ∃ x, C.iroh.fromStr e = some x := by
        cases cause with
        | forgetReceived conn =>
          obtain ⟨-, rfl⟩ := hfits
          exact ⟨_, C.iroh.fromStr_toStr _⟩
        | recognitionRefused =>
          obtain ⟨rfl, hsome⟩ := hfits
          exact Option.isSome_iff_exists.mp hsome
      obtain ⟨x, hx⟩ := hx
      exact progress_unpairMark hx hrest hagree hstep
  · rename_i e
    obtain ⟨rfl, rfl⟩ := Prod.mk.inj (Option.some.inj hnext)
    simp only [nextService]
    split
    · exact .inl ⟨hrest, hagree⟩
    · exact progress_forgetRest hrest hagree
  · rename_i e conn
    obtain ⟨rfl, rfl⟩ := Prod.mk.inj (Option.some.inj hnext)
    simp only [nextService]
    split <;> exact progress_forgetRest hrest hagree
  · cases hbegins

theorem progress_phase {instr : Instr Id} {rest : List (Instr Id)}
    (h : Phase C s.allowed (restartAllowed C s) (instr :: rest)) (hstep : InStep C s env.io instr)
    (hnext : next C s kind fresh env instr = some (kind', n)) :
    Progress C (write C s kind fresh env instr) (n.push ++ rest) := by
  cases h with
  | allowing hrest h =>
    obtain ⟨rfl, rfl⟩ := Prod.mk.inj (Option.some.inj hnext)
    exact .inl ⟨hrest, h⟩
  | expiring hrest h =>
    obtain ⟨rfl, rfl⟩ := Prod.mk.inj (Option.some.inj hnext)
    exact .inr (.allowing hrest h)
  | disallowing hrest h =>
    obtain ⟨rfl, rfl⟩ := Prod.mk.inj (Option.some.inj hnext)
    exact .inl ⟨hrest, h⟩
  | @forgetting x k rest hrest hx h =>
    obtain ⟨rfl, rfl⟩ := Prod.mk.inj (Option.some.inj hnext)
    refine .inr (.removing hrest fun y => ?_)
    simp only [write, writeCommon, Finset.mem_erase, h, hx, ne_eq, Option.some.injEq]
    rw [and_comm, eq_comm]
    rfl
  | @removing k rest hrest h =>
    obtain ⟨rfl, rfl⟩ := Prod.mk.inj (Option.some.inj hnext)
    simp only [InStep] at hstep
    cases hresult : s.pairedStore.forget C.iroh env.io k with
    | mk removed file =>
      rw [hresult] at hstep
      simp only [write, writeService, nextService, hresult]
      cases removed with
      | true =>
        refine .inl ⟨updates_append rfl hrest, ?_⟩
        ext y
        simp only [restartAllowed, StoreFile.forget_eq C.iroh hresult]
        rw [StoreFile.loadAllowed_forget C.iroh fun d hd hconn y hy => hstep d hd hconn y hy]
        exact h y
      | false =>
        obtain rfl := StoreFile.forget_failed C.iroh hresult
        refine .inl ⟨updates_append rfl hrest, ?_⟩
        ext y
        rw [h y]
        simp only [restartAllowed] at hstep ⊢
        refine ⟨fun hy => hy.1, fun hy => ⟨hy, fun heq => ?_⟩⟩
        exact hstep y heq hy

/-- Every other critical section leaves the allowlist and what a restart would load. -/
theorem agree_write {instr : Instr Id} (hbegins : instr.begins = false)
    (hupdates : instr.updates = false) :
    (write C s kind fresh env instr).allowed = s.allowed ∧
      restartAllowed C (write C s kind fresh env instr) = restartAllowed C s := by
  simp only [restartAllowed, write_allowed, write_pairedStore]
  refine ⟨?_, ?_⟩
  · split
    · cases hupdates
    · cases hupdates
    · rfl
  · split
    · cases hbegins
    · cases hbegins
    · exact StoreFile.loadAllowed_touch C.iroh _ _ _ _
    · cases hupdates
    · cases hbegins
    · rfl

end Operations

/-! ### Over whole runs -/

/-- The allowlist is the one a restart would load, or one operation is in between and accounts for
the difference. -/
def AgreementInv (C : Config Id) (s : State Id) : Prop :=
  ((∀ (p : Nat) (t : Task Id), s.procs[p]? = some t → t.updating = false) ∧
    s.shared.allowed = restartAllowed C s.shared) ∨
  ∃ (p : Nat) (t : Task Id), s.procs[p]? = some t ∧
    Phase C s.shared.allowed (restartAllowed C s.shared) t.todo ∧
    ∀ (q : Nat) (t' : Task Id), q ≠ p → s.procs[q]? = some t' → t'.updating = false

theorem agreementInv_of_progress {s : State Id} {p : Nat} {t : Task Id} {kind : Kind Id}
    {todo : List (Instr Id)} (hget : s.procs[p]? = some t) (hhas : t.Has kind todo)
    (h : Progress C s.shared todo)
    (hothers : ∀ (q : Nat) (t' : Task Id), q ≠ p → s.procs[q]? = some t' → t'.updating = false) :
    AgreementInv C s := by
  rcases h with ⟨hsettled, hagree⟩ | hphase
  · refine .inl ⟨fun q t' hq => ?_, hagree⟩
    by_cases hqp : q = p
    · subst hqp
      rw [hget] at hq
      obtain rfl := Option.some.inj hq
      rcases hhas.2 with htodo | ⟨htodo, -⟩
      · rw [Task.updating, htodo]
        exact hsettled
      · rw [Task.updating, htodo]
        rfl
    · exact hothers q t' hqp hq
  · refine .inr ⟨p, t, hget, ?_, hothers⟩
    rcases hhas.2 with htodo | ⟨-, hparks⟩
    · rwa [htodo]
    · rw [hphase.not_parks] at hparks
      cases hparks

theorem updating_step {s s' : State Id} {a : Act Id} {out : List (Out Id)}
    (hs : step C s a = some (s', out)) {q : Nat} {t' : Task Id} (hq : s'.procs[q]? = some t')
    (hu : t'.updating = true) :
    (∃ t, s.procs[q]? = some t ∧ t.updating = true) ∨
      ∃ env instr, a = .exec q env ∧ nextInstr s q = some instr ∧ instr.begins = true := by
  obtain ⟨kind, todo, horigin, hhas⟩ := step_origin hs hq
  have htodo : todo.any Instr.updates = true := by
    obtain ⟨i, hi, hup⟩ := List.any_eq_true.mp hu
    exact List.any_eq_true.mpr ⟨i, hhas.mem hi, hup⟩
  rcases updating_origin horigin htodo with ⟨t, hget, -, rfl, -⟩ |
    ⟨env, t, instr, rest, n, rfl, hget, htodo', -, -, hbegins | hupdating⟩
  · exact .inl ⟨t, hget, htodo⟩
  · exact .inr ⟨env, instr, rfl, nextInstr_eq hget htodo', hbegins⟩
  · exact .inl ⟨t, hget, hupdating⟩

theorem Phase.updating {allowed restart : Finset Id} {todo : List (Instr Id)}
    (h : Phase C allowed restart todo) : todo.any Instr.updates = true := by
  cases h <;> rfl

theorem agree_step {s s' : State Id} {a : Act Id} {out : List (Out Id)}
    (hs : step C s a = some (s', out)) (hidle : ∀ p env t instr rest, a = .exec p env →
      s.procs[p]? = some t → t.todo = instr :: rest →
      instr.begins = false ∧ instr.updates = false) :
    s'.shared.allowed = s.shared.allowed ∧
      restartAllowed C s'.shared = restartAllowed C s.shared := by
  rcases step_shared hs with ⟨hshared, -⟩ | ⟨p, env, t, instr, rest, kind, n, rfl, hget, htodo, -, hw, -⟩
  · rw [hshared]
    exact ⟨rfl, rfl⟩
  · rw [hw]
    obtain ⟨hbegins, hupdates⟩ := hidle p env t instr rest rfl hget htodo
    exact agree_write hbegins hupdates

theorem agreementInv_idle {s s' : State Id} {a : Act Id} {out : List (Out Id)} (hfits : AllFit C s)
    (hsettled : ∀ (p : Nat) (t : Task Id), s.procs[p]? = some t → t.updating = false)
    (hagree : s.shared.allowed = restartAllowed C s.shared)
    (hok : ∀ i ∈ doing s a, InStep C s.shared i.2.io i.1)
    (hs : step C s a = some (s', out)) : AgreementInv C s' := by
  by_cases hbegins : ∃ p env instr, a = .exec p env ∧ nextInstr s p = some instr ∧
      instr.begins = true
  · obtain ⟨p, env, instr, rfl, hinstr, hbegins⟩ := hbegins
    obtain ⟨t, rest, hget, htodo⟩ := exists_of_nextInstr hinstr
    obtain ⟨kind, n, t', hnext, hw, -, hget', hhas⟩ := step_exec hs hget htodo
    have hrest := hsettled p t hget
    rw [Task.updating, htodo, List.any_cons, Bool.or_eq_false_iff] at hrest
    have hfit := hfits p t hget
    rw [htodo] at hfit
    have hprogress := progress_begins (hfit.fits instr (by simp)) hbegins hrest.2 hagree
      (hok _ (doing_exec hget htodo)) hnext
    rw [← hw] at hprogress
    refine agreementInv_of_progress hget' hhas hprogress fun q t'' hqp hq => ?_
    by_contra hu
    rcases updating_step hs hq (by simpa using hu) with ⟨t₀, hget₀, hu₀⟩ | ⟨env', instr', heq, -⟩
    · rw [hsettled q t₀ hget₀] at hu₀
      cases hu₀
    · cases heq
      exact hqp rfl
  · have hsame := agree_step hs fun p env t instr rest ha hget htodo => by
      refine ⟨?_, ?_⟩
      · by_contra hb
        exact hbegins ⟨p, env, instr, ha, nextInstr_eq hget htodo, by simpa using hb⟩
      · have hrest := hsettled p t hget
        rw [Task.updating, htodo, List.any_cons, Bool.or_eq_false_iff] at hrest
        exact hrest.1
    refine .inl ⟨fun q t' hq => ?_, by rw [hsame.1, hsame.2, hagree]⟩
    by_contra hu
    rcases updating_step hs hq (by simpa using hu) with ⟨t₀, hget₀, hu₀⟩ | ⟨env, instr, ha, hinstr, hb⟩
    · rw [hsettled q t₀ hget₀] at hu₀
      cases hu₀
    · exact hbegins ⟨q, env, instr, ha, hinstr, hb⟩

theorem agreementInv_busy {s s' : State Id} {a : Act Id} {out : List (Out Id)} {p : Nat}
    {t : Task Id} (hget : s.procs[p]? = some t)
    (hphase : Phase C s.shared.allowed (restartAllowed C s.shared) t.todo)
    (hothers : ∀ (q : Nat) (t' : Task Id), q ≠ p → s.procs[q]? = some t' → t'.updating = false)
    (hok : StaysInStep C s a) (hs : step C s a = some (s', out)) : AgreementInv C s' := by
  obtain ⟨hone, hin, hcut⟩ := hok
  have hupdating : t.updating = true := hphase.updating
  -- nothing begins while it is in between
  have hnone : ∀ q env instr, a = .exec q env → nextInstr s q = some instr →
      instr.begins = false := by
    intro q env instr ha hinstr
    by_contra hb
    have hsettled := hone (instr, env) (by simp [ha, doing, hinstr]) (by simpa using hb) t
      (List.mem_of_getElem? hget)
    rw [hupdating] at hsettled
    cases hsettled
  have hothers' : ∀ (q : Nat) (t' : Task Id), q ≠ p → s'.procs[q]? = some t' →
      t'.updating = false := by
    intro q t' hqp hq
    by_contra hu
    rcases updating_step hs hq (by simpa using hu) with ⟨t₀, hget₀, hu₀⟩ | ⟨env, instr, ha, hinstr, hb⟩
    · rw [hothers q t₀ hqp hget₀] at hu₀
      cases hu₀
    · rw [hnone q env instr ha hinstr] at hb
      cases hb
  obtain ⟨t', kind, todo, hget', hcont, hhas⟩ := step_continues hs hget
  cases hcont with
  | kept hne =>
    have hsame := agree_step hs fun q env t₁ instr rest ha hget₁ htodo => by
      have hqp : q ≠ p := by
        rintro rfl
        exact hne (by rw [ha]; rfl)
      have hsettled := hothers q t₁ hqp hget₁
      rw [Task.updating, htodo, List.any_cons, Bool.or_eq_false_iff] at hsettled
      exact ⟨hnone q env instr ha (nextInstr_eq hget₁ htodo), hsettled.1⟩
    refine agreementInv_of_progress hget' hhas (.inr ?_) hothers'
    rw [hsame.1, hsame.2]
    exact hphase
  | exec htodo hnext =>
    obtain ⟨_, _, _, -, hw, -⟩ := step_exec hs hget htodo
    rw [htodo] at hphase
    have hprogress := progress_phase hphase (hin _ (doing_exec hget htodo)) hnext
    rw [← hw] at hprogress
    exact agreementInv_of_progress hget' hhas hprogress hothers'
  | recv => exact absurd hphase Phase.not_read
  | close =>
    rw [hcut _ hget] at hupdating
    cases hupdating
  | drop =>
    rw [hcut _ hget] at hupdating
    cases hupdating

theorem agreementInv_start (store : StoreFile) (rotated : Bool) (io : Io) (d : Discoverability)
    (relay : Option String) : AgreementInv C (start C store rotated io d relay) := by
  refine .inl ⟨fun p t hp => ?_, ?_⟩
  · obtain rfl := eq_of_start hp
    rfl
  · simp only [start, restartAllowed]
    split
    · exact (StoreFile.loadAllowed_markStale C.iroh store io).symm
    · rfl

/-- In every run in which the operations come one after the other and each updates the store and the
allowlist for the same id, a restart would not change who is allowed. -/
theorem allowlist_agrees (C : Config Id) (store : StoreFile) (rotated : Bool) (io : Io)
    (d : Discoverability) (relay : Option String) (tr : List (Step Id)) (s : State Id)
    (hrun : Run (machine C) (StaysInStep C) (start C store rotated io d relay) tr s) :
    Agrees C s := by
  have hinv : AgreementInv C s := by
    refine hrun.invariant_of_run (I := fun _ s => AgreementInv C s)
      (agreementInv_start store rotated io d relay) ?_
    rintro tr s s' a out hprev (⟨hsettled, hagree⟩ | ⟨p, t, hget, hphase, hothers⟩) hok hs
    · exact agreementInv_idle (fits_run hprev) hsettled hagree hok.2.1 hs
    · exact agreementInv_busy hget hphase hothers hok hs
  intro hsettled
  rcases hinv with ⟨-, hagree⟩ | ⟨p, t, hget, hphase, -⟩
  · exact hagree
  · have hupdating : t.updating = true := hphase.updating
    rw [hsettled t (List.mem_of_getElem? hget)] at hupdating
    cases hupdating

/-! ### A pairing that could not be stored -/

/-- The file can be read and not written. -/
def readOnly : Env := { quiet with io := ⟨true, false⟩ }

/-- Bob pairs in a window while the store cannot be written. -/
def unstoredPairing : List (Act Key) :=
  supervisor ++ windowOpened 1 ++ hosted 3 .bob 7 ++ completed 3 .bob Key.bob.hex 7 ++
    [.exec 3 quiet, .exec 3 readOnly] ++ go 3 7

/-- He is allowed, and a restart would not load him. -/
theorem allows_unstored : ¬ ∀ tr s,
    Run (machine alice) OneAtATime (aliceStart .missing) tr s → Agrees alice s := by
  intro hclaim
  obtain ⟨tr, s, hrun, htest⟩ := Run.of_check (machine alice) OneAtATime (aliceStart .missing)
    unstoredPairing (fun _ s => (∀ t ∈ s.procs, t.updating = false) ∧
      .bob ∈ s.shared.allowed ∧ .bob ∉ restartAllowed alice s.shared) (by decide +kernel)
  obtain ⟨hsettled, hallowed, hrestart⟩ := of_decide_eq_true htest
  rw [hclaim tr s hrun hsettled] at hallowed
  exact hrestart hallowed

def pairedThenForgotten : List (Act Key) :=
  supervisor ++ windowOpened 1 ++ hosted 3 .bob 7 ++ completed 3 .bob Key.bob.hex 7 ++ go 3 9 ++
    forgotten 5 .bob

/-- The theorem applies to a run in which Bob is allowed, and then no more. -/
theorem allowlist_agrees_pairedThenForgotten :
    ∃ tr s, Run (machine alice) (StaysInStep alice) (aliceStart .missing) tr s ∧
      (∃ e ∈ tr, .bob ∈ e.pre.shared.allowed) ∧ .bob ∉ s.shared.allowed ∧
      s.shared.allowed = restartAllowed alice s.shared := by
  obtain ⟨tr, s, hrun, htest⟩ := Run.of_check (machine alice) (StaysInStep alice)
    (aliceStart .missing) pairedThenForgotten (fun tr s =>
      (∀ t ∈ s.procs, t.updating = false) ∧ (∃ e ∈ tr, .bob ∈ e.pre.shared.allowed) ∧
      .bob ∉ s.shared.allowed) (by decide +kernel)
  obtain ⟨hsettled, hpaired, hforgotten⟩ := of_decide_eq_true htest
  exact ⟨tr, s, hrun, hpaired, hforgotten,
    allowlist_agrees alice .missing false ⟨true, true⟩ .everyone none tr s hrun hsettled⟩

end DashBeam.Node

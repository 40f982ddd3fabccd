import DashBeam.Node.Fits

/-!
# Updates of the presence and session maps

The presence of a peer and its session live in two maps, and every operation on them takes several
steps. `Instr.isUpdate` are the steps that change one of the two, and `Instr.starts` those that lead
to such steps later on; of what a task has to do, the updates come first (`ordered`). `outcome` is
what the two maps say about a key once a task has gone through all its updates, if no other task
comes in between.
-/

namespace DashBeam.Node

open Protocol Native Lib

set_option linter.unusedSectionVars false

variable {Id : Type} [DecidableEq Id] {C : Config Id}

/-! ### Updates, and what leads to them -/

/-- The critical section changes the presence map or the session map, or decides how to. -/
def Instr.isUpdate : Instr Id → Bool
  | .common (.setPresence ..) | .common (.insertSession ..) | .common (.removeSession _)
  | .common (.removeSessionIf ..) | .control .registerInbound => true
  | _ => false

/-- The key whose entries the critical section updates. -/
def Instr.slot (C : Config Id) (kind : Kind Id) : Instr Id → Option String
  | .common (.setPresence e _) => some (C.key e)
  | .common (.insertSession key _) | .common (.removeSession key)
  | .common (.removeSessionIf key _) => some key
  | .control .registerInbound =>
    match kind with
    | .control c => some (C.iroh.toStr c.conn.remote)
    | _ => none
  | _ => none

/-- The task waits here, or goes on to something that may come to an update. -/
def Instr.starts : Instr Id → Bool
  | .common .read | .common .sleep | .common (.remember ..) | .common (.markUnpaired _) => true
  | .control .registerInbound | .control .emitPairedName => false
  | .control _ | .connect _ | .service _ | .accept _ => true
  | .host (.hostRecord _) | .host .hostHello => true
  | _ => false

/-- An operation on the two maps begins here. -/
def Instr.opens : Instr Id → Bool
  | .common (.markUnpaired _) | .control (.recheckAllowed _) | .control (.chargeToken _)
  | .control (.hangUp ..) | .connect .dial | .connect (.unpairMark ..)
  | .service (.deliverDial _) | .service (.forgetRecord _) => true
  | _ => false

/-- No update comes after something that leads to updates. -/
def ordered : List (Instr Id) → Bool
  | [] => true
  | i :: l => (!i.starts || !l.any Instr.isUpdate) && ordered l

/-- The key of a session is written in lower case. -/
def Instr.Lowered (C : Config Id) : Instr Id → Prop
  | .common (.insertSession key _) | .common (.removeSession key)
  | .common (.removeSessionIf key _) => C.key key = key
  | _ => True

theorem isUpdate_of_slot {kind : Kind Id} {i : Instr Id} {key : String}
    (h : i.slot C kind = some key) : i.isUpdate = true := by
  unfold Instr.slot at h
  split at h
  · rfl
  · rfl
  · rfl
  · rfl
  · rfl
  · cases h

theorem slot_eq_none {kind : Kind Id} {i : Instr Id} (h : i.isUpdate = false) :
    i.slot C kind = none := by
  by_contra hne
  obtain ⟨key, hkey⟩ := Option.ne_none_iff_exists'.mp hne
  rw [isUpdate_of_slot hkey] at h
  cases h

theorem isUpdate_of_starts {i : Instr Id} (h : i.starts = true) : i.isUpdate = false := by
  rcases i with i | i | i | i | i | i | i | i <;> cases i <;> first | rfl | cases h

theorem starts_of_opens {i : Instr Id} (h : i.opens = true) : i.starts = true := by
  rcases i with i | i | i | i | i | i | i | i <;> cases i <;> first | rfl | cases h

theorem ordered_append {l l' : List (Instr Id)} (hl : ordered l = true) (hl' : ordered l' = true)
    (h : l.any Instr.starts = false ∨ l'.any Instr.isUpdate = false) :
    ordered (l ++ l') = true := by
  induction l with
  | nil => exact hl'
  | cons i l ih =>
    simp only [ordered, Bool.and_eq_true, Bool.or_eq_true, Bool.not_eq_true'] at hl
    have htail : l.any Instr.starts = false ∨ l'.any Instr.isUpdate = false := by
      rcases h with h | h
      · rw [List.any_cons, Bool.or_eq_false_iff] at h
        exact .inl h.2
      · exact .inr h
    rw [List.cons_append, ordered, ih hl.2 htail, Bool.and_true, Bool.or_eq_true,
      Bool.not_eq_true', Bool.not_eq_true', List.any_append, Bool.or_eq_false_iff]
    rcases hl.1 with hi | hquiet
    · exact .inl hi
    · rcases h with h | h
      · rw [List.any_cons, Bool.or_eq_false_iff] at h
        exact .inl h.1
      · exact .inr ⟨hquiet, h⟩

theorem ordered_of_quiet {l : List (Instr Id)} (h : l.any Instr.isUpdate = false) :
    ordered l = true := by
  induction l with
  | nil => rfl
  | cons i l ih =>
    rw [List.any_cons, Bool.or_eq_false_iff] at h
    rw [ordered, ih h.2, h.2]
    simp

theorem ordered_of_unstarted {l : List (Instr Id)} (h : l.any Instr.starts = false) :
    ordered l = true := by
  induction l with
  | nil => rfl
  | cons i l ih =>
    rw [List.any_cons, Bool.or_eq_false_iff] at h
    rw [ordered, ih h.2, h.1]
    rfl

theorem quiet_of_ordered {i : Instr Id} {l : List (Instr Id)} (h : ordered (i :: l) = true)
    (hi : i.starts = true) : l.any Instr.isUpdate = false := by
  simp only [ordered, hi, Bool.not_true, Bool.false_or, Bool.and_eq_true, Bool.not_eq_true'] at h
  exact h.1

/-! ### What a critical section puts before the rest -/

/-- What follows a critical section: the updates first; no update unless it was one itself or begins
an operation; and its keys in lower case. -/
structure PushOk (C : Config Id) (instr : Instr Id) (push : List (Instr Id)) : Prop where
  ordered : ordered push = true
  unstarted : instr.starts = false → push.any Instr.starts = false
  inert : instr.opens = false → instr.isUpdate = false → push.any Instr.isUpdate = false
  lowered : ∀ i ∈ push, i.Lowered C

theorem lowered_of_quiet {i : Instr Id} (h : i.isUpdate = false) : i.Lowered C := by
  rcases i with i | i | i | i | i | i | i | i <;> cases i <;> trivial

def Instr.idle (i : Instr Id) : Bool := !i.starts && !i.isUpdate

theorem pushOk_of_idle {instr : Instr Id} {push : List (Instr Id)}
    (h : push.all Instr.idle = true) : PushOk C instr push := by
  have hall : ∀ i ∈ push, i.starts = false ∧ i.isUpdate = false := by
    intro i hi
    simpa [Instr.idle] using List.all_eq_true.mp h i hi
  have hstarts : push.any Instr.starts = false :=
    List.any_eq_false.mpr fun i hi => by simp [(hall i hi).1]
  have hupdates : push.any Instr.isUpdate = false :=
    List.any_eq_false.mpr fun i hi => by simp [(hall i hi).2]
  refine ⟨ordered_of_quiet hupdates, fun _ => hstarts, fun _ _ => hupdates,
    fun i hi => lowered_of_quiet (hall i hi).2⟩

/-- An operation may begin with anything in the right order. -/
theorem pushOk_of_opens {instr : Instr Id} {push : List (Instr Id)} (hinstr : instr.opens = true)
    (hordered : Node.ordered push = true) (hlowered : ∀ i ∈ push, i.Lowered C) :
    PushOk C instr push :=
  ⟨hordered, by simp [starts_of_opens hinstr], by simp [hinstr], hlowered⟩

theorem pushOk_of_quiet {instr : Instr Id} {push : List (Instr Id)} (hinstr : instr.starts = true)
    (h : push.any Instr.isUpdate = false) : PushOk C instr push :=
  ⟨ordered_of_quiet h, by simp [hinstr], fun _ _ => h, fun i hi =>
    lowered_of_quiet (by simpa using List.any_eq_false.mp h i hi)⟩

section Next

variable {s : Shared Id} {fresh : Nat} {env : Env}

theorem lowered_managerForget {e : String} {i : Instr Id} (hi : i ∈ managerForget C e) :
    i.Lowered C := by
  simp only [managerForget, List.mem_cons, List.not_mem_nil, or_false] at hi
  rcases hi with rfl | rfl
  · trivial
  · exact Config.key_key C e

theorem pushOk_of_update {instr : Instr Id} {push : List (Instr Id)} (hupdate : instr.isUpdate = true)
    (hordered : ordered push = true) (hstarts : push.any Instr.starts = false)
    (hlowered : ∀ i ∈ push, i.Lowered C) : PushOk C instr push := by
  refine ⟨hordered, fun _ => hstarts, fun _ hinert => ?_, hlowered⟩
  rw [hupdate] at hinert
  cases hinert

theorem pushOk_nextCommon {instr : CommonInstr Id} :
    PushOk C (.common instr) (nextCommon C s fresh env instr).push := by
  cases instr with
  | remember flow device =>
    have hquiet : ∀ stored, (afterRemember C flow device stored).any Instr.isUpdate = false := by
      intro stored
      cases flow with
      | pairingHost => rfl
      | join | commitNearby =>
        simp only [afterRemember]
        split <;> rfl
      | acceptNearby =>
        simp only [afterRemember]
        split
        · split <;> rfl
        · rfl
    exact pushOk_of_quiet rfl (hquiet _)
  | markUnpaired id =>
    simp only [nextCommon]
    split
    · refine pushOk_of_opens rfl rfl fun i hi => ?_
      simp only [List.mem_append, List.mem_cons, List.not_mem_nil, or_false] at hi
      rcases hi with ((rfl | rfl) | hi) | rfl
      · trivial
      · trivial
      · exact lowered_managerForget hi
      · trivial
    · exact pushOk_of_idle rfl
  | removeSession key =>
    simp only [nextCommon]
    split
    · exact pushOk_of_update rfl rfl rfl (by simp [Instr.Lowered])
    · exact pushOk_of_idle rfl
  | removeSessionIf key conn =>
    simp only [nextCommon]
    split
    · exact pushOk_of_update rfl rfl rfl (by simp [Instr.Lowered])
    · exact pushOk_of_idle rfl
  | setPresence | refreshList =>
    simp only [nextCommon]
    split <;> exact pushOk_of_idle rfl
  | _ => exact pushOk_of_idle rfl

theorem lowered_setSession {e : String} {conn : Conn Id} {i : Instr Id}
    (hi : i ∈ setSession (C.key e) conn) : i.Lowered C := by
  simp only [setSession, List.mem_cons, List.not_mem_nil, or_false] at hi
  rcases hi with rfl | rfl | rfl
  · exact Config.key_key C e
  · trivial
  · trivial

theorem lowered_leaveSession {c : ControlSession Id} {i : Instr Id} (hi : i ∈ leaveSession C c) :
    i.Lowered C := by
  unfold leaveSession at hi
  split at hi
  · rw [List.mem_singleton] at hi
    subst hi
    exact Config.key_key C _
  · simp at hi

theorem handlePaired_shape (c : ControlSession Id) (msg : ControlMessage) :
    ordered (handlePairedControlMessage C c msg) = true ∧
      ∀ i ∈ handlePairedControlMessage C c msg, i.Lowered C := by
  cases msg with
  | inviteResponse | forget =>
    simp only [handlePairedControlMessage]
    split <;> exact ⟨rfl, by simp [Instr.Lowered]⟩
  | recognition =>
    simp only [handlePairedControlMessage]
    split
    · exact ⟨rfl, by simp [recognise, Instr.Lowered]⟩
    · exact ⟨rfl, by simp [Instr.Lowered]⟩
  | _ => exact ⟨rfl, by simp [handlePairedControlMessage, Instr.Lowered]⟩

theorem dispatch_shape {c : ControlSession Id} {msg : ControlMessage} :
    ordered (dispatch C c msg).2 = true ∧ ∀ i ∈ (dispatch C c msg).2, i.Lowered C := by
  obtain ⟨hordered, hlowered⟩ := handlePaired_shape (C := C) c msg
  unfold dispatch
  split
  · exact ⟨rfl, by simp [Instr.Lowered]⟩
  · split
    · refine ⟨hordered, fun i hi => ?_⟩
      rcases List.mem_cons.mp hi with rfl | hi
      · trivial
      · exact hlowered i hi
    · exact ⟨hordered, hlowered⟩

theorem pushOk_nextControl {c : ControlSession Id} {instr : ControlInstr} :
    PushOk C (.control instr) (nextControl C s c env instr).2.push := by
  cases instr with
  | recheckAllowed | chargeToken =>
    simp only [nextControl]
    split
    · exact pushOk_of_opens rfl dispatch_shape.1 dispatch_shape.2
    · exact pushOk_of_quiet rfl rfl
  | answerIdentity =>
    simp only [nextControl]
    split
    · exact pushOk_of_quiet rfl rfl
    · split <;> exact pushOk_of_quiet rfl rfl
  | hangUp =>
    refine pushOk_of_opens rfl (ordered_of_unstarted ?_) fun i hi => lowered_leaveSession hi
    simp only [nextControl, leaveSession]
    split <;> rfl
  | registerInbound =>
    simp only [nextControl]
    split
    · exact pushOk_of_update rfl rfl rfl (by simp [Instr.Lowered])
    · exact pushOk_of_update rfl rfl rfl fun i hi => lowered_setSession hi
  | takePending =>
    simp only [nextControl]
    split
    · exact pushOk_of_quiet rfl rfl
    · split <;> exact pushOk_of_quiet rfl rfl
  | commitNearby => exact pushOk_of_quiet rfl rfl
  | emitPairedName => exact pushOk_of_idle rfl

theorem pushOk_nextHost {h : HostSession Id} {instr : HostInstr} :
    PushOk C (.host instr) (nextHost C s h env instr).push := by
  cases instr with
  | hostHello =>
    simp only [nextHost]
    split <;> exact pushOk_of_quiet rfl rfl
  | hostRecord => exact pushOk_of_quiet rfl rfl
  | loadPersistent =>
    simp only [nextHost]
    split <;> exact pushOk_of_idle rfl
  | hostInvite | hostVote => exact pushOk_of_idle rfl

theorem quiet_unpairSkipped (cause : UnpairCause Id) :
    (unpairSkipped cause).any Instr.isUpdate = false := by
  cases cause <;> rfl

theorem lowered_unpairEffects {e : String} {device : PairedDevice} {cause : UnpairCause Id}
    {i : Instr Id} (hi : i ∈ unpairEffects C e device cause) : i.Lowered C := by
  unfold unpairEffects at hi
  rcases List.mem_append.mp hi with hi | hi
  · split at hi
    · rw [List.mem_singleton] at hi
      subst hi
      trivial
    · simp at hi
  · simp only [List.mem_cons, List.not_mem_nil, or_false] at hi
    rcases hi with rfl | rfl <;> trivial

theorem pushOk_nextConnect {l : ConnectLoop Id} {instr : ConnectInstr Id} :
    PushOk C (.connect instr) (nextConnect C s l env instr).2.push := by
  cases instr with
  | loopTop =>
    simp only [nextConnect]
    split
    · split <;> exact pushOk_of_quiet rfl rfl
    · exact pushOk_of_quiet rfl rfl
  | dial =>
    simp only [nextConnect]
    split
    · refine pushOk_of_opens rfl rfl fun i hi => ?_
      rcases List.mem_append.mp hi with hi | hi
      · exact lowered_setSession hi
      · rw [List.mem_singleton] at hi
        subst hi
        trivial
    · exact pushOk_of_opens rfl rfl (by simp [backOff, Instr.Lowered])
  | settling =>
    simp only [nextConnect]
    split
    · split <;> exact pushOk_of_quiet rfl rfl
    · exact pushOk_of_quiet rfl rfl
  | unpairGet e cause =>
    simp only [nextConnect]
    split
    · split
      · exact pushOk_of_quiet rfl rfl
      · exact pushOk_of_quiet rfl (quiet_unpairSkipped cause)
    · exact pushOk_of_quiet rfl (quiet_unpairSkipped cause)
  | unpairMark e cause =>
    simp only [nextConnect]
    split
    · refine pushOk_of_opens rfl (ordered_of_unstarted ?_) fun i hi => ?_
      · cases cause <;> simp only [unpairEffects] <;> split <;> rfl
      · rcases List.mem_append.mp hi with hi | hi
        · exact lowered_unpairEffects hi
        · cases cause with
          | forgetReceived conn =>
            rw [unpairApplied, List.mem_singleton] at hi
            subst hi
            exact Config.key_key C _
          | recognitionRefused => simp [unpairApplied] at hi
    · exact pushOk_of_quiet rfl (quiet_unpairSkipped cause)

theorem quiet_onDelivery (d : Delivery) : (onSent d : List (Instr Id)).any Instr.isUpdate = false ∧
    (onUnreached d : List (Instr Id)).any Instr.isUpdate = false ∧
    (onError d : List (Instr Id)).any Instr.isUpdate = false := by
  obtain ⟨e, msg, cached, purpose⟩ := d
  cases purpose <;> exact ⟨rfl, rfl, rfl⟩

theorem pushOk_nextService {instr : ServiceInstr Id} :
    PushOk C (.service instr) (nextService C s env instr).push := by
  cases instr with
  | findNearby e msg =>
    simp only [nextService]
    split
    · refine pushOk_of_quiet rfl ?_
      unfold onFound
      split
      · split <;> rfl
      · rfl
    · exact pushOk_of_quiet rfl rfl
  | checkAllowed | forgetGet | setDiscoverability =>
    simp only [nextService]
    split <;> exact pushOk_of_quiet rfl rfl
  | deliverStored d =>
    simp only [nextService]
    split
    · split <;> exact pushOk_of_quiet rfl rfl
    · exact pushOk_of_quiet rfl (quiet_onDelivery d).2.2
  | waitSession d =>
    simp only [nextService]
    split <;> exact pushOk_of_quiet rfl rfl
  | deliverDial d =>
    simp only [nextService]
    split
    · exact pushOk_of_quiet rfl (quiet_onDelivery d).2.2
    · exact pushOk_of_quiet rfl (quiet_onDelivery d).2.1
    · split
      · exact pushOk_of_opens rfl rfl (by simp [recognise, Instr.Lowered])
      · exact pushOk_of_quiet rfl rfl
  | deliverWrite d conn =>
    simp only [nextService]
    split
    · exact pushOk_of_quiet rfl (quiet_onDelivery d).1
    · exact pushOk_of_quiet rfl (quiet_onDelivery d).2.2
  | joinDial e relay =>
    simp only [nextService]
    split <;> exact pushOk_of_quiet rfl rfl
  | joinReply conn relay =>
    refine pushOk_of_quiet rfl ?_
    simp only [nextService]
    unfold onHostReply
    split
    · split
      · split <;> rfl
      · rfl
    · rfl
  | forgetLive e =>
    simp only [nextService]
    split
    · exact pushOk_of_quiet rfl rfl
    · refine pushOk_of_quiet rfl ?_
      simp only [forgetRest]
      split <;> rfl
  | forgetSend e conn =>
    simp only [nextService]
    split <;>
    · refine pushOk_of_quiet rfl ?_
      simp only [forgetRest]
      split <;> rfl
  | forgetRecord e =>
    simp only [nextService]
    split
    · refine pushOk_of_opens rfl rfl fun i hi => ?_
      rcases List.mem_append.mp hi with hi | hi
      · exact lowered_managerForget hi
      · simp only [List.mem_cons, List.not_mem_nil, or_false] at hi
        rcases hi with rfl | rfl | rfl <;> trivial
    · exact pushOk_of_quiet rfl rfl
  | notifyForget e =>
    simp only [nextService]
    split <;> exact pushOk_of_quiet rfl rfl
  | rebuild previous setting =>
    refine pushOk_of_quiet rfl ?_
    simp only [nextService]
    split
    · split <;> rfl
    · rfl
  | probeAccept | insertPending | block | restoreDiscoverability | clearNearby =>
    exact pushOk_of_quiet rfl rfl

theorem pushOk_nextLan {instr : LanInstr} :
    PushOk C (.lan instr) (nextLan C s env instr).push := by
  cases instr with
  | observe | probe =>
    simp only [nextLan]
    split <;> exact pushOk_of_idle rfl
  | nudgeGet =>
    simp only [nextLan]
    split
    · split <;> exact pushOk_of_idle rfl
    · exact pushOk_of_idle rfl
  | nudgeSession =>
    simp only [nextLan]
    split <;> exact pushOk_of_idle rfl
  | appeared | vanished | respawn | setIdentity => exact pushOk_of_idle rfl

theorem pushOk_next {kind kind' : Kind Id} {instr : Instr Id} {n : Next Id}
    (hnext : next C s kind fresh env instr = some (kind', n)) : PushOk C instr n.push := by
  cases next_case hnext with
  | common => exact pushOk_nextCommon
  | service => exact pushOk_nextService
  | @window instr => cases instr <;> exact pushOk_of_idle rfl
  | lan => exact pushOk_nextLan
  | @accept instr conn =>
    refine pushOk_of_quiet rfl ?_
    rw [List.any_eq_false]
    intro i hi
    cases acceptPush_next hi <;> simp [Instr.isUpdate]
  | control => exact pushOk_nextControl
  | host => exact pushOk_nextHost
  | connect => exact pushOk_nextConnect

end Next

/-! ### What a task has to do -/

/-- The updates come first, and the keys are in lower case. -/
structure TodoOk (C : Config Id) (todo : List (Instr Id)) : Prop where
  ordered : ordered todo = true
  lowered : ∀ i ∈ todo, i.Lowered C

theorem todoOk_of_quiet {todo : List (Instr Id)} (h : todo.any Instr.isUpdate = false) :
    TodoOk C todo :=
  ⟨ordered_of_quiet h, fun i hi => lowered_of_quiet (by simpa using List.any_eq_false.mp h i hi)⟩

theorem TodoOk.has {kind : Kind Id} {todo : List (Instr Id)} {t : Task Id} (h : TodoOk C todo)
    (hhas : t.Has kind todo) : TodoOk C t.todo := by
  obtain ⟨-, htodo | ⟨htodo, -⟩⟩ := hhas
  · rw [htodo]
    exact h
  · rw [htodo]
    exact todoOk_of_quiet rfl

theorem TodoOk.exec {s : Shared Id} {kind kind' : Kind Id} {fresh : Nat} {env : Env}
    {instr : Instr Id} {rest : List (Instr Id)} {n : Next Id} (h : TodoOk C (instr :: rest))
    (hnext : next C s kind fresh env instr = some (kind', n)) : TodoOk C (n.push ++ rest) := by
  have hpush := pushOk_next hnext
  have hrest : Node.ordered rest = true := by
    have hordered := h.ordered
    rw [Node.ordered, Bool.and_eq_true] at hordered
    exact hordered.2
  refine ⟨ordered_append hpush.ordered hrest ?_, fun i hi => ?_⟩
  · cases hstarts : instr.starts with
    | true => exact .inr (quiet_of_ordered h.ordered hstarts)
    | false => exact .inl (hpush.unstarted hstarts)
  · rcases List.mem_append.mp hi with hi | hi
    · exact hpush.lowered i hi
    · exact h.lowered i (by simp [hi])

theorem todoOk_receiveControl {c : ControlSession Id} {msg : ControlMessage} :
    TodoOk C (receiveControl C c msg).2 := by
  unfold receiveControl
  split
  · exact ⟨dispatch_shape.1, dispatch_shape.2⟩
  · split <;> exact todoOk_of_quiet rfl

theorem quiet_hostNext (h : HostSession Id) : (hostNext h).any Instr.isUpdate = false := by
  unfold hostNext
  split <;> rfl

theorem todoOk_receiveHost {h : HostSession Id} {msg : ControlMessage} :
    TodoOk C (receiveHost C h msg).2 := by
  have hcons : ∀ {h : HostSession Id} {i : Instr Id}, i.isUpdate = false →
      TodoOk C (i :: hostNext h) := by
    intro h i hi
    refine todoOk_of_quiet ?_
    rw [List.any_cons, hi, quiet_hostNext]
    rfl
  cases msg with
  | pairingInfo =>
    simp only [receiveHost]
    split
    · exact todoOk_of_quiet rfl
    · split
      · exact todoOk_of_quiet (quiet_hostNext _)
      · exact todoOk_of_quiet rfl
  | invite | inviteResponse => exact hcons rfl
  | recognition =>
    simp only [receiveHost]
    split
    · have hnext := todoOk_of_quiet (C := C) (quiet_hostNext h)
      refine ⟨ordered_append rfl hnext.ordered (.inl rfl), fun i hi => ?_⟩
      rcases List.mem_append.mp hi with hi | hi
      · simp only [recognise, List.mem_cons, List.not_mem_nil, or_false] at hi
        rcases hi with rfl | rfl <;> trivial
      · exact hnext.lowered i hi
    · exact todoOk_of_quiet (quiet_hostNext _)
  | forget =>
    simp only [receiveHost]
    split
    · exact hcons rfl
    · exact todoOk_of_quiet (quiet_hostNext _)
  | rememberVote | whoAreYou | identity | pairRequest => exact todoOk_of_quiet (quiet_hostNext _)

theorem todoOk_readOutbound {conn : Conn Id} {msg : ControlMessage} :
    TodoOk C (readOutbound C conn msg) := by
  cases msg with
  | recognition =>
    simp only [readOutbound]
    split
    · exact ⟨rfl, by simp [recognise, Instr.Lowered]⟩
    · exact todoOk_of_quiet rfl
  | forget =>
    simp only [readOutbound]
    split <;> exact todoOk_of_quiet rfl
  | _ => exact todoOk_of_quiet rfl

theorem todoOk_closedTodo {kind : Kind Id} {reason : String} :
    TodoOk C (closedTodo C kind reason) := by
  cases kind with
  | control c =>
    refine ⟨ordered_of_unstarted ?_, fun i hi => lowered_leaveSession hi⟩
    simp only [closedTodo, leaveSession]
    split <;> rfl
  | host h =>
    simp only [closedTodo]
    split <;> exact todoOk_of_quiet rfl
  | connect l =>
    simp only [closedTodo]
    split
    · refine ⟨?_, fun i hi => ?_⟩
      · split <;> rfl
      · rw [List.mem_cons] at hi
        rcases hi with rfl | hi
        · exact Config.key_key C _
        · split at hi
          · rw [List.mem_singleton] at hi
            subst hi
            trivial
          · simp only [backOff, List.mem_cons, List.not_mem_nil, or_false] at hi
            rcases hi with rfl | rfl <;> trivial
    · exact todoOk_of_quiet rfl
  | inbound | call | expiry | lan | background => exact todoOk_of_quiet rfl

theorem quiet_program (call : Call) : (program C call).any Instr.isUpdate = false := by
  cases call with
  | declineNearbyInvite e block => cases block <;> rfl
  | invitePairedDevice | respondPairedInvite =>
    simp only [program]
    split <;> rfl
  | startPairingHost ttlSecs => cases ttlSecs <;> rfl
  | _ => rfl

theorem quiet_started {a : Act Id} {t : Task Id} (h : started C a = some t) :
    t.todo.any Instr.isUpdate = false := by
  cases started_case h with
  | connect | appeared | vanished => rfl
  | call call => exact quiet_program call

theorem quiet_spawned {t : Task Id} (h : Spawned t) : t.todo.any Instr.isUpdate = false := by
  cases h <;> rfl

/-- What every task of the state has to do is in order. -/
def AllTodoOk (C : Config Id) (s : State Id) : Prop :=
  ∀ (p : Nat) (t : Task Id), s.procs[p]? = some t → TodoOk C t.todo

theorem AllTodoOk.step {s s' : State Id} {a : Act Id} {out : List (Out Id)} (h : AllTodoOk C s)
    (hs : Node.step C s a = some (s', out)) : AllTodoOk C s' := by
  intro q t' hq
  obtain ⟨kind, todo, horigin, hhas⟩ := step_origin hs hq
  refine TodoOk.has ?_ hhas
  cases horigin with
  | kept hne hget => exact h q _ hget
  | exec hget htodo hnext =>
    have hok := h q _ hget
    rw [htodo] at hok
    exact hok.exec hnext
  | recv hget hrecv =>
    cases received_case hrecv with
    | control c => exact todoOk_receiveControl
    | host c => exact todoOk_receiveHost
    | connect hconn => exact todoOk_readOutbound
  | close hget hsees => exact todoOk_closedTodo
  | drop hget => exact todoOk_of_quiet rfl
  | spawned hget hnext hmem hnew => exact todoOk_of_quiet (quiet_spawned (next_spawn hnext hmem))
  | started hactor hstart hnew => exact todoOk_of_quiet (quiet_started hstart)

theorem allTodoOk_run {ok : State Id → Act Id → Prop} {store : StoreFile} {rotated : Bool} {io : Io}
    {d : Discoverability} {relay : Option String} {tr : List (Step Id)} {s : State Id}
    (hrun : Run (machine C) ok (start C store rotated io d relay) tr s) : AllTodoOk C s := by
  refine hrun.stateInvariant ?_ (fun h _ hs => h.step hs)
  intro p t hp
  obtain rfl := eq_of_start hp
  exact todoOk_of_quiet rfl

/-! ### The outcome of what is outstanding -/

/-- What the session map and the presence map say about a key. -/
abbrev Slot (Id : Type) := Option (Conn Id) × Option Bool

def slotOf (s : Shared Id) (key : String) : Slot Id := (s.sessions key, s.presence key)

/-- What a critical section makes of a key's entries, with the presence that follows from it. -/
def Instr.outcome (C : Config Id) (kind : Kind Id) (key : String) (v : Slot Id) : Instr Id → Slot Id
  | .common (.setPresence e online) => if C.key e = key then (v.1, some online) else v
  | .common (.insertSession k conn) => if k = key then (some conn, v.2) else v
  | .common (.removeSession k) => if k = key ∧ v.1.isSome then (none, some false) else v
  | .common (.removeSessionIf k conn) =>
    if k = key ∧ v.1.any fun current => current.num = conn.num then (none, some false) else v
  | .control .registerInbound =>
    match kind with
    | .control c =>
      if C.iroh.toStr c.conn.remote = key then (v.1.or (some c.conn), some true) else v
    | _ => v
  | _ => v

/-- What all that is outstanding makes of a key's entries. -/
def outcome (C : Config Id) (kind : Kind Id) (key : String) (todo : List (Instr Id))
    (v : Slot Id) : Slot Id :=
  todo.foldl (Instr.outcome C kind key) v

section outcome

variable {kind : Kind Id} {key : String} {v : Slot Id}

@[simp]
theorem outcome_nil : outcome C kind key [] v = v := rfl

@[simp]
theorem outcome_cons (i : Instr Id) (l : List (Instr Id)) :
    outcome C kind key (i :: l) v = outcome C kind key l (i.outcome C kind key v) := rfl

theorem outcome_append (l l' : List (Instr Id)) :
    outcome C kind key (l ++ l') v = outcome C kind key l' (outcome C kind key l v) := by
  rw [outcome, List.foldl_append]
  rfl

theorem outcome_of_ne {i : Instr Id} (h : i.slot C kind ≠ some key) :
    i.outcome C kind key v = v := by
  unfold Instr.outcome
  split
  · exact if_neg fun hkey => h (congrArg some hkey)
  · exact if_neg fun hkey => h (congrArg some hkey)
  · exact if_neg fun hkey => h (congrArg some hkey.1)
  · exact if_neg fun hkey => h (congrArg some hkey.1)
  · split
    · exact if_neg fun hkey => h (congrArg some hkey)
    · rfl
  · rfl

/-- A task with no update of the key outstanding leaves it as it is. -/
theorem outcome_of_unchanged {todo : List (Instr Id)}
    (h : ∀ i ∈ todo, i.slot C kind ≠ some key) : outcome C kind key todo v = v := by
  induction todo with
  | nil => rfl
  | cons i todo ih =>
    rw [outcome_cons, outcome_of_ne (h i (by simp))]
    exact ih fun j hj => h j (by simp [hj])

theorem outcome_of_quiet {todo : List (Instr Id)} (h : todo.any Instr.isUpdate = false) :
    outcome C kind key todo v = v := by
  refine outcome_of_unchanged fun i hi => ?_
  have hquiet : i.isUpdate = false := by simpa using List.any_eq_false.mp h i hi
  rw [slot_eq_none hquiet]
  simp

/-- A critical section leaves the entries of every other key alone. -/
theorem slotOf_write {s : Shared Id} {fresh : Nat} {env : Env} {instr : Instr Id}
    (h : instr.slot C kind ≠ some key) :
    slotOf (write C s kind fresh env instr) key = slotOf s key := by
  have hsessions : (write C s kind fresh env instr).sessions key = s.sessions key := by
    rw [write_sessions]
    split
    · exact Function.update_of_ne (fun hkey => h (congrArg some hkey.symm)) _ _
    · exact Function.update_of_ne (fun hkey => h (congrArg some hkey.symm)) _ _
    · split
      · exact Function.update_of_ne (fun hkey => h (congrArg some hkey.symm)) _ _
      · rfl
    · rfl
  have hpresence : (write C s kind fresh env instr).presence key = s.presence key := by
    rw [write_presence]
    split
    · exact Function.update_of_ne (fun hkey => h (congrArg some hkey.symm)) _ _
    · rfl
  rw [slotOf, hsessions, hpresence]
  rfl

theorem outcome_nextCommon {s : Shared Id} {kind kind' : Kind Id} {fresh : Nat} {env : Env}
    {instr : CommonInstr Id} (hlowered : (Instr.common instr).Lowered C)
    (hupdate : (Instr.common instr : Instr Id).isUpdate = true) :
    outcome C kind' key (nextCommon C s fresh env instr).push
        (slotOf (write C s kind fresh env (.common instr)) key) =
      (Instr.common instr).outcome C kind key (slotOf s key) := by
  cases instr with
  | setPresence e online =>
    have hpush : (nextCommon C s fresh env (.setPresence e online)).push.any
        Instr.isUpdate = false := by
      simp only [nextCommon]
      split <;> rfl
    rw [outcome_of_quiet hpush]
    by_cases hkey : C.key e = key
    · subst hkey
      simp [slotOf, write, writeCommon, Instr.outcome]
    · rw [slotOf_write (by simpa [Instr.slot] using hkey)]
      simp [Instr.outcome, hkey]
  | insertSession k conn =>
    by_cases hkey : k = key
    · subst hkey
      simp [slotOf, write, writeCommon, nextCommon, Instr.outcome]
    · rw [slotOf_write (by simpa [Instr.slot] using hkey)]
      simp [nextCommon, Instr.outcome, hkey]
  | removeSession k =>
    by_cases hkey : k = key
    · subst hkey
      have hk : C.key k = k := hlowered
      cases hheld : s.sessions k with
      | none => simp [slotOf, write, writeCommon, nextCommon, Instr.outcome, hheld]
      | some current =>
        simp [slotOf, write, writeCommon, nextCommon, Instr.outcome, hheld, hk]
    · rw [slotOf_write (by simpa [Instr.slot] using hkey)]
      have hother : Instr.outcome C kind key (slotOf s key) (.common (.removeSession k)) =
          slotOf s key := outcome_of_ne (by simpa [Instr.slot] using hkey)
      rw [hother]
      have hk : C.key k = k := hlowered
      simp only [nextCommon]
      split
      · simp [Instr.outcome, hk, hkey]
      · rfl
  | removeSessionIf k conn =>
    have hk : C.key k = k := hlowered
    by_cases hkey : k = key
    · subst hkey
      by_cases hmatch : (s.sessions k).any (fun current => current.num = conn.num) = true
      · simp [slotOf, write, writeCommon, nextCommon, Instr.outcome, hmatch, hk]
      · simp [slotOf, write, writeCommon, nextCommon, Instr.outcome, hmatch]
    · rw [slotOf_write (by simpa [Instr.slot] using hkey)]
      have hother : Instr.outcome C kind key (slotOf s key)
          (.common (.removeSessionIf k conn)) = slotOf s key :=
        outcome_of_ne (by simpa [Instr.slot] using hkey)
      rw [hother]
      simp only [nextCommon]
      split
      · simp [Instr.outcome, hk, hkey]
      · rfl
  | _ => cases hupdate

theorem outcome_registerInbound {s : Shared Id} {c : ControlSession Id} {kind' : Kind Id}
    {fresh : Nat} {env : Env} :
    outcome C kind' key (nextControl C s c env .registerInbound).2.push
        (slotOf (write C s (.control c) fresh env (.control .registerInbound)) key) =
      Instr.outcome C (.control c) key (slotOf s key) (.control .registerInbound) := by
  simp only [nextControl, Config.key_toStr]
  by_cases hkey : C.iroh.toStr c.conn.remote = key
  · subst hkey
    cases hheld : s.sessions (C.iroh.toStr c.conn.remote) with
    | none => simp [slotOf, write, setSession, Instr.outcome, hheld]
    | some current => simp [slotOf, write, Instr.outcome, hheld]
  · split
    · simp [slotOf, write, Instr.outcome, hkey]
    · simp [slotOf, write, setSession, Instr.outcome, hkey]

/-- An update does what its outcome says, in part at once and in part in what it puts before the
rest. -/
theorem outcome_exec {s : Shared Id} {kind' : Kind Id} {fresh : Nat} {env : Env} {instr : Instr Id}
    {n : Next Id} (hstarts : instr.starts = false) (hlowered : instr.Lowered C)
    (hnext : next C s kind fresh env instr = some (kind', n)) :
    outcome C kind' key n.push (slotOf (write C s kind fresh env instr) key) =
      instr.outcome C kind key (slotOf s key) := by
  cases hupdate : instr.isUpdate with
  | false =>
    have hnone : instr.slot C kind ≠ some key := by
      rw [slot_eq_none hupdate]
      simp
    have hopens : instr.opens = false := by
      by_contra hopens
      rw [starts_of_opens (by simpa using hopens)] at hstarts
      cases hstarts
    rw [outcome_of_quiet ((pushOk_next hnext).inert hopens hupdate), slotOf_write hnone,
      outcome_of_ne hnone]
  | true =>
    cases next_case hnext with
    | common => exact outcome_nextCommon hlowered hupdate
    | @control instr c hkind =>
      subst hkind
      cases instr with
      | registerInbound => exact outcome_registerInbound
      | _ => cases hupdate
    | service | window | lan | accept | host | connect => cases hupdate

end outcome

end DashBeam.Node

import DashBeam.Node.Alice
import DashBeam.Node.Outstanding

/-!
# Presence follows sessions

When no operation on a key is outstanding, the peer should be online exactly if the session map holds
a connection of it. The operations keep this when they do not overlap, and when each of them finds
the map as its author had it in mind: a proof of identity marks a peer online while it has a session,
and a failed dial or a remote unpair marks it offline while it has none, or only the one that the
unpair then takes out. So in the runs whose steps are of this kind, every operation in progress leads
to maps that agree (`LeadsToAgreement`), and whenever none is in progress they do agree
(`presence_follows_sessions`).
-/

namespace DashBeam.Node

open Protocol Native Lib

set_option linter.unusedSectionVars false

variable {Id : Type} [DecidableEq Id] {C : Config Id}

/-! ### The property -/

/-- The task is in the middle of an operation on the key. -/
def Task.operating (C : Config Id) (key : String) (t : Task Id) : Bool :=
  t.todo.any fun i => i.slot C t.kind = some key

/-- Wherever no operation is in the middle of its steps, a peer is online exactly if the session map
holds a connection of it. -/
def PresenceFollows (C : Config Id) (s : State Id) : Prop :=
  ∀ key, (∀ t ∈ s.procs, Task.operating C key t = false) →
    ((s.shared.sessions key).isSome = true ↔ s.shared.presence key = some true)

/-! ### Operations that keep it -/

/-- The message is a verified `Recognition`. -/
def proves (C : Config Id) (conn : Conn Id) : ControlMessage → Bool
  | .recognition signature => C.iroh.verifyChallenge conn.remote conn.num signature
  | _ => false

/-- The key that a control session marks online for a message it handles without registering. -/
def recognised (C : Config Id) (c : ControlSession Id) (msg : ControlMessage) : Option String :=
  if !(c.peerIsPaired && !c.registered) && proves C c.conn msg then
    some (C.iroh.toStr c.conn.remote)
  else none

/-- The key that the step sets out to mark online for a proof of identity, and not for a session: a
verified `Recognition` in any of the message loops, and a dial to deliver an invite. -/
def vouches (C : Config Id) (s : State Id) : Act Id → Option String
  | .recv p msg =>
    match kindOf s p with
    | some (.control c) => if c.peerIsPaired then recognised C c msg else none
    | some (.host h) => if proves C h.conn msg then some (C.iroh.toStr h.conn.remote) else none
    | some (.connect ⟨_, some conn⟩) =>
      if proves C conn msg then some (C.iroh.toStr conn.remote) else none
    | _ => none
  | .exec p env =>
    match s.procs[p]? with
    | some ⟨.control c, .control (.recheckAllowed msg) :: _, _⟩ =>
      recognised C { c with peerIsPaired := true } msg
    | some ⟨.control c, .control (.chargeToken msg) :: _, _⟩ => recognised C c msg
    | some ⟨_, .service (.deliverDial d) :: _, _⟩ =>
      if d.purpose = .pairedInvite ∧ (C.iroh.fromStr d.endpointId).isSome ∧ env.dialled.isSome then
        some (C.key d.endpointId)
      else none
    | _ => none
  | _ => none

/-- The key that the step of a connect loop sets out to mark offline, with the number of the
connection that is then taken out of the session map: a failed dial, and a remote unpair. -/
def darkens (C : Config Id) (s : State Id) : Act Id → Option (String × Option Nat)
  | .exec p env =>
    match s.procs[p]? with
    | some ⟨.connect l, .connect .dial :: _, _⟩ =>
      if (C.iroh.fromStr l.endpointId).isSome ∧ env.dialled.isSome ∧ env.ok then none
      else some (C.key l.endpointId, none)
    | some ⟨.connect l, .connect (.unpairMark e cause) :: _, _⟩ =>
      match (s.shared.pairedStore.markUnpairedRemotely C.iroh env.io e).1, cause with
      | none, _ => none
      | some _, .forgetReceived conn =>
        some (C.key e, if C.key l.endpointId = C.key e then some conn.num else none)
      | some _, .recognitionRefused => some (C.key e, none)
    | _ => none
  | _ => none

/-- The step updates a key while another task is in the middle of an operation on it, or stops a task
in the middle of one. -/
def overlaps (C : Config Id) (s : State Id) : Act Id → Bool
  | .exec p _ =>
    match s.procs[p]? with
    | some ⟨kind, instr :: _, _⟩ =>
      match instr.slot C kind with
      | some key => (List.range s.procs.length).any fun q =>
          q ≠ p && (s.procs[q]?).any (Task.operating C key)
      | none => false
    | _ => false
  | .close p _ | .drop p => (s.procs[p]?).any fun t => t.todo.any Instr.isUpdate
  | _ => false

/-- Operations on a key do not overlap and are not cut short, a proof of identity marks a peer online
only while it has a session, and a connect loop marks a peer offline only while it has none but the
one that is taken out. -/
structure UpdatesAlone (C : Config Id) (s : State Id) (a : Act Id) : Prop where
  alone : overlaps C s a = false
  held : ∀ key ∈ vouches C s a, (s.shared.sessions key).isSome = true
  unheld : ∀ d ∈ darkens C s a, ∀ current ∈ s.shared.sessions d.1, d.2 = some current.num

instance (s : State Id) (a : Act Id) : Decidable (UpdatesAlone C s a) :=
  decidable_of_iff (overlaps C s a = false ∧
    (∀ key ∈ vouches C s a, (s.shared.sessions key).isSome = true) ∧
    ∀ d ∈ darkens C s a, ∀ current ∈ s.shared.sessions d.1, d.2 = some current.num)
    ⟨fun h => ⟨h.1, h.2.1, h.2.2⟩, fun h => ⟨h.alone, h.held, h.unheld⟩⟩

/-! ### Each operation leads to agreement -/

/-- The peer is online exactly if it has a session. -/
def Slot.Agrees (v : Slot Id) : Prop := v.1.isSome = true ↔ v.2 = some true

section outcome

variable {kind : Kind Id} {key : String} {v : Slot Id}

theorem agrees_recognise {e : String} (hv : v.Agrees) (h : C.key e = key → v.1.isSome = true) :
    (outcome C kind key (recognise e) v).Agrees := by
  by_cases hkey : C.key e = key
  · simp [recognise, Instr.outcome, hkey, Slot.Agrees, h hkey]
  · simpa [recognise, Instr.outcome, hkey] using hv

theorem agrees_removeSessionIf (C : Config Id) (kind : Kind Id) {k : String} {conn : Conn Id}
    (hv : v.Agrees) :
    (Instr.outcome C kind key v (.common (.removeSessionIf k conn))).Agrees := by
  simp only [Instr.outcome]
  split
  · simp [Slot.Agrees]
  · exact hv

theorem agrees_leaveSession {c : ControlSession Id} (hv : v.Agrees) :
    (outcome C kind key (leaveSession C c) v).Agrees := by
  unfold leaveSession
  split
  · exact agrees_removeSessionIf C kind hv
  · exact hv

theorem agrees_setSession {e : String} {conn : Conn Id} (hv : v.Agrees) :
    (outcome C kind key (setSession (C.key e) conn) v).Agrees := by
  by_cases hkey : C.key e = key
  · subst hkey
    simp [setSession, Instr.outcome, Slot.Agrees]
  · simpa [setSession, Instr.outcome, hkey] using hv

/-- Forgetting a peer, in either order of its two parts. -/
theorem agrees_forgotten (C : Config Id) (kind : Kind Id) {e : String} (hv : v.Agrees) :
    (Instr.outcome C kind key (Instr.outcome C kind key v (.common (.setPresence e false)))
      (.common (.removeSession (C.key e)))).Agrees ∧
    (Instr.outcome C kind key (Instr.outcome C kind key v (.common (.removeSession (C.key e))))
      (.common (.setPresence e false))).Agrees := by
  obtain ⟨held, online⟩ := v
  by_cases hkey : C.key e = key
  · cases held <;> simp [Instr.outcome, hkey, Slot.Agrees]
  · simpa [Instr.outcome, hkey] using hv

/-- A message that is handled marks its peer online only for a proof of identity. -/
theorem agrees_handlePaired {c : ControlSession Id} {msg : ControlMessage} (hv : v.Agrees)
    (h : proves C c.conn msg = true → C.iroh.toStr c.conn.remote = key → v.1.isSome = true) :
    (outcome C kind key (handlePairedControlMessage C c msg) v).Agrees := by
  cases msg with
  | recognition signature =>
    simp only [handlePairedControlMessage]
    split
    · rename_i hverify
      rw [outcome_append]
      exact agrees_recognise hv (by simpa using h hverify)
    · exact hv
  | inviteResponse | forget =>
    simp only [handlePairedControlMessage]
    split <;> exact hv
  | _ => exact hv

theorem agrees_dispatch {c : ControlSession Id} {msg : ControlMessage} (hv : v.Agrees)
    (h : ∀ k ∈ recognised C c msg, k = key → v.1.isSome = true) :
    (outcome C (.control (dispatch C c msg).1) key (dispatch C c msg).2 v).Agrees := by
  unfold dispatch
  split
  · exact hv
  · split
    · -- the session registers, and is held when the message is handled
      by_cases hkey : C.iroh.toStr c.conn.remote = key
      · refine agrees_handlePaired ?_ ?_
        · simp only [Instr.outcome, hkey, if_true, Slot.Agrees]
          cases v.1 <;> simp
        · intro _ _
          simp only [Instr.outcome, hkey, if_true]
          cases v.1 <;> rfl
      · refine agrees_handlePaired ?_ fun _ hsame => absurd hsame hkey
        simpa [Instr.outcome, hkey] using hv
    · rename_i hregisters
      refine agrees_handlePaired hv fun hproves hkey => h _ ?_ hkey
      rw [Bool.not_eq_true] at hregisters
      rw [recognised, hregisters, hproves]
      rfl

theorem agrees_closedTodo {reason : String} (hv : v.Agrees) :
    (outcome C kind key (closedTodo C kind reason) v).Agrees := by
  cases kind with
  | control c => exact agrees_leaveSession hv
  | host h =>
    simp only [closedTodo]
    split <;> exact hv
  | connect l =>
    simp only [closedTodo]
    split
    · rename_i conn _
      have hrest : ∀ v : Slot Id, outcome C (.connect l) key
          (if reason = "not permitted for unpaired peer" then [.connect .settling] else backOff) v =
            v := by
        intro v
        split <;> rfl
      rw [outcome_cons, hrest]
      exact agrees_removeSessionIf C _ hv
    · exact hv
  | inbound | call | expiry | lan | background => exact hv

/-- A remote unpair marks its peer offline, and takes out the connection it was received on. -/
theorem agrees_unpaired {e loopId : String} {device : PairedDevice} {cause : UnpairCause Id}
    (hv : v.Agrees)
    (h : ∀ current ∈ v.1, C.key e = key → ∃ conn, cause = .forgetReceived conn ∧
      C.key loopId = key ∧ conn.num = current.num) :
    (outcome C kind key (unpairEffects C e device cause ++ unpairApplied C loopId cause) v).Agrees := by
  have heffects : ∀ w : Slot Id, outcome C kind key (unpairEffects C e device cause) w =
      Instr.outcome C kind key w (.common (.setPresence e false)) := by
    intro w
    unfold unpairEffects
    split <;> rfl
  rw [outcome_append, heffects]
  obtain ⟨held, online⟩ := v
  by_cases hkey : C.key e = key
  · cases held with
    | none =>
      cases cause with
      | forgetReceived conn => simp [unpairApplied, Instr.outcome, hkey, Slot.Agrees]
      | recognitionRefused => simp [unpairApplied, Instr.outcome, hkey, Slot.Agrees]
    | some current =>
      obtain ⟨conn, rfl, hloop, hnum⟩ := h current rfl hkey
      simp [unpairApplied, Instr.outcome, hkey, hloop, hnum, Slot.Agrees]
  · have hother : Instr.outcome C kind key (held, online) (.common (.setPresence e false)) =
        (held, online) := by
      simp [Instr.outcome, hkey]
    rw [hother]
    cases cause with
    | forgetReceived conn => exact agrees_removeSessionIf C kind hv
    | recognitionRefused => exact hv

end outcome

/-- A connect loop that dials: its session is set, or it goes dark, and then nobody else holds one. -/
theorem agrees_dial {s : State Id} {p : Nat} {env : Env} {l : ConnectLoop Id} {kind : Kind Id}
    {rest : List (Instr Id)} {aborted : Bool} {key : String}
    (hok : UpdatesAlone C s (.exec p env))
    (hget : s.procs[p]? = some ⟨.connect l, .connect .dial :: rest, aborted⟩)
    (hv : (slotOf s.shared key).Agrees) :
    (outcome C kind key (nextConnect C s.shared l env .dial).2.push
      (slotOf s.shared key)).Agrees := by
  simp only [nextConnect]
  split
  · rw [outcome_append]
    exact agrees_setSession hv
  · rename_i hfailed
    have hdark : darkens C s (.exec p env) = some (C.key l.endpointId, none) := by
      simp only [darkens, hget]
      rw [if_neg]
      rintro ⟨hparse, hdialled, henv⟩
      obtain ⟨remote, hremote⟩ := Option.isSome_iff_exists.mp hparse
      obtain ⟨num, hnum⟩ := Option.isSome_iff_exists.mp hdialled
      exact hfailed remote num hremote hnum henv
    have hunheld : ∀ current ∈ s.shared.sessions (C.key l.endpointId), False := by
      intro current hcurrent
      have hnum := hok.unheld _ hdark current hcurrent
      cases hnum
    by_cases hkey : C.key l.endpointId = key
    · subst hkey
      have hnone : s.shared.sessions (C.key l.endpointId) = none :=
        Option.eq_none_iff_forall_not_mem.mpr hunheld
      simp [backOff, Instr.outcome, slotOf, hnone, Slot.Agrees]
    · simpa [backOff, Instr.outcome, hkey] using hv

/-- A connect loop that marks its peer unpaired: a session that is held is its own, and the loop goes
on to drop it. -/
theorem agrees_unpairMark {s : State Id} {p : Nat} {env : Env} {l : ConnectLoop Id}
    {kind : Kind Id} {e : String} {cause : UnpairCause Id} {rest : List (Instr Id)}
    {aborted : Bool} {key : String} (hok : UpdatesAlone C s (.exec p env))
    (hget : s.procs[p]? = some ⟨.connect l, .connect (.unpairMark e cause) :: rest, aborted⟩)
    (hv : (slotOf s.shared key).Agrees) :
    (outcome C kind key (nextConnect C s.shared l env (.unpairMark e cause)).2.push
      (slotOf s.shared key)).Agrees := by
  simp only [nextConnect]
  split
  · rename_i device hmark
    refine agrees_unpaired hv fun current hcurrent hkey => ?_
    subst hkey
    cases cause with
    | forgetReceived conn =>
      have hnum := hok.unheld (C.key e, if C.key l.endpointId = C.key e then some conn.num
        else none) (by simp [darkens, hget, hmark]) current hcurrent
      simp only at hnum
      split at hnum
      · rename_i hloop
        exact ⟨conn, rfl, hloop, Option.some.inj hnum⟩
      · cases hnum
    | recognitionRefused =>
      have hnum := hok.unheld (C.key e, none) (by simp [darkens, hget, hmark]) current hcurrent
      cases hnum
  · rw [outcome_of_quiet (quiet_unpairSkipped cause)]
    exact hv

/-- An operation that begins with maps that agree leads to maps that do. -/
theorem agrees_starts {s : State Id} {p : Nat} {env : Env} {kind kind' : Kind Id}
    {instr : Instr Id} {rest : List (Instr Id)} {aborted : Bool} {n : Next Id} {key : String}
    (hok : UpdatesAlone C s (.exec p env))
    (hget : s.procs[p]? = some ⟨kind, instr :: rest, aborted⟩)
    (hnext : next C s.shared kind s.procs.length env instr = some (kind', n))
    (hstarts : instr.starts = true) (hv : (slotOf s.shared key).Agrees) :
    (outcome C kind' key n.push (slotOf s.shared key)).Agrees := by
  cases hopens : instr.opens with
  | false =>
    rw [outcome_of_quiet ((pushOk_next hnext).inert hopens (isUpdate_of_starts hstarts))]
    exact hv
  | true =>
    cases next_case hnext with
    | @common instr =>
      cases instr with
      | markUnpaired id =>
        simp only [nextCommon]
        split
        · exact (agrees_forgotten C kind hv).1
        · exact hv
      | _ => cases hopens
    | @control instr c hkind =>
      subst hkind
      cases instr with
      | recheckAllowed msg =>
        simp only [nextControl]
        split
        · refine agrees_dispatch hv fun k hk hkey => hkey ▸ hok.held k ?_
          simpa only [vouches, hget] using hk
        · exact hv
      | chargeToken msg =>
        simp only [nextControl]
        split
        · refine agrees_dispatch hv fun k hk hkey => hkey ▸ hok.held k ?_
          simpa only [vouches, hget] using hk
        · exact hv
      | hangUp => exact agrees_leaveSession hv
      | _ => cases hopens
    | @service instr =>
      cases instr with
      | deliverDial d =>
        simp only [nextService]
        split
        · rw [outcome_of_quiet (quiet_onDelivery d).2.2]
          exact hv
        · rw [outcome_of_quiet (quiet_onDelivery d).2.1]
          exact hv
        · rename_i remote num hparse hdialled
          split
          · rename_i hpurpose
            rw [outcome_append]
            refine agrees_recognise hv fun hkey => hkey ▸ hok.held (C.key d.endpointId) ?_
            simp [vouches, hget, hpurpose, hparse, hdialled]
          · exact hv
      | forgetRecord e =>
        simp only [nextService]
        split
        · exact (agrees_forgotten C kind hv).2
        · exact hv
      | _ => cases hopens
    | @connect instr l hkind =>
      subst hkind
      cases instr with
      | dial => exact agrees_dial hok hget hv
      | unpairMark e cause => exact agrees_unpairMark hok hget hv
      | _ => cases hopens
    | window | lan | accept | host => cases hopens

/-! ### One task among the others -/

/-- No other task is in the middle of an operation on the key. -/
def Alone (C : Config Id) (s : State Id) (key : String) (p : Nat) : Prop :=
  ∀ (q : Nat) (t : Task Id), q ≠ p → s.procs[q]? = some t → Task.operating C key t = false

/-- A task that is alone with its operation on a key leads to maps that agree about it. -/
def LeadsToAgreement (C : Config Id) (s : State Id) : Prop :=
  ∀ (key : String) (p : Nat) (t : Task Id), s.procs[p]? = some t → Alone C s key p →
    (outcome C t.kind key t.todo (slotOf s.shared key)).Agrees

theorem operating_eq_false {key : String} {t : Task Id} :
    Task.operating C key t = false ↔ ∀ i ∈ t.todo, i.slot C t.kind ≠ some key := by
  simp [Task.operating]

theorem operating_of_quiet {key : String} {t : Task Id} (h : t.todo.any Instr.isUpdate = false) :
    Task.operating C key t = false := by
  rw [operating_eq_false]
  intro i hi
  rw [slot_eq_none (by simpa using List.any_eq_false.mp h i hi)]
  simp

theorem outcome_of_operating {key : String} {t : Task Id} (h : Task.operating C key t = false)
    (v : Slot Id) : outcome C t.kind key t.todo v = v :=
  outcome_of_unchanged (operating_eq_false.mp h)

/-- A task that waits has no update outstanding, so stopping it there changes nothing. -/
theorem quiet_of_parks {todo : List (Instr Id)} (h : TodoOk C todo)
    (hparks : todo.head?.any Instr.parks = true) : todo.any Instr.isUpdate = false := by
  cases todo with
  | nil => cases hparks
  | cons i rest =>
    rw [List.head?_cons, Option.any_some] at hparks
    have hstarts : i.starts = true := by
      unfold Instr.parks at hparks
      split at hparks
      · rfl
      · rfl
      · rfl
      · cases hparks
    rw [List.any_cons, isUpdate_of_starts hstarts, quiet_of_ordered h.ordered hstarts]
    rfl

theorem Task.Has.outcome_eq {t : Task Id} {kind : Kind Id} {todo : List (Instr Id)}
    (hhas : t.Has kind todo) (h : TodoOk C todo) (key : String) (v : Slot Id) :
    outcome C t.kind key t.todo v = outcome C kind key todo v := by
  obtain ⟨rfl, htodo | ⟨htodo, hparks⟩⟩ := hhas
  · rw [htodo]
  · rw [htodo, outcome_of_quiet (quiet_of_parks h hparks)]
    rfl

theorem Task.Has.operating_eq {t t₀ : Task Id} (hhas : t.Has t₀.kind t₀.todo)
    (h : TodoOk C t₀.todo) (key : String) : Task.operating C key t = Task.operating C key t₀ := by
  obtain ⟨hkind, htodo | ⟨htodo, hparks⟩⟩ := hhas
  · rw [Task.operating, Task.operating, hkind, htodo]
  · rw [operating_of_quiet (quiet_of_parks h hparks)]
    rw [Task.operating, htodo]
    rfl

theorem alone_before {s s' : State Id} {a : Act Id} {out : List (Out Id)} {key : String} {p : Nat}
    (htodos : AllTodoOk C s) (hs : step C s a = some (s', out)) (hactor : ∀ q, a.actor = some q → q = p)
    (h : Alone C s' key p) : Alone C s key p := by
  intro q t hne hget
  have hmoved : a.actor ≠ some q := fun hq => hne (hactor q hq)
  obtain ⟨t', hget', hhas⟩ := step_kept hs hmoved hget
  rw [← hhas.operating_eq (htodos q t hget) key]
  exact h q t' hne hget'

theorem slot_kind {kind kind' : Kind Id} (h : KindStep kind kind') {i : Instr Id} {key : String}
    (hi : i.slot C kind = some key) : i.slot C kind' = some key := by
  unfold Instr.slot at hi
  split at hi
  · exact hi
  · exact hi
  · exact hi
  · exact hi
  · split at hi
    · obtain ⟨c', rfl, hstep⟩ := h
      simpa [Instr.slot, hstep.conn] using hi
    · cases hi
  · cases hi

theorem outcome_kind {kind kind' : Kind Id} (h : KindStep kind kind')
    (hkind : ∀ conn, kind ≠ .inbound conn) {key : String} {todo : List (Instr Id)} {v : Slot Id} :
    outcome C kind' key todo v = outcome C kind key todo v := by
  have hinstr : Instr.outcome C kind' key = Instr.outcome C kind key := by
    funext v i
    cases kind with
    | inbound conn => exact absurd rfl (hkind conn)
    | control c =>
      obtain ⟨c', rfl, hstep⟩ := h
      simp only [Instr.outcome, hstep.conn]
    | connect l =>
      obtain ⟨l', rfl, -⟩ := h
      unfold Instr.outcome
      rfl
    | host | call | expiry | lan | background =>
      cases h
      rfl
  rw [outcome, hinstr]
  rfl

/-! ### What a step keeps -/

theorem UpdatesAlone.others {s : State Id} {p : Nat} {env : Env} {kind : Kind Id}
    {instr : Instr Id} {rest : List (Instr Id)} {aborted : Bool} {key : String}
    (hok : UpdatesAlone C s (.exec p env))
    (hget : s.procs[p]? = some ⟨kind, instr :: rest, aborted⟩)
    (hkey : instr.slot C kind = some key) : Alone C s key p := by
  intro q t hne hq
  have halone := hok.alone
  simp only [overlaps, hget, hkey] at halone
  have hlt : q < s.procs.length := (List.getElem?_eq_some_iff.mp hq).1
  have hnot := List.any_eq_false.mp halone q (List.mem_range.mpr hlt)
  simpa [hq, hne] using hnot

/-- The task that takes a critical section, when no other task is in the middle of an operation. -/
theorem agrees_exec {s : State Id} {p : Nat} {env : Env} {kind kind' : Kind Id} {instr : Instr Id}
    {rest : List (Instr Id)} {aborted : Bool} {n : Next Id} {key : String}
    (hok : UpdatesAlone C s (.exec p env))
    (hget : s.procs[p]? = some ⟨kind, instr :: rest, aborted⟩)
    (hfit : TaskFits C kind (instr :: rest)) (htodo : TodoOk C (instr :: rest))
    (hnext : next C s.shared kind s.procs.length env instr = some (kind', n))
    (h : (outcome C kind key (instr :: rest) (slotOf s.shared key)).Agrees) :
    (outcome C kind' key (n.push ++ rest)
      (slotOf (write C s.shared kind s.procs.length env instr) key)).Agrees := by
  rw [outcome_append]
  cases hstarts : instr.starts with
  | true =>
    have hquiet := quiet_of_ordered htodo.ordered hstarts
    have hnone : instr.slot C kind ≠ some key := by
      rw [slot_eq_none (isUpdate_of_starts hstarts)]
      simp
    rw [outcome_cons, outcome_of_ne hnone, outcome_of_quiet hquiet] at h
    rw [slotOf_write hnone, outcome_of_quiet hquiet]
    exact agrees_starts hok hget hnext hstarts h
  | false =>
    have hinbound : ∀ conn, kind ≠ .inbound conn := by
      rintro conn rfl
      obtain ⟨i, rfl, -⟩ := hfit.inbound
      cases hstarts
    rw [outcome_exec hstarts (htodo.lowered instr (by simp)) hnext,
      outcome_kind (next_kind hnext) hinbound]
    exact h

theorem agrees_recv {s : State Id} {p : Nat} {msg : ControlMessage} {kind kind' : Kind Id}
    {todo : List (Instr Id)} {key : String} (hok : UpdatesAlone C s (.recv p msg))
    (hkind : kindOf s p = some kind) (hrecv : received C kind msg = some (kind', todo))
    (hv : (slotOf s.shared key).Agrees) : (outcome C kind' key todo (slotOf s.shared key)).Agrees := by
  cases received_case hrecv with
  | control c =>
    unfold receiveControl
    split
    · rename_i hpaired
      refine agrees_dispatch hv fun k hk hkey => hkey ▸ hok.held k ?_
      simpa only [vouches, hkind, hpaired, if_true] using hk
    · split <;> exact hv
  | host c =>
    have hnext : ∀ {h h' : HostSession Id} {v : Slot Id},
        outcome C (.host h') key (hostNext h) v = v := outcome_of_quiet (quiet_hostNext _)
    cases msg with
    | recognition signature =>
      simp only [receiveHost]
      split
      · rename_i hverify
        rw [outcome_append, hnext]
        refine agrees_recognise hv fun hkey => hkey ▸ hok.held _ ?_
        simp only [vouches, hkind, proves, hverify, if_true, Config.key_toStr]
        rfl
      · rw [hnext]
        exact hv
    | pairingInfo =>
      simp only [receiveHost]
      split
      · exact hv
      · split
        · rw [hnext]
          exact hv
        · exact hv
    | invite | inviteResponse =>
      simp only [receiveHost, outcome_cons, hnext]
      exact hv
    | forget =>
      simp only [receiveHost]
      split
      · rw [outcome_cons, hnext]
        exact hv
      · rw [hnext]
        exact hv
    | rememberVote | whoAreYou | identity | pairRequest =>
      simp only [receiveHost, hnext]
      exact hv
  | @connect l conn hconn =>
    obtain ⟨e, _⟩ := l
    obtain rfl : _ = some conn := hconn
    cases msg with
    | recognition signature =>
      simp only [readOutbound]
      split
      · rename_i hverify
        rw [outcome_append]
        refine agrees_recognise hv fun hkey => hkey ▸ hok.held _ ?_
        simp only [vouches, hkind, proves, hverify, if_true, Config.key_toStr]
        rfl
      · exact hv
    | forget =>
      simp only [readOutbound]
      split <;> exact hv
    | _ => exact hv

section Step

variable {s s' : State Id} {a : Act Id} {out : List (Out Id)} {key : String}

theorem agrees_moved {p : Nat} {t' : Task Id} (h : LeadsToAgreement C s) (hfits : AllFit C s)
    (htodos : AllTodoOk C s) (hok : UpdatesAlone C s a) (hs : step C s a = some (s', out))
    (hactor : a.actor = some p) (hget' : s'.procs[p]? = some t') (halone' : Alone C s' key p) :
    (outcome C t'.kind key t'.todo (slotOf s'.shared key)).Agrees := by
  have halone : Alone C s key p := alone_before htodos hs
    (fun q hq => Option.some.inj (hq.symm.trans hactor)) halone'
  obtain ⟨kind, todo, horigin, hhas⟩ := step_origin hs hget'
  cases horigin with
  | kept hne => exact absurd hactor hne
  | @exec env t instr rest kind n hget htodo hnext =>
    obtain ⟨kind₀, todo₀, aborted⟩ := t
    obtain rfl : todo₀ = instr :: rest := htodo
    obtain ⟨kind₁, n₁, t₁, -, hshared, -⟩ := step_exec hs hget rfl
    have htodo := htodos p _ hget
    rw [hhas.outcome_eq (htodo.exec hnext), hshared]
    exact agrees_exec hok hget (hfits p _ hget) htodo hnext (h key p _ hget halone)
  | @recv msg kind kind' rest todo aborted hget hrecv =>
    have htodo := htodos p _ hget
    have hquiet : (.common .read :: rest).any Instr.isUpdate = false := by
      rw [List.any_cons, quiet_of_ordered htodo.ordered rfl]
      rfl
    have hv := h key p _ hget halone
    rw [outcome_of_quiet hquiet] at hv
    have hsame : s'.shared = s.shared := by
      cases step_case hs with
      | recv => rfl
      | start hnone => cases hnone
    have hok' : TodoOk C todo := by
      cases received_case hrecv with
      | control c => exact todoOk_receiveControl
      | host c => exact todoOk_receiveHost
      | connect hconn => exact todoOk_readOutbound
    rw [hhas.outcome_eq hok', hsame]
    exact agrees_recv hok (kindOf_eq hget) hrecv hv
  | @close reason kind instr rest aborted hget hsees =>
    have hquiet := hok.alone
    simp only [overlaps, hget, Option.any_some] at hquiet
    have hv := h key p _ hget halone
    rw [outcome_of_quiet hquiet] at hv
    have hsame : s'.shared = s.shared := by
      cases step_case hs with
      | close => rfl
      | start hnone => cases hnone
    rw [hhas.outcome_eq todoOk_closedTodo, hsame]
    exact agrees_closedTodo hv
  | @drop kind instr rest hget =>
    have hquiet := hok.alone
    simp only [overlaps, hget, Option.any_some] at hquiet
    have hv := h key p _ hget halone
    rw [outcome_of_quiet hquiet] at hv
    have hsame : s'.shared = s.shared := by
      cases step_case hs with
      | drop => rfl
      | start hnone => cases hnone
    rw [hhas.outcome_eq (todoOk_of_quiet rfl), hsame]
    exact hv
  | spawned hget _ _ hnew =>
    have hlt : p < s.procs.length := by
      obtain rfl := Option.some.inj hactor
      exact (List.getElem?_eq_some_iff.mp hget).1
    omega
  | started hnone =>
    rw [hactor] at hnone
    cases hnone

/-- A task that is in the middle of an operation while another one moves: the other one is not in the
middle of one on the same key, and leaves the key alone. -/
theorem unmoved_before {p q : Nat} {t : Task Id} (htodos : AllTodoOk C s)
    (hok : UpdatesAlone C s a) (hs : step C s a = some (s', out)) (hactor : a.actor = some p)
    (hne : q ≠ p) (hget : s.procs[q]? = some t) (hoperating : Task.operating C key t = true)
    (halone' : Alone C s' key q) : slotOf s'.shared key = slotOf s.shared key ∧ Alone C s key q := by
  have hothers : ∀ {r : Nat} {t₀ : Task Id}, r ≠ q → r ≠ p → s.procs[r]? = some t₀ →
      Task.operating C key t₀ = false := by
    intro r t₀ hrq hrp hr
    have hmoved : a.actor ≠ some r := by
      rw [hactor]
      exact fun heq => hrp (Option.some.inj heq).symm
    obtain ⟨t₀', hr', hhas⟩ := step_kept hs hmoved hr
    rw [← hhas.operating_eq (htodos r t₀ hr) key]
    exact halone' r t₀' hrq hr'
  have hsplit : (∀ {t₀ : Task Id}, s.procs[p]? = some t₀ → Task.operating C key t₀ = false) →
      Alone C s key q := by
    intro hp r t₀ hrq hr
    by_cases hrp : r = p
    · subst hrp
      exact hp hr
    · exact hothers hrq hrp hr
  cases step_case hs with
  | @exec p₀ env t₀ instr rest kind n hget₀ htodo hnext =>
    obtain rfl : p₀ = p := Option.some.inj hactor
    obtain ⟨kind₀, todo₀, aborted⟩ := t₀
    obtain rfl : todo₀ = instr :: rest := htodo
    have hkey : instr.slot C kind₀ ≠ some key := by
      intro hkey
      rw [hok.others hget₀ hkey q t hne hget] at hoperating
      cases hoperating
    refine ⟨slotOf_write hkey, hsplit fun {t₁} ht₁ => ?_⟩
    rw [hget₀] at ht₁
    obtain rfl := Option.some.inj ht₁
    obtain ⟨kind₁, n₁, t', hnext₁, -, -, hget', hhas⟩ := step_exec hs hget₀ rfl
    rw [hnext] at hnext₁
    obtain ⟨rfl, rfl⟩ := Prod.mk.inj (Option.some.inj hnext₁)
    have hquiet := halone' p₀ t' (Ne.symm hne) hget'
    rw [operating_eq_false]
    intro i hi
    rcases List.mem_cons.mp hi with rfl | hi
    · exact hkey
    · intro hupdates
      have hupdates' := slot_kind (next_kind hnext) hupdates
      have hmem : i ∈ t'.todo := by
        rcases hhas.2 with htodo' | ⟨-, hparks⟩
        · rw [htodo']
          simp [hi]
        · have hall := quiet_of_parks ((htodos p₀ _ hget₀).exec hnext) hparks
          have hnot := List.any_eq_false.mp hall i (by simp [hi])
          exact absurd (isUpdate_of_slot hupdates) hnot
      refine operating_eq_false.mp hquiet i hmem ?_
      rw [hhas.1]
      exact hupdates'
  | @recv p₀ msg kind kind' rest todo aborted hget₀ hrecv =>
    obtain rfl : p₀ = p := Option.some.inj hactor
    refine ⟨rfl, hsplit fun {t₁} ht₁ => ?_⟩
    rw [hget₀] at ht₁
    obtain rfl := Option.some.inj ht₁
    refine operating_of_quiet ?_
    rw [List.any_cons, quiet_of_ordered (htodos p₀ _ hget₀).ordered rfl]
    rfl
  | @close p₀ reason kind instr rest aborted hget₀ hsees
  | @drop p₀ kind instr rest hget₀ hawaits =>
    obtain rfl : p₀ = p := Option.some.inj hactor
    have hquiet := hok.alone
    simp only [overlaps, hget₀, Option.any_some] at hquiet
    refine ⟨rfl, hsplit fun {t₁} ht₁ => ?_⟩
    rw [hget₀] at ht₁
    obtain rfl := Option.some.inj ht₁
    exact operating_of_quiet hquiet
  | start hnone =>
    rw [hactor] at hnone
    cases hnone

/-- Only a task that was there before can be in the middle of an operation without having moved. -/
theorem unmoved_operating {q : Nat} {t' : Task Id} (htodos : AllTodoOk C s)
    (hs : step C s a = some (s', out)) (hne : a.actor ≠ some q) (hget' : s'.procs[q]? = some t')
    (hoperating : Task.operating C key t' = true) :
    ∃ t, s.procs[q]? = some t ∧ t'.Has t.kind t.todo ∧ Task.operating C key t = true := by
  obtain ⟨kind, todo, horigin, hhas⟩ := step_origin hs hget'
  have hnew : ∀ {t₀ : Task Id}, t'.Has t₀.kind t₀.todo → t₀.todo.any Instr.isUpdate = false →
      False := by
    intro t₀ hhas hquiet
    rw [hhas.operating_eq (todoOk_of_quiet hquiet) key, operating_of_quiet hquiet] at hoperating
    cases hoperating
  cases horigin with
  | kept _ hget =>
    refine ⟨_, hget, hhas, ?_⟩
    rw [← hhas.operating_eq (htodos q _ hget) key]
    exact hoperating
  | exec | recv | close | drop => exact absurd rfl hne
  | spawned _ hnext hmem _ => exact (hnew hhas (quiet_spawned (next_spawn hnext hmem))).elim
  | started _ hstart _ => exact (hnew hhas (quiet_started hstart)).elim

theorem LeadsToAgreement.step (h : LeadsToAgreement C s) (hfits : AllFit C s)
    (htodos : AllTodoOk C s) (hsome : ∃ t, s.procs[0]? = some t) (hok : UpdatesAlone C s a)
    (hs : Node.step C s a = some (s', out)) : LeadsToAgreement C s' := by
  intro key q t' hget' halone'
  by_cases hmoved : a.actor = some q
  · exact agrees_moved h hfits htodos hok hs hmoved hget' halone'
  · cases hoperating : Task.operating C key t' with
    | true =>
      obtain ⟨t, hget, hhas, hbefore⟩ := unmoved_operating htodos hs hmoved hget' hoperating
      rw [hhas.outcome_eq (htodos q t hget)]
      cases hactor : a.actor with
      | some p =>
        have hne : q ≠ p := by
          rintro rfl
          exact hmoved hactor
        obtain ⟨hslot, halone⟩ := unmoved_before htodos hok hs hactor hne hget hbefore halone'
        rw [hslot]
        exact h key q t hget halone
      | none =>
        have halone : Alone C s key q := alone_before htodos hs (by simp [hactor]) halone'
        have hsame : s'.shared = s.shared := by
          rcases step_shared hs with ⟨hsame, -⟩ | ⟨p, env, t, instr, rest, kind, n, rfl, -⟩
          · exact hsame
          · cases hactor
        rw [hsame]
        exact h key q t hget halone
    | false =>
      -- then nobody is in the middle of anything, and the maps agree as they are
      rw [outcome_of_operating hoperating]
      have hquiet : ∀ (r : Nat) (t : Task Id), s'.procs[r]? = some t →
          Task.operating C key t = false := by
        intro r t hr
        by_cases hrq : r = q
        · subst hrq
          rw [hget'] at hr
          obtain rfl := Option.some.inj hr
          exact hoperating
        · exact halone' r t hrq hr
      cases hactor : a.actor with
      | some p =>
        obtain ⟨t, hget⟩ : ∃ t, s.procs[p]? = some t := by
          cases step_case hs with
          | exec hget | recv hget | close hget | drop hget =>
            obtain rfl := Option.some.inj hactor
            exact ⟨_, hget⟩
          | start hnone =>
            rw [hactor] at hnone
            cases hnone
        obtain ⟨t'', hget''⟩ := step_persists hs hget
        have hv := agrees_moved h hfits htodos hok hs hactor hget'' fun r t _ hr => hquiet r t hr
        rwa [outcome_of_operating (hquiet p t'' hget'')] at hv
      | none =>
        obtain ⟨t, hget⟩ := hsome
        have hsame : s'.shared = s.shared := by
          rcases step_shared hs with ⟨hsame, -⟩ | ⟨p, env, t, instr, rest, kind, n, rfl, -⟩
          · exact hsame
          · cases hactor
        have hbefore : ∀ (r : Nat) (t : Task Id), s.procs[r]? = some t →
            Task.operating C key t = false := by
          intro r t hr
          obtain ⟨t'', hr', hhas⟩ := step_kept hs (by simp [hactor]) hr
          rw [← hhas.operating_eq (htodos r t hr) key]
          exact hquiet r t'' hr'
        have hv := h key 0 t hget fun r t _ hr => hbefore r t hr
        rw [outcome_of_operating (hbefore 0 t hget)] at hv
        rw [hsame]
        exact hv

end Step

theorem leadsToAgreement_run {store : StoreFile} {rotated : Bool} {io : Io} {d : Discoverability}
    {relay : Option String} {tr : List (Step Id)} {s : State Id}
    (hrun : Run (machine C) (UpdatesAlone C) (start C store rotated io d relay) tr s) :
    LeadsToAgreement C s ∧ ∃ t, s.procs[0]? = some t := by
  refine hrun.invariant_of_run (I := fun _ s => LeadsToAgreement C s ∧ ∃ t, s.procs[0]? = some t)
    ⟨?_, _, rfl⟩ ?_
  · intro key p t hp _
    obtain rfl := eq_of_start hp
    rw [outcome_of_quiet (quiet_program .refresh)]
    simp [slotOf, start, Slot.Agrees]
  · rintro tr s s' a out hprev ⟨h, t, hget⟩ hok hs
    exact ⟨h.step (fits_run hprev) (allTodoOk_run hprev) ⟨t, hget⟩ hok hs, step_persists hs hget⟩

/-- In every run in which operations on a key do not overlap and find the maps as they should, a peer
is online exactly if it has a session, whenever no operation on it is in progress. -/
theorem presence_follows_sessions (C : Config Id) (store : StoreFile) (rotated : Bool) (io : Io)
    (d : Discoverability) (relay : Option String) (tr : List (Step Id)) (s : State Id)
    (hrun : Run (machine C) (UpdatesAlone C) (start C store rotated io d relay) tr s) :
    PresenceFollows C s := by
  intro key hquiet
  obtain ⟨h, t, hget⟩ := leadsToAgreement_run hrun
  have hv := h key 0 t hget fun q t _ hq => hquiet t (List.mem_of_getElem? hq)
  rwa [outcome_of_operating (hquiet t (List.mem_of_getElem? hget))] at hv

/-! ### Bob's session and Alice's loop -/

/-- Bob, who is paired, connects and says who he is, and his session, task 2, is registered. Then
Alice's connect loop, task 1, fails to dial him. -/
def registeredThenUnreached : List (Act Key) :=
  supervisor ++ .connect ⟨.bob, 8⟩ :: go 2 4 ++ [.recv 2 (.recognition (Key.bob.sign 8))] ++
    go 2 7 ++ go 1 4

/-- He has a session and is offline. -/
theorem offline_withSession : ¬ ∀ tr s,
    Run (machine alice) anyStep (aliceStart (.devices [recordOf .bob])) tr s →
      PresenceFollows alice s := by
  intro hclaim
  obtain ⟨tr, s, hrun, htest⟩ := Run.of_check (machine alice) anyStep
    (aliceStart (.devices [recordOf .bob])) registeredThenUnreached (fun _ s =>
      (∀ t ∈ s.procs, Task.operating alice Key.bob.hex t = false) ∧
      s.shared.sessions Key.bob.hex = some ⟨.bob, 8⟩ ∧
      s.shared.presence Key.bob.hex = some false) (by decide +kernel)
  obtain ⟨hquiet, hheld, hoffline⟩ := of_decide_eq_true htest
  have honline := (hclaim tr s hrun Key.bob.hex hquiet).mp (by rw [hheld]; rfl)
  rw [hoffline] at honline
  cases honline

/-- Bob's session is registered, and is torn down; then Alice's loop reaches him. -/
def registeredThenReached : List (Act Key) :=
  supervisor ++ .connect ⟨.bob, 8⟩ :: go 2 4 ++ [.recv 2 (.recognition (Key.bob.sign 8))] ++
    go 2 7 ++ [.close 2 "bye"] ++ go 2 3 ++ go 1 1 ++ [.exec 1 (dialling 9)] ++ go 1 4

/-- The theorem applies to a run in which a peer comes, leaves and is reached again. -/
theorem presence_follows_sessions_reached :
    ∃ tr s, Run (machine alice) (UpdatesAlone alice)
        (aliceStart (.devices [recordOf .bob])) tr s ∧
      (∃ e ∈ tr, e.post.shared.sessions Key.bob.hex = some ⟨.bob, 8⟩) ∧
      (∀ t ∈ s.procs, Task.operating alice Key.bob.hex t = false) ∧
      s.shared.sessions Key.bob.hex = some ⟨.bob, 9⟩ ∧ PresenceFollows alice s := by
  obtain ⟨tr, s, hrun, htest⟩ := Run.of_check (machine alice) (UpdatesAlone alice)
    (aliceStart (.devices [recordOf .bob])) registeredThenReached (fun tr s =>
      (∃ e ∈ tr, e.post.shared.sessions Key.bob.hex = some ⟨.bob, 8⟩) ∧
      (∀ t ∈ s.procs, Task.operating alice Key.bob.hex t = false) ∧
      s.shared.sessions Key.bob.hex = some ⟨.bob, 9⟩) (by decide +kernel)
  obtain ⟨hregistered, hquiet, hreached⟩ := of_decide_eq_true htest
  exact ⟨tr, s, hrun, hregistered, hquiet, hreached, presence_follows_sessions alice
    (.devices [recordOf .bob]) false ⟨true, true⟩ .everyone none tr s hrun⟩

end DashBeam.Node

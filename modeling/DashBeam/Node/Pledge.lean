import DashBeam.Node.Faithful

/-!
# Pledges

A task that has read a peer's acceptance and looks its own invite up, or that was asked to accept the
peer's invite, is on its way to put a pairing in place (`Pledged`): it stores an active record and
then allows the peer, and no one can stop it on the way. In a run that keeps the pairing a pledge
is kept (`WillPair.step`), so once nothing is left to do the pairing is there
(`paired_of_pledge`).
-/

namespace DashBeam.Node

open Protocol Native Lib

set_option linter.unusedSectionVars false

variable {Id : Type} [DecidableEq Id] {C : Config Id}

/-! ### On the way to a pairing -/

/-- The two flows that pair with a nearby device, when it is `y`. -/
inductive PairingFlow.Nearby (C : Config Id) (y : Id) : PairingFlow Id → Prop
  | commit : Nearby C y (.commitNearby y)
  | accept {e : String} (he : C.iroh.fromStr e = some y) : Nearby C y (.acceptNearby e)

/-- The stages on the way, from the answer that was read or the call that was made up to the
allowlist. From the stored record on, the record is there. -/
inductive Pledged (C : Config Id) (y : Id) (stored : List PairedDevice) :
    Kind Id → List (Instr Id) → Prop
  | charge {c : ControlSession Id} {sessionId : String} {rest : List (Instr Id)}
      (hremote : c.conn.remote = y) (hpaired : c.peerIsPaired = false) :
      Pledged C y stored (.control c)
        (.control (.chargeToken (.inviteResponse sessionId .accepted)) :: rest)
  | take {c : ControlSession Id} {rest : List (Instr Id)} (hremote : c.conn.remote = y) :
      Pledged C y stored (.control c) (.control (.takePending .accepted) :: rest)
  | commit {c : ControlSession Id} {pending : PendingNearbyInvite} {rest : List (Instr Id)}
      (hremote : c.conn.remote = y) :
      Pledged C y stored (.control c) (.control (.commitNearby pending) :: rest)
  | probe {kind : Kind Id} {e : String} {rest : List (Instr Id)}
      (he : C.iroh.fromStr e = some y) :
      Pledged C y stored kind (.service (.probeAccept e) :: rest)
  | remember {kind : Kind Id} {flow : PairingFlow Id} {device : PairedDevice}
      {rest : List (Instr Id)} (hflow : flow.Nearby C y) (hname : C.Names device.endpointId y)
      (hactive : device.pairingStatus = .active) :
      Pledged C y stored kind (.common (.remember flow device) :: rest)
  | expire {kind : Kind Id} {e : String} {rest : List (Instr Id)}
      (hstored : StoreFile.ActiveAs C.iroh stored y) :
      Pledged C y stored kind (.common (.expireNearby e) :: .common (.allow y) :: rest)
  | allow {kind : Kind Id} {rest : List (Instr Id)}
      (hstored : StoreFile.ActiveAs C.iroh stored y) :
      Pledged C y stored kind (.common (.allow y) :: rest)

/-- A task on the way goes on whatever happens: it neither waits nor can be dropped, and does not
see its connection close. -/
theorem Pledged.head {y : Id} {stored : List PairedDevice} {kind : Kind Id}
    {todo : List (Instr Id)} (h : Pledged C y stored kind todo) :
    ∃ instr rest, todo = instr :: rest ∧ instr.parks = false ∧ instr.awaits = false ∧
      instr.seesClose = false := by
  cases h <;> exact ⟨_, _, rfl, rfl, rfl, rfl⟩

theorem Pledged.stored {y : Id} {stored stored' : List PairedDevice} {kind : Kind Id}
    {todo : List (Instr Id)} (h : Pledged C y stored kind todo)
    (hkeep : StoreFile.ActiveAs C.iroh stored y → StoreFile.ActiveAs C.iroh stored' y) :
    Pledged C y stored' kind todo := by
  cases h with
  | charge hremote hpaired => exact .charge hremote hpaired
  | take hremote => exact .take hremote
  | commit hremote => exact .commit hremote
  | probe he => exact .probe he
  | remember hflow hname hactive => exact .remember hflow hname hactive
  | expire hstored => exact .expire (hkeep hstored)
  | allow hstored => exact .allow (hkeep hstored)

/-! ### One step on the way -/

section Exec

variable {y : Id} {s : State Id} {p : Nat} {env : Env} {t : Task Id} {instr : Instr Id}
  {rest : List (Instr Id)} {kind : Kind Id} {n : Next Id}

theorem committedInfo_endpointId {nearby : NearbyRegistry} {remote : Id}
    {pending : PendingNearbyInvite} :
    (committedInfo C nearby remote pending).endpointId = C.iroh.toStr remote := by
  simp only [committedInfo]
  split <;> rfl

theorem nearbyPeerIdentity_endpointId {e : String} {probed : Option DeviceInfo} :
    (nearbyPeerIdentity C e probed).endpointId = e := by
  simp only [nearbyPeerIdentity]
  split
  · split <;> rfl
  · rfl

theorem dispatch_acceptance {c : ControlSession Id} {sessionId : String}
    (hpaired : c.peerIsPaired = false) :
    dispatch C c (.inviteResponse sessionId .accepted) =
      (c, [.control (.takePending .accepted), .common .read]) := by
  simp [dispatch, handlePairedControlMessage, hpaired]

theorem pledged_afterRemember {stored : List PairedDevice} {flow : PairingFlow Id}
    {device : PairedDevice} (hflow : flow.Nearby C y)
    (hstored : StoreFile.ActiveAs C.iroh stored y) :
    Pledged C y stored kind (afterRemember C flow device true ++ rest) := by
  cases hflow with
  | commit => exact .expire hstored
  | accept he =>
    simp only [afterRemember, he]
    exact .expire hstored

theorem Pledged.exec
    (h : Pledged C y s.shared.pairedStore.stored t.kind (instr :: rest))
    (hfaithful : AllFaithful C y s) (hok : KeepsPairing C y s (.exec p env))
    (hget : s.procs[p]? = some t) (htodo : t.todo = instr :: rest)
    (hnext : next C s.shared t.kind s.procs.length env instr = some (kind, n)) :
    Paired C (write C s.shared t.kind s.procs.length env instr) y ∨
      Pledged C y (write C s.shared t.kind s.procs.length env instr).pairedStore.stored kind
        (n.push ++ rest) := by
  obtain ⟨k, todo, aborted⟩ := t
  have hkind : kindOf s p = some k := kindOf_eq hget
  have hinstr : nextInstr s p = some instr := nextInstr_eq hget htodo
  cases h with
  | @charge c sessionId rest hremote hpaired =>
    have hallow := hok.undisturbed.2.2 (c.conn.remote, env.instant)
      (by rw [charging, hkind, hinstr]; rfl) hremote
    rw [← hremote] at hallow
    obtain ⟨rfl, rfl⟩ := Prod.mk.inj (Option.some.inj hnext)
    refine .inr ?_
    simp only [nextControl, hallow, if_true, dispatch_acceptance hpaired]
    exact .take hremote
  | @take c rest hremote =>
    rcases hok.finds.2.1 c.conn.remote (by rw [acceptanceTaken, hkind, hinstr]; rfl) hremote with
      hpaired | hpending
    · exact .inl (hpaired.write (hfaithful.head hget htodo))
    · obtain ⟨pending, hpending⟩ := Option.isSome_iff_exists.mp hpending
      rw [← hremote] at hpending
      obtain ⟨rfl, rfl⟩ := Prod.mk.inj (Option.some.inj hnext)
      refine .inr ?_
      simp only [nextControl, hpending, if_true]
      exact .commit hremote
  | @commit c pending rest hremote =>
    obtain ⟨rfl, rfl⟩ := Prod.mk.inj (Option.some.inj hnext)
    refine .inr (.remember (hremote ▸ .commit) ?_ rfl)
    rw [nearbyRecord, committedInfo_endpointId, hremote]
    exact names_toStr.mpr rfl
  | @probe _ e rest he =>
    obtain ⟨rfl, rfl⟩ := Prod.mk.inj (Option.some.inj hnext)
    refine .inr (.remember (.accept he) ?_ rfl)
    rw [nearbyRecord, nearbyPeerIdentity_endpointId]
    exact names_of_fromStr he
  | @remember _ flow device rest hflow hname hactive =>
    have hsaved : (s.shared.pairedStore.remember C.iroh env.io device).1 = true :=
      hok.undisturbed.2.1 (device, env) (by rw [storing, doing, hinstr]; rfl)
    obtain ⟨rfl, rfl⟩ := Prod.mk.inj (Option.some.inj hnext)
    refine .inr ?_
    rw [write_pairedStore]
    simp only [nextCommon, hsaved]
    refine pledged_afterRemember hflow ?_
    rw [StoreFile.remember_eq C.iroh (Prod.ext hsaved rfl)]
    exact StoreFile.activeAs_of_remembered C.iroh hactive hname
  | expire hstored =>
    obtain ⟨rfl, rfl⟩ := Prod.mk.inj (Option.some.inj hnext)
    exact .inr (.allow hstored)
  | allow hstored => exact .inl ⟨Finset.mem_insert_self _ _, hstored⟩

end Exec

/-! ### A pledge is kept -/

/-- The pairing is in place, or some task is on its way to it. -/
def WillPair (C : Config Id) (y : Id) (s : State Id) : Prop :=
  Paired C s.shared y ∨ ∃ (p : Nat) (t : Task Id), s.procs[p]? = some t ∧
    Pledged C y s.shared.pairedStore.stored t.kind t.todo

theorem activeAs_kept {y : Id} {s s' : State Id} {a : Act Id} {out : List (Out Id)}
    (hfaithful : AllFaithful C y s) (hs : Node.step C s a = some (s', out))
    (h : StoreFile.ActiveAs C.iroh s.shared.pairedStore.stored y) :
    StoreFile.ActiveAs C.iroh s'.shared.pairedStore.stored y := by
  rcases step_shared hs with ⟨hsame, -⟩ |
    ⟨p, env, t, instr, rest, kind, n, rfl, hget, htodo, -, hshared, -⟩
  · rw [hsame]
    exact h
  · rw [hshared]
    exact activeAs_write (hfaithful.head hget htodo) h

theorem Task.Has.pledged {y : Id} {stored : List PairedDevice} {t : Task Id} {kind : Kind Id}
    {todo : List (Instr Id)} (hhas : t.Has kind todo) (h : Pledged C y stored kind todo) :
    Pledged C y stored t.kind t.todo := by
  obtain ⟨instr, rest, rfl, hparks, -, -⟩ := h.head
  rw [hhas.todo_eq hparks, hhas.1]
  exact h

theorem WillPair.step {y : Id} {s s' : State Id} {a : Act Id} {out : List (Out Id)}
    (h : WillPair C y s) (hfaithful : AllFaithful C y s) (hok : KeepsPairing C y s a)
    (hs : Node.step C s a = some (s', out)) : WillPair C y s' := by
  rcases h with h | ⟨p, t, hget, hpledged⟩
  · exact .inl (h.step hfaithful hs)
  obtain ⟨instr, rest, htodo, hparks, hawaits, hsees⟩ := hpledged.head
  by_cases hactor : a.actor = some p
  · obtain ⟨env, rfl⟩ := step_is_exec hs hactor hget htodo hparks hawaits hsees
    obtain ⟨kind, n, t', hnext, hshared, -, hget', hhas⟩ := step_exec hs hget htodo
    rw [htodo] at hpledged
    rcases hpledged.exec hfaithful hok hget htodo hnext with hpaired | hpledged
    · exact .inl (hshared ▸ hpaired)
    · exact .inr ⟨p, t', hget', hhas.pledged (hshared ▸ hpledged)⟩
  · obtain ⟨t', hget', hhas⟩ := step_kept hs hactor hget
    exact .inr ⟨p, t', hget', hhas.pledged (hpledged.stored (activeAs_kept hfaithful hs))⟩

/-! ### Where a pledge comes from -/

def Call.invitee (C : Config Id) : Call → Option Id
  | .inviteNearbyDevice e .. | .requestNearbyPair e => C.iroh.fromStr e
  | _ => none

def Call.inviter (C : Config Id) : Call → Option Id
  | .acceptNearbyInvite e => C.iroh.fromStr e
  | _ => none

def returning (s : State Id) : Act Id → Option (Call × Ret)
  | .exec p _ =>
    match kindOf s p, nextInstr s p with
    | some (.call call), some (.common (.ret value)) => some (call, value)
    | _, _ => none
  | _ => none

/-- `invite_nearby_device` or `request_nearby_pair` of `y` returns `Ok(true)`. -/
def ReturnsInvited (C : Config Id) (y : Id) (e : Step Id) : Prop :=
  ∃ x ∈ returning e.pre e.act, x.1.invitee C = some y ∧ x.2 = .okBool true

/-- `accept_nearby_invite` of `y` returns `Ok`. -/
def ReturnsAccepted (C : Config Id) (y : Id) (e : Step Id) : Prop :=
  ∃ x ∈ returning e.pre e.act, x.1.inviter C = some y ∧ x.2 = .ok

/-- An acceptance that `y` sent is read. -/
def ReadsAcceptance (y : Id) (e : Step Id) : Prop :=
  (acceptanceRead e.pre e.act).bind Kind.remote = some y

instance (y : Id) (e : Step Id) : Decidable (ReturnsInvited C y e) :=
  inferInstanceAs (Decidable (∃ x ∈ _, _))

instance (y : Id) (e : Step Id) : Decidable (ReturnsAccepted C y e) :=
  inferInstanceAs (Decidable (∃ x ∈ _, _))

instance (y : Id) (e : Step Id) : Decidable (ReadsAcceptance y e) :=
  inferInstanceAs (Decidable (_ = _))

/-- Nothing is left to do but to wait. -/
def AtRest (s : State Id) : Prop := ∀ t ∈ s.procs, t.todo = [] ∨ t.parked = true

instance (s : State Id) : Decidable (AtRest s) := inferInstanceAs (Decidable (∀ t ∈ s.procs, _))

theorem kindOf_of_returning {s : State Id} {a : Act Id} {call : Call} {value : Ret}
    (h : returning s a = some (call, value)) : ∃ p, kindOf s p = some (.call call) := by
  cases a with
  | exec p env =>
    rw [returning] at h
    split at h
    · rename_i hkind hinstr
      obtain ⟨rfl, rfl⟩ := Prod.mk.inj (Option.some.inj h)
      exact ⟨p, hkind⟩
    · cases h
  | recv | close | drop | connect | call | lan => cases h

theorem kindOf_call_step {s s' : State Id} {a : Act Id} {out : List (Out Id)}
    (hs : step C s a = some (s', out)) {q : Nat} {call : Call}
    (hq : kindOf s' q = some (.call call)) :
    kindOf s q = some (.call call) ∨ a = .call call := by
  obtain ⟨t', hget', hkind'⟩ := Option.map_eq_some_iff.mp hq
  obtain ⟨kind, todo, horigin, hhas⟩ := step_origin hs hget'
  have hkind : kind = .call call := hhas.1.symm.trans hkind'
  cases horigin with
  | kept hne hget => exact .inl (hkind ▸ kindOf_eq hget)
  | exec hget htodo hnext =>
    cases next_case hnext with
    | common | service | window | lan | host => exact .inl (hkind ▸ kindOf_eq hget)
    | accept => cases acceptKind_next hkind
    | control | connect => cases hkind
  | recv hget hrecv => cases received_case hrecv <;> cases hkind
  | close hget hsees => exact .inl (hkind ▸ kindOf_eq hget)
  | drop hget => exact .inl (hkind ▸ kindOf_eq hget)
  | spawned hget hnext hmem hnew => cases next_spawn hnext hmem <;> cases hkind
  | started hactor hstart hnew =>
    cases started_case hstart with
    | connect | appeared | vanished => cases hkind
    | call call' => exact .inr (congrArg Act.call (Kind.call.inj hkind))

/-- A call that accepts an invite of `y` pairs with it. -/
def AcceptsPledge (C : Config Id) (y : Id) (s : State Id) : Prop :=
  ∀ (p : Nat) (call : Call), kindOf s p = some (.call call) → call.inviter C = some y →
    WillPair C y s

theorem AcceptsPledge.step {y : Id} {s s' : State Id} {a : Act Id} {out : List (Out Id)}
    (h : AcceptsPledge C y s) (hfaithful : AllFaithful C y s) (hok : KeepsPairing C y s a)
    (hs : Node.step C s a = some (s', out)) : AcceptsPledge C y s' := by
  intro p call hkind hinviter
  rcases kindOf_call_step hs hkind with hkind | rfl
  · exact (h p call hkind hinviter).step hfaithful hok hs
  · cases call with
    | acceptNearbyInvite e =>
      obtain ⟨rfl, -⟩ := Prod.mk.inj (Option.some.inj hs)
      refine .inr ⟨s.procs.length, ⟨.call (.acceptNearbyInvite e), [.service (.probeAccept e)],
        false⟩, ?_, .probe hinviter⟩
      exact List.getElem?_concat_length
    | _ => cases hinviter

theorem willPair_of_acceptance {y : Id} {s s' : State Id} {p : Nat} {sessionId : String}
    {out : List (Out Id)} (hfaithful : AllFaithful C y s)
    (hok : KeepsPairing C y s (.recv p (.inviteResponse sessionId .accepted)))
    (hs : step C s (.recv p (.inviteResponse sessionId .accepted)) = some (s', out))
    (hread : (kindOf s p).bind Kind.remote = some y) : WillPair C y s' := by
  obtain ⟨kind, hkind, hremote⟩ := Option.bind_eq_some_iff.mp hread
  rcases hok.finds.1 kind hkind hremote with hpaired | hunpaired
  · exact .inl (hpaired.step hfaithful hs)
  · cases step_case hs with
    | @recv _ _ kind₀ kind' rest todo aborted hget hrecv =>
      obtain rfl : kind₀ = kind := Option.some.inj ((kindOf_eq hget).symm.trans hkind)
      refine .inr ⟨p, _, (getElem?_set_of_some hget _ p).trans (if_pos rfl),
        (Task.has_settle _ _ _).pledged ?_⟩
      cases kind₀ with
      | control c =>
        have hpaired : c.peerIsPaired = false := by simpa [Kind.unpairedSession] using hunpaired
        obtain ⟨rfl, rfl⟩ := Prod.mk.inj (Option.some.inj hrecv)
        simp only [receiveControl, hpaired, Bool.false_eq_true, if_false, unpairedMessageAllowed,
          if_true]
        exact .charge (Option.some.inj hremote) hpaired
      | inbound | host | connect | call | expiry | lan | background => cases hunpaired
    | start hactor => cases hactor

/-! ### Runs -/

/-- The step puts the node on its way to a pairing with `y`. -/
def Pledges (C : Config Id) (y : Id) (e : Step Id) : Prop :=
  ReturnsAccepted C y e ∨ ReadsAcceptance y e

theorem willPair_of_pledges {y : Id} {s s' : State Id} {a : Act Id} {out : List (Out Id)}
    (haccepts : AcceptsPledge C y s) (hfaithful : AllFaithful C y s) (hok : KeepsPairing C y s a)
    (hs : step C s a = some (s', out)) (h : Pledges C y ⟨s, a, s', out⟩) : WillPair C y s' := by
  rcases h with ⟨⟨call, value⟩, hreturning, hinviter, -⟩ | hread
  · obtain ⟨p, hkind⟩ := kindOf_of_returning hreturning
    exact (haccepts p call hkind hinviter).step hfaithful hok hs
  · cases a with
    | recv p msg =>
      cases msg with
      | inviteResponse sessionId response =>
        cases response with
        | accepted => exact willPair_of_acceptance hfaithful hok hs hread
        | declined => cases hread
      | _ => cases hread
    | exec | close | drop | connect | call | lan => cases hread

theorem acceptsPledge_run {y : Id} {store : StoreFile} {rotated : Bool} {io : Io}
    {d : Discoverability} {relay : Option String} {tr : List (Step Id)} {s : State Id}
    (hrun : Run (machine C) (KeepsPairing C y) (start C store rotated io d relay) tr s) :
    AcceptsPledge C y s := by
  refine hrun.invariant_of_run (I := fun _ s => AcceptsPledge C y s) ?_ ?_
  · intro p call hkind hinviter
    obtain ⟨t, hget, htask⟩ := Option.map_eq_some_iff.mp hkind
    obtain rfl := eq_of_start hget
    obtain rfl := Kind.call.inj htask
    cases hinviter
  · intro tr s s' a out hprev h hok hs
    exact h.step (allFaithful_run hprev) hok hs

/-- Once a node has accepted an invite of `y`, or has read that `y` accepted one of its own, the
pairing is in place or on its way. -/
theorem willPair_run {y : Id} {store : StoreFile} {rotated : Bool} {io : Io}
    {d : Discoverability} {relay : Option String} {tr : List (Step Id)} {s : State Id}
    (hrun : Run (machine C) (KeepsPairing C y) (start C store rotated io d relay) tr s)
    (h : ∃ e ∈ tr, Pledges C y e) : WillPair C y s := by
  revert h
  refine hrun.invariant_of_run (I := fun tr s => (∃ e ∈ tr, Pledges C y e) → WillPair C y s) ?_ ?_
  · rintro ⟨e, he, -⟩
    simp at he
  · rintro tr s s' a out hprev ih hok hs ⟨e, he, hpledges⟩
    have hfaithful := allFaithful_run hprev
    rcases List.mem_append.mp he with he | he
    · exact (ih ⟨e, he, hpledges⟩).step hfaithful hok hs
    · rw [List.mem_singleton] at he
      subst he
      exact willPair_of_pledges (acceptsPledge_run hprev) hfaithful hok hs hpledges

theorem WillPair.atRest {y : Id} {s : State Id} (h : WillPair C y s) (hrest : AtRest s) :
    Paired C s.shared y := by
  rcases h with h | ⟨p, t, hget, hpledged⟩
  · exact h
  · obtain ⟨instr, rest, htodo, hparks, -, -⟩ := hpledged.head
    rcases hrest t (List.mem_of_getElem? hget) with hnil | hparked
    · rw [htodo] at hnil
      cases hnil
    · rw [Task.parked, htodo, List.head?_cons, Option.any_some, hparks] at hparked
      cases hparked

theorem paired_of_pledge {y : Id} {store : StoreFile} {rotated : Bool} {io : Io}
    {d : Discoverability} {relay : Option String} {tr : List (Step Id)} {s : State Id}
    (hrun : Run (machine C) (KeepsPairing C y) (start C store rotated io d relay) tr s)
    (hpledges : ∃ e ∈ tr, Pledges C y e) (hrest : AtRest s) : Paired C s.shared y :=
  (willPair_run hrun hpledges).atRest hrest

end DashBeam.Node

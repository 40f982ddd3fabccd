import DashBeam.Desktop.HistoryRecordingEmitter

/-!
# The share slot

`send_items`, `stop_sharing` and `get_sharing_status` of `src-tauri/src/commands.rs`, and the check
of `reconfigure_node_relay`, with any number of invocations of each at a time. `AppState` is behind
a mutex; `send_items` gives it back while a share is set up and has `is_share_starting` keep its
place, `stop_sharing` holds it while it waits for the router and for the pairing host.

Seen from outside, all invocations together are one cell (`Slot`): it is idle, reserved, or has the
ticket of the share that is served, and while a share closes nobody gets an answer. Every run of the
code is a run of the cell (`slot_refines`).
-/

namespace DashBeam.Desktop.Sharing

open Lib Recording
open Native (TransferPeer)

/-! ## The code -/

/-- A share from `start_share_items` on until it is dropped. `ticket` is there once it is served,
`recorder` has the calls on its history recorder. -/
structure Share where
  ticket : Option String
  path : String
  recorder : Option (List RecordingStep)
  held : Bool

/-- Where `send_items` is. -/
inductive SendPhase
  /-- Waiting for the state, to reserve the slot. -/
  | reserve
  /-- In `build_send_metadata`. -/
  | metadata
  /-- In `resolve_relay_mode_with_fallback`. -/
  | relay
  /-- In `start_share_items`. -/
  | starting (n : Nat) (fellBackToPublic : Bool)
  /-- Waiting for the state, with the result of the setup. -/
  | commit (result : Except String Nat)
  | done

/-- One invocation of `send_items`. -/
structure Send where
  paths : List String
  phase : SendPhase

/-- Where `stop_sharing` is. -/
inductive StopPhase
  | lock
  /-- In `ShareHandle::stop`, with the state locked. -/
  | stopping (n : Nat)
  /-- In `NodeService::stop_pairing_host`, with the state locked. -/
  | stopHost
  | done

/-- Where `reconfigure_node_relay` is. -/
inductive ReconfigurePhase
  /-- In `resolve_relay_mode_with_fallback`. -/
  | resolve
  | check
  /-- In `NodeService::reconfigure_network`. -/
  | reconfigure
  | done

/-- The fields of `AppState` that these commands use, and the running invocations. `locked` says
whether one of them holds the state over an await. -/
structure State where
  node : Bool
  currentShare : Option Nat
  isShareStarting : Bool
  locked : Bool
  shares : List Share
  sends : List Send
  stops : List StopPhase
  reconfigures : List ReconfigurePhase

/-- What the awaited operation of `send_items` does. -/
inductive Progress
  | next
  | fail (e : String)
  /-- The relay mode is there, and whether history is enabled. -/
  | resolved (fellBackToPublic recording : Bool)
  | started (ticket hash : String) (io : Io)

inductive Act
  | sendItems (paths : List String)
  | send (i : Nat) (p : Progress)
  /-- The engine emits an event through the emitter of a share. -/
  | event (n : Nat) (step : RecordingStep)
  | stopSharing
  | stop (j : Nat) (io : Io)
  | getSharingStatus
  /-- `note_share_peer`, which the invites call. -/
  | noteSharePeer (io : Io) (peer : TransferPeer)
  | reconfigureNodeRelay
  | reconfigure (k : Nat) (ok : Bool)
  /-- `init_node_service` or the exit of the app. -/
  | setNode (node : Bool)

/-- What an invocation answers, or does to the slot. -/
inductive Out
  /-- "No paths provided" -/
  | noPaths
  /-- "Already sharing a file. Please stop current share first." -/
  | alreadySharing
  | reserved
  | relayFellBack
  | shared (ticket : String)
  | failed (e : String)
  /-- The same error after the share was set up. -/
  | displaced
  /-- `stop_sharing` takes what is shared. -/
  | stopped (ticket : Option String)
  | released
  | status (ticket : Option String)
  | reconfiguring
  /-- "Stop sharing before changing network settings for paired devices." -/
  | stopFirst
  /-- "Device pairing is not available on this device." -/
  | noNode
  deriving DecidableEq, Repr

def Share.note (step : RecordingStep) (share : Share) : Share :=
  { share with recorder := share.recorder.map (· ++ [step]) }

/-- `recorder.finalize(TransferStatus::Cancelled, …)`. -/
def cancelled (io : Io) : RecordingStep := .call io (.finalize .cancelled .default none)

/-- The share is served under a ticket, and its recorder learns its hash. -/
def Share.serve (ticket hash : String) (io : Io) (share : Share) : Share :=
  { share.note
      (.call io (.updateContext fun context => { context with blobHash := some hash })) with
    ticket := some ticket }

namespace State

def setSend (s : State) (i : Nat) (x : Send) (phase : SendPhase) : State :=
  { s with sends := s.sends.set i { x with phase := phase } }

def setStop (s : State) (j : Nat) (phase : StopPhase) : State :=
  { s with stops := s.stops.set j phase }

def setReconfigure (s : State) (k : Nat) (phase : ReconfigurePhase) : State :=
  { s with reconfigures := s.reconfigures.set k phase }

/-- A share is dropped, and with it its router. -/
def drop (s : State) (n : Nat) : State :=
  { s with shares := s.shares.modify n fun share => { share with held := false } }

def ticketOf (s : State) (n : Nat) : Option String := s.shares[n]?.bind Share.ticket

/-- Something is shared, or about to be. -/
def busy (s : State) : Bool := s.currentShare.isSome || s.isShareStarting

/-- The reservation of `send_items`. -/
def reserve (s : State) (i : Nat) (x : Send) : State × List Out :=
  if s.busy then (s.setSend i x .done, [.alreadySharing])
  else ({ s.setSend i x .metadata with isShareStarting := true }, [.reserved])

/-- `build_emitter`, and the start of `start_share_items`. -/
def startShare (s : State) (i : Nat) (x : Send) (fellBackToPublic recording : Bool) : State :=
  { s.setSend i x (.starting s.shares.length fellBackToPublic) with
    shares := s.shares ++
      [⟨none, x.paths.headD ".", if recording then some [] else none, true⟩] }

/-- The end of `start_share_items`. -/
def serve (s : State) (i : Nat) (x : Send) (n : Nat) (ticket hash : String) (io : Io) : State :=
  { s.setSend i x (.commit (.ok n)) with
    shares := s.shares.modify n (Share.serve ticket hash io) }

/-- The end of `send_items`. -/
def commit (s : State) (i : Nat) (x : Send) : Except String Nat → State × List Out
  | .error e => ({ s.setSend i x .done with isShareStarting := false }, [.failed e])
  | .ok n =>
    if s.currentShare.isSome then
      ({ (s.setSend i x .done).drop n with isShareStarting := false }, [.displaced])
    else
      ({ s.setSend i x .done with isShareStarting := false, currentShare := some n },
        [.shared ((s.ticketOf n).getD "")])

def sendStep (s : State) (i : Nat) (x : Send) (p : Progress) : Option (State × List Out) :=
  match x.phase, p with
  | .reserve, .next => if s.locked then none else some (s.reserve i x)
  | .metadata, .next => some (s.setSend i x .relay, [])
  | .metadata, .fail e | .relay, .fail e => some (s.setSend i x (.commit (.error e)), [])
  | .relay, .resolved fellBackToPublic recording =>
    some (s.startShare i x fellBackToPublic recording, [])
  | .starting n fellBackToPublic, .started ticket hash io =>
    some (s.serve i x n ticket hash io, if fellBackToPublic then [.relayFellBack] else [])
  | .starting n _, .fail e =>
    some ((s.setSend i x (.commit (.error ("Failed to start sharing: " ++ e)))).drop n, [])
  | .commit result, .next => if s.locked then none else some (s.commit i x result)
  | _, _ => none

/-- The pairing host is stopped next, if there is a node; otherwise the command returns. -/
def stopHostOrReturn (s : State) (j : Nat) : State :=
  if s.node then { s.setStop j .stopHost with locked := true }
  else { s.setStop j .done with locked := false }

def stopStep (s : State) (j : Nat) (io : Io) : StopPhase → Option (State × List Out)
  | .lock =>
    if s.locked then none
    else
      match s.currentShare with
      | none => some (s.stopHostOrReturn j, [.stopped none])
      | some n =>
        some
          ({ s.setStop j (.stopping n) with
            locked := true
            currentShare := none
            shares := s.shares.modify n (Share.note (cancelled io)) },
          [.stopped (s.ticketOf n)])
  | .stopping n => some ((s.drop n).stopHostOrReturn j, [.released])
  | .stopHost => some ({ s.setStop j .done with locked := false }, [])
  | .done => none

def reconfigureStep (s : State) (k : Nat) (ok : Bool) :
    ReconfigurePhase → Option (State × List Out)
  | .resolve => some (s.setReconfigure k (if ok then .check else .done), [])
  | .check =>
    if s.locked then none
    else if s.busy then some (s.setReconfigure k .done, [.stopFirst])
    else if s.node then some (s.setReconfigure k .reconfigure, [.reconfiguring])
    else some (s.setReconfigure k .done, [.noNode])
  | .reconfigure => some (s.setReconfigure k .done, [])
  | .done => none

def step (s : State) : Act → Option (State × List Out)
  | .sendItems paths =>
    if paths = [] then some (s, [.noPaths])
    else some ({ s with sends := s.sends ++ [⟨paths, .reserve⟩] }, [])
  | .send i p => s.sends[i]?.bind fun x => s.sendStep i x p
  | .event n step =>
    match s.shares[n]? with
    | none => none
    | some share =>
      if share.held ∧ step.event.isSome then
        some ({ s with shares := s.shares.modify n (Share.note step) }, [])
      else none
  | .stopSharing => some ({ s with stops := s.stops ++ [.lock] }, [])
  | .stop j io => s.stops[j]?.bind (s.stopStep j io)
  | .getSharingStatus =>
    if s.locked then none else some (s, [.status (s.currentShare.bind s.ticketOf)])
  | .noteSharePeer io peer =>
    if s.locked then none
    else
      match s.currentShare with
      | none => some (s, [])
      | some n =>
        some ({ s with shares := s.shares.modify n (Share.note (.call io (.noteInvitedPeer peer))) },
          [])
  | .reconfigureNodeRelay => some ({ s with reconfigures := s.reconfigures ++ [.resolve] }, [])
  | .reconfigure k ok => s.reconfigures[k]?.bind (s.reconfigureStep k ok)
  | .setNode node => if s.locked then none else some ({ s with node := node }, [])

end State

def machine : Machine State Act Out := ⟨State.step⟩

/-- The app has started: nothing is shared. -/
def initial (node : Bool) : State := ⟨node, none, false, false, [], [], [], []⟩

/-! ## The cell -/

/-- What the commands are about: a cell with at most one ticket. -/
inductive Slot
  | idle
  | starting
  | sharing (ticket : String)
  | closing
  deriving DecidableEq, Repr

/-- What the cell does on an answer, if it can give it. -/
def Slot.next : Slot → Out → Option Slot
  | slot, .noPaths => some slot
  | .idle, .reserved => some .starting
  | .idle, .stopped none => some .idle
  | .idle, .status none => some .idle
  | .idle, .reconfiguring => some .idle
  | .idle, .noNode => some .idle
  | .starting, .alreadySharing => some .starting
  | .starting, .relayFellBack => some .starting
  | .starting, .shared ticket => some (.sharing ticket)
  | .starting, .failed _ => some .idle
  | .starting, .stopped none => some .starting
  | .starting, .status none => some .starting
  | .starting, .stopFirst => some .starting
  | .sharing ticket, .alreadySharing => some (.sharing ticket)
  | .sharing ticket, .stopped (some old) => if old = ticket then some .closing else none
  | .sharing ticket, .status (some shown) => if shown = ticket then some (.sharing ticket) else none
  | .sharing ticket, .stopFirst => some (.sharing ticket)
  | .closing, .released => some .idle
  | _, _ => none

/-- What the cell does on a list of answers. -/
def Slot.run (slot : Slot) (outs : List Out) : Option Slot := outs.foldlM Slot.next slot

/-! ## Who has the share -/

/-- The invocation has reserved the slot. -/
def Send.Reserved (x : Send) : Prop := x.phase ≠ .reserve ∧ x.phase ≠ .done

/-- The share an invocation is setting up. -/
def Send.share (x : Send) : Option Nat :=
  match x.phase with
  | .starting n _ => some n
  | .commit (.ok n) => some n
  | _ => none

/-- The invocation holds the state over an await. -/
def StopPhase.Holds (phase : StopPhase) : Prop := phase = .stopHost ∨ ∃ n, phase = .stopping n

/-- The state is locked by one invocation at a time. -/
structure Locked (s : State) : Prop where
  locked : ∀ {j : Nat} {phase : StopPhase}, s.stops[j]? = some phase → phase.Holds → s.locked = true
  one : ∀ {j j' : Nat} {phase phase' : StopPhase}, s.stops[j]? = some phase →
    s.stops[j']? = some phase' → phase.Holds → phase'.Holds → j = j'

namespace State

/-- No invocation of `send_items` but this one has the slot. -/
def OnlySend (s : State) (i : Option Nat) : Prop :=
  ∀ (i' : Nat) (x : Send), s.sends[i']? = some x → x.Reserved → i = some i'

def OnlyShare (s : State) (o : Option Nat) : Prop :=
  ∀ (n : Nat) (share : Share), s.shares[n]? = some share → (share.held = true ↔ o = some n)

/-- No share is being stopped but this one. -/
def OnlyStop (s : State) (o : Option Nat) : Prop :=
  ∀ j n : Nat, s.stops[j]? = some (.stopping n) → o = some n

/-- The share is set up and has this ticket. -/
def Serves (s : State) (n : Nat) (ticket : String) : Prop :=
  ∃ share, s.shares[n]? = some share ∧ share.ticket = some ticket

end State

/-- The state behind the mutex, and who has the share, as the cell says. -/
inductive Shows (s : State) : Slot → Prop
  | idle : s.isShareStarting = false → s.currentShare = none → s.OnlySend none → s.OnlyStop none →
      s.OnlyShare none → Shows s .idle
  | starting (i : Nat) (x : Send) : s.isShareStarting = true → s.currentShare = none →
      s.sends[i]? = some x → x.Reserved → s.OnlySend (some i) → s.OnlyStop none →
      s.OnlyShare x.share → (∀ n, x.share = some n → n < s.shares.length) →
      (∀ n fellBackToPublic, x.phase = .starting n fellBackToPublic → s.ticketOf n = none) →
      (∀ n, x.phase = .commit (.ok n) → ∃ ticket, s.Serves n ticket) → Shows s .starting
  | sharing (n : Nat) (ticket : String) : s.isShareStarting = false → s.currentShare = some n →
      s.Serves n ticket → s.OnlySend none → s.OnlyStop none → s.OnlyShare (some n) →
      Shows s (.sharing ticket)
  | closing (j n : Nat) : s.isShareStarting = false → s.currentShare = none →
      s.stops[j]? = some (.stopping n) → s.OnlySend none → s.OnlyStop (some n) →
      s.OnlyShare (some n) → Shows s .closing

section Frame

variable {s s' : State} {i j : Nat} {x : Send}

theorem serves_ticketOf {n : Nat} {ticket : String} (h : s.Serves n ticket) :
    s.ticketOf n = some ticket := by
  obtain ⟨share, hshare, hticket⟩ := h
  rw [State.ticketOf, hshare]
  exact hticket

/-- An invocation that goes on without the slot. -/
theorem onlySend_set {o : Option Nat} {phase : SendPhase} (h : s.OnlySend o)
    (hx : s.sends[i]? = some x) (hnext : phase = .done ∨ o = some i) :
    (s.setSend i x phase).OnlySend o := by
  intro i' y hy hreserved
  change (s.sends.set i { x with phase := phase })[i']? = some y at hy
  rw [getElem?_set_of_some hx] at hy
  split at hy
  · rename_i heq
    obtain rfl := Option.some.inj hy
    rcases hnext with rfl | ho
    · exact absurd rfl hreserved.2
    · rw [← heq]
      exact ho
  · exact h i' y hy hreserved

theorem onlySend_release (h : s.OnlySend (some i)) (hx : s.sends[i]? = some x) :
    (s.setSend i x .done).OnlySend none := by
  intro i' y hy hreserved
  change (s.sends.set i { x with phase := .done })[i']? = some y at hy
  rw [getElem?_set_of_some hx] at hy
  split at hy
  · obtain rfl := Option.some.inj hy
    exact absurd rfl hreserved.2
  · rename_i hne
    exact absurd (Option.some.inj (h i' y hy hreserved)) hne

theorem onlySend_reserve {phase : SendPhase} (h : s.OnlySend none) (hx : s.sends[i]? = some x) :
    (s.setSend i x phase).OnlySend (some i) := by
  intro i' y hy hreserved
  change (s.sends.set i { x with phase := phase })[i']? = some y at hy
  rw [getElem?_set_of_some hx] at hy
  split at hy
  · rename_i heq
    rw [heq]
  · cases h i' y hy hreserved

theorem sends_set_self {phase : SendPhase} (hx : s.sends[i]? = some x) :
    (s.setSend i x phase).sends[i]? = some { x with phase := phase } := by
  show (s.sends.set i { x with phase := phase })[i]? = _
  rw [getElem?_set_of_some hx, if_pos rfl]

theorem getElem?_modify_share {shares : List Share} {f : Share → Share} {n k : Nat} :
    (shares.modify n f)[k]? = if n = k then shares[k]?.map f else shares[k]? := by
  rw [List.getElem?_modify]
  split <;> simp

theorem onlyShare_modify {o : Option Nat} {n : Nat} {f : Share → Share}
    (hf : ∀ share : Share, (f share).held = share.held) (h : s.OnlyShare o)
    (hshares : s'.shares = s.shares.modify n f) : s'.OnlyShare o := by
  intro k share hshare
  rw [hshares, getElem?_modify_share] at hshare
  split at hshare
  · obtain ⟨old, hold, rfl⟩ := Option.map_eq_some_iff.mp hshare
    rw [hf]
    exact h k old hold
  · exact h k share hshare

theorem onlyShare_drop {n : Nat} (h : s.OnlyShare (some n)) : (s.drop n).OnlyShare none := by
  intro k share hshare
  change (s.shares.modify n _)[k]? = some share at hshare
  rw [getElem?_modify_share] at hshare
  split at hshare
  · obtain ⟨old, hold, rfl⟩ := Option.map_eq_some_iff.mp hshare
    simp
  · rename_i hne
    rw [h k share hshare]
    constructor
    · intro heq
      exact absurd (Option.some.inj heq) hne
    · nofun

theorem serves_modify {n k : Nat} {f : Share → Share} {ticket : String}
    (hf : ∀ share : Share, (f share).ticket = share.ticket) (h : s.Serves n ticket)
    (hshares : s'.shares = s.shares.modify k f) : s'.Serves n ticket := by
  obtain ⟨share, hshare, hticket⟩ := h
  rw [State.Serves, hshares, getElem?_modify_share, hshare]
  split
  · exact ⟨f share, rfl, (hf share).trans hticket⟩
  · exact ⟨share, rfl, hticket⟩

/-- What the cell shows does not depend on the node, the lock or the other commands. -/
theorem Shows.frame {slot : Slot} (h : Shows s slot)
    (hstarting : s'.isShareStarting = s.isShareStarting)
    (hcurrent : s'.currentShare = s.currentShare) (hshares : s'.shares = s.shares)
    (hsends : s'.sends = s.sends)
    (hstops : ∀ k n : Nat, s'.stops[k]? = some (.stopping n) ↔ s.stops[k]? = some (.stopping n)) :
    Shows s' slot := by
  have honlyStop : ∀ o, s.OnlyStop o → s'.OnlyStop o :=
    fun o ho k n hk => ho k n ((hstops k n).mp hk)
  have honlySend : ∀ o, s.OnlySend o → s'.OnlySend o := by
    intro o ho
    rw [State.OnlySend, hsends]
    exact ho
  have honlyShare : ∀ o, s.OnlyShare o → s'.OnlyShare o := by
    intro o ho
    rw [State.OnlyShare, hshares]
    exact ho
  have hserves : ∀ n ticket, s.Serves n ticket → s'.Serves n ticket := by
    intro n ticket hn
    rw [State.Serves, hshares]
    exact hn
  cases h with
  | idle h₁ h₂ h₃ h₄ h₅ =>
    exact .idle (hstarting.trans h₁) (hcurrent.trans h₂) (honlySend _ h₃) (honlyStop _ h₄)
      (honlyShare _ h₅)
  | starting i x h₁ h₂ h₃ h₄ h₅ h₆ h₇ h₈ h₉ h₁₀ =>
    refine .starting i x (hstarting.trans h₁) (hcurrent.trans h₂) ?_ h₄ (honlySend _ h₅)
      (honlyStop _ h₆) (honlyShare _ h₇) ?_ ?_ ?_
    · rw [hsends]
      exact h₃
    · rw [hshares]
      exact h₈
    · intro n fellBackToPublic hn
      rw [State.ticketOf, hshares]
      exact h₉ n fellBackToPublic hn
    · intro n hn
      obtain ⟨ticket, hticket⟩ := h₁₀ n hn
      exact ⟨ticket, hserves n ticket hticket⟩
  | sharing n ticket h₁ h₂ h₃ h₄ h₅ h₆ =>
    exact .sharing n ticket (hstarting.trans h₁) (hcurrent.trans h₂) (hserves n ticket h₃)
      (honlySend _ h₄) (honlyStop _ h₅) (honlyShare _ h₆)
  | closing j n h₁ h₂ h₃ h₄ h₅ h₆ =>
    exact .closing j n (hstarting.trans h₁) (hcurrent.trans h₂) ((hstops j n).mpr h₃)
      (honlySend _ h₄) (honlyStop _ h₅) (honlyShare _ h₆)

end Frame

/-! ## One step -/

section Step

variable {s s' : State} {slot : Slot} {out : List Out}

/-- What a step has to keep: the cell can give the step's answers, and shows the state after it. -/
def Refines (s' : State) (slot : Slot) (out : List Out) : Prop :=
  ∃ slot', slot.run out = some slot' ∧ Shows s' slot' ∧ Locked s'

theorem Refines.silent (h : Shows s' slot) (hlocked : Locked s') : Refines s' slot [] :=
  ⟨slot, rfl, h, hlocked⟩

theorem Locked.frame (h : Locked s) (hstops : s'.stops = s.stops) (hlock : s'.locked = s.locked) :
    Locked s' := by
  constructor
  · intro j phase hphase hholds
    rw [hlock]
    rw [hstops] at hphase
    exact h.locked hphase hholds
  · intro j j' phase phase' hphase hphase'
    rw [hstops] at hphase hphase'
    exact h.one hphase hphase'

/-- While nobody holds the state, no share is being stopped. -/
theorem Locked.not_closing (h : Locked s) (hfree : s.locked = false) : ¬ Shows s .closing := by
  intro hshows
  cases hshows with
  | closing j n _ _ hstop =>
    have := h.locked hstop (Or.inr ⟨n, rfl⟩)
    rw [hfree] at this
    cases this

theorem Shows.busy (h : Shows s slot) (hopen : slot ≠ .closing) :
    s.busy = true ↔ slot ≠ .idle := by
  rw [State.busy]
  cases h with
  | idle h₁ h₂ => simp [h₁, h₂]
  | starting i x h₁ h₂ => simp [h₁]
  | sharing n ticket h₁ h₂ => simp [h₂]
  | closing => exact absurd rfl hopen

theorem Shows.starting_of_reserved {i : Nat} {x : Send} (h : Shows s slot)
    (hx : s.sends[i]? = some x) (hreserved : x.Reserved) :
    slot = .starting ∧ s.isShareStarting = true ∧ s.currentShare = none ∧ s.OnlySend (some i) ∧
      s.OnlyStop none ∧ s.OnlyShare x.share ∧ (∀ n, x.share = some n → n < s.shares.length) ∧
      (∀ n fellBackToPublic, x.phase = .starting n fellBackToPublic → s.ticketOf n = none) ∧
      ∀ n, x.phase = .commit (.ok n) → ∃ ticket, s.Serves n ticket := by
  cases h with
  | idle _ _ honly => cases honly i x hx hreserved
  | sharing _ _ _ _ _ honly => cases honly i x hx hreserved
  | closing _ _ _ _ _ honly => cases honly i x hx hreserved
  | starting i' x' h₁ h₂ h₃ h₄ h₅ h₆ h₇ h₈ h₉ h₁₀ =>
    obtain rfl := Option.some.inj (h₅ i x hx hreserved)
    obtain rfl := Option.some.inj (h₃.symm.trans hx)
    exact ⟨rfl, h₁, h₂, h₅, h₆, h₇, h₈, h₉, h₁₀⟩

theorem reserve_refines {i : Nat} {x : Send} (h : Shows s slot) (hlocked : Locked s)
    (hfree : s.locked = false) (hx : s.sends[i]? = some x) (hphase : x.phase = .reserve) :
    Refines (s.reserve i x).1 slot (s.reserve i x).2 := by
  have hopen : slot ≠ .closing := by
    rintro rfl
    exact hlocked.not_closing hfree h
  rw [State.reserve]
  by_cases hbusy : s.busy = true
  · rw [if_pos hbusy]
    rw [h.busy hopen] at hbusy
    have hkeep : Shows (s.setSend i x .done) slot := by
      cases h with
      | idle => exact absurd rfl hbusy
      | closing => exact absurd rfl hopen
      | sharing n ticket h₁ h₂ h₃ h₄ h₅ h₆ =>
        exact .sharing n ticket h₁ h₂ h₃ (onlySend_set h₄ hx (Or.inl rfl)) h₅ h₆
      | starting i' x' h₁ h₂ h₃ h₄ h₅ h₆ h₇ h₈ h₉ h₁₀ =>
        have hne : i ≠ i' := by
          rintro rfl
          obtain rfl := Option.some.inj (h₃.symm.trans hx)
          exact h₄.1 hphase
        refine .starting i' x' h₁ h₂ ?_ h₄ (onlySend_set h₅ hx (Or.inl rfl)) h₆ h₇ h₈ h₉ h₁₀
        show (s.sends.set i _)[i']? = _
        rw [getElem?_set_of_some hx, if_neg hne]
        exact h₃
    refine ⟨slot, ?_, hkeep, hlocked.frame rfl rfl⟩
    cases slot with
    | idle => exact absurd rfl hbusy
    | closing => exact absurd rfl hopen
    | starting | sharing => rfl
  · rw [if_neg hbusy]
    rw [h.busy hopen, not_not] at hbusy
    subst hbusy
    cases h with
    | idle h₁ h₂ h₃ h₄ h₅ =>
      refine ⟨.starting, rfl, ?_, hlocked.frame rfl rfl⟩
      refine .starting i { x with phase := .metadata } rfl h₂ (sends_set_self hx) ⟨nofun, nofun⟩
        (onlySend_reserve h₃ hx) h₄ h₅ nofun nofun nofun

theorem setup_shows {i : Nat} {x : Send} {phase : SendPhase} (h : Shows s slot)
    (hx : s.sends[i]? = some x) (hreserved : x.Reserved)
    (hnext : ({ x with phase := phase } : Send).Reserved)
    (hnone : x.share = none) (hnone' : ({ x with phase := phase } : Send).share = none) :
    Shows (s.setSend i x phase) slot := by
  obtain ⟨rfl, h₁, h₂, h₅, h₆, h₇, -⟩ := h.starting_of_reserved hx hreserved
  rw [hnone] at h₇
  refine .starting i _ h₁ h₂ (sends_set_self hx) hnext (onlySend_set h₅ hx (Or.inr rfl)) h₆ ?_ ?_
    ?_ ?_
  · rw [hnone']
    exact h₇
  · rw [hnone']
    nofun
  · rintro n fellBackToPublic rfl
    cases hnone'
  · rintro n rfl
    cases hnone'

theorem startShare_shows {i : Nat} {x : Send} {fellBackToPublic recording : Bool}
    (h : Shows s slot) (hx : s.sends[i]? = some x) (hphase : x.phase = .relay) :
    Shows (s.startShare i x fellBackToPublic recording) slot := by
  have hreserved : x.Reserved := by
    rw [Send.Reserved, hphase]
    exact ⟨nofun, nofun⟩
  have hnone : x.share = none := by rw [Send.share, hphase]
  obtain ⟨rfl, h₁, h₂, h₅, h₆, h₇, -⟩ := h.starting_of_reserved hx hreserved
  rw [hnone] at h₇
  refine .starting i { x with phase := .starting s.shares.length fellBackToPublic } h₁ h₂
    (sends_set_self hx) ⟨nofun, nofun⟩ (onlySend_set h₅ hx (Or.inr rfl)) h₆ ?_ ?_ ?_ nofun
  · -- the new share is the last one, and the others were dropped
    intro n share hshare
    change (s.shares ++ [_])[n]? = some share at hshare
    rw [Send.share, Option.some.injEq]
    rcases Nat.lt_or_ge n s.shares.length with hlt | hge
    · rw [List.getElem?_append_left hlt] at hshare
      have hnot := h₇ n share hshare
      constructor
      · intro hheld
        cases hnot.mp hheld
      · intro heq
        omega
    · rw [List.getElem?_append_right hge] at hshare
      obtain ⟨hlt, hshare⟩ := List.getElem?_eq_some_iff.mp hshare
      rw [List.length_singleton] at hlt
      rw [List.getElem_singleton] at hshare
      rw [← hshare]
      constructor
      · intro
        omega
      · intro
        rfl
  · intro n hn
    rw [Send.share, Option.some.injEq] at hn
    show n < (s.shares ++ [_]).length
    rw [List.length_append, List.length_singleton]
    omega
  · intro n _ hn
    obtain ⟨rfl, -⟩ := SendPhase.starting.inj hn
    show ((s.shares ++ [_])[s.shares.length]?).bind Share.ticket = none
    rw [List.getElem?_concat_length]
    rfl

theorem serve_shows {i n : Nat} {x : Send} {fellBackToPublic : Bool} (ticket hash : String)
    (io : Io) (h : Shows s slot) (hx : s.sends[i]? = some x)
    (hphase : x.phase = .starting n fellBackToPublic) :
    slot = .starting ∧ Shows (s.serve i x n ticket hash io) .starting := by
  have hreserved : x.Reserved := by
    rw [Send.Reserved, hphase]
    exact ⟨nofun, nofun⟩
  have hshare : x.share = some n := by rw [Send.share, hphase]
  obtain ⟨rfl, h₁, h₂, h₅, h₆, h₇, h₈, -⟩ := h.starting_of_reserved hx hreserved
  rw [hshare] at h₇ h₈
  have hlt := h₈ n rfl
  refine ⟨rfl, .starting i { x with phase := .commit (.ok n) } h₁ h₂ (sends_set_self hx)
    ⟨nofun, nofun⟩ (onlySend_set h₅ hx (Or.inr rfl)) h₆ ?_ ?_ nofun ?_⟩
  · exact onlyShare_modify (f := Share.serve ticket hash io) (fun _ => rfl) h₇ rfl
  · intro k hk
    show k < (s.shares.modify n _).length
    rw [List.length_modify]
    exact h₈ k hk
  · intro k hk
    obtain rfl : n = k := Except.ok.inj (SendPhase.commit.inj hk)
    refine ⟨ticket, Share.serve ticket hash io s.shares[n], ?_, rfl⟩
    show (s.shares.modify n _)[n]? = _
    rw [getElem?_modify_share, if_pos rfl, List.getElem?_eq_getElem hlt]
    rfl

theorem commit_refines {i : Nat} {x : Send} {result : Except String Nat} (h : Shows s slot)
    (hlocked : Locked s) (hx : s.sends[i]? = some x) (hphase : x.phase = .commit result) :
    Refines (s.commit i x result).1 slot (s.commit i x result).2 := by
  have hreserved : x.Reserved := by
    rw [Send.Reserved, hphase]
    exact ⟨nofun, nofun⟩
  obtain ⟨rfl, h₁, h₂, h₅, h₆, h₇, -, -, h₁₀⟩ := h.starting_of_reserved hx hreserved
  cases result with
  | error e =>
    have hnone : x.share = none := by rw [Send.share, hphase]
    rw [hnone] at h₇
    exact ⟨.idle, rfl, .idle rfl h₂ (onlySend_release h₅ hx) h₆ h₇, hlocked.frame rfl rfl⟩
  | ok n =>
    have hshare : x.share = some n := by rw [Send.share, hphase]
    rw [hshare] at h₇
    obtain ⟨ticket, hserves⟩ := h₁₀ n hphase
    have hnot : ¬ s.currentShare.isSome = true := by
      rw [h₂]
      exact Bool.false_ne_true
    rw [State.commit, if_neg hnot, serves_ticketOf hserves]
    exact ⟨.sharing ticket, rfl,
      .sharing n ticket rfl rfl hserves (onlySend_release h₅ hx) h₆ h₇, hlocked.frame rfl rfl⟩

theorem send_refines {i : Nat} {x : Send} {p : Progress} (h : Shows s slot) (hlocked : Locked s)
    (hx : s.sends[i]? = some x) (hstep : s.sendStep i x p = some (s', out)) :
    Refines s' slot out := by
  have hreserved : ∀ {phase}, x.phase = phase → phase ≠ .reserve → phase ≠ .done → x.Reserved := by
    intro phase hphase hne hne'
    rw [Send.Reserved, hphase]
    exact ⟨hne, hne'⟩
  have hnone : ∀ {phase}, x.phase = phase → ({ x with phase := phase } : Send).share = none →
      x.share = none := by
    intro phase hphase heq
    rw [← hphase] at heq
    exact heq
  unfold State.sendStep at hstep
  split at hstep
  · rename_i hphase
    split at hstep
    · cases hstep
    · rename_i hfree
      obtain ⟨rfl, rfl⟩ := Prod.mk.inj (Option.some.inj hstep)
      exact reserve_refines h hlocked (by simpa using hfree) hx hphase
  · rename_i hphase
    obtain ⟨rfl, rfl⟩ := Prod.mk.inj (Option.some.inj hstep)
    exact .silent (setup_shows h hx (hreserved hphase nofun nofun) ⟨nofun, nofun⟩
      (hnone hphase rfl) rfl) (hlocked.frame rfl rfl)
  · rename_i hphase
    obtain ⟨rfl, rfl⟩ := Prod.mk.inj (Option.some.inj hstep)
    exact .silent (setup_shows h hx (hreserved hphase nofun nofun) ⟨nofun, nofun⟩
      (hnone hphase rfl) rfl) (hlocked.frame rfl rfl)
  · rename_i hphase
    obtain ⟨rfl, rfl⟩ := Prod.mk.inj (Option.some.inj hstep)
    exact .silent (setup_shows h hx (hreserved hphase nofun nofun) ⟨nofun, nofun⟩
      (hnone hphase rfl) rfl) (hlocked.frame rfl rfl)
  · rename_i hphase
    obtain ⟨rfl, rfl⟩ := Prod.mk.inj (Option.some.inj hstep)
    exact .silent (startShare_shows h hx hphase) (hlocked.frame rfl rfl)
  · rename_i n fellBackToPublic ticket hash io hphase
    obtain ⟨rfl, rfl⟩ := Prod.mk.inj (Option.some.inj hstep)
    obtain ⟨rfl, hshows⟩ := serve_shows ticket hash io h hx hphase
    refine ⟨.starting, ?_, hshows, hlocked.frame rfl rfl⟩
    cases fellBackToPublic <;> rfl
  · rename_i n fellBackToPublic e hphase
    obtain ⟨rfl, rfl⟩ := Prod.mk.inj (Option.some.inj hstep)
    have hshare : x.share = some n := by rw [Send.share, hphase]
    obtain ⟨rfl, h₁, h₂, h₅, h₆, h₇, -⟩ :=
      h.starting_of_reserved hx (hreserved hphase nofun nofun)
    rw [hshare] at h₇
    refine .silent (.starting i _ h₁ h₂ (sends_set_self hx) ⟨nofun, nofun⟩
      (onlySend_set h₅ hx (Or.inr rfl)) h₆ ?_ nofun nofun nofun) (hlocked.frame rfl rfl)
    exact onlyShare_drop h₇
  · rename_i result hphase
    split at hstep
    · cases hstep
    · obtain ⟨rfl, rfl⟩ := Prod.mk.inj (Option.some.inj hstep)
      exact commit_refines h hlocked hx hphase
  · cases hstep

/-- One invocation gets or keeps the lock, or gives it back. -/
theorem Locked.set {j : Nat} {phase phase' : StopPhase} (hj : s.stops[j]? = some phase)
    (honly : ∀ {j' : Nat} {other : StopPhase}, s.stops[j']? = some other → other.Holds → j = j')
    (hstops : s'.stops = s.stops.set j phase') (hlock : phase'.Holds → s'.locked = true) :
    Locked s' := by
  have hholder : ∀ {k : Nat} {other : StopPhase}, s'.stops[k]? = some other → other.Holds →
      j = k ∧ other = phase' := by
    intro k other hother hholds
    rw [hstops, getElem?_set_of_some hj] at hother
    split at hother
    · rename_i heq
      exact ⟨heq, (Option.some.inj hother).symm⟩
    · rename_i hne
      exact absurd (honly hother hholds) hne
  constructor
  · intro k other hother hholds
    obtain ⟨-, rfl⟩ := hholder hother hholds
    exact hlock hholds
  · intro k k' other other' hother hother' hholds hholds'
    exact (hholder hother hholds).1.symm.trans (hholder hother' hholds').1

theorem stops_set_iff {j : Nat} {phase phase' : StopPhase} (hj : s.stops[j]? = some phase)
    (hphase : ∀ n, phase ≠ .stopping n) (hphase' : ∀ n, phase' ≠ .stopping n) (k n : Nat) :
    (s.stops.set j phase')[k]? = some (.stopping n) ↔ s.stops[k]? = some (.stopping n) := by
  rw [getElem?_set_of_some hj]
  split
  · rename_i heq
    rw [← heq, hj, Option.some.injEq, Option.some.injEq]
    exact iff_of_false (hphase' n) (hphase n)
  · exact Iff.rfl

theorem stopHostOrReturn_shows {j : Nat} {phase : StopPhase} (h : Shows s slot)
    (hj : s.stops[j]? = some phase) (hphase : ∀ n, phase ≠ .stopping n) :
    Shows (s.stopHostOrReturn j) slot := by
  rw [State.stopHostOrReturn]
  split
  · exact h.frame rfl rfl rfl rfl (stops_set_iff hj hphase nofun)
  · exact h.frame rfl rfl rfl rfl (stops_set_iff hj hphase nofun)

theorem stopHostOrReturn_locked {j : Nat} {phase : StopPhase} (hj : s.stops[j]? = some phase)
    (honly : ∀ {j' : Nat} {other : StopPhase}, s.stops[j']? = some other → other.Holds → j = j') :
    Locked (s.stopHostOrReturn j) := by
  rw [State.stopHostOrReturn]
  split
  · exact .set hj honly rfl fun _ => rfl
  · apply Locked.set hj honly rfl
    rintro (hdone | ⟨n, hdone⟩) <;> cases hdone

theorem stopLock_refines {j : Nat} {io : Io} (h : Shows s slot) (hlocked : Locked s)
    (hj : s.stops[j]? = some .lock) (hstep : s.stopStep j io .lock = some (s', out)) :
    Refines s' slot out := by
  rw [State.stopStep] at hstep
  split at hstep
  · cases hstep
  · rename_i hfree
    have honly : ∀ {j' : Nat} {other : StopPhase}, s.stops[j']? = some other → other.Holds →
        j = j' := by
      intro j' other hother hholds
      exact absurd (hlocked.locked hother hholds) hfree
    cases h with
    | closing j' n h₁ h₂ h₃ =>
      exact absurd (hlocked.locked h₃ (Or.inr ⟨n, rfl⟩)) hfree
    | idle h₁ h₂ h₃ h₄ h₅ =>
      simp only [h₂, Option.some.injEq, Prod.mk.injEq] at hstep
      obtain ⟨rfl, rfl⟩ := hstep
      exact ⟨.idle, rfl, stopHostOrReturn_shows (.idle h₁ h₂ h₃ h₄ h₅) hj nofun,
        stopHostOrReturn_locked hj honly⟩
    | starting i x h₁ h₂ h₃ h₄ h₅ h₆ h₇ h₈ h₉ h₁₀ =>
      simp only [h₂, Option.some.injEq, Prod.mk.injEq] at hstep
      obtain ⟨rfl, rfl⟩ := hstep
      exact ⟨.starting, rfl,
        stopHostOrReturn_shows (.starting i x h₁ h₂ h₃ h₄ h₅ h₆ h₇ h₈ h₉ h₁₀) hj nofun,
        stopHostOrReturn_locked hj honly⟩
    | sharing n ticket h₁ h₂ h₃ h₄ h₅ h₆ =>
      simp only [h₂, Option.some.injEq, Prod.mk.injEq] at hstep
      obtain ⟨rfl, rfl⟩ := hstep
      refine ⟨.closing, ?_, ?_, .set hj honly rfl fun _ => rfl⟩
      · rw [serves_ticketOf h₃]
        show (if ticket = ticket then some Slot.closing else none).bind some = _
        rw [if_pos rfl]
        rfl
      · refine .closing j n h₁ rfl ?_ h₄ ?_
          (onlyShare_modify (f := Share.note (cancelled io)) (fun _ => rfl) h₆ rfl)
        · show (s.stops.set j _)[j]? = _
          rw [getElem?_set_of_some hj, if_pos rfl]
        · intro k m hk
          change (s.stops.set j _)[k]? = _ at hk
          rw [getElem?_set_of_some hj] at hk
          split at hk
          · obtain rfl := StopPhase.stopping.inj (Option.some.inj hk)
            rfl
          · cases h₅ k m hk

theorem stop_refines {j : Nat} {io : Io} {phase : StopPhase} (h : Shows s slot)
    (hlocked : Locked s) (hj : s.stops[j]? = some phase)
    (hstep : s.stopStep j io phase = some (s', out)) : Refines s' slot out := by
  cases phase with
  | lock => exact stopLock_refines h hlocked hj hstep
  | done => cases hstep
  | stopHost =>
    obtain ⟨rfl, rfl⟩ := Prod.mk.inj (Option.some.inj hstep)
    refine .silent (h.frame rfl rfl rfl rfl (stops_set_iff hj nofun nofun)) ?_
    apply Locked.set hj (fun hother hholds => hlocked.one hj hother (Or.inl rfl) hholds) rfl
    rintro (hdone | ⟨n, hdone⟩) <;> cases hdone
  | stopping n =>
    obtain ⟨rfl, rfl⟩ := Prod.mk.inj (Option.some.inj hstep)
    have hlocked' : Locked ((s.drop n).stopHostOrReturn j) :=
      stopHostOrReturn_locked hj fun hother hholds =>
        hlocked.one hj hother (Or.inr ⟨n, rfl⟩) hholds
    cases h with
    | idle _ _ _ honly => cases honly j n hj
    | starting _ _ _ _ _ _ _ honly => cases honly j n hj
    | sharing _ _ _ _ _ _ honly => cases honly j n hj
    | closing j' n' h₁ h₂ h₃ h₄ h₅ h₆ =>
      obtain rfl := Option.some.inj (h₅ j n hj)
      have honly : ∀ phase' : StopPhase, (∀ m, phase' ≠ .stopping m) →
          ∀ k m : Nat, (s.stops.set j phase')[k]? = some (.stopping m) → none = some m := by
        intro phase' hphase' k m hk
        rw [getElem?_set_of_some hj] at hk
        split at hk
        · exact absurd (Option.some.inj hk) (hphase' m)
        · rename_i hne
          exact absurd (hlocked.one hj hk (Or.inr ⟨_, rfl⟩) (Or.inr ⟨_, rfl⟩)) hne
      refine ⟨.idle, rfl, ?_, hlocked'⟩
      rw [State.stopHostOrReturn]
      split
      · exact .idle h₁ h₂ h₄ (honly _ nofun) (onlyShare_drop h₆)
      · exact .idle h₁ h₂ h₄ (honly _ nofun) (onlyShare_drop h₆)

theorem reconfigure_refines {k : Nat} {ok : Bool} {phase : ReconfigurePhase} (h : Shows s slot)
    (hlocked : Locked s) (hstep : s.reconfigureStep k ok phase = some (s', out)) :
    Refines s' slot out := by
  have hkeep : ∀ phase', Shows (s.setReconfigure k phase') slot := fun phase' =>
    h.frame rfl rfl rfl rfl fun _ _ => Iff.rfl
  have hlock : ∀ phase', Locked (s.setReconfigure k phase') := fun phase' =>
    hlocked.frame rfl rfl
  cases phase with
  | done => cases hstep
  | resolve | reconfigure =>
    obtain ⟨rfl, rfl⟩ := Prod.mk.inj (Option.some.inj hstep)
    exact .silent (hkeep _) (hlock _)
  | check =>
    rw [State.reconfigureStep] at hstep
    split at hstep
    · cases hstep
    · rename_i hfree
      have hopen : slot ≠ .closing := by
        rintro rfl
        exact hlocked.not_closing (by simpa using hfree) h
      split at hstep
      · rename_i hbusy
        obtain ⟨rfl, rfl⟩ := Prod.mk.inj (Option.some.inj hstep)
        rw [h.busy hopen] at hbusy
        refine ⟨slot, ?_, hkeep _, hlock _⟩
        cases slot with
        | idle => exact absurd rfl hbusy
        | closing => exact absurd rfl hopen
        | starting | sharing => rfl
      · rename_i hbusy
        rw [h.busy hopen, not_not] at hbusy
        subst hbusy
        split at hstep
        · obtain ⟨rfl, rfl⟩ := Prod.mk.inj (Option.some.inj hstep)
          exact ⟨.idle, rfl, hkeep _, hlock _⟩
        · obtain ⟨rfl, rfl⟩ := Prod.mk.inj (Option.some.inj hstep)
          exact ⟨.idle, rfl, hkeep _, hlock _⟩

theorem note_shows {n : Nat} {step : RecordingStep} (h : Shows s slot) :
    Shows { s with shares := s.shares.modify n (Share.note step) } slot := by
  have honlyShare : ∀ o, s.OnlyShare o →
      State.OnlyShare { s with shares := s.shares.modify n (Share.note step) } o :=
    fun o ho => onlyShare_modify (f := Share.note step) (fun _ => rfl) ho rfl
  have hserves : ∀ k ticket, s.Serves k ticket →
      State.Serves { s with shares := s.shares.modify n (Share.note step) } k ticket :=
    fun k ticket hk => serves_modify (f := Share.note step) (fun _ => rfl) hk rfl
  cases h with
  | idle h₁ h₂ h₃ h₄ h₅ => exact .idle h₁ h₂ h₃ h₄ (honlyShare _ h₅)
  | closing j m h₁ h₂ h₃ h₄ h₅ h₆ => exact .closing j m h₁ h₂ h₃ h₄ h₅ (honlyShare _ h₆)
  | sharing m ticket h₁ h₂ h₃ h₄ h₅ h₆ =>
    exact .sharing m ticket h₁ h₂ (hserves m ticket h₃) h₄ h₅ (honlyShare _ h₆)
  | starting i x h₁ h₂ h₃ h₄ h₅ h₆ h₇ h₈ h₉ h₁₀ =>
    refine .starting i x h₁ h₂ h₃ h₄ h₅ h₆ (honlyShare _ h₇) ?_ ?_ ?_
    · intro k hk
      show k < (s.shares.modify n _).length
      rw [List.length_modify]
      exact h₈ k hk
    · intro k fellBackToPublic hk
      show ((s.shares.modify n _)[k]?).bind Share.ticket = none
      rw [getElem?_modify_share]
      split
      · rw [Option.bind_map]
        exact h₉ k fellBackToPublic hk
      · exact h₉ k fellBackToPublic hk
    · intro k hk
      obtain ⟨ticket, hticket⟩ := h₁₀ k hk
      exact ⟨ticket, hserves k ticket hticket⟩

theorem sendItems_shows {paths : List String} (h : Shows s slot) :
    Shows { s with sends := s.sends ++ [⟨paths, .reserve⟩] } slot := by
  have honlySend : ∀ o, s.OnlySend o →
      State.OnlySend { s with sends := s.sends ++ [⟨paths, .reserve⟩] } o := by
    intro o ho i x hx hreserved
    rcases Nat.lt_or_ge i s.sends.length with hlt | hge
    · exact ho i x ((List.getElem?_append_left hlt).symm.trans hx) hreserved
    · change (s.sends ++ [_])[i]? = some x at hx
      rw [List.getElem?_append_right hge] at hx
      obtain rfl := List.mem_singleton.mp (List.mem_of_getElem? hx)
      exact absurd rfl hreserved.1
  cases h with
  | idle h₁ h₂ h₃ h₄ h₅ => exact .idle h₁ h₂ (honlySend _ h₃) h₄ h₅
  | closing j m h₁ h₂ h₃ h₄ h₅ h₆ => exact .closing j m h₁ h₂ h₃ (honlySend _ h₄) h₅ h₆
  | sharing m ticket h₁ h₂ h₃ h₄ h₅ h₆ =>
    exact .sharing m ticket h₁ h₂ h₃ (honlySend _ h₄) h₅ h₆
  | starting i x h₁ h₂ h₃ h₄ h₅ h₆ h₇ h₈ h₉ h₁₀ =>
    refine .starting i x h₁ h₂ ?_ h₄ (honlySend _ h₅) h₆ h₇ h₈ h₉ h₁₀
    have hlt := (List.getElem?_eq_some_iff.mp h₃).1
    exact (List.getElem?_append_left hlt).trans h₃

theorem stops_append {k : Nat} {phase : StopPhase}
    (h : (s.stops ++ [StopPhase.lock])[k]? = some phase) (hphase : phase ≠ .lock) :
    s.stops[k]? = some phase := by
  rcases Nat.lt_or_ge k s.stops.length with hlt | hge
  · exact (List.getElem?_append_left hlt).symm.trans h
  · rw [List.getElem?_append_right hge] at h
    exact absurd (List.mem_singleton.mp (List.mem_of_getElem? h)) hphase

theorem stops_append_iff (k n : Nat) :
    (s.stops ++ [StopPhase.lock])[k]? = some (.stopping n) ↔ s.stops[k]? = some (.stopping n) := by
  constructor
  · intro hk
    exact stops_append hk nofun
  · intro hk
    have hlt := (List.getElem?_eq_some_iff.mp hk).1
    exact (List.getElem?_append_left hlt).trans hk

theorem stopSharing_refines (h : Shows s slot) (hlocked : Locked s) :
    Refines { s with stops := s.stops ++ [.lock] } slot [] := by
  have hholds : ∀ {phase : StopPhase}, phase.Holds → phase ≠ .lock := by
    rintro phase (rfl | ⟨n, rfl⟩) <;> nofun
  refine .silent (h.frame rfl rfl rfl rfl stops_append_iff) ⟨?_, ?_⟩
  · intro k phase hk hphase
    exact hlocked.locked (stops_append hk (hholds hphase)) hphase
  · intro k k' phase phase' hk hk' hphase hphase'
    exact hlocked.one (stops_append hk (hholds hphase)) (stops_append hk' (hholds hphase')) hphase
      hphase'

theorem step_refines {a : Act} (h : Shows s slot) (hlocked : Locked s)
    (hstep : s.step a = some (s', out)) : Refines s' slot out := by
  cases a with
  | sendItems paths =>
    rw [State.step] at hstep
    split at hstep
    · obtain ⟨rfl, rfl⟩ := Prod.mk.inj (Option.some.inj hstep)
      refine ⟨slot, ?_, h, hlocked⟩
      cases slot <;> rfl
    · obtain ⟨rfl, rfl⟩ := Prod.mk.inj (Option.some.inj hstep)
      exact .silent (sendItems_shows h) (hlocked.frame rfl rfl)
  | send i p =>
    obtain ⟨x, hx, hsend⟩ := Option.bind_eq_some_iff.mp hstep
    exact send_refines h hlocked hx hsend
  | event n step =>
    rw [State.step] at hstep
    split at hstep
    · cases hstep
    · split at hstep
      · obtain ⟨rfl, rfl⟩ := Prod.mk.inj (Option.some.inj hstep)
        exact .silent (note_shows h) (hlocked.frame rfl rfl)
      · cases hstep
  | stopSharing =>
    obtain ⟨rfl, rfl⟩ := Prod.mk.inj (Option.some.inj hstep)
    exact stopSharing_refines h hlocked
  | stop j io =>
    obtain ⟨phase, hphase, hstop⟩ := Option.bind_eq_some_iff.mp hstep
    exact stop_refines h hlocked hphase hstop
  | getSharingStatus =>
    rw [State.step] at hstep
    split at hstep
    · cases hstep
    · rename_i hfree
      obtain ⟨rfl, rfl⟩ := Prod.mk.inj (Option.some.inj hstep)
      refine ⟨slot, ?_, h, hlocked⟩
      cases h with
      | closing j n h₁ h₂ h₃ => exact absurd (hlocked.locked h₃ (Or.inr ⟨n, rfl⟩)) hfree
      | idle h₁ h₂ | starting i x h₁ h₂ =>
        rw [h₂]
        rfl
      | sharing n ticket h₁ h₂ h₃ =>
        rw [h₂, Option.bind_some, serves_ticketOf h₃]
        show (if ticket = ticket then some (Slot.sharing ticket) else none).bind some = _
        rw [if_pos rfl]
        rfl
  | noteSharePeer io peer =>
    rw [State.step] at hstep
    split at hstep
    · cases hstep
    · split at hstep
      · obtain ⟨rfl, rfl⟩ := Prod.mk.inj (Option.some.inj hstep)
        exact .silent h hlocked
      · obtain ⟨rfl, rfl⟩ := Prod.mk.inj (Option.some.inj hstep)
        exact .silent (note_shows h) (hlocked.frame rfl rfl)
  | reconfigureNodeRelay =>
    obtain ⟨rfl, rfl⟩ := Prod.mk.inj (Option.some.inj hstep)
    exact .silent (h.frame rfl rfl rfl rfl fun _ _ => Iff.rfl) (hlocked.frame rfl rfl)
  | reconfigure k ok =>
    obtain ⟨phase, -, hreconfigure⟩ := Option.bind_eq_some_iff.mp hstep
    exact reconfigure_refines h hlocked hreconfigure
  | setNode node =>
    rw [State.step] at hstep
    split at hstep
    · cases hstep
    · obtain ⟨rfl, rfl⟩ := Prod.mk.inj (Option.some.inj hstep)
      exact .silent (h.frame rfl rfl rfl rfl fun _ _ => Iff.rfl) (hlocked.frame rfl rfl)

end Step

/-! ## Runs -/

theorem initial_shows (node : Bool) : Shows (initial node) .idle ∧ Locked (initial node) := by
  refine ⟨.idle rfl rfl nofun nofun nofun, nofun, nofun⟩

/-- The answers of a run are answers the cell can give, and the cell shows the state after it. -/
theorem run_shows {node : Bool} {tr : List (Entry State Act Out)} {s : State}
    (hrun : Run machine anyStep (initial node) tr s) :
    ∃ slot, Slot.run .idle (tr.flatMap Entry.out) = some slot ∧ Shows s slot ∧ Locked s := by
  apply hrun.invariant (I := fun tr s =>
    ∃ slot, Slot.run .idle (tr.flatMap Entry.out) = some slot ∧ Shows s slot ∧ Locked s)
  · exact ⟨.idle, rfl, initial_shows node⟩
  · rintro tr s s' a out ⟨slot, hslot, hshows, hlocked⟩ - hstep
    obtain ⟨slot', hnext, hshows', hlocked'⟩ := step_refines hshows hlocked hstep
    refine ⟨slot', ?_, hshows', hlocked'⟩
    rw [List.flatMap_append, List.flatMap_singleton, Slot.run, List.foldlM_append]
    rw [Slot.run] at hslot
    rw [hslot]
    exact hnext

def Slot.ticket : Slot → Option String
  | sharing ticket => some ticket
  | _ => none

/-- The commands together are one cell: in every run the answers are what the cell gives in that
order, so none of them finds the slot taken after its setup, and the state agrees with the cell. At
most one share is held, none when the cell is idle, and a share that closes has the state locked. -/
theorem slot_refines (node : Bool) (tr : List (Entry State Act Out)) (s : State)
    (hrun : Run machine anyStep (initial node) tr s) :
    ∃ slot, Slot.run .idle (tr.flatMap Entry.out) = some slot ∧
      s.currentShare.bind s.ticketOf = slot.ticket ∧
      (s.isShareStarting = true ↔ slot = .starting) ∧
      (∀ (n n' : Nat) (share share' : Share), s.shares[n]? = some share →
        s.shares[n']? = some share' → share.held = true → share'.held = true → n = n') ∧
      (slot = .idle → ∀ share ∈ s.shares, share.held = false) ∧
      (slot = .closing → s.locked = true) := by
  obtain ⟨slot, hslot, hshows, hlocked⟩ := run_shows hrun
  have hone : ∀ {o}, s.OnlyShare o → ∀ (n n' : Nat) (share share' : Share),
      s.shares[n]? = some share → s.shares[n']? = some share' → share.held = true →
      share'.held = true → n = n' := by
    intro o honly n n' share share' hshare hshare' hheld hheld'
    have hn := (honly n share hshare).mp hheld
    have hn' := (honly n' share' hshare').mp hheld'
    exact Option.some.inj (hn.symm.trans hn')
  refine ⟨slot, hslot, ?_⟩
  cases hshows with
  | idle h₁ h₂ h₃ h₄ h₅ =>
    refine ⟨by rw [h₂]; rfl, by simp [h₁], hone h₅, ?_, nofun⟩
    intro _ share hshare
    obtain ⟨n, hn⟩ := List.mem_iff_getElem?.mp hshare
    rw [← Bool.not_eq_true, h₅ n share hn]
    nofun
  | starting i x h₁ h₂ h₃ h₄ h₅ h₆ h₇ =>
    exact ⟨by rw [h₂]; rfl, by simp [h₁], hone h₇, nofun, nofun⟩
  | sharing n ticket h₁ h₂ h₃ h₄ h₅ h₆ =>
    refine ⟨?_, by simp [h₁], hone h₆, nofun, nofun⟩
    rw [h₂, Option.bind_some, serves_ticketOf h₃]
    rfl
  | closing j n h₁ h₂ h₃ h₄ h₅ h₆ =>
    exact ⟨by rw [h₂]; rfl, by simp [h₁], hone h₆, nofun,
      fun _ => hlocked.locked h₃ (Or.inr ⟨n, rfl⟩)⟩

/-- Two commands ask for the slot at once, the second is refused, and the share is stopped. -/
def twoSends : List Act :=
  [.sendItems ["a"], .sendItems ["b"], .send 0 .next, .send 1 .next, .send 0 .next,
    .send 0 (.resolved false true), .send 0 (.started "ticket" "hash" ⟨"id", 0, false⟩),
    .send 0 .next, .getSharingStatus, .stopSharing, .stop 0 ⟨"id", 1, false⟩,
    .stop 0 ⟨"id", 1, false⟩, .getSharingStatus]

theorem slot_refines_twoSends :
    ∃ tr s, Run machine anyStep (initial false) tr s ∧
      tr.flatMap Entry.out = [.reserved, .alreadySharing, .shared "ticket", .status (some "ticket"),
        .stopped (some "ticket"), .released, .status none] ∧
      ∃ slot, Slot.run .idle (tr.flatMap Entry.out) = some slot ∧
        s.currentShare.bind s.ticketOf = slot.ticket := by
  obtain ⟨tr, s, hrun, htest⟩ := Run.of_check machine anyStep (initial false) twoSends
    (fun tr _ => tr.flatMap Entry.out = [.reserved, .alreadySharing, .shared "ticket",
      .status (some "ticket"), .stopped (some "ticket"), .released, .status none])
    (by decide +kernel)
  obtain ⟨slot, hslot, hticket, -⟩ := slot_refines false tr s hrun
  exact ⟨tr, s, hrun, of_decide_eq_true htest, slot, hslot, hticket⟩

end DashBeam.Desktop.Sharing

import DashBeam.Frontend.Receiver

/-!
# The auto-accept queue

Invites of trusted paired devices skip the accept dialog: they wait in a queue until the receiver is
idle, and an effect of the hook `useAutoAcceptQueue` drains it. The effect runs after a render in which
the length of the queue, the busy flag or the registered `acceptPairedInvite` differs from its last run;
its body returns at once while a drain is running, and a drain ends without scheduling a render. So the
queue is served only if a change that makes it servable is never lost between the two
(`queue_served`).

The stores, the effect and the receiver that registers its handler run on one thread. A step of the
machine is one stretch of code between two awaits, or one render with the effects it runs. A render may
come any time after the change that asks for it.
-/

namespace DashBeam.Frontend.AutoAccept

open Lib
open Receiver (trim)

/-! ## `lib/auto-accept.ts` -/

def autoAcceptQueueLimit : Nat := 20

inductive PairingStatus
  | active | unpairedRemotely | staleLocalIdentity
  deriving DecidableEq, Repr

structure PairedDevice where
  endpointId : String
  displayName : Option String
  pairingStatus : Option PairingStatus
  trusted : Bool
  deriving DecidableEq, Repr

structure PairedInvitePayload where
  blobTicket : String
  fileCount : Nat
  totalSize : Nat
  senderName : String
  remoteEndpointId : String
  deriving DecidableEq, Repr

section

-- `String.prototype.toLowerCase`
variable (toLowerCase : String → String)

def findDevice (devices : List PairedDevice) (endpointId : String) : Option PairedDevice :=
  let id := toLowerCase (trim endpointId)
  if id = "" then none else devices.find? fun device => toLowerCase device.endpointId = id

def shouldAutoAccept (devices : List PairedDevice) (endpointId : String) : Bool :=
  match findDevice toLowerCase devices endpointId with
  | none => false
  | some device =>
    if device.pairingStatus.getD .active ≠ .active then false else device.trusted

/-- The folder name to file this sender's files under. -/
def subFolderFor (devices : List PairedDevice) (endpointId fallbackName : String) : String :=
  let stored := (findDevice toLowerCase devices endpointId).bind fun device => device.displayName.map trim
  match stored with
  | none => trim fallbackName
  | some name => if name = "" then trim fallbackName else name

/-- `isKnownPairedEndpoint` of `lib/pairing-api.ts`. -/
def isKnownPairedEndpoint (devices : List PairedDevice) (endpointId : String) : Bool :=
  devices.any fun device => toLowerCase device.endpointId = toLowerCase endpointId

end

/-- The queue itself when the ticket is already queued or the cap is reached. -/
def enqueueInvite (queue : List PairedInvitePayload) (invite : PairedInvitePayload) :
    List PairedInvitePayload :=
  if queue.any fun queued => queued.blobTicket = invite.blobTicket then queue
  else if autoAcceptQueueLimit ≤ queue.length then queue
  else queue ++ [invite]

/-! ## The stores and the effect -/

/-- An `acceptPairedInvite` of `useReceiver`: a new function whenever `useCallback` makes one, with the
`isSessionBusy` of the render that made it. -/
structure Handler where
  id : Nat
  isSessionBusy : Bool
  deriving DecidableEq, Repr

/-- The dependencies of the effect. -/
structure Deps where
  queued : Nat
  isBusy : Bool
  acceptPairedInvite : Option Handler
  deriving DecidableEq, Repr

structure State where
  /-- `useAutoAcceptQueueStore`. -/
  queue : List PairedInvitePayload
  /-- `usePairingDataStore`. -/
  devices : List PairedDevice
  /-- `useReceiverActionsStore`. -/
  isBusy : Bool
  acceptPairedInvite : Option Handler
  /-- How many handlers `useCallback` has made. -/
  handlers : Nat
  /-- The ref `draining`. -/
  draining : Bool
  /-- The drains that are running, each with the invite whose accept it awaits. -/
  drains : List PairedInvitePayload
  /-- The dependencies of the last run of the effect. -/
  seen : Option Deps
  deriving DecidableEq, Repr

def State.initial : State := ⟨[], [], false, none, 0, false, [], none⟩

def State.deps (s : State) : Deps := ⟨s.queue.length, s.isBusy, s.acceptPairedInvite⟩

inductive Out
  | enqueued (invite : PairedInvitePayload)
  | rejected (invite : PairedInvitePayload)
  /-- `PairedInviteDialog` shows the invite. -/
  | setInvite (invite : PairedInvitePayload)
  /-- The invite was taken from the queue, and its sender is not trusted any more. -/
  | dropped (invite : PairedInvitePayload)
  /-- The invite was taken from the queue and answered as accepted, to be filed under `subFolder`. -/
  | accepted (invite : PairedInvitePayload) (subFolder : String)
  /-- The receiver refused the invite because it is busy. -/
  | receiveBusy (invite : PairedInvitePayload)
  | receiveWithTicket (ticket : String) (subFolder : Option String)
  deriving DecidableEq, Repr

inductive Act
  /-- `DeviceNodeSync` routes an invite it received, the paired devices hydrated. -/
  | routeInvite (invite : PairedInvitePayload)
  | setDevices (devices : List PairedDevice)
  /-- A render of `useReceiver` is committed, and its effects register what it made; `fresh` says that
  another dependency of `acceptPairedInvite` changed. -/
  | commitReceiver (isSessionBusy fresh : Bool)
  | unmountReceiver
  /-- `DeviceNodeSync` renders with what the stores hold. -/
  | render
  /-- The second run of an effect under `StrictMode`. -/
  | rerunEffect
  /-- The accept that the drain awaits resolves or rejects. -/
  | settle (drain : Nat)
  deriving DecidableEq, Repr

/-- `acceptPairedInvite` of `useReceiver`, up to its first await. -/
def acceptPairedInvite (handler : Handler) (invite : PairedInvitePayload)
    (subFolder : Option String) : List Out :=
  if handler.isSessionBusy then [.receiveBusy invite]
  else [.receiveWithTicket invite.blobTicket subFolder]

section

variable (toLowerCase : String → String)

/-- The loop of a drain, to the next accept it awaits or to its end. -/
def drainLoop (s : State) : List PairedInvitePayload → State × List Out
  | [] => ({ s with queue := [], draining := false }, [])
  | invite :: rest =>
    if s.isBusy then ({ s with queue := invite :: rest, draining := false }, [])
    else
      match s.acceptPairedInvite with
      | none => ({ s with queue := invite :: rest, draining := false }, [])
      | some accept =>
        if !shouldAutoAccept toLowerCase s.devices invite.remoteEndpointId then
          let (s', out) := drainLoop s rest
          (s', .dropped invite :: out)
        else
          let subFolder :=
            subFolderFor toLowerCase s.devices invite.remoteEndpointId invite.senderName
          ({ s with queue := rest, drains := s.drains ++ [invite] },
            .accepted invite subFolder :: acceptPairedInvite accept invite (some subFolder))

/-- The body of the effect, with the dependencies of its render. -/
def runEffect (s : State) (deps : Deps) : State × List Out :=
  if deps.queued = 0 || deps.isBusy || deps.acceptPairedInvite.isNone then (s, [])
  else if s.draining then (s, [])
  else drainLoop toLowerCase { s with draining := true } s.queue

/-- Routing an invite of `paired-invite-received`; an unknown sender's is for the Nearby dialog. -/
def routeInvite (s : State) (invite : PairedInvitePayload) : State × List Out :=
  if !isKnownPairedEndpoint toLowerCase s.devices invite.remoteEndpointId then (s, [])
  else if shouldAutoAccept toLowerCase s.devices invite.remoteEndpointId then
    let next := enqueueInvite s.queue invite
    if next = s.queue then (s, [.rejected invite]) else ({ s with queue := next }, [.enqueued invite])
  else (s, [.setInvite invite])

/-- The handler after a render of `useReceiver`, and how many there are. -/
def useCallback (s : State) (isSessionBusy fresh : Bool) : Handler × Nat :=
  match s.acceptPairedInvite with
  | some handler =>
    if handler.isSessionBusy = isSessionBusy ∧ fresh = false then (handler, s.handlers)
    else (⟨s.handlers, isSessionBusy⟩, s.handlers + 1)
  | none => (⟨s.handlers, isSessionBusy⟩, s.handlers + 1)

def step (s : State) : Act → Option (State × List Out)
  | .routeInvite invite => some (routeInvite toLowerCase s invite)
  | .setDevices devices => some ({ s with devices := devices }, [])
  | .commitReceiver isSessionBusy fresh =>
    let (handler, handlers) := useCallback s isSessionBusy fresh
    some ({ s with
      acceptPairedInvite := some handler, handlers := handlers, isBusy := isSessionBusy }, [])
  | .unmountReceiver => some ({ s with acceptPairedInvite := none }, [])
  | .render =>
    if s.seen = some s.deps then some (s, [])
    else some (runEffect toLowerCase { s with seen := some s.deps } s.deps)
  | .rerunEffect => s.seen.map fun deps => runEffect toLowerCase s deps
  | .settle drain =>
    if drain < s.drains.length then
      some (drainLoop toLowerCase { s with drains := s.drains.eraseIdx drain } s.queue)
    else none

def machine : Machine State Act Out := ⟨step toLowerCase⟩

end

/-! ## What holds of every run -/

abbrev Step := Entry State Act Out

/-- The invite that an output says was put in the queue. -/
def enqueuedOf : Out → Option PairedInvitePayload
  | .enqueued invite => some invite
  | _ => none

/-- The invite that an output says was taken from the queue. -/
def takenOf : Out → Option PairedInvitePayload
  | .dropped invite | .accepted invite _ => some invite
  | _ => none

/-- The invites that were put in the queue, in their order. -/
def enqueued (tr : List Step) : List PairedInvitePayload := tr.flatMap fun e => e.out.filterMap enqueuedOf

/-- The invites that the drains took from the queue, in their order. -/
def taken (tr : List Step) : List PairedInvitePayload := tr.flatMap fun e => e.out.filterMap takenOf

/-- An invite is answered as accepted only for a device that is trusted and actively paired at that
moment and while the receiver is idle, and it is received at once, into the folder of its sender. -/
def Answers (toLowerCase : String → String) (e : Step) : Prop :=
  (∀ invite subFolder, .accepted invite subFolder ∈ e.out →
    shouldAutoAccept toLowerCase e.pre.devices invite.remoteEndpointId = true ∧ e.pre.isBusy = false ∧
      subFolder = subFolderFor toLowerCase e.pre.devices invite.remoteEndpointId invite.senderName ∧
      .receiveWithTicket invite.blobTicket (some subFolder) ∈ e.out) ∧
    ∀ invite, .receiveBusy invite ∉ e.out

/-- Every invite in the queue leaves it once, in its turn, to one drain. -/
structure Orderly (toLowerCase : String → String) (tr : List Step) (s : State) : Prop where
  once : enqueued tr = taken tr ++ s.queue
  tickets : (s.queue.map (·.blobTicket)).Nodup
  room : s.queue.length ≤ autoAcceptQueueLimit
  alone : s.drains.length = if s.draining then 1 else 0
  answers : ∀ e ∈ tr, Answers toLowerCase e

/-- An invite is routed only after a render that saw the queue as it is, or into a running drain. -/
def Rendered (s : State) (a : Act) : Prop :=
  match a with
  | .routeInvite _ => s.draining = true ∨ ∀ deps ∈ s.seen, deps.queued = s.queue.length
  | _ => True

instance (s : State) (a : Act) : Decidable (Rendered s a) := by
  unfold Rendered
  split
  all_goals infer_instance

/-! ## What the loop does -/

section

variable {toLowerCase : String → String} {s s' : State} {queue : List PairedInvitePayload}
  {out : List Out}

/-- Where the loop of a drain ends: it dropped the invites of senders that are not trusted any more,
and stopped or awaits the accept of the next one. -/
inductive Drained (toLowerCase : String → String) (s : State) (queue : List PairedInvitePayload)
    (s' : State) (out : List Out) : Prop
  | stops (gone left : List PairedInvitePayload) (hqueue : queue = gone ++ left)
      (hreason : left = [] ∨ s.isBusy = true ∨ s.acceptPairedInvite = none)
      (hstate : s' = { s with queue := left, draining := false }) (hout : out = gone.map .dropped)
  | accepts (gone left : List PairedInvitePayload) (invite : PairedInvitePayload) (accept : Handler)
      (subFolder : String) (hqueue : queue = gone ++ invite :: left) (hidle : s.isBusy = false)
      (haccept : s.acceptPairedInvite = some accept)
      (htrusted : shouldAutoAccept toLowerCase s.devices invite.remoteEndpointId = true)
      (hfolder : subFolder =
        subFolderFor toLowerCase s.devices invite.remoteEndpointId invite.senderName)
      (hstate : s' = { s with queue := left, drains := s.drains ++ [invite] })
      (hout : out = gone.map .dropped ++
        .accepted invite subFolder :: acceptPairedInvite accept invite (some subFolder))

theorem Drained.cons {invite : PairedInvitePayload} (hnext : Drained toLowerCase s queue s' out) :
    Drained toLowerCase s (invite :: queue) s' (.dropped invite :: out) := by
  cases hnext with
  | stops gone left hqueue hreason hstate hout =>
    refine .stops (invite :: gone) left ?_ hreason hstate ?_
    · rw [hqueue, List.cons_append]
    · rw [hout, List.map_cons]
  | accepts gone left next accept subFolder hqueue hidle haccept htrusted hfolder hstate hout =>
    refine .accepts (invite :: gone) left next accept subFolder ?_ hidle haccept htrusted hfolder
      hstate ?_
    · rw [hqueue, List.cons_append]
    · rw [hout, List.map_cons, List.cons_append]

theorem drainLoop_spec (toLowerCase : String → String) (s : State)
    (queue : List PairedInvitePayload) :
    Drained toLowerCase s queue (drainLoop toLowerCase s queue).1
      (drainLoop toLowerCase s queue).2 := by
  induction queue with
  | nil => exact .stops [] [] rfl (.inl rfl) rfl rfl
  | cons invite rest ih =>
    rw [drainLoop]
    split
    · rename_i hbusy
      exact .stops [] _ rfl (.inr (.inl hbusy)) rfl rfl
    · rename_i hidle
      rw [Bool.not_eq_true] at hidle
      split
      · rename_i hnone
        exact .stops [] _ rfl (.inr (.inr hnone)) rfl rfl
      · rename_i accept haccept
        split
        · exact ih.cons
        · rename_i htrusted
          have htrusted' : shouldAutoAccept toLowerCase s.devices invite.remoteEndpointId = true := by
            simpa using htrusted
          exact .accepts [] rest invite accept _ rfl hidle haccept htrusted' rfl rfl rfl

theorem Drained.progress (hdrained : Drained toLowerCase s queue s' out) (hqueue : queue ≠ [])
    (hidle : s.isBusy = false) (haccept : s.acceptPairedInvite.isSome = true) :
    s'.queue.length < queue.length := by
  cases hdrained with
  | stops gone left heq hreason hstate hout =>
    have hleft : left = [] := by
      rcases hreason with hleft | hbusy | hnone
      · exact hleft
      · rw [hidle] at hbusy
        cases hbusy
      · rw [hnone] at haccept
        cases haccept
    rw [hstate]
    show left.length < queue.length
    rw [hleft]
    exact List.length_pos_iff.mpr hqueue
  | accepts gone left invite accept subFolder heq _ _ _ _ hstate hout =>
    rw [hstate, heq, List.length_append, List.length_cons]
    show left.length < gone.length + (left.length + 1)
    omega

/-! ## One step -/

theorem runEffect_spec (toLowerCase : String → String) (s : State) (deps : Deps) :
    (runEffect toLowerCase s deps = (s, []) ∧ (s.draining = true ∨ deps.queued = 0 ∨
        deps.isBusy = true ∨ deps.acceptPairedInvite = none)) ∨
      (s.draining = false ∧ Drained toLowerCase { s with draining := true } s.queue
        (runEffect toLowerCase s deps).1 (runEffect toLowerCase s deps).2) := by
  unfold runEffect
  split
  · rename_i hreturns
    refine .inl ⟨rfl, .inr ?_⟩
    simpa [or_assoc] using hreturns
  · split
    · rename_i hrunning
      exact .inl ⟨rfl, .inl hrunning⟩
    · rename_i hfree
      refine .inr ⟨by simpa using hfree, ?_⟩
      exact drainLoop_spec toLowerCase { s with draining := true } s.queue

theorem enqueued_snoc (tr : List Step) (e : Step) :
    enqueued (tr ++ [e]) = enqueued tr ++ e.out.filterMap enqueuedOf := by
  simp [enqueued]

theorem taken_snoc (tr : List Step) (e : Step) :
    taken (tr ++ [e]) = taken tr ++ e.out.filterMap takenOf := by
  simp [taken]

theorem filterMap_dropped (gone : List PairedInvitePayload) :
    (gone.map Out.dropped).filterMap takenOf = gone ∧
      (gone.map Out.dropped).filterMap enqueuedOf = [] := by
  constructor
  · rw [List.filterMap_map]
    exact List.filterMap_some
  · rw [List.filterMap_eq_nil_iff]
    intro o ho
    obtain ⟨invite, -, rfl⟩ := List.mem_map.mp ho
    rfl

theorem filterMap_acceptPairedInvite (accept : Handler) (invite : PairedInvitePayload)
    (subFolder : Option String) :
    (acceptPairedInvite accept invite subFolder).filterMap takenOf = [] ∧
      (acceptPairedInvite accept invite subFolder).filterMap enqueuedOf = [] := by
  unfold acceptPairedInvite
  split
  · exact ⟨rfl, rfl⟩
  · exact ⟨rfl, rfl⟩

theorem Drained.takes (hdrained : Drained toLowerCase s queue s' out) :
    queue = out.filterMap takenOf ++ s'.queue ∧ out.filterMap enqueuedOf = [] := by
  cases hdrained with
  | stops gone left heq _ hstate hout =>
    obtain ⟨htaken, hnone⟩ := filterMap_dropped gone
    rw [hstate, hout, htaken]
    exact ⟨heq, hnone⟩
  | accepts gone left invite accept subFolder heq _ _ _ _ hstate hout =>
    obtain ⟨htaken, hnone⟩ := filterMap_dropped gone
    obtain ⟨htaken', hnone'⟩ := filterMap_acceptPairedInvite accept invite (some subFolder)
    rw [hstate, hout, List.filterMap_append, List.filterMap_append, htaken, hnone,
      List.filterMap_cons, List.filterMap_cons]
    simp only [takenOf, enqueuedOf, htaken', hnone']
    exact ⟨by simp [heq], rfl⟩

theorem Drained.frame (hdrained : Drained toLowerCase s queue s' out) :
    s'.devices = s.devices ∧ s'.isBusy = s.isBusy ∧ s'.acceptPairedInvite = s.acceptPairedInvite ∧
      s'.handlers = s.handlers ∧ s'.seen = s.seen := by
  cases hdrained with
  | stops _ _ _ _ hstate _ =>
    subst hstate
    exact ⟨rfl, rfl, rfl, rfl, rfl⟩
  | accepts _ _ _ _ _ _ _ _ _ _ hstate _ =>
    subst hstate
    exact ⟨rfl, rfl, rfl, rfl, rfl⟩

theorem Drained.alone (hdrained : Drained toLowerCase s queue s' out) (hrunning : s.draining = true)
    (hothers : s.drains = []) : s'.drains.length = if s'.draining then 1 else 0 := by
  cases hdrained with
  | stops _ _ _ _ hstate _ =>
    subst hstate
    exact congrArg List.length hothers
  | accepts _ _ _ _ _ _ _ _ _ _ hstate _ =>
    subst hstate
    show (s.drains ++ _).length = if s.draining then 1 else 0
    rw [hothers, hrunning]
    rfl

theorem Drained.ends (hdrained : Drained toLowerCase s queue s' out) (hrunning : s.draining = true)
    (hends : s'.draining = false) :
    s'.queue = [] ∨ s'.isBusy = true ∨ s'.acceptPairedInvite = none := by
  cases hdrained with
  | stops _ _ _ hreason hstate _ =>
    subst hstate
    exact hreason
  | accepts _ _ _ _ _ _ _ _ _ _ hstate _ =>
    subst hstate
    exact absurd (hrunning.symm.trans hends) nofun

theorem Drained.answers (hdrained : Drained toLowerCase s queue s' out)
    (hhandler : ∀ handler, s.acceptPairedInvite = some handler → handler.isSessionBusy = s.isBusy)
    {a : Act} {pre : State} (hdevices : pre.devices = s.devices) (hbusy : pre.isBusy = s.isBusy) :
    Answers toLowerCase ⟨pre, a, s', out⟩ := by
  cases hdrained with
  | stops gone left heq _ hstate hout =>
    subst hout
    refine ⟨fun invite subFolder hmem => ?_, fun invite hmem => ?_⟩
    · obtain ⟨_, -, heq⟩ := List.mem_map.mp hmem
      cases heq
    · obtain ⟨_, -, heq⟩ := List.mem_map.mp hmem
      cases heq
  | accepts gone left next accept folder heq hidle haccept htrusted hfolder hstate hout =>
    subst hout
    have hcall : acceptPairedInvite accept next (some folder) =
        [.receiveWithTicket next.blobTicket (some folder)] := by
      rw [acceptPairedInvite, hhandler accept haccept, hidle]
      rfl
    rw [hcall]
    refine ⟨fun invite subFolder hmem => ?_, fun invite hmem => ?_⟩
    · rcases List.mem_append.mp hmem with hgone | hnow
      · obtain ⟨_, -, heq⟩ := List.mem_map.mp hgone
        cases heq
      · rcases List.mem_cons.mp hnow with hsame | hother
        · cases hsame
          refine ⟨hdevices ▸ htrusted, hbusy.trans hidle, hdevices ▸ hfolder, ?_⟩
          exact List.mem_append_right _ (List.mem_cons_of_mem _ List.mem_cons_self)
        · cases List.mem_singleton.mp hother
    · rcases List.mem_append.mp hmem with hgone | hnow
      · obtain ⟨_, -, heq⟩ := List.mem_map.mp hgone
        cases heq
      · rcases List.mem_cons.mp hnow with hsame | hother
        · cases hsame
        · cases List.mem_singleton.mp hother

/-! ## The queue over whole runs -/

variable {tr : List Step} {a : Act} {t : State}

/-- What the order of the queue needs of the handlers: a registered one is of the last render. -/
structure Registered (s : State) : Prop where
  current : ∀ handler, s.acceptPairedInvite = some handler →
    handler.isSessionBusy = s.isBusy ∧ handler.id < s.handlers
  seen : ∀ deps ∈ s.seen, ∀ handler ∈ deps.acceptPairedInvite, handler.id < s.handlers

theorem Orderly.quiet (h : Orderly toLowerCase tr s) (hqueue : s'.queue = s.queue)
    (hdrains : s'.drains = s.drains) (hdraining : s'.draining = s.draining)
    (hout : out = [] ∨ ∃ invite, out = [.rejected invite] ∨ out = [.setInvite invite]) :
    Orderly toLowerCase (tr ++ [⟨s, a, s', out⟩]) s' := by
  have hsilent : out.filterMap enqueuedOf = [] ∧ out.filterMap takenOf = [] ∧
      (∀ invite subFolder, .accepted invite subFolder ∉ out) ∧
      ∀ invite, .receiveBusy invite ∉ out := by
    rcases hout with rfl | ⟨invite, rfl | rfl⟩
    · exact ⟨rfl, rfl, by simp, by simp⟩
    · exact ⟨rfl, rfl, by simp, by simp⟩
    · exact ⟨rfl, rfl, by simp, by simp⟩
  obtain ⟨henqueued, htaken, haccepted, hbusy⟩ := hsilent
  refine ⟨?_, hqueue ▸ h.tickets, hqueue ▸ h.room, ?_, ?_⟩
  · rw [enqueued_snoc, taken_snoc, henqueued, htaken, List.append_nil, List.append_nil, hqueue]
    exact h.once
  · rw [hdrains, hdraining]
    exact h.alone
  · intro e he
    rcases List.mem_append.mp he with he | he
    · exact h.answers e he
    · rw [List.mem_singleton] at he
      subst he
      exact ⟨fun invite subFolder hmem => absurd hmem (haccepted invite subFolder), hbusy⟩

theorem Orderly.drained (h : Orderly toLowerCase tr s) (hregistered : Registered s)
    (hdrained : Drained toLowerCase t s.queue s' out) (hrunning : t.draining = true)
    (hothers : t.drains = []) (hdevices : t.devices = s.devices) (hbusy : t.isBusy = s.isBusy)
    (haccept : t.acceptPairedInvite = s.acceptPairedInvite) :
    Orderly toLowerCase (tr ++ [⟨s, a, s', out⟩]) s' := by
  obtain ⟨htakes, hnone⟩ := hdrained.takes
  have hqueue : s'.queue <:+ s.queue := ⟨_, htakes.symm⟩
  refine ⟨?_, ?_, ?_, hdrained.alone hrunning hothers, ?_⟩
  · rw [enqueued_snoc, taken_snoc, hnone, List.append_nil, List.append_assoc, ← htakes]
    exact h.once
  · exact h.tickets.sublist (hqueue.sublist.map _)
  · exact le_trans hqueue.length_le h.room
  · intro e he
    rcases List.mem_append.mp he with he | he
    · exact h.answers e he
    · rw [List.mem_singleton] at he
      subst he
      refine hdrained.answers (fun handler hsome => ?_) hdevices.symm hbusy.symm
      rw [hbusy]
      exact (hregistered.current handler (haccept ▸ hsome)).1

theorem Orderly.effect (h : Orderly toLowerCase tr s) (hregistered : Registered s) (deps : Deps)
    (seen : Option Deps) :
    Orderly toLowerCase (tr ++ [⟨s, a, (runEffect toLowerCase { s with seen := seen } deps).1,
      (runEffect toLowerCase { s with seen := seen } deps).2⟩])
      (runEffect toLowerCase { s with seen := seen } deps).1 := by
  rcases runEffect_spec toLowerCase { s with seen := seen } deps with
    ⟨hreturns, -⟩ | ⟨hfree, hdrained⟩
  · rw [hreturns]
    exact h.quiet rfl rfl rfl (.inl rfl)
  · have hothers : s.drains = [] := by
      apply List.eq_nil_of_length_eq_zero
      rw [h.alone, show s.draining = false from hfree]
      rfl
    exact h.drained hregistered hdrained rfl hothers rfl rfl rfl

theorem orderly_step (h : Orderly toLowerCase tr s) (hregistered : Registered s)
    (hstep : step toLowerCase s a = some (s', out)) :
    Orderly toLowerCase (tr ++ [⟨s, a, s', out⟩]) s' := by
  cases a with
  | routeInvite invite =>
    obtain hstep : routeInvite toLowerCase s invite = (s', out) := Option.some.inj hstep
    unfold routeInvite at hstep
    split at hstep
    · cases hstep
      exact h.quiet rfl rfl rfl (.inl rfl)
    · split at hstep
      · dsimp only at hstep
        split at hstep
        · cases hstep
          exact h.quiet rfl rfl rfl (.inr ⟨invite, .inl rfl⟩)
        · rename_i hchanged
          cases hstep
          -- the queue that changed has one invite more
          unfold enqueueInvite at hchanged ⊢
          split
          · rename_i hqueued
            exact absurd (if_pos hqueued) hchanged
          · rename_i hnew
            split
            · rename_i hfull
              rw [if_neg hnew, if_pos hfull] at hchanged
              exact absurd rfl hchanged
            · rename_i hroom
              refine ⟨?_, ?_, ?_, h.alone, ?_⟩
              · rw [enqueued_snoc, taken_snoc, h.once]
                simp [enqueuedOf, takenOf]
              · rw [List.map_append, List.map_singleton, List.nodup_append]
                refine ⟨h.tickets, List.nodup_singleton _, ?_⟩
                intro ticket hticket other hother heq
                rw [List.mem_singleton] at hother
                obtain ⟨queued, hqueued, hsame⟩ := List.mem_map.mp hticket
                apply hnew
                rw [List.any_eq_true]
                exact ⟨queued, hqueued, decide_eq_true (hsame.trans (heq.trans hother))⟩
              · rw [List.length_append, List.length_singleton]
                omega
              · intro e he
                rcases List.mem_append.mp he with he | he
                · exact h.answers e he
                · rw [List.mem_singleton] at he
                  subst he
                  exact ⟨by simp, by simp⟩
      · cases hstep
        exact h.quiet rfl rfl rfl (.inr ⟨invite, .inr rfl⟩)
  | setDevices devices =>
    cases hstep
    exact h.quiet rfl rfl rfl (.inl rfl)
  | commitReceiver isSessionBusy fresh =>
    cases hstep
    exact h.quiet rfl rfl rfl (.inl rfl)
  | unmountReceiver =>
    cases hstep
    exact h.quiet rfl rfl rfl (.inl rfl)
  | render =>
    rw [step] at hstep
    split at hstep
    · cases hstep
      exact h.quiet rfl rfl rfl (.inl rfl)
    · have heffect := h.effect (a := .render) hregistered s.deps (some s.deps)
      rw [Option.some.inj hstep] at heffect
      exact heffect
  | rerunEffect =>
    obtain ⟨deps, hdeps, heq⟩ := Option.map_eq_some_iff.mp hstep
    have heffect := h.effect (a := .rerunEffect) hregistered deps s.seen
    rw [show ({ s with seen := s.seen } : State) = s from rfl, heq] at heffect
    exact heffect
  | settle drain =>
    rw [step] at hstep
    split at hstep
    · rename_i hdrain
      obtain heq := Option.some.inj hstep
      have hdrained := drainLoop_spec toLowerCase
        { s with drains := s.drains.eraseIdx drain } s.queue
      rw [heq] at hdrained
      have halone := h.alone
      have hrunning : s.draining = true := by
        by_contra hfree
        rw [if_neg hfree] at halone
        omega
      rw [if_pos hrunning] at halone
      have hothers : s.drains.eraseIdx drain = [] := by
        apply List.eq_nil_of_length_eq_zero
        rw [List.length_eraseIdx, if_pos hdrain]
        omega
      exact h.drained hregistered hdrained hrunning hothers rfl rfl rfl
    · cases hstep

theorem registered_of_frame (hregistered : Registered s)
    (hframe : s'.isBusy = s.isBusy ∧ s'.acceptPairedInvite = s.acceptPairedInvite ∧
      s'.handlers = s.handlers) (hseen : s'.seen = s.seen ∨ s'.seen = some s.deps) : Registered s' := by
  obtain ⟨hbusy, haccept, hhandlers⟩ := hframe
  constructor
  · rw [hbusy, haccept, hhandlers]
    exact hregistered.current
  · rw [hhandlers]
    rcases hseen with hseen | hseen
    · rw [hseen]
      exact hregistered.seen
    · rw [hseen]
      intro deps hdeps handler hhandler
      obtain rfl := Option.some.inj hdeps
      exact (hregistered.current handler hhandler).2

theorem runEffect_frame (toLowerCase : String → String) (s : State) (deps : Deps) :
    (runEffect toLowerCase s deps).1.isBusy = s.isBusy ∧
      (runEffect toLowerCase s deps).1.acceptPairedInvite = s.acceptPairedInvite ∧
      (runEffect toLowerCase s deps).1.handlers = s.handlers ∧
      (runEffect toLowerCase s deps).1.seen = s.seen := by
  rcases runEffect_spec toLowerCase s deps with ⟨hreturns, -⟩ | ⟨-, hdrained⟩
  · rw [hreturns]
    exact ⟨rfl, rfl, rfl, rfl⟩
  · obtain ⟨-, hbusy, haccept, hhandlers, hseen⟩ := hdrained.frame
    exact ⟨hbusy, haccept, hhandlers, hseen⟩

/-- `useCallback` keeps a handler or makes one that nobody has seen. -/
theorem useCallback_spec (s : State) (isSessionBusy fresh : Bool) :
    (∃ handler, s.acceptPairedInvite = some handler ∧ handler.isSessionBusy = isSessionBusy ∧
        useCallback s isSessionBusy fresh = (handler, s.handlers)) ∨
      useCallback s isSessionBusy fresh = (⟨s.handlers, isSessionBusy⟩, s.handlers + 1) := by
  unfold useCallback
  split
  · rename_i handler hhandler
    split
    · rename_i hsame
      exact .inl ⟨handler, hhandler, hsame.1, rfl⟩
    · exact .inr rfl
  · exact .inr rfl

theorem registered_step (hregistered : Registered s)
    (hstep : step toLowerCase s a = some (s', out)) : Registered s' := by
  cases a with
  | routeInvite invite =>
    obtain hstep : routeInvite toLowerCase s invite = (s', out) := Option.some.inj hstep
    have hframe : s'.isBusy = s.isBusy ∧ s'.acceptPairedInvite = s.acceptPairedInvite ∧
        s'.handlers = s.handlers ∧ s'.seen = s.seen := by
      obtain rfl : (routeInvite toLowerCase s invite).1 = s' := congrArg Prod.fst hstep
      unfold routeInvite
      split
      · exact ⟨rfl, rfl, rfl, rfl⟩
      · split
        · dsimp only
          split
          · exact ⟨rfl, rfl, rfl, rfl⟩
          · exact ⟨rfl, rfl, rfl, rfl⟩
        · exact ⟨rfl, rfl, rfl, rfl⟩
    obtain ⟨hbusy, haccept, hhandlers, hseen⟩ := hframe
    exact registered_of_frame hregistered ⟨hbusy, haccept, hhandlers⟩ (.inl hseen)
  | setDevices devices =>
    cases hstep
    exact registered_of_frame hregistered ⟨rfl, rfl, rfl⟩ (.inl rfl)
  | commitReceiver isSessionBusy fresh =>
    rw [step] at hstep
    rcases useCallback_spec s isSessionBusy fresh with ⟨handler, hhandler, hbusy, heq⟩ | heq
    · rw [heq] at hstep
      cases hstep
      refine ⟨fun current hcurrent => ?_, hregistered.seen⟩
      obtain rfl := Option.some.inj hcurrent
      exact ⟨hbusy, (hregistered.current handler hhandler).2⟩
    · rw [heq] at hstep
      cases hstep
      refine ⟨fun current hcurrent => ?_, fun deps hdeps handler hhandler => ?_⟩
      · obtain rfl := Option.some.inj hcurrent
        exact ⟨rfl, Nat.lt_succ_self _⟩
      · exact Nat.lt_succ_of_lt (hregistered.seen deps hdeps handler hhandler)
  | unmountReceiver =>
    cases hstep
    exact ⟨nofun, hregistered.seen⟩
  | render =>
    rw [step] at hstep
    split at hstep
    · cases hstep
      exact hregistered
    · obtain ⟨hbusy, haccept, hhandlers, hseen⟩ :=
        runEffect_frame toLowerCase { s with seen := some s.deps } s.deps
      rw [Option.some.inj hstep] at hbusy haccept hhandlers hseen
      exact registered_of_frame hregistered ⟨hbusy, haccept, hhandlers⟩ (.inr hseen)
  | rerunEffect =>
    obtain ⟨deps, hdeps, heq⟩ := Option.map_eq_some_iff.mp hstep
    obtain ⟨hbusy, haccept, hhandlers, hseen⟩ := runEffect_frame toLowerCase s deps
    rw [heq] at hbusy haccept hhandlers hseen
    exact registered_of_frame hregistered ⟨hbusy, haccept, hhandlers⟩ (.inl hseen)
  | settle drain =>
    rw [step] at hstep
    split at hstep
    · obtain ⟨-, hbusy, haccept, hhandlers, hseen⟩ := (drainLoop_spec toLowerCase
        { s with drains := s.drains.eraseIdx drain } s.queue).frame
      rw [Option.some.inj hstep] at hbusy haccept hhandlers hseen
      exact registered_of_frame hregistered ⟨hbusy, haccept, hhandlers⟩ (.inl hseen)
    · cases hstep

/-! ## The wake-up -/

def Nothing (s : State) : Prop := s.queue = [] ∨ s.isBusy = true ∨ s.acceptPairedInvite = none

/-- Where no drain runs and the effect saw everything as it is, there is nothing to do. -/
def Awake (s : State) : Prop := s.draining = false → s.seen = some s.deps → Nothing s

theorem awake_effect (toLowerCase : String → String) (s : State) :
    (runEffect toLowerCase s s.deps).1.draining = false → Nothing (runEffect toLowerCase s s.deps).1 := by
  intro hfree
  rcases runEffect_spec toLowerCase s s.deps with ⟨hreturns, hreason⟩ | ⟨-, hdrained⟩
  · rw [hreturns] at hfree ⊢
    rcases hreason with hrunning | hempty | hbusy | hnone
    · exact absurd (hrunning.symm.trans hfree) nofun
    · exact .inl (List.eq_nil_of_length_eq_zero hempty)
    · exact .inr (.inl hbusy)
    · exact .inr (.inr hnone)
  · exact hdrained.ends rfl hfree

theorem awake_step (horder : Orderly toLowerCase tr s) (hregistered : Registered s) (hawake : Awake s)
    (hok : Rendered s a) (hstep : step toLowerCase s a = some (s', out)) : Awake s' := by
  intro hfree hseen
  cases a with
  | routeInvite invite =>
    obtain hstep : routeInvite toLowerCase s invite = (s', out) := Option.some.inj hstep
    unfold routeInvite at hstep
    split at hstep
    · cases hstep
      exact hawake hfree hseen
    · split at hstep
      · dsimp only at hstep
        split at hstep
        · cases hstep
          exact hawake hfree hseen
        · rename_i hchanged
          cases hstep
          rcases hok with hrunning | hrendered
          · exact absurd (hrunning.symm.trans hfree) nofun
          · -- the effect saw the shorter queue
            have hlength : s.queue.length = (enqueueInvite s.queue invite).length :=
              (hrendered _ hseen).symm
            unfold enqueueInvite at hlength hchanged
            split at hlength
            · rename_i hqueued
              rw [if_pos hqueued] at hchanged
              exact absurd rfl hchanged
            · rename_i hnew
              split at hlength
              · rename_i hfull
                rw [if_neg hnew, if_pos hfull] at hchanged
                exact absurd rfl hchanged
              · rw [List.length_append, List.length_singleton] at hlength
                omega
      · cases hstep
        exact hawake hfree hseen
  | setDevices devices =>
    cases hstep
    exact hawake hfree hseen
  | commitReceiver isSessionBusy fresh =>
    rw [step] at hstep
    rcases useCallback_spec s isSessionBusy fresh with ⟨handler, hhandler, hbusy, heq⟩ | heq
    · rw [heq] at hstep
      cases hstep
      have hsame : isSessionBusy = s.isBusy :=
        hbusy.symm.trans (hregistered.current handler hhandler).1
      subst hsame
      rw [← hhandler] at hseen ⊢
      exact hawake hfree hseen
    · -- nobody has seen the new handler
      rw [heq] at hstep
      cases hstep
      have hlt := hregistered.seen _ hseen ⟨s.handlers, isSessionBusy⟩ rfl
      exact absurd hlt (lt_irrefl s.handlers)
  | unmountReceiver =>
    cases hstep
    exact .inr (.inr rfl)
  | render =>
    rw [step] at hstep
    split at hstep
    · cases hstep
      exact hawake hfree hseen
    · have hnow := awake_effect toLowerCase { s with seen := some s.deps }
      rw [show ({ s with seen := some s.deps } : State).deps = s.deps from rfl,
        Option.some.inj hstep] at hnow
      exact hnow hfree
  | rerunEffect =>
    obtain ⟨deps, hdeps, heq⟩ := Option.map_eq_some_iff.mp hstep
    rcases runEffect_spec toLowerCase s deps with ⟨hreturns, -⟩ | ⟨-, hdrained⟩
    · rw [heq] at hreturns
      cases hreturns
      exact hawake hfree hseen
    · rw [heq] at hdrained
      exact hdrained.ends rfl hfree
  | settle drain =>
    rw [step] at hstep
    split at hstep
    · rename_i hdrain
      have hdrained := drainLoop_spec toLowerCase
        { s with drains := s.drains.eraseIdx drain } s.queue
      rw [Option.some.inj hstep] at hdrained
      refine hdrained.ends ?_ hfree
      show s.draining = true
      have halone := horder.alone
      by_contra hidle
      rw [if_neg hidle] at halone
      omega
    · cases hstep

theorem orderly_run {ok : State → Act → Prop}
    (hrun : Run (machine toLowerCase) ok State.initial tr s) :
    Orderly toLowerCase tr s ∧ Registered s := by
  refine hrun.invariant (I := fun tr s => Orderly toLowerCase tr s ∧ Registered s) ?_ ?_
  · refine ⟨⟨rfl, List.nodup_nil, Nat.zero_le _, rfl, fun e he => by cases he⟩, nofun, nofun⟩
  · intro tr s s' a out hboth _ hstep
    exact ⟨orderly_step hboth.1 hboth.2 hstep, registered_step hboth.2 hstep⟩

theorem awake_run (hrun : Run (machine toLowerCase) Rendered State.initial tr s) : Awake s := by
  refine hrun.invariant_of_run (I := fun _ s => Awake s) (fun _ _ => .inl rfl) ?_
  intro tr s s' a out hprev hawake hok hstep
  obtain ⟨horder, hregistered⟩ := orderly_run hprev
  exact awake_step horder hregistered hawake hok hstep

end

/-- In every run (invites, trust changes, busy changes, renders and settling accepts in any order), the
invites leave the queue in the order they came, each one once; the queue holds distinct tickets, at most
twenty; at most one drain runs; and every invite that is answered as accepted is of a trusted device and
is received at once by an idle receiver. -/
theorem queue_orderly (toLowerCase : String → String) (tr : List Step) (s : State)
    (hrun : Run (machine toLowerCase) anyStep State.initial tr s) : Orderly toLowerCase tr s :=
  (orderly_run hrun).1

/-- `String.prototype.toLowerCase` on ASCII. -/
def asciiLower (s : String) : String := String.ofList (s.toList.map Char.toLower)

def phone : PairedDevice := ⟨"AB", some " Phone ", some .active, true⟩

def inviteOf (ticket : String) : PairedInvitePayload := ⟨ticket, 1, 10, "phone", "ab"⟩

/-- The phone sends twice; the second invite waits until the first transfer is over. -/
def sendsTwice : List Act :=
  [.setDevices [phone], .commitReceiver false false, .routeInvite (inviteOf "first"), .render,
    .routeInvite (inviteOf "second"), .commitReceiver true false, .render, .settle 0,
    .commitReceiver false false]

/-- The theorem applies to a run with an invite that is accepted and one that waits. -/
theorem queue_orderly_sendsTwice :
    ∃ tr s, Run (machine asciiLower) anyStep State.initial tr s ∧ taken tr = [inviteOf "first"] ∧
      s.queue = [inviteOf "second"] ∧ Orderly asciiLower tr s := by
  obtain ⟨tr, s, hrun, htest⟩ := Run.of_check (machine asciiLower) anyStep State.initial sendsTwice
    (fun tr s => decide (taken tr = [inviteOf "first"] ∧ s.queue = [inviteOf "second"]))
    (by decide +kernel)
  obtain ⟨htaken, hqueue⟩ := of_decide_eq_true htest
  exact ⟨tr, s, hrun, htaken, hqueue, queue_orderly asciiLower tr s hrun⟩

/-- In every run in which an invite is routed after a render that saw the queue, the next render serves
a queue that an idle receiver can serve: a drain is running already, or the effect is due and takes an
invite. -/
theorem queue_served (toLowerCase : String → String) (tr : List Step) (s : State)
    (hrun : Run (machine toLowerCase) Rendered State.initial tr s) (hqueue : s.queue ≠ [])
    (hidle : s.isBusy = false) (hregistered : s.acceptPairedInvite.isSome = true) :
    s.draining = true ∨ ∃ s' out, step toLowerCase s .render = some (s', out) ∧
      s'.queue.length < s.queue.length := by
  by_cases hrunning : s.draining = true
  · exact .inl hrunning
  · rw [Bool.not_eq_true] at hrunning
    have hdue : s.seen ≠ some s.deps := by
      intro hseen
      rcases awake_run hrun hrunning hseen with hempty | hbusy | hnone
      · exact hqueue hempty
      · exact absurd (hidle.symm.trans hbusy) nofun
      · rw [hnone] at hregistered
        cases hregistered
    refine .inr ⟨_, _, if_neg hdue, ?_⟩
    rcases runEffect_spec toLowerCase { s with seen := some s.deps } s.deps with
      ⟨-, hrun | hempty | hbusy | hnone⟩ | ⟨-, hdrained⟩
    · exact absurd (hrun.symm.trans hrunning) nofun
    · exact absurd (List.eq_nil_of_length_eq_zero hempty) hqueue
    · exact absurd (hidle.symm.trans hbusy) nofun
    · rw [show s.acceptPairedInvite = none from hnone] at hregistered
      cases hregistered
    · exact hdrained.progress hqueue hidle hregistered

/-- The theorem applies after the first transfer, when no drain runs. -/
theorem queue_served_sendsTwice :
    ∃ tr s, Run (machine asciiLower) Rendered State.initial tr s ∧ s.draining = false ∧
      (s.draining = true ∨ ∃ s' out, step asciiLower s .render = some (s', out) ∧
        s'.queue.length < s.queue.length) := by
  obtain ⟨tr, s, hrun, htest⟩ := Run.of_check (machine asciiLower) Rendered State.initial sendsTwice
    (fun _ s => decide (s.queue ≠ [] ∧ s.isBusy = false ∧ s.acceptPairedInvite.isSome = true ∧
      s.draining = false)) (by decide +kernel)
  obtain ⟨hqueue, hidle, hregistered, hfree⟩ := of_decide_eq_true htest
  exact ⟨tr, s, hrun, hfree, queue_served asciiLower tr s hrun hqueue hidle hregistered⟩

/-- The queue is emptied and filled again between two renders: the effect is not due, and the invite
waits for another change. -/
theorem wakeup_lost_unrendered :
    ∃ tr s, Run (machine asciiLower) anyStep State.initial tr s ∧ s.queue ≠ [] ∧ s.isBusy = false ∧
      s.acceptPairedInvite.isSome = true ∧ s.draining = false ∧
      step asciiLower s .render = some (s, []) := by
  obtain ⟨tr, s, hrun, htest⟩ := Run.of_check (machine asciiLower) anyStep State.initial
    [.setDevices [phone], .commitReceiver false false, .routeInvite (inviteOf "first"),
      .setDevices [{ phone with trusted := false }], .render, .setDevices [phone],
      .routeInvite (inviteOf "second")]
    (fun _ s => decide (s.queue ≠ [] ∧ s.isBusy = false ∧ s.acceptPairedInvite.isSome = true ∧
      s.draining = false ∧ step asciiLower s .render = some (s, []))) (by decide +kernel)
  exact ⟨tr, s, hrun, of_decide_eq_true htest⟩

end DashBeam.Frontend.AutoAccept

import DashBeam.Lib.Machine
import DashBeam.Protocol.Progress

/-!
# The progress task of a share session

`show_provide_progress_with_logging` of `engine/protocol/src/send.rs`. One tokio task reads the
provider's messages and drives a future for every get request; the futures share the session's
ledger and two counters and are switched only where they await. A step of the machine is what runs
between two awaits: taking a message, taking an update of a request, or going on after a lock or the
500 ms sleep. What depends on the clock (whether a progress event is due, whether a request came in
less than half a second ago) is part of the action.

Keys are iroh's: a connection id and a request id, given to one request at a time.
-/

namespace DashBeam.Share

open Lib

/-! ## Data -/

inductive RequestUpdate where
  | started (index size : Nat)
  | progress (endOffset : Nat)
  | completed
  | aborted
deriving DecidableEq, Repr

/-- What the progress task shows through the event emitter. -/
inductive ShareEvent where
  | sharePeerConnected
  | activeConnectionCount (count : Nat)
  | transferStarted
  | transferProgress (snapshot : ProgressSnapshot)
  | transferCompleted (snapshot : ProgressSnapshot)
  | transferFailed
deriving DecidableEq, Repr

inductive Stage where
  /-- for the next update -/
  | receiving
  /-- for the session lock, to record an offset -/
  | reporting (endOffset : Nat)
  /-- for the debounce to pass -/
  | sleeping (activeBeforeWait : Nat)
  /-- for the session lock, the counters being read again -/
  | waited (idle : Bool)
  /-- for the lock of the last request's time, the ledger being read again -/
  | looked (idle : Bool)
  /-- for the session lock, to show that the transfer completed -/
  | emitting
deriving DecidableEq, Repr

structure RequestTask where
  isSizesProbeRequest : Bool
  transferStarted : Bool
  requestCompleted : Bool
  streamEnded : Bool
  stage : Stage
deriving DecidableEq, Repr

/-- What the futures of a session share. -/
structure Shared where
  totalCollectionSize : Nat
  ledger : ShareProgress
  activeRequests : Nat
  completedRequests : Nat
  hasEmittedStarted : Bool
  hasEmittedCompleted : Bool

structure Session where
  shared : Shared
  tasks : Map RequestKey RequestTask
  channelOpen : Bool
  finished : Bool

def Session.new (totalCollectionSize : Nat) : Session where
  shared := ⟨totalCollectionSize, .new totalCollectionSize, 0, 0, false, false⟩
  tasks := ∅
  channelOpen := true
  finished := false

def transferPayloadComplete (bytesSent totalSize : Nat) : Bool :=
  if totalSize = 0 then true
  else decide (saturatingMul totalSize 95 ≤ saturatingMul bytesSent 100)

/-! ## One request -/

def RequestTask.new (isSizesProbeRequest : Bool) : RequestTask :=
  ⟨isSizesProbeRequest, false, false, false, .receiving⟩

namespace Shared

/-- Whether the request has nearly all bytes sent. -/
def credited (sh : Shared) (key : RequestKey) : Bool :=
  transferPayloadComplete (sh.ledger.requestBytes key) sh.totalCollectionSize

def retire (sh : Shared) (key : RequestKey) : Shared :=
  { sh with ledger := (sh.ledger.retire key (sh.credited key)).1 }

/-- The first sign of a request: its connection is counted and the session starts once. -/
def announce (sh : Shared) : Shared × List ShareEvent :=
  ({ sh with hasEmittedStarted := true },
    .activeConnectionCount sh.ledger.activeRequests
      :: if sh.hasEmittedStarted then [] else [.transferStarted])

def record (sh : Shared) (key : RequestKey) (endOffset : Nat) (due : Bool) :
    Shared × List ShareEvent :=
  let sh := { sh with ledger := sh.ledger.blobProgress key endOffset }
  (sh, if due then [.transferProgress sh.ledger.snapshot] else [])

/-- A retired request leaves the counters: a short one is no request any more, another one is a
completed one and may be the last. -/
def settle (sh : Shared) (credited : Bool) : Shared × Stage :=
  if credited then
    let completed := sh.completedRequests + 1
    ({ sh with completedRequests := completed },
      if sh.activeRequests ≤ completed ∧ 1 ≤ completed then .sleeping sh.activeRequests
      else .receiving)
  else ({ sh with activeRequests := sh.activeRequests - 1 }, .receiving)

end Shared

namespace RequestTask

/-- `while let Ok(Some(update)) = rx.recv().await`: one turn of the loop. -/
def update (t : RequestTask) (sh : Shared) (key : RequestKey) (due : Bool) :
    RequestUpdate → Shared × RequestTask × List ShareEvent
  | .started index size =>
    let sh := { sh with ledger := sh.ledger.blobStarted key index size }
    if t.transferStarted then (sh, t, [])
    else
      let (sh, out) := sh.announce
      (sh, { t with transferStarted := true }, out)
  | .progress endOffset =>
    if t.transferStarted then
      let (sh, out) := sh.record key endOffset due
      (sh, t, out)
    else
      let (sh, out) := { sh with ledger := sh.ledger.ensureRequest key }.announce
      (sh, { t with transferStarted := true, stage := .reporting endOffset }, out)
  | .completed =>
    if t.transferStarted && !t.requestCompleted then
      let credited := sh.credited key
      let sh := sh.retire key
      let out := [.transferProgress sh.ledger.snapshot,
        .activeConnectionCount sh.ledger.activeRequests]
      let (sh, stage) := sh.settle credited
      (sh, { t with requestCompleted := true, stage := stage }, out)
    else (sh, t, [])
  | .aborted =>
    if t.transferStarted && !t.requestCompleted then
      let sh := sh.retire key
      let completed := sh.completedRequests + 1
      ({ sh with completedRequests := completed }, { t with requestCompleted := true },
        .activeConnectionCount sh.ledger.activeRequests
          :: if sh.activeRequests ≤ completed then [.transferFailed] else [])
    else (sh, t, [])

/-- The update stream is over: the future ends, unless it waits for the debounce first. -/
def streamEnd (t : RequestTask) (sh : Shared) (key : RequestKey) : Shared × Option RequestTask :=
  if t.transferStarted && !t.requestCompleted then
    let credited := sh.credited key
    let (sh, stage) := (sh.retire key).settle credited
    (sh, if stage = .receiving then none else some { t with streamEnded := true, stage := stage })
  else (sh, none)

/-- Back to the updates, or the end of the future. -/
def resume (t : RequestTask) : Option RequestTask :=
  if t.streamEnded then none else some { t with stage := .receiving }

/-- Going on after a lock or the sleep. -/
def wake (t : RequestTask) (sh : Shared) (key : RequestKey) (due lastRequestRecent : Bool) :
    Option (Shared × Option RequestTask × List ShareEvent) :=
  match t.stage with
  | .receiving => none
  | .reporting endOffset =>
    let (sh, out) := sh.record key endOffset due
    some (sh, t.resume, out)
  | .sleeping activeBeforeWait =>
    let idle := decide (sh.activeRequests ≤ sh.completedRequests ∧ 1 ≤ sh.completedRequests
      ∧ ¬ activeBeforeWait < sh.activeRequests)
    some (sh, some { t with stage := .waited idle }, [])
  | .waited idle =>
    some (sh, some { t with stage := .looked (idle && decide (sh.ledger.activeRequests = 0)) }, [])
  | .looked idle =>
    if idle && !lastRequestRecent && !sh.hasEmittedCompleted then
      some ({ sh with hasEmittedCompleted := true }, some { t with stage := .emitting }, [])
    else some (sh, t.resume, [])
  | .emitting => some (sh, t.resume, [.transferCompleted sh.ledger.snapshot])

end RequestTask

/-! ## The session -/

inductive Action where
  /-- `ProviderMessage::ClientConnectedNotify` with an endpoint id -/
  | clientConnected
  /-- `ProviderMessage::GetRequestReceivedNotify` -/
  | getRequestReceived (key : RequestKey) (isSizesProbeRequest : Bool)
  | update (key : RequestKey) (update : RequestUpdate) (due : Bool)
  | streamEnd (key : RequestKey)
  | wake (key : RequestKey) (due lastRequestRecent : Bool)
  /-- the provider drops its end of the message channel -/
  | channelClosed
  /-- every future has ended: the check after the loop -/
  | finish
deriving DecidableEq, Repr

namespace Session

/-- A future that went on, or ended. -/
def putTask (s : Session) (key : RequestKey) (sh : Shared) : Option RequestTask → Session
  | some t => { s with shared := sh, tasks := s.tasks.insert key t }
  | none => { s with shared := sh, tasks := s.tasks.erase key }

def received (s : Session) (key : RequestKey) (isSizesProbeRequest : Bool) : Session where
  shared :=
    if isSizesProbeRequest then s.shared
    else { s.shared with activeRequests := s.shared.activeRequests + 1 }
  tasks := s.tasks.insert key (.new isSizesProbeRequest)
  channelOpen := s.channelOpen
  finished := s.finished

/-- The check after the last future ended. -/
def conclude (s : Session) : Session × List ShareEvent :=
  if s.shared.activeRequests ≤ s.shared.completedRequests ∧ 1 ≤ s.shared.completedRequests
      ∧ s.shared.hasEmittedCompleted = false then
    ({ s with shared := { s.shared with hasEmittedCompleted := true }, finished := true },
      [.transferCompleted s.shared.ledger.snapshot])
  else ({ s with finished := true }, [])

def step (s : Session) : Action → Option (Session × List ShareEvent)
  | .clientConnected => if s.channelOpen then some (s, [.sharePeerConnected]) else none
  | .getRequestReceived key isSizesProbeRequest =>
    if s.channelOpen ∧ (s.tasks.lookup key).isNone then
      some (s.received key isSizesProbeRequest, [])
    else none
  | .update key update due =>
    match s.tasks.lookup key with
    | none => none
    | some t =>
      if t.stage = .receiving then
        if t.isSizesProbeRequest then some (s, [])
        else
          let (sh, t, out) := t.update s.shared key due update
          some (s.putTask key sh (some t), out)
      else none
  | .streamEnd key =>
    match s.tasks.lookup key with
    | none => none
    | some t =>
      if t.stage = .receiving then
        if t.isSizesProbeRequest then some (s.putTask key s.shared none, [])
        else
          let (sh, t) := t.streamEnd s.shared key
          some (s.putTask key sh t, [])
      else none
  | .wake key due lastRequestRecent =>
    match s.tasks.lookup key with
    | none => none
    | some t =>
      (t.wake s.shared key due lastRequestRecent).map fun r => (s.putTask key r.1 r.2.1, r.2.2)
  | .channelClosed => if s.channelOpen then some ({ s with channelOpen := false }, []) else none
  | .finish =>
    if ¬ s.channelOpen ∧ s.tasks.entries = [] ∧ ¬ s.finished then some s.conclude else none

end Session

/-- The progress task of a share. -/
def machine : Machine Session Action ShareEvent := ⟨Session.step⟩

end DashBeam.Share

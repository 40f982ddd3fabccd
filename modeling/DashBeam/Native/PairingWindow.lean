import DashBeam.Lib.Machine
import DashBeam.Lib.Past

/-!
# Timers of pairing windows

`start_pairing_host` and `stop_pairing_host` of `engine/native/src/pairing_host.rs` in any
interleaving with each other and with the expiry tasks, each running from one await to the next. A
start takes the expiry task that is stored and aborts it, opens the window, spawns an expiry task and
stores its handle. Time is in seconds, and an expiry task begins to sleep when it is first run.

Two starts that overlap can take the stored task before either stores its own, and then a handle is
overwritten or stored after the newer window was opened, and its task closes that window. As long as a
start takes the stored task only when no other start is under way, a task that may still run is stored
or about to be, and none is left when a window is opened (`Tidy`).
-/

namespace DashBeam.Native

open Lib

/-! ## The code -/

inductive HostCall
  | start (ttlSecs : Option Nat)
  | stop
  deriving DecidableEq, Repr

/-- How far a call has come. -/
inductive CallStage
  /-- Is about to take the expiry task. -/
  | taking
  /-- Has cleared the flags, and is about to close the window in the access state. -/
  | closing
  /-- A start has set the flags, and is about to open the window in the access state. -/
  | opening
  /-- A start is about to store the handle of the expiry task it spawned. -/
  | storing (task : Nat)
  | finished
  deriving DecidableEq, Repr

structure HostCalling where
  call : HostCall
  stage : CallStage
  deriving DecidableEq, Repr

/-- How far an expiry task has come. -/
inductive ExpiryStage
  | spawned
  | sleeping (deadline : Nat)
  /-- Has cleared the flags, and is about to close the window in the access state. -/
  | clearing
  | finished
  | aborted
  deriving DecidableEq, Repr

/-- An expiry task, with the call that spawned it. -/
structure ExpiryTask where
  call : Nat
  ttl : Nat
  stage : ExpiryStage
  deriving DecidableEq, Repr

/-- What `NodeService` keeps of the pairing window, the calls, and the expiry tasks spawned so far. -/
structure PairingHost where
  now : Nat
  pairingHostPersistent : Bool
  pairingHostOpen : Bool
  /-- `access.pairing_host_open` -/
  accessOpen : Bool
  pairingExpireTask : Option Nat
  tasks : List ExpiryTask
  calls : List HostCalling
  deriving DecidableEq, Repr

def PairingHost.new : PairingHost := ⟨0, false, false, false, none, [], []⟩

inductive PairingAct
  | call (call : HostCall)
  /-- A call runs to its next await. -/
  | advance (i : Nat)
  /-- An expiry task runs to its next await. -/
  | expiry (q : Nat)
  | tick (seconds : Nat)
  deriving DecidableEq, Repr

inductive PairingEvent
  | pairingHostExpired
  deriving DecidableEq, Repr

/-- `JoinHandle::abort`, without effect on a task that has finished. -/
def ExpiryTask.abort (task : ExpiryTask) : ExpiryTask :=
  if task.stage = .finished then task else { task with stage := .aborted }

/-- `if let Some(handle) = … .take() { handle.abort(); }` -/
def abortTaken (tasks : List ExpiryTask) : Option Nat → List ExpiryTask
  | none => tasks
  | some q => tasks.modify q ExpiryTask.abort

namespace PairingHost

def setStage (s : PairingHost) (i : Nat) (stage : CallStage) : PairingHost :=
  { s with calls := s.calls.modify i fun calling => { calling with stage := stage } }

def setTask (s : PairingHost) (q : Nat) (stage : ExpiryStage) : PairingHost :=
  { s with tasks := s.tasks.modify q fun task => { task with stage := stage } }

/-- A call of `start_pairing_host` or `stop_pairing_host` up to its next await; a start begins with
`stop_pairing_host`. -/
def advance (s : PairingHost) (i : Nat) : Option PairingHost :=
  match s.calls[i]? with
  | none => none
  | some ⟨call, stage⟩ =>
    match stage, call with
    | .taking, _ =>
      some { s.setStage i .closing with
        pairingExpireTask := none
        tasks := abortTaken s.tasks s.pairingExpireTask
        pairingHostPersistent := false
        pairingHostOpen := false }
    | .closing, .stop => some { s.setStage i .finished with accessOpen := false }
    | .closing, .start ttlSecs =>
      some { s.setStage i .opening with
        accessOpen := false
        pairingHostPersistent := ttlSecs.isNone
        pairingHostOpen := true }
    | .opening, .start none => some { s.setStage i .finished with accessOpen := true }
    | .opening, .start (some ttl) =>
      some { s.setStage i (.storing s.tasks.length) with
        accessOpen := true
        tasks := s.tasks ++ [⟨i, ttl, .spawned⟩] }
    | .storing q, .start _ => some { s.setStage i .finished with pairingExpireTask := some q }
    | _, _ => none

/-- An expiry task up to its next await. -/
def runExpiry (s : PairingHost) (q : Nat) : Option (PairingHost × List PairingEvent) :=
  match s.tasks[q]? with
  | none => none
  | some task =>
    match task.stage with
    | .spawned => some (s.setTask q (.sleeping (s.now + task.ttl)), [])
    | .sleeping deadline =>
      if deadline ≤ s.now then
        some ({ s.setTask q .clearing with
          pairingHostOpen := false
          pairingHostPersistent := false }, [])
      else none
    | .clearing => some ({ s.setTask q .finished with accessOpen := false }, [.pairingHostExpired])
    | .finished | .aborted => none

end PairingHost

def pairingMachine : Machine PairingHost PairingAct PairingEvent where
  step s
    | .call call => some ({ s with calls := s.calls ++ [⟨call, .taking⟩] }, [])
    | .advance i => (s.advance i).map fun s => (s, [])
    | .expiry q => s.runExpiry q
    | .tick seconds => some ({ s with now := s.now + seconds }, [])

abbrev PairingEntry : Type := Entry PairingHost PairingAct PairingEvent

/-! ## The property -/

/-- The start that opens a window in this step. -/
def opens (s : PairingHost) : PairingAct → Option Nat
  | .advance i =>
    match s.calls[i]? with
    | some ⟨.start _, .closing⟩ => some i
    | _ => none
  | _ => none

/-- The window of the call is the last that was opened, at a time that satisfies `p`. -/
def LastWindow (call : Nat) (p : Nat → Prop) (past : List PairingEntry) : Prop :=
  Since (fun y => opens y.pre y.act = some call ∧ p y.pre.now)
    (fun y => (opens y.pre y.act).isSome = true) past

/-- An expiry task that closes a window was spawned for the last one that was opened, and the time to
live of that one has passed since. -/
def ExpiresOwn (past : List PairingEntry) (x : PairingEntry) : Prop :=
  ∀ q task, x.act = .expiry q → x.pre.tasks[q]? = some task → task.stage ≠ .spawned →
    (∃ stage, x.pre.calls[task.call]? = some ⟨.start (some task.ttl), stage⟩) ∧
    LastWindow task.call (fun opened => opened + task.ttl ≤ x.pre.now) past

/-- The call has taken the expiry task and has not returned. -/
def CallStage.underway : CallStage → Bool
  | .closing | .opening | .storing _ => true
  | .taking | .finished => false

/-- A start takes the stored expiry task while another start is under way. -/
def overlaps (s : PairingHost) : PairingAct → Bool
  | .advance i =>
    match s.calls[i]? with
    | some ⟨.start _, .taking⟩ =>
      s.calls.any fun calling => decide (calling.call ≠ .stop) && calling.stage.underway
    | _ => false
  | _ => false

def Serial (s : PairingHost) (act : PairingAct) : Prop := overlaps s act = false

instance (s : PairingHost) (act : PairingAct) : Decidable (Serial s act) :=
  inferInstanceAs (Decidable (overlaps s act = false))

/-! ## The invariant -/

def ExpiryStage.alive : ExpiryStage → Bool
  | .spawned | .sleeping _ | .clearing => true
  | .finished | .aborted => false

/-- A window opened at the time is due when its task says so. -/
def ExpiryTask.Due (task : ExpiryTask) (now opened : Nat) : Prop :=
  match task.stage with
  | .spawned => opened ≤ now
  | .sleeping deadline => opened + task.ttl ≤ deadline
  | _ => opened + task.ttl ≤ now

theorem ExpiryTask.Due.mono {task : ExpiryTask} {now now' opened : Nat}
    (h : task.Due now opened) (hnow : now ≤ now') : task.Due now' opened := by
  rw [ExpiryTask.Due] at h ⊢
  split at h <;> omega

/-- The call is a start at the stage. -/
def StartAt (s : PairingHost) (i : Nat) (ttl : Option Nat) (stage : CallStage) : Prop :=
  s.calls[i]? = some ⟨.start ttl, stage⟩

def Running (s : PairingHost) (q : Nat) (task : ExpiryTask) : Prop :=
  s.tasks[q]? = some task ∧ task.stage.alive = true

/-- One start is under way at a time; a task that may still run is stored, or about to be by the start
under way, which else found none; and it belongs to the last window. -/
structure Tidy (past : List PairingEntry) (s : PairingHost) : Prop where
  alone : ∀ i j ttl ttl' stage stage', StartAt s i ttl stage → StartAt s j ttl' stage' →
    stage.underway = true → stage'.underway = true → i = j
  held : ∀ q task, Running s q task →
    s.pairingExpireTask = some q ∨ ∃ i ttl, StartAt s i ttl (.storing q)
  only : ∀ i ttl stage, StartAt s i ttl stage → stage.underway = true →
    ∀ q task, Running s q task → stage = .storing q
  opened : ∀ i ttl, StartAt s i ttl .opening → LastWindow i (· ≤ s.now) past
  own : ∀ q task, Running s q task → (∃ stage, StartAt s task.call (some task.ttl) stage) ∧
    LastWindow task.call (task.Due s.now) past

theorem tidy_new : Tidy [] PairingHost.new := by
  constructor <;> simp [PairingHost.new, StartAt, Running]

/-! ## Steps -/

section Step

variable {past : List PairingEntry} {x : PairingEntry} {s s' : PairingHost} {i q : Nat}

theorem LastWindow.keep {call : Nat} {p p' : Nat → Prop} (h : LastWindow call p past)
    (hx : opens x.pre x.act = none) (hp : ∀ t, p t → p' t) : LastWindow call p' (past ++ [x]) := by
  have hsnoc : LastWindow call p (past ++ [x]) := Since.snoc_keep h (by simp [hx])
  obtain ⟨before, y, after, heq, ⟨hopens, ht⟩, hafter⟩ := hsnoc
  exact ⟨before, y, after, heq, ⟨hopens, hp _ ht⟩, hafter⟩

theorem Running.of_tasks_eq {task : ExpiryTask} (h : Running s' q task)
    (htasks : s'.tasks = s.tasks) : Running s q task := by
  obtain ⟨hget, halive⟩ := h
  rw [htasks] at hget
  exact ⟨hget, halive⟩

theorem running_kept (hnow : s.now ≤ s'.now)
    (hrunning : ∀ q task, Running s' q task → Running s q task) (q : Nat) (task : ExpiryTask)
    (hq : Running s' q task) : ∃ old, Running s q old ∧ task.call = old.call ∧
      task.ttl = old.ttl ∧ ∀ opened, old.Due s.now opened → task.Due s'.now opened :=
  ⟨task, hrunning q task hq, rfl, rfl, fun _ hdue => hdue.mono hnow⟩

/-- A step that opens no window, puts no start under way and makes no task run again. -/
theorem Tidy.quiet (h : Tidy past s) (hx : opens x.pre x.act = none) (hnow : s.now ≤ s'.now)
    (hcalls : ∀ j ttl stage, StartAt s' j ttl stage → stage.underway = true →
      StartAt s j ttl stage)
    (hkept : ∀ j ttl stage, StartAt s j ttl stage → ∃ stage', StartAt s' j ttl stage')
    (htasks : ∀ q task, Running s' q task → ∃ old, Running s q old ∧ task.call = old.call ∧
      task.ttl = old.ttl ∧ ∀ opened, old.Due s.now opened → task.Due s'.now opened)
    (hheld : ∀ q task, Running s' q task →
      s'.pairingExpireTask = some q ∨ ∃ i ttl, StartAt s' i ttl (.storing q)) :
    Tidy (past ++ [x]) s' := by
  refine ⟨?_, hheld, ?_, ?_, ?_⟩
  · intro i j ttl ttl' stage stage' hi hj hstage hstage'
    exact h.alone i j ttl ttl' stage stage' (hcalls i ttl stage hi hstage)
      (hcalls j ttl' stage' hj hstage') hstage hstage'
  · intro i ttl stage hi hstage q task hq
    obtain ⟨old, hold, -⟩ := htasks q task hq
    exact h.only i ttl stage (hcalls i ttl stage hi hstage) hstage q old hold
  · intro i ttl hi
    exact (h.opened i ttl (hcalls i ttl _ hi rfl)).keep hx fun t ht => ht.trans hnow
  · intro q task hq
    obtain ⟨old, hold, hcall, httl, hdue⟩ := htasks q task hq
    obtain ⟨⟨stage, hstage⟩, hlast⟩ := h.own q old hold
    rw [hcall, httl]
    exact ⟨hkept _ _ _ hstage, hlast.keep hx hdue⟩

/-- One call moved to a stage. -/
def Moved (s : PairingHost) (i : Nat) (stage : CallStage) (s' : PairingHost) : Prop :=
  s'.calls = (s.setStage i stage).calls

section Moved

variable {stage stage' : CallStage} {j : Nat} {ttl : Option Nat}

theorem Moved.startAt_self (h : Moved s i stage s') :
    StartAt s' i ttl stage' ↔ stage' = stage ∧ ∃ old, StartAt s i ttl old := by
  rw [StartAt, h, PairingHost.setStage, List.getElem?_modify_eq]
  constructor
  · intro hget
    obtain ⟨⟨call, old⟩, hold, heq⟩ := Option.map_eq_some_iff.mp hget
    cases heq
    exact ⟨rfl, old, hold⟩
  · rintro ⟨rfl, old, hold⟩
    rw [hold]
    rfl

theorem Moved.startAt_other (h : Moved s i stage s') (hij : i ≠ j) :
    StartAt s' j ttl stage' ↔ StartAt s j ttl stage' := by
  rw [StartAt, h, PairingHost.setStage, List.getElem?_modify_ne _ _ hij]
  rfl

theorem Moved.startAt_underway (h : Moved s i stage s') (hstage : stage.underway = false)
    (hj : StartAt s' j ttl stage') (hunderway : stage'.underway = true) : StartAt s j ttl stage' := by
  by_cases hij : i = j
  · subst hij
    rw [(h.startAt_self.mp hj).1, hstage] at hunderway
    cases hunderway
  · exact (h.startAt_other hij).mp hj

theorem Moved.startAt_kept (h : Moved s i stage s') (hj : StartAt s j ttl stage') :
    ∃ later, StartAt s' j ttl later := by
  by_cases hij : i = j
  · subst hij
    exact ⟨stage, h.startAt_self.mpr ⟨rfl, stage', hj⟩⟩
  · exact ⟨stage', (h.startAt_other hij).mpr hj⟩

end Moved

/-- After the stored task was taken and aborted, a task that runs ran before and was not stored. -/
theorem running_taken {task : ExpiryTask}
    (htasks : s'.tasks = abortTaken s.tasks s.pairingExpireTask) (h : Running s' q task) :
    Running s q task ∧ s.pairingExpireTask ≠ some q := by
  obtain ⟨hget, halive⟩ := h
  rw [htasks] at hget
  cases hslot : s.pairingExpireTask with
  | none =>
    rw [hslot] at hget
    exact ⟨⟨hget, halive⟩, fun heq => nomatch heq⟩
  | some taken =>
    rw [hslot, abortTaken] at hget
    by_cases htaken : taken = q
    · subst htaken
      rw [List.getElem?_modify_eq] at hget
      obtain ⟨old, -, rfl⟩ := Option.map_eq_some_iff.mp hget
      rw [ExpiryTask.abort] at halive
      split at halive
      · rename_i hfinished
        rw [hfinished] at halive
        cases halive
      · cases halive
    · rw [List.getElem?_modify_ne _ _ htaken] at hget
      exact ⟨⟨hget, halive⟩, fun heq => htaken (Option.some.inj heq)⟩

theorem Tidy.takes_stop (h : Tidy past s) (hx : opens x.pre x.act = none) (hnow : s'.now = s.now)
    (hi : s.calls[i]? = some ⟨.stop, .taking⟩) (hmoved : Moved s i .closing s')
    (htasks : s'.tasks = abortTaken s.tasks s.pairingExpireTask) : Tidy (past ++ [x]) s' := by
  have hnot : ∀ ttl stage, ¬ StartAt s i ttl stage := by
    intro ttl stage hstart
    rw [StartAt, hi] at hstart
    cases hstart
  have hother : ∀ {j ttl stage}, StartAt s' j ttl stage ↔ StartAt s j ttl stage := by
    intro j ttl stage
    by_cases hij : i = j
    · subst hij
      refine iff_of_false (fun hj => ?_) (hnot ttl stage)
      obtain ⟨-, old, hold⟩ := hmoved.startAt_self.mp hj
      exact hnot ttl old hold
    · exact hmoved.startAt_other hij
  refine h.quiet hx hnow.ge (fun j ttl stage hj _ => hother.mp hj)
    (fun j ttl stage hj => ⟨stage, hother.mpr hj⟩)
    (running_kept hnow.ge fun q task hq => (running_taken htasks hq).1) fun q task hq => ?_
  obtain ⟨hold, hslot⟩ := running_taken htasks hq
  obtain ⟨j, ttl, hj⟩ := (h.held q task hold).resolve_left hslot
  exact Or.inr ⟨j, ttl, hother.mpr hj⟩

theorem Tidy.takes_start (h : Tidy past s)
    (hidle : ∀ j ttl stage, StartAt s j ttl stage → stage.underway = false)
    (hmoved : Moved s i .closing s')
    (htasks : s'.tasks = abortTaken s.tasks s.pairingExpireTask) : Tidy (past ++ [x]) s' := by
  have hnone : ∀ q task, ¬ Running s' q task := by
    intro q task hq
    obtain ⟨hold, hslot⟩ := running_taken htasks hq
    obtain ⟨j, ttl, hj⟩ := (h.held q task hold).resolve_left hslot
    cases hidle j ttl _ hj
  have hself : ∀ {j ttl stage}, StartAt s' j ttl stage → stage.underway = true →
      i = j ∧ stage = .closing := by
    intro j ttl stage hj hunderway
    by_cases hij : i = j
    · subst hij
      exact ⟨rfl, (hmoved.startAt_self.mp hj).1⟩
    · rw [hidle j ttl stage ((hmoved.startAt_other hij).mp hj)] at hunderway
      cases hunderway
  refine ⟨?_, ?_, ?_, ?_, ?_⟩
  · intro j k ttl ttl' stage stage' hj hk hstage hstage'
    exact (hself hj hstage).1.symm.trans (hself hk hstage').1
  · exact fun q task hq => absurd hq (hnone q task)
  · exact fun j ttl stage _ _ q task hq => absurd hq (hnone q task)
  · intro j ttl hj
    cases (hself hj rfl).2
  · exact fun q task hq => absurd hq (hnone q task)

theorem Tidy.opens_window {ttl : Option Nat} (h : Tidy past s) (hx : opens x.pre x.act = some i)
    (hxnow : x.pre.now = s.now) (hnow : s'.now = s.now) (hi : StartAt s i ttl .closing)
    (hmoved : Moved s i .opening s') (htasks : s'.tasks = s.tasks) : Tidy (past ++ [x]) s' := by
  have hnone : ∀ q task, ¬ Running s' q task := by
    intro q task hq
    cases h.only i ttl _ hi rfl q task (hq.of_tasks_eq htasks)
  have hself : ∀ {j ttl stage}, StartAt s' j ttl stage → stage.underway = true → i = j := by
    intro j ttl' stage hj hunderway
    by_cases hij : i = j
    · exact hij
    · exact h.alone i j ttl ttl' _ stage hi ((hmoved.startAt_other hij).mp hj) rfl hunderway
  refine ⟨?_, ?_, ?_, ?_, ?_⟩
  · intro j k ttl ttl' stage stage' hj hk hstage hstage'
    exact (hself hj hstage).symm.trans (hself hk hstage')
  · exact fun q task hq => absurd hq (hnone q task)
  · exact fun j ttl stage _ _ q task hq => absurd hq (hnone q task)
  · intro j ttl hj
    rw [← hself hj rfl]
    exact Since.snoc_now ⟨hx, by rw [hxnow, hnow]⟩
  · exact fun q task hq => absurd hq (hnone q task)

theorem Tidy.spawns {ttl : Nat} (h : Tidy past s) (hx : opens x.pre x.act = none)
    (hnow : s'.now = s.now) (hi : StartAt s i (some ttl) .opening)
    (hmoved : Moved s i (.storing s.tasks.length) s')
    (htasks : s'.tasks = s.tasks ++ [⟨i, ttl, .spawned⟩]) : Tidy (past ++ [x]) s' := by
  have hrunning : ∀ {q task}, Running s' q task → q = s.tasks.length ∧ task = ⟨i, ttl, .spawned⟩ := by
    rintro q task ⟨hget, halive⟩
    rw [htasks] at hget
    by_cases hq : q < s.tasks.length
    · rw [List.getElem?_append_left hq] at hget
      cases h.only i _ _ hi rfl q task ⟨hget, halive⟩
    · rw [List.getElem?_append_right (Nat.not_lt.mp hq)] at hget
      have hzero : q - s.tasks.length = 0 := by
        by_contra hpos
        rw [List.getElem?_eq_none (by rw [List.length_singleton]; omega)] at hget
        cases hget
      rw [hzero] at hget
      exact ⟨by omega, (Option.some.inj hget).symm⟩
  have hstoring : StartAt s' i (some ttl) (.storing s.tasks.length) :=
    hmoved.startAt_self.mpr ⟨rfl, .opening, hi⟩
  have hself : ∀ {j ttl stage}, StartAt s' j ttl stage → stage.underway = true →
      i = j ∧ stage = .storing s.tasks.length := by
    intro j ttl' stage hj hunderway
    by_cases hij : i = j
    · subst hij
      exact ⟨rfl, (hmoved.startAt_self.mp hj).1⟩
    · exact absurd (h.alone i j _ ttl' _ stage hi ((hmoved.startAt_other hij).mp hj) rfl hunderway)
        hij
  refine ⟨?_, ?_, ?_, ?_, ?_⟩
  · intro j k ttl ttl' stage stage' hj hk hstage hstage'
    exact (hself hj hstage).1.symm.trans (hself hk hstage').1
  · intro q task hq
    rw [(hrunning hq).1]
    exact Or.inr ⟨i, some ttl, hstoring⟩
  · intro j ttl' stage hj hstage q task hq
    rw [(hself hj hstage).2, (hrunning hq).1]
  · intro j ttl' hj
    cases (hself hj rfl).2
  · intro q task hq
    rw [(hrunning hq).2]
    refine ⟨⟨_, hstoring⟩, (h.opened i _ hi).keep hx fun t ht => ?_⟩
    rw [hnow]
    exact ht

theorem Tidy.returns (h : Tidy past s) (hx : opens x.pre x.act = none) (hnow : s'.now = s.now)
    (hmoved : Moved s i .finished s') (htasks : s'.tasks = s.tasks)
    (hslot : s'.pairingExpireTask = s.pairingExpireTask)
    (hi : ∀ ttl q, ¬ StartAt s i ttl (.storing q)) : Tidy (past ++ [x]) s' := by
  refine h.quiet hx hnow.ge (fun j ttl stage => hmoved.startAt_underway rfl)
    (fun j ttl stage => hmoved.startAt_kept)
    (running_kept hnow.ge fun q task hq => hq.of_tasks_eq htasks) fun q task hq => ?_
  rw [hslot]
  refine (h.held q task (hq.of_tasks_eq htasks)).imp id ?_
  rintro ⟨j, ttl, hj⟩
  have hij : i ≠ j := by
    rintro rfl
    exact hi ttl q hj
  exact ⟨j, ttl, (hmoved.startAt_other hij).mpr hj⟩

theorem Tidy.stores {ttl : Option Nat} (h : Tidy past s) (hx : opens x.pre x.act = none)
    (hnow : s'.now = s.now) (hi : StartAt s i ttl (.storing q)) (hmoved : Moved s i .finished s')
    (htasks : s'.tasks = s.tasks) (hslot : s'.pairingExpireTask = some q) :
    Tidy (past ++ [x]) s' := by
  refine h.quiet hx hnow.ge (fun j ttl stage => hmoved.startAt_underway rfl)
    (fun j ttl stage => hmoved.startAt_kept)
    (running_kept hnow.ge fun q task hq => hq.of_tasks_eq htasks) fun q' task hq => ?_
  have heq := h.only i ttl _ hi rfl q' task (hq.of_tasks_eq htasks)
  cases heq
  exact Or.inl hslot

theorem Tidy.expires {task : ExpiryTask} {stage : ExpiryStage} (h : Tidy past s)
    (hx : opens x.pre x.act = none) (hnow : s'.now = s.now) (hcalls : s'.calls = s.calls)
    (hq : Running s q task) (htasks : s'.tasks = (s.setTask q stage).tasks)
    (hslot : s'.pairingExpireTask = s.pairingExpireTask)
    (hdue : stage.alive = true → ∀ opened, task.Due s.now opened →
      ExpiryTask.Due { task with stage := stage } s.now opened) : Tidy (past ++ [x]) s' := by
  have hstart : ∀ {j ttl stage}, StartAt s' j ttl stage ↔ StartAt s j ttl stage := by
    intro j ttl stage
    rw [StartAt, StartAt, hcalls]
  have hrunning : ∀ {other task'}, Running s' other task' →
      (q = other ∧ task' = { task with stage := stage }) ∨ Running s other task' := by
    rintro other task' ⟨hget, halive⟩
    rw [htasks, PairingHost.setTask] at hget
    by_cases hother : q = other
    · subst hother
      rw [List.getElem?_modify_eq, hq.1] at hget
      exact Or.inl ⟨rfl, (Option.some.inj hget).symm⟩
    · rw [List.getElem?_modify_ne _ _ hother] at hget
      exact Or.inr ⟨hget, halive⟩
  refine h.quiet hx hnow.ge (fun j ttl stage hj _ => hstart.mp hj)
    (fun j ttl stage hj => ⟨stage, hstart.mpr hj⟩) ?_ ?_
  · intro other task' hother
    rcases hrunning hother with ⟨rfl, rfl⟩ | hold
    · refine ⟨task, hq, rfl, rfl, fun opened hopened => ?_⟩
      rw [hnow]
      exact hdue hother.2 opened hopened
    · refine ⟨task', hold, rfl, rfl, fun opened hopened => ?_⟩
      rw [hnow]
      exact hopened
  · intro other task' hother
    have hheld : s.pairingExpireTask = some other ∨ ∃ i ttl, StartAt s i ttl (.storing other) := by
      rcases hrunning hother with ⟨rfl, -⟩ | hold
      · exact h.held q task hq
      · exact h.held other task' hold
    rw [hslot]
    exact hheld.imp id fun ⟨j, ttl, hj⟩ => ⟨j, ttl, hstart.mpr hj⟩

theorem Tidy.stays (h : Tidy past s) (hx : opens x.pre x.act = none) (hnow : s.now ≤ s'.now)
    (hcalls : s'.calls = s.calls ∨ ∃ call, s'.calls = s.calls ++ [⟨call, .taking⟩])
    (htasks : s'.tasks = s.tasks) (hslot : s'.pairingExpireTask = s.pairingExpireTask) :
    Tidy (past ++ [x]) s' := by
  have hkept : ∀ {j ttl stage}, StartAt s j ttl stage → StartAt s' j ttl stage := by
    intro j ttl stage hj
    rw [StartAt] at hj ⊢
    rcases hcalls with hcalls | ⟨call, hcalls⟩
    · rw [hcalls]
      exact hj
    · rw [hcalls, List.getElem?_append_left (List.getElem?_eq_some_iff.mp hj).1]
      exact hj
  have hold : ∀ {j ttl stage}, StartAt s' j ttl stage → stage.underway = true →
      StartAt s j ttl stage := by
    intro j ttl stage hj hunderway
    rw [StartAt] at hj ⊢
    rcases hcalls with hcalls | ⟨call, hcalls⟩
    · rw [hcalls] at hj
      exact hj
    · rw [hcalls] at hj
      by_cases hlt : j < s.calls.length
      · rw [List.getElem?_append_left hlt] at hj
        exact hj
      · rw [List.getElem?_append_right (Nat.not_lt.mp hlt)] at hj
        have hnew := List.mem_singleton.mp (List.mem_of_getElem? hj)
        cases hnew
        cases hunderway
  refine h.quiet hx hnow (fun j ttl stage => hold) (fun j ttl stage hj => ⟨stage, hkept hj⟩)
    (running_kept hnow fun q task hq => hq.of_tasks_eq htasks) fun q task hq => ?_
  rw [hslot]
  exact (h.held q task (hq.of_tasks_eq htasks)).imp id fun ⟨j, ttl, hj⟩ => ⟨j, ttl, hkept hj⟩

theorem Tidy.advance (h : Tidy past s) (hok : Serial s (.advance i))
    (hstep : s.advance i = some s') {out : List PairingEvent} :
    Tidy (past ++ [⟨s, .advance i, s', out⟩]) s' := by
  rw [PairingHost.advance] at hstep
  split at hstep
  · cases hstep
  rename_i call stage hget
  split at hstep
  · -- `stop_pairing_host`, alone or at the beginning of a start
    cases hstep
    cases call with
    | stop =>
      refine h.takes_stop ?_ rfl hget rfl rfl
      simp [opens, hget]
    | start ttl =>
      refine h.takes_start (fun j ttl' stage hj => ?_) rfl rfl
      simp only [Serial, overlaps, hget, List.any_eq_false] at hok
      simpa using hok _ (List.mem_of_getElem? hj)
  · cases hstep
    refine h.returns (by simp [opens, hget]) rfl rfl rfl rfl fun ttl q hstart => ?_
    rw [StartAt, hget] at hstart
    cases hstart
  · cases hstep
    exact h.opens_window (by simp [opens, hget]) rfl rfl hget rfl rfl
  · cases hstep
    refine h.returns (by simp [opens, hget]) rfl rfl rfl rfl fun ttl q hstart => ?_
    rw [StartAt, hget] at hstart
    cases hstart
  · cases hstep
    exact h.spawns (by simp [opens, hget]) rfl hget rfl rfl
  · cases hstep
    exact h.stores (by simp [opens, hget]) rfl hget rfl rfl rfl
  · cases hstep

theorem Tidy.runExpiry {out : List PairingEvent} (h : Tidy past s)
    (hstep : s.runExpiry q = some (s', out)) : Tidy (past ++ [⟨s, .expiry q, s', out⟩]) s' := by
  rw [PairingHost.runExpiry] at hstep
  split at hstep
  · cases hstep
  rename_i task hget
  split at hstep
  · rename_i hstage
    cases hstep
    refine h.expires rfl rfl rfl ⟨hget, by rw [hstage]; rfl⟩ rfl rfl fun _ opened hdue => ?_
    rw [ExpiryTask.Due, hstage] at hdue
    exact Nat.add_le_add_right hdue task.ttl
  · rename_i deadline hstage
    split at hstep
    · rename_i hpassed
      cases hstep
      refine h.expires rfl rfl rfl ⟨hget, by rw [hstage]; rfl⟩ rfl rfl fun _ opened hdue => ?_
      rw [ExpiryTask.Due, hstage] at hdue
      exact le_trans hdue hpassed
    · cases hstep
  · rename_i hstage
    cases hstep
    exact h.expires rfl rfl rfl ⟨hget, by rw [hstage]; rfl⟩ rfl rfl fun halive => nomatch halive
  · cases hstep
  · cases hstep

end Step

/-! ## Runs -/

theorem tidy_run {tr : List PairingEntry} {s : PairingHost}
    (hrun : Run pairingMachine Serial .new tr s) : Tidy tr s := by
  refine hrun.invariant (I := Tidy) tidy_new ?_
  intro tr s s' act out h hok hstep
  cases act with
  | call call =>
    cases hstep
    exact h.stays rfl (le_refl _) (Or.inr ⟨call, rfl⟩) rfl rfl
  | advance i =>
    obtain ⟨s'', hadvance, heq⟩ := Option.map_eq_some_iff.mp hstep
    cases heq
    exact h.advance hok hadvance
  | expiry q => exact h.runExpiry hstep
  | tick seconds =>
    cases hstep
    exact h.stays rfl (Nat.le_add_right _ _) (Or.inl rfl) rfl rfl

/-- A task that closes a window is alive and its time has come. -/
theorem due_of_closes {s s' : PairingHost} {q : Nat} {out : List PairingEvent} {task : ExpiryTask}
    (hstep : s.runExpiry q = some (s', out)) (hget : s.tasks[q]? = some task)
    (hstage : task.stage ≠ .spawned) : Running s q task ∧
      ∀ opened, task.Due s.now opened → opened + task.ttl ≤ s.now := by
  rw [PairingHost.runExpiry, hget] at hstep
  dsimp only at hstep
  cases hcase : task.stage with
  | spawned => exact absurd hcase hstage
  | sleeping deadline =>
    rw [hcase] at hstep
    dsimp only at hstep
    split at hstep
    · rename_i hpassed
      refine ⟨⟨hget, by rw [hcase]; rfl⟩, fun opened hdue => ?_⟩
      rw [ExpiryTask.Due, hcase] at hdue
      exact le_trans hdue hpassed
    · cases hstep
  | clearing =>
    refine ⟨⟨hget, by rw [hcase]; rfl⟩, fun opened hdue => ?_⟩
    rw [ExpiryTask.Due, hcase] at hdue
    exact hdue
  | finished =>
    rw [hcase] at hstep
    cases hstep
  | aborted =>
    rw [hcase] at hstep
    cases hstep

/-- In every run in which no start takes the stored expiry task while another start is under way, what
closes a window by expiry is the task of the last window that was opened, after its own time to
live. -/
theorem window_expires_own (tr : List PairingEntry) (s : PairingHost)
    (hrun : Run pairingMachine Serial .new tr s) : Each ExpiresOwn tr := by
  refine hrun.invariant_of_run (I := fun tr _ => Each ExpiresOwn tr) Each.nil ?_
  intro tr s s' act out hprev heach _ hstep
  refine heach.snoc ?_
  rintro q task rfl hget hstage
  obtain ⟨hrunning, hdue⟩ := due_of_closes hstep hget hstage
  obtain ⟨hcall, before, y, after, heq, ⟨hopens, hy⟩, hafter⟩ := (tidy_run hprev).own q task hrunning
  exact ⟨hcall, before, y, after, heq, ⟨hopens, hdue _ hy⟩, hafter⟩

/-- A window of ten seconds, stopped; another one that expires. -/
theorem window_expires_own_second :
    ∃ tr s, Run pairingMachine Serial .new tr s ∧
      s.tasks.map (·.stage) = [.aborted, .finished] ∧ Each ExpiresOwn tr := by
  obtain ⟨tr, s, hrun, htest⟩ := Run.of_check pairingMachine Serial .new
    [.call (.start (some 10)), .advance 0, .advance 0, .advance 0, .advance 0, .expiry 0, .tick 3,
      .call .stop, .advance 1, .advance 1, .call (.start (some 5)), .advance 2, .advance 2,
      .advance 2, .advance 2, .expiry 1, .tick 5, .expiry 1, .expiry 1]
    (fun _ s => decide (s.tasks.map (·.stage) = [.aborted, .finished])) (by decide +kernel)
  exact ⟨tr, s, hrun, of_decide_eq_true htest, window_expires_own tr s hrun⟩

/-- Of two starts that overlap, the first one's task is not aborted: after ten seconds it closes the
window that the second opened for a thousand. -/
theorem overlapping_starts_expire_early :
    ¬ ∀ tr s, Run pairingMachine anyStep .new tr s → Each ExpiresOwn tr := by
  intro hall
  obtain ⟨tr, s, hrun, htest⟩ := Run.of_check pairingMachine anyStep .new
    [.call (.start (some 10)), .advance 0, .advance 0, .advance 0, .call (.start (some 1000)),
      .advance 1, .advance 0, .advance 1, .advance 1, .advance 1, .expiry 0, .tick 10]
    (fun tr s => decide (s.tasks[0]? = some (ExpiryTask.mk 0 10 (.sleeping 10)) ∧ s.now = 10 ∧
      ¬ Since (fun y : PairingEntry => opens y.pre y.act = some 0)
        (fun y => (opens y.pre y.act).isSome = true) tr))
    (by decide +kernel)
  obtain ⟨hget, hnow, hlast⟩ := of_decide_eq_true htest
  have hstep : pairingMachine.step s (.expiry 0) = some ({ s.setTask 0 .clearing with
      pairingHostOpen := false
      pairingHostPersistent := false }, []) := by
    simp only [pairingMachine, PairingHost.runExpiry, hget, hnow, le_refl, if_true]
  have hown := (Each.snoc_iff.mp (hall _ _ (hrun.snoc trivial hstep))).2
  obtain ⟨-, before, y, after, heq, ⟨hopens, -⟩, hafter⟩ :=
    hown 0 _ rfl hget (fun heq => nomatch heq)
  exact hlast ⟨before, y, after, heq, hopens, hafter⟩

end DashBeam.Native

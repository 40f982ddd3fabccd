import DashBeam.Protocol.Ledger
import DashBeam.Share.Session

/-!
# What a step of a share session does to its counters

The cases of a session's step, and what one step of a request's future does to the ledger and the
counters, said once for all of them (`Moves`).
-/

namespace DashBeam.Share

open Lib

/-! ## Cases of a step -/

inductive StepCase (s : Session) : Action → Session → List ShareEvent → Prop
  | clientConnected (listening : s.channelOpen = true) :
      StepCase s .clientConnected s [.sharePeerConnected]
  | received {key probe} (listening : s.channelOpen = true) (fresh : s.tasks.lookup key = none) :
      StepCase s (.getRequestReceived key probe) (s.received key probe) []
  | probeUpdate {key u due t} (task : s.tasks.lookup key = some t)
      (probe : t.isSizesProbeRequest = true) : StepCase s (.update key u due) s []
  | probeEnd {key t} (task : s.tasks.lookup key = some t) (probe : t.isSizesProbeRequest = true) :
      StepCase s (.streamEnd key) (s.putTask key s.shared none) []
  | update {key u due t sh' t' out} (task : s.tasks.lookup key = some t)
      (receiving : t.stage = .receiving) (payload : t.isSizesProbeRequest = false)
      (result : t.update s.shared key due u = (sh', t', out)) :
      StepCase s (.update key u due) (s.putTask key sh' (some t')) out
  | streamEnd {key t sh' t'} (task : s.tasks.lookup key = some t) (receiving : t.stage = .receiving)
      (payload : t.isSizesProbeRequest = false) (result : t.streamEnd s.shared key = (sh', t')) :
      StepCase s (.streamEnd key) (s.putTask key sh' t') []
  | wake {key due recent t sh' t' out} (task : s.tasks.lookup key = some t)
      (result : t.wake s.shared key due recent = some (sh', t', out)) :
      StepCase s (.wake key due recent) (s.putTask key sh' t') out
  | channelClosed (listening : s.channelOpen = true) :
      StepCase s .channelClosed { s with channelOpen := false } []
  | finish (closed : s.channelOpen = false) (drained : s.tasks.entries = []) :
      StepCase s .finish s.conclude.1 s.conclude.2

theorem step_case {s s' : Session} {a : Action} {out : List ShareEvent}
    (h : machine.step s a = some (s', out)) : StepCase s a s' out := by
  replace h : s.step a = some (s', out) := h
  cases a with
  | clientConnected =>
    rw [Session.step] at h
    split at h
    · rename_i hguard
      cases h
      exact .clientConnected hguard
    · cases h
  | getRequestReceived key probe =>
    rw [Session.step] at h
    split at h
    · rename_i hguard
      cases h
      exact .received hguard.1 (Option.isNone_iff_eq_none.mp hguard.2)
    · cases h
  | update key u due =>
    rw [Session.step] at h
    split at h
    · cases h
    · rename_i t htask
      split at h
      · rename_i hstage
        split at h
        · rename_i hprobe
          cases h
          exact .probeUpdate htask hprobe
        · rename_i hpayload
          cases h
          exact .update htask hstage (by simpa using hpayload) rfl
      · cases h
  | streamEnd key =>
    rw [Session.step] at h
    split at h
    · cases h
    · rename_i t htask
      split at h
      · rename_i hstage
        split at h
        · rename_i hprobe
          cases h
          exact .probeEnd htask hprobe
        · rename_i hpayload
          cases h
          exact .streamEnd htask hstage (by simpa using hpayload) rfl
      · cases h
  | wake key due recent =>
    rw [Session.step] at h
    split at h
    · cases h
    · rename_i t htask
      obtain ⟨⟨sh', t', out'⟩, hwake, heq⟩ := Option.map_eq_some_iff.mp h
      cases heq
      exact .wake htask hwake
  | channelClosed =>
    rw [Session.step] at h
    split at h
    · rename_i hguard
      cases h
      exact .channelClosed hguard
    · cases h
  | finish =>
    rw [Session.step] at h
    split at h
    · rename_i hguard
      have hresult : s.conclude = (s', out) := Option.some.inj h
      have hfinish := StepCase.finish (by simpa using hguard.1) hguard.2.1
      rwa [hresult] at hfinish
    · cases h

/-! ## What the books count -/

/-- A payload request that has not been retired. -/
def RequestTask.unretired (t : RequestTask) : Nat :=
  if t.isSizesProbeRequest || t.requestCompleted || t.streamEnded then 0 else 1

/-- A future about to show that the transfer completed. -/
def RequestTask.emits (t : RequestTask) : Nat := if t.stage = .emitting then 1 else 0

def Stage.Debouncing : Stage → Prop
  | .receiving => False
  | .reporting _ => False
  | .sleeping _ => True
  | .waited _ => True
  | .looked _ => True
  | .emitting => True

/-- A payload request whose updates end before it reported anything. -/
def endsUnstarted (s : Session) : Action → Bool
  | .streamEnd key =>
    (s.tasks.lookup key).any fun t => !t.isSizesProbeRequest && !t.transferStarted
  | _ => false

/-- A started request aborted before nearly all of the payload was sent. -/
def abortsShort (s : Session) : Action → Bool
  | .update key .aborted _ =>
    (s.tasks.lookup key).any fun t =>
      !t.isSizesProbeRequest && t.transferStarted && !t.requestCompleted && !s.shared.credited key
  | _ => false

def flag (b : Bool) : Nat := if b then 1 else 0

/-- How often the end of the transfer is shown. -/
def completions (out : List ShareEvent) : Nat :=
  out.countP fun
    | .transferCompleted _ => true
    | _ => false

/-! ## One step of a future -/

/-- What other futures need of the shared data. -/
structure Frame (key : RequestKey) (sh sh' : Shared) : Prop where
  active : ∀ other, other ≠ key → other ∈ sh.ledger.active → other ∈ sh'.ledger.active
  finished : sh.ledger.finishedRequests ≤ sh'.ledger.finishedRequests
  started : sh.hasEmittedStarted = true → sh'.hasEmittedStarted = true

/-- What is known of a future between its steps. -/
structure Served (key : RequestKey) (sh : Shared) (t : RequestTask) : Prop where
  probe : t.isSizesProbeRequest = true → t.stage = .receiving ∧ t.transferStarted = false
  listed : t.transferStarted = true → t.requestCompleted = false → t.streamEnded = false →
    key ∈ sh.ledger.active
  began : t.transferStarted = true → sh.hasEmittedStarted = true
  completed : t.requestCompleted = true → t.transferStarted = true
  ended : t.streamEnded = true → t.stage.Debouncing
  credited : t.stage.Debouncing → 1 ≤ sh.ledger.finishedRequests

/-- A step of a future, as the books see it: `lost` requests ended unstarted in it and `short` ones
were aborted short. -/
structure Moves (key : RequestKey) (lost short : Nat) (sh : Shared) (t : RequestTask) (sh' : Shared)
    (t' : Option RequestTask) (out : List ShareEvent) : Prop where
  frame : Frame key sh sh'
  served : ∀ u, t' = some u → Served key sh' u
  balance : t.unretired ≤ sh.activeRequests →
    sh'.activeRequests + sh.completedRequests + t.unretired
      = sh.activeRequests + sh'.completedRequests + (t'.elim 0 RequestTask.unretired) + lost
  credit : sh'.completedRequests + sh.ledger.finishedRequests
    = sh.completedRequests + sh'.ledger.finishedRequests + short
  emission : completions out + flag sh.hasEmittedCompleted + t'.elim 0 RequestTask.emits
    = t.emits + flag sh'.hasEmittedCompleted
  counted : sh'.completedRequests = sh.completedRequests ∨ sh.hasEmittedStarted = true
  emitted : sh'.hasEmittedCompleted = true →
    sh.hasEmittedCompleted = true ∨ 1 ≤ sh.ledger.finishedRequests

/-! The shared data after the operations of a future. -/

theorem mem_active_iff {l : ShareProgress} {key : RequestKey} :
    key ∈ l.active ↔ (l.active.lookup key).isSome := AList.lookup_isSome.symm

theorem mem_active_apply (l : ShareProgress) (op : LedgerOp) {other : RequestKey}
    (hne : other ≠ op.key) (h : other ∈ l.active) : other ∈ (op.apply l).active := by
  rw [mem_active_iff] at h ⊢
  rwa [l.lookup_apply_of_ne op hne]

theorem finishedRequests_blobProgress (l : ShareProgress) (key : RequestKey) (endOffset : Nat) :
    (l.blobProgress key endOffset).finishedRequests = l.finishedRequests := by
  rw [ShareProgress.blobProgress]
  split <;> rfl

theorem mem_active_blobProgress {l : ShareProgress} {key : RequestKey} (endOffset : Nat)
    (h : key ∈ l.active) : key ∈ (l.blobProgress key endOffset).active := by
  rw [ShareProgress.blobProgress]
  split
  · exact h
  · exact AList.mem_insert _ |>.mpr (.inl rfl)

theorem finishedRequests_retire {l : ShareProgress} {key : RequestKey} (h : key ∈ l.active)
    (credited : Bool) :
    (l.retire key credited).1.finishedRequests = l.finishedRequests + flag credited := by
  obtain ⟨request, hrequest⟩ := Option.isSome_iff_exists.mp (mem_active_iff.mp h)
  rw [ShareProgress.retire, hrequest]
  cases credited with
  | true => rfl
  | false => rfl

/-- Only the ledger changes, by an operation on the future's own key. -/
theorem frame_of_apply {key : RequestKey} {sh sh' : Shared} (op : LedgerOp) (hkey : op.key = key)
    (hledger : sh'.ledger = op.apply sh.ledger)
    (hfinished : sh.ledger.finishedRequests ≤ (op.apply sh.ledger).finishedRequests)
    (hstarted : sh.hasEmittedStarted = true → sh'.hasEmittedStarted = true) :
    Frame key sh sh' := by
  refine ⟨?_, ?_, hstarted⟩
  · intro other hne hother
    rw [hledger]
    exact mem_active_apply _ op (hkey ▸ hne) hother
  · rw [hledger]
    exact hfinished

theorem Frame.refl (key : RequestKey) (sh : Shared) : Frame key sh sh :=
  ⟨fun _ _ h => h, Nat.le_refl _, id⟩

theorem Served.frame {key other : RequestKey} {sh sh' : Shared} {t : RequestTask}
    (ht : Served other sh t) (hframe : Frame key sh sh') (hne : other ≠ key) :
    Served other sh' t where
  probe := ht.probe
  listed := fun h1 h2 h3 => hframe.active other hne (ht.listed h1 h2 h3)
  began := fun h => hframe.started (ht.began h)
  completed := ht.completed
  ended := ht.ended
  credited := fun h => (ht.credited h).trans hframe.finished

/-- A retired request: the books lose it as unretired, and count it or not. -/
structure Retired (key : RequestKey) (sh sh' : Shared) : Prop where
  frame : Frame key sh sh'
  finished : sh'.ledger.finishedRequests = sh.ledger.finishedRequests + flag (sh.credited key)
  active : sh'.activeRequests = sh.activeRequests
  completed : sh'.completedRequests = sh.completedRequests
  started : sh'.hasEmittedStarted = sh.hasEmittedStarted
  emitted : sh'.hasEmittedCompleted = sh.hasEmittedCompleted

theorem retired {key : RequestKey} {sh : Shared} (h : key ∈ sh.ledger.active) :
    Retired key sh (sh.retire key) := by
  have hfinished := finishedRequests_retire h (sh.credited key)
  refine ⟨?_, hfinished, rfl, rfl, rfl, rfl⟩
  apply frame_of_apply (.retire key (sh.credited key)) rfl rfl
  · show _ ≤ (sh.ledger.retire key (sh.credited key)).1.finishedRequests
    omega
  · exact id

/-! The updates of a request. -/

theorem completions_announce (sh : Shared) : completions sh.announce.2 = 0 := by
  rw [Shared.announce]
  cases sh.hasEmittedStarted with
  | true => rfl
  | false => rfl

theorem completions_record (sh : Shared) (key : RequestKey) (endOffset : Nat) (due : Bool) :
    completions (sh.record key endOffset due).2 = 0 := by
  rw [Shared.record]
  cases due with
  | true => rfl
  | false => rfl

theorem frame_record (key : RequestKey) (sh : Shared) (endOffset : Nat) (due : Bool) :
    Frame key sh (sh.record key endOffset due).1 := by
  refine frame_of_apply (.blobProgress key endOffset) rfl rfl ?_ id
  exact (finishedRequests_blobProgress sh.ledger key endOffset).ge

section

variable {key : RequestKey} {sh sh' : Shared} {t : RequestTask} {out : List ShareEvent}

theorem Served.keep (ht : Served key sh t) (hframe : Frame key sh sh')
    (hmem : key ∈ sh.ledger.active → key ∈ sh'.ledger.active) : Served key sh' t where
  probe := ht.probe
  listed := fun h1 h2 h3 => hmem (ht.listed h1 h2 h3)
  began := fun h => hframe.started (ht.began h)
  completed := ht.completed
  ended := ht.ended
  credited := fun h => (ht.credited h).trans hframe.finished

/-- The first sign of a payload request, its ledger entry made. -/
theorem served_announced (ht : Served key sh t) (hpayload : t.isSizesProbeRequest = false)
    (hframe : Frame key sh sh') (hmem : key ∈ sh'.ledger.active)
    (hstarted : sh'.hasEmittedStarted = true) {stage : Stage}
    (hended : t.streamEnded = true → stage.Debouncing)
    (hstage : stage.Debouncing → t.stage.Debouncing) :
    Served key sh' { t with transferStarted := true, stage := stage } where
  probe := by
    intro hprobe
    rw [hpayload] at hprobe
    cases hprobe
  listed := fun _ _ _ => hmem
  began := fun _ => hstarted
  completed := fun _ => rfl
  ended := hended
  credited := fun h => (ht.credited (hstage h)).trans hframe.finished

theorem moves_started (ht : Served key sh t) (hpayload : t.isSizesProbeRequest = false) (due : Bool)
    (index size : Nat) :
    Moves key 0 0 sh t (t.update sh key due (.started index size)).1
      (some (t.update sh key due (.started index size)).2.1)
      (t.update sh key due (.started index size)).2.2 := by
  have hmem : key ∈ (sh.ledger.blobStarted key index size).active :=
    AList.mem_insert _ |>.mpr (.inl rfl)
  rw [RequestTask.update]
  split
  · have hframe : Frame key sh { sh with ledger := sh.ledger.blobStarted key index size } :=
      frame_of_apply (.blobStarted key index size) rfl rfl (Nat.le_refl _) id
    refine ⟨hframe, ?_, fun _ => rfl, rfl, ?_, .inl rfl, .inl⟩
    · rintro u ⟨⟩
      exact ht.keep hframe fun _ => hmem
    · show 0 + flag sh.hasEmittedCompleted + t.emits = t.emits + flag sh.hasEmittedCompleted
      omega
  · have hframe : Frame key sh
        { sh with ledger := sh.ledger.blobStarted key index size }.announce.1 :=
      frame_of_apply (.blobStarted key index size) rfl rfl (Nat.le_refl _) fun _ => rfl
    refine ⟨hframe, ?_, fun _ => rfl, rfl, ?_, .inl rfl, .inl⟩
    · rintro u ⟨⟩
      exact served_announced ht hpayload hframe hmem rfl ht.ended id
    · have hout := completions_announce
        { sh with ledger := sh.ledger.blobStarted key index size }
      show completions { sh with ledger := sh.ledger.blobStarted key index size }.announce.2
        + flag sh.hasEmittedCompleted + t.emits = t.emits + flag sh.hasEmittedCompleted
      omega

theorem moves_progress (ht : Served key sh t) (hpayload : t.isSizesProbeRequest = false)
    (hstage : t.stage = .receiving) (due : Bool) (endOffset : Nat) :
    Moves key 0 0 sh t (t.update sh key due (.progress endOffset)).1
      (some (t.update sh key due (.progress endOffset)).2.1)
      (t.update sh key due (.progress endOffset)).2.2 := by
  have hidle : t.emits = 0 := by simp [RequestTask.emits, hstage]
  rw [RequestTask.update]
  split
  · have hframe := frame_record key sh endOffset due
    refine ⟨hframe, ?_, fun _ => rfl, ?_, ?_, .inl rfl, .inl⟩
    · rintro u ⟨⟩
      exact ht.keep hframe (mem_active_blobProgress endOffset)
    · show sh.completedRequests + sh.ledger.finishedRequests
        = sh.completedRequests + (sh.ledger.blobProgress key endOffset).finishedRequests + 0
      rw [finishedRequests_blobProgress]
      rfl
    · have hout := completions_record sh key endOffset due
      show completions (sh.record key endOffset due).2 + flag sh.hasEmittedCompleted + t.emits
        = t.emits + flag sh.hasEmittedCompleted
      omega
  · have hmem : key ∈ (sh.ledger.ensureRequest key).active :=
      AList.mem_insert _ |>.mpr (.inl rfl)
    have hframe : Frame key sh { sh with ledger := sh.ledger.ensureRequest key }.announce.1 :=
      frame_of_apply (.ensureRequest key) rfl rfl (Nat.le_refl _) fun _ => rfl
    have hended : t.streamEnded ≠ true := by
      intro h
      have hdebouncing := ht.ended h
      rw [hstage] at hdebouncing
      exact hdebouncing
    refine ⟨hframe, ?_, fun _ => rfl, rfl, ?_, .inl rfl, .inl⟩
    · rintro u ⟨⟩
      exact served_announced ht hpayload hframe hmem rfl (fun h => absurd h hended) False.elim
    · have hout := completions_announce { sh with ledger := sh.ledger.ensureRequest key }
      show completions { sh with ledger := sh.ledger.ensureRequest key }.announce.2
        + flag sh.hasEmittedCompleted + 0 = t.emits + flag sh.hasEmittedCompleted
      omega

/-! The ends of a request. -/

/-- A started payload request that has not been retired. -/
structure Pulling (t : RequestTask) : Prop where
  payload : t.isSizesProbeRequest = false
  started : t.transferStarted = true
  completed : t.requestCompleted = false
  listening : t.streamEnded = false

theorem Pulling.unretired (ht : Pulling t) : t.unretired = 1 := by
  simp [RequestTask.unretired, ht.payload, ht.completed, ht.listening]

theorem not_ended_of_receiving (ht : Served key sh t) (hstage : t.stage = .receiving) :
    t.streamEnded = false := by
  cases h : t.streamEnded with
  | false => rfl
  | true =>
    have hdebouncing := ht.ended h
    rw [hstage] at hdebouncing
    exact hdebouncing.elim

theorem credited_of_debouncing {credited : Bool}
    (h : (sh.settle credited).2.Debouncing) : credited = true := by
  cases credited with
  | true => rfl
  | false => exact h.elim

theorem settle_ledger (sh : Shared) (credited : Bool) :
    (sh.settle credited).1.ledger = sh.ledger := by
  cases credited with
  | true => rfl
  | false => rfl

theorem settle_flags (sh : Shared) (credited : Bool) :
    (sh.settle credited).1.hasEmittedStarted = sh.hasEmittedStarted ∧
      (sh.settle credited).1.hasEmittedCompleted = sh.hasEmittedCompleted := by
  cases credited with
  | true => exact ⟨rfl, rfl⟩
  | false => exact ⟨rfl, rfl⟩

/-- The two paths on which a request ends without being aborted. -/
theorem moves_settled (ht : Served key sh t) (hpull : Pulling t) (hemits : t.emits = 0)
    {t' : Option RequestTask} (hunretired : t'.elim 0 RequestTask.unretired = 0)
    (hemits' : t'.elim 0 RequestTask.emits = 0) (hout : completions out = 0)
    (hflags : ∀ u, t' = some u → u.isSizesProbeRequest = false ∧ u.transferStarted = true ∧
      (u.requestCompleted = true ∨ u.streamEnded = true) ∧
      u.stage = ((sh.retire key).settle (sh.credited key)).2 ∧
      (u.streamEnded = true → u.stage ≠ .receiving)) :
    Moves key 0 0 sh t ((sh.retire key).settle (sh.credited key)).1 t' out := by
  have hmem := ht.listed hpull.started hpull.completed hpull.listening
  have hretired := retired hmem
  have hledger := settle_ledger (sh.retire key) (sh.credited key)
  obtain ⟨hstarted, hemitted⟩ := settle_flags (sh.retire key) (sh.credited key)
  have hframe : Frame key sh ((sh.retire key).settle (sh.credited key)).1 := by
    refine ⟨?_, ?_, ?_⟩
    · rw [hledger]
      exact hretired.frame.active
    · rw [hledger]
      exact hretired.frame.finished
    · rw [hstarted]
      exact hretired.frame.started
  refine ⟨hframe, ?_, ?_, ?_, ?_, .inr (ht.began hpull.started), fun h => .inl (hemitted ▸ h)⟩
  · intro u hu
    obtain ⟨hprobe, hbegan, hclosed, hstage, hnot⟩ := hflags u hu
    refine ⟨?_, ?_, fun _ => hframe.started (ht.began hpull.started), fun _ => hbegan, ?_, ?_⟩
    · intro h
      rw [hprobe] at h
      cases h
    · intro _ hcompleted hended
      rcases hclosed with h | h
      · rw [hcompleted] at h
        cases h
      · rw [hended] at h
        cases h
    · intro hended
      have hne := hnot hended
      rw [hstage] at hne ⊢
      cases hcredited : sh.credited key with
      | false =>
        rw [hcredited] at hne
        exact absurd rfl hne
      | true =>
        rw [hcredited] at hne
        rw [Shared.settle, if_pos rfl] at hne ⊢
        revert hne
        dsimp only
        split
        · intro _
          trivial
        · intro h
          exact absurd rfl h
    · intro hdebouncing
      rw [hstage] at hdebouncing
      have hcredited := credited_of_debouncing hdebouncing
      rw [hledger, hretired.finished, hcredited]
      exact Nat.le_add_left _ _
  · intro hle
    rw [hpull.unretired] at hle ⊢
    rw [hunretired]
    cases sh.credited key with
    | true =>
      show sh.activeRequests + sh.completedRequests + 1
        = sh.activeRequests + (sh.completedRequests + 1) + 0 + 0
      omega
    | false =>
      show sh.activeRequests - 1 + sh.completedRequests + 1
        = sh.activeRequests + sh.completedRequests + 0 + 0
      omega
  · rw [hledger, hretired.finished]
    cases sh.credited key with
    | true =>
      show sh.completedRequests + 1 + sh.ledger.finishedRequests
        = sh.completedRequests + (sh.ledger.finishedRequests + 1) + 0
      omega
    | false => rfl
  · rw [hout, hemits, hemits', hemitted]
    show 0 + flag sh.hasEmittedCompleted + 0 = 0 + flag sh.hasEmittedCompleted
    omega

theorem settle_stage_ne_emitting (sh : Shared) (credited : Bool) :
    (sh.settle credited).2 ≠ .emitting := by
  rw [Shared.settle]
  split
  · dsimp only
    split <;> simp
  · simp

/-- Nothing happens: an update that comes too early or too late. -/
theorem moves_idle (ht : Served key sh t) : Moves key 0 0 sh t sh (some t) [] := by
  refine ⟨Frame.refl key sh, ?_, fun _ => rfl, rfl, ?_, .inl rfl, .inl⟩
  · rintro u ⟨⟩
    exact ht
  · show 0 + flag sh.hasEmittedCompleted + t.emits = t.emits + flag sh.hasEmittedCompleted
    omega

theorem moves_completed (ht : Served key sh t) (hpayload : t.isSizesProbeRequest = false)
    (hstage : t.stage = .receiving) (due : Bool) :
    Moves key 0 0 sh t (t.update sh key due .completed).1
      (some (t.update sh key due .completed).2.1) (t.update sh key due .completed).2.2 := by
  have hidle : t.emits = 0 := by simp [RequestTask.emits, hstage]
  have hopen := not_ended_of_receiving ht hstage
  rw [RequestTask.update]
  split
  · rename_i hcond
    rw [Bool.and_eq_true, Bool.not_eq_true'] at hcond
    refine moves_settled ht ⟨hpayload, hcond.1, hcond.2, hopen⟩ hidle ?_ ?_ rfl ?_
    · simp [RequestTask.unretired]
    · simp [RequestTask.emits, settle_stage_ne_emitting]
    · rintro u ⟨⟩
      refine ⟨hpayload, hcond.1, .inl rfl, rfl, ?_⟩
      intro h
      rw [show t.streamEnded = true from h] at hopen
      cases hopen
  · exact moves_idle ht

theorem moves_aborted (ht : Served key sh t) (hpayload : t.isSizesProbeRequest = false)
    (hstage : t.stage = .receiving) (due : Bool) :
    Moves key 0 (flag (t.transferStarted && !t.requestCompleted && !sh.credited key)) sh t
      (t.update sh key due .aborted).1 (some (t.update sh key due .aborted).2.1)
      (t.update sh key due .aborted).2.2 := by
  have hidle : t.emits = 0 := by simp [RequestTask.emits, hstage]
  have hopen := not_ended_of_receiving ht hstage
  rw [RequestTask.update]
  split
  · rename_i hcond
    rw [hcond]
    rw [Bool.and_eq_true, Bool.not_eq_true'] at hcond
    have hpull : Pulling t := ⟨hpayload, hcond.1, hcond.2, hopen⟩
    have hretired := retired (ht.listed hcond.1 hcond.2 hopen)
    refine ⟨⟨hretired.frame.active, hretired.frame.finished, hretired.frame.started⟩, ?_, ?_, ?_, ?_,
      .inr (ht.began hcond.1), .inl⟩
    · rintro u ⟨⟩
      refine ⟨ht.probe, ?_, ht.began, fun _ => hcond.1, ?_, ?_⟩
      · intro _ h _
        cases h
      · exact ht.ended
      · intro h
        rw [show t.stage = .receiving from hstage] at h
        exact h.elim
    · intro _
      have hgone : RequestTask.unretired { t with requestCompleted := true } = 0 := by
        simp [RequestTask.unretired]
      rw [hpull.unretired]
      show sh.activeRequests + sh.completedRequests + 1 = sh.activeRequests
        + (sh.completedRequests + 1) + RequestTask.unretired { t with requestCompleted := true } + 0
      omega
    · show sh.completedRequests + 1 + sh.ledger.finishedRequests = sh.completedRequests
        + (sh.retire key).ledger.finishedRequests + flag (true && !sh.credited key)
      rw [hretired.finished]
      cases sh.credited key with
      | true => simp only [flag]; simp; omega
      | false => simp only [flag]; simp; omega
    · show completions (ShareEvent.activeConnectionCount (sh.retire key).ledger.activeRequests
          :: if sh.activeRequests ≤ sh.completedRequests + 1 then [.transferFailed] else [])
        + flag sh.hasEmittedCompleted + t.emits = t.emits + flag sh.hasEmittedCompleted
      have hout : completions (ShareEvent.activeConnectionCount (sh.retire key).ledger.activeRequests
          :: if sh.activeRequests ≤ sh.completedRequests + 1 then [.transferFailed] else []) = 0 := by
        split <;> rfl
      omega
  · rename_i hcond
    rw [Bool.not_eq_true] at hcond
    rw [hcond]
    exact moves_idle ht

theorem moves_streamEnd (ht : Served key sh t) (hpayload : t.isSizesProbeRequest = false)
    (hstage : t.stage = .receiving) :
    Moves key (flag (!t.transferStarted)) 0 sh t (t.streamEnd sh key).1 (t.streamEnd sh key).2 [] := by
  have hidle : t.emits = 0 := by simp [RequestTask.emits, hstage]
  have hopen := not_ended_of_receiving ht hstage
  rw [RequestTask.streamEnd]
  split
  · rename_i hcond
    rw [Bool.and_eq_true, Bool.not_eq_true'] at hcond
    have hlost : flag (!t.transferStarted) = 0 := by
      rw [hcond.1]
      rfl
    rw [hlost]
    refine moves_settled ht ⟨hpayload, hcond.1, hcond.2, hopen⟩ hidle ?_ ?_ rfl ?_
    · dsimp only
      split
      · rfl
      · simp [RequestTask.unretired]
    · dsimp only
      split
      · rfl
      · simp [RequestTask.emits, settle_stage_ne_emitting]
    · intro u hu
      dsimp only at hu
      split at hu
      · cases hu
      · rename_i hne
        cases hu
        exact ⟨hpayload, hcond.1, .inr rfl, rfl, fun _ => hne⟩
  · rename_i hcond
    have hunretired : t.unretired = flag (!t.transferStarted) := by
      cases hstarted : t.transferStarted with
      | true =>
        rw [hstarted] at hcond
        have hcompleted : t.requestCompleted = true := by simpa using hcond
        simp [RequestTask.unretired, flag, hcompleted]
      | false =>
        have hcompleted : t.requestCompleted = false := by
          cases h : t.requestCompleted with
          | false => rfl
          | true =>
            have htrue := ht.completed h
            rw [hstarted] at htrue
            cases htrue
        simp [RequestTask.unretired, flag, hpayload, hcompleted, hopen]
    refine ⟨Frame.refl key sh, ?_, ?_, rfl, ?_, .inl rfl, .inl⟩
    · rintro u ⟨⟩
    · intro _
      show sh.activeRequests + sh.completedRequests + t.unretired
        = sh.activeRequests + sh.completedRequests + 0 + flag (!t.transferStarted)
      omega
    · show 0 + flag sh.hasEmittedCompleted + 0 = t.emits + flag sh.hasEmittedCompleted
      omega

/-! Going on after a wait. -/

theorem resume_unretired (t : RequestTask) :
    t.resume.elim 0 RequestTask.unretired = t.unretired := by
  rw [RequestTask.resume]
  split
  · rename_i hended
    simp [RequestTask.unretired, hended]
  · rfl

theorem resume_emits (t : RequestTask) : t.resume.elim 0 RequestTask.emits = 0 := by
  rw [RequestTask.resume]
  split
  · rfl
  · rfl

theorem served_resume (ht : Served key sh t) {u : RequestTask} (hu : t.resume = some u) :
    Served key sh u := by
  rw [RequestTask.resume] at hu
  split at hu
  · cases hu
  · rename_i hopen
    cases hu
    exact ⟨fun h => ⟨rfl, (ht.probe h).2⟩, ht.listed, ht.began, ht.completed,
      fun h => absurd h hopen, False.elim⟩

/-- The debounce goes on: the books stay, and the future keeps what was known of it. -/
theorem served_debouncing (ht : Served key sh t) (hstage : t.stage.Debouncing) {stage : Stage}
    (hstage' : stage.Debouncing) : Served key sh { t with stage := stage } where
  probe := by
    intro hprobe
    rw [(ht.probe hprobe).1] at hstage
    exact hstage.elim
  listed := ht.listed
  began := ht.began
  completed := ht.completed
  ended := fun _ => hstage'
  credited := fun _ => ht.credited hstage

theorem moves_wake (ht : Served key sh t) {due recent : Bool} {t' : Option RequestTask}
    (h : t.wake sh key due recent = some (sh', t', out)) : Moves key 0 0 sh t sh' t' out := by
  have hresumed : ∀ {events : List ShareEvent}, completions events = t.emits →
      Moves key 0 0 sh t sh t.resume events := by
    intro events hevents
    refine ⟨Frame.refl key sh, fun u hu => served_resume ht hu, ?_, rfl, ?_, .inl rfl, .inl⟩
    · intro _
      rw [resume_unretired]
      omega
    · rw [resume_emits, hevents]
      omega
  rw [RequestTask.wake] at h
  split at h
  · cases h
  · rename_i endOffset hstage
    cases h
    have hidle : t.emits = 0 := by simp [RequestTask.emits, hstage]
    have hframe := frame_record key sh endOffset due
    have hout := completions_record sh key endOffset due
    refine ⟨hframe, ?_, ?_, ?_, ?_, .inl rfl, .inl⟩
    · intro u hu
      exact (served_resume ht hu).keep hframe (mem_active_blobProgress endOffset)
    · intro _
      show sh.activeRequests + sh.completedRequests + t.unretired
        = sh.activeRequests + sh.completedRequests + t.resume.elim 0 RequestTask.unretired + 0
      rw [resume_unretired]
      omega
    · show sh.completedRequests + sh.ledger.finishedRequests
        = sh.completedRequests + (sh.ledger.blobProgress key endOffset).finishedRequests + 0
      rw [finishedRequests_blobProgress]
      rfl
    · show completions (sh.record key endOffset due).2 + flag sh.hasEmittedCompleted
        + t.resume.elim 0 RequestTask.emits = t.emits + flag sh.hasEmittedCompleted
      rw [resume_emits]
      omega
  case h_3 | h_4 =>
    rename_i idle hstage
    cases h
    have hidle : t.emits = 0 := by simp [RequestTask.emits, hstage]
    refine ⟨Frame.refl key sh, ?_, fun _ => rfl, rfl, ?_, .inl rfl, .inl⟩
    · rintro u ⟨⟩
      exact served_debouncing ht (by rw [hstage]; trivial) trivial
    · show 0 + flag sh.hasEmittedCompleted + 0 = t.emits + flag sh.hasEmittedCompleted
      omega
  · rename_i idle hstage
    have hidle : t.emits = 0 := by simp [RequestTask.emits, hstage]
    split at h
    · rename_i hcond
      have hfirst : sh.hasEmittedCompleted = false := by
        simp only [Bool.and_eq_true, Bool.not_eq_true'] at hcond
        exact hcond.2
      cases h
      have hserved : Served key { sh with hasEmittedCompleted := true } t :=
        ht.keep ⟨fun _ _ h => h, Nat.le_refl _, id⟩ id
      have hcredited : 1 ≤ sh.ledger.finishedRequests := ht.credited (by rw [hstage]; trivial)
      refine ⟨⟨fun _ _ h => h, Nat.le_refl _, id⟩, ?_, fun _ => rfl, rfl, ?_, .inl rfl,
        fun _ => .inr hcredited⟩
      · rintro u ⟨⟩
        exact served_debouncing hserved (by rw [hstage]; trivial) trivial
      · show 0 + flag sh.hasEmittedCompleted + 1 = t.emits + 1
        rw [hfirst, hidle]
        rfl
    · cases h
      exact hresumed hidle.symm
  · rename_i hstage
    cases h
    apply hresumed
    simp [completions, RequestTask.emits, hstage]

end

end DashBeam.Share

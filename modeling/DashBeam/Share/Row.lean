import DashBeam.Desktop.Recorder
import DashBeam.Share.Counters

/-!
# The history row of a share

The events of a session's progress task go through the history recorder, which closes the share's row
at the first terminal one. `transfer-failed` is shown when a request is aborted and none is left over
it, whatever other peers pull later; so the row tells the outcome of the session as long as no such
abort comes before the end of the transfer is shown.
-/

namespace DashBeam.Share

open Lib Desktop

/-- The recorder's view of a share event. -/
def ShareEvent.noted : ShareEvent → NotedEvent
  | .sharePeerConnected => .other
  | .activeConnectionCount _ => .other
  | .transferStarted => .started
  | .transferProgress _ => .other
  | .transferCompleted _ => .completed
  | .transferFailed => .failed

def rowAfter (r : Recorder) (tr : List (Entry Session Action ShareEvent)) : Recorder :=
  r.noteEvents ((tr.flatMap Entry.out).map ShareEvent.noted)

/-- The end of the transfer has been shown: the flag is set and nobody is about to show it. -/
def shown (s : Session) : Bool :=
  s.shared.hasEmittedCompleted && Map.sumOf (fun _ => RequestTask.emits) s.tasks == 0

/-- A started request is aborted, no other one is left over it, and the end of the transfer has not
been shown. -/
def failsRow (s : Session) : Action → Bool
  | .update key .aborted _ =>
    (s.tasks.lookup key).any fun t =>
      !t.isSizesProbeRequest && t.transferStarted && !t.requestCompleted
        && decide (s.shared.activeRequests ≤ s.shared.completedRequests + 1) && !shown s
  | _ => false

/-! ## Which events a step shows -/

/-- The events of a step, as the recorder sees them. -/
inductive NotedCase (s : Session) (a : Action) (s' : Session) (out : List ShareEvent) : Prop
  | neutral (events : ∀ event ∈ out, event.noted = .other)
      (started : s'.shared.hasEmittedStarted = s.shared.hasEmittedStarted)
      (covered : failsRow s a = false)
  | opens (events : out.map ShareEvent.noted = [.other, .started])
      (before : s.shared.hasEmittedStarted = false) (after : s'.shared.hasEmittedStarted = true)
      (covered : failsRow s a = false)
  | fails (events : out.map ShareEvent.noted = [.other, .failed])
      (before : s.shared.hasEmittedStarted = true) (after : s'.shared.hasEmittedStarted = true)
      (fails : failsRow s a = !shown s)
  | completes (events : out.map ShareEvent.noted = [.completed])
      (before : s.shared.hasEmittedStarted = true) (after : s'.shared.hasEmittedStarted = true)
      (covered : failsRow s a = false)

theorem noted_record {sh : Shared} {key : RequestKey} {endOffset : Nat} {due : Bool} :
    ∀ event ∈ (sh.record key endOffset due).2, event.noted = .other := by
  intro event hevent
  rw [Shared.record] at hevent
  cases due with
  | true =>
    rw [List.mem_singleton.mp hevent]
    rfl
  | false => cases hevent

theorem noted_announce {s : Session} {a : Action} {s' : Session} (sh : Shared)
    (hbefore : sh.hasEmittedStarted = s.shared.hasEmittedStarted)
    (hafter : s'.shared.hasEmittedStarted = true) (hcovered : failsRow s a = false) :
    NotedCase s a s' sh.announce.2 := by
  cases hstarted : s.shared.hasEmittedStarted with
  | true =>
    refine .neutral ?_ (hafter.trans hstarted.symm) hcovered
    intro event hevent
    rw [Shared.announce, hbefore, hstarted] at hevent
    rw [List.mem_singleton.mp hevent]
    rfl
  | false =>
    refine .opens ?_ hstarted hafter hcovered
    rw [Shared.announce, hbefore, hstarted]
    rfl

theorem noted_update {tr : List (Entry Session Action ShareEvent)} {s : Session} (hb : Books tr s)
    {key : RequestKey} {t : RequestTask} (htask : s.tasks.lookup key = some t)
    (hpayload : t.isSizesProbeRequest = false) (u : RequestUpdate) (due : Bool) :
    NotedCase s (.update key u due)
      (s.putTask key (t.update s.shared key due u).1 (some (t.update s.shared key due u).2.1))
      (t.update s.shared key due u).2.2 := by
  have hserved := hb.served key t htask
  cases u with
  | started index size =>
    rw [RequestTask.update]
    split
    · exact .neutral (fun _ h => absurd h List.not_mem_nil) rfl rfl
    · exact noted_announce { s.shared with ledger := _ } rfl rfl rfl
  | progress endOffset =>
    rw [RequestTask.update]
    split
    · exact .neutral noted_record rfl rfl
    · exact noted_announce { s.shared with ledger := _ } rfl rfl rfl
  | completed =>
    rw [RequestTask.update]
    split
    · refine .neutral ?_ ?_ rfl
      · intro event hevent
        simp only [List.mem_cons, List.not_mem_nil, or_false] at hevent
        rcases hevent with rfl | rfl
        · rfl
        · rfl
      · exact (settle_flags _ _).1
    · exact .neutral (fun _ h => absurd h List.not_mem_nil) rfl rfl
  | aborted =>
    rw [RequestTask.update]
    split
    · rename_i hcond
      rw [Bool.and_eq_true, Bool.not_eq_true'] at hcond
      by_cases hlast : s.shared.activeRequests ≤ s.shared.completedRequests + 1
      · have hstarted := hserved.began hcond.1
        refine .fails ?_ hstarted hstarted ?_
        · show List.map ShareEvent.noted (ShareEvent.activeConnectionCount _
            :: if s.shared.activeRequests ≤ s.shared.completedRequests + 1 then [.transferFailed]
              else []) = _
          rw [if_pos hlast]
          rfl
        · simp [failsRow, htask, hpayload, hcond, hlast]
      · refine .neutral ?_ rfl ?_
        · intro event hevent
          replace hevent : event ∈ ShareEvent.activeConnectionCount _
              :: if s.shared.activeRequests ≤ s.shared.completedRequests + 1 then [.transferFailed]
                else [] := hevent
          rw [if_neg hlast] at hevent
          rw [List.mem_singleton.mp hevent]
          rfl
        · simp [failsRow, htask, hlast]
    · rename_i hcond
      refine .neutral (fun _ h => absurd h List.not_mem_nil) rfl ?_
      simp only [Bool.and_eq_true, Bool.not_eq_true', not_and, Bool.not_eq_false] at hcond
      simp only [failsRow, htask, Option.any_some]
      cases hstarted : t.transferStarted with
      | false => simp
      | true => simp [hcond hstarted]

theorem noted_wake {tr : List (Entry Session Action ShareEvent)} {s : Session} (hb : Books tr s)
    {key : RequestKey} {t : RequestTask} (htask : s.tasks.lookup key = some t) {due recent : Bool}
    {sh' : Shared} {t' : Option RequestTask} {out : List ShareEvent}
    (h : t.wake s.shared key due recent = some (sh', t', out)) :
    NotedCase s (.wake key due recent) (s.putTask key sh' t') out := by
  have hnone : ∀ event ∈ ([] : List ShareEvent), event.noted = .other :=
    fun _ h => absurd h List.not_mem_nil
  rw [RequestTask.wake] at h
  split at h
  · cases h
  · cases h
    exact .neutral noted_record (by rw [putTask_shared]) rfl
  · cases h
    exact .neutral hnone rfl rfl
  · cases h
    exact .neutral hnone rfl rfl
  · split at h
    · cases h
      exact .neutral hnone rfl rfl
    · cases h
      exact .neutral hnone (by rw [putTask_shared]) rfl
  · rename_i hstage
    cases h
    have hcredited := (hb.served key t htask).credited (by rw [hstage]; trivial)
    have hcredit := hb.credit
    have hstarted := hb.began (by omega)
    exact .completes rfl hstarted (by rw [putTask_shared]; exact hstarted) rfl

theorem noted_case {tr : List (Entry Session Action ShareEvent)} {s s' : Session} {a : Action}
    {out : List ShareEvent} (hb : Books tr s) (h : machine.step s a = some (s', out)) :
    NotedCase s a s' out := by
  have hnone : ∀ event ∈ ([] : List ShareEvent), event.noted = .other :=
    fun _ h => absurd h List.not_mem_nil
  cases step_case h with
  | clientConnected _ =>
    refine .neutral ?_ rfl rfl
    intro event hevent
    rw [List.mem_singleton.mp hevent]
    rfl
  | @received key probe _ fresh =>
    refine .neutral hnone ?_ rfl
    cases probe with
    | true => rfl
    | false => rfl
  | @probeUpdate key u due t task probe =>
    refine .neutral hnone rfl ?_
    cases u <;> simp [failsRow, task, probe]
  | probeEnd task probe => exact .neutral hnone rfl rfl
  | @update key u due t sh' t' out task receiving payload result =>
    have hnoted := noted_update hb task payload u due
    rwa [result] at hnoted
  | @streamEnd key t sh' t' task receiving payload result =>
    refine .neutral hnone ?_ rfl
    rw [putTask_shared]
    rw [RequestTask.streamEnd] at result
    split at result
    · cases result
      exact (settle_flags _ _).1
    · cases result
      rfl
  | wake task result => exact noted_wake hb task result
  | channelClosed _ => exact .neutral hnone rfl rfl
  | finish _ _ =>
    rw [Session.conclude]
    split
    · rename_i hcond
      have hstarted := hb.began hcond.2.1
      exact .completes rfl hstarted hstarted rfl
    · exact .neutral hnone rfl rfl

/-! ## The row over a run -/

/-- Some abort of the run closed the row. -/
def failed (tr : List (Entry Session Action ShareEvent)) : Bool :=
  tr.any fun e => failsRow e.pre e.act

/-- What the row says of a run. -/
def outcome (tr : List (Entry Session Action ShareEvent)) : Receive.TransferStatus :=
  if failed tr then .failed
  else if 1 ≤ completions (tr.flatMap Entry.out) then .completed else .inProgress

structure RowOk (r : Recorder) (tr : List (Entry Session Action ShareEvent)) (s : Session) :
    Prop where
  unopened : s.shared.hasEmittedStarted = false →
    (rowAfter r tr).row.id = none ∧ failed tr = false
  opened : s.shared.hasEmittedStarted = true →
    ∃ record, (rowAfter r tr).Opened record ∧ record.status = outcome tr
  finalized : (rowAfter r tr).row.finalized
    = (failed tr || decide (1 ≤ completions (tr.flatMap Entry.out)))

theorem rowAfter_snoc (r : Recorder) (tr : List (Entry Session Action ShareEvent))
    (e : Entry Session Action ShareEvent) :
    rowAfter r (tr ++ [e]) = (rowAfter r tr).noteEvents (e.out.map ShareEvent.noted) := by
  rw [rowAfter, List.flatMap_append, List.flatMap_singleton, List.map_append,
    Recorder.noteEvents_append]
  rfl

theorem failed_snoc (tr : List (Entry Session Action ShareEvent))
    (e : Entry Session Action ShareEvent) :
    failed (tr ++ [e]) = (failed tr || failsRow e.pre e.act) := by
  simp [failed]

theorem completions_snoc (tr : List (Entry Session Action ShareEvent))
    (e : Entry Session Action ShareEvent) :
    completions ((tr ++ [e]).flatMap Entry.out)
      = completions (tr.flatMap Entry.out) + completions e.out := by
  rw [List.flatMap_append, completions_append, List.flatMap_singleton]

/-- How often the end of the transfer is shown, read off the recorder's view. -/
theorem completions_eq_count (out : List ShareEvent) :
    completions out = (out.map ShareEvent.noted).count .completed := by
  rw [completions, List.count, List.countP_map]
  apply List.countP_congr
  intro event _
  cases event <;> simp [ShareEvent.noted]

theorem completions_of_other {out : List ShareEvent} (h : ∀ event ∈ out, event.noted = .other) :
    completions out = 0 := by
  rw [completions_eq_count, List.count_eq_zero]
  intro hmem
  obtain ⟨event, hevent, hnoted⟩ := List.mem_map.mp hmem
  rw [h event hevent] at hnoted
  cases hnoted

/-- Before the transfer starts its end is not shown, and afterwards at most once. -/
theorem completions_of_unstarted {tr : List (Entry Session Action ShareEvent)} {s : Session}
    (hb : Books tr s) (h : s.shared.hasEmittedStarted = false) :
    completions (tr.flatMap Entry.out) = 0 := by
  have hemission := hb.emission
  cases hemitted : s.shared.hasEmittedCompleted with
  | true =>
    have hstarted := hb.began (hb.emitted hemitted)
    rw [h] at hstarted
    cases hstarted
  | false =>
    rw [hemitted] at hemission
    have hzero : flag false = 0 := rfl
    omega

theorem completions_le_one {tr : List (Entry Session Action ShareEvent)} {s : Session}
    (hb : Books tr s) : completions (tr.flatMap Entry.out) ≤ 1 := by
  have hemission := hb.emission
  have hflag : flag s.shared.hasEmittedCompleted ≤ 1 := by
    cases s.shared.hasEmittedCompleted with
    | true => exact Nat.le_refl 1
    | false => exact Nat.zero_le 1
  omega

theorem shown_eq {tr : List (Entry Session Action ShareEvent)} {s : Session} (hb : Books tr s) :
    shown s = decide (1 ≤ completions (tr.flatMap Entry.out)) := by
  have hemission := hb.emission
  rw [shown, Bool.eq_iff_iff]
  simp only [Bool.and_eq_true, beq_iff_eq, decide_eq_true_eq]
  cases hemitted : s.shared.hasEmittedCompleted with
  | true =>
    rw [hemitted] at hemission
    have hone : flag true = 1 := rfl
    constructor
    · rintro ⟨_, hnone⟩
      omega
    · intro h
      exact ⟨rfl, by omega⟩
  | false =>
    rw [hemitted] at hemission
    have hzero : flag false = 0 := rfl
    constructor
    · rintro ⟨h, _⟩
      cases h
    · intro h
      omega

theorem rowOk_new (r : Recorder) (hr : r.row = ⟨none, false⟩) (totalCollectionSize : Nat) :
    RowOk r [] (Session.new totalCollectionSize) where
  unopened := fun _ => ⟨congrArg Desktop.OpenRow.id hr, rfl⟩
  opened := by
    intro h
    cases h
  finalized := congrArg Desktop.OpenRow.finalized hr

theorem rowOk_step {r : Recorder} {tr : List (Entry Session Action ShareEvent)} {s s' : Session}
    {a : Action} {out : List ShareEvent} (hb : Books tr s) (hr : RowOk r tr s)
    (h : machine.step s a = some (s', out)) : RowOk r (tr ++ [⟨s, a, s', out⟩]) s' := by
  have hb' := books_step hb h
  have hfinalized := hr.finalized
  cases noted_case hb h with
  | neutral events started covered =>
    have hrow : rowAfter r (tr ++ [⟨s, a, s', out⟩]) = rowAfter r tr := by
      rw [rowAfter_snoc, Recorder.noteEvents_other]
      intro event hevent
      obtain ⟨shown, hshown, rfl⟩ := List.mem_map.mp hevent
      exact events shown hshown
    have hfailed : failed (tr ++ [⟨s, a, s', out⟩]) = failed tr := by
      rw [failed_snoc, covered, Bool.or_false]
    have hcompletions : completions (List.flatMap Entry.out (tr ++ [⟨s, a, s', out⟩]))
        = completions (tr.flatMap Entry.out) := by
      rw [completions_snoc, completions_of_other events]
      rfl
    refine ⟨?_, ?_, ?_⟩
    · rw [started, hrow, hfailed]
      exact hr.unopened
    · rw [started, hrow, outcome, hfailed, hcompletions]
      exact hr.opened
    · rw [hrow, hfailed, hcompletions]
      exact hfinalized
  | opens events before after covered =>
    obtain ⟨hnone, hnotFailed⟩ := hr.unopened before
    have hzero := completions_of_unstarted hb before
    have hrow : rowAfter r (tr ++ [⟨s, a, s', out⟩]) = (rowAfter r tr).openRow := by
      rw [rowAfter_snoc, events]
      rfl
    have hfailed : failed (tr ++ [⟨s, a, s', out⟩]) = false := by
      rw [failed_snoc, covered, hnotFailed]
      rfl
    have hcompletions : completions (List.flatMap Entry.out (tr ++ [⟨s, a, s', out⟩])) = 0 := by
      rw [completions_snoc, hzero, completions_eq_count, events]
      rfl
    refine ⟨?_, ?_, ?_⟩
    · rw [after]
      intro h
      cases h
    · intro _
      rw [hrow, outcome, hfailed, hcompletions]
      exact ⟨_, Recorder.opened_openRow hnone, rfl⟩
    · rw [hrow, hfailed, hcompletions, Recorder.finalized_openRow, hfinalized, hnotFailed, hzero]
  | fails events before after fails =>
    obtain ⟨record, hopened, hstatus⟩ := hr.opened before
    have hrow : rowAfter r (tr ++ [⟨s, a, s', out⟩]) = (rowAfter r tr).finalize .failed := by
      rw [rowAfter_snoc, events]
      rfl
    have hcompletions : completions (List.flatMap Entry.out (tr ++ [⟨s, a, s', out⟩]))
        = completions (tr.flatMap Entry.out) := by
      rw [completions_snoc, completions_eq_count out, events]
      rfl
    have hfailed : failed (tr ++ [⟨s, a, s', out⟩])
        = (failed tr || !decide (1 ≤ completions (tr.flatMap Entry.out))) := by
      rw [failed_snoc, fails, shown_eq hb]
    cases hclosed : (rowAfter r tr).row.finalized with
    | true =>
      -- the row is closed already: the first terminal event has decided it
      rw [hclosed] at hfinalized
      have hsame : failed (tr ++ [⟨s, a, s', out⟩]) = failed tr := by
        rw [hfailed]
        cases hbefore : failed tr with
        | true => rfl
        | false =>
          rw [hbefore, Bool.false_or] at hfinalized
          rw [← hfinalized]
          rfl
      refine ⟨?_, ?_, ?_⟩
      · rw [after]
        intro h
        cases h
      · intro _
        rw [hrow, outcome, hsame, hcompletions, Recorder.finalize_of_finalized hclosed]
        exact ⟨record, hopened, hstatus⟩
      · rw [hrow, hsame, hcompletions, Recorder.finalize_of_finalized hclosed, hclosed]
        exact hfinalized
    | false =>
      rw [hclosed] at hfinalized
      have hnow : failed (tr ++ [⟨s, a, s', out⟩]) = true := by
        rw [hfailed]
        cases hdecided : decide (1 ≤ completions (tr.flatMap Entry.out)) with
        | true =>
          rw [hdecided, Bool.or_true] at hfinalized
          cases hfinalized
        | false =>
          rw [Bool.not_false, Bool.or_true]
      refine ⟨?_, ?_, ?_⟩
      · rw [after]
        intro h
        cases h
      · intro _
        rw [hrow, outcome, hnow, if_pos rfl]
        exact ⟨_, Recorder.opened_finalize hopened hclosed .failed, rfl⟩
      · rw [hrow, hnow, Recorder.finalize_eq hopened hclosed]
        rfl
  | completes events before after covered =>
    obtain ⟨record, hopened, hstatus⟩ := hr.opened before
    have hrow : rowAfter r (tr ++ [⟨s, a, s', out⟩]) = (rowAfter r tr).finalize .completed := by
      rw [rowAfter_snoc, events]
      rfl
    have hfailed : failed (tr ++ [⟨s, a, s', out⟩]) = failed tr := by
      rw [failed_snoc, covered, Bool.or_false]
    have hone : completions out = 1 := by
      rw [completions_eq_count, events]
      rfl
    have hlast := completions_le_one hb'
    rw [completions_snoc] at hlast
    have hcompletions : completions (List.flatMap Entry.out (tr ++ [⟨s, a, s', out⟩])) = 1 := by
      rw [completions_snoc]
      show completions (tr.flatMap Entry.out) + completions out = 1
      replace hlast : completions (tr.flatMap Entry.out) + completions out ≤ 1 := hlast
      omega
    have hzero : completions (tr.flatMap Entry.out) = 0 := by
      replace hlast : completions (tr.flatMap Entry.out) + completions out ≤ 1 := hlast
      omega
    rw [hzero] at hfinalized
    cases hbefore : failed tr with
    | true =>
      rw [hbefore] at hfinalized
      have hclosed : (rowAfter r tr).row.finalized = true := hfinalized
      have houtcome : outcome tr = .failed := by
        rw [outcome, hbefore]
        rfl
      refine ⟨?_, ?_, ?_⟩
      · rw [after]
        intro h
        cases h
      · intro _
        rw [hrow, outcome, hfailed, hbefore, Recorder.finalize_of_finalized hclosed]
        exact ⟨record, hopened, hstatus.trans houtcome⟩
      · rw [hrow, hfailed, hbefore, Recorder.finalize_of_finalized hclosed, hclosed]
        rfl
    | false =>
      rw [hbefore] at hfinalized
      have hclosed : (rowAfter r tr).row.finalized = false := hfinalized
      refine ⟨?_, ?_, ?_⟩
      · rw [after]
        intro h
        cases h
      · intro _
        rw [hrow, outcome, hfailed, hbefore, hcompletions]
        exact ⟨_, Recorder.opened_finalize hopened hclosed .completed, rfl⟩
      · rw [hrow, hcompletions, Recorder.finalize_eq hopened hclosed, hfailed, hbefore]
        rfl

theorem rowOk_run {totalCollectionSize : Nat} {ok : Session → Action → Prop} {r : Recorder}
    (hr : r.row = ⟨none, false⟩) {tr : List (Entry Session Action ShareEvent)} {s : Session}
    (hrun : Run machine ok (Session.new totalCollectionSize) tr s) : RowOk r tr s := by
  refine hrun.invariant_of_run (I := RowOk r) (rowOk_new r hr totalCollectionSize) ?_
  intro tr s s' a out hprev hrow _ hstep
  exact rowOk_step (books_run hprev) hrow hstep

theorem failed_eq_false_iff {tr : List (Entry Session Action ShareEvent)} :
    failed tr = false ↔ ∀ e ∈ tr, failsRow e.pre e.act = false := by
  rw [failed, List.any_eq_false]
  constructor
  · intro h e he
    exact Bool.eq_false_iff.mpr (h e he)
  · intro h e he
    rw [h e he]
    exact Bool.false_ne_true

/-- In a session whose requests all report before they end and one of which is credited, the share's
row ends up completed exactly when no request was aborted as the last one outstanding before the end
of the transfer was shown. -/
theorem row_completed_iff (totalCollectionSize : Nat) (newId : String) (context : TransferContext)
    (rows : List Receive.TransferRecord) (tr : List (Entry Session Action ShareEvent)) (s : Session)
    (hrun : Run machine ReportsFirst (Session.new totalCollectionSize) tr s)
    (hfinished : s.finished = true) (hcredited : 1 ≤ s.shared.ledger.finishedRequests) :
    (rowAfter (Recorder.new newId context rows) tr).record.map (·.status) = some .completed ↔
      ∀ e ∈ tr, failsRow e.pre e.act = false := by
  have hb := books_run hrun
  have hcredit := hb.credit
  have hrow : RowOk (Recorder.new newId context rows) tr s := rowOk_run rfl hrun
  have hone : completions (tr.flatMap Entry.out) = 1 := by
    rw [completions_eq (fun _ _ h => h) hrun hfinished, if_pos (by omega)]
  obtain ⟨record, hopened, hstatus⟩ := hrow.opened (hb.began (by omega))
  rw [hopened.record, ← failed_eq_false_iff]
  show some record.status = some .completed ↔ _
  rw [hstatus, outcome, hone]
  cases failed tr with
  | true => simp
  | false => simp

/-- One peer gives up while another one still pulls; the other one gets everything. -/
theorem row_completed_besideAbort :
    ∃ tr s, Run machine ReportsFirst (Session.new 10) tr s ∧ s.finished = true ∧
      1 ≤ s.shared.ledger.finishedRequests ∧ (∃ e ∈ tr, abortsShort e.pre e.act = true) ∧
      (rowAfter (Recorder.new "row" ⟨none, none⟩ []) tr).record.map (·.status) = some .completed := by
  obtain ⟨tr, s, hrun, htest⟩ := Run.of_check machine ReportsFirst (Session.new 10)
    (.getRequestReceived (2, 0) false :: givesUp (1, 0)
      ++ [.update (2, 0) (.started 2 10) false, .update (2, 0) (.progress 10) false,
        .update (2, 0) .completed false, .wake (2, 0) false false, .wake (2, 0) false false,
        .wake (2, 0) false false, .wake (2, 0) false false]
      ++ closes [(1, 0), (2, 0)])
    (fun tr s => decide (s.finished = true ∧ 1 ≤ s.shared.ledger.finishedRequests
      ∧ (∃ e ∈ tr, abortsShort e.pre e.act = true)
      ∧ ∀ e ∈ tr, failsRow e.pre e.act = false)) (by decide +kernel)
  obtain ⟨hfinished, hcredited, hshort, hcovered⟩ := of_decide_eq_true htest
  exact ⟨tr, s, hrun, hfinished, hcredited, hshort,
    (row_completed_iff 10 "row" ⟨none, none⟩ [] tr s hrun hfinished hcredited).mpr hcovered⟩

/-- A lone peer gives up, then another one pulls the whole payload: the row stays failed. -/
theorem row_failed_beforePull :
    ∃ tr s, Run machine anyStep (Session.new 10) tr s ∧ s.finished = true ∧
      s.shared.ledger.finishedRequests = 1 ∧ s.shared.ledger.finishedBytes = 10 ∧
      (rowAfter (Recorder.new "row" ⟨none, none⟩ []) tr).record.map (·.status) = some .failed := by
  obtain ⟨tr, s, hrun, htest⟩ := Run.of_check machine anyStep (Session.new 10)
    (givesUp (1, 0) ++ pullsAll (2, 0)
      ++ [.wake (2, 0) false false, .wake (2, 0) false false, .wake (2, 0) false false,
        .wake (2, 0) false false]
      ++ closes [(1, 0), (2, 0)])
    (fun tr s => decide (s.finished = true ∧ s.shared.ledger.finishedRequests = 1
      ∧ s.shared.ledger.finishedBytes = 10
      ∧ (rowAfter (Recorder.new "row" ⟨none, none⟩ []) tr).record.map (·.status) = some .failed))
    (by decide +kernel)
  exact ⟨tr, s, hrun, of_decide_eq_true htest⟩

end DashBeam.Share

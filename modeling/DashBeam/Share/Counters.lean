import DashBeam.Share.Moves

/-!
# The counters of a share session

The session's books over whole runs. `active_requests` counts the requests that are completed or
still unretired, and those that ended without ever reporting anything; `completed_requests` counts
the credited retirements, and the requests that were aborted short of the payload.
-/

namespace DashBeam.Share

open Lib

/-! ## The session's books -/

/-- The books of a session after the run `tr`. -/
structure Books (tr : List (Entry Session Action ShareEvent)) (s : Session) : Prop where
  served : ∀ key t, s.tasks.lookup key = some t → Served key s.shared t
  balance : s.shared.activeRequests = s.shared.completedRequests
    + Map.sumOf (fun _ => RequestTask.unretired) s.tasks
    + tr.countP fun e => endsUnstarted e.pre e.act
  credit : s.shared.completedRequests = s.shared.ledger.finishedRequests
    + tr.countP fun e => abortsShort e.pre e.act
  emission : completions (tr.flatMap Entry.out) + Map.sumOf (fun _ => RequestTask.emits) s.tasks
    = flag s.shared.hasEmittedCompleted
  began : 1 ≤ s.shared.completedRequests → s.shared.hasEmittedStarted = true
  emitted : s.shared.hasEmittedCompleted = true → 1 ≤ s.shared.completedRequests

theorem books_new (totalCollectionSize : Nat) : Books [] (Session.new totalCollectionSize) where
  served := by
    intro key t h
    cases h
  balance := rfl
  credit := rfl
  emission := rfl
  began := by
    intro h
    exact absurd h (Nat.not_succ_le_zero 0)
  emitted := by
    intro h
    cases h

section

variable {tr : List (Entry Session Action ShareEvent)} {s s' : Session} {key : RequestKey}
  {sh' : Shared} {t : RequestTask} {t' : Option RequestTask} {a : Action} {out : List ShareEvent}

theorem putTask_shared : (s.putTask key sh' t').shared = sh' := by
  cases t' with
  | none => rfl
  | some t' => rfl

theorem lookup_putTask_of_ne {other : RequestKey} (hne : other ≠ key) :
    (s.putTask key sh' t').tasks.lookup other = s.tasks.lookup other := by
  cases t' with
  | none => exact AList.lookup_erase_ne hne
  | some t' => exact AList.lookup_insert_ne hne

theorem lookup_putTask : (s.putTask key sh' t').tasks.lookup key = t' := by
  cases t' with
  | none => exact AList.lookup_erase _ _
  | some t' => exact AList.lookup_insert _

theorem sumOf_putTask (f : RequestTask → Nat) (htask : s.tasks.lookup key = some t) :
    Map.sumOf (fun _ => f) (s.putTask key sh' t').tasks + f t
      = Map.sumOf (fun _ => f) s.tasks + t'.elim 0 f := by
  have hold : Map.sumOf (fun _ => f) s.tasks
      = f t + Map.sumOf (fun _ => f) (s.tasks.erase key) := Map.sumOf_erase _ htask
  cases t' with
  | none =>
    show Map.sumOf (fun _ => f) (s.tasks.erase key) + f t = Map.sumOf (fun _ => f) s.tasks + 0
    omega
  | some t' =>
    have hnew : Map.sumOf (fun _ => f) (s.tasks.insert key t')
        = f t' + Map.sumOf (fun _ => f) (s.tasks.erase key) := Map.sumOf_insert _ _ _ _
    show Map.sumOf (fun _ => f) (s.tasks.insert key t') + f t = Map.sumOf (fun _ => f) s.tasks + f t'
    omega

theorem completions_append (past now : List ShareEvent) :
    completions (past ++ now) = completions past + completions now := List.countP_append

theorem unretired_le (hb : Books tr s) (htask : s.tasks.lookup key = some t) :
    t.unretired ≤ s.shared.activeRequests := by
  have hold : Map.sumOf (fun _ => RequestTask.unretired) s.tasks
      = t.unretired + Map.sumOf (fun _ => RequestTask.unretired) (s.tasks.erase key) :=
    Map.sumOf_erase _ htask
  have hbalance := hb.balance
  omega

theorem Books.move (hb : Books tr s) (htask : s.tasks.lookup key = some t)
    (hm : Moves key (flag (endsUnstarted s a)) (flag (abortsShort s a)) s.shared t sh' t' out) :
    Books (tr ++ [⟨s, a, s.putTask key sh' t', out⟩]) (s.putTask key sh' t') := by
  have hunretired := @sumOf_putTask s key sh' t t' RequestTask.unretired htask
  have hemits := @sumOf_putTask s key sh' t t' RequestTask.emits htask
  have hmoved := hm.balance (unretired_le hb htask)
  have hbalance := hb.balance
  have hcredit := hb.credit
  have hemission := hb.emission
  have hmcredit := hm.credit
  have hmemission := hm.emission
  refine ⟨?_, ?_, ?_, ?_, ?_, ?_⟩
  · intro other u hu
    rw [putTask_shared]
    by_cases hkey : other = key
    · subst hkey
      rw [lookup_putTask] at hu
      exact hm.served u hu
    · rw [lookup_putTask_of_ne hkey] at hu
      exact (hb.served other u hu).frame hm.frame hkey
  · rw [putTask_shared, List.countP_append, List.countP_singleton]
    show sh'.activeRequests = sh'.completedRequests
      + Map.sumOf (fun _ => RequestTask.unretired) (s.putTask key sh' t').tasks
      + (tr.countP (fun e => endsUnstarted e.pre e.act) + flag (endsUnstarted s a))
    omega
  · rw [putTask_shared, List.countP_append, List.countP_singleton]
    show sh'.completedRequests = sh'.ledger.finishedRequests
      + (tr.countP (fun e => abortsShort e.pre e.act) + flag (abortsShort s a))
    omega
  · rw [putTask_shared, List.flatMap_append, completions_append, List.flatMap_singleton]
    show completions (tr.flatMap Entry.out) + completions out
      + Map.sumOf (fun _ => RequestTask.emits) (s.putTask key sh' t').tasks
      = flag sh'.hasEmittedCompleted
    omega
  · rw [putTask_shared]
    intro hcompleted
    rcases hm.counted with hsame | hstarted
    · exact hm.frame.started (hb.began (hsame ▸ hcompleted))
    · exact hm.frame.started hstarted
  · rw [putTask_shared]
    intro hemitted
    have hfinished := hm.frame.finished
    rcases hm.emitted hemitted with hbefore | hcredited
    · have hcompleted := hb.emitted hbefore
      omega
    · omega

/-- A step that changes neither the futures nor the shared data. -/
theorem Books.same (hb : Books tr s) (hshared : s'.shared = s.shared) (htasks : s'.tasks = s.tasks)
    (hlost : endsUnstarted s a = false) (hshort : abortsShort s a = false)
    (hout : completions out = 0) : Books (tr ++ [⟨s, a, s', out⟩]) s' := by
  refine ⟨?_, ?_, ?_, ?_, ?_, ?_⟩
  · rw [hshared, htasks]
    exact hb.served
  · rw [hshared, htasks, List.countP_append, List.countP_singleton]
    simpa [hlost] using hb.balance
  · rw [hshared, List.countP_append, List.countP_singleton]
    simpa [hshort] using hb.credit
  · rw [hshared, htasks, List.flatMap_append, completions_append, List.flatMap_singleton, hout]
    exact hb.emission
  · rw [hshared]
    exact hb.began
  · rw [hshared]
    exact hb.emitted

theorem served_new (sh : Shared) (probe : Bool) : Served key sh (.new probe) where
  probe := fun _ => ⟨rfl, rfl⟩
  listed := by
    intro h
    cases h
  began := by
    intro h
    cases h
  completed := by
    intro h
    cases h
  ended := by
    intro h
    cases h
  credited := False.elim

theorem Books.received (hb : Books tr s) (hfresh : s.tasks.lookup key = none) (probe : Bool) :
    Books (tr ++ [⟨s, .getRequestReceived key probe, s.received key probe, []⟩])
      (s.received key probe) := by
  have hsum : ∀ f : RequestTask → Nat, Map.sumOf (fun _ => f) (s.received key probe).tasks
      = f (.new probe) + Map.sumOf (fun _ => f) s.tasks := by
    intro f
    have hinsert : Map.sumOf (fun _ => f) (s.received key probe).tasks
        = f (.new probe) + Map.sumOf (fun _ => f) (s.tasks.erase key) := Map.sumOf_insert _ _ _ _
    rwa [Map.erase_of_lookup_none hfresh] at hinsert
  have hshared : (s.received key probe).shared.ledger = s.shared.ledger ∧
      (s.received key probe).shared.completedRequests = s.shared.completedRequests ∧
      (s.received key probe).shared.hasEmittedStarted = s.shared.hasEmittedStarted ∧
      (s.received key probe).shared.hasEmittedCompleted = s.shared.hasEmittedCompleted := by
    cases probe with
    | true => exact ⟨rfl, rfl, rfl, rfl⟩
    | false => exact ⟨rfl, rfl, rfl, rfl⟩
  obtain ⟨hledger, hcompleted, hstarted, hemitted⟩ := hshared
  refine ⟨?_, ?_, ?_, ?_, ?_, ?_⟩
  · intro other u hu
    by_cases hkey : other = key
    · subst hkey
      rw [show (s.received other probe).tasks.lookup other = some (.new probe) from
        AList.lookup_insert _] at hu
      cases hu
      exact served_new _ probe
    · rw [show (s.received key probe).tasks.lookup other = s.tasks.lookup other from
        AList.lookup_insert_ne hkey] at hu
      have hserved := hb.served other u hu
      exact ⟨hserved.probe, hledger ▸ hserved.listed, hstarted ▸ hserved.began, hserved.completed,
        hserved.ended, hledger ▸ hserved.credited⟩
  · rw [hsum, hcompleted, List.countP_append, List.countP_singleton]
    have hbalance := hb.balance
    cases probe with
    | true =>
      show s.shared.activeRequests = s.shared.completedRequests
        + (0 + Map.sumOf (fun _ => RequestTask.unretired) s.tasks) + (_ + 0)
      omega
    | false =>
      show s.shared.activeRequests + 1 = s.shared.completedRequests
        + (1 + Map.sumOf (fun _ => RequestTask.unretired) s.tasks) + (_ + 0)
      omega
  · rw [hcompleted, hledger, List.countP_append, List.countP_singleton]
    exact hb.credit
  · rw [hsum, hemitted, List.flatMap_append, completions_append, List.flatMap_singleton]
    have hemission := hb.emission
    have hnew : RequestTask.emits (.new probe) = 0 := rfl
    show completions (tr.flatMap Entry.out) + 0
      + (RequestTask.emits (.new probe) + Map.sumOf (fun _ => RequestTask.emits) s.tasks) = _
    omega
  · rw [hcompleted, hstarted]
    exact hb.began
  · rw [hcompleted, hemitted]
    exact hb.emitted

theorem Books.conclude (hb : Books tr s) :
    Books (tr ++ [⟨s, .finish, s.conclude.1, s.conclude.2⟩]) s.conclude.1 := by
  rw [Session.conclude]
  split
  · rename_i hcond
    refine ⟨?_, ?_, ?_, ?_, hb.began, fun _ => hcond.2.1⟩
    · intro other u hu
      exact (hb.served other u hu).keep ⟨fun _ _ h => h, Nat.le_refl _, id⟩ id
    · rw [List.countP_append, List.countP_singleton]
      exact hb.balance
    · rw [List.countP_append, List.countP_singleton]
      exact hb.credit
    · rw [List.flatMap_append, completions_append, List.flatMap_singleton]
      have hemission := hb.emission
      rw [hcond.2.2] at hemission
      show completions (tr.flatMap Entry.out) + 1
        + Map.sumOf (fun _ => RequestTask.emits) s.tasks = 1
      have hzero : flag false = 0 := rfl
      omega
  · exact hb.same rfl rfl rfl rfl rfl

end

theorem books_step {tr : List (Entry Session Action ShareEvent)} {s s' : Session} {a : Action}
    {out : List ShareEvent} (hb : Books tr s) (h : machine.step s a = some (s', out)) :
    Books (tr ++ [⟨s, a, s', out⟩]) s' := by
  cases step_case h with
  | clientConnected _ => exact hb.same rfl rfl rfl rfl rfl
  | received _ fresh => exact hb.received fresh _
  | @probeUpdate key u due t task probe =>
    have hshort : abortsShort s (.update key u due) = false := by
      cases u <;> simp [abortsShort, task, probe]
    exact hb.same rfl rfl rfl hshort rfl
  | @probeEnd key t task probe =>
    have hserved := hb.served key t task
    have hidle : t.emits = 0 := by simp [RequestTask.emits, (hserved.probe probe).1]
    have hlost : endsUnstarted s (.streamEnd key) = false := by
      simp [endsUnstarted, task, probe]
    refine hb.move task ?_
    rw [hlost]
    refine ⟨Frame.refl _ _, ?_, ?_, rfl, ?_, .inl rfl, .inl⟩
    · rintro u ⟨⟩
    · intro _
      simp [RequestTask.unretired, probe, flag]
    · show 0 + flag s.shared.hasEmittedCompleted + 0 = t.emits + flag s.shared.hasEmittedCompleted
      omega
  | @update key u due t sh' t' out task receiving payload result =>
    have hserved := hb.served key t task
    refine hb.move task ?_
    cases u with
    | started index size =>
      have hm := moves_started hserved payload due index size
      rwa [result] at hm
    | progress endOffset =>
      have hm := moves_progress hserved payload receiving due endOffset
      rwa [result] at hm
    | completed =>
      have hm := moves_completed hserved payload receiving due
      rwa [result] at hm
    | aborted =>
      have hm := moves_aborted hserved payload receiving due
      have hshort : abortsShort s (.update key .aborted due)
          = (t.transferStarted && !t.requestCompleted && !s.shared.credited key) := by
        simp [abortsShort, task, payload]
      rw [hshort]
      rwa [result] at hm
  | @streamEnd key t sh' t' task receiving payload result =>
    have hm := moves_streamEnd (hb.served key t task) payload receiving
    have hlost : endsUnstarted s (.streamEnd key) = !t.transferStarted := by
      simp [endsUnstarted, task, payload]
    refine hb.move task ?_
    rw [hlost]
    rwa [result] at hm
  | wake task result => exact hb.move task (moves_wake (hb.served _ _ task) result)
  | channelClosed _ => exact hb.same rfl rfl rfl rfl rfl
  | finish _ _ => exact hb.conclude

theorem books_run {totalCollectionSize : Nat} {ok : Session → Action → Prop}
    {tr : List (Entry Session Action ShareEvent)} {s : Session}
    (hrun : Run machine ok (Session.new totalCollectionSize) tr s) : Books tr s :=
  hrun.invariant (I := Books) (books_new totalCollectionSize) fun hb _ hs => books_step hb hs

/-! ## The completed peers -/

theorem countP_entries_eq_zero {σ α ω : Type} {p : σ → α → Bool} {tr : List (Entry σ α ω)} :
    tr.countP (fun e => p e.pre e.act) = 0 ↔ ∀ e ∈ tr, p e.pre e.act = false := by
  rw [List.countP_eq_zero]
  constructor
  · intro h e he
    exact Bool.eq_false_iff.mpr (h e he)
  · intro h e he
    rw [h e he]
    exact Bool.false_ne_true

/-- The counter is the number of credited retirements exactly as long as no request was aborted short
of the payload. -/
theorem completedRequests_eq_iff (totalCollectionSize : Nat)
    (tr : List (Entry Session Action ShareEvent)) (s : Session)
    (hrun : Run machine anyStep (Session.new totalCollectionSize) tr s) :
    s.shared.completedRequests = s.shared.ledger.finishedRequests ↔
      ∀ e ∈ tr, abortsShort e.pre e.act = false := by
  have hcredit := (books_run hrun).credit
  rw [← countP_entries_eq_zero]
  omega

/-- A peer that pulls all of a share of ten bytes. -/
def pullsAll (key : RequestKey) : List Action :=
  [.getRequestReceived key false, .update key (.started 2 10) false, .update key (.progress 10) false,
    .update key .completed false]

/-- A peer that gives up after four of ten bytes. -/
def givesUp (key : RequestKey) : List Action :=
  [.getRequestReceived key false, .update key (.started 2 10) false, .update key (.progress 4) false,
    .update key .aborted false]

theorem completedRequests_eq_pulledAll :
    ∃ tr s, Run machine anyStep (Session.new 10) tr s ∧ (∀ e ∈ tr, abortsShort e.pre e.act = false) ∧
      s.shared.completedRequests = 1 ∧
      s.shared.completedRequests = s.shared.ledger.finishedRequests := by
  obtain ⟨tr, s, hrun, htest⟩ := Run.of_check machine anyStep (Session.new 10) (pullsAll (1, 0))
    (fun tr s => decide ((∀ e ∈ tr, abortsShort e.pre e.act = false)
      ∧ s.shared.completedRequests = 1)) (by decide +kernel)
  obtain ⟨hshort, hone⟩ := of_decide_eq_true htest
  exact ⟨tr, s, hrun, hshort, hone, (completedRequests_eq_iff 10 tr s hrun).mpr hshort⟩

theorem counts_aborted : ∃ tr s, Run machine anyStep (Session.new 10) tr s ∧
    s.shared.completedRequests = 1 ∧ s.shared.ledger.finishedRequests = 0 := by
  obtain ⟨tr, s, hrun, htest⟩ := Run.of_check machine anyStep (Session.new 10) (givesUp (1, 0))
    (fun _ s => decide (s.shared.completedRequests = 1 ∧ s.shared.ledger.finishedRequests = 0))
    (by decide +kernel)
  exact ⟨tr, s, hrun, of_decide_eq_true htest⟩

/-! ## The end of a session -/

/-- The progress task is through: the channel is closed, every future ended and the last check made. -/
structure Concluded (s : Session) : Prop where
  closed : s.channelOpen = false
  drained : s.tasks.entries = []
  checked : s.shared.activeRequests ≤ s.shared.completedRequests → 1 ≤ s.shared.completedRequests →
    s.shared.hasEmittedCompleted = true

theorem lookup_of_drained {s : Session} (h : s.tasks.entries = []) (key : RequestKey) :
    s.tasks.lookup key = none := by
  have hempty : s.tasks = ∅ := AList.ext h
  rw [hempty]
  exact AList.lookup_empty _

theorem concluded_step {s s' : Session} {a : Action} {out : List ShareEvent}
    (hs : s.finished = true → Concluded s) (h : machine.step s a = some (s', out)) :
    s'.finished = true → Concluded s' := by
  intro hfinished
  -- once the last check is made there is no future left and no message comes in
  have hlistening : s.channelOpen = true → s.finished ≠ true := by
    intro hopen hdone
    rw [(hs hdone).closed] at hopen
    cases hopen
  have htasks : ∀ {key t}, s.tasks.lookup key = some t → s.finished ≠ true := by
    intro key t htask hdone
    have hnone := lookup_of_drained (hs hdone).drained key
    rw [htask] at hnone
    cases hnone
  have hput : ∀ {key t sh' t'}, s.tasks.lookup key = some t →
      (s.putTask key sh' t').finished = true → False := by
    intro key t sh' t' htask hdone
    cases t' with
    | none => exact htasks htask hdone
    | some t' => exact htasks htask hdone
  cases step_case h with
  | clientConnected listening => exact absurd hfinished (hlistening listening)
  | received listening fresh => exact absurd hfinished (hlistening listening)
  | probeUpdate task probe => exact absurd hfinished (htasks task)
  | probeEnd task probe => exact (hput task hfinished).elim
  | update task receiving payload result => exact (hput task hfinished).elim
  | streamEnd task receiving payload result => exact (hput task hfinished).elim
  | wake task result => exact (hput task hfinished).elim
  | channelClosed listening => exact absurd hfinished (hlistening listening)
  | finish closed drained =>
    rw [Session.conclude]
    split
    · exact ⟨closed, drained, fun _ _ => rfl⟩
    · rename_i hcond
      refine ⟨closed, drained, ?_⟩
      intro hactive hcompleted
      by_contra hemitted
      exact hcond ⟨hactive, hcompleted, by simpa using hemitted⟩

theorem concluded_run {totalCollectionSize : Nat} {ok : Session → Action → Prop}
    {tr : List (Entry Session Action ShareEvent)} {s : Session}
    (hrun : Run machine ok (Session.new totalCollectionSize) tr s) :
    s.finished = true → Concluded s := by
  refine hrun.stateInvariant (I := fun s => s.finished = true → Concluded s) ?_ ?_
  · intro h
    cases h
  · intro s s' a out hs _ hstep
    exact concluded_step hs hstep

/-- Every payload request reports something before its updates end. -/
def ReportsFirst (s : Session) (a : Action) : Prop := endsUnstarted s a = false

instance (s : Session) (a : Action) : Decidable (ReportsFirst s a) :=
  inferInstanceAs (Decidable (_ = _))

/-- At the end of a session whose requests all reported, the end of the transfer was shown once if
anything was completed, and never otherwise. -/
theorem completions_eq {totalCollectionSize : Nat} {ok : Session → Action → Prop}
    (hok : ∀ s a, ok s a → ReportsFirst s a)
    {tr : List (Entry Session Action ShareEvent)} {s : Session}
    (hrun : Run machine ok (Session.new totalCollectionSize) tr s) (hfinished : s.finished = true) :
    completions (tr.flatMap Entry.out) = if 1 ≤ s.shared.completedRequests then 1 else 0 := by
  have hb := books_run hrun
  have hconcluded := concluded_run hrun hfinished
  have hnone : tr.countP (fun e => endsUnstarted e.pre e.act) = 0 := by
    rw [countP_entries_eq_zero]
    intro e he
    obtain ⟨_, _, _, hreports, _⟩ := hrun.of_mem he
    exact hok _ _ hreports
  have hsum : ∀ f : RequestTask → Nat, Map.sumOf (fun _ => f) s.tasks = 0 := by
    intro f
    rw [Map.sumOf, hconcluded.drained]
    rfl
  have hbalance := hb.balance
  have hemission := hb.emission
  rw [hsum, hnone] at hbalance
  rw [hsum] at hemission
  split
  · rename_i hcompleted
    rw [hconcluded.checked (by omega) hcompleted] at hemission
    exact hemission
  · rename_i hcompleted
    cases hemitted : s.shared.hasEmittedCompleted with
    | true => exact absurd (hb.emitted hemitted) hcompleted
    | false =>
      rw [hemitted] at hemission
      exact hemission

/-- If every payload request reports before it ends, the end of the transfer is shown exactly once for
a session that delivered the payload and not at all for another one, unless all it counted are
requests aborted short. -/
theorem completion_shown_iff (totalCollectionSize : Nat)
    (tr : List (Entry Session Action ShareEvent)) (s : Session)
    (hrun : Run machine ReportsFirst (Session.new totalCollectionSize) tr s)
    (hfinished : s.finished = true) :
    ((1 ≤ s.shared.ledger.finishedRequests → completions (tr.flatMap Entry.out) = 1) ∧
      (s.shared.ledger.finishedRequests = 0 → completions (tr.flatMap Entry.out) = 0)) ↔
      1 ≤ s.shared.ledger.finishedRequests ∨ ∀ e ∈ tr, abortsShort e.pre e.act = false := by
  have hcredit := (books_run hrun).credit
  rw [completions_eq (fun _ _ h => h) hrun hfinished, ← countP_entries_eq_zero]
  constructor
  · rintro ⟨_, hnone⟩
    by_cases hfin : s.shared.ledger.finishedRequests = 0
    · have hzero := hnone hfin
      split at hzero <;> omega
    · omega
  · intro hcond
    refine ⟨?_, ?_⟩
    · intro hfin
      rw [if_pos (by omega)]
    · intro hfin
      rw [if_neg (by omega)]

/-- The channel closes and the futures, all at their updates, end. -/
def closes (keys : List RequestKey) : List Action :=
  .channelClosed :: keys.map .streamEnd ++ [.finish]

/-- One peer pulls everything while another one gives up: the end is shown once. -/
theorem completion_shown_besideAbort :
    ∃ tr s, Run machine ReportsFirst (Session.new 10) tr s ∧ s.finished = true ∧
      1 ≤ s.shared.ledger.finishedRequests ∧ (∃ e ∈ tr, abortsShort e.pre e.act = true) ∧
      completions (tr.flatMap Entry.out) = 1 := by
  obtain ⟨tr, s, hrun, htest⟩ := Run.of_check machine ReportsFirst (Session.new 10)
    (.getRequestReceived (2, 0) false :: pullsAll (1, 0)
      ++ [.update (2, 0) (.started 2 10) false, .update (2, 0) .aborted false]
      ++ closes [(1, 0), (2, 0)])
    (fun tr s => decide (s.finished = true ∧ 1 ≤ s.shared.ledger.finishedRequests
      ∧ ∃ e ∈ tr, abortsShort e.pre e.act = true)) (by decide +kernel)
  obtain ⟨hfinished, hcredited, hshort⟩ := of_decide_eq_true htest
  exact ⟨tr, s, hrun, hfinished, hcredited, hshort,
    ((completion_shown_iff 10 tr s hrun hfinished).mpr (.inl hcredited)).1 hcredited⟩

/-- A session that delivered nothing shows the end of a transfer; one that delivered everything to one
peer, while another peer's request never started, does not. -/
theorem completion_misreported :
    (∃ tr s, Run machine anyStep (Session.new 10) tr s ∧ s.finished = true ∧
      s.shared.ledger.finishedRequests = 0 ∧ completions (tr.flatMap Entry.out) = 1) ∧
    ∃ tr s, Run machine anyStep (Session.new 10) tr s ∧ s.finished = true ∧
      s.shared.ledger.finishedRequests = 1 ∧ completions (tr.flatMap Entry.out) = 0 := by
  refine ⟨?_, ?_⟩
  · obtain ⟨tr, s, hrun, htest⟩ := Run.of_check machine anyStep (Session.new 10)
      (givesUp (1, 0) ++ closes [(1, 0)])
      (fun tr s => decide (s.finished = true ∧ s.shared.ledger.finishedRequests = 0
        ∧ completions (tr.flatMap Entry.out) = 1)) (by decide +kernel)
    exact ⟨tr, s, hrun, of_decide_eq_true htest⟩
  · obtain ⟨tr, s, hrun, htest⟩ := Run.of_check machine anyStep (Session.new 10)
      (.getRequestReceived (2, 0) false :: pullsAll (1, 0) ++ closes [(1, 0), (2, 0)])
      (fun tr s => decide (s.finished = true ∧ s.shared.ledger.finishedRequests = 1
        ∧ completions (tr.flatMap Entry.out) = 0)) (by decide +kernel)
    exact ⟨tr, s, hrun, of_decide_eq_true htest⟩

end DashBeam.Share

import DashBeam.Receive.PartialStore
import DashBeam.Receive.Row

/-!
# Partial stores that nothing frees any more

A partial-receive directory that outlives its receive can be freed in two ways: through a history row
whose `resumable_store_path` names it, or by the next `receive_file`, which finds its hash in
`last_cancelled_recv_hash`. Both pointers are given up before the directory is removed, and the removal
may fail; a row can also be dropped at the cap, and the recorded hash can be overwritten by an attempt
with an unparseable ticket. The directory then stays in the temp dir until the next launch sweeps it
(`stranded_runs`).

While a receive or a command runs, the hold on a directory may pass through it: a row that was deleted is
in the hands of the command that will reclaim it, the hash of a running download will be recorded or its
store removed. `Held` says that somebody has the directory. As long as no step gives up the last hold on
a directory that stays on disk (`KeepsHold`), every directory stays held, and once nothing runs any more
only a row, the recorded hash or a spawned removal can hold it (`none_stranded`).
-/

namespace DashBeam.Receive

open Lib

/-! ## The history with the rows of shares -/

/-- What reaches the history and the partial stores: the steps of the receive commands, and the rows a
share opens and closes in the same history. -/
inductive HistoryAct
  | app (a : Act)
  | openShareRow (id : String) (blobHash : Option String) (io : Bool)
  | closeShareRow (id : String) (status : TransferStatus) (io : Bool)
  deriving DecidableEq, Repr

def historyStep (fs : FileSystem) (s : State) : HistoryAct → Option (State × List Out)
  | .app a => step fs s a
  -- The context of a share has no `resumable_store_path`.
  | .openShareRow id blobHash io =>
    some ({ s with
      rows := if io then openRecord s.rows ⟨id, .inProgress, blobHash, none⟩ else s.rows }, [])
  | .closeShareRow id status io =>
    some ({ s with
      rows := if io then updateRecord s.rows id (finalizeRecord status) else s.rows }, [])

def historyMachine (fs : FileSystem) : Machine State HistoryAct Out := ⟨historyStep fs⟩

/-! ## Who can free a store -/

/-- The `resumable_store_path` of the row is the partial store of `h`. -/
def PointsAt (fs : FileSystem) (record : TransferRecord) (h : String) : Prop :=
  record.resumableStorePath = some (partialStorePathFor fs h)

instance (fs : FileSystem) (record : TransferRecord) (h : String) : Decidable (PointsAt fs record h) :=
  inferInstanceAs (Decidable (_ = _))

def Pointed (fs : FileSystem) (rows : List TransferRecord) (h : String) : Prop :=
  ∃ record ∈ rows, PointsAt fs record h

instance (fs : FileSystem) (rows : List TransferRecord) (h : String) : Decidable (Pointed fs rows h) :=
  inferInstanceAs (Decidable (∃ record ∈ rows, _))

/-- The user can free the store of `h` through its row, or the next receive finds its hash. -/
def Freeable (fs : FileSystem) (s : State) (h : String) : Prop :=
  Pointed fs s.rows h ∨ s.app.lastCancelledRecvHash = some h

instance (fs : FileSystem) (s : State) (h : String) : Decidable (Freeable fs s h) :=
  inferInstanceAs (Decidable (_ ∨ _))

/-- The store of `h` is on disk, nothing can free it, and no removal of it has been spawned. -/
def Stranded (fs : FileSystem) (s : State) (h : String) : Prop :=
  h ∈ s.stores ∧ ¬ Freeable fs s h ∧ h ∉ s.deferred

instance (fs : FileSystem) (s : State) (h : String) : Decidable (Stranded fs s h) :=
  inferInstanceAs (Decidable (_ ∧ _ ∧ _))

/-- No receive and no history command is running. -/
def Idle (s : State) : Prop :=
  (∀ x ∈ s.receives, x.phase = .done) ∧ ∀ c ∈ s.commands, c = .done

instance (s : State) : Decidable (Idle s) :=
  inferInstanceAs (Decidable ((∀ x ∈ s.receives, _) ∧ ∀ c ∈ s.commands, _))

abbrev HistoryEntry := Entry State HistoryAct Out

/-- The step is the `create_recv_store` of a receive of `h`. -/
def opensStore (h : String) (e : HistoryEntry) : Bool :=
  match e.act with
  | .app (.receive r .next _ _) =>
    (e.pre.receives[r]?).any fun x =>
      decide (x.phase = .download .openStore) && decide (x.hash = some h)
  | _ => false

/-- When nothing runs, no store is stranded, the ones apart that were so at launch and that no receive has
opened since. -/
def NoneStranded (fs : FileSystem) (launch : State) (tr : List HistoryEntry) (s : State) : Prop :=
  Idle s → ∀ h, ¬ Stranded fs launch h ∨ (∃ e ∈ tr, opensStore h e = true) → ¬ Stranded fs s h

/-! ## Who holds a store -/

/-- A receive at this place hands the store of `h` on: it is about to remove it, or it will record its hash
or spawn its removal. -/
def Phase.holds (hash : Option String) (h : String) : Phase → Bool
  | .removeStale stale => stale = h
  | .install | .download _ | .epilogue (.err _) => hash = some h
  | .start | .epilogue .ok | .finalize _ | .done => false

/-- A command that took a row out of the history is about to reclaim its store. -/
def Command.Holds (fs : FileSystem) (h : String) : Command → Prop
  | .reclaim records => Pointed fs records h
  | .tempFound _ | .tempChecked _ | .tempReclaimed _ | .done => False

instance (fs : FileSystem) (h : String) : ∀ c : Command, Decidable (c.Holds fs h)
  | .reclaim records => inferInstanceAs (Decidable (Pointed fs records h))
  | .tempFound _ | .tempChecked _ | .tempReclaimed _ | .done => .isFalse id

/-- Somebody has the store of `h`. -/
inductive Held (fs : FileSystem) (s : State) (h : String) : Prop
  | freeable : Freeable fs s h → Held fs s h
  | deferred : h ∈ s.deferred → Held fs s h
  | receive {x : Invocation} : x ∈ s.receives → x.phase.holds x.hash h = true → Held fs s h
  | command {c : Command} : c ∈ s.commands → c.Holds fs h → Held fs s h

theorem held_iff {fs : FileSystem} {s : State} {h : String} :
    Held fs s h ↔ Freeable fs s h ∨ h ∈ s.deferred ∨
      (∃ x ∈ s.receives, x.phase.holds x.hash h = true) ∨ ∃ c ∈ s.commands, c.Holds fs h := by
  constructor
  · rintro (hfree | hdeferred | ⟨hx, hholds⟩ | ⟨hc, hholds⟩)
    · exact .inl hfree
    · exact .inr (.inl hdeferred)
    · exact .inr (.inr (.inl ⟨_, hx, hholds⟩))
    · exact .inr (.inr (.inr ⟨_, hc, hholds⟩))
  · rintro (hfree | hdeferred | ⟨x, hx, hholds⟩ | ⟨c, hc, hholds⟩)
    · exact .freeable hfree
    · exact .deferred hdeferred
    · exact .receive hx hholds
    · exact .command hc hholds

instance (fs : FileSystem) (s : State) (h : String) : Decidable (Held fs s h) :=
  decidable_of_iff' _ held_iff

/-! ## Giving up the last hold -/

/-- Whatever a row points at on disk is held when only `rows` are left of the history. -/
def RowsKeep (fs : FileSystem) (s : State) (rows : List TransferRecord) : Prop :=
  ∀ h ∈ s.stores, Pointed fs s.rows h → Held fs { s with rows := rows } h

instance (fs : FileSystem) (s : State) (rows : List TransferRecord) : Decidable (RowsKeep fs s rows) :=
  inferInstanceAs (Decidable (∀ h ∈ s.stores, _))

/-- The receive opens its row in this step. -/
def opensRow (x : Invocation) (p : Progress) (io : Bool) : Bool :=
  decide (x.phase = .download .queryStore) && (decide (p = .next) || decide (p = .complete)) &&
    (io && x.recording && x.row.isNone)

/-- The row the receive closes as completed in this step. -/
def completedRow (x : Invocation) (p : Progress) (io : Bool) : Option String :=
  if io && !x.finalized && (findsComplete x p ||
    decide (x.phase = .download .exporting) && decide (p = .next)) then x.row else none

/-- What a step of a receive gives up is gone from disk or held otherwise. -/
def ReceiveKeeps (fs : FileSystem) (s : State) (r : Nat) (x : Invocation) (p : Progress) (io : Bool) :
    Prop :=
  match x.phase with
  | .removeStale stale =>
    io = true ∨ stale ∉ s.stores ∨ Held fs (setReceive s r { x with phase := .done }) stale
  | .install => s.app.currentReceiveCancel.isSome = true →
      ∀ h ∈ s.stores, x.hash = some h → Held fs (setReceive s r { x with phase := .done }) h
  | .download _ =>
    (opensRow x p io = true → RowsKeep fs s (s.rows.take (maxRecords - 1))) ∧
      ∀ id ∈ completedRow x p io,
        RowsKeep fs s (updateRecord s.rows id (finalizeRecord .completed))
  | .epilogue (.err _) => ∀ h ∈ s.stores, s.app.lastCancelledRecvHash = some h →
      Held fs { s with app := { s.app with lastCancelledRecvHash := none } } h
  | .start | .epilogue .ok | .finalize _ | .done => True

/-- The row of `clear_transfer_temp_data` loses its pointer. -/
def forgetStore (record : TransferRecord) : TransferRecord := { record with resumableStorePath := none }

def CommandKeeps (fs : FileSystem) (s : State) (c : Nat) (io : Bool) : Command → Prop
  | .reclaim (record :: rest) => ∀ h ∈ s.stores, PointsAt fs record h →
      (io = true ∧ reclaimTarget fs record = some h) ∨
        Held fs { s with commands := s.commands.set c (.reclaim rest) } h
  | .tempReclaimed record =>
    io = true → RowsKeep fs s (updateRecord s.rows record.id forgetStore)
  | .reclaim [] | .tempFound _ | .tempChecked _ | .done => True

/-- The step does not give up the last hold on a store that stays on disk. -/
def KeepsHold (fs : FileSystem) (s : State) : HistoryAct → Prop
  | .app (.receive r p io _) => ∀ x ∈ s.receives[r]?, ReceiveKeeps fs s r x p io
  | .app (.command c io) => ∀ cmd ∈ s.commands[c]?, CommandKeeps fs s c io cmd
  | .app (.cleanup io) => io = true ∨ ∀ h ∈ s.deferred.head?, h ∈ s.stores →
      Held fs { s with deferred := s.deferred.tail } h
  | .openShareRow _ _ io => io = true → RowsKeep fs s (s.rows.take (maxRecords - 1))
  | .closeShareRow id status io =>
    io = true → RowsKeep fs s (updateRecord s.rows id (finalizeRecord status))
  | .app _ => True

instance (fs : FileSystem) (s : State) (r : Nat) (x : Invocation) (p : Progress) (io : Bool) :
    Decidable (ReceiveKeeps fs s r x p io) := by
  unfold ReceiveKeeps
  split
  all_goals infer_instance

instance (fs : FileSystem) (s : State) (c : Nat) (io : Bool) :
    ∀ cmd, Decidable (CommandKeeps fs s c io cmd)
  | .reclaim (_ :: _) => inferInstanceAs (Decidable (∀ h ∈ s.stores, _))
  | .tempReclaimed record =>
    inferInstanceAs (Decidable (io = true → RowsKeep fs s (updateRecord s.rows record.id forgetStore)))
  | .reclaim [] | .tempFound _ | .tempChecked _ | .done => .isTrue trivial

instance (fs : FileSystem) (s : State) : ∀ a, Decidable (KeepsHold fs s a)
  | .app (.receive r p io _) =>
    inferInstanceAs (Decidable (∀ x ∈ s.receives[r]?, ReceiveKeeps fs s r x p io))
  | .app (.command c io) =>
    inferInstanceAs (Decidable (∀ cmd ∈ s.commands[c]?, CommandKeeps fs s c io cmd))
  | .app (.cleanup io) =>
    inferInstanceAs (Decidable (io = true ∨ ∀ h ∈ s.deferred.head?, h ∈ s.stores → _))
  | .openShareRow _ _ io =>
    inferInstanceAs (Decidable (io = true → RowsKeep fs s (s.rows.take (maxRecords - 1))))
  | .closeShareRow id status io =>
    inferInstanceAs (Decidable (io = true →
      RowsKeep fs s (updateRecord s.rows id (finalizeRecord status))))
  | .app (.receiveFile _ _) | .app .cancelReceive | .app (.deleteTransferRecord _ _)
  | .app (.clearTransferHistory _) | .app (.clearTransferTempData _ _) => .isTrue trivial

/-! ## Frames -/

section

variable {fs : FileSystem} {s s' : State} {h : String}

theorem Held.grow (hheld : Held fs s h) (hrows : Pointed fs s.rows h → Pointed fs s'.rows h)
    (hlast : s.app.lastCancelledRecvHash = some h → s'.app.lastCancelledRecvHash = some h)
    (hdeferred : h ∈ s.deferred → h ∈ s'.deferred)
    (hreceives : (∃ x ∈ s.receives, x.phase.holds x.hash h = true) →
      ∃ y ∈ s'.receives, y.phase.holds y.hash h = true)
    (hcommands : (∃ c ∈ s.commands, c.Holds fs h) → ∃ d ∈ s'.commands, d.Holds fs h) :
    Held fs s' h := by
  cases hheld with
  | freeable hfree =>
    rcases hfree with hpointed | hcancelled
    · exact .freeable (.inl (hrows hpointed))
    · exact .freeable (.inr (hlast hcancelled))
  | deferred hspawned => exact .deferred (hdeferred hspawned)
  | receive hx hholds =>
    obtain ⟨y, hy, hholds'⟩ := hreceives ⟨_, hx, hholds⟩
    exact .receive hy hholds'
  | command hc hholds =>
    obtain ⟨d, hd, hholds'⟩ := hcommands ⟨_, hc, hholds⟩
    exact .command hd hholds'

theorem holds_set {receives : List Invocation} {r : Nat} {x x' : Invocation}
    (hx : receives[r]? = some x)
    (hkeep : x.phase.holds x.hash h = true → x'.phase.holds x'.hash h = true) :
    (∃ y ∈ receives, y.phase.holds y.hash h = true) →
      ∃ y' ∈ receives.set r x', y'.phase.holds y'.hash h = true := by
  rintro ⟨y, hy, hholds⟩
  by_cases heq : y = x
  · subst heq
    exact ⟨x', mem_set_self hx x', hkeep hholds⟩
  · exact ⟨y, mem_set_of_ne hx hy heq x', hholds⟩

theorem command_set {commands : List Command} {c : Nat} {cmd cmd' : Command}
    (hcmd : commands[c]? = some cmd) (hkeep : cmd.Holds fs h → cmd'.Holds fs h) :
    (∃ d ∈ commands, d.Holds fs h) → ∃ d' ∈ commands.set c cmd', d'.Holds fs h := by
  rintro ⟨d, hd, hholds⟩
  by_cases heq : d = cmd
  · subst heq
    exact ⟨cmd', mem_set_self hcmd cmd', hkeep hholds⟩
  · exact ⟨d, mem_set_of_ne hcmd hd heq cmd', hholds⟩

/-- A receive moves on and holds as much, the rest is left alone. -/
theorem Held.setReceive {r : Nat} {x x' : Invocation} (hheld : Held fs s h)
    (hx : s.receives[r]? = some x)
    (hkeep : x.phase.holds x.hash h = true → x'.phase.holds x'.hash h = true) :
    Held fs (setReceive s r x') h :=
  hheld.grow id id id (holds_set hx hkeep) id

theorem Held.reset {r : Nat} {x y z : Invocation} (hheld : Held fs (Receive.setReceive s r y) h)
    (hx : s.receives[r]? = some x)
    (hkeep : y.phase.holds y.hash h = true → z.phase.holds z.hash h = true) :
    Held fs (Receive.setReceive s r z) h := by
  have hy : (Receive.setReceive s r y).receives[r]? = some y := by
    show (s.receives.set r y)[r]? = some y
    rw [getElem?_set_of_some hx, if_pos rfl]
  have hset := hheld.setReceive hy hkeep
  rwa [show Receive.setReceive (Receive.setReceive s r y) r z = Receive.setReceive s r z by
    simp [Receive.setReceive]] at hset

theorem Held.withRows {rows : List TransferRecord} (hheld : Held fs s h) (hstore : h ∈ s.stores)
    (hkeep : RowsKeep fs s rows) : Held fs { s with rows := rows } h := by
  by_cases hpointed : Pointed fs s.rows h
  · exact hkeep h hstore hpointed
  · exact hheld.grow (fun hrow => absurd hrow hpointed) id id id id

/-- The store on disk plays no part in who holds it. -/
theorem Held.removeStore (hheld : Held fs s h) (hash : String) (io : Bool) :
    Held fs (removeStore s hash io).1 h := by
  unfold Receive.removeStore
  split
  · exact hheld.grow id id id id id
  · exact hheld

theorem mem_stores_removeStore {hash : String} {io : Bool}
    (hmem : h ∈ (removeStore s hash io).1.stores) : h ∈ s.stores ∧ (h = hash → io = false) := by
  unfold removeStore at hmem
  split at hmem
  · have herased : h ∈ s.stores.erase hash := hmem
    rw [Finset.mem_erase] at herased
    exact ⟨herased.2, fun heq => absurd heq herased.1⟩
  · rename_i hkept
    refine ⟨hmem, ?_⟩
    rintro rfl
    cases io with
    | true => exact absurd ⟨rfl, hmem⟩ hkept
    | false => rfl

theorem pointed_openRecord {rows : List TransferRecord} {record : TransferRecord}
    (hpointed : Pointed fs (rows.take (maxRecords - 1)) h) : Pointed fs (openRecord rows record) h := by
  have hopen : openRecord rows record = record :: rows.take (maxRecords - 1) := rfl
  obtain ⟨row, hrow, hpoints⟩ := hpointed
  rw [hopen]
  exact ⟨row, List.mem_cons_of_mem _ hrow, hpoints⟩

theorem pointed_updateRecord {rows : List TransferRecord} {id : String}
    {f : TransferRecord → TransferRecord} (hf : ∀ record, PointsAt fs record h → PointsAt fs (f record) h)
    (hpointed : Pointed fs rows h) : Pointed fs (updateRecord rows id f) h := by
  obtain ⟨row, hrow, hpoints⟩ := hpointed
  induction rows with
  | nil => cases hrow
  | cons first rest ih =>
    rw [updateRecord]
    rcases List.mem_cons.mp hrow with rfl | hrow
    · split
      · exact ⟨f row, List.mem_cons_self, hf row hpoints⟩
      · exact ⟨row, List.mem_cons_self, hpoints⟩
    · split
      · exact ⟨row, List.mem_cons_of_mem _ hrow, hpoints⟩
      · obtain ⟨row', hrow', hpoints'⟩ := ih hrow
        exact ⟨row', List.mem_cons_of_mem _ hrow', hpoints'⟩

end

/-! ## One step keeps every store held -/

section

variable {fs : FileSystem} {s s' : State} {r : Nat} {x x' : Invocation} {p : Progress} {io : Bool}
  {uuid h : String}

theorem openRow_if (query : x.phase = .download .queryStore) (hp : p = .next ∨ p = .complete)
    (rows : List TransferRecord) : openRow fs rows x io uuid =
      if opensRow x p io then
        (openRecord rows ⟨uuid, .inProgress, x.hash, x.hash.map (partialStorePathFor fs)⟩,
          { x with row := some uuid })
      else (rows, x) := by
  have hopens : opensRow x p io = (io && x.recording && x.row.isNone) := by
    rcases hp with rfl | rfl
    · simp [opensRow, query]
    · simp [opensRow, query]
  rw [hopens, openRow]
  cases x.recording with
  | false => simp
  | true =>
    cases x.row with
    | none => simp
    | some id => simp

theorem finalize_rows (rows : List TransferRecord) (x : Invocation) (status : TransferStatus)
    (io : Bool) : (finalize rows x status io).1 =
      match if io && !x.finalized then x.row else none with
      | none => rows
      | some id => updateRecord rows id (finalizeRecord status) := by
  unfold finalize
  cases x.row with
  | none => simp
  | some id =>
    cases x.finalized with
    | true => simp
    | false =>
      cases io with
      | true => simp
      | false => simp

theorem pointed_finalize {rows : List TransferRecord} {status : TransferStatus}
    (hstatus : status ≠ .completed) (hpointed : Pointed fs rows h) :
    Pointed fs (finalize rows x status io).1 h := by
  rw [finalize_rows]
  split
  · exact hpointed
  · refine pointed_updateRecord (fun record hpoints => ?_) hpointed
    rw [PointsAt, finalizeRecord, if_neg hstatus]
    exact hpoints

theorem Held.rowsMove {rows rows' : List TransferRecord} (hheld : Held fs { s with rows := rows } h)
    (hx : s.receives[r]? = some x)
    (hkeep : x.phase.holds x.hash h = true → x'.phase.holds x'.hash h = true)
    (hrows : Pointed fs rows h → Pointed fs rows' h) :
    Held fs { Receive.setReceive s r x' with rows := rows' } h :=
  hheld.grow hrows id id (holds_set hx hkeep) id

/-- A receive that goes on without its successful end keeps its hold. -/
theorem Goes.holds {phase : Phase} (hgoes : Goes x p phase) :
    phase.holds x.hash h = decide (x.hash = some h) := by
  cases phase with
  | download d => rfl
  | epilogue result =>
    cases result with
    | ok => exact absurd rfl hgoes.notOk
    | err e => rfl
  | start | removeStale _ | install | finalize _ | done => cases hgoes.inFlight

theorem holds_download {d d' : Download} (hphase : x.phase = .download d)
    (hphase' : x'.phase = .download d') (hhash : x'.hash = x.hash) :
    x.phase.holds x.hash h = true → x'.phase.holds x'.hash h = true := by
  rw [hphase, hphase', hhash]
  exact id

theorem Held.completed {x₁ : Invocation} (hheld : Held fs s h) (hstore : h ∈ s.stores)
    (hx : s.receives[r]? = some x)
    (hkeep : x.phase.holds x.hash h = true → x'.phase.holds x'.hash h = true)
    (hclosed : (if io && !x₁.finalized then x₁.row else none) = completedRow x p io)
    (hok : ∀ id ∈ completedRow x p io,
      RowsKeep fs s (updateRecord s.rows id (finalizeRecord .completed))) :
    Held fs { Receive.setReceive s r x' with rows := (finalize s.rows x₁ .completed io).1 } h := by
  rw [finalize_rows, hclosed]
  cases hid : completedRow x p io with
  | none => exact Held.rowsMove hheld hx hkeep id
  | some id =>
    have hrows := hheld.withRows hstore (hok id hid)
    exact hrows.rowsMove hx hkeep fun hpointed => hpointed

theorem held_download {d : Download} (hx : s.receives[r]? = some x) (hphase : x.phase = .download d)
    (hok : ReceiveKeeps fs s r x p io) (hold : h ∈ s.stores → Held fs s h)
    (hmove : DownloadMove fs s r x p io uuid s') (hmem : h ∈ s'.stores) : Held fs s' h := by
  simp only [ReceiveKeeps, hphase] at hok
  obtain ⟨hopen, hclose⟩ := hok
  have hown : x.phase.holds x.hash h = decide (x.hash = some h) := by rw [hphase]; rfl
  cases hmove with
  | goto goes =>
    refine (hold hmem).setReceive hx fun hholds => ?_
    rw [hown] at hholds
    exact goes.holds.trans hholds
  | @opens hash hhash opening =>
    by_cases heq : h = hash
    · subst heq
      refine .receive (x := { x with phase := .download .queryStore }) (mem_set_self hx _) ?_
      exact decide_eq_true hhash
    · have hstore : h ∈ s.stores := Finset.mem_of_mem_insert_of_ne hmem heq
      exact (hold hstore).grow id id id (holds_set hx (holds_download hphase rfl rfl)) id
  | announces query fresh =>
    have hheld := hold hmem
    rw [openRow_if query (.inl fresh)]
    split
    · rename_i hopens
      exact (hheld.withRows hmem (hopen hopens)).rowsMove hx (holds_download hphase rfl rfl)
        pointed_openRecord
    · exact Held.rowsMove hheld hx (holds_download hphase rfl rfl) id
  | complete query hcomplete =>
    have hheld := hold hmem
    have hfinds : findsComplete x p = true := by simp [findsComplete, query, hcomplete]
    rw [openRow_if query (.inr hcomplete)]
    split
    · rename_i hopens
      obtain ⟨b, hb⟩ := finalize_invocation _ { x with row := some uuid } .completed io
      rw [hb]
      refine (hheld.withRows hmem (hopen hopens)).rowsMove hx (holds_download hphase rfl rfl) ?_
      intro hpointed
      rw [finalize_rows]
      split
      · exact pointed_openRecord hpointed
      · rename_i id hid
        -- the row just opened is the first one with its id
        have hid' : uuid = id := by
          split at hid
          · exact Option.some.inj hid
          · cases hid
        obtain ⟨row, hrow, hpoints⟩ := hpointed
        refine ⟨row, ?_, hpoints⟩
        show row ∈ updateRecord (_ :: s.rows.take (maxRecords - 1)) id _
        rw [updateRecord, if_pos hid']
        exact List.mem_cons_of_mem _ hrow
    · obtain ⟨b, hb⟩ := finalize_invocation s.rows x .completed io
      rw [hb]
      refine hheld.completed hmem hx (holds_download hphase rfl rfl) ?_ hclose
      simp [completedRow, hfinds]
  | exported exporting last =>
    obtain ⟨b, hb⟩ := finalize_invocation s.rows x .completed io
    rw [hb]
    refine (hold hmem).completed hmem hx (holds_download hphase rfl rfl) ?_ hclose
    simp [completedRow, exporting, last]
  | @closed hash closing hhash =>
    have hheld := hold hmem
    by_cases heq : h = hash
    · subst heq
      exact .deferred (List.mem_append_right _ List.mem_cons_self)
    · refine hheld.grow id id (List.mem_append_left _) (holds_set hx fun hholds => ?_) id
      rw [hown, hhash, decide_eq_true_eq] at hholds
      exact absurd (Option.some.inj hholds).symm heq

theorem holds_epilogue (result : DownloadResult) (hx : s.receives[r]? = some x)
    (hown : x.phase.holds x.hash h ≠ true) :
    (∃ y ∈ s.receives, y.phase.holds y.hash h = true) →
      ∃ z ∈ (epilogue s r x result).receives, z.phase.holds z.hash h = true := by
  rintro ⟨y, hy, hholds⟩
  obtain ⟨j, hj⟩ := List.getElem?_of_mem hy
  have hne : r ≠ j := by
    rintro rfl
    obtain rfl := Option.some.inj (hx.symm.trans hj)
    exact hown hholds
  obtain ⟨channel, hdropped⟩ := dropSender_of_some s.app.currentReceiveCancel hj
  have hz : (epilogue s r x result).receives[j]? = some { y with channel := channel } := by
    rw [epilogue_receives, List.getElem?_modify_ne _ _ hne, hdropped]
  exact ⟨_, List.mem_of_getElem? hz, hholds⟩

theorem held_epilogue {result : DownloadResult} (hx : s.receives[r]? = some x)
    (hphase : x.phase = .epilogue result) (hok : ReceiveKeeps fs s r x p io)
    (hheld : Held fs s h) (hmem : h ∈ s.stores) : Held fs (epilogue s r x result) h := by
  by_cases hown : x.phase.holds x.hash h = true
  · rw [hphase] at hown
    cases result with
    | ok => cases hown
    | err e => exact .freeable (.inr (of_decide_eq_true hown))
  · have hothers := holds_epilogue result hx hown
    cases result with
    | ok => exact hheld.grow id id id hothers id
    | err e =>
      simp only [ReceiveKeeps, hphase] at hok
      by_cases hlast : s.app.lastCancelledRecvHash = some h
      · exact (hok h hmem hlast).grow id nofun id hothers id
      · exact hheld.grow id (fun h' => absurd h' hlast) id hothers id

theorem held_takeStale (hx : s.receives[r]? = some x) (hphase : x.phase = .start)
    (hheld : Held fs s h) : Held fs (takeStale s r x) h := by
  have hidle : ∀ {phase : Phase}, x.phase.holds x.hash h = true → phase.holds x.hash h = true := by
    intro phase hholds
    rw [hphase] at hholds
    cases hholds
  unfold takeStale
  split
  · exact hheld.setReceive hx hidle
  · rename_i new hnew
    dsimp only
    split
    · rename_i hnone
      exact hheld.grow id (fun hlast => absurd (hnone.symm.trans hlast) nofun) id
        (holds_set hx hidle) id
    · rename_i stale hstale
      by_cases heq : h = stale
      · subst heq
        refine .receive (mem_set_self hx _) ?_
        by_cases hsame : h = new
        · subst hsame
          simp [Phase.holds, hnew]
        · simp [Phase.holds, hsame]
      · refine hheld.grow id ?_ id (holds_set hx hidle) id
        intro hlast
        exact absurd (Option.some.inj (hlast.symm.trans hstale)) heq

theorem held_install (hx : s.receives[r]? = some x) (hphase : x.phase = .install)
    (hok : ReceiveKeeps fs s r x p io) (hheld : Held fs s h) (hmem : h ∈ s.stores) :
    Held fs (install s r x) h := by
  simp only [ReceiveKeeps, hphase] at hok
  unfold install
  split
  · rename_i hbusy
    by_cases hhash : x.hash = some h
    · exact (hok hbusy h hmem hhash).reset hx nofun
    · refine hheld.setReceive hx fun hholds => ?_
      rw [hphase] at hholds
      exact absurd (of_decide_eq_true hholds) hhash
  · refine hheld.grow id id id (holds_set hx fun hholds => ?_) id
    rw [hphase] at hholds
    exact hholds

theorem held_removeStale {stale : String} (hx : s.receives[r]? = some x)
    (hphase : x.phase = .removeStale stale) (hok : ReceiveKeeps fs s r x p io)
    (hold : h ∈ s.stores → Held fs s h)
    (hmem : h ∈ (removeStore (setReceive s r { x with phase := .install }) stale io).1.stores) :
    Held fs (removeStore (setReceive s r { x with phase := .install }) stale io).1 h := by
  simp only [ReceiveKeeps, hphase] at hok
  obtain ⟨hstore, hfailed⟩ := mem_stores_removeStore hmem
  refine Held.removeStore ?_ stale io
  by_cases heq : h = stale
  · subst heq
    rcases hok with hio | hgone | hheld
    · rw [hfailed rfl] at hio
      cases hio
    · exact absurd hstore hgone
    · exact hheld.reset hx nofun
  · refine (hold hstore).setReceive hx fun hholds => ?_
    rw [hphase] at hholds
    exact absurd (of_decide_eq_true hholds).symm heq

theorem held_receive {out : List Out} (hx : s.receives[r]? = some x) (hok : ReceiveKeeps fs s r x p io)
    (hold : h ∈ s.stores → Held fs s h) (hstep : receiveStep fs s r x p io uuid = some (s', out))
    (hmem : h ∈ s'.stores) : Held fs s' h := by
  unfold receiveStep at hstep
  split at hstep
  · rename_i hphase
    cases hstep
    refine held_takeStale hx hphase (hold ?_)
    unfold takeStale at hmem
    split at hmem
    · exact hmem
    · dsimp only at hmem
      split at hmem
      · exact hmem
      · exact hmem
  · rename_i stale hphase
    rw [Option.some.injEq] at hstep
    obtain rfl : s' = _ := (congrArg Prod.fst hstep).symm
    exact held_removeStale hx hphase hok hold hmem
  · rename_i hphase
    cases hstep
    have hstore : h ∈ s.stores := by
      unfold install at hmem
      split at hmem
      · exact hmem
      · exact hmem
    exact held_install hx hphase hok (hold hstore) hstore
  · rename_i d hphase
    obtain ⟨t, ht, hpair⟩ := Option.map_eq_some_iff.mp hstep
    cases hpair
    exact held_download hx hphase hok hold (downloadStep_cases hphase ht) hmem
  · rename_i result hphase
    cases hstep
    exact held_epilogue hx hphase hok (hold hmem) hmem
  · rename_i result hphase
    have hidle : ∀ {y : Invocation}, x.phase.holds x.hash h = true → y.phase.holds y.hash h = true := by
      intro y hholds
      rw [hphase] at hholds
      cases hholds
    cases result with
    | ok =>
      cases hstep
      exact (hold hmem).setReceive hx hidle
    | err e =>
      cases hstep
      have hne : (if e = "cancelled" then TransferStatus.cancelled else .failed) ≠ .completed := by
        split <;> simp
      exact Held.rowsMove (hold hmem) hx hidle (pointed_finalize hne)
  · cases hstep

/-- A history command moves on and holds as much, the rest is left alone. -/
theorem Held.setCommand {c : Nat} {cmd cmd' : Command} (hheld : Held fs s h)
    (hcmd : s.commands[c]? = some cmd) (hkeep : cmd.Holds fs h → cmd'.Holds fs h) :
    Held fs { s with commands := s.commands.set c cmd' } h :=
  hheld.grow id id id id (command_set hcmd hkeep)

theorem Held.pushCommand {cmd : Command} {rows : List TransferRecord} (hheld : Held fs s h)
    (hrows : Pointed fs s.rows h → Pointed fs rows h ∨ cmd.Holds fs h) :
    Held fs { s with rows := rows, commands := s.commands ++ [cmd] } h := by
  by_cases htaken : cmd.Holds fs h
  · exact .command (List.mem_append_right _ List.mem_cons_self) htaken
  · exact hheld.grow (fun hpointed => (hrows hpointed).resolve_right htaken) id id id
      fun ⟨c, hc, hholds⟩ => ⟨c, List.mem_append_left _ hc, hholds⟩

theorem pointed_deleteRecord {rows rows' : List TransferRecord} {id : String} {record : TransferRecord}
    (hdelete : deleteRecord rows id = some (record, rows')) (hpointed : Pointed fs rows h) :
    Pointed fs rows' h ∨ PointsAt fs record h := by
  obtain ⟨row, hrow, hpoints⟩ := hpointed
  induction rows generalizing rows' with
  | nil => cases hrow
  | cons first rest ih =>
    rw [deleteRecord] at hdelete
    split at hdelete
    · cases hdelete
      rcases List.mem_cons.mp hrow with rfl | hrow
      · exact .inr hpoints
      · exact .inl ⟨row, hrow, hpoints⟩
    · obtain ⟨⟨record', rest'⟩, hrest, heq⟩ := Option.map_eq_some_iff.mp hdelete
      cases heq
      rcases List.mem_cons.mp hrow with rfl | hrow
      · exact .inl ⟨row, List.mem_cons_self, hpoints⟩
      · rcases ih hrest hrow with ⟨row', hrow', hpoints'⟩ | hpoints'
        · exact .inl ⟨row', List.mem_cons_of_mem _ hrow', hpoints'⟩
        · exact .inr hpoints'

theorem held_reclaim {c : Nat} {record : TransferRecord} {rest : List TransferRecord} {out : List Out}
    (hcmd : s.commands[c]? = some (.reclaim (record :: rest)))
    (hok : CommandKeeps fs s c io (.reclaim (record :: rest))) (hold : h ∈ s.stores → Held fs s h)
    (hstep : commandStep fs s c (.reclaim (record :: rest)) io = some (s', out)) (hmem : h ∈ s'.stores) :
    Held fs s' h := by
  have hleft : h ∈ s.stores → (PointsAt fs record h →
      Held fs { s with commands := s.commands.set c (.reclaim rest) } h) →
      Held fs { s with commands := s.commands.set c (.reclaim rest) } h := by
    intro hstore hrecord
    by_cases hpoints : PointsAt fs record h
    · exact hrecord hpoints
    · refine (hold hstore).setCommand hcmd ?_
      rintro ⟨row, hrow, hrowpoints⟩
      rcases List.mem_cons.mp hrow with rfl | hrow
      · exact absurd hrowpoints hpoints
      · exact ⟨row, hrow, hrowpoints⟩
  simp only [commandStep] at hstep
  split at hstep
  · rename_i hnone
    cases hstep
    refine hleft hmem fun hpoints => ?_
    rcases hok h hmem hpoints with ⟨-, htarget⟩ | hheld
    · cases hnone.symm.trans htarget
    · exact hheld
  · rename_i target htarget
    rw [Option.some.injEq] at hstep
    obtain rfl : s' = _ := (congrArg Prod.fst hstep).symm
    obtain ⟨hstore, hfailed⟩ := mem_stores_removeStore hmem
    refine Held.removeStore (hleft hstore fun hpoints => ?_) target io
    rcases hok h hstore hpoints with ⟨hio, htarget'⟩ | hheld
    · rw [hfailed (Option.some.inj (htarget'.symm.trans htarget))] at hio
      cases hio
    · exact hheld

theorem held_command {c : Nat} {cmd : Command} {out : List Out} (hcmd : s.commands[c]? = some cmd)
    (hok : CommandKeeps fs s c io cmd) (hold : h ∈ s.stores → Held fs s h)
    (hstep : commandStep fs s c cmd io = some (s', out)) (hmem : h ∈ s'.stores) : Held fs s' h := by
  cases cmd with
  | reclaim records =>
    cases records with
    | nil =>
      cases hstep
      refine (hold hmem).setCommand hcmd ?_
      rintro ⟨row, hrow, -⟩
      cases hrow
    | cons record rest => exact held_reclaim hcmd hok hold hstep hmem
  | tempFound record =>
    simp only [commandStep] at hstep
    split at hstep
    · cases hstep
      exact (hold hmem).setCommand hcmd False.elim
    · split at hstep
      · cases hstep
        exact (hold hmem).setCommand hcmd False.elim
      · cases hstep
        exact (hold hmem).setCommand hcmd False.elim
  | tempChecked record =>
    simp only [commandStep] at hstep
    split at hstep
    · cases hstep
      exact (hold hmem).setCommand hcmd False.elim
    · rw [Option.some.injEq] at hstep
      obtain rfl : s' = _ := (congrArg Prod.fst hstep).symm
      exact Held.removeStore ((hold (mem_stores_removeStore hmem).1).setCommand hcmd False.elim) _ io
  | tempReclaimed record =>
    cases hstep
    have hheld : Held fs { s with
        rows := if io then updateRecord s.rows record.id forgetStore else s.rows } h := by
      cases io with
      | true => exact (hold hmem).withRows hmem (hok rfl)
      | false => exact hold hmem
    exact hheld.setCommand hcmd False.elim
  | done => cases hstep

theorem held_cancelReceive (hold : h ∈ s.stores → Held fs s h) (hmem : h ∈ (cancelReceive s).stores) :
    Held fs (cancelReceive s) h := by
  unfold cancelReceive at hmem ⊢
  split
  · rename_i hnone
    rw [hnone] at hmem
    exact hold hmem
  · rename_i r hr
    rw [hr] at hmem
    refine (hold hmem).grow id id id ?_ id
    rintro ⟨x, hx, hholds⟩
    obtain ⟨j, hj⟩ := List.getElem?_of_mem hx
    by_cases heq : r = j
    · refine ⟨{ x with channel := .sent }, List.mem_of_getElem? (i := j) ?_, hholds⟩
      rw [heq, List.getElem?_modify_eq, hj]
      rfl
    · refine ⟨x, List.mem_of_getElem? (i := j) ?_, hholds⟩
      rw [List.getElem?_modify_ne _ _ heq, hj]

theorem held_cleanup {target : String} {rest : List String} (hdeferred : s.deferred = target :: rest)
    (hok : KeepsHold fs s (.app (.cleanup io))) (hold : h ∈ s.stores → Held fs s h)
    (hmem : h ∈ (removeStore { s with deferred := rest } target io).1.stores) :
    Held fs (removeStore { s with deferred := rest } target io).1 h := by
  obtain ⟨hstore, hfailed⟩ := mem_stores_removeStore hmem
  refine Held.removeStore ?_ target io
  by_cases heq : h = target
  · subst heq
    rcases hok with hio | hheld
    · rw [hfailed rfl] at hio
      cases hio
    · have hleft := hheld h (by rw [hdeferred]; rfl) hstore
      rwa [hdeferred] at hleft
  · refine (hold hstore).grow id id ?_ id id
    intro hspawned
    rw [hdeferred] at hspawned
    exact (List.mem_cons.mp hspawned).resolve_left heq

theorem held_app {a : Act} {out : List Out} (hok : KeepsHold fs s (.app a))
    (hold : h ∈ s.stores → Held fs s h) (hstep : step fs s a = some (s', out)) (hmem : h ∈ s'.stores) :
    Held fs s' h := by
  cases a with
  | receiveFile hash recording =>
    cases hstep
    exact (hold hmem).grow id id id
      (fun ⟨x, hx, hholds⟩ => ⟨x, List.mem_append_left _ hx, hholds⟩) id
  | receive r p io uuid =>
    rw [step] at hstep
    split at hstep
    · cases hstep
    · rename_i x hx
      exact held_receive hx (hok x hx) hold hstep hmem
  | cancelReceive =>
    cases hstep
    exact held_cancelReceive hold hmem
  | deleteTransferRecord id io =>
    rw [step] at hstep
    split at hstep
    · split at hstep
      · cases hstep
        exact hold hmem
      · rename_i record rows hdelete
        cases hstep
        refine (hold hmem).pushCommand fun hpointed => ?_
        rcases pointed_deleteRecord hdelete hpointed with hleft | htaken
        · exact .inl hleft
        · exact .inr ⟨record, List.mem_cons_self, htaken⟩
    · cases hstep
      exact hold hmem
  | clearTransferHistory io =>
    rw [step] at hstep
    split at hstep
    · cases hstep
      exact (hold hmem).pushCommand fun hpointed => .inr hpointed
    · cases hstep
      exact hold hmem
  | clearTransferTempData id io =>
    rw [step] at hstep
    split at hstep
    · split at hstep
      · cases hstep
        exact hold hmem
      · cases hstep
        exact (hold hmem).pushCommand fun hpointed => .inl hpointed
    · cases hstep
      exact hold hmem
  | command c io =>
    rw [step] at hstep
    split at hstep
    · cases hstep
    · rename_i cmd hcmd
      exact held_command hcmd (hok cmd hcmd) hold hstep hmem
  | cleanup io =>
    rw [step] at hstep
    split at hstep
    · cases hstep
    · rename_i target rest hdeferred
      rw [Option.some.injEq] at hstep
      obtain rfl : s' = _ := (congrArg Prod.fst hstep).symm
      exact held_cleanup hdeferred hok hold hmem

theorem held_step {a : HistoryAct} {out : List Out} (hok : KeepsHold fs s a)
    (hold : h ∈ s.stores → Held fs s h) (hstep : historyStep fs s a = some (s', out))
    (hmem : h ∈ s'.stores) : Held fs s' h := by
  cases a with
  | app a => exact held_app hok hold hstep hmem
  | openShareRow share blobHash io =>
    cases hstep
    cases io with
    | true =>
      exact ((hold hmem).withRows hmem (hok rfl)).grow pointed_openRecord id id id id
    | false => exact hold hmem
  | closeShareRow id status io =>
    cases hstep
    cases io with
    | true => exact (hold hmem).withRows hmem (hok rfl)
    | false => exact hold hmem

theorem held_opened {a : HistoryAct} {out : List Out} (hstep : historyStep fs s a = some (s', out))
    (hopens : opensStore h ⟨s, a, s', out⟩ = true) : Held fs s' h := by
  unfold opensStore at hopens
  split at hopens
  · rename_i r io uuid heq
    have ha : a = .app (.receive r .next io uuid) := heq
    subst ha
    obtain ⟨x, hx, hboth⟩ := (Option.any_eq_true _ _).mp hopens
    rw [Bool.and_eq_true, decide_eq_true_eq, decide_eq_true_eq] at hboth
    obtain ⟨hphase, hhash⟩ := hboth
    replace hx : s.receives[r]? = some x := hx
    rw [historyStep, step, hx] at hstep
    simp only [receiveStep, hphase, downloadStep, hhash] at hstep
    cases hstep
    refine .receive (mem_set_self hx _) ?_
    exact decide_eq_true rfl
  · cases hopens

/-! ## Whole runs -/

/-- Every store on disk is held, the ones apart that were stranded at launch and not opened since. -/
def StoresHeld (fs : FileSystem) (launch : State) (tr : List HistoryEntry) (s : State) : Prop :=
  ∀ h, ¬ Stranded fs launch h ∨ (∃ e ∈ tr, opensStore h e = true) → h ∈ s.stores → Held fs s h

theorem storesHeld_run {rows : List TransferRecord} {stores : Finset String} {last : Option String}
    {tr : List HistoryEntry}
    (hrun : Run (historyMachine fs) (KeepsHold fs) (initial rows stores last) tr s) :
    StoresHeld fs (initial rows stores last) tr s := by
  refine hrun.invariant (I := StoresHeld fs (initial rows stores last)) ?_ ?_
  · intro h hcounted hmem
    rcases hcounted with hlaunch | ⟨e, he, -⟩
    · by_contra hnot
      refine hlaunch ⟨hmem, fun hfree => hnot (.freeable hfree), fun hspawned => ?_⟩
      exact hnot (.deferred hspawned)
    · cases he
  · intro tr s s' a out hheld hok hstep h hcounted hmem
    rcases hcounted with hlaunch | ⟨e, he, hopens⟩
    · exact held_step hok (hheld h (.inl hlaunch)) hstep hmem
    · rcases List.mem_append.mp he with he | he
      · exact held_step hok (hheld h (.inr ⟨e, he, hopens⟩)) hstep hmem
      · rw [List.mem_singleton] at he
        subst he
        exact held_opened hstep hopens

/-- When nothing runs, only a row, the recorded hash or a spawned removal can hold a store. -/
theorem Held.idle (hheld : Held fs s h) (hidle : Idle s) : Freeable fs s h ∨ h ∈ s.deferred := by
  cases hheld with
  | freeable hfree => exact .inl hfree
  | deferred hspawned => exact .inr hspawned
  | receive hx hholds =>
    rw [hidle.1 _ hx] at hholds
    cases hholds
  | command hc hholds =>
    rw [hidle.2 _ hc] at hholds
    cases hholds

end

/-- Invocation `r` installs itself, opens its row and is cancelled while it fetches. -/
def cancelledReceive (r : Nat) (row : String) : List Act :=
  let go (p : Progress) : Act := .receive r p true row
  [go .next, go .next, go .next, go .next, .cancelReceive, go .cancel, go .next, go .next, go .next]

/-- A receive is cancelled and its store removed by the next one, which is cancelled too. The row of the
second one is deleted; removing its store fails, but its hash is still recorded. -/
def cancelsTwice : List Act :=
  [.receiveFile (some someHash) true, go 0 .next] ++ cancelledReceive 0 "first" ++
    [.receiveFile (some otherHash) true, go 1 .next, go 1 .next] ++ cancelledReceive 1 "second" ++
    [.deleteTransferRecord "second" true, .command 0 false, .command 0 true]

/-- A receive is cancelled, the next one fails to remove its store and fails itself; then the row of the
first one is deleted, and removing its store fails again. -/
def deletesRow : List Act :=
  [.receiveFile (some someHash) true, go 0 .next] ++ cancelledReceive 0 "row" ++
    [.receiveFile (some otherHash) true, go 1 .next, .receive 1 .next false "row", go 1 .next,
      go 1 (.fail "offline"), go 1 .next, go 1 .next, .deleteTransferRecord "row" true,
      .command 0 false, .command 0 true]

/-- A receive is cancelled with the history disabled; then something that is no ticket is received. -/
def receivesNoTicket : List Act :=
  [.receiveFile (some someHash) false, go 0 .next] ++ cancelledReceive 0 "row" ++
    [.receiveFile none false, go 1 .next, go 1 .next, go 1 (.fail "invalid ticket"), go 1 .next,
      go 1 .next]

/-- A full history whose oldest row points at a store that the launch could not remove. -/
def fullHistory : List TransferRecord :=
  List.replicate (maxRecords - 1) ⟨"row", .completed, none, none⟩ ++
    [⟨"oldest", .interrupted, some someHash, some (partialStorePathFor plainFs someHash)⟩]

theorem not_noneStranded {fs : FileSystem} {launch s : State} {tr : List HistoryEntry} {h : String}
    (hidle : Idle s) (hlaunch : ¬ Stranded fs launch h) (hstranded : Stranded fs s h) :
    ¬ NoneStranded fs launch tr s :=
  fun hnone => hnone hidle h (.inl hlaunch) hstranded

end DashBeam.Receive

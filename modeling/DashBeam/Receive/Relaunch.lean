import DashBeam.Receive.Stranded

/-!
# The history and the partial stores across launches

A process can end at any point: a crash or a force-quit leaves rows in progress, partial stores on
disk and rows that point at them. At the next launch `cleanup_orphaned_directories` sweeps the temp
dir, then `init_transfer_history` turns the rows left in progress into interrupted ones
(`mark_interrupted`) and drops the pointers to directories that are gone
(`forget_missing_partial_stores`). Each of the three can fail, and the launch goes on.

A run is over any number of processes: the steps of the receive commands and of the shares' rows, and
launches between them, at any point. After any launch a row in progress was opened since the last
launch, a row points at a partial store that is on disk or was removed since, and a partial store on
disk was created since, unless the last launch itself failed to see to it (`relaunch_reconciles`).
-/

namespace DashBeam.Receive

open Lib

/-! ## A launch -/

/-- `cleanup_orphaned_directories`, of the partial stores; the removal of those in `failed` fails. -/
def sweepStores (failed : List String) (stores : Finset String) : Finset String :=
  stores.filter fun h => h ∈ failed

/-- What `mark_interrupted` makes of one row. -/
def interruptRecord (record : TransferRecord) : TransferRecord :=
  if record.status = .inProgress then { record with status := .interrupted } else record

def markInterrupted (rows : List TransferRecord) (io : Bool) : List TransferRecord :=
  if io then rows.map interruptRecord else rows

/-- `Path::is_dir`: a partial store on disk, or one of the other directories there are. -/
def isDir (fs : FileSystem) (stores : Finset String) (others : List StorePath) (path : StorePath) :
    Bool :=
  match stripPrefix recvDirPrefix path.fileName with
  | none => path ∈ others
  | some hash => if path.parent = fs.tempDir then hash ∈ stores else path ∈ others

/-- What `forget_missing_partial_stores` makes of one row. -/
def forgetRecord (fs : FileSystem) (stores : Finset String) (others : List StorePath)
    (record : TransferRecord) : TransferRecord :=
  if record.resumableStorePath.any fun path => !isDir fs stores others path then forgetStore record
  else record

def forgetMissingPartialStores (fs : FileSystem) (stores : Finset String) (others : List StorePath)
    (rows : List TransferRecord) (io : Bool) : List TransferRecord :=
  if io then rows.map (forgetRecord fs stores others) else rows

/-- The app is launched over what the last process left: nothing but the history and the disk. -/
def relaunch (fs : FileSystem) (s : State) (failed : List String) (others : List StorePath)
    (marked forgot : Bool) : State :=
  let stores := sweepStores failed s.stores
  initial (forgetMissingPartialStores fs stores others (markInterrupted s.rows marked) forgot) stores
    none

/-! ## Runs over many processes -/

inductive LifeAct
  | history (a : HistoryAct)
  /-- The process ended, however it did, and the app is launched again. -/
  | relaunch (failed : List String) (others : List StorePath) (marked forgot : Bool)
  deriving DecidableEq, Repr

def lifeStep (fs : FileSystem) (s : State) : LifeAct → Option (State × List Out)
  | .history a => historyStep fs s a
  | .relaunch failed others marked forgot => some (relaunch fs s failed others marked forgot, [])

def lifeMachine (fs : FileSystem) : Machine State LifeAct Out := ⟨lifeStep fs⟩

abbrev LifeEntry := Entry State LifeAct Out

/-- A share closes its row with the status it ended with. -/
def Terminal (_ : State) (a : LifeAct) : Prop :=
  match a with
  | .history (.closeShareRow _ status _) => status ≠ .inProgress
  | _ => True

instance (s : State) (a : LifeAct) : Decidable (Terminal s a) := by
  unfold Terminal
  split
  all_goals infer_instance

def Launches (e : LifeEntry) : Prop :=
  match e.act with
  | .relaunch _ _ _ _ => True
  | .history _ => False

/-- The step opens the row `id`. -/
def opensRowOf (s : State) (a : HistoryAct) (id : String) : Prop :=
  match a with
  | .app (.receive r p io uuid) => uuid = id ∧ ∃ x, s.receives[r]? = some x ∧ opensRow x p io = true
  | .openShareRow share _ io => share = id ∧ io = true
  | _ => False

/-- The row `id` is opened, or the launch cannot close the rows left open. -/
def LeavesOpen (id : String) (e : LifeEntry) : Prop :=
  match e.act with
  | .history a => opensRowOf e.pre a id
  | .relaunch _ _ marked _ => marked = false

/-- The store of `h` is removed, or the launch cannot forget the pointers to stores that are gone. -/
def LosesStore (h : String) (e : LifeEntry) : Prop :=
  match e.act with
  | .history _ => .removed h ∈ e.out
  | .relaunch _ _ _ forgot => forgot = false

/-- The store of `h` is created, or the launch cannot sweep it. -/
def LeavesStore (h : String) (e : LifeEntry) : Prop :=
  match e.act with
  | .history a => opensStore h ⟨e.pre, a, e.post, e.out⟩ = true
  | .relaunch failed _ _ _ => h ∈ failed

/-- What is in the history and on disk is of this process, up to what the last launch failed to do. -/
structure Reconciled (fs : FileSystem) (tr : List LifeEntry) (s : State) : Prop where
  opened : ∀ row ∈ s.rows, row.status = .inProgress → Since (LeavesOpen row.id) Launches tr
  pointed : ∀ h, Pointed fs s.rows h → h ∈ s.stores ∨ Since (LosesStore h) Launches tr
  stored : ∀ h ∈ s.stores, Since (LeavesStore h) Launches tr

/-! ## Rows -/

section

variable {fs : FileSystem} {s s' t : State} {r : Nat} {x x' : Invocation} {p : Progress} {io : Bool}
  {uuid h : String} {rows rows' rows'' : List TransferRecord} {row old : TransferRecord}

/-- A row that says no more than an older one with its id. -/
structure Inherits (fs : FileSystem) (row old : TransferRecord) : Prop where
  id : row.id = old.id
  status : row.status = .inProgress → old.status = .inProgress
  pointer : ∀ h, PointsAt fs row h → PointsAt fs old h

theorem Inherits.refl (row : TransferRecord) : Inherits fs row row :=
  ⟨rfl, fun hopen => hopen, fun _ hpoints => hpoints⟩

theorem inherits_finalizeRecord {status : TransferStatus} (hstatus : status ≠ .inProgress)
    (row : TransferRecord) : Inherits fs (finalizeRecord status row) row := by
  refine ⟨rfl, fun hopen => absurd hopen hstatus, fun h hpoints => ?_⟩
  rw [PointsAt, finalizeRecord] at hpoints
  by_cases hcompleted : status = .completed
  · rw [if_pos hcompleted] at hpoints
    cases hpoints
  · rw [if_neg hcompleted] at hpoints
    exact hpoints

theorem inherits_forgetStore (row : TransferRecord) : Inherits fs (forgetStore row) row :=
  ⟨rfl, fun hopen => hopen, fun _ hpoints => by cases hpoints⟩

/-- Every row of `rows'` is one of `rows` or says less. -/
def FromRows (fs : FileSystem) (rows rows' : List TransferRecord) : Prop :=
  ∀ row ∈ rows', ∃ old ∈ rows, Inherits fs row old

theorem FromRows.refl (rows : List TransferRecord) : FromRows fs rows rows :=
  fun row hrow => ⟨row, hrow, Inherits.refl row⟩

theorem fromRows_of_subset (hsub : rows' ⊆ rows) : FromRows fs rows rows' :=
  fun row hrow => ⟨row, hsub hrow, Inherits.refl row⟩

theorem fromRows_updateRecord {id : String} {f : TransferRecord → TransferRecord}
    (hf : ∀ row, Inherits fs (f row) row) (rows : List TransferRecord) :
    FromRows fs rows (updateRecord rows id f) := by
  induction rows with
  | nil => exact FromRows.refl []
  | cons first rest ih =>
    intro row hrow
    rw [updateRecord] at hrow
    split at hrow
    · rcases List.mem_cons.mp hrow with rfl | hrow
      · exact ⟨first, List.mem_cons_self, hf first⟩
      · exact ⟨row, List.mem_cons_of_mem _ hrow, Inherits.refl row⟩
    · rcases List.mem_cons.mp hrow with rfl | hrow
      · exact ⟨row, List.mem_cons_self, Inherits.refl row⟩
      · obtain ⟨old, hold, hinherits⟩ := ih row hrow
        exact ⟨old, List.mem_cons_of_mem _ hold, hinherits⟩

theorem fromRows_finalize {status : TransferStatus} (hstatus : status ≠ .inProgress)
    (rows : List TransferRecord) (x : Invocation) (io : Bool) :
    FromRows fs rows (finalize rows x status io).1 := by
  rw [finalize_rows]
  split
  · exact FromRows.refl rows
  · exact fromRows_updateRecord (inherits_finalizeRecord hstatus) rows

theorem deleteRecord_subset {id : String} {record : TransferRecord}
    (hdelete : deleteRecord rows id = some (record, rows')) : rows' ⊆ rows := by
  induction rows generalizing rows' with
  | nil => cases hdelete
  | cons first rest ih =>
    rw [deleteRecord] at hdelete
    split at hdelete
    · cases hdelete
      exact List.subset_cons_self _ _
    · obtain ⟨⟨taken, left⟩, hrest, heq⟩ := Option.map_eq_some_iff.mp hdelete
      cases heq
      exact List.cons_subset_cons _ (ih hrest)

/-- A receive of `h` has opened its store and asks it what it has. -/
def Querying (s : State) (h : String) : Prop :=
  ∃ x ∈ s.receives, x.phase = .download .queryStore ∧ x.hash = some h

/-- Where a row comes from: an older one, or a receive or a share that opens it. -/
def RowFrom (fs : FileSystem) (s : State) (a : HistoryAct) (row : TransferRecord) : Prop :=
  (∃ old ∈ s.rows, Inherits fs row old) ∨
    (opensRowOf s a row.id ∧ ∀ h, PointsAt fs row h → Querying s h)

theorem rowFrom_openRecord {a : HistoryAct} {record : TransferRecord}
    (hopens : opensRowOf s a record.id) (hpoints : ∀ h, PointsAt fs record h → Querying s h) :
    ∀ row ∈ openRecord s.rows record, RowFrom fs s a row := by
  intro row hrow
  rcases List.mem_cons.mp (List.mem_of_mem_take hrow) with rfl | hrow
  · exact .inr ⟨hopens, hpoints⟩
  · exact .inl ⟨row, hrow, Inherits.refl row⟩

theorem RowFrom.inherits {a : HistoryAct} (hfrom : RowFrom fs s a old) (hrow : Inherits fs row old) :
    RowFrom fs s a row := by
  rcases hfrom with ⟨older, holder, hold⟩ | ⟨hopens, hpoints⟩
  · refine .inl ⟨older, holder, hrow.id.trans hold.id, ?_, ?_⟩
    · exact fun hopen => hold.status (hrow.status hopen)
    · exact fun h hpoints => hold.pointer h (hrow.pointer h hpoints)
  · refine .inr ⟨hrow.id ▸ hopens, fun h hpointer => ?_⟩
    exact hpoints h (hrow.pointer h hpointer)

theorem partialStorePathFor_injective {h h' : String}
    (heq : partialStorePathFor fs h = partialStorePathFor fs h') : h = h' := by
  have hname : recvDirPrefix ++ h = recvDirPrefix ++ h' := congrArg StorePath.fileName heq
  have hlist := congrArg String.toList hname
  rw [String.toList_append, String.toList_append, List.append_cancel_left_eq] at hlist
  exact String.toList_injective hlist

/-! ## What one step does to the history and the disk -/

/-- Every row, every store and every query of the next state has its origin, and no store is gone
that was not removed. -/
structure Accounted (fs : FileSystem) (s : State) (a : HistoryAct) (s' : State) (out : List Out) :
    Prop where
  rows : ∀ row ∈ s'.rows, RowFrom fs s a row
  kept : ∀ h ∈ s.stores, h ∈ s'.stores ∨ .removed h ∈ out
  fresh : ∀ h ∈ s'.stores, h ∈ s.stores ∨ opensStore h ⟨s, a, s', out⟩ = true
  querying : ∀ h, Querying s' h → Querying s h ∨ h ∈ s'.stores

variable {a : HistoryAct} {out : List Out} {record : TransferRecord}

/-- A step that leaves the disk alone and opens no row. -/
theorem accounted_of_rows (hrows : FromRows fs s.rows s'.rows) (hstores : s'.stores = s.stores)
    (hquery : ∀ h, Querying s' h → Querying s h) : Accounted fs s a s' out where
  rows row hrow := .inl (hrows row hrow)
  kept _ hstore := .inl (hstores ▸ hstore)
  fresh _ hstore := .inl (hstores ▸ hstore)
  querying h hnow := .inl (hquery h hnow)

theorem accounted_removeStore {target : String} (hrows : FromRows fs s.rows t.rows)
    (hstores : t.stores = s.stores) (hquery : ∀ h, Querying t h → Querying s h) :
    Accounted fs s a (removeStore t target io).1 (removeStore t target io).2 := by
  unfold removeStore
  split
  · refine ⟨fun row hrow => .inl (hrows row hrow), ?_, ?_, fun h hnow => .inl (hquery h hnow)⟩
    · intro h hstore
      by_cases heq : h = target
      · exact .inr (heq ▸ List.mem_singleton_self _)
      · exact .inl (Finset.mem_erase.mpr ⟨heq, hstores ▸ hstore⟩)
    · intro h hstore
      exact .inl (hstores ▸ (Finset.mem_erase.mp hstore).2)
  · exact accounted_of_rows hrows hstores hquery

theorem querying_set (hphase : x'.phase ≠ .download .queryStore)
    (hnow : Querying (setReceive s r x') h) : Querying s h := by
  obtain ⟨y, hy, hquery, hhash⟩ := hnow
  rcases List.mem_or_eq_of_mem_set hy with hold | rfl
  · exact ⟨y, hold, hquery, hhash⟩
  · exact absurd hquery hphase

theorem querying_modify {receives : List Invocation} {f : Invocation → Invocation}
    (hf : ∀ y, (f y).phase = .download .queryStore → y.phase = .download .queryStore ∧
      (f y).hash = y.hash)
    (hnow : ∃ y ∈ receives.modify r f, y.phase = .download .queryStore ∧ y.hash = some h) :
    ∃ y ∈ receives, y.phase = .download .queryStore ∧ y.hash = some h := by
  obtain ⟨y, hy, hquery, hhash⟩ := hnow
  obtain ⟨j, hj⟩ := List.getElem?_of_mem hy
  rw [List.getElem?_modify] at hj
  obtain ⟨z, hz, hyz⟩ := Option.map_eq_some_iff.mp hj
  refine ⟨z, List.mem_of_getElem? hz, ?_⟩
  split at hyz
  · subst hyz
    obtain ⟨hphase, heq⟩ := hf z hquery
    exact ⟨hphase, heq ▸ hhash⟩
  · obtain rfl : z = y := hyz
    exact ⟨hquery, hhash⟩

theorem querying_dropSender {receives : List Invocation} {slot : Option Nat}
    (hnow : ∃ y ∈ dropSender receives slot, y.phase = .download .queryStore ∧ y.hash = some h) :
    ∃ y ∈ receives, y.phase = .download .queryStore ∧ y.hash = some h := by
  unfold dropSender at hnow
  split at hnow
  · exact hnow
  · refine querying_modify (fun y hquery => ?_) hnow
    split at hquery
    · rename_i hheld
      rw [if_pos hheld]
      exact ⟨hquery, rfl⟩
    · rename_i hheld
      rw [if_neg hheld]
      exact ⟨hquery, rfl⟩

/-! ### The steps of a receive -/

theorem rowFrom_openRow (hx : s.receives[r]? = some x) (query : x.phase = .download .queryStore)
    (hp : p = .next ∨ p = .complete) :
    ∀ row ∈ (openRow fs s.rows x io uuid).1, RowFrom fs s (.app (.receive r p io uuid)) row := by
  rw [openRow_if query hp]
  split
  · rename_i hopens
    refine rowFrom_openRecord ⟨rfl, x, hx, hopens⟩ fun h hpoints => ?_
    obtain ⟨hash, hhash, heq⟩ := Option.map_eq_some_iff.mp hpoints
    rw [partialStorePathFor_injective heq] at hhash
    exact ⟨x, List.mem_of_getElem? hx, query, hhash⟩
  · exact fun row hrow => .inl ⟨row, hrow, Inherits.refl row⟩

/-- Only the successful `create_recv_store` puts a store on disk. -/
theorem stores_openStore (hp : p ≠ .next)
    (hstep : downloadStep fs s r x .openStore p io uuid = some s') : s'.stores = s.stores := by
  cases p with
  | next => exact absurd rfl hp
  | fail e =>
    rw [downloadStep] at hstep
    split at hstep
    · cases hstep
      rfl
    · cases hstep
  | complete | cancel => cases hstep

theorem accounted_download {d : Download} (hx : s.receives[r]? = some x)
    (hphase : x.phase = .download d) (hstep : downloadStep fs s r x d p io uuid = some s') :
    Accounted fs s (.app (.receive r p io uuid)) s' [] := by
  have hmove := downloadStep_cases hphase hstep
  cases hmove with
  | goto goes =>
    exact accounted_of_rows (FromRows.refl _) rfl fun h => querying_set goes.notQuery
  | @opens hash hhash opening =>
    refine ⟨fun row hrow => .inl ⟨row, hrow, Inherits.refl row⟩, ?_, ?_, ?_⟩
    · intro h hstore
      exact .inl (Finset.mem_insert_of_mem hstore)
    · intro h hstore
      obtain rfl : d = .openStore := Phase.download.inj (hphase.symm.trans opening)
      by_cases hp : p = .next
      · rcases Finset.mem_insert.mp hstore with rfl | hold
        · subst hp
          refine .inr ?_
          simp only [opensStore, hx, Option.any_some, opening, hhash, decide_true, Bool.and_self]
        · exact .inl hold
      · rw [stores_openStore hp hstep] at hstore
        exact .inl hstore
    · rintro h ⟨y, hy, hquery, hasked⟩
      rcases List.mem_or_eq_of_mem_set hy with hold | rfl
      · exact .inl ⟨y, hold, hquery, hasked⟩
      · obtain rfl : hash = h := Option.some.inj (hhash.symm.trans hasked)
        exact .inr (Finset.mem_insert_self _ _)
  | announces query fresh =>
    refine ⟨rowFrom_openRow hx query (.inl fresh), fun h => .inl, fun h => .inl, fun h hnow => ?_⟩
    refine .inl (querying_set ?_ hnow)
    exact nofun
  | complete query hcomplete =>
    refine ⟨fun row hrow => ?_, fun h => .inl, fun h => .inl, fun h hnow => ?_⟩
    · obtain ⟨old, hold, hinherits⟩ := fromRows_finalize (by decide) _ _ _ row hrow
      exact (rowFrom_openRow hx query (.inr hcomplete) old hold).inherits hinherits
    · refine .inl (querying_set ?_ hnow)
      exact nofun
  | exported exporting last =>
    refine accounted_of_rows (fromRows_finalize (by decide) _ _ _) rfl fun h hnow => ?_
    refine querying_set ?_ hnow
    exact nofun
  | closed closing hhash =>
    refine accounted_of_rows (FromRows.refl _) rfl fun h hnow => ?_
    refine querying_set ?_ hnow
    exact nofun

theorem accounted_receive (hx : s.receives[r]? = some x)
    (hstep : receiveStep fs s r x p io uuid = some (s', out)) :
    Accounted fs s (.app (.receive r p io uuid)) s' out := by
  unfold receiveStep at hstep
  split at hstep
  · cases hstep
    unfold takeStale
    split
    · refine accounted_of_rows (FromRows.refl _) rfl fun h hnow => querying_set ?_ hnow
      exact nofun
    · dsimp only
      split
      · refine accounted_of_rows (FromRows.refl _) rfl fun h hnow => querying_set ?_ hnow
        exact nofun
      · refine accounted_of_rows (FromRows.refl _) rfl fun h hnow => querying_set ?_ hnow
        dsimp only
        split
        · exact nofun
        · exact nofun
  · rename_i stale hphase
    rw [Option.some.injEq] at hstep
    obtain rfl : s' = _ := (congrArg Prod.fst hstep).symm
    obtain rfl : out = _ := (congrArg Prod.snd hstep).symm
    refine accounted_removeStore (FromRows.refl _) rfl fun h hnow => querying_set ?_ hnow
    exact nofun
  · cases hstep
    unfold install
    split
    · refine accounted_of_rows (FromRows.refl _) rfl fun h hnow => querying_set ?_ hnow
      exact nofun
    · refine accounted_of_rows (FromRows.refl _) rfl fun h hnow => querying_set ?_ hnow
      exact nofun
  · rename_i d hphase
    obtain ⟨t, ht, hpair⟩ := Option.map_eq_some_iff.mp hstep
    cases hpair
    exact accounted_download hx hphase ht
  · rename_i result hphase
    cases hstep
    refine accounted_of_rows (FromRows.refl _) rfl fun h hnow => ?_
    refine querying_dropSender (querying_modify (fun y hquery => ?_) hnow)
    cases hquery
  · rename_i result hphase
    split at hstep
    · cases hstep
      refine accounted_of_rows (FromRows.refl _) rfl fun h hnow => querying_set ?_ hnow
      exact nofun
    · rename_i status hstatus
      cases hstep
      have hterminal : status ≠ .inProgress := by
        rintro rfl
        cases result with
        | ok => cases hstatus
        | err e =>
          have hsome := Option.some.inj hstatus
          split at hsome
          · cases hsome
          · cases hsome
      refine accounted_of_rows (fromRows_finalize hterminal _ _ _) rfl fun h hnow => ?_
      refine querying_set ?_ hnow
      exact nofun
  · cases hstep

/-! ### The other steps -/

theorem accounted_command {c : Nat} {cmd : Command}
    (hstep : commandStep fs s c cmd io = some (s', out)) : Accounted fs s a s' out := by
  unfold commandStep at hstep
  split at hstep
  · cases hstep
    exact accounted_of_rows (FromRows.refl _) rfl fun h hnow => hnow
  · split at hstep
    · cases hstep
      exact accounted_of_rows (FromRows.refl _) rfl fun h hnow => hnow
    · rw [Option.some.injEq] at hstep
      obtain rfl : s' = _ := (congrArg Prod.fst hstep).symm
      obtain rfl : out = _ := (congrArg Prod.snd hstep).symm
      exact accounted_removeStore (FromRows.refl _) rfl fun h hnow => hnow
  · split at hstep
    · cases hstep
      exact accounted_of_rows (FromRows.refl _) rfl fun h hnow => hnow
    · split at hstep
      · cases hstep
        exact accounted_of_rows (FromRows.refl _) rfl fun h hnow => hnow
      · cases hstep
        exact accounted_of_rows (FromRows.refl _) rfl fun h hnow => hnow
  · split at hstep
    · cases hstep
      exact accounted_of_rows (FromRows.refl _) rfl fun h hnow => hnow
    · rw [Option.some.injEq] at hstep
      obtain rfl : s' = _ := (congrArg Prod.fst hstep).symm
      obtain rfl : out = _ := (congrArg Prod.snd hstep).symm
      exact accounted_removeStore (FromRows.refl _) rfl fun h hnow => hnow
  · rename_i record
    cases hstep
    refine accounted_of_rows ?_ rfl fun h hnow => hnow
    dsimp only
    split
    · exact fromRows_updateRecord inherits_forgetStore s.rows
    · exact FromRows.refl _
  · cases hstep

theorem accounted_app {a : Act} (hstep : step fs s a = some (s', out)) :
    Accounted fs s (.app a) s' out := by
  cases a with
  | receiveFile hash recording =>
    cases hstep
    refine accounted_of_rows (FromRows.refl _) rfl ?_
    rintro h ⟨y, hy, hquery, hhash⟩
    rcases List.mem_append.mp hy with hold | hnew
    · exact ⟨y, hold, hquery, hhash⟩
    · rw [List.mem_singleton] at hnew
      subst hnew
      cases hquery
  | receive r p io uuid =>
    rw [step] at hstep
    split at hstep
    · cases hstep
    · rename_i x hx
      exact accounted_receive hx hstep
  | cancelReceive =>
    cases hstep
    unfold cancelReceive
    split
    · exact accounted_of_rows (FromRows.refl _) rfl fun h hnow => hnow
    · refine accounted_of_rows (FromRows.refl _) rfl fun h hnow => querying_modify ?_ hnow
      exact fun y hquery => ⟨hquery, rfl⟩
  | deleteTransferRecord id io =>
    rw [step] at hstep
    split at hstep
    · split at hstep
      · cases hstep
        exact accounted_of_rows (FromRows.refl _) rfl fun h hnow => hnow
      · rename_i record rows hdelete
        cases hstep
        refine accounted_of_rows ?_ rfl fun h hnow => hnow
        exact fromRows_of_subset (deleteRecord_subset hdelete)
    · cases hstep
      exact accounted_of_rows (FromRows.refl _) rfl fun h hnow => hnow
  | clearTransferHistory io =>
    rw [step] at hstep
    split at hstep
    · cases hstep
      exact accounted_of_rows (fromRows_of_subset (List.nil_subset _)) rfl fun h hnow => hnow
    · cases hstep
      exact accounted_of_rows (FromRows.refl _) rfl fun h hnow => hnow
  | clearTransferTempData id io =>
    rw [step] at hstep
    split at hstep
    · split at hstep
      · cases hstep
        exact accounted_of_rows (FromRows.refl _) rfl fun h hnow => hnow
      · cases hstep
        exact accounted_of_rows (FromRows.refl _) rfl fun h hnow => hnow
    · cases hstep
      exact accounted_of_rows (FromRows.refl _) rfl fun h hnow => hnow
  | command c io =>
    rw [step] at hstep
    split at hstep
    · cases hstep
    · exact accounted_command hstep
  | cleanup io =>
    rw [step] at hstep
    split at hstep
    · cases hstep
    · rw [Option.some.injEq] at hstep
      obtain rfl : s' = _ := (congrArg Prod.fst hstep).symm
      obtain rfl : out = _ := (congrArg Prod.snd hstep).symm
      exact accounted_removeStore (FromRows.refl _) rfl fun h hnow => hnow

theorem accounted_step (hok : Terminal s (.history a)) (hstep : historyStep fs s a = some (s', out)) :
    Accounted fs s a s' out := by
  cases a with
  | app a => exact accounted_app hstep
  | openShareRow share blobHash io =>
    cases hstep
    cases io with
    | true =>
      refine ⟨?_, fun h => .inl, fun h => .inl, fun h => .inl⟩
      exact rowFrom_openRecord ⟨rfl, rfl⟩ fun h hpoints => by cases hpoints
    | false => exact accounted_of_rows (FromRows.refl _) rfl fun h hnow => hnow
  | closeShareRow id status io =>
    cases hstep
    refine accounted_of_rows ?_ rfl fun h hnow => hnow
    dsimp only
    split
    · exact fromRows_updateRecord (inherits_finalizeRecord hok) s.rows
    · exact FromRows.refl _

/-! ## What a launch leaves -/

theorem stripPrefix_recvDirPrefix (h : String) :
    stripPrefix recvDirPrefix (recvDirPrefix ++ h) = some h := by
  have hprefix : recvDirPrefix.toList.isPrefixOf (recvDirPrefix ++ h).toList = true := by
    rw [String.toList_append, List.isPrefixOf_iff_prefix]
    exact List.prefix_append _ _
  rw [stripPrefix, if_pos hprefix, String.toList_append, List.drop_left, String.ofList_toList]

theorem isDir_partialStorePathFor (stores : Finset String) (others : List StorePath) (h : String) :
    isDir fs stores others (partialStorePathFor fs h) = decide (h ∈ stores) := by
  have hname : (partialStorePathFor fs h).fileName = recvDirPrefix ++ h := rfl
  rw [isDir, hname, stripPrefix_recvDirPrefix]
  simp [partialStorePathFor]

theorem status_markInterrupted (hrow : row ∈ markInterrupted rows true) : row.status ≠ .inProgress := by
  rw [markInterrupted, if_pos rfl] at hrow
  obtain ⟨old, -, rfl⟩ := List.mem_map.mp hrow
  unfold interruptRecord
  split
  · exact nofun
  · assumption

theorem status_forgetRecord (stores : Finset String) (others : List StorePath)
    (record : TransferRecord) : (forgetRecord fs stores others record).status = record.status := by
  unfold forgetRecord
  split
  · rfl
  · rfl

/-- A row that keeps its pointer points at a directory that is there. -/
theorem pointsAt_forgetRecord {stores : Finset String} {others : List StorePath}
    (hpoints : PointsAt fs (forgetRecord fs stores others record) h) : h ∈ stores := by
  unfold forgetRecord at hpoints
  split at hpoints
  · cases hpoints
  · rename_i hthere
    rw [PointsAt] at hpoints
    rw [hpoints, Option.any_some, isDir_partialStorePathFor] at hthere
    by_contra hmissing
    exact hthere (by simp [hmissing])

/-! ## Whole runs -/

/-- What the invariant adds: the store a receive asks is there, or somebody removed it. -/
structure Tracked (fs : FileSystem) (tr : List LifeEntry) (s : State) : Prop extends
    Reconciled fs tr s where
  querying : ∀ h, Querying s h → h ∈ s.stores ∨ Since (LosesStore h) Launches tr

/-- A launch alone accounts for everything it leaves. -/
theorem tracked_relaunch (tr : List LifeEntry) (s : State) (failed : List String)
    (others : List StorePath) (marked forgot : Bool) :
    Tracked fs (tr ++ [⟨s, .relaunch failed others marked forgot,
      relaunch fs s failed others marked forgot, []⟩]) (relaunch fs s failed others marked forgot) where
  opened row hrow hopen := by
    refine Since.snoc_now ?_
    show marked = false
    rw [← Bool.not_eq_true]
    rintro rfl
    cases forgot with
    | true =>
      obtain ⟨old, hold, rfl⟩ := List.mem_map.mp hrow
      rw [status_forgetRecord] at hopen
      exact status_markInterrupted hold hopen
    | false => exact status_markInterrupted hrow hopen
  pointed h hpointed := by
    cases forgot with
    | true =>
      obtain ⟨row, hrow, hpoints⟩ := hpointed
      obtain ⟨old, -, rfl⟩ := List.mem_map.mp hrow
      exact .inl (pointsAt_forgetRecord hpoints)
    | false => exact .inr (Since.snoc_now rfl)
  stored h hstore := by
    have hboth : h ∈ s.stores ∧ h ∈ failed := by
      simpa [relaunch, initial, sweepStores] using hstore
    exact Since.snoc_now hboth.2
  querying h hquery := by
    obtain ⟨x, hx, -⟩ := hquery
    cases hx

theorem Tracked.step {tr : List LifeEntry} (htracked : Tracked fs tr s)
    (hok : Terminal s (.history a)) (hstep : historyStep fs s a = some (s', out)) :
    Tracked fs (tr ++ [⟨s, .history a, s', out⟩]) s' := by
  have haccounted := accounted_step hok hstep
  have hnolaunch : ¬ Launches (⟨s, .history a, s', out⟩ : LifeEntry) := id
  -- a store that was there, or removed, still is
  have hthere : ∀ h, h ∈ s.stores ∨ Since (LosesStore h) Launches tr →
      h ∈ s'.stores ∨ Since (LosesStore h) Launches (tr ++ [⟨s, .history a, s', out⟩]) := by
    rintro h (hstore | hremoved)
    · rcases haccounted.kept h hstore with hkept | hremoved
      · exact .inl hkept
      · exact .inr (Since.snoc_now hremoved)
    · exact .inr (hremoved.snoc_keep hnolaunch)
  refine ⟨⟨fun row hrow hopen => ?_, fun h hpointed => ?_, fun h hstore => ?_⟩, fun h hquery => ?_⟩
  · rcases haccounted.rows row hrow with ⟨old, hold, hinherits⟩ | ⟨hopens, -⟩
    · rw [hinherits.id]
      exact (htracked.opened old hold (hinherits.status hopen)).snoc_keep hnolaunch
    · exact Since.snoc_now hopens
  · obtain ⟨row, hrow, hpoints⟩ := hpointed
    rcases haccounted.rows row hrow with ⟨old, hold, hinherits⟩ | ⟨-, hquery⟩
    · exact hthere h (htracked.pointed h ⟨old, hold, hinherits.pointer h hpoints⟩)
    · exact hthere h (htracked.querying h (hquery h hpoints))
  · rcases haccounted.fresh h hstore with hold | hopens
    · exact (htracked.stored h hold).snoc_keep hnolaunch
    · exact Since.snoc_now hopens
  · rcases haccounted.querying h hquery with hold | hstore
    · exact hthere h (htracked.querying h hold)
    · exact .inl hstore

theorem tracked_run {tr : List LifeEntry} (hrun : Run (lifeMachine fs) Terminal t tr s)
    (hlaunched : ∃ e ∈ tr, Launches e) : Tracked fs tr s := by
  refine hrun.invariant (I := fun tr s => (∃ e ∈ tr, Launches e) → Tracked fs tr s) ?_ ?_ hlaunched
  · rintro ⟨e, he, -⟩
    cases he
  · intro tr s s' a out htracked hok hstep hlaunched
    cases a with
    | history a =>
      refine (htracked ?_).step hok hstep
      obtain ⟨e, he, hlaunch⟩ := hlaunched
      rcases List.mem_append.mp he with he | he
      · exact ⟨e, he, hlaunch⟩
      · rw [List.mem_singleton] at he
        subst he
        exact hlaunch.elim
    | relaunch failed others marked forgot =>
      cases hstep
      exact tracked_relaunch tr s failed others marked forgot

end

/-- In every run over any number of processes, from any history and disk, once the app was launched: a
row in progress was opened since the last launch, a row points at a store that is on disk or was
removed since, and a store on disk was created since, up to what the last launch failed to do. -/
theorem relaunch_reconciles (fs : FileSystem) (start : State) (tr : List LifeEntry) (s : State)
    (hrun : Run (lifeMachine fs) Terminal start tr s) (hlaunched : ∃ e ∈ tr, Launches e) :
    Reconciled fs tr s :=
  (tracked_run hrun hlaunched).toReconciled

/-- A receive is killed while it fetches, over a store the launch cannot sweep; the next one is still
running. -/
def killedReceive : List LifeAct :=
  let receives (a : Act) : LifeAct := .history (.app a)
  [receives (.receiveFile (some someHash) true)] ++ List.replicate 5 (receives (go 0 .next)) ++
    [.relaunch [someHash] [] true true, receives (.receiveFile (some otherHash) true)] ++
    List.replicate 5 (receives (.receive 0 .next true "second"))

instance (e : LifeEntry) : Decidable (Launches e) := by
  unfold Launches
  split
  all_goals infer_instance

/-- The theorem applies to a run that leaves a row interrupted and a store behind. -/
theorem relaunch_reconciles_killedReceive :
    ∃ tr s, Run (lifeMachine plainFs) Terminal (initial [] ∅ none) tr s ∧
      s.rows.map (·.status) = [.inProgress, .interrupted] ∧ s.stores = {someHash, otherHash} ∧
      Reconciled plainFs tr s := by
  obtain ⟨tr, s, hrun, htest⟩ := Run.of_check (lifeMachine plainFs) Terminal (initial [] ∅ none)
    killedReceive (fun tr s => decide ((∃ e ∈ tr, Launches e) ∧
      s.rows.map (·.status) = [.inProgress, .interrupted] ∧ s.stores = {someHash, otherHash}))
    (by decide +kernel)
  obtain ⟨hlaunched, hrows, hstores⟩ := of_decide_eq_true htest
  exact ⟨tr, s, hrun, hrows, hstores,
    relaunch_reconciles plainFs (initial [] ∅ none) tr s hrun hlaunched⟩

end DashBeam.Receive

import Mathlib.Data.List.Infix
import DashBeam.Lib.Machine
import DashBeam.Lib.Table
import DashBeam.Receive.History

/-!
# The transfer history over runs

`TransferHistoryStore` of `engine/native/src/history.rs` on the rows of its file, newest first, and
what a run of its operations lists: the rows that were opened and neither deleted nor cleared, each as
the later operations left it, without those that a later `open` found beyond the cap. The rows beyond
the cap are counted among all rows that stand: a row that was trimmed stays behind the listed ones, so
the listed rows are a prefix of the standing ones, and this carries the induction.

A number of type `f64` is kept as its bits.
-/

namespace DashBeam.Native

open Lib Receive

inductive TransferDirection
  | send | receive
  deriving DecidableEq, Repr

inductive TransferPathType
  | file | directory
  deriving DecidableEq, Repr

structure TransferPeer where
  endpointId : String
  displayName : Option String
  deviceType : Option String
  deriving DecidableEq, Repr

/-- `TransferRecord` with all its fields. -/
structure TransferRecord extends Receive.TransferRecord where
  direction : TransferDirection
  startedAt : Nat
  endedAt : Option Nat
  durationMs : Option Nat
  exportMs : Option Nat
  payloadBytes : Nat
  bytesTransferred : Nat
  avgSpeedBps : Option Nat
  itemCount : Nat
  pathType : Option TransferPathType
  rootName : String
  fileNames : List String
  fileNamesTruncated : Bool
  peer : Option TransferPeer
  peerCount : Nat
  savePath : Option String
  saveUri : Option String
  conflictCount : Nat
  error : Option String
  deriving DecidableEq, Repr

/-- `TransferRecord::new`, with the id and the time it draws. -/
def TransferRecord.new (id : String) (now : Nat) (direction : TransferDirection) (rootName : String)
    (payloadBytes : Nat) : TransferRecord :=
  { id := id, status := .inProgress, blobHash := none, resumableStorePath := none
    direction := direction, startedAt := now, endedAt := none, durationMs := none, exportMs := none
    payloadBytes := payloadBytes, bytesTransferred := 0, avgSpeedBps := none, itemCount := 0
    pathType := none, rootName := rootName, fileNames := [], fileNamesTruncated := false
    peer := none, peerCount := 0, savePath := none, saveUri := none, conflictCount := 0
    error := none }

/-- A closure that `update` is called with. None of them writes the id. -/
structure RowUpdate where
  apply : TransferRecord → TransferRecord
  keepsId : ∀ row, (apply row).id = row.id

/-- An operation that takes the lock. `markInterrupted` carries the time it reads, and
`forgetMissingPartialStores` which paths are directories. -/
inductive HistoryOp
  | open (record : TransferRecord)
  | update (id : String) (f : RowUpdate)
  | delete (id : String)
  | clear
  | markInterrupted (now : Nat)
  | forgetMissingPartialStores (isDir : StorePath → Bool)

/-- What an operation returns. -/
inductive HistoryResult
  | opened (id : String)
  | row (record : Option TransferRecord)
  | removed (records : List TransferRecord)
  | count (rows : Nat)
  deriving DecidableEq, Repr

def hasId (id : String) (row : TransferRecord) : Bool := row.id == id

def inProgress (row : TransferRecord) : Bool := row.status == .inProgress

/-- A row that the launch found open. -/
def interrupted (now : Nat) (row : TransferRecord) : TransferRecord :=
  if inProgress row then { row with status := .interrupted, endedAt := some now } else row

/-- The row points at a directory that is gone. -/
def missing (isDir : StorePath → Bool) (row : TransferRecord) : Bool :=
  row.resumableStorePath.any fun path => !isDir path

def forgotten (isDir : StorePath → Bool) (row : TransferRecord) : TransferRecord :=
  if missing isDir row then { row with resumableStorePath := none } else row

/-- What an operation makes of the rows it read: its result, and the rows it writes if it writes. -/
def HistoryOp.run (rows : List TransferRecord) : HistoryOp →
    HistoryResult × Option (List TransferRecord)
  | .open record => (.opened record.id, some ((record :: rows).take maxRecords))
  | .update id f =>
    match rows.find? (hasId id) with
    | none => (.row none, none)
    | some existing =>
      (.row (some (f.apply existing)), some (updateFirst (hasId id) f.apply rows))
  | .delete id =>
    match rows.find? (hasId id) with
    | none => (.row none, none)
    | some removed => (.row (some removed), some (rows.eraseP (hasId id)))
  | .clear => (.removed rows, some [])
  | .markInterrupted now =>
    (.count (rows.countP inProgress),
      if rows.countP inProgress > 0 then some (rows.map (interrupted now)) else none)
  | .forgetMissingPartialStores isDir =>
    (.count (rows.countP (missing isDir)),
      if rows.countP (missing isDir) > 0 then some (rows.map (forgotten isDir)) else none)

/-- The store when its file operations work. The state is what `list` returns. -/
def historyMachine : Machine (List TransferRecord) HistoryOp HistoryResult where
  step rows op := some ((op.run rows).2.getD rows, [(op.run rows).1])

/-! ### What was opened, and what became of it -/

namespace HistoryOp

def opened : HistoryOp → Option TransferRecord
  | .open record => some record
  | _ => none

/-- The operation opened the row with this id. -/
def opens (id : String) (op : HistoryOp) : Bool := op.opened.any (hasId id)

/-- The operation removes the row with this id. -/
def removes (id : String) : HistoryOp → Bool
  | .delete id' => id' == id
  | .clear => true
  | _ => false

/-- What the operation makes of a row that it does not remove. -/
def amend : HistoryOp → TransferRecord → TransferRecord
  | .update id f, row => if hasId id row then f.apply row else row
  | .markInterrupted now, row => interrupted now row
  | .forgetMissingPartialStores isDir, row => forgotten isDir row
  | _, row => row

end HistoryOp

/-- The rows that were opened, newest first, each with what later operations made of it. -/
def openedRows : List HistoryOp → List TransferRecord
  | [] => []
  | op :: later =>
    openedRows later ++ op.opened.toList.map fun row => later.foldl (fun row op => op.amend row) row

/-- The row with this id was opened, and neither deleted nor cleared since. -/
def standing : List HistoryOp → String → Bool
  | [], _ => false
  | op :: later, id => standing later id || op.opens id && later.all fun op => !op.removes id

def standingRows (ops : List HistoryOp) : List TransferRecord :=
  (openedRows ops).filter fun row => standing ops row.id

/-- At some `open` the row with this id was among those beyond the `maxRecords` newest. -/
def Overflowed (ops : List HistoryOp) (id : String) : Prop :=
  ∃ earlier record later, ops = earlier ++ .open record :: later ∧
    ∃ row ∈ (standingRows (earlier ++ [.open record])).drop maxRecords, row.id = id

def openedIds (ops : List HistoryOp) : List String :=
  ops.filterMap fun op => op.opened.map (·.id)

/-- No id is opened twice. -/
def FreshIds (ops : List HistoryOp) : Prop := (openedIds ops).Nodup

/-! ### One more operation -/

@[simp]
theorem hasId_iff {id : String} {row : TransferRecord} : hasId id row = true ↔ row.id = id := by
  rw [hasId, beq_iff_eq]

@[simp]
theorem interrupted_id (now : Nat) (row : TransferRecord) : (interrupted now row).id = row.id := by
  unfold interrupted
  split <;> rfl

@[simp]
theorem forgotten_id (isDir : StorePath → Bool) (row : TransferRecord) :
    (forgotten isDir row).id = row.id := by
  unfold forgotten
  split <;> rfl

@[simp]
theorem HistoryOp.amend_id (op : HistoryOp) (row : TransferRecord) : (op.amend row).id = row.id := by
  cases op with
  | update id f =>
    by_cases h : hasId id row
    · simp only [amend, h, if_true]
      exact f.keepsId row
    · simp [amend, h]
  | markInterrupted now => exact interrupted_id now row
  | forgetMissingPartialStores isDir => exact forgotten_id isDir row
  | _ => rfl

theorem openedRows_snoc (ops : List HistoryOp) (op : HistoryOp) :
    openedRows (ops ++ [op]) = op.opened.toList ++ (openedRows ops).map op.amend := by
  induction ops with
  | nil => simp [openedRows]
  | cons first later ih =>
    rw [List.cons_append, openedRows, openedRows, ih, List.map_append, List.append_assoc]
    simp [List.foldl_append]

theorem standing_snoc (ops : List HistoryOp) (op : HistoryOp) (id : String) :
    standing (ops ++ [op]) id = (op.opens id || standing ops id && !op.removes id) := by
  induction ops with
  | nil => simp [standing]
  | cons first later ih =>
    have hall : (later ++ [op]).all (fun op => !op.removes id) =
        (later.all (fun op => !op.removes id) && !op.removes id) := by simp
    rw [List.cons_append, standing, standing, ih, hall]
    cases op.opens id <;> cases standing later id <;> cases op.removes id <;> simp

theorem overflowed_snoc {ops : List HistoryOp} {op : HistoryOp} {id : String} :
    Overflowed (ops ++ [op]) id ↔ Overflowed ops id ∨
      op.opened.isSome ∧ ∃ row ∈ (standingRows (ops ++ [op])).drop maxRecords, row.id = id := by
  constructor
  · rintro ⟨earlier, record, later, hsplit, hrow⟩
    rcases List.eq_nil_or_concat later with rfl | ⟨later', last, rfl⟩
    · obtain ⟨rfl, hop⟩ := List.append_inj' hsplit rfl
      cases hop
      exact .inr ⟨rfl, hrow⟩
    · have hfront : ops ++ [op] = (earlier ++ .open record :: later') ++ [last] := by
        rw [hsplit]
        simp
      obtain ⟨rfl, -⟩ := List.append_inj' hfront rfl
      exact .inl ⟨earlier, record, later', rfl, hrow⟩
  · rintro (⟨earlier, record, later, rfl, hrow⟩ | ⟨hopen, hrow⟩)
    · exact ⟨earlier, record, later ++ [op], by simp, hrow⟩
    · cases op with
      | «open» record => exact ⟨ops, record, [], rfl, hrow⟩
      | _ => cases hopen

theorem openedIds_snoc (ops : List HistoryOp) (op : HistoryOp) :
    openedIds (ops ++ [op]) = openedIds ops ++ (op.opened.map (·.id)).toList := by
  rw [openedIds, List.filterMap_append, openedIds]
  cases hop : op.opened <;> simp [hop]

theorem mem_openedRows_id {ops : List HistoryOp} {row : TransferRecord} (h : row ∈ openedRows ops) :
    row.id ∈ openedIds ops := by
  induction ops using List.reverseRecOn generalizing row with
  | nil => cases h
  | append_singleton ops op ih =>
    rw [openedRows_snoc, List.mem_append] at h
    rw [openedIds_snoc, List.mem_append]
    rcases h with h | h
    · rw [Option.mem_toList] at h
      exact .inr (Option.mem_toList.mpr (Option.mem_map_of_mem _ h))
    · obtain ⟨old, hold, rfl⟩ := List.mem_map.mp h
      rw [op.amend_id]
      exact .inl (ih hold)

theorem overflowed_opened {ops : List HistoryOp} {id : String} (h : Overflowed ops id) :
    id ∈ openedIds ops := by
  obtain ⟨earlier, record, later, rfl, row, hrow, rfl⟩ := h
  have hopened : row ∈ openedRows (earlier ++ [.open record]) :=
    (List.mem_filter.mp (List.mem_of_mem_drop hrow)).1
  have hsplit : earlier ++ .open record :: later = (earlier ++ [.open record]) ++ later := by simp
  rw [hsplit, openedIds, List.filterMap_append, List.mem_append]
  exact .inl (mem_openedRows_id hopened)

theorem freshIds_snoc {ops : List HistoryOp} {op : HistoryOp} (h : FreshIds (ops ++ [op])) :
    FreshIds ops ∧ ∀ record, op.opened = some record → record.id ∉ openedIds ops := by
  rw [FreshIds, openedIds_snoc, List.nodup_append] at h
  refine ⟨h.1, fun record hrecord hmem => ?_⟩
  exact h.2.2 record.id hmem record.id (by simp [hrecord]) rfl

/-! ### The standing rows -/

theorem standingRows_snoc {ops : List HistoryOp} {op : HistoryOp} (h : FreshIds (ops ++ [op])) :
    standingRows (ops ++ [op]) = op.opened.toList ++
      ((standingRows ops).filter fun row => !op.removes row.id).map op.amend := by
  obtain ⟨-, hfresh⟩ := freshIds_snoc h
  have hkept : ∀ row ∈ openedRows ops, standing (ops ++ [op]) row.id =
      (standing ops row.id && !op.removes row.id) := by
    intro row hrow
    have hnew : op.opens row.id = false := by
      cases hop : op.opened with
      | none => rw [HistoryOp.opens, hop]; rfl
      | some record =>
        have hne : record.id ≠ row.id := fun heq =>
          hfresh record hop (heq ▸ mem_openedRows_id hrow)
        rw [HistoryOp.opens, hop]
        simpa [hasId] using hne
    rw [standing_snoc, hnew, Bool.false_or]
  rw [standingRows, openedRows_snoc, List.filter_append, standingRows]
  congr 1
  · cases hop : op.opened with
    | none => rfl
    | some record =>
      have hstands : standing (ops ++ [op]) record.id = true := by
        rw [standing_snoc, HistoryOp.opens, hop]
        simp
      simp [hstands]
  · rw [List.filter_map, List.filter_filter]
    refine congrArg _ (List.filter_congr fun row hrow => ?_)
    rw [Function.comp_apply, op.amend_id, hkept row hrow, Bool.and_comm]

theorem standingRows_nodup {ops : List HistoryOp} (h : FreshIds ops) :
    ((standingRows ops).map (·.id)).Nodup := by
  induction ops using List.reverseRecOn with
  | nil => exact List.nodup_nil
  | append_singleton ops op ih =>
    obtain ⟨hprev, hfresh⟩ := freshIds_snoc h
    have hids : ∀ rows : List TransferRecord,
        (rows.map op.amend).map (·.id) = rows.map (·.id) := by
      intro rows
      rw [List.map_map]
      exact List.map_congr_left fun row _ => op.amend_id row
    have hrest : (((standingRows ops).filter fun row => !op.removes row.id).map (·.id)).Nodup :=
      (ih hprev).sublist (List.filter_sublist.map _)
    rw [standingRows_snoc h, List.map_append, hids]
    cases hop : op.opened with
    | none => exact hrest
    | some record =>
      refine List.nodup_cons.mpr ⟨?_, hrest⟩
      intro hmem
      obtain ⟨row, hrow, hid⟩ := List.mem_map.mp hmem
      have hopened : row ∈ openedRows ops := (List.mem_filter.mp (List.mem_filter.mp hrow).1).1
      change row.id = record.id at hid
      exact hfresh record hop (hid ▸ mem_openedRows_id hopened)

/-! ### The listed rows -/

/-- Rows with different ids are not found together. -/
theorem pairwise_hasId {rows : List TransferRecord} (h : (rows.map (·.id)).Nodup) (id : String) :
    rows.Pairwise fun a b => ¬ (hasId id a = true ∧ hasId id b = true) := by
  refine (List.pairwise_map.mp h).imp fun hne hboth => hne ?_
  rw [hasId_iff.mp hboth.1, hasId_iff.mp hboth.2]

theorem map_of_countP {p : TransferRecord → Bool} {f : TransferRecord → TransferRecord}
    {rows : List TransferRecord} (hf : ∀ row, p row = false → f row = row)
    (h : ¬ rows.countP p > 0) : rows.map f = rows := by
  have hnone : ∀ row ∈ rows, p row = false := by
    have hzero : rows.countP p = 0 := by omega
    simpa using List.countP_eq_zero.mp hzero
  calc rows.map f = rows.map id := List.map_congr_left fun row hrow => hf row (hnone row hrow)
    _ = rows := List.map_id rows

theorem getD_ite {c : Prop} [Decidable c] {rows rows' : List TransferRecord}
    (h : ¬ c → rows' = rows) : (if c then some rows' else none).getD rows = rows' := by
  split
  · rfl
  · rename_i hc
    exact (h hc).symm

theorem run_rows {rows : List TransferRecord} (op : HistoryOp) (hids : (rows.map (·.id)).Nodup)
    (hlength : rows.length ≤ maxRecords) :
    (op.run rows).2.getD rows = (op.opened.toList ++
      (rows.filter fun row => !op.removes row.id).map op.amend).take maxRecords := by
  have hall : ∀ rows : List TransferRecord, rows.filter (fun _ => !false) = rows := by simp
  have hcut : ∀ f : TransferRecord → TransferRecord,
      (rows.map f).take maxRecords = rows.map f := fun f =>
    List.take_of_length_le (by rw [List.length_map]; exact hlength)
  cases op with
  | «open» record =>
    have hsame : rows.map (HistoryOp.open record).amend = rows := List.map_id rows
    change (record :: rows).take maxRecords = ([record] ++ (rows.filter fun _ => !false).map _).take _
    rw [hall, hsame]
    rfl
  | update id f =>
    have hmap : updateFirst (hasId id) f.apply rows = rows.map (HistoryOp.update id f).amend :=
      updateFirst_eq_map (pairwise_hasId hids id)
    change _ = ((rows.filter fun _ => !false).map (HistoryOp.update id f).amend).take _
    rw [hall, hcut, ← hmap]
    cases hfound : rows.find? (hasId id) with
    | none => simp [HistoryOp.run, hfound, updateFirst_of_none hfound]
    | some existing => simp [HistoryOp.run, hfound]
  | delete id =>
    have herase := eraseP_eq_filter (pairwise_hasId hids id)
    have hsame : ∀ rows : List TransferRecord, rows.map (HistoryOp.delete id).amend = rows :=
      fun rows => List.map_id rows
    have hfilter : (rows.filter fun row => !(HistoryOp.delete id).removes row.id) =
        rows.filter fun row => !hasId id row :=
      List.filter_congr fun row _ => by simp [HistoryOp.removes, hasId, eq_comm]
    have hcut' : (rows.filter fun row => !hasId id row).take maxRecords =
        rows.filter fun row => !hasId id row :=
      List.take_of_length_le (Nat.le_trans (List.length_filter_le _ _) hlength)
    change _ = ((rows.filter fun row => !(HistoryOp.delete id).removes row.id).map
      (HistoryOp.delete id).amend).take _
    rw [hsame, hfilter, hcut', ← herase]
    cases hfound : rows.find? (hasId id) with
    | none =>
      rw [List.find?_eq_none] at hfound
      rw [List.eraseP_of_forall_not hfound]
      simp [HistoryOp.run, List.find?_eq_none.mpr hfound]
    | some removed => simp [HistoryOp.run, hfound]
  | clear => simp [HistoryOp.run, HistoryOp.removes, HistoryOp.opened]
  | markInterrupted now =>
    change _ = ((rows.filter fun _ => !false).map (interrupted now)).take _
    rw [hall, hcut]
    exact getD_ite fun hnone => map_of_countP (fun row hrow => by simp [interrupted, hrow]) hnone
  | forgetMissingPartialStores isDir =>
    change _ = ((rows.filter fun _ => !false).map (forgotten isDir)).take _
    rw [hall, hcut]
    exact getD_ite fun hnone => map_of_countP (fun row hrow => by simp [forgotten, hrow]) hnone

/-- The listed rows are the newest standing ones, down to the first that overflowed. -/
structure Lists (ops : List HistoryOp) (rows : List TransferRecord) : Prop where
  front : rows <+: standingRows ops
  kept : ∀ row ∈ standingRows ops, row ∈ rows ↔ ¬ Overflowed ops row.id
  length : rows.length ≤ maxRecords

section Lists

variable {ops : List HistoryOp} {rows : List TransferRecord} {op : HistoryOp}

theorem eq_of_id (h : FreshIds ops) {a b : TransferRecord} (ha : a ∈ standingRows ops)
    (hb : b ∈ standingRows ops) (hid : a.id = b.id) : a = b :=
  List.inj_on_of_nodup_map (standingRows_nodup h) ha hb hid

theorem Lists.ids (h : Lists ops rows) (hfresh : FreshIds ops) : (rows.map (·.id)).Nodup :=
  (standingRows_nodup hfresh).sublist (h.front.sublist.map _)

/-- What the operation leaves of the listed rows, before the cut at the cap. -/
def uncut (op : HistoryOp) (rows : List TransferRecord) : List TransferRecord :=
  op.opened.toList ++ (rows.filter fun row => !op.removes row.id).map op.amend

theorem uncut_prefix (h : Lists ops rows) (hfresh : FreshIds (ops ++ [op])) :
    uncut op rows <+: standingRows (ops ++ [op]) := by
  obtain ⟨back, hback⟩ := h.front
  rw [standingRows_snoc hfresh, ← hback, uncut, List.filter_append, List.map_append,
    ← List.append_assoc]
  exact List.prefix_append _ _

theorem mem_uncut (h : Lists ops rows) (hfresh : FreshIds (ops ++ [op])) {row : TransferRecord}
    (hrow : row ∈ standingRows (ops ++ [op])) :
    row ∈ uncut op rows ↔ ¬ Overflowed ops row.id := by
  obtain ⟨hprev, hnew⟩ := freshIds_snoc hfresh
  rw [standingRows_snoc hfresh, List.mem_append] at hrow
  rcases hrow with hrow | hrow
  · have hfirst : ¬ Overflowed ops row.id := fun hover =>
      hnew row (Option.mem_toList.mp hrow) (overflowed_opened hover)
    exact iff_of_true (List.mem_append_left _ hrow) hfirst
  · obtain ⟨old, hold, rfl⟩ := List.mem_map.mp hrow
    obtain ⟨hstands, hstays⟩ := List.mem_filter.mp hold
    rw [op.amend_id, ← h.kept old hstands, uncut, List.mem_append]
    constructor
    · rintro (hopened | hmem)
      · have hid : (op.amend old).id ∉ openedIds ops := hnew _ (Option.mem_toList.mp hopened)
        rw [op.amend_id] at hid
        exact absurd (mem_openedRows_id (List.mem_filter.mp hstands).1) hid
      · obtain ⟨other, hother, hamend⟩ := List.mem_map.mp hmem
        have hlisted := (List.mem_filter.mp hother).1
        have hid : other.id = old.id := by
          rw [← op.amend_id other, ← op.amend_id old, hamend]
        exact eq_of_id hprev (h.front.subset hlisted) hstands hid ▸ hlisted
    · intro hlisted
      exact .inr (List.mem_map_of_mem (List.mem_filter.mpr ⟨hlisted, hstays⟩))

theorem Lists.step (h : Lists ops rows) (hfresh : FreshIds (ops ++ [op])) :
    Lists (ops ++ [op]) ((op.run rows).2.getD rows) := by
  have hrows : (op.run rows).2.getD rows = (uncut op rows).take maxRecords :=
    run_rows op (h.ids (freshIds_snoc hfresh).1) h.length
  have hfront := uncut_prefix h hfresh
  have hnodup : (standingRows (ops ++ [op])).Nodup := (standingRows_nodup hfresh).of_map _
  rw [hrows]
  refine ⟨(List.take_prefix _ _).trans hfront, fun row hrow => ?_, List.length_take_le _ _⟩
  rw [overflowed_snoc, not_or, mem_take_of_prefix hnodup hfront, mem_uncut h hfresh hrow]
  refine and_congr_right fun hnot => not_congr ?_
  constructor
  · intro hdrop
    refine ⟨?_, row, hdrop, rfl⟩
    -- without a row that is opened nothing is cut
    by_contra hnone
    have hshort : (uncut op rows).length ≤ maxRecords := by
      rw [Bool.not_eq_true, Option.isSome_eq_false_iff, Option.isNone_iff_eq_none] at hnone
      rw [uncut, hnone]
      simpa using Nat.le_trans (List.length_filter_le _ _) h.length
    have hmem := (mem_uncut h hfresh hrow).mpr hnot
    rw [← List.take_of_length_le hshort, mem_take_of_prefix hnodup hfront] at hmem
    exact hmem.2 hdrop
  · rintro ⟨-, other, hdrop, hid⟩
    exact eq_of_id hfresh (List.mem_of_mem_drop hdrop) hrow hid ▸ hdrop

end Lists

/-! ### The rows as the receive machine keeps them

The receive machine keeps of a row what its own steps read and write. Its operations on rows are the
ones above, seen through `toTransferRecord`. -/

theorem open_toTransferRecord (rows : List TransferRecord) (record : TransferRecord) :
    (((HistoryOp.open record).run rows).2.getD rows).map (·.toTransferRecord) =
      openRecord (rows.map (·.toTransferRecord)) record.toTransferRecord := by
  change (List.take maxRecords (record :: rows)).map _ = _
  rw [List.map_take]
  rfl

theorem update_toTransferRecord (rows : List TransferRecord) (id : String) (f : RowUpdate)
    (g : Receive.TransferRecord → Receive.TransferRecord)
    (hg : ∀ row, (f.apply row).toTransferRecord = g row.toTransferRecord) :
    (((HistoryOp.update id f).run rows).2.getD rows).map (·.toTransferRecord) =
      updateRecord (rows.map (·.toTransferRecord)) id g := by
  have hrows : ((HistoryOp.update id f).run rows).2.getD rows =
      updateFirst (hasId id) f.apply rows := by
    cases hfound : rows.find? (hasId id) with
    | none => simp [HistoryOp.run, hfound, updateFirst_of_none hfound]
    | some existing => simp [HistoryOp.run, hfound]
  rw [hrows]
  clear hrows
  induction rows with
  | nil => rfl
  | cons row rest ih =>
    rw [updateFirst, List.map_cons, updateRecord]
    by_cases hid : row.id = id
    · rw [if_pos (hasId_iff.mpr hid), if_pos hid, List.map_cons, hg]
    · rw [if_neg (mt hasId_iff.mp hid), if_neg hid, List.map_cons, ih]

theorem delete_toTransferRecord (rows : List TransferRecord) (id : String) :
    ((deleteRecord (rows.map (·.toTransferRecord)) id).map Prod.snd).getD
        (rows.map (·.toTransferRecord)) =
      (((HistoryOp.delete id).run rows).2.getD rows).map (·.toTransferRecord) := by
  have hrows : ((HistoryOp.delete id).run rows).2.getD rows = rows.eraseP (hasId id) := by
    cases hfound : rows.find? (hasId id) with
    | none =>
      have hnone := List.find?_eq_none.mp hfound
      simp [HistoryOp.run, hfound, List.eraseP_of_forall_not hnone]
    | some removed => simp [HistoryOp.run, hfound]
  rw [hrows]
  clear hrows
  induction rows with
  | nil => rfl
  | cons row rest ih =>
    rw [List.map_cons, deleteRecord, List.eraseP_cons]
    by_cases hid : row.id = id
    · simp [hid, hasId]
    · rw [if_neg hid, Option.map_map]
      have hother : hasId id row = false := by simpa [hasId] using hid
      rw [hother, cond_false, List.map_cons, ← ih]
      cases deleteRecord (rest.map (·.toTransferRecord)) id <;> rfl

/-! ### Runs -/

theorem lists_run {tr : List (Entry (List TransferRecord) HistoryOp HistoryResult)}
    {rows : List TransferRecord} (hrun : Run historyMachine anyStep [] tr rows)
    (hfresh : FreshIds (tr.map Entry.act)) : Lists (tr.map Entry.act) rows := by
  refine hrun.invariant (I := fun tr rows => FreshIds (tr.map Entry.act) →
    Lists (tr.map Entry.act) rows) ?_ ?_ hfresh
  · intro _
    exact ⟨List.prefix_refl _, fun row hrow => (nomatch hrow), Nat.zero_le _⟩
  · intro tr rows rows' op out hprev _ hstep hfresh
    rw [historyMachine, Option.some.injEq, Prod.mk.injEq] at hstep
    obtain ⟨rfl, -⟩ := hstep
    rw [List.map_append, List.map_singleton] at hfresh ⊢
    exact (hprev (freshIds_snoc hfresh).1).step hfresh

def Changes (op : HistoryOp) (before after : List TransferRecord) : Prop :=
  match op with
  | .open record => after = (record :: before).take maxRecords
  | .update id f => after = before.map fun row => if row.id = id then f.apply row else row
  | .delete id => after = before.filter fun row => row.id ≠ id
  | .clear => after = []
  | .markInterrupted _ =>
    List.Forall₂ (fun old new => new.status ≠ .inProgress ∧ (old.status ≠ .inProgress → new = old))
      before after
  | .forgetMissingPartialStores isDir =>
    List.Forall₂ (fun old new => new = { old with
      resumableStorePath := old.resumableStorePath.filter fun path => isDir path }) before after

theorem forgotten_eq (isDir : StorePath → Bool) (row : TransferRecord) :
    forgotten isDir row = { row with
      resumableStorePath := row.resumableStorePath.filter fun path => isDir path } := by
  rcases row with ⟨⟨id, status, hash, path⟩, rest⟩
  cases path with
  | none => rfl
  | some path =>
    cases hdir : isDir path with
    | true => simp [forgotten, missing, hdir, Option.filter]
    | false => simp [forgotten, missing, hdir, Option.filter]

theorem changes_run {rows : List TransferRecord} (op : HistoryOp)
    (hids : (rows.map (·.id)).Nodup) (hlength : rows.length ≤ maxRecords) :
    Changes op rows ((op.run rows).2.getD rows) := by
  have hpairs : ∀ f : TransferRecord → TransferRecord,
      (rows.map f).take maxRecords = rows.map f := fun f =>
    List.take_of_length_le (by rw [List.length_map]; exact hlength)
  have hrows := run_rows op hids hlength
  cases op with
  | «open» record => rfl
  | update id f =>
    rw [hrows]
    simp [Changes, HistoryOp.opened, HistoryOp.removes, HistoryOp.amend, hpairs]
  | delete id =>
    have hcut := List.take_of_length_le (Nat.le_trans (List.length_filter_le
      (fun row : TransferRecord => decide (row.id ≠ id)) rows) hlength)
    have hfilter : (rows.filter fun row => !(HistoryOp.delete id).removes row.id) =
        rows.filter fun row => row.id ≠ id :=
      List.filter_congr fun row _ => by
        by_cases hid : row.id = id
        · simp [HistoryOp.removes, hid]
        · simp [HistoryOp.removes, hid, Ne.symm hid]
    have hsame : ∀ rows : List TransferRecord, rows.map (HistoryOp.delete id).amend = rows :=
      fun rows => List.map_id rows
    rw [hrows, hfilter, hsame]
    exact hcut
  | clear => rfl
  | markInterrupted now =>
    have hmap : ((HistoryOp.markInterrupted now).run rows).2.getD rows =
        rows.map (interrupted now) := by
      rw [hrows]
      simp [HistoryOp.opened, HistoryOp.removes, HistoryOp.amend, hpairs]
    rw [hmap, Changes, List.forall₂_map_right_iff, List.forall₂_same]
    intro row _
    by_cases hopen : row.status = .inProgress
    · simp [interrupted, inProgress, hopen]
    · simp [interrupted, inProgress, hopen]
  | forgetMissingPartialStores isDir =>
    have hmap : ((HistoryOp.forgetMissingPartialStores isDir).run rows).2.getD rows =
        rows.map (forgotten isDir) := by
      rw [hrows]
      simp [HistoryOp.opened, HistoryOp.removes, HistoryOp.amend, hpairs]
    rw [hmap, Changes, List.forall₂_map_right_iff, List.forall₂_same]
    exact fun row _ => forgotten_eq isDir row

/-- The listed rows of every run from an empty store with fresh ids: exactly the opened rows that
stand and never overflowed, newest first, each id once, no more than the cap; and each operation
changes what it is meant to change and nothing else. -/
theorem listed_rows (tr : List (Entry (List TransferRecord) HistoryOp HistoryResult))
    (rows : List TransferRecord) (hrun : Run historyMachine anyStep [] tr rows)
    (hfresh : FreshIds (tr.map Entry.act)) :
    (∀ row, row ∈ rows ↔ row ∈ openedRows (tr.map Entry.act) ∧
      standing (tr.map Entry.act) row.id = true ∧ ¬ Overflowed (tr.map Entry.act) row.id) ∧
    rows.Sublist (openedRows (tr.map Entry.act)) ∧ (rows.map (·.id)).Nodup ∧
    rows.length ≤ maxRecords ∧ ∀ e ∈ tr, Changes e.act e.pre e.post := by
  have hlists := lists_run hrun hfresh
  refine ⟨fun row => ?_, hlists.front.sublist.trans List.filter_sublist, hlists.ids hfresh,
    hlists.length, fun e he => ?_⟩
  · have hstanding : row ∈ standingRows (tr.map Entry.act) ↔ row ∈ openedRows (tr.map Entry.act) ∧
        standing (tr.map Entry.act) row.id = true := List.mem_filter
    rw [← and_assoc, ← hstanding]
    exact ⟨fun hrow => ⟨hlists.front.subset hrow,
      (hlists.kept row (hlists.front.subset hrow)).mp hrow⟩,
      fun h => (hlists.kept row h.1).mpr h.2⟩
  · obtain ⟨earlier, hearlier, hprefix, -, hstep⟩ := hrun.of_mem he
    have hfront : FreshIds (earlier.map Entry.act) := by
      obtain ⟨later, rfl⟩ := hprefix
      rw [List.map_append, FreshIds, openedIds, List.filterMap_append] at hfresh
      exact (List.nodup_append.mp hfresh).1
    have hlists := lists_run hearlier hfront
    rw [historyMachine, Option.some.injEq, Prod.mk.injEq] at hstep
    rw [← hstep.1]
    exact changes_run e.act (hlists.ids hfront) hlists.length

/-- A row that is sent, finished and kept, one that is deleted, and one that a crash leaves open. -/
def threeRows : List HistoryOp :=
  [.open (.new "a" 0 .send "a.pdf" 10), .open (.new "b" 1 .receive "b.pdf" 20),
    .update "a" ⟨fun row => { row with status := .completed }, fun _ => rfl⟩, .delete "b",
    .open (.new "c" 2 .send "c.pdf" 30), .markInterrupted 3]

theorem listed_rows_threeRows :
    ∃ tr rows, Run historyMachine anyStep [] tr rows ∧
      (rows.map fun row => (row.id, row.status)) = [("c", .interrupted), ("a", .completed)] ∧
      (rows.map (·.id)).Nodup ∧ ∀ row, row ∈ rows ↔ row ∈ openedRows (tr.map Entry.act) ∧
        standing (tr.map Entry.act) row.id = true ∧ ¬ Overflowed (tr.map Entry.act) row.id := by
  obtain ⟨tr, rows, hrun, htest⟩ := Run.of_check historyMachine anyStep [] threeRows
    (fun tr rows => decide ((rows.map fun row => (row.id, row.status)) =
      [("c", .interrupted), ("a", .completed)] ∧ (openedIds (tr.map Entry.act)).Nodup))
    (by decide +kernel)
  obtain ⟨hrows, hfresh⟩ := of_decide_eq_true htest
  obtain ⟨hlisted, -, hids, -⟩ := listed_rows tr rows hrun hfresh
  exact ⟨tr, rows, hrun, hrows, hids, hlisted⟩

end DashBeam.Native

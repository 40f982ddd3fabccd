import DashBeam.Lib.Past
import DashBeam.Native.StoreContent

/-!
# The transfer history under concurrent readers

Calls of `TransferHistoryStore` in any interleaving of their file operations. A call that changes rows
holds the lock from its start to its return; `list` takes no lock, and still moves the file aside when
what it read did not parse. Between its read and that rename a writer may have put a good file in
place, and the rename then takes the good file away.

When no `list` moves a file that parses, every row that is in the history is in the file at every
moment: a writer that is under way has read all of them, because nobody else writes while it holds the
lock (`Safe`).
-/

namespace DashBeam.Native

open Lib Receive

variable {Content : Type}

/-- How far a call has come. -/
inductive Stage (Content : Type)
  /-- Waits for the lock. -/
  | called
  /-- Is about to look whether the file exists. -/
  | entered
  /-- The file exists and is about to be read. -/
  | exists
  /-- Has read this content and is about to parse it. -/
  | read (content : Content)
  /-- The content did not parse, and the file is about to be moved aside. -/
  | unparsed
  /-- Has the rows that it will change. -/
  | parsed (file : HistoryFile)
  | returned

/-- What the callers see. A call that went through is shown with the rows it had read. -/
inductive HistoryEvent
  | listed (records : List TransferRecord)
  | done (op : HistoryOp) (result : HistoryResult) (read : List TransferRecord)
  | failed

structure Readers (Content : Type) where
  dir : DataDir Content
  lock : Option Nat
  calls : List (HistoryCall × Stage Content)

/-- What one file operation of a call leads to. -/
structure Outcome (Content : Type) where
  dir : DataDir Content
  lock : Option Nat
  stage : Stage Content
  out : List HistoryEvent

section Machine

variable (codec : HistoryCodec Content)

/-- `read_file` has its file: `list` returns it, a writer goes on. -/
def haveFile (s : Readers Content) (dir : DataDir Content) (file : HistoryFile) :
    HistoryCall → Outcome Content
  | .list => ⟨dir, s.lock, .returned, [.listed file.records]⟩
  | .write _ => ⟨dir, s.lock, .parsed file, []⟩

/-- An error is returned, and the lock is released with the call. -/
def giveUp (s : Readers Content) : HistoryCall → Outcome Content
  | .list => ⟨s.dir, s.lock, .returned, [.failed]⟩
  | .write _ => ⟨s.dir, none, .returned, [.failed]⟩

/-- `rename` of the history file to its quarantine name. -/
def quarantine (io : StoreIo) (dir : DataDir Content) : DataDir Content :=
  match dir.transferHistory with
  | none => dir
  | some content =>
    if io.rename then { dir with transferHistory := none, corruptHistory := some content } else dir

/-- The next file operation of a call. -/
def advance (io : StoreIo) (s : Readers Content) (pid : Nat) (call : HistoryCall) :
    Stage Content → Option (Outcome Content)
  | .called =>
    match s.lock with
    | some _ => none
    | none => some ⟨s.dir, some pid, .entered, []⟩
  | .entered =>
    match s.dir.transferHistory with
    | none => some (haveFile s s.dir .default call)
    | some _ => some ⟨s.dir, s.lock, .exists, []⟩
  | .exists =>
    match s.dir.transferHistory with
    | none => some (giveUp s call)
    | some content =>
      if io.read && codec.utf8 content then some ⟨s.dir, s.lock, .read content, []⟩
      else some (giveUp s call)
  | .read content =>
    match codec.parse content with
    | some file => some (haveFile s s.dir file call)
    | none => some ⟨s.dir, s.lock, .unparsed, []⟩
  | .unparsed => some (haveFile s (quarantine io s.dir) .default call)
  | .parsed file =>
    match call with
    | .list => none
    | .write op =>
      match (op.run file.records).2 with
      | none => some ⟨s.dir, none, .returned, [.done op (op.run file.records).1 file.records]⟩
      | some records =>
        if io.write then
          some ⟨{ s.dir with
              transferHistory := some (codec.render { file with records := records }) }, none,
            .returned, [.done op (op.run file.records).1 file.records]⟩
        else some (giveUp s call)
  | .returned => none

inductive ReadersAct
  | call (call : HistoryCall)
  | exec (pid : Nat) (io : StoreIo)

/-- Where a call begins: a writer with the lock, `list` with the file. -/
def firstStage : HistoryCall → Stage Content
  | .list => .entered
  | .write _ => .called

def readersMachine : Machine (Readers Content) ReadersAct HistoryEvent where
  step s
    | .call call => some ({ s with calls := s.calls ++ [(call, firstStage call)] }, [])
    | .exec pid io =>
      match s.calls[pid]? with
      | none => none
      | some (call, stage) =>
        match advance codec io s pid call stage with
        | none => none
        | some o => some (⟨o.dir, o.lock, s.calls.set pid (call, o.stage)⟩, o.out)

/-- A `list` moves aside a file that parses. -/
def discards (s : Readers Content) : ReadersAct → Bool
  | .call _ => false
  | .exec pid io =>
    match s.calls[pid]? with
    | some (.list, .unparsed) =>
      io.rename && s.dir.transferHistory.any fun content => (codec.deserialize content).isSome
    | _ => false

end Machine

/-! ### Rows in the history -/

/-- An `open` of this id went through. -/
def HistoryEvent.opens (id : String) : HistoryEvent → Bool
  | .done (.open record) _ _ => record.id == id
  | _ => false

def HistoryEvent.ends (id : String) : HistoryEvent → Bool
  | .done (.delete id') (.row (some _)) _ => id' == id
  | .done .clear _ _ => true
  | .done (.open record) _ read => ((record :: read).drop maxRecords).any (hasId id)
  | _ => false

/-- The row with this id was opened and neither deleted, cleared nor trimmed since. -/
def InHistory (id : String) (tr : List (Entry (Readers Content) ReadersAct HistoryEvent)) : Prop :=
  Since (fun e => e.out.any (HistoryEvent.opens id) = true)
    (fun e => e.out.any (HistoryEvent.ends id) = true) tr

def storedIds (codec : HistoryCodec Content) (content : Option Content) : List String :=
  match content.bind codec.deserialize with
  | none => []
  | some file => file.records.map (·.id)

/-! ### The invariant -/

/-- A writer at this stage holds the lock. -/
def Stage.holds : Stage Content → Bool
  | .called => false
  | .returned => false
  | _ => true

/-- The ids of the rows a writer at this stage has read. -/
def Stage.known (codec : HistoryCodec Content) : Stage Content → Option (List String)
  | .read content => some (((codec.parse content).map (·.records.map (·.id))).getD [])
  | .unparsed => some []
  | .parsed file => some (file.records.map (·.id))
  | _ => none

/-- Every row in the history is in the file, and a writer that has read the file has read it. -/
structure Safe (codec : HistoryCodec Content)
    (tr : List (Entry (Readers Content) ReadersAct HistoryEvent)) (s : Readers Content) : Prop where
  stored : ∀ id, InHistory id tr → id ∈ storedIds codec s.dir.transferHistory
  holder : ∀ (pid : Nat) (op : HistoryOp) (stage : Stage Content),
    s.calls[pid]? = some (.write op, stage) → stage.holds = true → s.lock = some pid
  knows : ∀ (pid : Nat) (op : HistoryOp) (stage : Stage Content) (known : List String),
    s.calls[pid]? = some (.write op, stage) → stage.known codec = some known →
      ∀ id, InHistory id tr → id ∈ known

section Step

variable {codec : HistoryCodec Content}
  {tr : List (Entry (Readers Content) ReadersAct HistoryEvent)}
  {e : Entry (Readers Content) ReadersAct HistoryEvent} {s : Readers Content} {pid : Nat}
  {call : HistoryCall} {stage : Stage Content} {o : Outcome Content} {io : StoreIo}

theorem holds_of_known {known : List String} (h : stage.known codec = some known) :
    stage.holds = true := by
  cases stage <;> first | rfl | cases h

/-- A step that shows no finished call leaves the rows in the history alone. -/
theorem inHistory_quiet {id : String} (hquiet : ∀ ev ∈ e.out, ∀ id, ev.opens id = false)
    (h : InHistory id (tr ++ [e])) : InHistory id tr := by
  rcases Since.snoc_iff.mp h with hopens | ⟨hbefore, -⟩
  · obtain ⟨ev, hev, hid⟩ := List.any_eq_true.mp hopens
    rw [hquiet ev hev id] at hid
    cases hid
  · exact hbefore

/-- One call moves on. The other writers have not read the file yet, or nothing was opened. -/
theorem Safe.move (h : Safe codec tr s) (hcall : s.calls[pid]? = some (call, stage))
    (hothers : (∀ id, InHistory id (tr ++ [e]) → InHistory id tr) ∨ s.lock = some pid)
    (hstored : ∀ id, InHistory id (tr ++ [e]) → id ∈ storedIds codec o.dir.transferHistory)
    (hown : ∀ op, call = .write op → o.stage.holds = true → o.lock = some pid)
    (hkeep : ∀ other, other ≠ pid → s.lock = some other → o.lock = some other)
    (hknown : ∀ op known, call = .write op → o.stage.known codec = some known →
      ∀ id, InHistory id (tr ++ [e]) → id ∈ known) :
    Safe codec (tr ++ [e]) ⟨o.dir, o.lock, s.calls.set pid (call, o.stage)⟩ where
  stored := hstored
  holder := by
    intro other op stage' hother hholds
    change (s.calls.set pid (call, o.stage))[other]? = _ at hother
    rw [getElem?_set_of_some hcall] at hother
    split at hother
    · rename_i heq
      cases hother
      exact heq ▸ hown op rfl hholds
    · rename_i hne
      exact hkeep other (Ne.symm hne) (h.holder other op stage' hother hholds)
  knows := by
    intro other op stage' known hother hstage id hid
    change (s.calls.set pid (call, o.stage))[other]? = _ at hother
    rw [getElem?_set_of_some hcall] at hother
    split at hother
    · cases hother
      exact hknown op known rfl hstage id hid
    · rename_i hne
      rcases hothers with hquiet | hlock
      · exact h.knows other op stage' known hother hstage id (hquiet id hid)
      · rw [h.holder other op stage' hother (holds_of_known hstage)] at hlock
        exact absurd (Option.some.inj hlock).symm hne

theorem storedIds_text {content : Content} (h : codec.utf8 content = true) :
    storedIds codec (some content) =
      ((codec.parse content).map (·.records.map (·.id))).getD [] := by
  rw [storedIds, Option.bind_some, Codec.deserialize, if_pos h]
  cases codec.parse content <;> rfl

theorem storedIds_render (file : HistoryFile) :
    storedIds codec (some (codec.render file)) = file.records.map (·.id) := by
  obtain ⟨file', hread, hsame⟩ := codec.deserialize_render file
  rw [storedIds, Option.bind_some, hread]
  exact hsame.symm

/-! ### What a finished call leaves of the rows -/

theorem ids_updateFirst (f : RowUpdate) (p : TransferRecord → Bool) (rows : List TransferRecord) :
    (updateFirst p f.apply rows).map (·.id) = rows.map (·.id) := by
  induction rows with
  | nil => rfl
  | cons row rest ih =>
    rw [updateFirst]
    split
    · rw [List.map_cons, List.map_cons, f.keepsId]
    · rw [List.map_cons, List.map_cons, ih]

/-- A row that a writer had read, and that its call neither deleted, cleared nor trimmed, is in what
it writes. -/
theorem mem_written {op : HistoryOp} {rows written : List TransferRecord} {id : String}
    (hwritten : (op.run rows).2 = some written) (hmem : id ∈ rows.map (·.id))
    (hends : (HistoryEvent.done op (op.run rows).1 rows).ends id = false) :
    id ∈ written.map (·.id) := by
  cases op with
  | «open» record =>
    cases hwritten
    obtain ⟨row, hrow, rfl⟩ := List.mem_map.mp hmem
    have hrow' : row ∈ record :: rows := List.mem_cons_of_mem _ hrow
    rw [← List.take_append_drop maxRecords (record :: rows), List.mem_append] at hrow'
    refine List.mem_map_of_mem (hrow'.resolve_right fun hdrop => ?_)
    have htrimmed : ((record :: rows).drop maxRecords).any (hasId row.id) = true :=
      List.any_eq_true.mpr ⟨row, hdrop, hasId_iff.mpr rfl⟩
    rw [HistoryEvent.ends, htrimmed] at hends
    cases hends
  | update id' f =>
    cases hfound : rows.find? (hasId id') with
    | none => simp [HistoryOp.run, hfound] at hwritten
    | some existing =>
      simp only [HistoryOp.run, hfound, Option.some.injEq] at hwritten
      rw [← hwritten, ids_updateFirst]
      exact hmem
  | delete id' =>
    cases hfound : rows.find? (hasId id') with
    | none => simp [HistoryOp.run, hfound] at hwritten
    | some removed =>
      simp only [HistoryOp.run, hfound, Option.some.injEq] at hwritten
      simp only [HistoryOp.run, hfound, HistoryEvent.ends, beq_eq_false_iff_ne] at hends
      obtain ⟨row, hrow, rfl⟩ := List.mem_map.mp hmem
      have hother : hasId id' row = false := by simpa [hasId] using Ne.symm hends
      rw [← hwritten]
      exact List.mem_map_of_mem ((List.mem_eraseP_of_neg (by simp [hother])).mpr hrow)
  | clear => cases hends
  | markInterrupted now =>
    simp only [HistoryOp.run] at hwritten
    split at hwritten
    · cases hwritten
      rw [List.map_map]
      simpa using hmem
    · cases hwritten
  | forgetMissingPartialStores isDir =>
    simp only [HistoryOp.run] at hwritten
    split at hwritten
    · cases hwritten
      rw [List.map_map]
      simpa using hmem
    · cases hwritten

theorem opened_written {op : HistoryOp} {rows : List TransferRecord} {id : String}
    (hopens : (HistoryEvent.done op (op.run rows).1 rows).opens id = true) :
    ∃ written, (op.run rows).2 = some written ∧ id ∈ written.map (·.id) := by
  cases op with
  | «open» record =>
    refine ⟨_, rfl, ?_⟩
    simp only [HistoryEvent.opens, beq_iff_eq] at hopens
    rw [← hopens]
    exact List.mem_cons_self
  | _ => cases hopens

/-! ### One step -/

/-- The state after a call moved on, and the entry of the trace for it. -/
def moved (s : Readers Content) (pid : Nat) (call : HistoryCall) (o : Outcome Content) :
    Readers Content :=
  ⟨o.dir, o.lock, s.calls.set pid (call, o.stage)⟩

def moves (s : Readers Content) (pid : Nat) (io : StoreIo) (call : HistoryCall)
    (o : Outcome Content) : Entry (Readers Content) ReadersAct HistoryEvent :=
  ⟨s, .exec pid io, moved s pid call o, o.out⟩

/-- A call moves on without finishing, with the rows in the history still in the file and, for a
writer, among those it has read. -/
theorem Safe.quiet (h : Safe codec tr s) (hcall : s.calls[pid]? = some (call, stage))
    (hout : ∀ ev ∈ o.out, ∀ id, ev.opens id = false)
    (hstored : ∀ id, InHistory id tr → id ∈ storedIds codec o.dir.transferHistory)
    (hown : ∀ op, call = .write op → o.stage.holds = true → o.lock = some pid)
    (hkeep : ∀ other, other ≠ pid → s.lock = some other → o.lock = some other)
    (hknown : ∀ op known, call = .write op → o.stage.known codec = some known →
      ∀ id, InHistory id tr → id ∈ known) :
    Safe codec (tr ++ [moves s pid io call o]) (moved s pid call o) := by
  have hback : ∀ id, InHistory id (tr ++ [moves s pid io call o]) → InHistory id tr :=
    fun id hid => inHistory_quiet hout hid
  exact h.move hcall (.inl hback) (fun id hid => hstored id (hback id hid)) hown hkeep
    fun op known hop hstage id hid => hknown op known hop hstage id (hback id hid)

theorem Safe.haveFile (h : Safe codec tr s) (hcall : s.calls[pid]? = some (call, stage))
    (hholds : stage.holds = true) (dir : DataDir Content) (file : HistoryFile)
    (hstored : ∀ id, InHistory id tr → id ∈ storedIds codec dir.transferHistory)
    (hfile : ∀ op, call = .write op → ∀ id, InHistory id tr → id ∈ file.records.map (·.id)) :
    Safe codec (tr ++ [moves s pid io call (Native.haveFile s dir file call)])
      (moved s pid call (Native.haveFile s dir file call)) := by
  cases call with
  | list =>
    refine h.quiet hcall ?_ hstored (fun op hop => (nomatch hop)) (fun _ _ hlock => hlock)
      (fun op known hop => (nomatch hop))
    intro ev hev id
    obtain rfl := List.mem_singleton.mp hev
    rfl
  | write op =>
    refine h.quiet hcall (fun ev hev => (nomatch hev)) hstored
      (fun op' hop _ => h.holder pid op stage hcall hholds) (fun _ _ hlock => hlock) ?_
    intro op' known hop hknown id hid
    obtain rfl := Option.some.inj hknown
    exact hfile op rfl id hid

theorem Safe.giveUp (h : Safe codec tr s) (hcall : s.calls[pid]? = some (call, stage))
    (hholds : stage.holds = true) :
    Safe codec (tr ++ [moves s pid io call (Native.giveUp s call)])
      (moved s pid call (Native.giveUp s call)) := by
  have hfailed : ∀ ev ∈ [HistoryEvent.failed], ∀ id, ev.opens id = false := by
    intro ev hev id
    obtain rfl := List.mem_singleton.mp hev
    rfl
  cases call with
  | list =>
    exact h.quiet hcall hfailed h.stored (fun op hop => (nomatch hop)) (fun _ _ hlock => hlock)
      (fun op known hop => (nomatch hop))
  | write op =>
    have hlock := h.holder pid op stage hcall hholds
    refine h.quiet hcall hfailed h.stored (fun op' hop hstage => (nomatch hstage)) ?_
      (fun op' known hop hknown => (nomatch hknown))
    intro other hne hother
    rw [hlock] at hother
    exact absurd (Option.some.inj hother).symm hne

/-- A writer returns: the rows in the history are those it read, without the ones it ended, and the
one it opened. -/
theorem Safe.finish {op : HistoryOp} {file : HistoryFile} {dir : DataDir Content}
    (h : Safe codec tr s) (hcall : s.calls[pid]? = some (.write op, .parsed file))
    (hstored : ∀ id, InHistory id (tr ++ [moves s pid io (.write op)
        ⟨dir, none, .returned, [.done op (op.run file.records).1 file.records]⟩]) →
      id ∈ storedIds codec dir.transferHistory) :
    Safe codec (tr ++ [moves s pid io (.write op)
        ⟨dir, none, .returned, [.done op (op.run file.records).1 file.records]⟩])
      (moved s pid (.write op)
        ⟨dir, none, .returned, [.done op (op.run file.records).1 file.records]⟩) := by
  have hlock := h.holder pid op (.parsed file) hcall rfl
  refine h.move hcall (.inr hlock) hstored (fun op' hop hholds => (nomatch hholds)) ?_
    (fun op' known hop hknown => (nomatch hknown))
  intro other hne hother
  rw [hlock] at hother
  exact absurd (Option.some.inj hother).symm hne

/-- Moving the file aside loses nothing when no row of the history is in it. -/
theorem stored_quarantine (hnone : ∀ id, ¬ InHistory id tr) (io : StoreIo) (dir : DataDir Content) :
    ∀ id, InHistory id tr → id ∈ storedIds codec (quarantine io dir).transferHistory :=
  fun id hid => absurd hid (hnone id)

/-- A `list` that found the file unreadable moves no file with rows aside; a writer that did so knows
that there are none. -/
theorem Safe.exec_unparsed (h : Safe codec tr s) (hcall : s.calls[pid]? = some (call, .unparsed))
    (hguard : discards codec s (.exec pid io) = false)
    (ho : advance codec io s pid call .unparsed = some o) :
    Safe codec (tr ++ [moves s pid io call o]) (moved s pid call o) := by
  cases ho
  cases call with
  | list =>
    refine h.haveFile hcall rfl _ .default ?_ (fun op hop => (nomatch hop))
    intro id hid
    have hmem := h.stored id hid
    simp only [discards, hcall] at hguard
    cases hcontent : s.dir.transferHistory with
    | none => rw [hcontent] at hmem; cases hmem
    | some content =>
      rw [hcontent] at hmem
      cases hrename : io.rename with
      | false => simpa [quarantine, hcontent, hrename] using hmem
      | true =>
        rw [hcontent, hrename, Bool.true_and, Option.any_some, Option.isSome_eq_false_iff,
          Option.isNone_iff_eq_none] at hguard
        rw [storedIds, Option.bind_some, hguard] at hmem
        cases hmem
  | write op =>
    have hnone : ∀ id, ¬ InHistory id tr := fun id hid =>
      (nomatch h.knows pid op .unparsed [] hcall rfl id hid)
    exact h.haveFile hcall rfl _ .default (stored_quarantine hnone io s.dir)
      fun _ _ id hid => absurd hid (hnone id)

/-- A writer writes the rows it has read, without those that its call ended. -/
theorem Safe.exec_parsed {file : HistoryFile} (h : Safe codec tr s)
    (hcall : s.calls[pid]? = some (call, .parsed file))
    (ho : advance codec io s pid call (.parsed file) = some o) :
    Safe codec (tr ++ [moves s pid io call o]) (moved s pid call o) := by
  cases call with
  | list => cases ho
  | write op =>
    have hknows := h.knows pid op (.parsed file) _ hcall rfl
    simp only [advance] at ho
    split at ho
    · rename_i hunwritten
      cases ho
      refine h.finish hcall fun id hid => ?_
      rcases Since.snoc_iff.mp hid with hopens | ⟨hbefore, -⟩
      · have hopens : (HistoryEvent.done op (op.run file.records).1 file.records).opens id = true :=
          by simpa [moves] using hopens
        obtain ⟨written, hwritten, -⟩ := opened_written hopens
        rw [hunwritten] at hwritten
        cases hwritten
      · exact h.stored id hbefore
    · rename_i records hwritten
      split at ho
      · cases ho
        refine h.finish hcall fun id hid => ?_
        rw [storedIds_render]
        rcases Since.snoc_iff.mp hid with hopens | ⟨hbefore, hends⟩
        · have hopens : (HistoryEvent.done op (op.run file.records).1 file.records).opens id =
              true := by simpa [moves] using hopens
          obtain ⟨written, hwritten', hmem⟩ := opened_written hopens
          rw [hwritten] at hwritten'
          cases hwritten'
          exact hmem
        · exact mem_written hwritten (hknows id hbefore) (by simpa [moves] using hends)
      · cases ho
        exact h.giveUp hcall rfl

theorem Safe.exec (h : Safe codec tr s) (hcall : s.calls[pid]? = some (call, stage))
    (hguard : discards codec s (.exec pid io) = false)
    (ho : advance codec io s pid call stage = some o) :
    Safe codec (tr ++ [moves s pid io call o]) (moved s pid call o) := by
  cases stage with
  | called =>
    simp only [advance] at ho
    split at ho
    · cases ho
    · rename_i hfree
      cases ho
      refine h.quiet hcall (fun ev hev => (nomatch hev)) h.stored (fun _ _ _ => rfl) ?_
        (fun op known hop hknown => (nomatch hknown))
      intro other _ hother
      rw [hfree] at hother
      cases hother
  | entered =>
    simp only [advance] at ho
    split at ho
    · rename_i hmissing
      cases ho
      have hnone : ∀ id, ¬ InHistory id tr := by
        intro id hid
        have hmem := h.stored id hid
        rw [hmissing] at hmem
        cases hmem
      exact h.haveFile hcall rfl s.dir .default h.stored fun op hop id hid => absurd hid (hnone id)
    · cases ho
      exact h.quiet hcall (fun ev hev => (nomatch hev)) h.stored
        (fun op hop _ => h.holder pid op .entered (hop ▸ hcall) rfl) (fun _ _ hlock => hlock)
        (fun op known hop hknown => (nomatch hknown))
  | «exists» =>
    simp only [advance] at ho
    split at ho
    · cases ho
      exact h.giveUp hcall rfl
    · rename_i content hcontent
      split at ho
      · rename_i htext
        rw [Bool.and_eq_true] at htext
        cases ho
        refine h.quiet hcall (fun ev hev => (nomatch hev)) h.stored
          (fun op hop _ => h.holder pid op .exists (hop ▸ hcall) rfl) (fun _ _ hlock => hlock) ?_
        -- what is read is the file, which has every row
        intro op known hop hknown id hid
        obtain rfl := Option.some.inj hknown
        have hmem := h.stored id hid
        rw [hcontent, storedIds_text htext.2] at hmem
        exact hmem
      · cases ho
        exact h.giveUp hcall rfl
  | read content =>
    have hknows : ∀ op, call = .write op → ∀ id, InHistory id tr →
        id ∈ ((codec.parse content).map (·.records.map (·.id))).getD [] := by
      intro op hop
      exact h.knows pid op (.read content) _ (hop ▸ hcall) rfl
    simp only [advance] at ho
    split at ho
    · rename_i file hparse
      cases ho
      rw [hparse] at hknows
      exact h.haveFile hcall rfl s.dir file h.stored hknows
    · rename_i hparse
      cases ho
      rw [hparse] at hknows
      refine h.quiet hcall (fun ev hev => (nomatch hev)) h.stored
        (fun op hop _ => h.holder pid op (.read content) (hop ▸ hcall) rfl) (fun _ _ hlock => hlock) ?_
      intro op known hop hknown id hid
      obtain rfl := Option.some.inj hknown
      exact hknows op hop id hid
  | unparsed => exact h.exec_unparsed hcall hguard ho
  | parsed file => exact h.exec_parsed hcall ho
  | returned => cases ho

theorem Safe.begins (h : Safe codec tr s) (call : HistoryCall) :
    Safe codec (tr ++ [⟨s, .call call, { s with calls := s.calls ++ [(call, firstStage call)] }, []⟩])
      { s with calls := s.calls ++ [(call, firstStage call)] } := by
  have hback : ∀ id, InHistory id (tr ++ [⟨s, .call call,
      { s with calls := s.calls ++ [(call, firstStage call)] }, []⟩]) → InHistory id tr :=
    fun id hid => inHistory_quiet (fun ev hev => absurd hev List.not_mem_nil) hid
  have hnew : ∀ (pid : Nat) (op : HistoryOp) (stage : Stage Content),
      (s.calls ++ [(call, firstStage call)])[pid]? = some (.write op, stage) →
        s.calls[pid]? = some (.write op, stage) ∨ stage = .called := by
    intro pid op stage hpid
    rw [List.getElem?_append] at hpid
    split at hpid
    · exact .inl hpid
    · obtain ⟨hcall, hstage⟩ := Prod.mk.inj (List.mem_singleton.mp (List.mem_of_getElem? hpid))
      subst hcall
      exact .inr hstage
  constructor
  · exact fun id hid => h.stored id (hback id hid)
  · intro pid op stage hpid hholds
    rcases hnew pid op stage hpid with hold | rfl
    · exact h.holder pid op stage hold hholds
    · cases hholds
  · intro pid op stage known hpid hknown id hid
    rcases hnew pid op stage hpid with hold | rfl
    · exact h.knows pid op stage known hold hknown id (hback id hid)
    · cases hknown

end Step

/-! ### Runs -/

theorem safe_run {codec : HistoryCodec Content} {dir : DataDir Content}
    {tr : List (Entry (Readers Content) ReadersAct HistoryEvent)} {s : Readers Content}
    (hrun : Run (readersMachine codec) (fun s act => discards codec s act = false) ⟨dir, none, []⟩
      tr s) : Safe codec tr s := by
  refine hrun.invariant (I := Safe codec) ?_ ?_
  · exact ⟨fun id hid => absurd hid Since.not_nil, fun pid op stage hpid => (nomatch hpid),
      fun pid op stage known hpid => (nomatch hpid)⟩
  · intro tr s s' act out h hguard hstep
    cases act with
    | call call =>
      rw [readersMachine, Option.some.injEq, Prod.mk.injEq] at hstep
      obtain ⟨rfl, rfl⟩ := hstep
      exact h.begins call
    | exec pid io =>
      simp only [readersMachine] at hstep
      split at hstep
      · cases hstep
      · rename_i call stage hcall
        split at hstep
        · cases hstep
        · rename_i o ho
          rw [Option.some.injEq, Prod.mk.injEq] at hstep
          obtain ⟨rfl, rfl⟩ := hstep
          exact h.exec hcall hguard ho

/-- Whatever the interleaving and whatever the file held at first: when no `list` moves aside a file
that parses, a row that was opened and neither deleted, cleared nor trimmed since is in the file. -/
theorem opened_row_stored (codec : HistoryCodec Content) (dir : DataDir Content)
    (tr : List (Entry (Readers Content) ReadersAct HistoryEvent)) (s : Readers Content)
    (hrun : Run (readersMachine codec) (fun s act => discards codec s act = false) ⟨dir, none, []⟩
      tr s) (id : String) (hid : InHistory id tr) :
    ∃ content file, s.dir.transferHistory = some content ∧
      codec.deserialize content = some file ∧ ∃ row ∈ file.records, row.id = id := by
  have hmem := (safe_run hrun).stored id hid
  unfold storedIds at hmem
  split at hmem
  · cases hmem
  · rename_i file hread
    obtain ⟨content, hcontent, hfile⟩ := Option.bind_eq_some_iff.mp hread
    obtain ⟨row, hrow, hrowId⟩ := List.mem_map.mp hmem
    exact ⟨content, file, hcontent, hfile, row, hrow, hrowId⟩

/-- A call goes through its next file operations, all of which work. -/
def proceeds (pid steps : Nat) : List ReadersAct := List.replicate steps (.exec pid working)

/-- Call 0 lists a broken history; call 1 opens a row. -/
def listAndOpen : List ReadersAct :=
  [.call .list, .call (.write (.open (.new "a" 0 .send "a.pdf" 10)))]

def finished (s : Readers Content) : Bool :=
  s.calls.all fun call => match call.2 with
    | .returned => true
    | _ => false

instance (id : String) (tr : List (Entry (Readers Content) ReadersAct HistoryEvent)) :
    Decidable (InHistory id tr) :=
  inferInstanceAs (Decidable (Since _ _ tr))

/-- `list` moves the broken file before the row is written: the row is there. -/
theorem opened_row_stored_afterQuarantine :
    ∃ tr s, Run (readersMachine demoHistory) (fun s act => discards demoHistory s act = false)
        ⟨brokenDir, none, []⟩ tr s ∧ finished s = true ∧
      ∃ content file, s.dir.transferHistory = some content ∧
        demoHistory.deserialize content = some file ∧ ∃ row ∈ file.records, row.id = "a" := by
  obtain ⟨tr, s, hrun, htest⟩ := Run.of_check (readersMachine demoHistory)
    (fun s act => discards demoHistory s act = false) ⟨brokenDir, none, []⟩
    (listAndOpen ++ proceeds 0 3 ++ proceeds 1 2 ++ proceeds 0 1 ++ [.exec 1 working] ++
      [.call (.write (.open (.new "a" 0 .send "a.pdf" 10)))] ++ proceeds 2 3)
    (fun tr s => decide (finished s = true ∧ InHistory "a" tr)) (by decide +kernel)
  obtain ⟨hfinished, hopened⟩ := of_decide_eq_true htest
  exact ⟨tr, s, hrun, hfinished, opened_row_stored demoHistory brokenDir tr s hrun "a" hopened⟩

/-- `list` reads the broken file, the row is opened, and `list` moves the new file aside: all calls
have returned and the row is not in the file. -/
theorem opened_row_lost :
    ∃ tr s, Run (readersMachine demoHistory) anyStep ⟨brokenDir, none, []⟩ tr s ∧
      finished s = true ∧ InHistory "a" tr ∧ s.dir.transferHistory = none := by
  obtain ⟨tr, s, hrun, htest⟩ := Run.of_check (readersMachine demoHistory) anyStep
    ⟨brokenDir, none, []⟩ (listAndOpen ++ proceeds 0 3 ++ proceeds 1 6 ++ proceeds 0 1)
    (fun tr s => decide (finished s = true ∧ InHistory "a" tr ∧ s.dir.transferHistory = none))
    (by decide +kernel)
  exact ⟨tr, s, hrun, of_decide_eq_true htest⟩

end DashBeam.Native

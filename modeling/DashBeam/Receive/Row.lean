import DashBeam.Receive.Ownership

/-!
# What the history row of a receive says

`receive_file` opens its row when `download_to_store` announces the transfer and closes it at the
first terminal event: `receive-completed`, shown at the end of `download` but also, before anything is
loaded or exported, when the store already holds the payload; or the outcome of `download` itself. As
long as every history write succeeds and nobody else touches the row, it tells the truth about
`download` exactly when the payload was not there at the start or `download` succeeds.
-/

namespace DashBeam.Receive

open Lib

/-! ## Where a receive stands with its row -/

inductive RowStage
  /-- no event was shown yet -/
  | unopened
  /-- the transfer was announced, or `download` failed -/
  | running
  /-- `download` succeeds -/
  | succeeded
  | done
  deriving DecidableEq, Repr

def Phase.rowStage : Phase → RowStage
  | .start => .unopened
  | .removeStale _ => .unopened
  | .install => .unopened
  | .download .setup => .unopened
  | .download .openStore => .unopened
  | .download .queryStore => .unopened
  | .download .closing => .succeeded
  | .download _ => .running
  | .epilogue .ok => .succeeded
  | .epilogue (.err _) => .running
  | .finalize .ok => .succeeded
  | .finalize (.err _) => .running
  | .done => .done

/-- The step in which the store turns out to hold the whole payload. -/
def findsComplete (x : Invocation) (p : Progress) : Bool :=
  x.phase = .download .queryStore && p = .complete

/-- Going on without an event: not back to where no event was shown. -/
def RowStage.Follows (stage next : RowStage) : Prop :=
  next = stage ∨ (stage = .unopened ∧ next = .running) ∨ next = .done

/-- What a step of a receive does to the rows and its own part of them, every write succeeding. -/
inductive RowMove (fs : FileSystem) (p : Progress) (uuid : String) (rows : List TransferRecord)
    (x : Invocation) : List TransferRecord → Invocation → Prop
  | goto {phase channel} (follows : x.phase.rowStage.Follows phase.rowStage)
      (hash : phase = .download .queryStore → x.hash.isSome = true)
      (quiet : findsComplete x p = false) :
      RowMove fs p uuid rows x rows { x with phase := phase, channel := channel }
  | opens (query : x.phase = .download .queryStore) (fresh : p = .next) :
      RowMove fs p uuid rows x (openRow fs rows x true uuid).1
        { (openRow fs rows x true uuid).2 with phase := .download .fetching }
  | completes (query : x.phase = .download .queryStore) (complete : p = .complete) :
      RowMove fs p uuid rows x
        (finalize (openRow fs rows x true uuid).1 (openRow fs rows x true uuid).2 .completed true).1
        { (finalize (openRow fs rows x true uuid).1 (openRow fs rows x true uuid).2 .completed
            true).2 with phase := .download .loading }
  | exported (exporting : x.phase = .download .exporting) :
      RowMove fs p uuid rows x (finalize rows x .completed true).1
        { (finalize rows x .completed true).2 with phase := .download .closing }
  | finalizes {e} (finalizing : x.phase = .finalize (.err e)) :
      RowMove fs p uuid rows x
        (finalize rows x (if e = "cancelled" then .cancelled else .failed) true).1
        { (finalize rows x (if e = "cancelled" then .cancelled else .failed) true).2 with
          phase := .done }

/-- The other receives at most lose their cancel channel. -/
def Siblings (s s' : State) (r : Nat) : Prop :=
  ∀ j, j ≠ r → ∀ y', s'.receives[j]? = some y' →
    ∃ y channel, s.receives[j]? = some y ∧ y' = { y with channel := channel }

theorem siblings_of_set {s s' : State} {r : Nat} {x' : Invocation}
    (h : s'.receives = s.receives.set r x') : Siblings s s' r := by
  intro j hj y' hy'
  rw [h, List.getElem?_set_ne (Ne.symm hj)] at hy'
  exact ⟨y', y'.channel, hy', rfl⟩

/-- A step of a receive as its row sees it. -/
structure RowStep (fs : FileSystem) (s s' : State) (r : Nat) (x : Invocation) (p : Progress)
    (uuid : String) : Prop where
  moved : ∃ x', s'.receives[r]? = some x' ∧ RowMove fs p uuid s.rows x s'.rows x'
  siblings : Siblings s s' r
  length : s'.receives.length = s.receives.length

theorem rowStep_of_set {fs : FileSystem} {s s' : State} {r : Nat} {x x' : Invocation} {p : Progress}
    {uuid : String} (hx : s.receives[r]? = some x) (hset : s'.receives = s.receives.set r x')
    (hmove : RowMove fs p uuid s.rows x s'.rows x') : RowStep fs s s' r x p uuid := by
  refine ⟨⟨x', ?_, hmove⟩, siblings_of_set hset, ?_⟩
  · rw [hset, getElem?_set_of_some hx, if_pos rfl]
  · rw [hset, List.length_set]

theorem removeStore_rows (s : State) (hash : String) (io : Bool) :
    (removeStore s hash io).1.rows = s.rows := by
  unfold removeStore
  split <;> rfl

theorem rowStep_goto {fs : FileSystem} {s s' : State} {r : Nat} {x : Invocation} {p : Progress}
    {uuid : String} (hx : s.receives[r]? = some x) (phase : Phase) {channel : Channel}
    (hset : s'.receives = s.receives.set r { x with phase := phase, channel := channel })
    (hrows : s'.rows = s.rows) (hfollows : x.phase.rowStage.Follows phase.rowStage)
    (hquiet : findsComplete x p = false)
    (hhash : phase = .download .queryStore → x.hash.isSome = true) : RowStep fs s s' r x p uuid := by
  apply rowStep_of_set hx hset
  rw [hrows]
  exact .goto hfollows hhash hquiet

theorem findsComplete_of_ne {x : Invocation} (p : Progress) (h : x.phase ≠ .download .queryStore) :
    findsComplete x p = false := by
  simp [findsComplete, h]

/-- A step of `download` without an event leaves the stage of the row or opens it. -/
theorem Goes.follows {x : Invocation} {p : Progress} {phase : Phase} {d : Download}
    (hgoes : Goes x p phase) (hphase : x.phase = .download d) :
    x.phase.rowStage.Follows phase.rowStage := by
  have hfrom : x.phase.rowStage = .unopened ∨ x.phase.rowStage = .running := by
    have hrunning := hgoes.running
    rw [hphase] at hrunning ⊢
    cases d with
    | setup | openStore | queryStore => exact .inl rfl
    | closing => exact absurd rfl hrunning
    | _ => exact .inr rfl
  have hlate : phase.rowStage = .running → x.phase.rowStage.Follows phase.rowStage := by
    intro hto
    rcases hfrom with hfrom | hfrom
    · exact .inr (.inl ⟨hfrom, hto⟩)
    · exact .inl (hto.trans hfrom.symm)
  have hearly : x.phase = .download .setup → phase.rowStage = .unopened →
      x.phase.rowStage.Follows phase.rowStage := by
    intro hsetup hto
    rw [hsetup, hto]
    exact .inl rfl
  cases phase with
  | download d' =>
    cases d' with
    | setup => exact hearly (hgoes.notBack (.inl rfl)) rfl
    | openStore => exact hearly (hgoes.notBack (.inr rfl)) rfl
    | queryStore => exact absurd rfl hgoes.notQuery
    | closing => exact absurd rfl hgoes.notClosing
    | _ => exact hlate rfl
  | epilogue result =>
    cases result with
    | ok => exact absurd rfl hgoes.notOk
    | err e => exact hlate rfl
  | start | removeStale _ | install | finalize _ | done => cases hgoes.inFlight

theorem rowStep_download {fs : FileSystem} {s s' : State} {r : Nat} {x : Invocation} {d : Download}
    {p : Progress} {uuid : String} (hx : s.receives[r]? = some x) (hphase : x.phase = .download d)
    (h : downloadStep fs s r x d p true uuid = some s') : RowStep fs s s' r x p uuid := by
  cases downloadStep_cases hphase h with
  | goto goes =>
    refine rowStep_goto hx _ rfl rfl (goes.follows hphase) ?_ (fun hquery => absurd hquery goes.notQuery)
    by_cases hquery : x.phase = .download .queryStore
    · simp [findsComplete, goes.quiet hquery]
    · exact findsComplete_of_ne p hquery
  | opens hash opening =>
    refine rowStep_goto hx _ rfl rfl ?_ (findsComplete_of_ne p (by simp [opening]))
      (fun _ => by rw [hash]; rfl)
    rw [opening]
    exact .inl rfl
  | announces query fresh => exact rowStep_of_set hx rfl (.opens query fresh)
  | complete query complete => exact rowStep_of_set hx rfl (.completes query complete)
  | exported exporting last => exact rowStep_of_set hx rfl (.exported exporting)
  | closed closing hash =>
    refine rowStep_goto hx _ rfl rfl ?_ (findsComplete_of_ne p (by simp [closing])) (by simp)
    rw [closing]
    exact .inl rfl

theorem getElem?_dropSender {receives : List Invocation} {slot : Option Nat} {j : Nat}
    {y' : Invocation} (h : (dropSender receives slot)[j]? = some y') :
    ∃ y channel, receives[j]? = some y ∧ y' = { y with channel := channel } := by
  unfold dropSender at h
  split at h
  · exact ⟨y', y'.channel, h, rfl⟩
  · rename_i r
    rw [List.getElem?_modify] at h
    obtain ⟨y, hy, heq⟩ := Option.map_eq_some_iff.mp h
    split at heq
    · split at heq
      · exact ⟨y, .dropped, hy, heq.symm⟩
      · exact ⟨y, y.channel, hy, heq.symm⟩
    · exact ⟨y, y.channel, hy, heq.symm⟩

theorem dropSender_of_some {receives : List Invocation} (slot : Option Nat) {j : Nat}
    {y : Invocation} (h : receives[j]? = some y) :
    ∃ channel, (dropSender receives slot)[j]? = some { y with channel := channel } := by
  unfold dropSender
  split
  · exact ⟨y.channel, h⟩
  · rw [List.getElem?_modify, h, Option.map_eq_map, Option.map_some]
    split
    · split
      · exact ⟨.dropped, rfl⟩
      · exact ⟨y.channel, rfl⟩
    · exact ⟨y.channel, rfl⟩

theorem length_dropSender (receives : List Invocation) (slot : Option Nat) :
    (dropSender receives slot).length = receives.length := by
  unfold dropSender
  split
  · rfl
  · exact List.length_modify _ _ _

theorem rowStep_epilogue {fs : FileSystem} {s : State} {r : Nat} {x : Invocation} {p : Progress}
    {uuid : String} {result : DownloadResult} (hx : s.receives[r]? = some x)
    (hphase : x.phase = .epilogue result) :
    RowStep fs s (epilogue s r x result) r x p uuid := by
  refine ⟨?_, ?_, ?_⟩
  · obtain ⟨channel, hdropped⟩ := dropSender_of_some s.app.currentReceiveCancel hx
    refine ⟨{ x with phase := .finalize result, channel := channel }, ?_, .goto ?_ (by simp) ?_⟩
    · show ((dropSender s.receives s.app.currentReceiveCancel).modify r
        fun x => { x with phase := .finalize result })[r]? = _
      rw [List.getElem?_modify_eq, hdropped]
      rfl
    · rw [hphase]
      cases result with
      | ok => exact .inl rfl
      | err e => exact .inl rfl
    · exact findsComplete_of_ne p (by simp [hphase])
  · intro j hj y' hy'
    replace hy' : ((dropSender s.receives s.app.currentReceiveCancel).modify r
      fun x => { x with phase := .finalize result })[j]? = some y' := hy'
    rw [List.getElem?_modify_ne _ _ (Ne.symm hj)] at hy'
    exact getElem?_dropSender hy'
  · show ((dropSender s.receives s.app.currentReceiveCancel).modify r
      fun x => { x with phase := .finalize result }).length = s.receives.length
    rw [List.length_modify, length_dropSender]

theorem rowStep_removeStale {fs : FileSystem} {s s' : State} {r : Nat} {x : Invocation} {p : Progress}
    {io : Bool} {uuid stale : String} {out : List Out} (hx : s.receives[r]? = some x)
    (hphase : x.phase = .removeStale stale) (h : receiveStep fs s r x p io uuid = some (s', out)) :
    RowStep fs s s' r x p uuid := by
  rw [receiveStep, hphase, Option.some.injEq] at h
  obtain rfl : s' = _ := (congrArg Prod.fst h).symm
  refine rowStep_goto hx .install (by rw [removeStore_receives]; rfl) (removeStore_rows _ _ _) ?_
    (findsComplete_of_ne p (by simp [hphase])) (by simp)
  rw [hphase]
  exact .inl rfl

theorem rowStep_receive {fs : FileSystem} {s s' : State} {r : Nat} {x : Invocation} {p : Progress}
    {io : Bool} {uuid : String} {out : List Out} (hx : s.receives[r]? = some x)
    (hio : (∀ stale, x.phase ≠ .removeStale stale) → io = true)
    (h : receiveStep fs s r x p io uuid = some (s', out)) : RowStep fs s s' r x p uuid := by
  by_cases hstale : ∃ stale, x.phase = .removeStale stale
  · obtain ⟨stale, hphase⟩ := hstale
    exact rowStep_removeStale hx hphase h
  obtain rfl := hio (not_exists.mp hstale)
  unfold receiveStep at h
  split at h
  · rename_i hphase
    cases h
    have hquiet := findsComplete_of_ne p (by simp [hphase] : x.phase ≠ .download .queryStore)
    have hfollows : x.phase.rowStage.Follows .unopened := by
      rw [hphase]
      exact .inl rfl
    unfold takeStale
    split
    · exact rowStep_goto hx .install rfl rfl hfollows hquiet (by simp)
    · dsimp only
      split
      · exact rowStep_goto hx .install rfl rfl hfollows hquiet (by simp)
      · rename_i new _ _ stale _
        refine rowStep_goto hx (if stale ≠ new then .removeStale stale else .install) rfl rfl ?_ hquiet ?_
        · split
          · exact hfollows
          · exact hfollows
        · split
          · intro h
            cases h
          · intro h
            cases h
  · rename_i stale hphase
    exact absurd ⟨stale, hphase⟩ hstale
  · rename_i hphase
    cases h
    have hquiet := findsComplete_of_ne p (by simp [hphase] : x.phase ≠ .download .queryStore)
    unfold install
    split
    · exact rowStep_goto hx .done rfl rfl (.inr (.inr rfl)) hquiet (by simp)
    · refine rowStep_goto hx (.download .setup) rfl rfl ?_ hquiet (by simp)
      rw [hphase]
      exact .inl rfl
  · rename_i d hphase
    obtain ⟨t, ht, hpair⟩ := Option.map_eq_some_iff.mp h
    cases hpair
    exact rowStep_download hx hphase ht
  · rename_i result hphase
    cases h
    exact rowStep_epilogue hx hphase
  · rename_i result hphase
    cases result with
    | ok =>
      cases h
      refine rowStep_goto hx .done rfl rfl (.inr (.inr rfl))
        (findsComplete_of_ne p (by simp [hphase])) (by simp)
    | err e =>
      cases h
      exact rowStep_of_set hx rfl (.finalizes hphase)
  · cases h

/-! ## What is known of a row -/

/-- The row of a receive, `took` telling whether the store was found complete. A closed row says
that the transfer completed; an open one points at the partial store. -/
structure RowTells (took : Bool) (rows : List TransferRecord) (x : Invocation) : Prop where
  hash : x.phase = .download .queryStore → x.hash.isSome = true
  unopened : x.phase.rowStage = .unopened → x.row = none ∧ x.finalized = false ∧ took = false
  running : x.phase.rowStage = .running → x.row.isSome = true → x.finalized = took
  succeeded : x.phase.rowStage = .succeeded → x.row.isSome = true → x.finalized = true
  record : x.phase.rowStage ≠ .done → ∀ id, x.row = some id → ∃ record, rowOf rows id = some record ∧
    if x.finalized then record.status = .completed ∧ record.resumableStorePath = none
    else record.status = .inProgress ∧ record.resumableStorePath.isSome = true

theorem openRow_eq {fs : FileSystem} {rows : List TransferRecord} {x : Invocation} {uuid : String}
    (hrow : x.row = none) : openRow fs rows x true uuid =
      if x.recording then
        (openRecord rows ⟨uuid, .inProgress, x.hash, x.hash.map (partialStorePathFor fs)⟩,
          { x with row := some uuid })
      else (rows, x) := by
  rw [openRow, hrow]
  cases x.recording with
  | true => rfl
  | false => rfl

theorem finalize_eq {rows : List TransferRecord} {x : Invocation} {id : String}
    (hrow : x.row = some id) (hopen : x.finalized = false) (status : TransferStatus) :
    finalize rows x status true
      = (updateRecord rows id (finalizeRecord status), { x with finalized := true }) := by
  simp [finalize, hrow, hopen]

theorem finalize_of_none {rows : List TransferRecord} {x : Invocation} (hrow : x.row = none)
    (status : TransferStatus) : finalize rows x status true = (rows, x) := by
  simp [finalize, hrow]

theorem finalize_of_finalized {rows : List TransferRecord} {x : Invocation}
    (hclosed : x.finalized = true) (status : TransferStatus) :
    finalize rows x status true = (rows, x) := by
  rw [finalize]
  split
  · rfl
  · rw [if_pos hclosed]

theorem finalizeRecord_id (status : TransferStatus) (record : TransferRecord) :
    (finalizeRecord status record).id = record.id := rfl

section

variable {fs : FileSystem} {p : Progress} {uuid : String} {rows rows' : List TransferRecord}
  {x : Invocation} {took : Bool}

theorem rowTells_goto (hx : RowTells took rows x) {phase : Phase} {channel : Channel}
    (follows : x.phase.rowStage.Follows phase.rowStage)
    (hash : phase = .download .queryStore → x.hash.isSome = true) :
    RowTells took rows { x with phase := phase, channel := channel } := by
  -- a receive that leaves the start without an event has no row at all
  have hnone : x.phase.rowStage = .unopened → x.row.isSome ≠ true := by
    intro h
    rw [(hx.unopened h).1]
    exact Bool.false_ne_true
  refine ⟨hash, ?_, ?_, ?_, ?_⟩
  · intro hstage
    replace hstage : phase.rowStage = .unopened := hstage
    rw [hstage] at follows
    rcases follows with h | ⟨_, h⟩ | h
    · exact hx.unopened h.symm
    · cases h
    · cases h
  · intro hstage hrow
    replace hstage : phase.rowStage = .running := hstage
    rw [hstage] at follows
    rcases follows with h | ⟨h, _⟩ | h
    · exact hx.running h.symm hrow
    · exact absurd hrow (hnone h)
    · cases h
  · intro hstage hrow
    replace hstage : phase.rowStage = .succeeded := hstage
    rw [hstage] at follows
    rcases follows with h | ⟨h, _⟩ | h
    · exact hx.succeeded h.symm hrow
    · exact absurd hrow (hnone h)
    · cases h
  · intro hstage id hid
    replace hstage : phase.rowStage ≠ .done := hstage
    rcases follows with h | ⟨h, _⟩ | h
    · exact hx.record (by rwa [← h]) id hid
    · exact absurd (by rw [show x.row = some id from hid]; rfl) (hnone h)
    · exact absurd h hstage

/-- A receive without a row, past the start. -/
theorem rowTells_of_none {x : Invocation} (hrow : x.row = none)
    (hstage : x.phase.rowStage ≠ .unopened) : RowTells took rows x where
  hash := by
    intro h
    rw [h] at hstage
    exact absurd rfl hstage
  unopened := fun h => absurd h hstage
  running := by
    intro _ h
    rw [hrow] at h
    cases h
  succeeded := by
    intro _ h
    rw [hrow] at h
    cases h
  record := by
    intro _ id h
    rw [hrow] at h
    cases h

theorem rowTells_opens (hx : RowTells took rows x) (query : x.phase = .download .queryStore) :
    RowTells took (openRow fs rows x true uuid).1
      { (openRow fs rows x true uuid).2 with phase := .download .fetching } := by
  have hhash := hx.hash query
  obtain ⟨hrow, hopen, htook⟩ := hx.unopened (by rw [query]; rfl)
  rw [openRow_eq hrow]
  split
  · refine ⟨nofun, nofun, fun _ _ => hopen.trans htook.symm, nofun, ?_⟩
    rintro _ id ⟨⟩
    refine ⟨_, rowOf_openRecord rows _, ?_⟩
    rw [show ({ x with row := some uuid, phase := .download .fetching } : Invocation).finalized = false
      from hopen]
    refine ⟨rfl, ?_⟩
    show (x.hash.map (partialStorePathFor fs)).isSome = true
    rwa [Option.isSome_map]
  · exact rowTells_of_none hrow (by simp [Phase.rowStage])

theorem rowTells_completed {x : Invocation} {phase : Phase}
    (hrecord : ∀ id, x.row = some id → ∃ record, rowOf rows id = some record ∧
      if x.finalized then record.status = .completed ∧ record.resumableStorePath = none
      else record.status = .inProgress ∧ record.resumableStorePath.isSome = true)
    (hstage : phase.rowStage = .succeeded ∨ phase.rowStage = .running ∧ took = true) :
    RowTells took (finalize rows x .completed true).1
      { (finalize rows x .completed true).2 with phase := phase } := by
  have hunopened : phase.rowStage ≠ .unopened := by
    rcases hstage with h | ⟨h, _⟩ <;> simp [h]
  cases hrow : x.row with
  | none =>
    rw [finalize_of_none hrow]
    exact rowTells_of_none hrow hunopened
  | some id =>
    obtain ⟨record, hfound, htells⟩ := hrecord id hrow
    have hclosed : ∃ rows' record', finalize rows x .completed true
          = (rows', { x with finalized := true }) ∧ rowOf rows' id = some record' ∧
        record'.status = .completed ∧ record'.resumableStorePath = none := by
      cases hfinalized : x.finalized with
      | true =>
        rw [hfinalized, if_pos rfl] at htells
        refine ⟨rows, record, ?_, hfound, htells⟩
        rw [finalize_of_finalized hfinalized, ← hfinalized]
      | false =>
        refine ⟨_, finalizeRecord .completed record, finalize_eq hrow hfinalized .completed, ?_, rfl,
          rfl⟩
        rw [rowOf_updateRecord (finalizeRecord_id .completed), hfound]
        rfl
    obtain ⟨rows', record', heq, hfound', hstatus, hpath⟩ := hclosed
    rw [heq]
    refine ⟨?_, fun h => absurd h hunopened, ?_, fun _ _ => rfl, ?_⟩
    · intro h
      replace h : phase = .download .queryStore := h
      rw [h] at hunopened
      exact absurd rfl hunopened
    · intro h _
      rcases hstage with hs | ⟨_, htook⟩
      · rw [show phase.rowStage = .running from h] at hs
        cases hs
      · exact htook.symm
    · intro _ id' hid'
      obtain rfl : id = id' := Option.some.inj (hrow.symm.trans hid')
      exact ⟨record', hfound', hstatus, hpath⟩

theorem rowTells_move {x' : Invocation} (hx : RowTells took rows x)
    (hm : RowMove fs p uuid rows x rows' x') : RowTells (took || findsComplete x p) rows' x' := by
  cases hm with
  | goto follows hash quiet =>
    rw [quiet, Bool.or_false]
    exact rowTells_goto hx follows hash
  | opens query fresh =>
    have hquiet : findsComplete x p = false := by simp [findsComplete, fresh]
    rw [hquiet, Bool.or_false]
    exact rowTells_opens hx query
  | completes query complete =>
    have htook : findsComplete x p = true := by simp [findsComplete, query, complete]
    rw [htook, Bool.or_true]
    have hopened : RowTells took (openRow fs rows x true uuid).1 _ := rowTells_opens hx query
    exact rowTells_completed (hopened.record (by simp [Phase.rowStage])) (.inr ⟨rfl, rfl⟩)
  | exported exporting =>
    have hquiet := findsComplete_of_ne p (by simp [exporting] : x.phase ≠ .download .queryStore)
    rw [hquiet, Bool.or_false]
    exact rowTells_completed (hx.record (by simp [exporting, Phase.rowStage])) (.inl rfl)
  | finalizes finalizing =>
    exact ⟨nofun, nofun, nofun, nofun, fun h => absurd rfl h⟩

/-- Rows of other receives, the ones dropped at the cap apart. -/
theorem rowOf_move {x' : Invocation} (hm : RowMove fs p uuid rows x rows' x') {id : String}
    (hown : x.row ≠ some id)
    (hnew : x.phase = .download .queryStore → p = .next ∨ p = .complete →
      id ≠ uuid ∧ ∀ row ∈ rows.drop (maxRecords - 1), row.id ≠ id) :
    rowOf rows' id = rowOf rows id := by
  have hfinalize : ∀ (rows : List TransferRecord) (x : Invocation) (status : TransferStatus),
      x.row ≠ some id → rowOf (finalize rows x status true).1 id = rowOf rows id := by
    intro rows x status hx
    rw [finalize]
    split
    · rfl
    · rename_i id' hid'
      split
      · rfl
      · have hne : id ≠ id' := by
          rintro rfl
          exact hx hid'
        exact rowOf_updateRecord_of_ne (finalizeRecord_id status) hne
  have hopen : x.phase = .download .queryStore → p = .next ∨ p = .complete →
      rowOf (openRow fs rows x true uuid).1 id = rowOf rows id ∧
        (openRow fs rows x true uuid).2.row ≠ some id := by
    intro query hp
    obtain ⟨hne, hkept⟩ := hnew query hp
    rw [openRow]
    split
    · exact ⟨rfl, hown⟩
    · refine ⟨rowOf_openRecord_of_ne hne hkept, ?_⟩
      intro h
      exact hne (Option.some.inj h).symm
  cases hm with
  | goto follows hash quiet => rfl
  | opens query fresh => exact (hopen query (.inl fresh)).1
  | completes query complete =>
    obtain ⟨hrows, hrow⟩ := hopen query (.inr complete)
    exact (hfinalize _ _ .completed hrow).trans hrows
  | exported exporting => exact hfinalize rows x .completed hown
  | finalizes finalizing => exact hfinalize rows x _ hown

/-- A step gives a receive its row or leaves it. -/
theorem row_move {x' : Invocation} (hm : RowMove fs p uuid rows x rows' x') :
    x'.row = x.row ∨ (x'.row = some uuid ∧ x.phase = .download .queryStore ∧
      (p = .next ∨ p = .complete)) := by
  have hfinalize : ∀ (rows : List TransferRecord) (x : Invocation) (status : TransferStatus),
      (finalize rows x status true).2.row = x.row := by
    intro rows x status
    obtain ⟨b, hb⟩ := finalize_invocation rows x status true
    rw [hb]
  have hopen : (openRow fs rows x true uuid).2.row = x.row ∨
      (openRow fs rows x true uuid).2.row = some uuid := by
    rw [openRow]
    split
    · exact .inl rfl
    · exact .inr rfl
  cases hm with
  | goto follows hash quiet => exact .inl rfl
  | opens query fresh =>
    rcases hopen with h | h
    · exact .inl h
    · exact .inr ⟨h, query, .inl fresh⟩
  | completes query complete =>
    have hsame := hfinalize (openRow fs rows x true uuid).1 (openRow fs rows x true uuid).2 .completed
    rcases hopen with h | h
    · exact .inl (hsame.trans h)
    · exact .inr ⟨hsame.trans h, query, .inr complete⟩
  | exported exporting => exact .inl (hfinalize rows x .completed)
  | finalizes finalizing => exact .inl (hfinalize rows x _)

end

/-! ## Nobody touches the row of a running receive -/

def liveRow (s : State) (id : String) : Bool :=
  s.receives.any fun x => decide (x.phase ≠ .done) && decide (x.row = some id)

/-- The receive announces its transfer in this step. -/
def announces (s : State) (r : Nat) (p : Progress) : Bool :=
  (s.receives[r]?).any fun x =>
    decide (x.phase = .download .queryStore) && (decide (p = .next) || decide (p = .complete))

/-- The command forgets the partial store of a running receive's row. -/
def clearsLive (s : State) : Command → Bool
  | .tempReclaimed record => liveRow s record.id
  | _ => false

/-- The receive removes another transfer's partial store in this step, and writes no history. -/
def removesStale (s : State) (r : Nat) : Bool :=
  (s.receives[r]?).any fun x =>
    match x.phase with
    | .removeStale _ => true
    | _ => false

/-- Every history write succeeds, a new row gets a new id, and no row of a running receive is deleted,
cleared of its partial store or dropped at the cap. -/
def LeavesRows (s : State) : Act → Prop
  | .receive r p io uuid => (removesStale s r = false → io = true) ∧ (announces s r p = true →
      (∀ row ∈ s.rows, row.id ≠ uuid) ∧ ∀ row ∈ s.rows.drop (maxRecords - 1), liveRow s row.id = false)
  | .deleteTransferRecord id _ => liveRow s id = false
  | .clearTransferHistory _ => ∀ row ∈ s.rows, liveRow s row.id = false
  | .command c _ => (s.commands[c]?).any (clearsLive s) = false
  | _ => True

instance (s : State) (a : Act) : Decidable (LeavesRows s a) := by
  cases a with
  | receive r p io uuid => exact inferInstanceAs (Decidable (_ ∧ _))
  | deleteTransferRecord id io => exact inferInstanceAs (Decidable (_ = _))
  | clearTransferHistory io => exact inferInstanceAs (Decidable (∀ row ∈ s.rows, _))
  | command c io => exact inferInstanceAs (Decidable (_ = _))
  | _ => exact .isTrue trivial

theorem liveRow_of {s : State} {j : Nat} {y : Invocation} {id : String}
    (hy : s.receives[j]? = some y) (hphase : y.phase ≠ .done) (hrow : y.row = some id) :
    liveRow s id = true := by
  rw [liveRow, List.any_eq_true]
  exact ⟨y, List.mem_of_getElem? hy, by simp [hphase, hrow]⟩

theorem RowTells.keep {took : Bool} {rows rows' : List TransferRecord} {x : Invocation}
    (hx : RowTells took rows x) (channel : Channel)
    (hrows : ∀ id, x.phase ≠ .done → x.row = some id → rowOf rows' id = rowOf rows id) :
    RowTells took rows' { x with channel := channel } := by
  refine ⟨hx.hash, hx.unopened, hx.running, hx.succeeded, ?_⟩
  intro hstage id hid
  have hphase : x.phase ≠ .done := by
    intro h
    exact hstage (by rw [show ({ x with channel := channel } : Invocation).phase = .done from h]; rfl)
  rw [hrows id hphase hid]
  exact hx.record hstage id hid

theorem leaves_rows {fs : FileSystem} {s s' : State} {a : Act} {out : List Out}
    (hok : LeavesRows s a) (h : step fs s a = some (s', out))
    (hnot : ∀ r p io uuid, a ≠ .receive r p io uuid) {id : String} (hlive : liveRow s id = true) :
    rowOf s'.rows id = rowOf s.rows id := by
  have hne : ∀ {other : String}, liveRow s other = false → id ≠ other := by
    rintro other hother rfl
    rw [hlive] at hother
    cases hother
  cases a with
  | receiveFile hash recording =>
    cases h
    rfl
  | receive r p io uuid => exact absurd rfl (hnot r p io uuid)
  | cancelReceive =>
    cases h
    unfold cancelReceive
    split <;> rfl
  | deleteTransferRecord other io =>
    rw [step] at h
    split at h
    · split at h
      · cases h
        rfl
      · rename_i record rows hdelete
        cases h
        exact rowOf_deleteRecord hdelete (hne hok)
    · cases h
      rfl
  | clearTransferHistory io =>
    rw [step] at h
    split at h
    · cases h
      have hnone : rowOf s.rows id = none := by
        rw [rowOf, List.find?_eq_none]
        intro row hrow
        simpa using Ne.symm (hne (hok row hrow))
      rw [hnone]
      rfl
    · cases h
      rfl
  | clearTransferTempData other io =>
    rw [step] at h
    split at h
    · split at h <;> (cases h; rfl)
    · cases h
      rfl
  | command c io =>
    rw [step] at h
    split at h
    · cases h
    · rename_i cmd hcmd
      cases cmd with
      | reclaim records =>
        cases records with
        | nil =>
          cases h
          rfl
        | cons record rest =>
          simp only [commandStep] at h
          split at h
          · cases h
            rfl
          · rw [Option.some.injEq] at h
            obtain rfl : s' = _ := (congrArg Prod.fst h).symm
            rw [removeStore_rows]
      | tempFound record =>
        simp only [commandStep] at h
        split at h
        · cases h
          rfl
        · split at h <;> (cases h; rfl)
      | tempChecked record =>
        simp only [commandStep] at h
        split at h
        · cases h
          rfl
        · rw [Option.some.injEq] at h
          obtain rfl : s' = _ := (congrArg Prod.fst h).symm
          rw [removeStore_rows]
      | tempReclaimed record =>
        have hrecord : liveRow s record.id = false := by
          rw [LeavesRows, hcmd] at hok
          exact hok
        cases h
        cases io with
        | true =>
          show rowOf (updateRecord s.rows record.id fun r => { r with resumableStorePath := none }) id
            = rowOf s.rows id
          exact rowOf_updateRecord_of_ne (fun _ => rfl) (hne hrecord)
        | false => rfl
      | done => cases h
  | cleanup io =>
    rw [step] at h
    split at h
    · cases h
    · rw [Option.some.injEq] at h
      obtain rfl : s' = _ := (congrArg Prod.fst h).symm
      rw [removeStore_rows]

theorem getElem?_cancelReceive {s : State} {j : Nat} {y' : Invocation}
    (h : (cancelReceive s).receives[j]? = some y') :
    ∃ y channel, s.receives[j]? = some y ∧ y' = { y with channel := channel } := by
  unfold cancelReceive at h
  split at h
  · exact ⟨y', y'.channel, h, rfl⟩
  · rename_i r hr
    replace h : (s.receives.modify r fun x => { x with channel := .sent })[j]? = some y' := h
    rw [List.getElem?_modify] at h
    obtain ⟨y, hy, heq⟩ := Option.map_eq_some_iff.mp h
    split at heq
    · exact ⟨y, .sent, hy, heq.symm⟩
    · exact ⟨y, y.channel, hy, heq.symm⟩

/-! ## Runs -/

/-- The store was found complete by receive `r` in this step. -/
def completesAt (r : Nat) (e : Entry State Act Out) : Bool :=
  match e.act with
  | .receive r' p _ _ => decide (r' = r) && (e.pre.receives[r]?).any fun x => findsComplete x p
  | _ => false

/-- The store held the whole payload when receive `r` asked. -/
def alreadyComplete (tr : List (Entry State Act Out)) (r : Nat) : Bool := tr.any (completesAt r)

theorem alreadyComplete_snoc (tr : List (Entry State Act Out)) (e : Entry State Act Out) (r : Nat) :
    alreadyComplete (tr ++ [e]) r = (alreadyComplete tr r || completesAt r e) := by
  simp [alreadyComplete]

structure RowsInv (tr : List (Entry State Act Out)) (s : State) : Prop where
  tells : ∀ (r : Nat) (x : Invocation), s.receives[r]? = some x →
    RowTells (alreadyComplete tr r) s.rows x
  distinct : ∀ (i j : Nat) (x y : Invocation) (id : String), i ≠ j → s.receives[i]? = some x →
    s.receives[j]? = some y → x.phase ≠ .done → y.phase ≠ .done → x.row = some id → y.row ≠ some id
  later : ∀ r, s.receives[r]? = none → alreadyComplete tr r = false

theorem rowsInv_initial (rows : List TransferRecord) (stores : Finset String) (last : Option String) :
    RowsInv [] (initial rows stores last) where
  tells := by
    intro r x h
    cases h
  distinct := by
    intro i j x y id _ h
    cases h
  later := fun _ _ => rfl

section

variable {fs : FileSystem} {tr : List (Entry State Act Out)} {s s' : State} {a : Act}
  {out : List Out}

/-- A step that leaves the receives but for their channels, and the rows of running ones. -/
theorem RowsInv.quiet (hs : RowsInv tr s)
    (hreceives : ∀ (j : Nat) (y' : Invocation), s'.receives[j]? = some y' →
      ∃ y channel, s.receives[j]? = some y ∧ y' = { y with channel := channel })
    (hnone : ∀ j : Nat, s'.receives[j]? = none → s.receives[j]? = none)
    (hrows : ∀ id, liveRow s id = true → rowOf s'.rows id = rowOf s.rows id)
    (hquiet : ∀ r, completesAt r ⟨s, a, s', out⟩ = false) : RowsInv (tr ++ [⟨s, a, s', out⟩]) s' := by
  have hsame : ∀ r, alreadyComplete (tr ++ [⟨s, a, s', out⟩]) r = alreadyComplete tr r := by
    intro r
    rw [alreadyComplete_snoc, hquiet, Bool.or_false]
  refine ⟨?_, ?_, ?_⟩
  · intro r y' hy'
    obtain ⟨y, channel, hy, rfl⟩ := hreceives r y' hy'
    rw [hsame]
    refine (hs.tells r y hy).keep channel ?_
    intro id hphase hrow
    exact hrows id (liveRow_of hy hphase hrow)
  · intro i j x' y' id hij hx' hy'
    obtain ⟨x, _, hx, rfl⟩ := hreceives i x' hx'
    obtain ⟨y, _, hy, rfl⟩ := hreceives j y' hy'
    exact hs.distinct i j x y id hij hx hy
  · intro r hr
    rw [hsame]
    exact hs.later r (hnone r hr)

theorem RowsInv.receive (hs : RowsInv tr s) {r : Nat} {x : Invocation} {p : Progress} {io : Bool}
    {uuid : String} (hx : s.receives[r]? = some x) (hok : LeavesRows s (.receive r p io uuid))
    (h : receiveStep fs s r x p io uuid = some (s', out)) :
    RowsInv (tr ++ [⟨s, .receive r p io uuid, s', out⟩]) s' := by
  have hio : (∀ stale, x.phase ≠ .removeStale stale) → io = true := by
    intro hnot
    refine hok.1 ?_
    rw [removesStale, hx, Option.any_some]
    split
    · rename_i stale hphase
      exact absurd hphase (hnot stale)
    · rfl
  obtain ⟨⟨x', hx', hmove⟩, hsiblings, hlength⟩ := rowStep_receive hx hio h
  have hannounces : x.phase = .download .queryStore → p = .next ∨ p = .complete →
      announces s r p = true := by
    intro hphase hp
    simp [announces, hx, hphase, hp]
  -- the row of another running receive is on record, so it is not the new one
  have hother : ∀ (j : Nat) (y : Invocation) (id : String), j ≠ r → s.receives[j]? = some y →
      y.phase ≠ .done → y.row = some id → x.phase = .download .queryStore → p = .next ∨ p = .complete →
      id ≠ uuid ∧ ∀ row ∈ s.rows.drop (maxRecords - 1), row.id ≠ id := by
    intro j y id hj hy hphase hrow hquery hp
    obtain ⟨hfresh, hkept⟩ := hok.2 (hannounces hquery hp)
    have hstage : y.phase.rowStage ≠ .done := by
      intro hdone
      cases hyphase : y.phase with
      | done => exact hphase hyphase
      | download d => rw [hyphase] at hdone; cases d <;> cases hdone
      | epilogue result => rw [hyphase] at hdone; cases result <;> cases hdone
      | finalize result => rw [hyphase] at hdone; cases result <;> cases hdone
      | _ => rw [hyphase] at hdone; cases hdone
    obtain ⟨record, hfound, _⟩ := (hs.tells j y hy).record hstage id hrow
    have hmem := List.mem_of_find?_eq_some hfound
    have hid : record.id = id := by simpa using List.find?_some hfound
    refine ⟨?_, ?_⟩
    · rw [← hid]
      exact hfresh record hmem
    · intro row hrowmem hrowid
      have hlive := liveRow_of hy hphase hrow
      rw [← hrowid, hkept row hrowmem] at hlive
      cases hlive
  have htook : ∀ j, alreadyComplete (tr ++ [⟨s, .receive r p io uuid, s', out⟩]) j
      = (alreadyComplete tr j || (decide (r = j) && findsComplete x p)) := by
    intro j
    rw [alreadyComplete_snoc, completesAt]
    by_cases hj : r = j
    · subst hj
      simp [hx]
    · simp [hj]
  have hrows : ∀ (j : Nat) (y : Invocation) (id : String), j ≠ r → s.receives[j]? = some y →
      y.phase ≠ .done → x.phase ≠ .done → y.row = some id → rowOf s'.rows id = rowOf s.rows id := by
    intro j y id hj hy hphase hxphase hrow
    refine rowOf_move hmove ?_ fun hquery hp => hother j y id hj hy hphase hrow hquery hp
    intro hxrow
    exact hs.distinct r j x y id (Ne.symm hj) hx hy hxphase hphase hxrow hrow
  have hxphase : x.phase ≠ .done := by
    intro hdone
    rw [receiveStep, hdone] at h
    cases h
  refine ⟨?_, ?_, ?_⟩
  · intro j y' hy'
    by_cases hj : j = r
    · subst hj
      obtain rfl := Option.some.inj (hx'.symm.trans hy')
      rw [htook, decide_eq_true rfl, Bool.true_and]
      exact rowTells_move (hs.tells j x hx) hmove
    · obtain ⟨y, channel, hy, rfl⟩ := hsiblings j hj y' hy'
      rw [htook, decide_eq_false (Ne.symm hj), Bool.false_and, Bool.or_false]
      refine (hs.tells j y hy).keep channel ?_
      intro id hphase hrow
      exact hrows j y id hj hy hphase hxphase hrow
  · -- a new row differs from the rows of the other running receives
    have hnew : ∀ (j : Nat) (y : Invocation) (id : String), j ≠ r → s.receives[j]? = some y →
        y.phase ≠ .done → y.row = some id → x'.row ≠ some id := by
      intro j y id hj hy hphase hrow hxrow
      rcases row_move hmove with hsame | ⟨huuid, hquery, hp⟩
      · exact hs.distinct r j x y id (Ne.symm hj) hx hy hxphase hphase (hsame ▸ hxrow) hrow
      · exact (hother j y id hj hy hphase hrow hquery hp).1 (Option.some.inj (hxrow.symm.trans huuid))
    intro i j y y₂ id hij hy hy₂ hphase hphase₂ hrow hrow₂
    by_cases hi : i = r
    · subst hi
      obtain rfl := Option.some.inj (hx'.symm.trans hy)
      obtain ⟨z, _, hz, rfl⟩ := hsiblings j (Ne.symm hij) y₂ hy₂
      exact hnew j z id (Ne.symm hij) hz hphase₂ hrow₂ hrow
    · obtain ⟨z, _, hz, rfl⟩ := hsiblings i hi y hy
      by_cases hj : j = r
      · subst hj
        obtain rfl := Option.some.inj (hx'.symm.trans hy₂)
        exact hnew i z id hi hz hphase hrow hrow₂
      · obtain ⟨z₂, _, hz₂, rfl⟩ := hsiblings j hj y₂ hy₂
        exact hs.distinct i j z z₂ id hij hz hz₂ hphase hphase₂ hrow hrow₂
  · intro j hj
    have hnone : s.receives[j]? = none := by
      rw [List.getElem?_eq_none_iff] at hj ⊢
      omega
    have hne : r ≠ j := by
      rintro rfl
      rw [hx] at hnone
      cases hnone
    rw [htook, decide_eq_false hne, Bool.false_and, Bool.or_false]
    exact hs.later j hnone

theorem RowsInv.spawn (hs : RowsInv tr s) (hash : Option String) (recording : Bool) :
    RowsInv (tr ++ [⟨s, .receiveFile hash recording,
      { s with receives := s.receives ++ [⟨hash, .start, .held, recording, none, false⟩] }, out⟩])
      { s with receives := s.receives ++ [⟨hash, .start, .held, recording, none, false⟩] } := by
  have hcases : ∀ {j : Nat} {y : Invocation},
      (s.receives ++ [(⟨hash, .start, .held, recording, none, false⟩ : Invocation)])[j]? = some y →
      s.receives[j]? = some y ∨
        (s.receives[j]? = none ∧ y = ⟨hash, .start, .held, recording, none, false⟩) := by
    intro j y hy
    rw [List.getElem?_append] at hy
    split at hy
    · exact .inl hy
    · rename_i hlt
      have hmem := List.mem_singleton.mp (List.mem_of_getElem? hy)
      exact .inr ⟨List.getElem?_eq_none (by omega), hmem⟩
  have hsame : ∀ r, alreadyComplete (tr ++ [⟨s, .receiveFile hash recording,
      { s with receives := s.receives ++ [⟨hash, .start, .held, recording, none, false⟩] }, out⟩]) r
      = alreadyComplete tr r := by
    intro r
    rw [alreadyComplete_snoc]
    exact Bool.or_false _
  refine ⟨?_, ?_, ?_⟩
  · intro r y hy
    rw [hsame]
    rcases hcases hy with hy | ⟨hnone, rfl⟩
    · exact hs.tells r y hy
    · exact ⟨nofun, fun _ => ⟨rfl, rfl, hs.later r hnone⟩, nofun, nofun, nofun⟩
  · intro i j x y id hij hx hy hxphase hyphase hrow
    rcases hcases hx with hx | ⟨_, rfl⟩
    · rcases hcases hy with hy | ⟨_, rfl⟩
      · exact hs.distinct i j x y id hij hx hy hxphase hyphase hrow
      · exact nofun
    · cases hrow
  · intro r hr
    rw [hsame]
    refine hs.later r ?_
    rw [List.getElem?_eq_none_iff] at hr ⊢
    rw [List.length_append] at hr
    omega

theorem rowsInv_step (hs : RowsInv tr s) (hok : LeavesRows s a)
    (h : (machine fs).step s a = some (s', out)) : RowsInv (tr ++ [⟨s, a, s', out⟩]) s' := by
  replace h : step fs s a = some (s', out) := h
  have hsame : s'.receives = s.receives → (∀ r p io uuid, a ≠ .receive r p io uuid) →
      RowsInv (tr ++ [⟨s, a, s', out⟩]) s' := by
    intro hreceives hnot
    refine hs.quiet ?_ ?_ (fun id => leaves_rows hok h hnot) ?_
    · intro j y hy
      exact ⟨y, y.channel, hreceives ▸ hy, rfl⟩
    · intro j hj
      exact hreceives ▸ hj
    · intro r
      cases a with
      | receive r' p io uuid => exact absurd rfl (hnot r' p io uuid)
      | _ => rfl
  cases a with
  | receiveFile hash recording =>
    cases h
    exact hs.spawn hash recording
  | receive r p io uuid =>
    rw [step] at h
    split at h
    · cases h
    · rename_i x hx
      exact hs.receive hx hok h
  | cancelReceive =>
    refine hs.quiet ?_ ?_ (fun id => leaves_rows hok h (by rintro _ _ _ _ ⟨⟩)) fun r => rfl
    · intro j y hy
      cases h
      exact getElem?_cancelReceive hy
    · intro j hj
      cases h
      unfold cancelReceive at hj
      split at hj
      · exact hj
      · rw [List.getElem?_eq_none_iff] at hj ⊢
        replace hj : (s.receives.modify _ fun x => { x with channel := .sent }).length ≤ j := hj
        rwa [List.length_modify] at hj
  | deleteTransferRecord id io =>
    apply hsame _ (by rintro _ _ _ _ ⟨⟩)
    rw [step] at h
    split at h
    · split at h <;> (cases h; rfl)
    · cases h
      rfl
  | clearTransferHistory io =>
    apply hsame _ (by rintro _ _ _ _ ⟨⟩)
    rw [step] at h
    split at h <;> (cases h; rfl)
  | clearTransferTempData id io =>
    apply hsame _ (by rintro _ _ _ _ ⟨⟩)
    rw [step] at h
    split at h
    · split at h <;> (cases h; rfl)
    · cases h
      rfl
  | command c io =>
    apply hsame _ (by rintro _ _ _ _ ⟨⟩)
    rw [step] at h
    split at h
    · cases h
    · exact (commandStep_quiet h).1
  | cleanup io =>
    apply hsame _ (by rintro _ _ _ _ ⟨⟩)
    rw [step] at h
    split at h
    · cases h
    · rw [Option.some.injEq] at h
      obtain rfl : s' = _ := (congrArg Prod.fst h).symm
      rw [removeStore_receives]

theorem rowsInv_run {rows : List TransferRecord} {stores : Finset String} {last : Option String}
    (hrun : Run (machine fs) LeavesRows (initial rows stores last) tr s) : RowsInv tr s :=
  hrun.invariant (I := RowsInv) (rowsInv_initial rows stores last)
    fun hs hok hstep => rowsInv_step hs hok hstep

end

/-! ## Truthfulness -/

/-- The row tells how `download` ended, and points at a partial store unless it succeeded. -/
structure Truthful (result : DownloadResult) (record : TransferRecord) : Prop where
  completed : record.status = .completed ↔ result = .ok
  cancelled : record.status = .cancelled ↔ result = .err "cancelled"
  failed : record.status = .failed ↔ ∃ e, result = .err e ∧ e ≠ "cancelled"
  store : record.resumableStorePath = none ↔ result = .ok

theorem truthful_ok {record : TransferRecord} (hstatus : record.status = .completed)
    (hstore : record.resumableStorePath = none) : Truthful .ok record where
  completed := by simp [hstatus]
  cancelled := by simp [hstatus]
  failed := by simp [hstatus]
  store := by simp [hstore]

theorem truthful_err {record : TransferRecord} {e : String}
    (hstatus : record.status = if e = "cancelled" then .cancelled else .failed)
    (hstore : record.resumableStorePath.isSome = true) : Truthful (.err e) record := by
  have hne : record.resumableStorePath ≠ none := by
    intro h
    rw [h] at hstore
    cases hstore
  by_cases he : e = "cancelled"
  · rw [if_pos he] at hstatus
    exact ⟨by simp [hstatus], by simp [hstatus, he], by simp [hstatus, he], by simp [hne]⟩
  · rw [if_neg he] at hstatus
    exact ⟨by simp [hstatus], by simp [hstatus, he], by simp [hstatus, he], by simp [hne]⟩

/-- When a receive that opened a row returns, the row tells the truth about `download` exactly when
`download` succeeded or the store did not hold the payload at the start. -/
theorem row_truthful_iff (fs : FileSystem) (rows : List TransferRecord) (stores : Finset String)
    (last : Option String) (tr : List (Entry State Act Out)) (s s' : State) (r : Nat) (p : Progress)
    (uuid : String) (out : List Out) (x : Invocation) (result : DownloadResult) (id : String)
    (hrun : Run (machine fs) LeavesRows (initial rows stores last) tr s)
    (hx : s.receives[r]? = some x) (hphase : x.phase = .finalize result) (hrow : x.row = some id)
    (hstep : (machine fs).step s (.receive r p true uuid) = some (s', out)) :
    ∃ record, rowOf s'.rows id = some record ∧
      (Truthful result record ↔ result = .ok ∨ alreadyComplete tr r = false) := by
  have htells := (rowsInv_run hrun).tells r x hx
  have hreturns : receiveStep fs s r x p true uuid = some (s', out) := by
    have hunfolded : step fs s (.receive r p true uuid) = some (s', out) := hstep
    rwa [step, hx] at hunfolded
  rw [receiveStep, hphase] at hreturns
  have hsome : x.row.isSome = true := by rw [hrow]; rfl
  have hstage : x.phase.rowStage ≠ .done := by
    rw [hphase]
    cases result <;> simp [Phase.rowStage]
  obtain ⟨record, hfound, htold⟩ := htells.record hstage id hrow
  cases result with
  | ok =>
    cases hreturns
    rw [htells.succeeded (by rw [hphase]; rfl) hsome, if_pos rfl] at htold
    exact ⟨record, hfound, fun _ => .inl rfl, fun _ => truthful_ok htold.1 htold.2⟩
  | err e =>
    have hfinalized := htells.running (by rw [hphase]; rfl) hsome
    cases hreturns
    show ∃ record', rowOf (finalize s.rows x _ true).1 id = some record' ∧ _
    cases htook : alreadyComplete tr r with
    | true =>
      rw [htook] at hfinalized
      rw [hfinalized, if_pos rfl] at htold
      rw [finalize_of_finalized hfinalized]
      refine ⟨record, hfound, ?_, ?_⟩
      · intro htruth
        have hok := htruth.completed.mp htold.1
        cases hok
      · rintro (h | h)
        · cases h
        · cases h
    | false =>
      rw [htook] at hfinalized
      rw [hfinalized, if_neg Bool.false_ne_true] at htold
      rw [finalize_eq hrow hfinalized]
      refine ⟨finalizeRecord (if e = "cancelled" then .cancelled else .failed) record, ?_,
        fun _ => .inr rfl, fun _ => truthful_err rfl ?_⟩
      · show rowOf (updateRecord s.rows id _) id = _
        rw [rowOf_updateRecord (finalizeRecord_id _), hfound]
        rfl
      · have hstatus : (if e = "cancelled" then TransferStatus.cancelled else .failed) ≠ .completed := by
          split <;> simp
        rw [finalizeRecord, if_neg hstatus]
        exact htold.2

/-- A receive whose transfer is cancelled while it fetches, up to the report of its outcome. -/
def cancelsFetching : List Act :=
  [.receiveFile (some "hash") true, go 0 .next, go 0 .next, go 0 .next, go 0 .next, go 0 .next,
    .cancelReceive, go 0 .cancel, go 0 .next, go 0 .next]

/-- A receive whose store holds the payload already, and whose export fails. -/
def failsExporting : List Act :=
  [.receiveFile (some "hash") true, go 0 .next, go 0 .next, go 0 .next, go 0 .next, go 0 .complete,
    go 0 .next, go 0 (.fail "disk full"), go 0 .next, go 0 .next]

/-- The row of a cancelled receive ends up cancelled and keeps its partial store. -/
theorem row_truthful_cancelled :
    ∃ tr s s' x record, Run (machine plainFs) LeavesRows (initial [] ∅ none) tr s ∧
      s.receives[0]? = some x ∧ x.phase = .finalize (.err "cancelled") ∧ x.row = some "row" ∧
      (machine plainFs).step s (go 0 .next) = some (s', []) ∧
      rowOf s'.rows "row" = some record ∧ Truthful (.err "cancelled") record := by
  obtain ⟨tr, s, hrun, htest⟩ := Run.of_check (machine plainFs) LeavesRows (initial [] ∅ none)
    cancelsFetching
    (fun tr s => decide ((s.receives[0]?).map (fun x : Invocation => (x.phase, x.row))
        = some (Phase.finalize (.err "cancelled"), some "row")
      ∧ ((machine plainFs).step s (go 0 .next)).map (·.2) = some []
      ∧ alreadyComplete tr 0 = false)) (by decide +kernel)
  obtain ⟨hx, hstep, hfresh⟩ := of_decide_eq_true htest
  obtain ⟨x, hx, hpair⟩ := Option.map_eq_some_iff.mp hx
  obtain ⟨hphase, hrow⟩ := Prod.mk.inj hpair
  obtain ⟨⟨s', out⟩, hstep, rfl⟩ := Option.map_eq_some_iff.mp hstep
  obtain ⟨record, hfound, htruth⟩ := row_truthful_iff plainFs [] ∅ none tr s s' 0 .next "row" [] x
    (.err "cancelled") "row" hrun hx hphase hrow hstep
  exact ⟨tr, s, s', x, record, hrun, hx, hphase, hrow, hstep, hfound, htruth.mpr (.inr hfresh)⟩

/-- The row of a receive that failed says that it completed, and has lost its partial store. -/
theorem row_completed_of_failed :
    ∃ tr s s' x record, Run (machine plainFs) LeavesRows (initial [] ∅ none) tr s ∧
      s.receives[0]? = some x ∧ x.phase = .finalize (.err "error: disk full") ∧ x.row = some "row" ∧
      (machine plainFs).step s (go 0 .next) = some (s', []) ∧
      rowOf s'.rows "row" = some record ∧ record.status = .completed ∧
      record.resumableStorePath = none := by
  obtain ⟨tr, s, hrun, htest⟩ := Run.of_check (machine plainFs) LeavesRows (initial [] ∅ none)
    failsExporting
    (fun _ s => decide ((s.receives[0]?).map (fun x : Invocation => (x.phase, x.row))
        = some (Phase.finalize (.err "error: disk full"), some "row")
      ∧ ((machine plainFs).step s (go 0 .next)).map (fun next => (next.2,
          (rowOf next.1.rows "row").map fun record => (record.status, record.resumableStorePath)))
        = some ([], some (.completed, none)))) (by decide +kernel)
  obtain ⟨hx, hstep⟩ := of_decide_eq_true htest
  obtain ⟨x, hx, hpair⟩ := Option.map_eq_some_iff.mp hx
  obtain ⟨hphase, hrow⟩ := Prod.mk.inj hpair
  obtain ⟨⟨s', out⟩, hstep, hnext⟩ := Option.map_eq_some_iff.mp hstep
  obtain ⟨rfl, hrecord⟩ := Prod.mk.inj hnext
  obtain ⟨record, hfound, htold⟩ := Option.map_eq_some_iff.mp hrecord
  obtain ⟨hstatus, hstore⟩ := Prod.mk.inj htold
  exact ⟨tr, s, s', x, record, hrun, hx, hphase, hrow, hstep, hfound, hstatus, hstore⟩

end DashBeam.Receive

import DashBeam.Receive.Ownership

/-!
# The partial store of a running download

Five places remove a partial-receive directory: the two history deletions and
`clear_transfer_temp_data` through `reclaim_partial`, the stale-hash cleanup of the next
`receive_file`, and the cleanup guard of a completed download. Only `clear_transfer_temp_data` looks
at the hash being received, and it looks before it deletes, not while.

So a running download can lose its store (`store_deleted_under_download`: the row of the running
transfer is deleted from the history page). The code keeps the store exactly as far as the check of
`clear_transfer_temp_data` would, had every place made it at the moment of its removal: in a run in
which no store is removed while `current_receive_hash` names it, and in which installs are clean so
that this field always names the download in flight, no removal hits a store in use
(`store_kept_under_download`).
-/

namespace DashBeam.Receive

open Lib

/-- A receive of `h` is between `create_recv_store` and the end of `download`. -/
def StoreInUse (s : State) (h : String) : Prop :=
  ∃ x ∈ s.receives, x.hash = some h ∧ x.phase.usesStore = true

instance (s : State) (h : String) : Decidable (StoreInUse s h) :=
  inferInstanceAs (Decidable (∃ x ∈ s.receives, _))

/-- No step of the run removed the store of a hash while a receive of that hash was using it. -/
def StoreKept (tr : List Step) : Prop :=
  ∀ e ∈ tr, ∀ h, Out.removed h ∈ e.out → ¬ StoreInUse e.pre h

/-- The hash whose store the next step of this action is to remove. -/
def removalTarget (fs : FileSystem) (s : State) : Act → Option String
  | .receive r _ _ _ =>
    match phaseOf s r with
    | some (.removeStale stale) => some stale
    | _ => none
  | .command c _ =>
    match s.commands[c]? with
    | some (.reclaim (record :: _)) => reclaimTarget fs record
    | some (.tempChecked record) => reclaimTarget fs record
    | _ => none
  | .cleanup _ => s.deferred.head?
  | _ => none

/-- Installs are clean, and no store is removed while it is the one being received into. -/
def CleanRemoval (fs : FileSystem) (s : State) (a : Act) : Prop :=
  CleanInstall s a ∧ ∀ h ∈ removalTarget fs s a, s.app.currentReceiveHash ≠ some h

instance (fs : FileSystem) (s : State) (a : Act) : Decidable (CleanRemoval fs s a) :=
  inferInstanceAs (Decidable (_ ∧ _))

/-! ### What a step removes -/

theorem mem_removeStore {s : State} {h h' : String} {io : Bool}
    (hmem : Out.removed h' ∈ (removeStore s h io).2) : h' = h := by
  unfold removeStore at hmem
  split at hmem
  · simpa using hmem
  · simp at hmem

theorem removed_target {fs : FileSystem} {s s' : State} {a : Act} {out : List Out} {h : String}
    (hs : step fs s a = some (s', out)) (hmem : Out.removed h ∈ out) :
    removalTarget fs s a = some h := by
  cases a with
  | receive r p io uuid =>
    simp only [step] at hs
    split at hs
    · cases hs
    · rename_i x hx
      unfold receiveStep at hs
      split at hs
      case h_2 =>
        rename_i stale hphase
        rw [Option.some.injEq] at hs
        obtain rfl : out = _ := (congrArg Prod.snd hs).symm
        simp only [removalTarget, phaseOf_eq hx, hphase]
        rw [mem_removeStore hmem]
      case h_4 =>
        rw [Option.map_eq_some_iff] at hs
        obtain ⟨t, -, hpair⟩ := hs
        cases hpair
        simp at hmem
      case h_6 =>
        split at hs <;> (cases hs; simp at hmem)
      all_goals
        cases hs
        try simp at hmem
  | command c io =>
    simp only [step] at hs
    split at hs
    · cases hs
    · rename_i cmd hcmd
      simp only [removalTarget, hcmd]
      unfold commandStep at hs
      split at hs
      case h_3 =>
        split at hs
        · cases hs
          simp at hmem
        · split at hs <;> (cases hs; simp at hmem)
      case h_2 | h_4 =>
        split at hs
        · cases hs
          simp at hmem
        · rename_i target htarget
          rw [Option.some.injEq] at hs
          obtain rfl : out = _ := (congrArg Prod.snd hs).symm
          show reclaimTarget fs _ = some h
          rw [htarget, mem_removeStore hmem]
      all_goals
        cases hs
        try simp at hmem
  | cleanup io =>
    simp only [step] at hs
    split at hs
    · cases hs
    · rename_i target rest hdeferred
      rw [Option.some.injEq] at hs
      obtain rfl : out = _ := (congrArg Prod.snd hs).symm
      simp only [removalTarget, hdeferred, List.head?_cons]
      rw [mem_removeStore hmem]
  | deleteTransferRecord id io | clearTransferTempData id io =>
    simp only [step] at hs
    split at hs
    · split at hs <;> (cases hs; simp at hmem)
    · cases hs
      simp at hmem
  | clearTransferHistory io =>
    simp only [step] at hs
    split at hs <;> (cases hs; simp at hmem)
  | receiveFile hash recording | cancelReceive =>
    cases hs
    simp at hmem

/-! ### The active hash -/

/-- `current_receive_hash` names the download in flight. -/
def ActiveHash (s : State) : Prop :=
  ∀ (r : Nat) (x : Invocation), s.receives[r]? = some x → x.phase.inFlight = true →
    s.app.currentReceiveHash = x.hash

theorem ActiveHash.step {tr : List Step} {s s' : State} {a : Act} (h : ActiveHash s)
    (howned : Owned tr s) (hclean : CleanInstall s a) (hmove : Move s s' a) : ActiveHash s' := by
  intro q y hy hyfly
  cases hmove with
  | quiet hrec _ hactive =>
    rw [hrec] at hy
    rw [hactive]
    exact h q y hy hyfly
  | spawn hstart _ hrec happ =>
    rw [hrec, List.getElem?_append] at hy
    rw [happ]
    split at hy
    · exact h q y hy hyfly
    · rw [List.getElem?_singleton] at hy
      split at hy
      · obtain rfl := Option.some.inj hy
        rw [hstart] at hyfly
        cases hyfly
      · cases hy
  | fire hr hs' =>
    subst hs'
    obtain ⟨x, hx, hfly, -⟩ := howned.slot _ hr
    have happ : (cancelReceive s).app.currentReceiveHash = s.app.currentReceiveHash := by
      simp [cancelReceive, hr]
    rw [happ]
    rw [cancelReceive_get hr hx] at hy
    split at hy
    · obtain rfl := Option.some.inj hy
      exact h _ x hx hfly
    · exact h q y hy hyfly
  | @move r _ _ _ x x' hx hmove hrec _ hactive =>
    rw [hrec, getElem?_set_of_some hx] at hy
    rw [hactive]
    split at hy
    · obtain rfl := Option.some.inj hy
      rw [hmove.hash]
      exact h r x hx (by rw [← hmove.inFlight]; exact hyfly)
    · exact h q y hy hyfly
  | install hx hphase hslot hs' =>
    subst hs'
    obtain ⟨-, rfl⟩ :=
      howned.install_only hx hslot (hclean (by rw [phaseOf_eq hx, hphase])) hy hyfly
    rw [install_eq hslot]
    rfl
  | epilogue hx hphase hs' =>
    subst hs'
    rw [howned.epilogue_none hx (by rw [hphase]; rfl) hy] at hyfly
    cases hyfly

theorem run_activeHash {fs : FileSystem} {rows : List TransferRecord} {stores : Finset String}
    {last : Option String} {tr : List Step} {s : State}
    (hrun : Run (machine fs) CleanInstall (initial rows stores last) tr s) : ActiveHash s := by
  have hboth : Owned tr s ∧ ActiveHash s := by
    refine hrun.invariant (I := fun tr s => Owned tr s ∧ ActiveHash s)
      ⟨owned_initial rows stores last, fun r x h => by simp [initial] at h⟩ ?_
    intro tr s s' a out h hok hs
    exact ⟨h.1.step hok hs, h.2.step h.1 hok (step_move hs)⟩
  exact hboth.2

theorem ActiveHash.of_inUse {s : State} {h : String} (hactive : ActiveHash s)
    (huse : StoreInUse s h) : s.app.currentReceiveHash = some h := by
  obtain ⟨x, hmem, hhash, hphase⟩ := huse
  obtain ⟨r, hr⟩ := List.getElem?_of_mem hmem
  rw [hactive r x hr (Phase.inFlight_of_usesStore hphase), hhash]

/-- In every run with clean installs in which no store is removed while `current_receive_hash` names
it, no step removes the store of a running download. -/
theorem store_kept_under_download (fs : FileSystem) (rows : List TransferRecord)
    (stores : Finset String) (last : Option String) (tr : List Step) (s : State)
    (hrun : Run (machine fs) (CleanRemoval fs) (initial rows stores last) tr s) : StoreKept tr := by
  intro e he h hremoved huse
  obtain ⟨pre, hpre, -, hok, hstep⟩ := hrun.of_mem he
  have hactive := run_activeHash (hpre.mono fun _ _ hclean => hclean.1)
  exact hok.2 h (removed_target hstep hremoved) (hactive.of_inUse huse)

/-- A BLAKE3 hash in hex. -/
def someHash : String := String.ofList (List.replicate 64 'a')

def otherHash : String := String.ofList (List.replicate 64 'b')

/-- A receive of `someHash` is cancelled; the next one cleans its store up and runs. -/
def staleCleanup : List Act :=
  [.receiveFile (some someHash) true, go 0 .next, go 0 .next, go 0 .next, go 0 .next, go 0 .next,
    .cancelReceive, go 0 .cancel, go 0 .next, go 0 .next, .receiveFile (some otherHash) true,
    go 1 .next, go 1 .next, go 1 .next, go 1 .next, go 1 .next]

/-- The theorem applies to a run in which a store is removed and another is in use. -/
theorem store_kept_staleCleanup :
    ∃ tr s, Run (machine plainFs) (CleanRemoval plainFs) (initial [] ∅ none) tr s ∧
      (∃ e ∈ tr, Out.removed someHash ∈ e.out) ∧ StoreInUse s otherHash ∧ StoreKept tr := by
  obtain ⟨tr, s, hrun, htest⟩ := Run.of_check (machine plainFs) (CleanRemoval plainFs)
    (initial [] ∅ none) staleCleanup
    (fun tr s => tr.any (fun e => Out.removed someHash ∈ e.out) && StoreInUse s otherHash)
    (by decide +kernel)
  simp only [Bool.and_eq_true, List.any_eq_true, decide_eq_true_eq] at htest
  exact ⟨tr, s, hrun, htest.1, htest.2,
    store_kept_under_download plainFs [] ∅ none tr s hrun⟩

def deleteRunning : List Act :=
  [.receiveFile (some someHash) true, go 0 .next, go 0 .next, go 0 .next, go 0 .next, go 0 .next,
    .deleteTransferRecord "row" true, .command 0 true]

/-- Deleting the history row of a running transfer removes the store it is writing into. -/
theorem store_deleted_under_download :
    ∃ tr s, Run (machine plainFs) anyStep (initial [] ∅ none) tr s ∧ ¬ StoreKept tr := by
  obtain ⟨tr, s, hrun, htest⟩ := Run.of_check (machine plainFs) anyStep
    (initial [] ∅ none) deleteRunning
    (fun tr _ => tr.any fun e => Out.removed someHash ∈ e.out ∧ StoreInUse e.pre someHash)
    (by decide +kernel)
  simp only [List.any_eq_true, decide_eq_true_eq] at htest
  obtain ⟨e, he, hremoved, huse⟩ := htest
  exact ⟨tr, s, hrun, fun h => h e he someHash hremoved huse⟩

end DashBeam.Receive

import DashBeam.Receive.Machine

/-!
# What one step of the receive machine does

Every step of the machine is one of six moves on the cancel slot, the active hash and the list of
invocations (`Move`), and a step of `download` is one of six moves of its invocation and its row
(`DownloadMove`). The invariants of the other modules are proved by cases on the moves.
-/

namespace DashBeam.Receive

open Lib

/-- Between the install step and the end of the epilogue. -/
def Phase.inFlight : Phase → Bool
  | .download _ | .epilogue _ => true
  | _ => false

def Phase.waiting : Phase → Bool
  | .start | .removeStale _ | .install => true
  | _ => false

/-- Between `create_recv_store` and the end of `download`. -/
def Phase.usesStore : Phase → Bool
  | .download .setup | .download .openStore => false
  | .download _ => true
  | _ => false

theorem Phase.inFlight_of_usesStore {p : Phase} (h : p.usesStore = true) : p.inFlight = true := by
  cases p with
  | download d => rfl
  | _ => cases h

theorem Phase.not_inFlight_of_waiting {p : Phase} (h : p.waiting = true) : p.inFlight = false := by
  cases p with
  | start | removeStale _ | install => rfl
  | _ => cases h

/-- A step of one invocation that leaves the cancel slot and the active hash alone. -/
structure LocalMove (x x' : Invocation) : Prop where
  hash : x'.hash = x.hash
  inFlight : x'.phase.inFlight = x.phase.inFlight
  channel : x'.phase ≠ .done → x'.channel = x.channel
  waiting : x'.phase.waiting = true → x.phase.waiting = true
  cancelling : x'.phase = .download .cancelling → x.channel.ready = true
  cancelled : x'.phase = .epilogue (.err "cancelled") → x.phase = .download .cancelling

/-- What a step does to the cancel slot, the active hash and the invocations. -/
inductive Move (s s' : State) : Act → Prop
  | quiet {a : Act} : s'.receives = s.receives →
      s'.app.currentReceiveCancel = s.app.currentReceiveCancel →
      s'.app.currentReceiveHash = s.app.currentReceiveHash → Move s s' a
  | spawn {hash : Option String} {recording : Bool} {x : Invocation} : x.phase = .start →
      x.channel = .held → s'.receives = s.receives ++ [x] → s'.app = s.app →
      Move s s' (.receiveFile hash recording)
  | fire {r : Nat} : s.app.currentReceiveCancel = some r → s' = cancelReceive s →
      Move s s' .cancelReceive
  | move {r : Nat} {p : Progress} {io : Bool} {uuid : String} {x x' : Invocation} :
      s.receives[r]? = some x → LocalMove x x' → s'.receives = s.receives.set r x' →
      s'.app.currentReceiveCancel = s.app.currentReceiveCancel →
      s'.app.currentReceiveHash = s.app.currentReceiveHash → Move s s' (.receive r p io uuid)
  | install {r : Nat} {p : Progress} {io : Bool} {uuid : String} {x : Invocation} :
      s.receives[r]? = some x → x.phase = .install → s.app.currentReceiveCancel = none →
      s' = install s r x → Move s s' (.receive r p io uuid)
  | epilogue {r : Nat} {p : Progress} {io : Bool} {uuid : String} {x : Invocation}
      {result : DownloadResult} :
      s.receives[r]? = some x → x.phase = .epilogue result → s' = epilogue s r x result →
      Move s s' (.receive r p io uuid)

/-! ### The helpers leave the rest alone -/

@[simp] theorem removeStore_app (s : State) (h : String) (io : Bool) :
    (removeStore s h io).1.app = s.app := by
  unfold removeStore; split <;> rfl

@[simp] theorem removeStore_receives (s : State) (h : String) (io : Bool) :
    (removeStore s h io).1.receives = s.receives := by
  unfold removeStore; split <;> rfl

theorem openRow_invocation (fs : FileSystem) (rows : List TransferRecord) (x : Invocation)
    (io : Bool) (uuid : String) :
    ∃ row, (openRow fs rows x io uuid).2 = { x with row := row } := by
  unfold openRow
  split
  · exact ⟨x.row, rfl⟩
  · split
    · exact ⟨some uuid, rfl⟩
    · exact ⟨x.row, rfl⟩

theorem finalize_invocation (rows : List TransferRecord) (x : Invocation) (status : TransferStatus)
    (io : Bool) : ∃ b, (finalize rows x status io).2 = { x with finalized := b } := by
  unfold finalize
  split
  · exact ⟨x.finalized, rfl⟩
  · split
    · exact ⟨x.finalized, rfl⟩
    · exact ⟨true, rfl⟩

theorem error_ne_cancelled (e : String) : "error: " ++ e ≠ "cancelled" := by
  intro h
  have := congrArg String.toList h
  simp [String.toList_append] at this

/-! ### Steps of `download` -/

/-- A step of `download` that shows no event, opens no store and is not its successful end goes to this
phase. -/
structure Goes (x : Invocation) (p : Progress) (phase : Phase) : Prop where
  inFlight : phase.inFlight = true
  notOk : phase ≠ .epilogue .ok
  notQuery : phase ≠ .download .queryStore
  notClosing : phase ≠ .download .closing
  notBack : phase = .download .setup ∨ phase = .download .openStore → x.phase = .download .setup
  cancelling : phase = .download .cancelling → x.channel.ready = true
  cancelled : phase = .epilogue (.err "cancelled") → x.phase = .download .cancelling
  quiet : x.phase = .download .queryStore → p ≠ .complete
  running : x.phase ≠ .download .closing

/-- One step of `engine::download`: the next phase, and what becomes of the store and of the row. -/
inductive DownloadMove (fs : FileSystem) (s : State) (r : Nat) (x : Invocation) (p : Progress) (io : Bool)
    (uuid : String) : State → Prop
  | goto {phase : Phase} (goes : Goes x p phase) :
      DownloadMove fs s r x p io uuid (setReceive s r { x with phase := phase })
  | opens {h : String} (hash : x.hash = some h) (opening : x.phase = .download .openStore) :
      DownloadMove fs s r x p io uuid
        { setReceive s r { x with phase := .download .queryStore } with stores := insert h s.stores }
  | announces (query : x.phase = .download .queryStore) (fresh : p = .next) :
      DownloadMove fs s r x p io uuid
        { setReceive s r { (openRow fs s.rows x io uuid).2 with phase := .download .fetching } with
          rows := (openRow fs s.rows x io uuid).1 }
  | complete (query : x.phase = .download .queryStore) (complete : p = .complete) :
      DownloadMove fs s r x p io uuid
        { setReceive s r { (finalize (openRow fs s.rows x io uuid).1 (openRow fs s.rows x io uuid).2
            .completed io).2 with phase := .download .loading } with
          rows := (finalize (openRow fs s.rows x io uuid).1 (openRow fs s.rows x io uuid).2
            .completed io).1 }
  | exported (exporting : x.phase = .download .exporting) (last : p = .next) :
      DownloadMove fs s r x p io uuid
        { setReceive s r { (finalize s.rows x .completed io).2 with phase := .download .closing } with
          rows := (finalize s.rows x .completed io).1 }
  | closed {h : String} (closing : x.phase = .download .closing) (hash : x.hash = some h) :
      DownloadMove fs s r x p io uuid
        { setReceive s r { x with phase := .epilogue .ok } with deferred := s.deferred ++ [h] }

theorem goes_download {x : Invocation} {p : Progress} {d d' : Download} (hphase : x.phase = .download d)
    (hnext : d' = .openStore ∧ d = .setup ∨ d' ≠ .openStore ∧ d' ≠ .setup ∧ d' ≠ .queryStore ∧
      d' ≠ .closing)
    (hcancelling : d' = .cancelling → x.channel.ready = true)
    (hquiet : d = .queryStore → p ≠ .complete) (hrunning : d ≠ .closing) : Goes x p (.download d') where
  inFlight := rfl
  notOk := nofun
  notQuery h := by
    cases h
    rcases hnext with ⟨hopen, -⟩ | ⟨-, -, hquery, -⟩
    · cases hopen
    · exact hquery rfl
  notClosing h := by
    cases h
    rcases hnext with ⟨hopen, -⟩ | ⟨-, -, -, hclosing⟩
    · cases hopen
    · exact hclosing rfl
  notBack h := by
    rcases hnext with ⟨-, rfl⟩ | ⟨hopen, hsetup, -, -⟩
    · exact hphase
    · rcases h with h | h
      · exact absurd (Phase.download.inj h) hsetup
      · exact absurd (Phase.download.inj h) hopen
  cancelling h := hcancelling (Phase.download.inj h)
  cancelled := nofun
  quiet h := hquiet (Phase.download.inj (hphase.symm.trans h))
  running h := hrunning (Phase.download.inj (hphase.symm.trans h))

theorem goes_epilogue {x : Invocation} {p : Progress} {d : Download} {e : String}
    (hphase : x.phase = .download d) (hcancelled : e = "cancelled" → d = .cancelling)
    (hquiet : d = .queryStore → p ≠ .complete) (hrunning : d ≠ .closing) :
    Goes x p (.epilogue (.err e)) where
  inFlight := rfl
  notOk := nofun
  notQuery := nofun
  notClosing := nofun
  notBack h := by
    rcases h with h | h
    · cases h
    · cases h
  cancelling := nofun
  cancelled h := by
    rw [Phase.epilogue.injEq, DownloadResult.err.injEq] at h
    rw [hphase, hcancelled h]
  quiet h := hquiet (Phase.download.inj (hphase.symm.trans h))
  running h := hrunning (Phase.download.inj (hphase.symm.trans h))

theorem downloadStep_cases {fs : FileSystem} {s s' : State} {r : Nat} {x : Invocation} {d : Download}
    {p : Progress} {io : Bool} {uuid : String} (hphase : x.phase = .download d)
    (h : downloadStep fs s r x d p io uuid = some s') : DownloadMove fs s r x p io uuid s' := by
  cases d with
  | setup =>
    cases p <;> simp only [downloadStep, reduceCtorEq] at h
    · split at h <;> cases h
      exact .goto (goes_download hphase (by simp) (by simp) (by simp) (by simp))
    · split at h <;> cases h
      rename_i hlib
      exact .goto (goes_epilogue hphase (fun he => absurd he hlib) (by simp) (by simp))
  | openStore =>
    cases p <;> simp only [downloadStep, reduceCtorEq] at h
    · split at h
      · cases h
      · rename_i hash hhash
        cases h
        exact .opens hhash hphase
    · split at h <;> cases h
      rename_i hlib
      exact .goto (goes_epilogue hphase (fun he => absurd he hlib) (by simp) (by simp))
  | queryStore =>
    cases p <;> simp only [downloadStep] at h
    · cases h
      exact .announces hphase rfl
    · cases h
      exact .goto (goes_download hphase (by simp) (by simp) (by simp) (by simp))
    · cases h
      exact .complete hphase rfl
    · split at h <;> cases h
      rename_i hready
      exact .goto (goes_download hphase (by simp) (fun _ => hready) (by simp) (by simp))
  | fetching | loading =>
    cases p <;> simp only [downloadStep, reduceCtorEq] at h
    · cases h
      exact .goto (goes_download hphase (by simp) (by simp) (by simp) (by simp))
    · cases h
      exact .goto (goes_download hphase (by simp) (by simp) (by simp) (by simp))
    · split at h <;> cases h
      rename_i hready
      exact .goto (goes_download hphase (by simp) (fun _ => hready) (by simp) (by simp))
  | exporting =>
    cases p <;> simp only [downloadStep, reduceCtorEq] at h
    · cases h
      exact .exported hphase rfl
    · cases h
      exact .goto (goes_download hphase (by simp) (by simp) (by simp) (by simp))
    · split at h <;> cases h
      rename_i hready
      exact .goto (goes_download hphase (by simp) (fun _ => hready) (by simp) (by simp))
  | closing =>
    cases p <;> simp only [downloadStep, reduceCtorEq] at h
    split at h
    · cases h
    · rename_i hash hhash
      cases h
      exact .closed hphase hhash
  | failing e =>
    cases p <;> simp only [downloadStep, reduceCtorEq] at h
    · cases h
      exact .goto (goes_epilogue hphase (fun he => absurd he (error_ne_cancelled e)) (by simp) (by simp))
    · split at h <;> cases h
      rename_i hlib
      exact .goto (goes_epilogue hphase (fun he => absurd he hlib) (by simp) (by simp))
  | cancelling =>
    cases p <;> simp only [downloadStep, reduceCtorEq] at h
    · cases h
      exact .goto (goes_epilogue hphase (fun _ => rfl) (by simp) (by simp))
    · split at h <;> cases h
      exact .goto (goes_epilogue hphase (fun _ => rfl) (by simp) (by simp))

/-! ### Steps of one invocation -/

/-- Moving to another phase of `download` or to its end is a local move, provided the cancel branch
is only taken on a ready channel and only its end says `cancelled`. -/
theorem localMove_phase {x : Invocation} {phase : Phase} {t : Option String} {b : Bool}
    (hfrom : x.phase.inFlight = true) (hto : phase.inFlight = true)
    (hcancelling : phase = .download .cancelling → x.channel.ready = true)
    (hcancelled : phase = .epilogue (.err "cancelled") → x.phase = .download .cancelling) :
    LocalMove x { x with phase := phase, row := t, finalized := b } where
  hash := rfl
  inFlight := by rw [hfrom, hto]
  channel _ := rfl
  waiting h := by
    rw [show phase.inFlight = false from Phase.not_inFlight_of_waiting h] at hto
    cases hto
  cancelling := hcancelling
  cancelled := hcancelled

theorem downloadStep_move {fs : FileSystem} {s s' : State} {r : Nat} {x : Invocation} {d : Download}
    {p : Progress} {io : Bool} {uuid : String} (hphase : x.phase = .download d)
    (h : downloadStep fs s r x d p io uuid = some s') :
    ∃ x', LocalMove x x' ∧ s'.receives = s.receives.set r x' ∧ s'.app = s.app := by
  have hfrom : x.phase.inFlight = true := by rw [hphase]; rfl
  cases downloadStep_cases hphase h with
  | goto goes =>
    exact ⟨_, localMove_phase (t := x.row) (b := x.finalized) hfrom goes.inFlight goes.cancelling
      goes.cancelled, rfl, rfl⟩
  | opens hash opening =>
    exact ⟨_, localMove_phase (t := x.row) (b := x.finalized) hfrom rfl (by simp) (by simp), rfl, rfl⟩
  | announces query fresh =>
    obtain ⟨row, hrow⟩ := openRow_invocation fs s.rows x io uuid
    rw [hrow]
    exact ⟨_, localMove_phase (b := x.finalized) hfrom rfl (by simp) (by simp), rfl, rfl⟩
  | complete query complete =>
    obtain ⟨row, hrow⟩ := openRow_invocation fs s.rows x io uuid
    obtain ⟨b, hb⟩ := finalize_invocation (openRow fs s.rows x io uuid).1
      (openRow fs s.rows x io uuid).2 .completed io
    rw [hb, hrow]
    exact ⟨_, localMove_phase hfrom rfl (by simp) (by simp), rfl, rfl⟩
  | exported exporting last =>
    obtain ⟨b, hb⟩ := finalize_invocation s.rows x .completed io
    rw [hb]
    exact ⟨_, localMove_phase (t := x.row) hfrom rfl (by simp) (by simp), rfl, rfl⟩
  | closed closing hash =>
    exact ⟨_, localMove_phase (t := x.row) (b := x.finalized) hfrom rfl (by simp) (by simp), rfl, rfl⟩

theorem localMove_idle {x x' : Invocation} (hfrom : x.phase.inFlight = false)
    (hto : x'.phase.inFlight = false) (hhash : x'.hash = x.hash)
    (hchannel : x'.phase ≠ .done → x'.channel = x.channel)
    (hwaiting : x'.phase.waiting = true → x.phase.waiting = true) : LocalMove x x' where
  hash := hhash
  inFlight := by rw [hfrom, hto]
  channel := hchannel
  waiting := hwaiting
  cancelling h := by rw [h] at hto; cases hto
  cancelled h := by rw [h] at hto; cases hto

theorem Move.idle {s s' : State} {r : Nat} {p : Progress} {io : Bool} {uuid : String}
    {x y : Invocation} (hx : s.receives[r]? = some x) (hrec : s'.receives = s.receives.set r y)
    (hslot : s'.app.currentReceiveCancel = s.app.currentReceiveCancel)
    (hactive : s'.app.currentReceiveHash = s.app.currentReceiveHash)
    (hfrom : x.phase.inFlight = false) (hto : y.phase.inFlight = false)
    (hhash : y.hash = x.hash) (hchannel : y.phase ≠ .done → y.channel = x.channel)
    (hwaiting : y.phase.waiting = true → x.phase.waiting = true) :
    Move s s' (.receive r p io uuid) :=
  .move hx (localMove_idle hfrom hto hhash hchannel hwaiting) hrec hslot hactive

theorem receiveStep_move {fs : FileSystem} {s s' : State} {r : Nat} {x : Invocation} {p : Progress}
    {io : Bool} {uuid : String} {out : List Out} (hx : s.receives[r]? = some x)
    (h : receiveStep fs s r x p io uuid = some (s', out)) : Move s s' (.receive r p io uuid) := by
  unfold receiveStep at h
  split at h
  · rename_i hphase
    cases h
    have hfrom : x.phase.inFlight = false := by rw [hphase]; rfl
    have hwait : x.phase.waiting = true := by rw [hphase]; rfl
    unfold takeStale
    split
    · exact .idle hx rfl rfl rfl hfrom rfl rfl (fun _ => rfl) (fun _ => hwait)
    · simp only
      split
      · exact .idle hx rfl rfl rfl hfrom rfl rfl (fun _ => rfl) (fun _ => hwait)
      · refine .idle hx rfl rfl rfl hfrom ?_ rfl (fun _ => rfl) (fun _ => hwait)
        dsimp only
        split <;> rfl
  · rename_i stale hphase
    rw [Option.some.injEq] at h
    obtain rfl : s' = _ := (congrArg Prod.fst h).symm
    exact .idle (y := { x with phase := .install }) hx (by rw [removeStore_receives]; rfl)
      (by rw [removeStore_app]; rfl) (by rw [removeStore_app]; rfl) (by rw [hphase]; rfl) rfl rfl
      (fun _ => rfl) (fun _ => by rw [hphase]; rfl)
  · rename_i hphase
    cases h
    by_cases hslot : s.app.currentReceiveCancel.isSome
    · have hinst : install s r x = setReceive s r { x with phase := .done, channel := .dropped } := by
        rw [install, if_pos hslot]
      rw [hinst]
      exact .idle hx rfl rfl rfl (by rw [hphase]; rfl) rfl rfl (fun h => absurd rfl h)
        (fun _ => by rw [hphase]; rfl)
    · exact .install hx hphase (by simpa using hslot) rfl
  · rename_i d hphase
    rw [Option.map_eq_some_iff] at h
    obtain ⟨t, ht, hpair⟩ := h
    cases hpair
    obtain ⟨x', hmove, hrec, happ⟩ := downloadStep_move hphase ht
    exact .move hx hmove hrec (by rw [happ]) (by rw [happ])
  · rename_i result hphase
    cases h
    exact .epilogue hx hphase rfl
  · rename_i result hphase
    have hfrom : x.phase.inFlight = false := by rw [hphase]; rfl
    split at h
    · cases h
      exact .idle hx rfl rfl rfl hfrom rfl rfl (fun h => absurd rfl h) (fun h => by cases h)
    · rename_i status _
      simp only [Option.some.injEq, Prod.mk.injEq] at h
      obtain ⟨rfl, -⟩ := h
      obtain ⟨b, hb⟩ := finalize_invocation s.rows x status io
      rw [hb]
      exact .idle hx rfl rfl rfl hfrom rfl rfl (fun h => absurd rfl h) (fun h => by cases h)
  · cases h

/-! ### Steps of the history commands -/

theorem commandStep_quiet {fs : FileSystem} {s s' : State} {c : Nat} {cmd : Command} {io : Bool}
    {out : List Out} (h : commandStep fs s c cmd io = some (s', out)) :
    s'.receives = s.receives ∧ s'.app = s.app := by
  cases cmd with
  | reclaim records =>
    cases records with
    | nil => cases h; exact ⟨rfl, rfl⟩
    | cons record rest =>
      simp only [commandStep] at h
      split at h
      · cases h; exact ⟨rfl, rfl⟩
      · rw [Option.some.injEq] at h
        obtain rfl : s' = _ := (congrArg Prod.fst h).symm
        simp
  | tempFound record =>
    simp only [commandStep] at h
    split at h
    · cases h; exact ⟨rfl, rfl⟩
    · split at h <;> (cases h; exact ⟨rfl, rfl⟩)
  | tempChecked record =>
    simp only [commandStep] at h
    split at h
    · cases h; exact ⟨rfl, rfl⟩
    · rw [Option.some.injEq] at h
      obtain rfl : s' = _ := (congrArg Prod.fst h).symm
      simp
  | tempReclaimed record => cases h; exact ⟨rfl, rfl⟩
  | done => cases h

theorem step_move {fs : FileSystem} {s s' : State} {a : Act} {out : List Out}
    (h : step fs s a = some (s', out)) : Move s s' a := by
  cases a with
  | receiveFile hash recording =>
    cases h
    exact .spawn rfl rfl rfl rfl
  | receive r p io uuid =>
    simp only [step] at h
    split at h
    · cases h
    · rename_i x hx
      exact receiveStep_move hx h
  | cancelReceive =>
    cases h
    cases hslot : s.app.currentReceiveCancel with
    | none =>
      have : cancelReceive s = s := by simp [cancelReceive, hslot]
      rw [this]
      exact .quiet rfl rfl rfl
    | some r => exact .fire hslot rfl
  | deleteTransferRecord id io =>
    simp only [step] at h
    split at h
    · split at h <;> (cases h; exact .quiet rfl rfl rfl)
    · cases h; exact .quiet rfl rfl rfl
  | clearTransferHistory io =>
    simp only [step] at h
    split at h <;> (cases h; exact .quiet rfl rfl rfl)
  | clearTransferTempData id io =>
    simp only [step] at h
    split at h
    · split at h <;> (cases h; exact .quiet rfl rfl rfl)
    · cases h; exact .quiet rfl rfl rfl
  | command c io =>
    simp only [step] at h
    split at h
    · cases h
    · obtain ⟨hrec, happ⟩ := commandStep_quiet h
      exact .quiet hrec (by rw [happ]) (by rw [happ])
  | cleanup io =>
    simp only [step] at h
    split at h
    · cases h
    · rw [Option.some.injEq] at h
      obtain rfl : s' = _ := (congrArg Prod.fst h).symm
      exact .quiet (by simp) (by simp) (by simp)

end DashBeam.Receive

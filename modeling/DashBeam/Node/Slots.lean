import DashBeam.Node.Alice
import DashBeam.Node.Fits

/-!
# Session slots

Each peer has one slot in the session map. `register_inbound` looks whether the slot is taken under a
read lock and fills it under a later write lock; `connect_loop` fills it without looking. So a session
registers over nobody in the runs in which no slot is filled while an inbound session stands between
its look and its write (`slots_kept`). A teardown names its connection, and takes out no other.
-/

namespace DashBeam.Node

open Protocol Native Lib

set_option linter.unusedSectionVars false

variable {Id : Type} [DecidableEq Id] {C : Config Id}

/-! ### The property -/

/-- `register_inbound` fills a slot that is free when it writes, and the teardown of a connection
takes out that connection alone. -/
structure KeepsSlots (e : Step Id) : Prop where
  register : ∀ (p : Nat) (c : ControlSession Id) (key : String) (conn : Conn Id),
    e.act.actor = some p → kindOf e.pre p = some (.control c) →
    (doing e.pre e.act).map (·.1) = some (.common (.insertSession key conn)) →
    e.pre.shared.sessions key = none
  teardown : ∀ (key : String) (conn : Conn Id),
    (doing e.pre e.act).map (·.1) = some (.common (.removeSessionIf key conn)) →
    ∀ (slot : String) (current : Conn Id), e.pre.shared.sessions slot = some current →
      e.post.shared.sessions slot ≠ some current → slot = key ∧ current = conn

/-- The slot a critical section fills. -/
def Instr.fills : Instr Id → Option String
  | .common (.insertSession key _) => some key
  | _ => none

/-- An inbound session that found the slot free and has not filled it yet. -/
def Task.registering (key : String) (t : Task Id) : Bool :=
  match t.kind with
  | .control _ => t.todo.any fun i => i.fills = some key
  | _ => false

/-- The step fills a slot that another session is registering for. -/
def overtakes (s : State Id) : Act Id → Bool
  | .exec p _ =>
    match (nextInstr s p).bind Instr.fills with
    | some key => (List.range s.procs.length).any fun q =>
        q ≠ p && (s.procs[q]?).any (Task.registering key)
    | none => false
  | _ => false

/-- No slot is filled while another session is registering for it. -/
def RegistersAlone (s : State Id) (a : Act Id) : Prop := overtakes s a = false

instance (s : State Id) (a : Act Id) : Decidable (RegistersAlone s a) :=
  inferInstanceAs (Decidable (_ = _))

theorem RegistersAlone.none {s : State Id} {p q : Nat} {env : Env} {instr : Instr Id} {key : String}
    {t : Task Id} (h : RegistersAlone s (.exec p env)) (hinstr : nextInstr s p = some instr)
    (hfills : instr.fills = some key) (hget : s.procs[q]? = some t) (hne : q ≠ p) :
    Task.registering key t = false := by
  unfold RegistersAlone overtakes at h
  simp only [hinstr, Option.bind_some, hfills] at h
  have hlt : q < s.procs.length := (List.getElem?_eq_some_iff.mp hget).1
  have hq := List.any_eq_false.mp h q (List.mem_range.mpr hlt)
  simpa [hget, hne] using hq

/-! ### One registration at a time -/

def Instr.registers : Instr Id → Bool
  | .common (.insertSession ..) | .control .registerInbound | .control (.recheckAllowed _)
  | .control (.chargeToken _) => true
  | _ => false

theorem registers_of_fills {i : Instr Id} {key : String} (h : i.fills = some key) :
    i.registers = true := by
  unfold Instr.fills at h
  split at h
  · rfl
  · cases h

section Next

variable {s : Shared Id} {fresh : Nat} {env : Env}

theorem registers_nextCommon {instr : CommonInstr Id} :
    (nextCommon C s fresh env instr).push.any Instr.registers = false :=
  List.any_eq_false.mpr fun i hi => by cases commonPush_next hi <;> exact Bool.false_ne_true

theorem registers_handlePaired {c : ControlSession Id} {msg : ControlMessage} :
    (handlePairedControlMessage C c msg).any Instr.registers = false := by
  cases msg with
  | inviteResponse | recognition | forget =>
    simp only [handlePairedControlMessage]
    split <;> rfl
  | _ => rfl

theorem registers_dispatch {c : ControlSession Id} {msg : ControlMessage} :
    (dispatch C c msg).2.tail.any Instr.registers = false := by
  have hhandle : ∀ i ∈ handlePairedControlMessage C c msg, ¬ i.registers = true :=
    List.any_eq_false.mp registers_handlePaired
  unfold dispatch
  split
  · rfl
  · split
    · exact registers_handlePaired
    · exact List.any_eq_false.mpr fun i hi => hhandle i (List.mem_of_mem_tail hi)

theorem registers_receiveControl {c : ControlSession Id} {msg : ControlMessage} :
    (receiveControl C c msg).2.tail.any Instr.registers = false := by
  unfold receiveControl
  split
  · exact registers_dispatch
  · split <;> rfl

theorem registers_leaveSession {c : ControlSession Id} :
    (leaveSession C c).any Instr.registers = false := by
  unfold leaveSession
  split <;> rfl

theorem registers_nextControl {c : ControlSession Id} {instr : ControlInstr} :
    (nextControl C s c env instr).2.push.tail.any Instr.registers = false := by
  cases instr with
  | recheckAllowed | chargeToken =>
    simp only [nextControl]
    split
    · exact registers_dispatch
    · rfl
  | answerIdentity =>
    simp only [nextControl]
    split
    · rfl
    · split <;> rfl
  | hangUp =>
    simp only [nextControl, leaveSession]
    split <;> rfl
  | registerInbound =>
    simp only [nextControl]
    split <;> rfl
  | takePending =>
    simp only [nextControl]
    split
    · rfl
    · split <;> rfl
  | commitNearby | emitPairedName => rfl

theorem not_mem_of_quiet {l : List (Instr Id)} (h : l.any Instr.registers = false) {i : Instr Id}
    {key : String} (hfills : i.fills = some key) : i ∉ l := fun hi =>
  List.any_eq_false.mp h i hi (registers_of_fills hfills)

theorem not_mem_dispatch {c : ControlSession Id} {msg : ControlMessage} {i : Instr Id}
    {key : String} (hfills : i.fills = some key) : i ∉ (dispatch C c msg).2 := by
  intro hi
  unfold dispatch at hi
  split at hi
  · exact not_mem_of_quiet rfl hfills hi
  · split at hi
    · rw [List.mem_cons] at hi
      rcases hi with rfl | hi
      · cases hfills
      · exact not_mem_of_quiet registers_handlePaired hfills hi
    · exact not_mem_of_quiet registers_handlePaired hfills hi

theorem not_mem_receiveControl {c : ControlSession Id} {msg : ControlMessage} {i : Instr Id}
    {key : String} (hfills : i.fills = some key) : i ∉ (receiveControl C c msg).2 := by
  intro hi
  unfold receiveControl at hi
  split at hi
  · exact not_mem_dispatch hfills hi
  · split at hi <;> (rw [List.mem_singleton] at hi; subst hi; cases hfills)

theorem free_of_fills {c : ControlSession Id} {instr : ControlInstr} {i : Instr Id}
    {key : String} (hi : i ∈ (nextControl C s c env instr).2.push) (hfills : i.fills = some key) :
    s.sessions key = none := by
  have hquiet : ∀ {l : List (Instr Id)}, l.any Instr.registers = false → i ∉ l :=
    fun h => not_mem_of_quiet h hfills
  cases instr with
  | recheckAllowed | chargeToken =>
    simp only [nextControl] at hi
    split at hi
    · exact absurd hi (not_mem_dispatch hfills)
    · exact absurd hi (hquiet rfl)
  | answerIdentity =>
    simp only [nextControl] at hi
    split at hi
    · exact absurd hi (hquiet rfl)
    · split at hi <;> exact absurd hi (hquiet rfl)
  | hangUp => exact absurd hi (hquiet registers_leaveSession)
  | registerInbound =>
    simp only [nextControl] at hi
    split at hi
    · exact absurd hi (hquiet rfl)
    · rename_i hfree
      simp only [setSession, List.mem_cons, List.not_mem_nil, or_false] at hi
      rcases hi with rfl | rfl | rfl
      · obtain rfl := Option.some.inj hfills
        simpa using hfree
      · cases hfills
      · cases hfills
  | takePending =>
    simp only [nextControl] at hi
    split at hi
    · simp at hi
    · split at hi <;> exact absurd hi (hquiet rfl)
  | commitNearby | emitPairedName => exact absurd hi (hquiet rfl)

end Next

/-- A control session registers first, and holds on to a slot only while it is free. -/
def RegistersFirst (sessions : String → Option (Conn Id)) (kind : Kind Id)
    (todo : List (Instr Id)) : Prop :=
  ∀ c, kind = .control c → (∀ i ∈ todo.tail, i.registers = false) ∧
    ∀ i ∈ todo, ∀ key, i.fills = some key → sessions key = none

section RegistersFirst

variable {sessions : String → Option (Conn Id)} {kind : Kind Id} {todo : List (Instr Id)}

theorem RegistersFirst.of_quiet (h : todo.any Instr.registers = false) :
    RegistersFirst sessions kind todo := by
  intro c hkind
  have hall : ∀ i ∈ todo, i.registers = false := by
    intro i hi
    simpa using List.any_eq_false.mp h i hi
  refine ⟨fun i hi => hall i (List.mem_of_mem_tail hi), fun i hi key hfills => ?_⟩
  have hregisters := registers_of_fills hfills
  rw [hall i hi] at hregisters
  cases hregisters

theorem RegistersFirst.has {t : Task Id} (h : RegistersFirst sessions kind todo)
    (hhas : t.Has kind todo) : RegistersFirst sessions t.kind t.todo := by
  obtain ⟨rfl, htodo | ⟨htodo, -⟩⟩ := hhas
  · rw [htodo]
    exact h
  · rw [htodo]
    exact .of_quiet rfl

/-- A critical section leaves a free slot free unless it fills it. -/
theorem free_write {s : Shared Id} {fresh : Nat} {env : Env} {instr : Instr Id} {key : String}
    (hfree : s.sessions key = none) (hfills : instr.fills ≠ some key) :
    (write C s kind fresh env instr).sessions key = none := by
  rw [write_sessions]
  split
  · rename_i key' conn
    have hne : key ≠ key' := by
      rintro rfl
      exact hfills rfl
    rw [Function.update_of_ne hne]
    exact hfree
  · by_cases hkey : key = ‹String›
    · rw [hkey, Function.update_self]
    · rw [Function.update_of_ne hkey]
      exact hfree
  · split
    · by_cases hkey : key = ‹String›
      · rw [hkey, Function.update_self]
      · rw [Function.update_of_ne hkey]
        exact hfree
    · exact hfree
  · exact hfree

theorem RegistersFirst.exec {s : Shared Id} {kind' : Kind Id} {fresh : Nat} {env : Env}
    {instr : Instr Id} {rest : List (Instr Id)} {n : Next Id}
    (hfit : TaskFits C kind (instr :: rest))
    (h : RegistersFirst s.sessions kind (instr :: rest))
    (hnext : next C s kind fresh env instr = some (kind', n)) :
    RegistersFirst (write C s kind fresh env instr).sessions kind' (n.push ++ rest) := by
  have hk := next_kind hnext
  have hfits := hfit.fits instr (by simp)
  cases kind with
  | inbound conn =>
    obtain ⟨i, rfl, rfl⟩ := hfit.inbound
    cases next_case hnext with
    | accept hc =>
      cases hc
      rw [List.append_nil]
      refine .of_quiet ?_
      cases i <;> simp only [nextAccept] <;> (try split) <;> (try split) <;> rfl
  | control c =>
    obtain ⟨hfirst, -⟩ := h c rfl
    -- what is left of the list registers nothing, so all that matters is what comes before it
    have hpush : n.push.tail.any Instr.registers = false ∧ ∀ i ∈ n.push, ∀ key,
        i.fills = some key → (write C s (.control c) fresh env instr).sessions key = none := by
      cases next_case hnext with
      | @common instr =>
        have hquiet : (nextCommon C s fresh env instr).push.any Instr.registers = false :=
          registers_nextCommon
        refine ⟨List.any_eq_false.mpr fun i hi =>
          List.any_eq_false.mp hquiet i (List.mem_of_mem_tail hi), fun i hi key hfills => ?_⟩
        exact absurd hi (not_mem_of_quiet hquiet hfills)
      | control hc =>
        cases hc
        refine ⟨registers_nextControl, fun i hi key hfills => ?_⟩
        exact free_write (free_of_fills hi hfills) (by simp [Instr.fills])
      | service | window | lan => exact hfits.elim
      | accept hc | host hc | connect hc => cases hc
    intro c' _
    constructor
    · intro i hi
      cases hlist : n.push with
      | nil =>
        rw [hlist, List.nil_append] at hi
        exact hfirst i (List.mem_of_mem_tail hi)
      | cons j push =>
        rw [hlist, List.cons_append, List.tail_cons, List.mem_append] at hi
        rw [hlist, List.tail_cons] at hpush
        rcases hi with hi | hi
        · simpa using List.any_eq_false.mp hpush.1 i hi
        · exact hfirst i hi
    · intro i hi key hfills
      rcases List.mem_append.mp hi with hi | hi
      · exact hpush.2 i hi key hfills
      · have hregisters := registers_of_fills hfills
        rw [hfirst i hi] at hregisters
        cases hregisters
  | connect l =>
    obtain ⟨l', rfl, -⟩ := hk
    intro c' hc'
    cases hc'
  | host | call | expiry | lan | background =>
    cases hk
    intro c' hc'
    cases hc'

end RegistersFirst

/-- Every control session of the state registers first. -/
def AllRegisterFirst (s : State Id) : Prop :=
  ∀ (p : Nat) (t : Task Id), s.procs[p]? = some t →
    RegistersFirst s.shared.sessions t.kind t.todo

theorem AllRegisterFirst.step {s s' : State Id} {a : Act Id} {out : List (Out Id)}
    (h : AllRegisterFirst s) (hfits : AllFit C s) (halone : RegistersAlone s a)
    (hs : Node.step C s a = some (s', out)) : AllRegisterFirst s' := by
  intro q t' hq
  obtain ⟨kind, todo, horigin, hhas⟩ := step_origin hs hq
  refine RegistersFirst.has ?_ hhas
  cases horigin with
  | kept hne hget =>
    intro c hkind
    obtain ⟨hfirst, hfree⟩ := h q _ hget c hkind
    refine ⟨hfirst, fun i hi key hfills => ?_⟩
    have hkey := hfree i hi key hfills
    rcases step_shared hs with ⟨hsame, -⟩ |
      ⟨p, env, t, instr, rest, kind, n, rfl, hget', htodo, -, hshared, -⟩
    · rw [hsame]
      exact hkey
    · rw [hshared]
      refine free_write hkey fun hinstr => ?_
      have hqp : q ≠ p := fun hqp => hne (congrArg some hqp.symm)
      have hnot := halone.none (nextInstr_eq hget' htodo) hinstr hget hqp
      rw [Task.registering, hkind] at hnot
      simpa [hfills] using List.any_eq_false.mp hnot i hi
  | exec hget htodo hnext =>
    have hfirst := h q _ hget
    have hfit := hfits q _ hget
    rw [htodo] at hfirst hfit
    obtain ⟨kind', n', t'', hnext', hshared, -⟩ := step_exec hs hget htodo
    rw [hshared]
    exact hfirst.exec hfit hnext
  | recv hget hrecv =>
    cases received_case hrecv with
    | control c =>
      intro c' _
      refine ⟨fun i hi => ?_, fun i hi key hfills => absurd hi (not_mem_receiveControl hfills)⟩
      simpa using List.any_eq_false.mp registers_receiveControl i hi
    | host c =>
      intro c' hc'
      cases hc'
    | connect hconn =>
      intro c' hc'
      cases hc'
  | close hget hsees =>
    intro c hkind
    subst hkind
    exact RegistersFirst.of_quiet registers_leaveSession c rfl
  | drop hget => exact .of_quiet rfl
  | spawned hget hnext hmem hnew =>
    cases next_spawn hnext hmem <;> (intro c hc; cases hc)
  | started hactor hstart hnew =>
    cases started_case hstart with
    | connect | call | appeared | vanished =>
      intro c hc
      cases hc

theorem allRegisterFirst_run {store : StoreFile} {rotated : Bool} {io : Io} {d : Discoverability}
    {relay : Option String} {tr : List (Step Id)} {s : State Id}
    (hrun : Run (machine C) RegistersAlone (start C store rotated io d relay) tr s) :
    AllRegisterFirst s := by
  refine hrun.invariant_of_run (I := fun _ s => AllRegisterFirst s) ?_ ?_
  · intro p t hp c hc
    obtain rfl := eq_of_start hp
    cases hc
  · intro tr s s' a out hprev h halone hs
    exact h.step (fits_run hprev) halone hs

/-! ### Slots hold their peer's connections -/

/-- The keys under which connections are put in and taken out are spellings of their remotes. -/
structure SlotsNamed (C : Config Id) (s : State Id) : Prop where
  held : ∀ (key : String) (conn : Conn Id), s.shared.sessions key = some conn →
    C.iroh.fromStr key = some conn.remote
  teardown : ∀ (p : Nat) (t : Task Id), s.procs[p]? = some t →
    ∀ (key : String) (conn : Conn Id), .common (.removeSessionIf key conn) ∈ t.todo →
      C.iroh.fromStr key = some conn.remote

theorem named_of_sessionFits {conn conn' : Conn Id} {key : String}
    (h : SessionFits C conn (.removeSessionIf key conn')) :
    C.iroh.fromStr key = some conn'.remote := by
  obtain ⟨rfl, rfl⟩ := h
  exact C.iroh.fromStr_toStr _

theorem named_of_insert {kind : Kind Id} {key : String} {conn : Conn Id}
    (h : Fits C kind (.common (.insertSession key conn))) :
    C.iroh.fromStr key = some conn.remote := by
  cases kind with
  | control c | host c =>
    obtain ⟨rfl, rfl⟩ := h
    exact C.iroh.fromStr_toStr _
  | connect l =>
    obtain ⟨rfl, hparse⟩ := h
    exact C.iroh.fromStr_toLowercase hparse
  | inbound | call | expiry | lan | background => exact h.elim

/-- A connect loop tears down its own connection, under the key it was started for. -/
theorem named_nextConnect {s : Shared Id} {env : Env} {l : ConnectLoop Id}
    {instr : ConnectInstr Id} {key : String} {conn : Conn Id}
    (hfits : ConnectFits C l.endpointId (.connect instr))
    (hi : .common (.removeSessionIf key conn) ∈ (nextConnect C s l env instr).2.push) :
    C.iroh.fromStr key = some conn.remote := by
  cases connectPush_next hi with
  | removeSessionIf => exact C.iroh.fromStr_toLowercase hfits.1

theorem not_mem_nextCommon {s : Shared Id} {fresh : Nat} {env : Env} {instr : CommonInstr Id}
    {key : String} {conn : Conn Id} :
    .common (.removeSessionIf key conn) ∉ (nextCommon C s fresh env instr).push := by
  intro hi
  cases instr with
  | remember flow device =>
    cases flow with
    | pairingHost => simp [nextCommon, afterRemember] at hi
    | join | commitNearby =>
      simp only [nextCommon, afterRemember] at hi
      split at hi <;> simp at hi
    | acceptNearby =>
      simp only [nextCommon, afterRemember] at hi
      split at hi
      · split at hi <;> simp at hi
      · simp at hi
  | markUnpaired | setPresence | removeSession | removeSessionIf | refreshList =>
    simp only [nextCommon] at hi
    split at hi <;> simp [managerForget] at hi
  | _ => simp [nextCommon] at hi

theorem not_mem_readOutbound {conn conn' : Conn Id} {msg : ControlMessage} {key : String} :
    .common (.removeSessionIf key conn) ∉ readOutbound C conn' msg := by
  cases msg with
  | recognition | forget =>
    simp only [readOutbound]
    split <;> simp [recognise]
  | _ => simp [readOutbound]

theorem named_connect {s : State Id} {q : Nat} {a : Act Id} {kind : Kind Id} {todo : List (Instr Id)}
    {l : ConnectLoop Id} {key : String} {conn : Conn Id} (h : SlotsNamed C s) (hfits : AllFit C s)
    (horigin : Origin C s q a kind todo) (hkind : kind = .connect l)
    (hi : .common (.removeSessionIf key conn) ∈ todo) : C.iroh.fromStr key = some conn.remote := by
  cases horigin with
  | kept hne hget => exact h.teardown q _ hget key conn hi
  | @exec env t instr rest kind n hget htodo hnext =>
    have hfit := hfits.head hget htodo
    rcases List.mem_append.mp hi with hi | hi
    · cases next_case hnext with
      | common => exact absurd hi not_mem_nextCommon
      | connect hc =>
        rw [hc] at hfit
        exact named_nextConnect hfit hi
      | service | window | lan =>
        rw [hkind] at hfit
        exact hfit.elim
      | accept => cases acceptPush_next hi
      | control hc => cases hkind
      | host hc =>
        rw [hc] at hkind
        cases hkind
    · exact h.teardown q t hget key conn (by rw [htodo]; simp [hi])
  | recv hget hrecv =>
    cases received_case hrecv with
    | control c => cases hkind
    | host c => cases hkind
    | connect hconn => exact absurd hi not_mem_readOutbound
  | close hget hsees =>
    subst hkind
    simp only [closedTodo] at hi
    split at hi
    · rename_i conn' hconn
      have hparse := (hfits q _ hget).kindFits conn' hconn
      rw [List.mem_cons] at hi
      rcases hi with hi | hi
      · simp only [Instr.common.injEq, CommonInstr.removeSessionIf.injEq] at hi
        obtain ⟨rfl, rfl⟩ := hi
        exact C.iroh.fromStr_toLowercase hparse
      · split at hi <;> simp [backOff] at hi
    · simp at hi
  | drop hget => simp at hi
  | spawned hget hnext hmem hnew =>
    cases next_spawn hnext hmem with
    | connect device => simp [connectTask] at hi
    | notify | probe | expiry => cases hkind
  | started hactor hstart hnew =>
    cases started_case hstart with
    | connect | call | appeared | vanished => cases hkind

theorem SlotsNamed.step {s s' : State Id} {a : Act Id} {out : List (Out Id)}
    (h : SlotsNamed C s) (hfits : AllFit C s) (hs : Node.step C s a = some (s', out)) :
    SlotsNamed C s' := by
  constructor
  · intro key conn hheld
    rcases step_shared hs with ⟨hsame, -⟩ |
      ⟨p, env, t, instr, rest, kind, n, -, hget, htodo, -, hshared, -⟩
    · rw [hsame] at hheld
      exact h.held key conn hheld
    · have hfit := hfits.head hget htodo
      rw [hshared, write_sessions] at hheld
      split at hheld
      · rename_i key' conn'
        by_cases hkey : key = key'
        · rw [hkey, Function.update_self] at hheld
          rw [hkey, ← Option.some.inj hheld]
          exact named_of_insert hfit
        · rw [Function.update_of_ne hkey] at hheld
          exact h.held key conn hheld
      · rename_i key'
        by_cases hkey : key = key'
        · rw [hkey, Function.update_self] at hheld
          cases hheld
        · rw [Function.update_of_ne hkey] at hheld
          exact h.held key conn hheld
      · rename_i key' conn'
        split at hheld
        · by_cases hkey : key = key'
          · rw [hkey, Function.update_self] at hheld
            cases hheld
          · rw [Function.update_of_ne hkey] at hheld
            exact h.held key conn hheld
        · exact h.held key conn hheld
      · exact h.held key conn hheld
  · intro q t' hq key conn hi
    have hfit := (hfits.step hs q t' hq).fits _ hi
    obtain ⟨kind, todo, horigin, hhas⟩ := step_origin hs hq
    cases hkind : t'.kind with
    | control c | host c =>
      rw [hkind] at hfit
      exact named_of_sessionFits hfit
    | connect l => exact named_connect h hfits horigin (hhas.1.symm.trans hkind) (hhas.mem hi)
    | inbound | call | expiry | lan | background =>
      rw [hkind] at hfit
      exact hfit.elim

theorem slotsNamed_run {ok : State Id → Act Id → Prop} {store : StoreFile} {rotated : Bool}
    {io : Io} {d : Discoverability} {relay : Option String} {tr : List (Step Id)} {s : State Id}
    (hrun : Run (machine C) ok (start C store rotated io d relay) tr s) : SlotsNamed C s := by
  refine hrun.invariant_of_run (I := fun _ s => SlotsNamed C s) ⟨?_, ?_⟩ ?_
  · intro key conn hheld
    cases hheld
  · intro p t hp key conn hi
    obtain rfl := eq_of_start hp
    simp [program] at hi
  · intro tr s s' a out hprev h _ hs
    exact h.step (fits_run hprev) hs

/-! ### Slots are kept -/

theorem register_free {s : State Id} {a : Act Id} {p : Nat}
    {c : ControlSession Id} {key : String} {conn : Conn Id} (h : AllRegisterFirst s)
    (hactor : a.actor = some p) (hkind : kindOf s p = some (.control c))
    (hdoing : (doing s a).map (·.1) = some (.common (.insertSession key conn))) :
    s.shared.sessions key = none := by
  obtain ⟨p', env, t, rest, rfl, hget, htodo⟩ := exists_of_doing hdoing
  obtain rfl := Option.some.inj hactor
  rw [kindOf_eq hget] at hkind
  obtain ⟨-, hfree⟩ := h p' t hget c (Option.some.inj hkind)
  exact hfree (.common (.insertSession key conn)) (by rw [htodo]; simp) key rfl

/-- A teardown takes out what it names: the entry under its key has the same remote, and was taken
out because it has the same number. -/
theorem teardown_own {s s' : State Id} {a : Act Id} {out : List (Out Id)} {key : String}
    {conn : Conn Id} (h : SlotsNamed C s) (hs : step C s a = some (s', out))
    (hdoing : (doing s a).map (·.1) = some (.common (.removeSessionIf key conn))) {slot : String}
    {current : Conn Id} (hheld : s.shared.sessions slot = some current)
    (hgone : s'.shared.sessions slot ≠ some current) : slot = key ∧ current = conn := by
  obtain ⟨p, env, t, rest, rfl, hget, htodo⟩ := exists_of_doing hdoing
  obtain ⟨kind, n, t', -, hshared, -⟩ := step_exec hs hget htodo
  rw [hshared, write_sessions] at hgone
  simp only at hgone
  split at hgone
  · rename_i hmatch
    by_cases hslot : slot = key
    · subst hslot
      rw [hheld, Option.any_some, decide_eq_true_eq] at hmatch
      have hremote : some current.remote = some conn.remote :=
        (h.held slot current hheld).symm.trans
          (h.teardown p t hget slot conn (by rw [htodo]; simp))
      obtain ⟨remote, num⟩ := current
      obtain ⟨remote', num'⟩ := conn
      obtain rfl : remote = remote' := Option.some.inj hremote
      obtain rfl : num = num' := hmatch
      exact ⟨rfl, rfl⟩
    · rw [Function.update_of_ne hslot] at hgone
      exact absurd hheld hgone
  · exact absurd hheld hgone

/-- In every run in which no slot is filled while another session is registering for it,
`register_inbound` fills free slots only; and a teardown takes out no other connection than its
own. -/
theorem slots_kept (C : Config Id) (store : StoreFile) (rotated : Bool) (io : Io)
    (d : Discoverability) (relay : Option String) (tr : List (Step Id)) (s : State Id)
    (hrun : Run (machine C) RegistersAlone (start C store rotated io d relay) tr s) :
    ∀ e ∈ tr, KeepsSlots e := by
  intro e he
  obtain ⟨pre, hpre, -, -, hs⟩ := hrun.of_mem he
  have hfirst := allRegisterFirst_run hpre
  have hnamed := slotsNamed_run hpre
  exact ⟨fun p c key conn hactor hkind hdoing => register_free hfirst hactor hkind
    hdoing, fun key conn hdoing slot current hheld hgone =>
    teardown_own hnamed hs hdoing hheld hgone⟩

/-! ### Bob's session registers over Alice's -/

/-- Bob, who is paired, connects and says who he is; his session is task 2. It looks at the slot while
Alice's connect loop, task 1, is dialling him, and fills it after the loop did. -/
def overtakenRegistration : List (Act Key) :=
  supervisor ++ .connect ⟨.bob, 8⟩ :: go 2 4 ++ [.recv 2 (.recognition (Key.bob.sign 8))] ++
    go 2 1 ++ go 1 1 ++ [.exec 1 (dialling 9), .exec 1 quiet, .exec 2 quiet]

/-- The session of Alice's loop is replaced. -/
theorem registers_overHeld : ¬ ∀ tr s,
    Run (machine alice) anyStep (aliceStart (.devices [recordOf .bob])) tr s →
      ∀ e ∈ tr, KeepsSlots e := by
  intro hclaim
  obtain ⟨tr, s, hrun, htest⟩ := Run.of_check (machine alice) anyStep
    (aliceStart (.devices [recordOf .bob])) overtakenRegistration (fun tr _ =>
      ∃ e ∈ tr.getLast?, e.act.actor = some 2 ∧
        kindOf e.pre 2 = some (.control ⟨⟨.bob, 8⟩, true, true⟩) ∧
        (doing e.pre e.act).map (·.1) =
          some (.common (.insertSession Key.bob.hex ⟨.bob, 8⟩)) ∧
        e.pre.shared.sessions Key.bob.hex = some ⟨.bob, 9⟩) (by decide +kernel)
  obtain ⟨e, he, hactor, hkind, hdoing, hheld⟩ := of_decide_eq_true htest
  have hfree := (hclaim tr s hrun e (List.mem_of_getLast? he)).register 2 _ _ _ hactor hkind hdoing
  rw [hheld] at hfree
  cases hfree

/-- Bob's session registers while nobody else does, and is torn down. -/
def undisturbedRegistration : List (Act Key) :=
  supervisor ++ .connect ⟨.bob, 8⟩ :: go 2 4 ++ [.recv 2 (.recognition (Key.bob.sign 8))] ++
    go 2 7 ++ [.close 2 "bye"] ++ go 2 1

/-- The theorem applies to a run in which an inbound session registers and is torn down. -/
theorem slots_kept_undisturbed :
    ∃ tr s, Run (machine alice) RegistersAlone (aliceStart (.devices [recordOf .bob])) tr s ∧
      (∃ e ∈ tr, kindOf e.pre 2 = some (.control ⟨⟨.bob, 8⟩, true, true⟩) ∧
        (doing e.pre e.act).map (·.1) =
          some (.common (.insertSession Key.bob.hex ⟨.bob, 8⟩))) ∧
      (∃ e ∈ tr, (doing e.pre e.act).map (·.1) =
          some (.common (.removeSessionIf Key.bob.hex ⟨.bob, 8⟩)) ∧
        e.pre.shared.sessions Key.bob.hex = some ⟨.bob, 8⟩ ∧
        e.post.shared.sessions Key.bob.hex = none) ∧
      ∀ e ∈ tr, KeepsSlots e := by
  obtain ⟨tr, s, hrun, htest⟩ := Run.of_check (machine alice) RegistersAlone
    (aliceStart (.devices [recordOf .bob])) undisturbedRegistration (fun tr _ =>
      (∃ e ∈ tr, kindOf e.pre 2 = some (.control ⟨⟨.bob, 8⟩, true, true⟩) ∧
        (doing e.pre e.act).map (·.1) =
          some (.common (.insertSession Key.bob.hex ⟨.bob, 8⟩))) ∧
      ∃ e ∈ tr, (doing e.pre e.act).map (·.1) =
          some (.common (.removeSessionIf Key.bob.hex ⟨.bob, 8⟩)) ∧
        e.pre.shared.sessions Key.bob.hex = some ⟨.bob, 8⟩ ∧
        e.post.shared.sessions Key.bob.hex = none) (by decide +kernel)
  obtain ⟨hregistered, htorn⟩ := of_decide_eq_true htest
  exact ⟨tr, s, hrun, hregistered, htorn, slots_kept alice (.devices [recordOf .bob]) false
    ⟨true, true⟩ .everyone none tr s hrun⟩

end DashBeam.Node

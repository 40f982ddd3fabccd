import DashBeam.Node.Alice
import DashBeam.Node.Fits

/-!
# Blocking and discoverability

A peer that is not on the allowlist is barred when it is blocked, and when the device neither is
discoverable by everyone nor has its pairing window open. `after_handshake` rejects a barred peer's
connection, and nothing else looks: whoever was let in goes on being heard. So no invite of a barred
peer is surfaced in the runs in which nobody listens to a peer at the moment it becomes barred, no
connect loop dials a barred peer, and a block is spelled as the handshake spells ids
(`barred_unheard`).
-/

namespace DashBeam.Node

open Protocol Native Lib

set_option linter.unusedSectionVars false

variable {Id : Type} [DecidableEq Id] {C : Config Id}

/-! ### The property -/

/-- The two reasons to turn a peer away that is not on the allowlist. -/
inductive Bar
  | blocked
  | closed
  deriving DecidableEq, Repr

/-- The reason holds of the peer. It may have been blocked under any spelling of its id. -/
def Bar.On (C : Config Id) (bar : Bar) (s : Shared Id) (x : Id) : Prop :=
  x ∉ s.allowed ∧
    match bar with
    | .blocked => ∃ e ∈ s.blocked, C.iroh.fromStr e = some x
    | .closed => s.discoverability ≠ .everyone ∧ s.pairingHostOpen = false

instance (bar : Bar) (s : Shared Id) (x : Id) : Decidable (bar.On C s x) := by
  unfold Bar.On
  cases bar <;> infer_instance

/-- The events that surface something a stranger may send. -/
def AppEvent.surfaces : AppEvent → Option String
  | .pairedInviteReceived remote .. | .nearbyPairRequestReceived remote .. => some remote
  | _ => none

/-- The step shows an invite or a pair request of the peer to the app. -/
def Surfaces (C : Config Id) (x : Id) (e : Step Id) : Prop :=
  ∃ event, .event event ∈ e.out ∧ event.surfaces = some (C.iroh.toStr x)

/-- Nothing of a barred peer is surfaced. -/
def BarredUnheard (C : Config Id) (tr : List (Step Id)) : Prop :=
  ∀ e ∈ tr, ∀ (bar : Bar) (x : Id), bar.On C e.pre.shared x → ¬ Surfaces C x e

/-! ### Who listens -/

/-- The checks up to the one that turns a barred peer away. -/
def Bar.before : Bar → AcceptInstr → Bool
  | _, .hookBlocked => true
  | .closed, .hookAccess => true
  | _, _ => false

/-- A session that has this to do may still surface a message of its peer. -/
def Instr.hears : Instr Id → Bool
  | .common .read | .connect (.unpairGet _ (.forgetReceived _))
  | .connect (.unpairMark _ (.forgetReceived _)) | .control (.recheckAllowed _)
  | .control (.chargeToken _) | .control .answerIdentity => true
  | .common (.emit event) => event.surfaces.isSome
  | _ => false

/-- The peer a task speaks with, or is going to. -/
def Kind.peer (C : Config Id) : Kind Id → Option Id
  | .inbound conn => some conn.remote
  | .control c => some c.conn.remote
  | .host h => some h.conn.remote
  | .connect l => C.iroh.fromStr l.endpointId
  | _ => none

/-- A task that has this to do may still surface a message of its peer, which the check of `bar` does
not prevent any more. A pairing host looks at the allowlist itself. -/
def Kind.hears (bar : Bar) : Kind Id → Instr Id → Bool
  | .inbound _, .accept i => !bar.before i
  | .control _, i | .connect _, i => i.hears
  | .host _, .common (.emit event) => event.surfaces.isSome
  | _, _ => false

@[simp]
theorem hears_control (bar : Bar) (c : ControlSession Id) (i : Instr Id) :
    (Kind.control c).hears bar i = i.hears := rfl

@[simp]
theorem hears_connect (bar : Bar) (l : ConnectLoop Id) (i : Instr Id) :
    (Kind.connect l).hears bar i = i.hears := rfl

/-- The task surfaces nothing of the peer, now or later. -/
def Task.Deaf (C : Config Id) (bar : Bar) (x : Id) (kind : Kind Id) (todo : List (Instr Id)) :
    Prop :=
  kind.peer C = some x → ∀ i ∈ todo, kind.hears bar i = false

instance (bar : Bar) (x : Id) (kind : Kind Id) (todo : List (Instr Id)) :
    Decidable (Task.Deaf C bar x kind todo) :=
  inferInstanceAs (Decidable (_ → _))

/-- What the tasks share after an action. -/
def written (C : Config Id) (s : State Id) : Act Id → Shared Id
  | .exec p env =>
    match s.procs[p]? with
    | some ⟨kind, instr :: _, _⟩ => write C s.shared kind s.procs.length env instr
    | _ => s.shared
  | _ => s.shared

/-- The peer a connect loop dials with this step. -/
def dials (C : Config Id) (s : State Id) : Act Id → Option Id
  | .exec p _ =>
    match s.procs[p]? with
    | some ⟨.connect l, .connect .dial :: _, _⟩ => C.iroh.fromStr l.endpointId
    | _ => none
  | _ => none

/-- Nobody listens to a peer when it becomes barred, a barred peer is not dialled, and a peer is
blocked under the spelling the handshake looks for. -/
structure BarsStrangers (C : Config Id) (s : State Id) (a : Act Id) : Prop where
  unheard : ∀ bar ∈ [Bar.blocked, Bar.closed], ∀ t ∈ s.procs, ∀ x ∈ t.kind.peer C,
    bar.On C (written C s a) x → bar.On C s.shared x ∨ Task.Deaf C bar x t.kind t.todo
  undialled : ∀ bar ∈ [Bar.blocked, Bar.closed], ∀ x ∈ dials C s a, ¬ bar.On C s.shared x
  spelled : ∀ e ∈ (written C s a).blocked, ∀ x ∈ C.iroh.fromStr e,
    e ∈ s.shared.blocked ∨ e = C.iroh.toStr x

/-- What is cheap is looked at first: deaf tasks, and spellings that are blocked already. -/
theorem barsStrangers_iff {s : State Id} {a : Act Id} : BarsStrangers C s a ↔
    (∀ bar ∈ [Bar.blocked, Bar.closed], ∀ t ∈ s.procs, ∀ x ∈ t.kind.peer C,
      Task.Deaf C bar x t.kind t.todo ∨ (bar.On C (written C s a) x → bar.On C s.shared x)) ∧
    (∀ bar ∈ [Bar.blocked, Bar.closed], ∀ x ∈ dials C s a, ¬ bar.On C s.shared x) ∧
    ∀ e ∈ (written C s a).blocked, e ∈ s.shared.blocked ∨
      ∀ x ∈ C.iroh.fromStr e, e = C.iroh.toStr x := by
  constructor
  · rintro ⟨hunheard, hundialled, hspelled⟩
    refine ⟨fun bar hbar t ht x hx => ?_, hundialled, fun e he => ?_⟩
    · by_cases hdeaf : Task.Deaf C bar x t.kind t.todo
      · exact Or.inl hdeaf
      · exact Or.inr fun hon => (hunheard bar hbar t ht x hx hon).resolve_right hdeaf
    · by_cases hold : e ∈ s.shared.blocked
      · exact Or.inl hold
      · exact Or.inr fun x hx => (hspelled e he x hx).resolve_left hold
  · rintro ⟨hunheard, hundialled, hspelled⟩
    refine ⟨fun bar hbar t ht x hx hon => ?_, hundialled, fun e he x hx => ?_⟩
    · exact (hunheard bar hbar t ht x hx).symm.imp_left fun honly => honly hon
    · exact (hspelled e he).imp_right fun hall => hall x hx

instance (s : State Id) (a : Act Id) : Decidable (BarsStrangers C s a) :=
  decidable_of_iff' _ barsStrangers_iff

theorem Bar.mem_all (bar : Bar) : bar ∈ [Bar.blocked, Bar.closed] := by
  cases bar <;> decide

theorem written_eq {s s' : State Id} {a : Act Id} {out : List (Out Id)}
    (hs : step C s a = some (s', out)) : written C s a = s'.shared := by
  cases step_case hs with
  | @exec p env t instr rest kind n hget htodo hnext =>
    obtain ⟨kind₀, todo, aborted⟩ := t
    obtain rfl : todo = instr :: rest := htodo
    simp only [written, hget]
  | recv | close | drop => rfl
  | start hactor =>
    cases a with
    | connect | call | lan => rfl
    | exec | recv | close | drop => cases hactor

/-! ### Who does not listen does not start to -/

section Next

variable {s : Shared Id} {fresh : Nat} {env : Env}

theorem hears_nextCommon {instr : CommonInstr Id} :
    (nextCommon C s fresh env instr).push.any Instr.hears = false :=
  List.any_eq_false.mpr fun i hi => by cases commonPush_next hi <;> exact Bool.false_ne_true

theorem hears_leaveSession {c : ControlSession Id} :
    (leaveSession C c).any Instr.hears = false := by
  unfold leaveSession
  split <;> rfl

theorem hears_nextControl {c : ControlSession Id} {instr : ControlInstr}
    (h : (Instr.control instr : Instr Id).hears = false) :
    (nextControl C s c env instr).2.push.any Instr.hears = false := by
  cases instr with
  | hangUp => exact hears_leaveSession
  | registerInbound =>
    simp only [nextControl]
    split <;> rfl
  | takePending =>
    simp only [nextControl]
    split
    · rfl
    · split <;> rfl
  | commitNearby | emitPairedName => rfl
  | recheckAllowed | chargeToken | answerIdentity => cases h

theorem hears_nextConnect {l : ConnectLoop Id} {instr : ConnectInstr Id}
    (h : (Instr.connect instr : Instr Id).hears = false) (hdial : instr ≠ .dial) :
    (nextConnect C s l env instr).2.push.any Instr.hears = false := by
  rw [List.any_eq_false]
  intro i hi
  cases connectPush_next hi with
  | read => exact absurd rfl hdial
  | @unpairMark e cause =>
    cases cause with
    | forgetReceived => cases h
    | recognitionRefused => simp [Instr.hears]
  | skippedGet | skippedMark => cases h
  | dial | insertSession | online | touch | offline | sleep | loopTop | unpairGet
  | disallowForgotten | disallowRefused | marked | unpaired | removeSessionIf =>
    simp [Instr.hears, AppEvent.surfaces]

theorem hears_closedTodo {kind : Kind Id} {bar : Bar} {reason : String} {i : Instr Id}
    (hi : i ∈ closedTodo C kind reason) : kind.hears bar i = false := by
  cases kind with
  | control c => simpa using List.any_eq_false.mp hears_leaveSession i hi
  | host h =>
    simp only [closedTodo] at hi
    split at hi
    · rw [List.mem_singleton] at hi
      subst hi
      rfl
    · simp at hi
  | connect l =>
    simp only [closedTodo] at hi
    split at hi
    · rw [List.mem_cons] at hi
      rcases hi with rfl | hi
      · rfl
      · split at hi
        · rw [List.mem_singleton] at hi
          subst hi
          rfl
        · simp only [backOff, List.mem_cons, List.not_mem_nil, or_false] at hi
          rcases hi with rfl | rfl <;> rfl
    · simp at hi
  | inbound | call | expiry | lan | background => simp [closedTodo] at hi

/-- A pairing host surfaces an invite only through its own check. -/
theorem hears_host {h : HostSession Id} {bar : Bar} {l : List (Instr Id)}
    (hl : l.any Instr.hears = false) : ∀ i ∈ l, (Kind.host h).hears bar i = false := by
  intro i hi
  have hnot := List.any_eq_false.mp hl i hi
  cases i with
  | common j =>
    cases j with
    | emit event => simpa [Instr.hears, Kind.hears] using hnot
    | _ => rfl
  | _ => rfl

end Next

theorem Task.Deaf.has {bar : Bar} {x : Id} {kind : Kind Id} {todo : List (Instr Id)} {t : Task Id}
    (h : Task.Deaf C bar x kind todo) (hhas : t.Has kind todo) :
    Task.Deaf C bar x t.kind t.todo := by
  intro hx i hi
  rw [hhas.1] at hx ⊢
  exact h hx i (hhas.mem hi)

/-- Blocked peers are blocked under the spelling the handshake looks for. -/
def Spelled (C : Config Id) (s : Shared Id) : Prop :=
  ∀ e ∈ s.blocked, ∀ x, C.iroh.fromStr e = some x → e = C.iroh.toStr x

/-- The check of a bar turns the barred peer's connection away. -/
theorem deaf_accept {s : Shared Id} {bar : Bar} {x : Id} {conn : Conn Id} {env : Env}
    {instr : AcceptInstr} (hspelled : Spelled C s) (hon : bar.On C s x)
    (h : Task.Deaf C bar x (.inbound conn) [.accept instr]) :
    Task.Deaf C bar x (nextAccept C s conn env instr).1 (nextAccept C s conn env instr).2.push := by
  obtain ⟨hallowed, hon⟩ := hon
  by_cases hx : conn.remote = x
  · subst hx
    have hbefore := h rfl (.accept instr) (by simp)
    cases instr with
    | hookBlocked =>
      cases bar with
      | blocked =>
        obtain ⟨e, he, hparse⟩ := hon
        obtain rfl := hspelled e he _ hparse
        simp only [nextAccept, if_pos he]
        intro _
        simp
      | closed =>
        simp only [nextAccept]
        split
        · intro _
          simp
        · intro _ i hi
          rw [List.mem_singleton] at hi
          subst hi
          rfl
    | hookAccess =>
      cases bar with
      | blocked => cases hbefore
      | closed =>
        obtain ⟨heveryone, hopen⟩ := hon
        have hpass : (s.pairingHostOpen || decide (conn.remote ∈ s.allowed)) = false := by
          rw [hopen, decide_eq_false hallowed, Bool.or_false]
        have hstranger : allowsUnpairedControl s.discoverability = false := by
          unfold allowsUnpairedControl
          split
          · exact absurd ‹_› heveryone
          · rfl
        simp only [nextAccept, hpass, hstranger, Bool.false_eq_true, if_false]
        intro _
        simp
    | hookDirectPath | acceptWindow | acceptAllowed => cases bar <;> cases hbefore
  · -- another peer's connection stays another peer's
    intro hpeer
    have hkind : (nextAccept C s conn env instr).1.peer C = some conn.remote := by
      generalize hk : (nextAccept C s conn env instr).1 = kind
      cases acceptKind_next hk <;> rfl
    exact absurd (Option.some.inj (hkind.symm.trans hpeer)) hx

/-- A pairing-host session goes on to nothing that surfaces a message, or to the next one. -/
theorem hears_nextOfHost {s : Shared Id} {h : HostSession Id} {kind' : Kind Id} {fresh : Nat}
    {env : Env} {instr : Instr Id} {n : Next Id} (hfits : Fits C (.host h) instr)
    (hnext : next C s (.host h) fresh env instr = some (kind', n)) :
    n.push.any Instr.hears = false ∨ n.push = [.common .read] := by
  cases next_case hnext with
  | common => exact .inl hears_nextCommon
  | @host instr _ hc =>
    cases hc
    cases instr with
    | hostHello =>
      simp only [nextHost]
      split
      · exact .inr rfl
      · exact .inl rfl
    | loadPersistent =>
      simp only [nextHost]
      split <;> exact .inl rfl
    | hostInvite | hostRecord | hostVote => exact .inl rfl
  | @window instr =>
    cases instr with
    | closeWindow => exact .inl rfl
    | _ => exact hfits.elim
  | service | lan => exact hfits.elim
  | accept hc | control hc | connect hc => cases hc

theorem deaf_exec {s : Shared Id} {bar : Bar} {x : Id} {kind kind' : Kind Id} {fresh : Nat}
    {env : Env} {instr : Instr Id} {rest : List (Instr Id)} {n : Next Id}
    (hfit : TaskFits C kind (instr :: rest)) (hspelled : Spelled C s)
    (haccept : ∀ i, instr = .accept i → bar.On C s x)
    (hdial : instr = .connect .dial → kind.peer C ≠ some x)
    (h : Task.Deaf C bar x kind (instr :: rest))
    (hnext : next C s kind fresh env instr = some (kind', n)) :
    Task.Deaf C bar x kind' (n.push ++ rest) := by
  have hk := next_kind hnext
  have hfits := hfit.fits instr (by simp)
  have hsplit : n.push.any Instr.hears = false → (∀ i ∈ instr :: rest, i.hears = false) →
      ∀ i ∈ n.push ++ rest, i.hears = false := by
    intro hpush hquiet i hi
    rcases List.mem_append.mp hi with hi | hi
    · simpa using List.any_eq_false.mp hpush i hi
    · exact hquiet i (by simp [hi])
  cases kind with
  | inbound conn =>
    obtain ⟨i, rfl, rfl⟩ := hfit.inbound
    cases next_case hnext with
    | accept hc =>
      cases hc
      rw [List.append_nil]
      exact deaf_accept hspelled (haccept i rfl) h
  | control c =>
    obtain ⟨c', hkind', hstep⟩ := hk
    suffices hc' : c.conn.remote = x → ∀ i ∈ n.push ++ rest, i.hears = false by
      rw [hkind']
      simpa [Task.Deaf, Kind.peer, hstep.conn] using hc'
    intro hx
    have hquiet : ∀ i ∈ instr :: rest, i.hears = false := h (congrArg some hx)
    refine hsplit ?_ hquiet
    have hinstr := hquiet instr (by simp)
    cases next_case hnext with
    | common => exact hears_nextCommon
    | control hc =>
      cases hc
      exact hears_nextControl hinstr
    | service | window | lan => exact hfits.elim
    | accept hc | host hc | connect hc => cases hc
  | host c =>
    have hpush := hears_nextOfHost hfits hnext
    cases hk
    intro hx i hi
    rcases List.mem_append.mp hi with hi | hi
    · rcases hpush with hpush | hpush
      · exact hears_host hpush i hi
      · rw [hpush, List.mem_singleton] at hi
        subst hi
        rfl
    · exact h hx i (by simp [hi])
  | connect l =>
    obtain ⟨l', hkind', hid⟩ := hk
    suffices hl' : C.iroh.fromStr l.endpointId = some x → ∀ i ∈ n.push ++ rest, i.hears = false by
      rw [hkind']
      simpa [Task.Deaf, Kind.peer, hid] using hl'
    intro hx
    have hquiet : ∀ i ∈ instr :: rest, i.hears = false := h hx
    refine hsplit ?_ hquiet
    have hinstr := hquiet instr (by simp)
    cases next_case hnext with
    | common => exact hears_nextCommon
    | connect hc =>
      cases hc
      refine hears_nextConnect hinstr ?_
      rintro rfl
      exact hdial rfl hx
    | service | window | lan => exact hfits.elim
    | accept hc | control hc | host hc => cases hc
  | call | expiry | lan | background =>
    cases hk
    intro hx
    cases hx

theorem hears_receiveHost {h h' : HostSession Id} {bar : Bar} {msg : ControlMessage}
    {i : Instr Id} (hi : i ∈ (receiveHost C h msg).2) : (Kind.host h').hears bar i = false := by
  cases hostReceives_of_mem hi <;> rfl

/-! ### Barred peers are not listened to -/

structure BarInv (C : Config Id) (s : State Id) : Prop where
  spelled : Spelled C s.shared
  deaf : ∀ (p : Nat) (t : Task Id), s.procs[p]? = some t → ∀ (bar : Bar) (x : Id),
    bar.On C s.shared x → Task.Deaf C bar x t.kind t.todo

theorem BarInv.step {s s' : State Id} {a : Act Id} {out : List (Out Id)} (h : BarInv C s)
    (hfits : AllFit C s) (hok : BarsStrangers C s a) (hs : Node.step C s a = some (s', out)) :
    BarInv C s' := by
  have hwritten := written_eq hs
  constructor
  · intro e he x hparse
    rw [← hwritten] at he
    rcases hok.spelled e he x hparse with hold | heq
    · exact h.spelled e hold x hparse
    · exact heq
  · intro q t' hq bar x hon
    -- nobody listened to the peer before: it was barred already, or the step is one that bars it
    have hpre : ∀ (p : Nat) (t : Task Id), s.procs[p]? = some t →
        Task.Deaf C bar x t.kind t.todo := by
      intro p t hget hpeer
      rw [← hwritten] at hon
      rcases hok.unheard bar bar.mem_all t (List.mem_of_getElem? hget) x hpeer hon with hold | hdeaf
      · exact h.deaf p t hget bar x hold hpeer
      · exact hdeaf hpeer
    obtain ⟨kind, todo, horigin, hhas⟩ := step_origin hs hq
    refine Task.Deaf.has ?_ hhas
    cases horigin with
    | kept hne hget => exact hpre q _ hget
    | @exec env t instr rest kind n hget htodo hnext =>
      have hdeaf := hpre q t hget
      have hfit := hfits q t hget
      rw [htodo] at hdeaf hfit
      obtain ⟨kind', n', t'', -, hshared, -⟩ := step_exec hs hget htodo
      refine deaf_exec hfit h.spelled ?_ ?_ hdeaf hnext
      · rintro i rfl
        rw [hshared] at hon
        exact hon
      · rintro rfl hpeer
        rw [hshared] at hon
        obtain ⟨kind₀, todo₀, aborted⟩ := t
        obtain rfl : todo₀ = .connect .dial :: rest := htodo
        cases next_case hnext with
        | connect hc =>
          obtain rfl : kind₀ = _ := hc
          refine hok.undialled bar bar.mem_all x ?_ hon
          simp only [dials, hget]
          exact hpeer
    | recv hget hrecv =>
      have hdeaf := hpre q _ hget
      -- whoever reads a message listens
      cases received_case hrecv with
      | control c =>
        intro hpeer
        have hconn := (sessionStep_receiveControl (C := C) c ‹ControlMessage›).conn
        rw [Kind.peer, hconn] at hpeer
        exact absurd (hdeaf hpeer (.common .read) (by simp)) (by simp [Instr.hears])
      | host c => exact fun _ i hi => hears_receiveHost hi
      | connect hconn =>
        intro hpeer
        exact absurd (hdeaf hpeer (.common .read) (by simp)) (by simp [Instr.hears])
    | close hget hsees => exact fun _ i hi => hears_closedTodo hi
    | drop hget =>
      intro _ i hi
      simp at hi
    | spawned hget hnext hmem hnew =>
      cases next_spawn hnext hmem with
      | connect device =>
        intro _ i hi
        rw [connectTask, List.mem_singleton] at hi
        subst hi
        rfl
      | notify | probe | expiry =>
        intro hpeer
        cases hpeer
    | started hactor hstart hnew =>
      cases started_case hstart with
      | connect conn =>
        intro _ i hi
        rw [List.mem_singleton] at hi
        subst hi
        cases bar <;> rfl
      | call | appeared | vanished =>
        intro hpeer
        cases hpeer

theorem barInv_run {store : StoreFile} {rotated : Bool} {io : Io} {d : Discoverability}
    {relay : Option String} {tr : List (Step Id)} {s : State Id}
    (hrun : Run (machine C) (BarsStrangers C) (start C store rotated io d relay) tr s) :
    BarInv C s := by
  refine hrun.invariant_of_run (I := fun _ s => BarInv C s) ⟨?_, ?_⟩ ?_
  · intro e he
    simp [start] at he
  · intro p t hp bar x _ hpeer
    obtain rfl := eq_of_start hp
    cases hpeer
  · intro tr s s' a out hprev h hok hs
    exact h.step (fits_run hprev) hok hs

/-- Whatever surfaces a message of a peer listens to it, apart from the pairing host, which looks at
the allowlist. -/
theorem hears_of_surfaces {s : Shared Id} {kind kind' : Kind Id} {fresh : Nat} {env : Env}
    {instr : Instr Id} {n : Next Id} {event : AppEvent} {x : Id} (bar : Bar)
    (hfits : Fits C kind instr) (hnext : next C s kind fresh env instr = some (kind', n))
    (ho : .event event ∈ n.out) (hsurfaces : event.surfaces = some (C.iroh.toStr x)) :
    x ∈ s.allowed ∨ kind.peer C = some x ∧ kind.hears bar instr = true := by
  cases event_case hnext ho with
  | emit =>
    refine .inr ?_
    have hhears : event.surfaces.isSome = true := by rw [hsurfaces]; rfl
    have hsession : ∀ {y : Id}, event.OfSession (C.iroh.toStr y) → y = x := by
      intro y hof
      cases event with
      | pairedInviteReceived r | nearbyPairRequestReceived r =>
        obtain rfl : r = C.iroh.toStr y := hof
        exact C.iroh.toStr_injective (Option.some.inj hsurfaces)
      | _ => cases hsurfaces
    cases kind with
    | control c => exact ⟨congrArg some (hsession hfits), hhears⟩
    | host c => exact ⟨congrArg some (hsession hfits), hhears⟩
    | connect l =>
      refine ⟨?_, hhears⟩
      cases event with
      | pairedInviteReceived r =>
        obtain ⟨y, hparse, rfl⟩ := hfits
        obtain rfl := C.iroh.toStr_injective (Option.some.inj hsurfaces)
        exact hparse
      | nearbyPairRequestReceived => exact hfits.elim
      | _ => cases hsurfaces
    | inbound | lan => exact hfits.elim
    | call | expiry | background =>
      cases event with
      | pairedInviteReceived | nearbyPairRequestReceived => exact hfits.elim
      | _ => cases hsurfaces
  | hostInvite hkind hmem =>
    subst hkind
    cases event with
    | pairedInviteReceived r | nearbyPairRequestReceived r =>
      obtain rfl : r = _ := hfits
      obtain rfl := C.iroh.toStr_injective (Option.some.inj hsurfaces)
      exact .inl hmem
    | _ => cases hsurfaces
  | answer | presence | pairedName | found | identified | lost => cases hsurfaces

/-- In every run in which nobody listens to a peer when it becomes barred, no barred peer is dialled
and blocks are spelled as the handshake spells ids, nothing of a barred peer is surfaced. -/
theorem barred_unheard (C : Config Id) (store : StoreFile) (rotated : Bool) (io : Io)
    (d : Discoverability) (relay : Option String) (tr : List (Step Id)) (s : State Id)
    (hrun : Run (machine C) (BarsStrangers C) (start C store rotated io d relay) tr s) :
    BarredUnheard C tr := by
  intro e he bar x hon hsurfaces
  obtain ⟨pre, hpre, -, -, hs⟩ := hrun.of_mem he
  obtain ⟨event, ho, hremote⟩ := hsurfaces
  rcases step_shared hs with ⟨-, hout⟩ |
    ⟨p, env, t, instr, rest, kind, n, -, hget, htodo, hnext, -, hout⟩
  · rw [hout] at ho
    simp at ho
  · rw [hout] at ho
    have hfit := (fits_run hpre).head hget htodo
    rcases hears_of_surfaces bar hfit hnext ho hremote with hmem | ⟨hpeer, hhears⟩
    · exact hon.1 hmem
    · have hdeaf := (barInv_run hpre).deaf p t hget bar x hon hpeer instr (by rw [htodo]; simp)
      rw [hdeaf] at hhears
      cases hhears

/-! ### Bob was let in before -/

/-- Bob, a stranger, connects while Alice is discoverable by everyone, and sends an invite. Alice
declines it and blocks him, and turns discoverability down; then he sends another one. -/
def blockedWhileConnected : List (Act Key) :=
  supervisor ++ accepted 1 .bob 8 ++ [.recv 1 (.invite "ticket" 1 10 "Bob")] ++ go 1 2 ++
    .call (.declineNearbyInvite Key.bob.hex true) :: go 2 5 ++
    .call (.setDiscoverability .pairedOnly) :: go 3 2 ++
    [.recv 1 (.invite "again" 1 10 "Bob")] ++ go 1 2

/-- It is surfaced. -/
theorem hears_barred : ¬ ∀ tr s, Run (machine alice) anyStep (aliceStart .missing) tr s →
    BarredUnheard alice tr := by
  intro hclaim
  obtain ⟨tr, s, hrun, htest⟩ := Run.of_check (machine alice) anyStep (aliceStart .missing)
    blockedWhileConnected (fun tr _ => ∃ e ∈ tr.getLast?,
      Bar.On alice .blocked e.pre.shared .bob ∧ Bar.On alice .closed e.pre.shared .bob ∧
      .event (.pairedInviteReceived Key.bob.hex "again" 1 10 "Bob") ∈ e.out) (by decide +kernel)
  obtain ⟨e, he, hblocked, -, hevent⟩ := of_decide_eq_true htest
  exact hclaim tr s hrun e (List.mem_of_getLast? he) .blocked .bob hblocked ⟨_, hevent, rfl⟩

/-- Bob's session has ended when Alice blocks him; he connects again, and Carol sends an invite. -/
def blockedThenConnected : List (Act Key) :=
  supervisor ++ accepted 1 .bob 8 ++ [.recv 1 (.invite "ticket" 1 10 "Bob")] ++ go 1 2 ++
    .close 1 "bye" :: .call (.declineNearbyInvite Key.bob.hex true) :: go 2 5 ++
    .connect ⟨.bob, 9⟩ :: go 3 1 ++ accepted 4 .carol 10 ++
    [.recv 4 (.invite "ticket" 1 10 "Carol")] ++ go 4 2

/-- The theorem applies to a run in which a blocked peer is turned away and another stranger's invite
is surfaced. -/
theorem barred_unheard_blocked :
    ∃ tr s, Run (machine alice) (BarsStrangers alice) (aliceStart .missing) tr s ∧
      (∃ e ∈ tr, .closed ⟨.bob, 9⟩ 403 "blocked peer" ∈ e.out) ∧
      (∃ e ∈ tr.getLast?, Bar.On alice .blocked e.pre.shared .bob ∧
        .event (.pairedInviteReceived Key.carol.hex "ticket" 1 10 "Carol") ∈ e.out) ∧
      BarredUnheard alice tr := by
  obtain ⟨tr, s, hrun, htest⟩ := Run.of_check (machine alice) (BarsStrangers alice)
    (aliceStart .missing) blockedThenConnected (fun tr _ =>
      (∃ e ∈ tr, .closed ⟨.bob, 9⟩ 403 "blocked peer" ∈ e.out) ∧
      ∃ e ∈ tr.getLast?, Bar.On alice .blocked e.pre.shared .bob ∧
        .event (.pairedInviteReceived Key.carol.hex "ticket" 1 10 "Carol") ∈ e.out)
    (by decide +kernel)
  obtain ⟨hrejected, hcarol⟩ := of_decide_eq_true htest
  exact ⟨tr, s, hrun, hrejected, hcarol,
    barred_unheard alice .missing false ⟨true, true⟩ .everyone none tr s hrun⟩

end DashBeam.Node

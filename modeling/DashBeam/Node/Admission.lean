import DashBeam.Node.Alice
import DashBeam.Node.Fits

/-!
# A paired peer is admitted

A connection passes `after_handshake` if its remote is not blocked and is on the allowlist, and is
served as a paired peer's if it is on the allowlist when it is accepted. A pairing puts its peer on
the allowlist, and only there: an earlier block outlives it, and the pairing host allows the key it is
connected to whatever id it was told. In the runs in which a pairing is with a peer that is not
blocked, and with the one it is connected to, every connection the peer makes from then on is served
as a paired peer's (`paired_admitted`).
-/

namespace DashBeam.Node

open Protocol Native Lib

set_option linter.unusedSectionVars false

variable {Id : Type} [DecidableEq Id] {C : Config Id}

/-! ### The property -/

/-- Whom the step pairs with: the id the flow puts on the allowlist and, in the pairing host, the id
the peer told and the record was stored under. -/
def pairedWith (C : Config Id) (s : State Id) : Act Id → List Id
  | .exec p _ =>
    match s.procs[p]? with
    | some ⟨.host h, .common (.allow y) :: _, _⟩ =>
      y :: (h.remoteInfo.bind fun info => C.iroh.fromStr info.endpointId).toList
    | some ⟨_, .common (.allow y) :: _, _⟩ => [y]
    | _ => []
  | _ => []

def PairsWith (C : Config Id) (x : Id) (e : Step Id) : Prop := x ∈ pairedWith C e.pre e.act

/-- The critical section takes the peer off the allowlist, or blocks it. -/
def Instr.LocksOut (C : Config Id) (x : Id) : Instr Id → Prop
  | .common (.disallow y _) => y = x
  | .service (.block e) => e = C.iroh.toStr x
  | _ => False

/-- The peer is forgotten, unpaired or blocked with this step. -/
def LocksOut (C : Config Id) (x : Id) (e : Step Id) : Prop :=
  ∃ instr ∈ (doing e.pre e.act).map (·.1), instr.LocksOut C x

/-- The task of an accepted connection, after it took `k` steps: the hook and `handle_connection`
reject nothing, and after four steps the connection is served as a paired peer's. -/
structure Admission (C : Config Id) (s : State Id) (p : Nat) (conn : Conn Id) (k : Nat) : Prop where
  passes : k < 4 → ∀ env, ∃ s', step C s (.exec p env) = some (s', [])
  served : 4 ≤ k → ∃ c, kindOf s p = some (.control c) ∧ c.conn = conn ∧ c.peerIsPaired = true

/-- How many steps of the run the task took. -/
def stepsOf (p : Nat) (tr : List (Step Id)) : Nat := tr.countP fun e => e.act.actor = some p

/-- Every connection that a peer makes while it is paired, and still is, is admitted. -/
def AdmitsPaired (C : Config Id) (tr : List (Step Id)) (s : State Id) : Prop :=
  ∀ before e after conn, tr = before ++ e :: after → e.act = .connect conn →
    Since (PairsWith C conn.remote) (LocksOut C conn.remote) before →
    (∀ e' ∈ after, ¬ LocksOut C conn.remote e') →
    Admission C s e.pre.procs.length conn (stepsOf e.pre.procs.length after)

/-- A pairing is with a peer that is not blocked, and with the one that is then allowed. -/
def PairsUnblocked (C : Config Id) (s : State Id) (a : Act Id) : Prop :=
  ∀ x ∈ pairedWith C s a, C.iroh.toStr x ∉ s.shared.blocked ∧
    (doing s a).map (·.1) = some (.common (.allow x))

instance (s : State Id) (a : Act Id) : Decidable (PairsUnblocked C s a) :=
  inferInstanceAs (Decidable (∀ x ∈ pairedWith C s a, _))

/-! ### A paired peer stays allowed -/

/-- The peer is on the allowlist and not blocked. -/
def Welcome (C : Config Id) (s : Shared Id) (x : Id) : Prop :=
  x ∈ s.allowed ∧ C.iroh.toStr x ∉ s.blocked

theorem Welcome.write {s : Shared Id} {x : Id} (h : Welcome C s x) {kind : Kind Id} {fresh : Nat}
    {env : Env} {instr : Instr Id} (hinstr : ¬ instr.LocksOut C x) :
    Welcome C (write C s kind fresh env instr) x := by
  constructor
  · rw [write_allowed]
    split
    · exact Finset.mem_insert_of_mem h.1
    · have hne : ‹Id› ≠ x := hinstr
      exact Finset.mem_erase.mpr ⟨hne.symm, h.1⟩
    · exact h.1
  · rw [write_blocked]
    split
    · have hne : ‹String› ≠ C.iroh.toStr x := hinstr
      rw [Finset.mem_insert]
      rintro (heq | hmem)
      · exact hne heq.symm
      · exact h.2 hmem
    · exact h.2

theorem Welcome.step {s s' : State Id} {a : Act Id} {out : List (Out Id)} {x : Id}
    (h : Welcome C s.shared x) (hnot : ¬ LocksOut C x ⟨s, a, s', out⟩)
    (hs : Node.step C s a = some (s', out)) : Welcome C s'.shared x := by
  rcases step_shared hs with ⟨hsame, -⟩ |
    ⟨p, env, t, instr, rest, kind, n, rfl, hget, htodo, -, hshared, -⟩
  · rw [hsame]
    exact h
  · rw [hshared]
    refine h.write fun hinstr => hnot ⟨instr, ?_, hinstr⟩
    rw [doing_exec hget htodo]
    rfl

/-- A flow that pairs with a peer which is not blocked makes it welcome. -/
theorem welcome_of_pairs {s s' : State Id} {a : Act Id} {out : List (Out Id)} {x : Id}
    (hok : PairsUnblocked C s a) (hx : x ∈ pairedWith C s a)
    (hs : step C s a = some (s', out)) : Welcome C s'.shared x := by
  obtain ⟨hblocked, hdoing⟩ := hok x hx
  obtain ⟨p, env, t, rest, rfl, hget, htodo⟩ := exists_of_doing hdoing
  obtain ⟨kind, n, t', -, hshared, -⟩ := step_exec hs hget htodo
  rw [hshared]
  exact ⟨Finset.mem_insert_self x _, hblocked⟩

theorem welcome_run {store : StoreFile} {rotated : Bool} {io : Io} {d : Discoverability}
    {relay : Option String} {tr : List (Step Id)} {s : State Id}
    (hrun : Run (machine C) (PairsUnblocked C) (start C store rotated io d relay) tr s) {x : Id}
    (hsince : Since (PairsWith C x) (LocksOut C x) tr) : Welcome C s.shared x := by
  have hinv : ∀ x, Since (PairsWith C x) (LocksOut C x) tr → Welcome C s.shared x := by
    refine hrun.invariant (I := fun tr s =>
      ∀ x, Since (PairsWith C x) (LocksOut C x) tr → Welcome C s.shared x)
      (fun x h => absurd h Since.not_nil) ?_
    intro tr s s' a out h hok hs x hsince
    rcases Since.snoc_iff.mp hsince with hpairs | ⟨hbefore, hnot⟩
    · exact welcome_of_pairs hok hpairs hs
    · exact (h x hbefore).step hnot hs
  exact hinv x hsince

/-! ### The steps of an accepted connection -/

/-- What the task of a welcome peer's connection has to do after it took `k` steps. -/
def Accepting (conn : Conn Id) (kind : Kind Id) (todo : List (Instr Id)) : Nat → Prop
  | 0 => kind = .inbound conn ∧ todo = [.accept .hookBlocked]
  | 1 => kind = .inbound conn ∧ todo = [.accept .hookAccess]
  | 2 => kind = .inbound conn ∧ todo = [.accept .acceptWindow]
  | 3 => kind = .inbound conn ∧ ∃ opened window, todo = [.accept (.acceptAllowed opened window)]
  | _ => ∃ c, kind = .control c ∧ c.conn = conn ∧ c.peerIsPaired = true

/-- In its first four steps the task goes through the checks of the hook and of
`handle_connection`. -/
theorem Accepting.checks {conn : Conn Id} {kind : Kind Id} {todo : List (Instr Id)} {k : Nat}
    (h : Accepting conn kind todo k) (hk : k < 4) :
    kind = .inbound conn ∧ ∃ i, todo = [.accept i] := by
  match k, h with
  | 0, ⟨hkind, htodo⟩ => exact ⟨hkind, _, htodo⟩
  | 1, ⟨hkind, htodo⟩ => exact ⟨hkind, _, htodo⟩
  | 2, ⟨hkind, htodo⟩ => exact ⟨hkind, _, htodo⟩
  | 3, ⟨hkind, opened, window, htodo⟩ => exact ⟨hkind, _, htodo⟩
  | k + 4, _ => omega

theorem Accepting.served {conn : Conn Id} {kind : Kind Id} {todo : List (Instr Id)} {k : Nat}
    (h : Accepting conn kind todo k) (hk : 4 ≤ k) :
    ∃ c, kind = .control c ∧ c.conn = conn ∧ c.peerIsPaired = true := by
  match k, h with
  | k + 4, h => exact h

/-- Being stopped changes nothing for the task: it waits nowhere in the checks. -/
theorem Accepting.has {conn : Conn Id} {kind : Kind Id} {todo : List (Instr Id)} {k : Nat}
    (h : Accepting conn kind todo k) {t : Task Id} (hhas : t.Has kind todo) :
    Accepting conn t.kind t.todo k := by
  by_cases hk : k < 4
  · obtain ⟨-, i, rfl⟩ := h.checks hk
    rw [hhas.1, hhas.todo_eq rfl]
    exact h
  · obtain ⟨c, hkind, hc⟩ := h.served (by omega)
    obtain ⟨j, rfl⟩ : ∃ j, k = j + 4 := ⟨k - 4, by omega⟩
    exact ⟨c, hhas.1.trans hkind, hc⟩

theorem Accepting.exec {s : Shared Id} {conn : Conn Id} {kind kind' : Kind Id} {fresh k : Nat}
    {env : Env} {instr : Instr Id} {rest : List (Instr Id)} {n : Next Id}
    (hwelcome : Welcome C s conn.remote) (h : Accepting conn kind (instr :: rest) k)
    (hnext : next C s kind fresh env instr = some (kind', n)) :
    Accepting conn kind' (n.push ++ rest) (k + 1) ∧ (k < 4 → n.out = []) := by
  obtain ⟨hallowed, hblocked⟩ := hwelcome
  match k, h with
  | 0, ⟨hkind, htodo⟩ =>
    subst hkind
    obtain ⟨rfl, rfl⟩ := List.cons.inj htodo
    simp only [next, nextAccept, if_neg hblocked, Option.some.injEq, Prod.mk.injEq] at hnext
    obtain ⟨rfl, rfl⟩ := hnext
    exact ⟨⟨rfl, rfl⟩, fun _ => rfl⟩
  | 1, ⟨hkind, htodo⟩ =>
    subst hkind
    obtain ⟨rfl, rfl⟩ := List.cons.inj htodo
    have hpass : (s.pairingHostOpen || decide (conn.remote ∈ s.allowed)) = true := by
      rw [decide_eq_true hallowed, Bool.or_true]
    simp only [next, nextAccept, hpass, if_true, Option.some.injEq, Prod.mk.injEq] at hnext
    obtain ⟨rfl, rfl⟩ := hnext
    exact ⟨⟨rfl, rfl⟩, fun _ => rfl⟩
  | 2, ⟨hkind, htodo⟩ =>
    subst hkind
    obtain ⟨rfl, rfl⟩ := List.cons.inj htodo
    simp only [next, nextAccept, Option.some.injEq, Prod.mk.injEq] at hnext
    obtain ⟨rfl, rfl⟩ := hnext
    exact ⟨⟨rfl, _, _, rfl⟩, fun _ => rfl⟩
  | 3, ⟨hkind, opened, window, htodo⟩ =>
    subst hkind
    obtain ⟨rfl, rfl⟩ := List.cons.inj htodo
    simp only [next, nextAccept, if_pos hallowed, Option.some.injEq, Prod.mk.injEq] at hnext
    obtain ⟨rfl, rfl⟩ := hnext
    exact ⟨⟨_, rfl, rfl, rfl⟩, fun _ => rfl⟩
  | k + 4, ⟨c, hkind, hconn, hpaired⟩ =>
    subst hkind
    obtain ⟨c', rfl, hstep⟩ := next_kind hnext
    exact ⟨⟨c', rfl, hstep.conn.trans hconn, hstep.paired hpaired⟩, fun hk => absurd hk (by omega)⟩

theorem Accepting.step {s s' : State Id} {a : Act Id} {out : List (Out Id)} {conn : Conn Id}
    {p k : Nat} {t : Task Id} (hwelcome : Welcome C s.shared conn.remote)
    (hget : s.procs[p]? = some t) (h : Accepting conn t.kind t.todo k)
    (hs : Node.step C s a = some (s', out)) :
    ∃ t', s'.procs[p]? = some t' ∧
      Accepting conn t'.kind t'.todo (k + if a.actor = some p then 1 else 0) := by
  obtain ⟨t', kind, todo, hget', hcont, hhas⟩ := step_continues hs hget
  refine ⟨t', hget', ?_⟩
  -- in the checks the task waits for no message, sees no close and cannot be dropped
  have hserved : ∀ {i : Instr Id} {rest : List (Instr Id)}, t.todo = i :: rest →
      (∀ j, i ≠ .accept j) → 4 ≤ k := by
    intro i rest htodo hi
    by_contra hk
    obtain ⟨-, j, hj⟩ := h.checks (by omega)
    rw [htodo] at hj
    exact hi j (List.cons.inj hj).1
  have hlater : ∀ {c' : ControlSession Id}, 4 ≤ k → t'.kind = .control c' → c'.conn = conn →
      c'.peerIsPaired = true → Accepting conn t'.kind t'.todo (k + 1) := by
    intro c' hk hkind hconn hpaired
    obtain ⟨j, rfl⟩ : ∃ j, k = j + 4 := ⟨k - 4, by omega⟩
    exact ⟨c', hkind, hconn, hpaired⟩
  cases hcont with
  | kept hne =>
    rw [if_neg hne]
    exact h.has hhas
  | exec htodo hnext =>
    rw [htodo] at h
    rw [Act.actor, if_pos rfl]
    exact (h.exec hwelcome hnext).1.has hhas
  | recv hrecv =>
    have hk := hserved rfl (by simp)
    obtain ⟨c, rfl, hconn, hpaired⟩ := h.served hk
    rw [Act.actor, if_pos rfl]
    cases received_case hrecv with
    | control =>
      have hstep := sessionStep_receiveControl (C := C) c ‹ControlMessage›
      exact hlater hk hhas.1 (hstep.conn.trans hconn) (hstep.paired hpaired)
  | close hsees =>
    have hk := hserved rfl (by rintro j rfl; cases hsees)
    obtain ⟨c, rfl, hconn, hpaired⟩ := h.served hk
    rw [Act.actor, if_pos rfl]
    exact hlater hk hhas.1 hconn hpaired
  | drop =>
    cases step_case hs with
    | drop hget₁ hawaits =>
      rw [hget] at hget₁
      cases hget₁
      have hk := hserved rfl (by rintro j rfl; cases hawaits)
      obtain ⟨c, rfl, hconn, hpaired⟩ := h.served hk
      rw [Act.actor, if_pos rfl]
      exact hlater hk hhas.1 hconn hpaired
    | start hactor => cases hactor

/-- What is known of the task says that its connection is admitted. -/
theorem Accepting.admission {s : State Id} {conn : Conn Id} {p k : Nat} {t : Task Id}
    (hwelcome : Welcome C s.shared conn.remote) (hget : s.procs[p]? = some t)
    (h : Accepting conn t.kind t.todo k) : Admission C s p conn k := by
  constructor
  · intro hk env
    obtain ⟨hkind, i, htodo⟩ := h.checks hk
    rw [htodo] at h
    obtain ⟨kind', n, hnext⟩ : ∃ kind' n,
        next C s.shared t.kind s.procs.length env (.accept i) = some (kind', n) := by
      rw [hkind]
      exact ⟨_, _, rfl⟩
    have hout := (h.exec hwelcome hnext).2 hk
    simp only [Node.step, Node.exec, hget, htodo, hnext, hout]
    exact ⟨_, rfl⟩
  · intro hk
    obtain ⟨c, hkind, hconn, hpaired⟩ := h.served hk
    exact ⟨c, by rw [kindOf_eq hget, hkind], hconn, hpaired⟩

/-! ### Every connection of a paired peer -/

theorem not_locksOut_connect {x : Id} {e : Step Id} {conn : Conn Id} (h : e.act = .connect conn) :
    ¬ LocksOut C x e := by
  rintro ⟨instr, hinstr, -⟩
  rw [h] at hinstr
  cases hinstr

/-- In every run in which a pairing is with a peer that is not blocked, and with the one that is then
allowed, every connection that a peer makes while it is paired is admitted. -/
theorem paired_admitted (C : Config Id) (store : StoreFile) (rotated : Bool) (io : Io)
    (d : Discoverability) (relay : Option String) (tr : List (Step Id)) (s : State Id)
    (hrun : Run (machine C) (PairsUnblocked C) (start C store rotated io d relay) tr s) :
    AdmitsPaired C tr s := by
  have hwelcome : ∀ {tr : List (Step Id)} {s : State Id} {before after : List (Step Id)}
      {e : Step Id} {conn : Conn Id},
      Run (machine C) (PairsUnblocked C) (start C store rotated io d relay) tr s →
      tr = before ++ e :: after → e.act = .connect conn →
      Since (PairsWith C conn.remote) (LocksOut C conn.remote) before →
      (∀ e' ∈ after, ¬ LocksOut C conn.remote e') → Welcome C s.shared conn.remote := by
    rintro tr s before after e conn hrun rfl he hsince hafter
    refine welcome_run hrun (hsince.append fun e' he' => ?_)
    rcases List.mem_cons.mp he' with rfl | he'
    · exact not_locksOut_connect he
    · exact hafter e' he'
  have hinv : ∀ before e after conn, tr = before ++ e :: after → e.act = .connect conn →
      Since (PairsWith C conn.remote) (LocksOut C conn.remote) before →
      (∀ e' ∈ after, ¬ LocksOut C conn.remote e') →
      ∃ t, s.procs[e.pre.procs.length]? = some t ∧
        Accepting conn t.kind t.todo (stepsOf e.pre.procs.length after) := by
    refine hrun.invariant_of_run (I := fun tr s => ∀ before e after conn,
      tr = before ++ e :: after → e.act = .connect conn →
      Since (PairsWith C conn.remote) (LocksOut C conn.remote) before →
      (∀ e' ∈ after, ¬ LocksOut C conn.remote e') →
      ∃ t, s.procs[e.pre.procs.length]? = some t ∧
        Accepting conn t.kind t.todo (stepsOf e.pre.procs.length after)) ?_ ?_
    · intro before e after conn htr
      simp at htr
    · intro tr s s' a out hprev h hok hs before e after conn htr he hsince hafter
      rcases place_snoc htr with ⟨rfl, rfl, rfl⟩ | ⟨front, rfl, hbefore⟩
      · -- the connection is new
        obtain rfl : a = .connect conn := he
        obtain ⟨rfl, -⟩ := Prod.mk.inj (Option.some.inj hs)
        exact ⟨⟨.inbound conn, [.accept .hookBlocked], false⟩, by simp, rfl, rfl⟩
      · have hfront : ∀ e' ∈ front, ¬ LocksOut C conn.remote e' :=
          fun e' he' => hafter e' (by simp [he'])
        obtain ⟨t, hget, hacc⟩ := h before e front conn hbefore he hsince hfront
        have hstill := hwelcome hprev hbefore he hsince hfront
        obtain ⟨t', hget', hacc'⟩ := hacc.step hstill hget hs
        refine ⟨t', hget', ?_⟩
        simpa [stepsOf, List.countP_append, List.countP_singleton] using hacc'
  intro before e after conn htr he hsince hafter
  obtain ⟨t, hget, hacc⟩ := hinv before e after conn htr he hsince hafter
  exact hacc.admission (hwelcome hrun htr he hsince hafter) hget

/-! ### Bob is blocked, then paired with -/

def Instr.locksOut (C : Config Id) (x : Id) : Instr Id → Bool
  | .common (.disallow y _) => y = x
  | .service (.block e) => e = C.iroh.toStr x
  | _ => false

theorem locksOut_iff {x : Id} {instr : Instr Id} :
    instr.locksOut C x = true ↔ instr.LocksOut C x := by
  unfold Instr.locksOut Instr.LocksOut
  split <;> simp

instance (x : Id) (instr : Instr Id) : Decidable (instr.LocksOut C x) :=
  decidable_of_iff _ locksOut_iff

instance (x : Id) : DecidablePred (LocksOut C x) := fun e =>
  inferInstanceAs (Decidable (∃ instr ∈ (doing e.pre e.act).map (·.1), instr.LocksOut C x))

instance (x : Id) : DecidablePred (PairsWith C x) := fun _ =>
  inferInstanceAs (Decidable (_ ∈ _))

/-- Alice declines an invite of Bob and blocks him. Later she scans his pairing code, and he connects
to her as task 4. -/
def blockedThenJoined : List (Act Key) :=
  supervisor ++ .call (.declineNearbyInvite Key.bob.hex true) :: go 1 5 ++ joined 2 .bob 5 ++
    [.connect ⟨.bob, 8⟩]

/-- The connection is closed at the handshake. -/
theorem rejects_paired : ¬ ∀ tr s, Run (machine alice) anyStep (aliceStart .missing) tr s →
    AdmitsPaired alice tr s := by
  intro hclaim
  obtain ⟨tr, s, hrun, htest⟩ := Run.of_check (machine alice) anyStep (aliceStart .missing)
    blockedThenJoined (fun tr s =>
      (∃ e ∈ tr.getLast?, e.act = .connect ⟨.bob, 8⟩ ∧ e.pre.procs.length = 4) ∧
      Since (PairsWith alice .bob) (LocksOut alice .bob) tr.dropLast ∧
      (step alice s (.exec 4 quiet)).map (·.2) =
        some [.closed ⟨.bob, 8⟩ 403 "blocked peer"]) (by decide +kernel)
  obtain ⟨⟨e, he, hact, hlength⟩, hsince, hclosed⟩ := of_decide_eq_true htest
  have hadmits := hclaim tr s hrun tr.dropLast e [] ⟨.bob, 8⟩
    (List.dropLast_append_getLast? e he).symm hact hsince (by simp)
  rw [hlength] at hadmits
  obtain ⟨s', hs'⟩ := hadmits.passes (by decide) quiet
  rw [hs'] at hclosed
  cases hclosed

/-- Bob is not blocked, Alice scans his pairing code, and he connects. -/
def joinedThenConnected : List (Act Key) :=
  supervisor ++ joined 1 .bob 5 ++ .connect ⟨.bob, 8⟩ :: go 3 4

/-- The theorem applies to a run in which a peer connects after it was paired. -/
theorem paired_admitted_joined :
    ∃ tr s, Run (machine alice) (PairsUnblocked alice) (aliceStart .missing) tr s ∧
      (∃ e ∈ tr, PairsWith alice .bob e) ∧ (∃ e ∈ tr, e.act = .connect ⟨.bob, 8⟩) ∧
      kindOf s 3 = some (.control ⟨⟨.bob, 8⟩, true, false⟩) ∧ AdmitsPaired alice tr s := by
  obtain ⟨tr, s, hrun, htest⟩ := Run.of_check (machine alice) (PairsUnblocked alice)
    (aliceStart .missing) joinedThenConnected (fun tr s =>
      (∃ e ∈ tr, PairsWith alice .bob e) ∧ (∃ e ∈ tr, e.act = .connect ⟨.bob, 8⟩) ∧
        kindOf s 3 = some (.control ⟨⟨.bob, 8⟩, true, false⟩)) (by decide +kernel)
  obtain ⟨hpairs, hconnects, hserved⟩ := of_decide_eq_true htest
  exact ⟨tr, s, hrun, hpairs, hconnects, hserved,
    paired_admitted alice .missing false ⟨true, true⟩ .everyone none tr s hrun⟩

end DashBeam.Node

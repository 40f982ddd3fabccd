import DashBeam.Native.RateBound
import DashBeam.Node.Alice
import DashBeam.Node.Steps

/-!
# Unpaired control sessions

What a control session can do while its `peer_is_paired` is false. Its next critical sections are
always among a few (`Permitted`), by what happened since it read its last message: before a token
was charged it can only charge one, look at the allowlist again or hang up; what stores and
allowlists a peer comes only after an accepted response took a pending invite.

So the session changes the trust state only through such an acceptance, whatever it answers or
surfaces was charged, and a message outside the reduced set ends it without a trace
(`unpaired_session_frame`).
-/

namespace DashBeam.Node

open Protocol Native Lib

set_option linter.unusedSectionVars false

variable {Id : Type} [DecidableEq Id] {C : Config Id}

/-- The task is a control session that counts its peer as unpaired. -/
def Unpaired (s : State Id) (p : Nat) (conn : Conn Id) : Prop :=
  ∃ registered, kindOf s p = some (.control ⟨conn, false, registered⟩)

/-- The task reads a message. -/
def Reads (p : Nat) (e : Step Id) : Prop := ∃ msg, e.act = .recv p msg

/-- An unpaired session reads a message outside the reduced set. -/
def ReadsRefused (p : Nat) (conn : Conn Id) (e : Step Id) : Prop :=
  ∃ msg, e.act = .recv p msg ∧ Unpaired e.pre p conn ∧ unpairedMessageAllowed msg = false

/-- The session finds its remote on the allowlist when it looks again. -/
def Upgrades (p : Nat) (conn : Conn Id) (e : Step Id) : Prop :=
  ∃ env msg, e.act = .exec p env ∧ nextInstr e.pre p = some (.control (.recheckAllowed msg)) ∧
    conn.remote ∈ e.pre.shared.allowed

/-- The session is let through by the limiter, which takes a token of its remote's bucket. -/
def Charges (C : Config Id) (p : Nat) (conn : Conn Id) (e : Step Id) : Prop :=
  ∃ env msg, e.act = .exec p env ∧ nextInstr e.pre p = some (.control (.chargeToken msg)) ∧
    (e.pre.shared.unpairedLimiter.allow C.iroh (C.iroh.toStr conn.remote) env.instant).1 = true ∧
    UnpairedRateLimiter.TakesToken C.iroh e.pre.shared.unpairedLimiter
      e.post.shared.unpairedLimiter (C.iroh.toStr conn.remote) env.instant

/-- The session takes the pending invite to its remote for an accepted response. -/
def ConsumesInvite (C : Config Id) (p : Nat) (conn : Conn Id) (e : Step Id) : Prop :=
  ∃ env, e.act = .exec p env ∧ nextInstr e.pre p = some (.control (.takePending .accepted)) ∧
    (e.pre.shared.pendingNearbyInvites (C.iroh.toStr conn.remote)).isSome = true

/-- The paired store, the allowlist, presence and the session map are the same. -/
def SameTrust (a b : Shared Id) : Prop :=
  a.pairedStore = b.pairedStore ∧ a.allowed = b.allowed ∧ a.presence = b.presence ∧
    a.sessions = b.sessions

/-- The session answered its peer or surfaced something to the app. -/
def Out.answersOrSurfaces : Out Id → Bool
  | .event _ | .sent .. => true
  | _ => false

/-- What an unpaired session does over a run. -/
structure UnpairedFrame (C : Config Id) (tr : List (Step Id)) : Prop where
  /-- It changes the trust state only by an acceptance that took a pending invite to its remote. -/
  trust : Each (fun past e => ∀ p conn, e.act.actor = some p → Unpaired e.pre p conn →
    ¬ SameTrust e.pre.shared e.post.shared → Since (ConsumesInvite C p conn) (Reads p) past) tr
  /-- What it answers or surfaces was charged to its remote, since the message was read. -/
  charged : Each (fun past e => ∀ p conn, e.act.actor = some p → Unpaired e.pre p conn →
    (∃ o ∈ e.out, o.answersOrSurfaces = true) → Since (Charges C p conn) (Reads p) past) tr
  /-- After a message outside the reduced set, unless its remote is found on the allowlist, it
  changes nothing, reads nothing more and only closes the connection. -/
  refused : Each (fun past e => ∀ p conn, e.act.actor = some p →
    Since (ReadsRefused p conn) (Upgrades p conn) past → ¬ Upgrades p conn e →
    e.post.shared = e.pre.shared ∧ ¬ Reads p e ∧
      ∀ o ∈ e.out, o = .closed conn 403 "not permitted for unpaired peer") tr

/-! ### The critical sections of an unpaired session -/

/-- What an unpaired session may have to do, by whether a token was charged and an invite taken
since it read its last message. -/
def Permitted (charged consumed : Prop) : Instr Id → Prop
  | .common .read | .control (.hangUp ..) => True
  | .control (.chargeToken msg) => unpairedMessageAllowed msg = true
  | .control (.recheckAllowed msg) => unpairedMessageAllowed msg = false
  | .control .answerIdentity | .control (.takePending _) | .common (.emit _)
  | .common (.emitInviteResponse ..) => charged
  | .control (.commitNearby _) | .control .emitPairedName
  | .common (.remember (.commitNearby _) _) | .common (.expireNearby _) | .common (.allow _)
  | .common .refreshList | .common (.refreshTasks _) => charged ∧ consumed
  | _ => False

theorem Permitted.mono {a b a' b' : Prop} (ha : a → a') (hb : b → b') {instr : Instr Id}
    (h : Permitted a b instr) : Permitted a' b' instr := by
  unfold Permitted at h ⊢
  split at h
  all_goals first
    | exact h
    | exact ha h
    | exact ⟨ha h.1, hb h.2⟩

/-- A message of the reduced set, once it was charged. -/
theorem permitted_dispatch {c : ControlSession Id} {msg : ControlMessage} (consumed : Prop)
    (hc : c.peerIsPaired = false) (hmsg : unpairedMessageAllowed msg = true) :
    (dispatch C c msg).1 = c ∧ ∀ j ∈ (dispatch C c msg).2, Permitted True consumed j := by
  cases msg <;>
    simp [unpairedMessageAllowed, dispatch, handlePairedControlMessage, hc, Permitted] at hmsg ⊢

/-- One critical section of an unpaired session: it goes on with permitted ones, or it has found its
remote on the allowlist. -/
theorem next_permitted {s : Shared Id} {c : ControlSession Id} {fresh : Nat} {env : Env}
    {instr : Instr Id} {kind' : Kind Id} {n : Next Id} {charged consumed : Prop} (hc : c.peerIsPaired = false)
    (hreg : c.registered = false) (hi : Permitted charged consumed instr)
    (hnext : next C s (.control c) fresh env instr = some (kind', n)) :
    (kind' = .control c ∧ ∀ j ∈ n.push, Permitted
      (charged ∨ (∃ msg, instr = .control (.chargeToken msg)) ∧
        (s.unpairedLimiter.allow C.iroh (C.iroh.toStr c.conn.remote) env.instant).1 = true)
      (consumed ∨ instr = .control (.takePending .accepted) ∧
        (s.pendingNearbyInvites (C.iroh.toStr c.conn.remote)).isSome = true) j) ∨
    (∃ msg c', instr = .control (.recheckAllowed msg) ∧ c.conn.remote ∈ s.allowed ∧
      kind' = .control c' ∧ c'.peerIsPaired = true) := by
  unfold Permitted at hi
  split at hi
  case h_1 => cases hnext
  case h_2 =>
    obtain ⟨rfl, rfl⟩ := Prod.mk.inj (Option.some.inj hnext)
    exact .inl ⟨rfl, by simp [nextControl, leaveSession, hreg]⟩
  case h_3 msg =>
    obtain ⟨rfl, rfl⟩ := Prod.mk.inj (Option.some.inj hnext)
    simp only [nextControl]
    split
    · rename_i hallow
      obtain ⟨hsame, hpush⟩ := permitted_dispatch (C := C) consumed hc hi
      refine .inl ⟨by rw [hsame], fun j hj => ?_⟩
      exact (hpush j hj).mono (fun _ => .inr ⟨⟨msg, rfl⟩, hallow⟩) .inl
    · exact .inl ⟨rfl, by simp [Permitted]⟩
  case h_4 msg =>
    obtain ⟨rfl, rfl⟩ := Prod.mk.inj (Option.some.inj hnext)
    simp only [nextControl]
    split
    · rename_i hmem
      refine .inr ⟨msg, _, rfl, hmem, rfl, ?_⟩
      rw [(dispatch_session _ msg).2.1]
    · exact .inl ⟨rfl, by simp [Permitted]⟩
  case h_5 =>
    obtain ⟨rfl, rfl⟩ := Prod.mk.inj (Option.some.inj hnext)
    simp only [nextControl, hc]
    split
    · exact .inl ⟨rfl, by simp [Permitted]⟩
    · exact .inl ⟨rfl, by simp [Permitted]⟩
  case h_6 response =>
    obtain ⟨rfl, rfl⟩ := Prod.mk.inj (Option.some.inj hnext)
    simp only [nextControl]
    split
    · exact .inl ⟨rfl, by simp⟩
    · rename_i pending hpending
      refine .inl ⟨rfl, fun j hj => ?_⟩
      rw [List.mem_append, List.mem_singleton] at hj
      rcases hj with hj | rfl
      · split at hj
        · rename_i hresponse
          rw [List.mem_singleton] at hj
          subst hj hresponse
          exact ⟨.inl hi, .inr ⟨rfl, by rw [hpending]; rfl⟩⟩
        · simp at hj
      · exact .inl hi
  case h_7 | h_8 | h_10 | h_12 | h_13 | h_15 =>
    obtain ⟨rfl, rfl⟩ := Prod.mk.inj (Option.some.inj hnext)
    exact .inl ⟨rfl, by simp [nextControl, nextCommon]⟩
  case h_9 =>
    obtain ⟨rfl, rfl⟩ := Prod.mk.inj (Option.some.inj hnext)
    refine .inl ⟨rfl, fun j hj => ?_⟩
    rw [nextControl, List.mem_singleton] at hj
    subst hj
    exact ⟨.inl hi.1, .inl hi.2⟩
  case h_11 =>
    obtain ⟨rfl, rfl⟩ := Prod.mk.inj (Option.some.inj hnext)
    refine .inl ⟨rfl, fun j hj => ?_⟩
    simp only [nextCommon, afterRemember] at hj
    split at hj
    · have hall : Permitted charged consumed j := by
        simp only [List.mem_cons, List.not_mem_nil, or_false] at hj
        rcases hj with rfl | rfl | rfl | rfl <;> exact hi
      exact hall.mono .inl .inl
    · simp at hj
  case h_14 =>
    obtain ⟨rfl, rfl⟩ := Prod.mk.inj (Option.some.inj hnext)
    refine .inl ⟨rfl, fun j hj => ?_⟩
    simp only [nextCommon] at hj
    split at hj
    · rw [List.mem_singleton] at hj
      subst hj
      exact ⟨.inl hi.1, .inl hi.2⟩
    · simp at hj
  case h_16 => exact hi.elim

/-- What an unpaired session writes to the trust state comes after an acceptance. -/
theorem write_permitted {s : Shared Id} {c : ControlSession Id} {fresh : Nat} {env : Env}
    {instr : Instr Id} {charged consumed : Prop} (hi : Permitted charged consumed instr) :
    SameTrust s (write C s (.control c) fresh env instr) ∨ consumed := by
  unfold Permitted at hi
  split at hi
  case h_11 | h_13 => exact .inr hi.2
  case h_16 => exact hi.elim
  all_goals exact .inl ⟨rfl, rfl, rfl, rfl⟩

theorem out_permitted {s : Shared Id} {c : ControlSession Id} {fresh : Nat} {env : Env}
    {instr : Instr Id} {kind' : Kind Id} {n : Next Id} {charged consumed : Prop}
    (hi : Permitted charged consumed instr)
    (hnext : next C s (.control c) fresh env instr = some (kind', n)) {o : Out Id} (ho : o ∈ n.out)
    (hshown : o.answersOrSurfaces = true) : charged := by
  unfold Permitted at hi
  split at hi
  case h_1 => cases hnext
  case h_2 =>
    obtain ⟨rfl, rfl⟩ := Prod.mk.inj (Option.some.inj hnext)
    rw [nextControl, List.mem_singleton] at ho
    subst ho
    cases hshown
  case h_3 | h_4 =>
    obtain ⟨rfl, rfl⟩ := Prod.mk.inj (Option.some.inj hnext)
    simp only [nextControl] at ho
    split at ho <;> simp at ho
  case h_5 | h_6 | h_7 | h_8 => exact hi
  case h_16 => exact hi.elim
  all_goals exact hi.1

/-! ### The invariant -/

/-- What holds of a task: an accepted connection is only looked at, a session registers only a
paired peer, and an unpaired session has only permitted things to do. -/
def SessionOk (C : Config Id) (tr : List (Step Id)) (p : Nat) (kind : Kind Id)
    (todo : List (Instr Id)) : Prop :=
  match kind with
  | .inbound _ => todo = [] ∨ ∃ instr, todo = [.accept instr]
  | .control c => (c.registered = true → c.peerIsPaired = true) ∧
    (c.peerIsPaired = false → ∀ i ∈ todo, Permitted (Since (Charges C p c.conn) (Reads p) tr)
      (Since (ConsumesInvite C p c.conn) (Reads p) tr) i)
  | _ => True

theorem SessionOk.has {tr : List (Step Id)} {p : Nat} {kind : Kind Id} {todo : List (Instr Id)}
    {t : Task Id} (h : SessionOk C tr p kind todo) (hhas : t.Has kind todo) :
    SessionOk C tr p t.kind t.todo := by
  obtain ⟨rfl, htodo | ⟨htodo, -⟩⟩ := hhas
  · rw [htodo]
    exact h
  · rw [htodo]
    unfold SessionOk at h ⊢
    split at h
    · exact .inl rfl
    · exact ⟨h.1, fun _ i hi => by simp at hi⟩
    · trivial

theorem SessionOk.keep {tr : List (Step Id)} {p : Nat} {kind : Kind Id} {todo : List (Instr Id)}
    {e : Step Id} (h : SessionOk C tr p kind todo) (he : ¬ Reads p e) :
    SessionOk C (tr ++ [e]) p kind todo := by
  unfold SessionOk at h ⊢
  split at h
  · exact h
  · exact ⟨h.1, fun hc i hi => (h.2 hc i hi).mono (·.snoc_keep he) (·.snoc_keep he)⟩
  · trivial

theorem sessionOk_accept (tr : List (Step Id)) (p : Nat) (s : Shared Id) (conn : Conn Id)
    (env : Env) (instr : AcceptInstr) :
    SessionOk C tr p (nextAccept C s conn env instr).1 (nextAccept C s conn env instr).2.push := by
  cases instr with
  | hookBlocked =>
    simp only [nextAccept]
    split
    · exact .inl rfl
    · exact .inr ⟨_, rfl⟩
  | hookAccess =>
    simp only [nextAccept]
    split
    · exact .inr ⟨_, rfl⟩
    · split
      · exact .inr ⟨_, rfl⟩
      · exact .inl rfl
  | hookDirectPath =>
    simp only [nextAccept]
    split
    · exact .inr ⟨_, rfl⟩
    · exact .inl rfl
  | acceptWindow => exact .inr ⟨_, rfl⟩
  | acceptAllowed pairingHostOpen window =>
    simp only [nextAccept]
    split
    · exact ⟨fun h => (by cases h), fun h => (by cases h)⟩
    · split
      · refine ⟨fun h => (by cases h), fun _ i hi => ?_⟩
        rw [List.mem_singleton] at hi
        subst hi
        trivial
      · trivial

theorem sessionOk_exec {tr : List (Step Id)} {p : Nat} {s s' : State Id} {t : Task Id} {env : Env}
    {instr : Instr Id} {rest : List (Instr Id)} {kind : Kind Id} {n : Next Id}
    {out : List (Out Id)} (h : SessionOk C tr p t.kind t.todo) (hget : s.procs[p]? = some t)
    (htodo : t.todo = instr :: rest)
    (hnext : next C s.shared t.kind s.procs.length env instr = some (kind, n))
    (hwrite : s'.shared = write C s.shared t.kind s.procs.length env instr) :
    SessionOk C (tr ++ [⟨s, .exec p env, s', out⟩]) p kind (n.push ++ rest) := by
  have hinstr := nextInstr_eq hget htodo
  have hreads : ¬ Reads p (⟨s, .exec p env, s', out⟩ : Step Id) := by
    rintro ⟨msg, hmsg⟩
    cases hmsg
  have hk := next_kind hnext
  rw [htodo] at h
  cases hkind : t.kind with
  | inbound conn =>
    rw [hkind] at h hnext
    obtain hnil | ⟨i, hone⟩ := h
    · cases hnil
    · obtain ⟨rfl, rfl⟩ := List.cons.inj hone
      cases next_case hnext with
      | accept hc =>
        cases hc
        rw [List.append_nil]
        exact sessionOk_accept _ _ _ _ _ _
  | control c =>
    rw [hkind] at h hk hnext hwrite
    obtain ⟨c', rfl, hstep⟩ := hk
    refine ⟨fun hreg => ?_, fun hunpaired i hi => ?_⟩
    · rcases hstep.registered hreg with hreg | hpaired
      · exact hstep.paired (h.1 hreg)
      · exact hpaired
    · have hc := hstep.unpaired hunpaired
      have hcreg : c.registered = false := by
        by_contra hr
        rw [h.1 (by simpa using hr)] at hc
        cases hc
      have hperm := h.2 hc
      rw [hstep.conn]
      rcases List.mem_append.mp hi with hi | hi
      · rcases next_permitted hc hcreg (hperm instr (by simp)) hnext with
          ⟨-, hpush⟩ | ⟨msg, c'', -, -, hc', hpaired⟩
        · refine (hpush i hi).mono ?_ ?_
          · rintro (hcharged | ⟨⟨msg, rfl⟩, hallow⟩)
            · exact hcharged.snoc_keep hreads
            · refine Since.snoc_now ⟨env, msg, rfl, hinstr, hallow, ?_⟩
              have htaken := UnpairedRateLimiter.allow_takesToken C.iroh s.shared.unpairedLimiter
                (C.iroh.toStr c.conn.remote) env.instant hallow
              rwa [show s'.shared.unpairedLimiter = _ from
                congrArg Shared.unpairedLimiter hwrite]
          · rintro (hconsumed | ⟨rfl, hpending⟩)
            · exact hconsumed.snoc_keep hreads
            · exact Since.snoc_now ⟨env, rfl, hinstr, hpending⟩
        · obtain rfl := Kind.control.inj hc'
          rw [hpaired] at hunpaired
          cases hunpaired
      · exact (hperm i (by simp [hi])).mono (·.snoc_keep hreads) (·.snoc_keep hreads)
  | connect c =>
    rw [hkind] at hk
    obtain ⟨l', rfl, -⟩ := hk
    trivial
  | host c | call c | expiry | lan | background =>
    rw [hkind] at hk
    cases hk
    trivial

theorem sessionOk_recv {tr : List (Step Id)} {p : Nat} {kind kind' : Kind Id}
    {rest todo : List (Instr Id)} {msg : ControlMessage} {e : Step Id}
    (h : SessionOk C tr p kind rest) (hrecv : received C kind msg = some (kind', todo)) :
    SessionOk C (tr ++ [e]) p kind' todo := by
  cases received_case hrecv with
  | control c =>
    have hstep := sessionStep_receiveControl (C := C) c msg
    refine ⟨fun hreg => ?_, fun hunpaired i hi => ?_⟩
    · rcases hstep.registered hreg with hreg | hpaired
      · exact hstep.paired (h.1 hreg)
      · exact hpaired
    · have hc := hstep.unpaired hunpaired
      simp only [receiveControl, hc, Bool.false_eq_true, if_false] at hi
      split at hi
      · rename_i hmsg
        rw [List.mem_singleton] at hi
        subst hi
        exact hmsg
      · rename_i hmsg
        rw [List.mem_singleton] at hi
        subst hi
        rw [Bool.not_eq_true] at hmsg
        exact hmsg
  | host | connect => trivial

theorem sessionOk_step {tr : List (Step Id)} {s s' : State Id} {a : Act Id} {out : List (Out Id)}
    (h : ∀ (p : Nat) (t : Task Id), s.procs[p]? = some t → SessionOk C tr p t.kind t.todo)
    (hs : step C s a = some (s', out)) (p : Nat) (t : Task Id) (ht : s'.procs[p]? = some t) :
    SessionOk C (tr ++ [⟨s, a, s', out⟩]) p t.kind t.todo := by
  obtain ⟨kind, todo, horigin, hhas⟩ := step_origin hs ht
  refine SessionOk.has ?_ hhas
  cases horigin with
  | kept hne hget =>
    refine (h p _ hget).keep ?_
    rintro ⟨msg, hmsg⟩
    exact hne (congrArg Act.actor hmsg)
  | exec hget htodo hnext =>
    exact sessionOk_exec (h p _ hget) hget htodo hnext (shared_exec hs hget htodo)
  | recv hget hrecv => exact sessionOk_recv (h p _ hget) hrecv
  | @close reason kind instr rest aborted hget hsees =>
    have hok := h p _ hget
    cases kind with
    | control c =>
      refine ⟨hok.1, fun hc i hi => ?_⟩
      have hcreg : c.registered = false := by
        by_contra hr
        rw [hok.1 (by simpa using hr)] at hc
        cases hc
      simp [closedTodo, leaveSession, hcreg] at hi
    | inbound => exact .inl rfl
    | host | connect | call | expiry | lan | background => trivial
  | @drop kind instr rest hget =>
    have hok := h p _ hget
    cases kind with
    | control c => exact ⟨hok.1, fun hc i hi => by simp at hi⟩
    | inbound => exact .inl rfl
    | host | connect | call | expiry | lan | background => trivial
  | spawned hget hnext hmem hnew =>
    cases next_spawn hnext hmem <;> trivial
  | @started a t hactor hstart hnew =>
    cases started_case hstart with
    | connect conn => exact .inr ⟨_, rfl⟩
    | call | appeared | vanished => trivial

/-- What is left of a session that read a message outside the reduced set. -/
def Refused (t : Task Id) (conn : Conn Id) : Prop :=
  t.kind = .control ⟨conn, false, false⟩ ∧
    (t.todo = [] ∨ (∃ msg, t.todo = [.control (.recheckAllowed msg)]) ∨
      t.todo = [.control (.hangUp 403 "not permitted for unpaired peer")])

theorem Refused.has {t t' : Task Id} {conn : Conn Id} (h : Refused t conn)
    (hhas : t'.Has t.kind t.todo) : Refused t' conn := by
  obtain ⟨hkind, htodo⟩ := hhas
  refine ⟨hkind.trans h.1, ?_⟩
  rcases htodo with htodo | ⟨htodo, -⟩
  · rw [htodo]
    exact h.2
  · exact .inl htodo

/-- A step of such a session: it looks at the allowlist, or closes the connection. -/
theorem refused_exec {s : Shared Id} {t : Task Id} {conn : Conn Id} {fresh : Nat} {env : Env}
    {instr : Instr Id} {rest : List (Instr Id)} {kind : Kind Id} {n : Next Id}
    (h : Refused t conn) (htodo : t.todo = instr :: rest)
    (hnext : next C s t.kind fresh env instr = some (kind, n))
    (hupgrade : ∀ msg, instr = .control (.recheckAllowed msg) → conn.remote ∉ s.allowed) :
    Refused ⟨kind, n.push ++ rest, t.aborted⟩ conn ∧ write C s t.kind fresh env instr = s ∧
      ∀ o ∈ n.out, o = .closed conn 403 "not permitted for unpaired peer" := by
  obtain ⟨hkind, hnil | ⟨msg, hone⟩ | hone⟩ := h
  · rw [hnil] at htodo
    cases htodo
  · rw [hone] at htodo
    obtain ⟨rfl, rfl⟩ := List.cons.inj htodo
    rw [hkind] at hnext ⊢
    obtain ⟨rfl, rfl⟩ := Prod.mk.inj (Option.some.inj hnext)
    simp only [nextControl, if_neg (hupgrade msg rfl)]
    exact ⟨⟨rfl, .inr (.inr rfl)⟩, rfl, by simp⟩
  · rw [hone] at htodo
    obtain ⟨rfl, rfl⟩ := List.cons.inj htodo
    rw [hkind] at hnext ⊢
    obtain ⟨rfl, rfl⟩ := Prod.mk.inj (Option.some.inj hnext)
    exact ⟨⟨rfl, .inl rfl⟩, rfl, by simp [nextControl]⟩

/-- What holds along a run: every task is as it should be, and a refused session is on its way
out. -/
structure UnpairedInv (C : Config Id) (tr : List (Step Id)) (s : State Id) : Prop where
  session : ∀ (p : Nat) (t : Task Id), s.procs[p]? = some t → SessionOk C tr p t.kind t.todo
  refused : ∀ (p : Nat) (conn : Conn Id), Since (ReadsRefused p conn) (Upgrades p conn) tr →
    ∃ t, s.procs[p]? = some t ∧ Refused t conn

theorem UnpairedInv.step {tr : List (Step Id)} {s s' : State Id} {a : Act Id}
    {out : List (Out Id)} (h : UnpairedInv C tr s) (hs : Node.step C s a = some (s', out)) :
    UnpairedInv C (tr ++ [⟨s, a, s', out⟩]) s' := by
  refine ⟨sessionOk_step h.session hs, fun p conn hsince => ?_⟩
  rcases Since.snoc_iff.mp hsince with ⟨msg, hact, ⟨registered, hkind⟩, hmsg⟩ | ⟨hbefore, hno⟩
  · -- the message was read just now
    obtain ⟨t, hget, hcontrol⟩ := Option.map_eq_some_iff.mp hkind
    obtain ⟨t', kind, todo, hget', hcont, hhas⟩ := step_continues hs hget
    refine ⟨t', hget', ?_⟩
    cases hcont with
    | kept hne => exact absurd (congrArg Act.actor hact) hne
    | @recv msg' kind₀ kind' rest todo aborted hrecv =>
      obtain rfl : kind₀ = _ := hcontrol
      obtain rfl : msg' = msg := (Act.recv.inj hact).2
      have hreg : registered = false := by
        by_contra hr
        cases (h.session p _ hget).1 (by simpa using hr)
      subst hreg
      have hrefused : Refused ⟨kind, todo, aborted⟩ conn := by
        cases received_case hrecv with
        | control c =>
          simp only [receiveControl, hmsg, Bool.false_eq_true, if_false]
          exact ⟨rfl, .inr (.inl ⟨msg', rfl⟩)⟩
      exact hrefused.has hhas
    | exec | close | drop => cases hact
  · obtain ⟨t, hget, hrefused⟩ := h.refused p conn hbefore
    obtain ⟨t', kind, todo, hget', hcont, hhas⟩ := step_continues hs hget
    refine ⟨t', hget', ?_⟩
    cases hcont with
    | kept => exact hrefused.has hhas
    | @exec env _ instr rest kind n htodo hnext =>
      have hupgrade : ∀ msg, instr = .control (.recheckAllowed msg) →
          conn.remote ∉ s.shared.allowed := by
        rintro msg rfl hmem
        exact hno ⟨env, msg, rfl, nextInstr_eq hget htodo, hmem⟩
      exact (refused_exec hrefused htodo hnext hupgrade).1.has hhas
    | recv =>
      obtain ⟨-, hnil | ⟨m, hone⟩ | hone⟩ := hrefused
      · cases hnil
      · cases hone
      · cases hone
    | close hsees =>
      obtain ⟨-, hnil | ⟨m, hone⟩ | hone⟩ := hrefused
      · cases hnil
      · cases hone
        cases hsees
      · cases hone
        cases hsees
    | drop =>
      refine ⟨hhas.1.trans hrefused.1, .inl ?_⟩
      rcases hhas.2 with htodo | htodo
      · exact htodo
      · exact htodo.1

/-- A step of a session that reads nothing is a critical section, or is silent. -/
theorem exec_of_effect {s s' : State Id} {a : Act Id} {out : List (Out Id)} {p : Nat}
    (hs : step C s a = some (s', out)) (hactor : a.actor = some p)
    (heffect : s'.shared ≠ s.shared ∨ out ≠ []) :
    ∃ env t instr rest kind n, a = .exec p env ∧ s.procs[p]? = some t ∧ t.todo = instr :: rest ∧
      next C s.shared t.kind s.procs.length env instr = some (kind, n) ∧
      s'.shared = write C s.shared t.kind s.procs.length env instr ∧ out = n.out := by
  rcases step_shared hs with ⟨hsame, hnil⟩ | ⟨pid, env, t, instr, rest, kind, n, rfl, h⟩
  · rcases heffect with heffect | heffect
    · exact absurd hsame heffect
    · exact absurd hnil heffect
  · obtain rfl := Option.some.inj hactor
    exact ⟨env, t, instr, rest, kind, n, rfl, h⟩

theorem UnpairedInv.permitted {tr : List (Step Id)} {s : State Id} (h : UnpairedInv C tr s)
    {p : Nat} {conn : Conn Id} {t : Task Id} {instr : Instr Id} {rest : List (Instr Id)}
    (hunpaired : Unpaired s p conn) (hget : s.procs[p]? = some t) (htodo : t.todo = instr :: rest) :
    ∃ c, t.kind = .control c ∧ c.conn = conn ∧ Permitted (Since (Charges C p conn) (Reads p) tr)
      (Since (ConsumesInvite C p conn) (Reads p) tr) instr := by
  obtain ⟨registered, hkind⟩ := hunpaired
  rw [kindOf_eq hget] at hkind
  have hkind := Option.some.inj hkind
  have hok := h.session p t hget
  rw [hkind] at hok
  exact ⟨_, hkind, rfl, hok.2 rfl instr (by rw [htodo]; simp)⟩

theorem unpairedInv_start (store : StoreFile) (rotated : Bool) (io : Io) (d : Discoverability)
    (relay : Option String) : UnpairedInv C [] (start C store rotated io d relay) := by
  refine ⟨fun p t ht => ?_, fun p conn h => absurd h Since.not_nil⟩
  obtain rfl := eq_of_start ht
  trivial

theorem unpairedInv_run {ok : State Id → Act Id → Prop} {store : StoreFile} {rotated : Bool}
    {io : Io} {d : Discoverability} {relay : Option String} {tr : List (Step Id)} {s : State Id}
    (hrun : Run (machine C) ok (start C store rotated io d relay) tr s) : UnpairedInv C tr s :=
  hrun.invariant (unpairedInv_start store rotated io d relay) (fun h _ hs => h.step hs)

/-- In every run of a node, whatever messages arrive and whatever else the node does: an unpaired
control session changes the trust state only through an acceptance that takes a pending invite to
its remote, is charged for everything it answers or surfaces, and ends without a trace at the first
message outside the reduced set. -/
theorem unpaired_session_frame (C : Config Id) (store : StoreFile) (rotated : Bool) (io : Io)
    (d : Discoverability) (relay : Option String) (tr : List (Step Id)) (s : State Id)
    (hrun : Run (machine C) anyStep (start C store rotated io d relay) tr s) :
    UnpairedFrame C tr := by
  refine hrun.invariant_of_run (I := fun tr _ => UnpairedFrame C tr) ⟨.nil, .nil, .nil⟩ ?_
  rintro tr s s' a out hprev hframe - (hs : step C s a = some (s', out))
  have h := unpairedInv_run hprev
  refine ⟨hframe.trust.snoc ?_, hframe.charged.snoc ?_, hframe.refused.snoc ?_⟩
  · intro p conn hactor hunpaired htrust
    have hchanged : s'.shared ≠ s.shared := by
      intro heq
      exact htrust (by rw [heq]; exact ⟨rfl, rfl, rfl, rfl⟩)
    obtain ⟨env, t, instr, rest, kind, n, rfl, hget, htodo, -, hwrite, -⟩ :=
      exec_of_effect hs hactor (.inl hchanged)
    obtain ⟨c, hkind, -, hperm⟩ := h.permitted hunpaired hget htodo
    rcases write_permitted hperm with hsame | hconsumed
    · rw [hkind] at hwrite
      rw [hwrite] at htrust
      exact absurd hsame htrust
    · exact hconsumed
  · rintro p conn hactor hunpaired ⟨o, ho, hshown⟩
    have hout : out ≠ [] := List.ne_nil_of_mem ho
    obtain ⟨env, t, instr, rest, kind, n, rfl, hget, htodo, hnext, -, rfl⟩ :=
      exec_of_effect hs hactor (.inr hout)
    obtain ⟨c, hkind, -, hperm⟩ := h.permitted hunpaired hget htodo
    rw [hkind] at hnext
    exact out_permitted hperm hnext ho hshown
  · intro p conn hactor hsince hno
    obtain ⟨t, hget, hrefused⟩ := h.refused p conn hsince
    have hreads : ¬ Reads p (⟨s, a, s', out⟩ : Step Id) := by
      rintro ⟨msg, rfl⟩
      cases step_case hs with
      | recv hget₀ =>
        rw [hget] at hget₀
        obtain rfl := Option.some.inj hget₀
        obtain ⟨-, hnil | ⟨m, hone⟩ | hone⟩ := hrefused
        · cases hnil
        · cases hone
        · cases hone
      | start hnone => cases hnone
    rcases step_shared hs with ⟨hsame, hnil⟩ | ⟨pid, env, t₀, instr, rest, kind, n, rfl, hget₀,
      htodo, hnext, hwrite, rfl⟩
    · exact ⟨hsame, hreads, by rw [hnil]; simp⟩
    · obtain rfl := Option.some.inj hactor
      rw [hget] at hget₀
      obtain rfl := Option.some.inj hget₀
      have hupgrade : ∀ msg, instr = .control (.recheckAllowed msg) →
          conn.remote ∉ s.shared.allowed := by
        rintro msg rfl hmem
        exact hno ⟨env, msg, rfl, nextInstr_eq hget htodo, hmem⟩
      obtain ⟨-, hsame, hout⟩ := refused_exec hrefused htodo hnext hupgrade
      exact ⟨hwrite.trans hsame, hreads, hout⟩

/-- Alice asks Bob to pair and Bob accepts over an unpaired session; Carol sends a `Recognition` over
another one. -/
def acceptedAndRefused : List (Act Key) :=
  supervisor ++ sighting 1 .bob ++ requestSent 3 .bob 7 ++ go 3 2 ++ accepted 4 .bob 8 ++
    [.recv 4 (.inviteResponse "" .accepted)] ++ go 4 10 ++ accepted 6 .carol 9 ++
    [.recv 6 (.recognition (Key.carol.sign 9))] ++ go 6 2

/-- The theorem applies to a run in which one unpaired session pairs and another is refused. -/
theorem unpaired_session_frame_acceptedAndRefused :
    ∃ tr s, Run (machine alice) anyStep (aliceStart .missing) tr s ∧ s.shared.allowed = {.bob} ∧
      UnpairedFrame alice tr := by
  obtain ⟨tr, s, hrun, htest⟩ := Run.of_check (machine alice) anyStep (aliceStart .missing)
    acceptedAndRefused (fun _ s => s.shared.allowed = {.bob}) (by decide +kernel)
  exact ⟨tr, s, hrun, of_decide_eq_true htest,
    unpaired_session_frame alice .missing false ⟨true, true⟩ .everyone none tr s hrun⟩

end DashBeam.Node

import DashBeam.Node.Fits
import DashBeam.Node.Unpaired

/-!
# Answers to invites

An answer of a peer that is not on the allowlist should be surfaced only for an invite that was sent
to it, and once. A session that counts its peer as unpaired takes the invite out of the map first. A
pairing-host session does not look at the map, nor does a session that once counted its peer as
paired. So the law of the map holds over the runs in which these two read an answer only from a peer
on the allowlist (`answers_match_invites`), and fails without that (`spoofed_answer`).
-/

namespace DashBeam.Node

open Protocol Native Lib

set_option linter.unusedSectionVars false

variable {Id : Type} [DecidableEq Id] {C : Config Id}

def Kind.sessionRemote : Kind Id → Option Id
  | .control c => some c.conn.remote
  | .host h => some h.conn.remote
  | _ => none

/-- The remote of an inbound session that does not consult the pending invites. -/
def Kind.trusted : Kind Id → Option Id
  | .control c => if c.peerIsPaired then some c.conn.remote else none
  | .host h => some h.conn.remote
  | _ => none

/-- The task tells the app of an answer of `x`. -/
def SurfacesAnswer (C : Config Id) (p : Nat) (x : Id) (e : Step Id) : Prop :=
  e.act.actor = some p ∧
    ∃ name response, .event (.pairedInviteResponse (C.iroh.toStr x) name response) ∈ e.out

/-- The session of `x` takes the pending invite to `x` out of the map. -/
def TakesInvite (C : Config Id) (p : Nat) (x : Id) (e : Step Id) : Prop :=
  ∃ env response, e.act = .exec p env ∧ (kindOf e.pre p).bind Kind.sessionRemote = some x ∧
    nextInstr e.pre p = some (.control (.takePending response)) ∧
    (e.pre.shared.pendingNearbyInvites (C.iroh.toStr x)).isSome = true ∧
    e.post.shared.pendingNearbyInvites (C.iroh.toStr x) = none

/-- An inbound session surfaces the answer of a peer that is not on the allowlist only for a pending
invite it took, and only once for each. -/
def AnswersMatchInvites (C : Config Id) (tr : List (Step Id)) : Prop :=
  Each (fun past e => ∀ p x, ((kindOf e.pre p).bind Kind.sessionRemote).isSome = true →
    SurfacesAnswer C p x e → x ∉ e.pre.shared.allowed →
    Since (TakesInvite C p x) (SurfacesAnswer C p x) past) tr

/-- The critical section tells the app of an answer. -/
def Instr.surfaces : Instr Id → Bool
  | .common (.emitInviteResponse ..) => true
  | _ => false

/-- The peer whose answer is read by a session that does not consult the pending invites. -/
def answered (s : State Id) : Act Id → Option Id
  | .recv p (.inviteResponse ..) => (kindOf s p).bind Kind.trusted
  | _ => none

/-- The peer that is taken off the allowlist. -/
def disallowed (s : State Id) (a : Act Id) : Option Id :=
  match doing s a with
  | some (.common (.disallow x _), _) => some x
  | _ => none

/-- A session that does not consult the pending invites reads an answer only from a peer on the
allowlist, and the peer stays there until the answer is surfaced. -/
def AnswersTrusted (s : State Id) (a : Act Id) : Prop :=
  (∀ x ∈ answered s a, x ∈ s.shared.allowed) ∧
    ∀ x ∈ disallowed s a, ∀ t ∈ s.procs, t.kind.trusted = some x → ∀ i ∈ t.todo, i.surfaces = false

instance (s : State Id) (a : Act Id) : Decidable (AnswersTrusted s a) :=
  inferInstanceAs (Decidable (_ ∧ _))

/-! ### From a message to its answer -/

/-- The critical sections on the way from a message to an answer. At most one of them is to do. -/
def Instr.answers : Instr Id → Bool
  | .common (.emitInviteResponse ..) | .control (.takePending _) | .control (.chargeToken _)
  | .control (.recheckAllowed _) => true
  | _ => false

theorem Instr.answers_of_surfaces {i : Instr Id} (h : i.surfaces = true) : i.answers = true := by
  unfold Instr.surfaces at h
  split at h
  · rfl
  · cases h

theorem answers_nextCommon {s : Shared Id} {fresh : Nat} {env : Env} {instr : CommonInstr Id} :
    ∀ i ∈ (nextCommon C s fresh env instr).push, i.answers = false :=
  fun i hi => by cases commonPush_next hi <;> rfl

theorem answers_nextHost {s : Shared Id} {h : HostSession Id} {env : Env} {instr : HostInstr} :
    ∀ i ∈ (nextHost C s h env instr).push, i.answers = false := by
  cases instr with
  | hostHello | loadPersistent =>
    simp only [nextHost]
    split <;> simp [Instr.answers]
  | _ => simp [nextHost, Instr.answers]

theorem answers_leaveSession {c : ControlSession Id} :
    ∀ i ∈ leaveSession C c, i.answers = false := by
  unfold leaveSession
  split <;> simp [Instr.answers]

theorem answers_handlePaired {c : ControlSession Id} {msg : ControlMessage}
    (hmsg : ∀ id response, msg ≠ .inviteResponse id response) :
    ∀ i ∈ handlePairedControlMessage C c msg, i.answers = false := by
  cases msg with
  | inviteResponse id response => exact absurd rfl (hmsg id response)
  | recognition | forget =>
    simp only [handlePairedControlMessage, recognise]
    split <;> simp [Instr.answers]
  | _ => simp [handlePairedControlMessage, Instr.answers]

theorem answers_dispatch {c : ControlSession Id} {msg : ControlMessage}
    (hmsg : ∀ id response, msg ≠ .inviteResponse id response) :
    ∀ i ∈ (dispatch C c msg).2, i.answers = false := by
  unfold dispatch
  split
  · simp [Instr.answers]
  · split
    · rw [List.forall_mem_cons]
      exact ⟨rfl, answers_handlePaired hmsg⟩
    · exact answers_handlePaired hmsg

theorem answers_nextControl {s : Shared Id} {c : ControlSession Id} {env : Env}
    {instr : ControlInstr} (h : (Instr.control instr : Instr Id).answers = false) :
    ∀ i ∈ (nextControl C s c env instr).2.push, i.answers = false := by
  cases instr with
  | recheckAllowed | chargeToken | takePending => cases h
  | answerIdentity =>
    simp only [nextControl]
    split
    · simp [Instr.answers]
    · split <;> simp [Instr.answers]
  | hangUp => exact answers_leaveSession
  | registerInbound =>
    simp only [nextControl, setSession]
    split <;> simp [Instr.answers]
  | commitNearby | emitPairedName => simp [nextControl, Instr.answers]

theorem answers_dispatch_unpaired {c : ControlSession Id} (hc : c.peerIsPaired = false)
    (msg : ControlMessage) : (dispatch C c msg).2.countP Instr.answers ≤ 1 ∧
      ∀ i ∈ (dispatch C c msg).2, i.surfaces = false := by
  by_cases hmsg : ∃ id response, msg = .inviteResponse id response
  · obtain ⟨id, response, rfl⟩ := hmsg
    simp [dispatch, handlePairedControlMessage, hc, List.countP_cons, Instr.answers,
      Instr.surfaces]
  · have hnone := answers_dispatch (C := C) (c := c)
      (fun id response heq => hmsg ⟨id, response, heq⟩)
    refine ⟨?_, fun i hi => ?_⟩
    · rw [List.countP_eq_zero.mpr (fun i hi => by rw [hnone i hi]; simp)]
      omega
    · by_contra hsurfaces
      have hanswers := Instr.answers_of_surfaces (by simpa using hsurfaces)
      rw [hnone i hi] at hanswers
      cases hanswers

/-! ### The invariant -/

/-- What holds of an inbound session. One that counts its peer as unpaired has taken the invite it
surfaces an answer to; for the others the peer is on the allowlist. -/
def AnswerOk (C : Config Id) (tr : List (Step Id)) (trust : Id → Prop) (p : Nat) (kind : Kind Id)
    (todo : List (Instr Id)) : Prop :=
  match kind with
  | .control c =>
    if c.peerIsPaired then
      ∀ i ∈ todo, i.answers = true → i.surfaces = true ∧ trust c.conn.remote
    else todo.countP Instr.answers ≤ 1 ∧ ∀ i ∈ todo, i.surfaces = true →
      Since (TakesInvite C p c.conn.remote) (SurfacesAnswer C p c.conn.remote) tr
  | .host h => ∀ i ∈ todo, i.surfaces = true → trust h.conn.remote
  | _ => True

theorem answerOk_nil {tr : List (Step Id)} {trust : Id → Prop} {p : Nat} {kind : Kind Id} :
    AnswerOk C tr trust p kind [] := by
  unfold AnswerOk
  split
  · split <;> simp
  · simp
  · trivial

theorem AnswerOk.has {tr : List (Step Id)} {trust : Id → Prop} {p : Nat} {kind : Kind Id}
    {todo : List (Instr Id)} {t : Task Id} (h : AnswerOk C tr trust p kind todo)
    (hhas : t.Has kind todo) : AnswerOk C tr trust p t.kind t.todo := by
  obtain ⟨rfl, htodo | ⟨htodo, -⟩⟩ := hhas
  · rw [htodo]
    exact h
  · rw [htodo]
    exact answerOk_nil

theorem AnswerOk.keep {tr : List (Step Id)} {trust trust' : Id → Prop} {p : Nat}
    {kind : Kind Id} {todo : List (Instr Id)} {e : Step Id} (h : AnswerOk C tr trust p kind todo)
    (hactor : e.act.actor ≠ some p)
    (hallowed : ∀ x, kind.trusted = some x → (∃ i ∈ todo, i.surfaces = true) → trust x →
      trust' x) : AnswerOk C (tr ++ [e]) trust' p kind todo := by
  cases kind with
  | control c =>
    simp only [AnswerOk] at h ⊢
    split
    · rename_i hpaired
      rw [if_pos hpaired] at h
      intro i hi hanswers
      obtain ⟨hsurfaces, hmem⟩ := h i hi hanswers
      exact ⟨hsurfaces, hallowed _ (by simp [Kind.trusted, hpaired]) ⟨i, hi, hsurfaces⟩ hmem⟩
    · rename_i hpaired
      rw [if_neg hpaired] at h
      refine ⟨h.1, fun i hi hsurfaces => (h.2 i hi hsurfaces).snoc_keep ?_⟩
      exact fun hsurf => hactor hsurf.1
  | host c =>
    intro i hi hsurfaces
    exact hallowed _ rfl ⟨i, hi, hsurfaces⟩ (h i hi hsurfaces)
  | inbound | connect | call | expiry | lan | background => trivial

theorem eq_emitInviteResponse {s : Shared Id} {kind kind' : Kind Id} {fresh : Nat} {env : Env}
    {instr : Instr Id} {n : Next Id} {e : String} {name : Option String} {r : InviteResponse}
    (hfits : Fits C kind instr) (hnext : next C s kind fresh env instr = some (kind', n))
    (ho : .event (.pairedInviteResponse e name r) ∈ n.out) :
    ∃ fallback, instr = .common (.emitInviteResponse e r fallback) := by
  cases event_case hnext ho with
  | answer _ _ fallback => exact ⟨fallback, rfl⟩
  | emit => cases kind <;> exact hfits.elim
  | hostInvite hkind =>
    subst hkind
    exact hfits.elim

theorem answerOk_accept (tr : List (Step Id)) (trust : Id → Prop) (p : Nat) (s : Shared Id)
    (conn : Conn Id) (env : Env) (instr : AcceptInstr) :
    AnswerOk C tr trust p (nextAccept C s conn env instr).1
      (nextAccept C s conn env instr).2.push := by
  cases instr with
  | acceptAllowed pairingHostOpen window =>
    simp only [nextAccept]
    split
    · simp [AnswerOk, Instr.answers]
    · split <;> simp [AnswerOk, Instr.answers, Instr.surfaces]
  | hookBlocked | hookDirectPath =>
    simp only [nextAccept]
    split <;> trivial
  | hookAccess =>
    simp only [nextAccept]
    split
    · trivial
    · split <;> trivial
  | acceptWindow => trivial

/-- A critical section of a session that counts its peer as paired. -/
theorem answerOk_paired {trust trust' : Id → Prop} {s : Shared Id} {c : ControlSession Id}
    {kind' : Kind Id} {fresh : Nat} {env : Env} {instr : Instr Id} {rest : List (Instr Id)}
    {n : Next Id} (hfits : ControlFits C c instr)
    (h : ∀ i ∈ instr :: rest, i.answers = true → i.surfaces = true ∧ trust c.conn.remote)
    (hkept : (∃ i ∈ instr :: rest, i.surfaces = true) → trust c.conn.remote →
      trust' c.conn.remote)
    (hnext : next C s (.control c) fresh env instr = some (kind', n)) :
    ∀ i ∈ n.push ++ rest, i.answers = true → i.surfaces = true ∧ trust' c.conn.remote := by
  have hpush : ∀ i ∈ n.push, i.answers = false := by
    cases next_case hnext with
    | common => exact answers_nextCommon
    | @control instr _ hkind =>
      cases hkind
      refine answers_nextControl ?_
      by_contra hanswers
      have hsurfaces := (h (.control instr) (by simp) (by simpa using hanswers)).1
      cases hsurfaces
    | service | window | lan => exact hfits.elim
    | accept hkind | host hkind | connect hkind => cases hkind
  intro i hi hanswers
  rcases List.mem_append.mp hi with hi | hi
  · rw [hpush i hi] at hanswers
    cases hanswers
  · have hmem : i ∈ instr :: rest := by simp [hi]
    obtain ⟨hsurfaces, hallowed⟩ := h i hmem hanswers
    exact ⟨hsurfaces, hkept ⟨i, hmem, hsurfaces⟩ hallowed⟩

/-- A critical section of a session that counts its peer as unpaired: it has taken the invite it
goes on to answer, or has found its remote on the allowlist and has nothing to answer. -/
theorem answerOk_unpaired {consumed : Prop} {s : Shared Id} {c : ControlSession Id}
    {kind' : Kind Id} {fresh : Nat} {env : Env} {instr : Instr Id} {rest : List (Instr Id)}
    {n : Next Id} (hc : c.peerIsPaired = false) (hfits : ControlFits C c instr)
    (hrefused : ∀ msg, instr = .control (.recheckAllowed msg) → unpairedMessageAllowed msg = false)
    (hcount : (instr :: rest).countP Instr.answers ≤ 1)
    (h : ∀ i ∈ instr :: rest, i.surfaces = true → consumed)
    (hnext : next C s (.control c) fresh env instr = some (kind', n)) :
    (∃ c', kind' = .control c' ∧ c'.conn = c.conn ∧ c'.peerIsPaired = true ∧
      ∀ i ∈ n.push ++ rest, i.answers = false) ∨
    (∃ c', kind' = .control c' ∧ c'.conn = c.conn ∧ c'.peerIsPaired = false ∧
      (n.push ++ rest).countP Instr.answers ≤ 1 ∧
      ∀ i ∈ n.push ++ rest, i.surfaces = true → instr.surfaces = false ∧
        (consumed ∨ (∃ response, instr = .control (.takePending response)) ∧
          (s.pendingNearbyInvites (C.iroh.toStr c.conn.remote)).isSome = true)) := by
  have hrest : instr.answers = true → ∀ i ∈ rest, i.answers = false := by
    intro hanswers i hi
    rw [List.countP_cons, if_pos hanswers] at hcount
    have hzero : rest.countP Instr.answers = 0 := by omega
    have := List.countP_eq_zero.mp hzero i hi
    simpa using this
  have hrestCount : rest.countP Instr.answers ≤ 1 := by
    rw [List.countP_cons] at hcount
    omega
  have hnotSurfaces : ∀ i : Instr Id, i.answers = false → i.surfaces = true → False := by
    intro i hi hsurfaces
    rw [Instr.answers_of_surfaces hsurfaces] at hi
    cases hi
  -- what comes of a critical section that pushes nothing on the way to an answer
  have hquiet : (∀ i ∈ n.push, i.answers = false) →
      (n.push ++ rest).countP Instr.answers ≤ 1 ∧
      ∀ i ∈ n.push ++ rest, i.surfaces = true → instr.surfaces = false ∧
        (consumed ∨ (∃ response, instr = .control (.takePending response)) ∧
          (s.pendingNearbyInvites (C.iroh.toStr c.conn.remote)).isSome = true) := by
    intro hpush
    constructor
    · rw [List.countP_append,
        List.countP_eq_zero.mpr (fun i hi => by rw [hpush i hi]; simp)]
      omega
    · intro i hi hsurfaces
      rcases List.mem_append.mp hi with hi | hi
      · exact (hnotSurfaces i (hpush i hi) hsurfaces).elim
      · refine ⟨?_, .inl (h i (by simp [hi]) hsurfaces)⟩
        by_contra hinstr
        have hanswers := Instr.answers_of_surfaces (by simpa using hinstr)
        exact hnotSurfaces i (hrest hanswers i hi) hsurfaces
  cases next_case hnext with
  | common => exact .inr ⟨c, rfl, rfl, hc, hquiet answers_nextCommon⟩
  | @control instr c₀ hkind =>
    cases hkind
    have hstep := sessionStep_nextControl (C := C) s c env instr
    cases instr with
    | recheckAllowed msg =>
      simp only [nextControl] at hquiet ⊢
      split
      · refine .inl ⟨_, rfl, (dispatch_session _ msg).1, (dispatch_session _ msg).2.1, ?_⟩
        intro i hi
        rcases List.mem_append.mp hi with hi | hi
        · refine answers_dispatch (fun id response heq => ?_) i hi
          have := hrefused msg rfl
          rw [heq] at this
          cases this
        · exact hrest rfl i hi
      · rename_i hmem
        rw [if_neg hmem] at hquiet
        exact .inr ⟨c, rfl, rfl, hc, hquiet (by simp [Instr.answers])⟩
    | chargeToken msg =>
      simp only [nextControl] at hquiet ⊢
      split
      · obtain ⟨hone, hnone⟩ := answers_dispatch_unpaired (C := C) hc msg
        have hzero : rest.countP Instr.answers = 0 :=
          List.countP_eq_zero.mpr fun i hi => by rw [hrest rfl i hi]; simp
        refine .inr ⟨_, rfl, (dispatch_session c msg).1, ?_, ?_, fun i hi hsurfaces => ?_⟩
        · rw [(dispatch_session c msg).2.1, hc]
        · rw [List.countP_append, hzero]
          exact hone
        · rcases List.mem_append.mp hi with hi | hi
          · rw [hnone i hi] at hsurfaces
            cases hsurfaces
          · exact (hnotSurfaces i (hrest rfl i hi) hsurfaces).elim
      · rename_i hallow
        rw [if_neg hallow] at hquiet
        exact .inr ⟨c, rfl, rfl, hc, hquiet (by simp [Instr.answers])⟩
    | takePending response =>
      simp only [nextControl] at hquiet ⊢
      split
      · rename_i hnone
        simp only [hnone] at hquiet ⊢
        exact .inr ⟨c, rfl, rfl, hc, hquiet (by simp)⟩
      · rename_i pending hsome
        have hzero : rest.countP Instr.answers = 0 :=
          List.countP_eq_zero.mpr fun i hi => by rw [hrest rfl i hi]; simp
        refine .inr ⟨c, rfl, rfl, hc, ?_, fun i hi _ => ⟨rfl, .inr ⟨⟨response, rfl⟩, ?_⟩⟩⟩
        · rw [List.countP_append, hzero]
          split <;> simp [List.countP_cons, Instr.answers]
        · rw [hsome]
          rfl
    | answerIdentity | hangUp | registerInbound | commitNearby | emitPairedName =>
      refine .inr ⟨_, rfl, hstep.conn, ?_, hquiet (answers_nextControl rfl)⟩
      simp only [nextControl]
      try split
      all_goals try split
      all_goals exact hc
  | service | window | lan => exact hfits.elim
  | accept hkind | host hkind | connect hkind => cases hkind

theorem answerOk_exec {tr : List (Step Id)} {s s' : State Id} {p : Nat} {t : Task Id} {env : Env}
    {instr : Instr Id} {rest : List (Instr Id)} {kind : Kind Id} {n : Next Id}
    {trust trust' : Id → Prop} (h : AnswerOk C tr trust p t.kind t.todo)
    (hfit : TaskFits C t.kind t.todo) (hunpaired : SessionOk C tr p t.kind t.todo)
    (hget : s.procs[p]? = some t) (htodo : t.todo = instr :: rest)
    (hnext : next C s.shared t.kind s.procs.length env instr = some (kind, n))
    (hshared : s'.shared = write C s.shared t.kind s.procs.length env instr)
    (hkept : ∀ x, t.kind.trusted = some x → (∃ i ∈ t.todo, i.surfaces = true) →
      trust x → trust' x) :
    AnswerOk C (tr ++ [⟨s, .exec p env, s', n.out⟩]) trust' p kind (n.push ++ rest) := by
  have hinstr := nextInstr_eq hget htodo
  have hk := next_kind hnext
  rw [htodo] at h hfit hunpaired hkept
  have hfits := hfit.fits instr (by simp)
  cases hkind : t.kind with
  | inbound conn =>
    rw [hkind] at hnext hfit
    obtain ⟨i, rfl, rfl⟩ := hfit.inbound
    cases next_case hnext with
    | accept hc =>
      cases hc
      rw [List.append_nil]
      exact answerOk_accept _ _ _ _ _ _ _
  | control c =>
    rw [hkind] at h hk hnext hfits hkept hunpaired
    simp only [AnswerOk] at h
    split at h
    · rename_i hc
      obtain ⟨c', rfl, hstep⟩ := hk
      have hall := answerOk_paired hfits h (hkept _ (by simp [Kind.trusted, hc])) hnext
      simp only [AnswerOk, hstep.paired hc, if_true, hstep.conn]
      exact hall
    · rename_i hc
      rw [Bool.not_eq_true] at hc
      have hrefused : ∀ msg, instr = .control (.recheckAllowed msg) →
          unpairedMessageAllowed msg = false := by
        rintro msg rfl
        exact hunpaired.2 hc (.control (.recheckAllowed msg)) (by simp)
      rcases answerOk_unpaired hc hfits hrefused h.1 h.2 hnext with
        ⟨c', rfl, hconn, hpaired, hnone⟩ | ⟨c', rfl, hconn, hpaired, hcount, hsince⟩
      · simp only [AnswerOk, hpaired, if_true]
        intro i hi hanswers
        rw [hnone i hi] at hanswers
        cases hanswers
      · simp only [AnswerOk, hpaired, Bool.false_eq_true, if_false, hconn]
        refine ⟨hcount, fun i hi hsurfaces => ?_⟩
        obtain ⟨hquiet, htaken | ⟨⟨response, rfl⟩, hpending⟩⟩ := hsince i hi hsurfaces
        · refine htaken.snoc_keep ?_
          rintro ⟨-, name, r, ho⟩
          obtain ⟨fallback, rfl⟩ := eq_emitInviteResponse hfits hnext ho
          cases hquiet
        · refine Since.snoc_now ⟨env, response, rfl, ?_, hinstr, hpending, ?_⟩
          · rw [kindOf_eq hget, hkind]
            rfl
          · rw [hshared, write_pending, hkind]
            simp [Kind.remote]
  | host c =>
    rw [hkind] at h hk hnext hfits hkept
    have hpush : ∀ i ∈ n.push, i.answers = false := by
      cases next_case hnext with
      | common => exact answers_nextCommon
      | host hc => exact answers_nextHost
      | @window instr =>
        cases instr with
        | closeWindow => simp [nextWindow]
        | _ => exact hfits.elim
      | service | lan => exact hfits.elim
      | accept hc | control hc | connect hc => cases hc
    cases hk
    intro i hi hsurfaces
    rcases List.mem_append.mp hi with hi | hi
    · have hanswers := Instr.answers_of_surfaces hsurfaces
      rw [hpush i hi] at hanswers
      cases hanswers
    · have hmem : i ∈ instr :: rest := by simp [hi]
      exact hkept _ rfl ⟨i, hmem, hsurfaces⟩ (h i hmem hsurfaces)
  | connect l =>
    rw [hkind] at hk
    obtain ⟨l', rfl, -⟩ := hk
    trivial
  | call | expiry | lan | background =>
    rw [hkind] at hk
    cases hk
    trivial

theorem surfaces_receiveHost {h : HostSession Id} {msg : ControlMessage}
    (hmsg : ∀ id response, msg ≠ .inviteResponse id response) :
    ∀ i ∈ (receiveHost C h msg).2, i.surfaces = false := by
  intro i hi
  cases hostReceives_of_mem hi with
  | answer heq => exact absurd heq (hmsg _ _)
  | read | record | invite | touch | presence | forgotten => rfl

theorem answerOk_recv {tr : List (Step Id)} {s : State Id} {p : Nat} {kind kind' : Kind Id}
    {todo : List (Instr Id)} {msg : ControlMessage} {trust : Id → Prop}
    (hkind : kindOf s p = some kind) (hread : ∀ x ∈ answered s (.recv p msg), trust x)
    (hrecv : received C kind msg = some (kind', todo)) : AnswerOk C tr trust p kind' todo := by
  have hallowed : ∀ x, kind.trusted = some x → (∃ id response, msg = .inviteResponse id response) →
      trust x := by
    rintro x hx ⟨id, response, rfl⟩
    refine hread x ?_
    rw [answered, hkind, Option.bind_some, hx]
    rfl
  cases received_case hrecv with
  | control c =>
    by_cases hc : c.peerIsPaired = true
    · have hsession := dispatch_session (C := C) c msg
      simp only [receiveControl, hc, if_true, AnswerOk, hsession.1, hsession.2.1]
      intro i hi hanswers
      by_cases hmsg : ∃ id response, msg = .inviteResponse id response
      · refine ⟨?_, hallowed _ (by simp [Kind.trusted, hc]) hmsg⟩
        obtain ⟨id, response, rfl⟩ := hmsg
        simp only [dispatch, handlePairedControlMessage, hc] at hi
        split at hi
        · rename_i hprobe
          cases hprobe
        · split at hi
          · simp only [if_true, List.mem_cons, List.not_mem_nil, or_false] at hi
            rcases hi with rfl | rfl | rfl
            · cases hanswers
            · rfl
            · cases hanswers
          · simp only [if_true, List.mem_cons, List.not_mem_nil, or_false] at hi
            rcases hi with rfl | rfl
            · rfl
            · cases hanswers
      · rw [answers_dispatch (fun id response heq => hmsg ⟨id, response, heq⟩) i hi] at hanswers
        cases hanswers
    · rw [Bool.not_eq_true] at hc
      simp only [receiveControl, hc, Bool.false_eq_true, if_false, AnswerOk]
      split <;> simp [hc, List.countP_cons, Instr.answers, Instr.surfaces]
  | host h =>
    intro i hi hsurfaces
    by_cases hmsg : ∃ id response, msg = .inviteResponse id response
    · obtain ⟨id, response, rfl⟩ := hmsg
      exact hallowed _ rfl ⟨id, response, rfl⟩
    · rw [surfaces_receiveHost (fun id response heq => hmsg ⟨id, response, heq⟩) i hi] at hsurfaces
      cases hsurfaces
  | connect => trivial

theorem answerOk_close {tr : List (Step Id)} {trust : Id → Prop} {p : Nat} {kind : Kind Id}
    {reason : String} : AnswerOk C tr trust p kind (closedTodo C kind reason) := by
  cases kind with
  | control c =>
    have hnone := answers_leaveSession (C := C) (c := c)
    simp only [AnswerOk, closedTodo]
    split
    · intro i hi hanswers
      rw [hnone i hi] at hanswers
      cases hanswers
    · refine ⟨?_, fun i hi hsurfaces => ?_⟩
      · rw [List.countP_eq_zero.mpr (fun i hi => by rw [hnone i hi]; simp)]
        omega
      · have hanswers := Instr.answers_of_surfaces hsurfaces
        rw [hnone i hi] at hanswers
        cases hanswers
  | host c =>
    simp only [AnswerOk, closedTodo]
    split <;> simp [Instr.surfaces]
  | inbound | connect | call | expiry | lan | background => trivial

/-- Every inbound session is as it should be. -/
def AnswersInv (C : Config Id) (trust : Id → Prop) (tr : List (Step Id)) (s : State Id) : Prop :=
  ∀ (p : Nat) (t : Task Id), s.procs[p]? = some t → AnswerOk C tr trust p t.kind t.todo

/-- A peer stays on the allowlist while a session is about to surface its answer. -/
theorem allowed_kept {s s' : State Id} {a : Act Id} {out : List (Out Id)}
    (hs : step C s a = some (s', out)) (hok : AnswersTrusted s a) {q : Nat} {t : Task Id}
    {x : Id} (hget : s.procs[q]? = some t) (hx : t.kind.trusted = some x)
    (hsurfaces : ∃ i ∈ t.todo, i.surfaces = true) (hmem : x ∈ s.shared.allowed) :
    x ∈ s'.shared.allowed := by
  rcases step_shared hs with ⟨hsame, -⟩ | ⟨pid, env, t₀, instr, rest, kind, n, rfl, hget₀, htodo,
    -, hshared, -⟩
  · rw [hsame]
    exact hmem
  · rw [hshared, write_allowed]
    split
    · exact Finset.mem_insert_of_mem hmem
    · rename_i id racing
      refine Finset.mem_erase.mpr ⟨?_, hmem⟩
      rintro rfl
      obtain ⟨i, hi, hsurf⟩ := hsurfaces
      have hdis : disallowed s (.exec pid env) = some x := by
        rw [disallowed, doing_exec hget₀ htodo]
      have hnot := hok.2 x hdis t (List.mem_of_getElem? hget) hx i hi
      rw [hsurf] at hnot
      cases hnot
    · exact hmem

theorem allowed_answered {s s' : State Id} {a : Act Id} {out : List (Out Id)}
    (hs : step C s a = some (s', out)) (hok : AnswersTrusted s a) :
    ∀ x ∈ answered s a, x ∈ s'.shared.allowed := by
  intro x hx
  rcases step_shared hs with ⟨hsame, -⟩ | ⟨_, _, _, _, _, _, _, rfl, -⟩
  · rw [hsame]
    exact hok.1 x hx
  · cases hx

theorem AnswersInv.step {tr : List (Step Id)} {s s' : State Id} {a : Act Id} {out : List (Out Id)}
    {trust trust' : Id → Prop} (h : AnswersInv C trust tr s) (hfits : AllFit C s)
    (hunpaired : UnpairedInv C tr s) (hread : ∀ x ∈ answered s a, trust' x)
    (hkept : ∀ {q : Nat} {t : Task Id} {x : Id}, s.procs[q]? = some t → t.kind.trusted = some x →
      (∃ i ∈ t.todo, i.surfaces = true) → trust x → trust' x)
    (hs : Node.step C s a = some (s', out)) :
    AnswersInv C trust' (tr ++ [⟨s, a, s', out⟩]) s' := by
  intro q t' hq
  obtain ⟨kind, todo, horigin, hhas⟩ := step_origin hs hq
  refine AnswerOk.has ?_ hhas
  cases horigin with
  | kept hne hget =>
    exact (h q _ hget).keep hne (fun x hx hsurf hmem => hkept hget hx hsurf hmem)
  | @exec env t instr rest kind n hget htodo hnext =>
    obtain ⟨kind₀, n₀, t₀, hnext₀, hshared, hout, -, -⟩ := step_exec hs hget htodo
    rw [hnext] at hnext₀
    obtain ⟨rfl, rfl⟩ := Prod.mk.inj (Option.some.inj hnext₀)
    rw [hout]
    exact answerOk_exec (h q _ hget) (hfits q _ hget) (hunpaired.session q _ hget) hget htodo hnext
      hshared (fun x hx hsurf hmem => hkept hget hx hsurf hmem)
  | recv hget hrecv => exact answerOk_recv (kindOf_eq hget) hread hrecv
  | close hget hsees => exact answerOk_close
  | drop hget => exact answerOk_nil
  | spawned hget hnext hmem hnew =>
    cases next_spawn hnext hmem <;> trivial
  | @started a t hactor hstart hnew =>
    cases started_case hstart with
    | connect | call | appeared | vanished => trivial

theorem answersInv_start (trust : Id → Prop) (store : StoreFile) (rotated : Bool) (io : Io)
    (d : Discoverability) (relay : Option String) : AnswersInv C trust [] (start C store rotated io d relay) := by
  intro p t hp
  obtain rfl := eq_of_start hp
  trivial

/-- A session that counts its peer as unpaired has taken the invite it surfaces an answer to, whatever
the others do. -/
theorem answersInv_run {ok : State Id → Act Id → Prop} {store : StoreFile} {rotated : Bool}
    {io : Io} {d : Discoverability} {relay : Option String} {tr : List (Step Id)} {s : State Id}
    (hrun : Run (machine C) ok (start C store rotated io d relay) tr s) :
    AnswersInv C (fun _ => True) tr s := by
  refine hrun.invariant_of_run (I := fun tr s => AnswersInv C (fun _ => True) tr s)
    (answersInv_start _ store rotated io d relay) ?_
  intro tr s s' a out hprev h _ hs
  exact h.step (fits_run hprev) (unpairedInv_run hprev) (fun _ _ => trivial) (fun _ _ _ _ => trivial) hs

/-- In every run in which the sessions that do not consult the map read an answer only from a peer on
the allowlist, an answer of any other peer is surfaced only for a pending invite, and each once. -/
theorem answers_match_invites (C : Config Id) (store : StoreFile) (rotated : Bool) (io : Io)
    (d : Discoverability) (relay : Option String) (tr : List (Step Id)) (s : State Id)
    (hrun : Run (machine C) AnswersTrusted (start C store rotated io d relay) tr s) :
    AnswersMatchInvites C tr := by
  have hinv : AnswersInv C (· ∈ s.shared.allowed) tr s ∧ AnswersMatchInvites C tr := by
    refine hrun.invariant_of_run
      (I := fun tr s => AnswersInv C (· ∈ s.shared.allowed) tr s ∧ AnswersMatchInvites C tr)
      ⟨answersInv_start _ store rotated io d relay, .nil⟩ ?_
    rintro tr s s' a out hprev ⟨h, hmatch⟩ hok (hs : step C s a = some (s', out))
    have hfits := fits_run hprev
    refine ⟨h.step hfits (unpairedInv_run hprev) (allowed_answered hs hok) (allowed_kept hs hok) hs,
      hmatch.snoc ?_⟩
    rintro p x hsession ⟨hactor, name, r, ho⟩ hnot
    obtain ⟨env, t, instr, rest, kind, n, rfl, hget, htodo, hnext, -, rfl⟩ :=
      exec_of_effect hs hactor (.inr (List.ne_nil_of_mem ho))
    have hfit := hfits.head hget htodo
    obtain ⟨fallback, rfl⟩ := eq_emitInviteResponse hfit hnext ho
    have hans := h p t hget
    have hmem : .common (.emitInviteResponse (C.iroh.toStr x) r fallback) ∈ t.todo := by
      rw [htodo]
      simp
    rw [kindOf_eq hget, Option.bind_some] at hsession
    cases hkind : t.kind with
    | control c =>
      rw [hkind] at hfit hans
      obtain rfl := C.iroh.toStr_injective hfit
      simp only [AnswerOk] at hans
      split at hans
      · exact absurd (hans _ hmem rfl).2 hnot
      · exact hans.2 _ hmem rfl
    | host c =>
      rw [hkind] at hfit hans
      obtain rfl := C.iroh.toStr_injective hfit
      exact absurd (hans _ hmem rfl) hnot
    | inbound | connect | call | expiry | lan | background =>
      rw [hkind] at hsession
      cases hsession
  exact hinv.2

/-! ### Carol answers an invite she never got -/

/-- Carol is a stranger with a pairing-host session. -/
def spoofedAnswer : List (Act Key) :=
  supervisor ++ windowOpened 1 ++ hosted 3 .carol 5 ++ [.recv 3 (.inviteResponse "" .accepted)] ++
    go 3 1

/-- Her answer is surfaced, and there has never been an invite to her. -/
theorem spoofed_answer : ¬ ∀ tr s,
    Run (machine alice) anyStep (aliceStart .missing) tr s → AnswersMatchInvites alice tr := by
  intro hclaim
  obtain ⟨tr, s, hrun, htest⟩ := Run.of_check (machine alice) anyStep (aliceStart .missing)
    spoofedAnswer (fun tr _ => (∃ e ∈ tr, e.act = .exec 3 quiet ∧
        ((kindOf e.pre 3).bind Kind.sessionRemote).isSome = true ∧ .carol ∉ e.pre.shared.allowed ∧
        .event (.pairedInviteResponse Key.carol.hex none .accepted) ∈ e.out) ∧
      ∀ e ∈ tr, e.pre.shared.pendingNearbyInvites Key.carol.hex = none) (by decide +kernel)
  obtain ⟨⟨e, he, hact, hsession, hnot, ho⟩, hnone⟩ := of_decide_eq_true htest
  obtain ⟨past, future, rfl⟩ := List.append_of_mem he
  have hsince := hclaim _ s hrun past e future rfl 3 .carol hsession
    ⟨by rw [hact]; rfl, none, .accepted, ho⟩ hnot
  obtain ⟨before, e', after, rfl, ⟨env, r, -, -, -, hsome, -⟩, -⟩ := hsince
  rw [show alice.iroh.toStr .carol = Key.carol.hex from rfl, hnone e' (by simp)] at hsome
  cases hsome

/-- Alice asks Bob to pair, and he declines over an unpaired session. -/
def declinedAnswer : List (Act Key) :=
  supervisor ++ sighting 1 .bob ++ requestSent 3 .bob 7 ++ go 3 2 ++ accepted 4 .bob 8 ++
    [.recv 4 (.inviteResponse "" .declined)] ++ go 4 3

/-- The theorem applies to a run in which the answer of a peer that is not allowed is surfaced. -/
theorem answers_match_invites_declinedAnswer :
    ∃ tr s, Run (machine alice) AnswersTrusted (aliceStart .missing) tr s ∧
      (∃ e ∈ tr, e.act = .exec 4 quiet ∧ .bob ∉ e.pre.shared.allowed ∧
        .event (.pairedInviteResponse Key.bob.hex (some (idPrefix Key.bob.hex)) .declined) ∈ e.out) ∧
      AnswersMatchInvites alice tr := by
  obtain ⟨tr, s, hrun, htest⟩ := Run.of_check (machine alice) AnswersTrusted (aliceStart .missing)
    declinedAnswer (fun tr _ => ∃ e ∈ tr, e.act = .exec 4 quiet ∧ .bob ∉ e.pre.shared.allowed ∧
      .event (.pairedInviteResponse Key.bob.hex (some (idPrefix Key.bob.hex)) .declined) ∈ e.out)
    (by decide +kernel)
  exact ⟨tr, s, hrun, of_decide_eq_true htest,
    answers_match_invites alice .missing false ⟨true, true⟩ .everyone none tr s hrun⟩

end DashBeam.Node

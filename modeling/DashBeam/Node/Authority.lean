import DashBeam.Node.Mutual

/-!
# Who can unpair a peer

A peer leaves the allowlist and the store through four functions, in four kinds of task, and each of
them does it several critical sections after it read or was told why. Whatever a task is about to do
against a peer (`Instr.Against`) has its warrant in the past of that very task: the user forgot the
peer with this call, the peer itself has signed a `Forget` on the connection the task serves, or has
closed that connection because it does not know us (`unpairing_warranted`). No message of one peer
unpairs another.
-/

namespace DashBeam.Node

open Protocol Native Lib

set_option linter.unusedSectionVars false

variable {Id : Type} [DecidableEq Id] {C : Config Id}

/-! ### The property -/

/-- The step takes `x` off the allowlist or off the one that a restart would load, or leaves the store
without an active record of it. -/
def Unpairs (C : Config Id) (x : Id) (e : Step Id) : Prop :=
  (x ∈ e.pre.shared.allowed ∧ x ∉ e.post.shared.allowed) ∨
  (x ∈ StoreFile.loadAllowed C.iroh e.pre.shared.pairedStore.stored ∧
    x ∉ StoreFile.loadAllowed C.iroh e.post.shared.pairedStore.stored) ∨
  (StoreFile.ActiveAs C.iroh e.pre.shared.pairedStore.stored x ∧
    ¬ StoreFile.ActiveAs C.iroh e.post.shared.pairedStore.stored x)

/-- The user forgets `x`: the step starts task `p` for a `forget_paired` of some spelling of it. -/
def ForgetCalled (C : Config Id) (p : Nat) (x : Id) (e : Step Id) : Prop :=
  ∃ id, e.act = .call (.forgetPaired id) ∧ e.pre.procs.length = p ∧
    C.Names id x

/-- The message is a `Forget` that `x` has signed for this connection, which is one with `x`. -/
def SignedForget (C : Config Id) (conn : Conn Id) (x : Id) (msg : ControlMessage) : Prop :=
  ∃ signature, msg = .forget signature ∧ conn.remote = x ∧
    C.iroh.verifyChallenge x conn.num signature = true

/-- Task `p` reads a `Forget` of `x` on the connection with `x` that it serves. -/
def ForgetVerified (C : Config Id) (p : Nat) (x : Id) (e : Step Id) : Prop :=
  ∃ conn msg, e.act = .recv p msg ∧ (kindOf e.pre p).bind Kind.conn = some conn ∧
    SignedForget C conn x msg

/-- `x` closes the connection that the connect loop `p` dialled, not permitting an unpaired peer. -/
def RecognitionRefused (p : Nat) (x : Id) (e : Step Id) : Prop :=
  ∃ l conn, e.act = .close p "not permitted for unpaired peer" ∧
    kindOf e.pre p = some (.connect l) ∧ l.conn = some conn ∧ conn.remote = x

/-- What entitles task `p` to unpair `x`. -/
def Warrants (C : Config Id) (p : Nat) (x : Id) (e : Step Id) : Prop :=
  ForgetCalled C p x e ∨ ForgetVerified C p x e ∨ RecognitionRefused p x e

/-! ### What is done against a peer -/

/-- The critical section unpairs `x`, or decides whether to, in a task of this kind. -/
def Instr.Against (C : Config Id) (kind : Kind Id) (x : Id) : Instr Id → Prop
  | .common (.markUnpaired id) | .common (.disallow id _) => id = x
  | .service (.forgetRecord e) | .connect (.unpairGet e _) | .connect (.unpairMark e _) =>
    C.Names e x
  | .connect .settling => ∃ l, kind = .connect l ∧ C.Names l.endpointId x
  | .control (.recheckAllowed msg) | .control (.chargeToken msg) =>
    ∃ c, kind = .control c ∧ SignedForget C c.conn x msg
  | _ => False

/-- What the task holds against a peer it has a warrant for, and a call knows who started it. -/
structure Accountable (C : Config Id) (tr : List (Step Id)) (p : Nat) (kind : Kind Id)
    (todo : List (Instr Id)) : Prop where
  call : ∀ call, kind = .call call →
    call = .refresh ∨ ∃ d ∈ tr, d.act = .call call ∧ d.pre.procs.length = p
  warranted : ∀ i ∈ todo, ∀ x, i.Against C kind x → ∃ d ∈ tr, Warrants C p x d

namespace Accountable

variable {tr : List (Step Id)} {p : Nat} {kind : Kind Id} {todo : List (Instr Id)}

theorem has {t : Task Id} (h : Accountable C tr p kind todo) (hhas : t.Has kind todo) :
    Accountable C tr p t.kind t.todo := by
  obtain rfl := hhas.1
  exact ⟨h.call, fun i hi => h.warranted i (hhas.mem hi)⟩

theorem later (h : Accountable C tr p kind todo) (e : Step Id) :
    Accountable C (tr ++ [e]) p kind todo := by
  refine ⟨fun call hcall => ?_, fun i hi x hx => ?_⟩
  · rcases h.call call hcall with hrefresh | ⟨d, hd, hstart⟩
    · exact .inl hrefresh
    · exact .inr ⟨d, List.mem_append_left _ hd, hstart⟩
  · obtain ⟨d, hd, hwarrant⟩ := h.warranted i hi x hx
    exact ⟨d, List.mem_append_left _ hd, hwarrant⟩

theorem forgetCalled {e : String} (h : Accountable C tr p (.call (.forgetPaired e)) todo) {x : Id}
    (hx : C.Names e x) : ∃ d ∈ tr, Warrants C p x d := by
  rcases h.call _ rfl with hrefresh | ⟨d, hd, hact, hpid⟩
  · cases hrefresh
  · exact ⟨d, hd, .inl ⟨e, hact, hpid, hx⟩⟩

end Accountable

theorem against_call {call : Call} {i : Instr Id} {x : Id} (hfits : CallFits C call i)
    (h : i.Against C (.call call) x) :
    ∃ e, call = .forgetPaired e ∧ C.Names e x := by
  unfold Instr.Against at h
  split at h
  · exact hfits.elim
  · obtain ⟨-, e, hcall, hparse⟩ := hfits
    subst h
    exact ⟨e, hcall, names_of_fromStr hparse⟩
  · exact ⟨_, hfits, h⟩
  · exact hfits.elim
  · exact hfits.elim
  · obtain ⟨l, hkind, -⟩ := h
    cases hkind
  · exact hfits.elim
  · exact hfits.elim
  · exact h.elim

/-- What is held against a peer does not depend on more of a kind than its step keeps. -/
theorem against_of_kindStep {kind kind' : Kind Id} {i : Instr Id} {x : Id}
    (hstep : KindStep kind kind') (haccept : ∀ conn, kind ≠ .inbound conn)
    (h : i.Against C kind' x) : i.Against C kind x := by
  unfold Instr.Against at h ⊢
  split at h
  case h_6 =>
    obtain ⟨l', rfl, hl'⟩ := h
    cases kind with
    | inbound conn => exact absurd rfl (haccept conn)
    | connect l =>
      obtain ⟨l'', heq, hid⟩ := hstep
      obtain rfl := Kind.connect.inj heq
      exact ⟨l, rfl, hid ▸ hl'⟩
    | control c =>
      obtain ⟨c', heq, -⟩ := hstep
      cases heq
    | host | call | expiry | lan | background => cases hstep
  case h_7 | h_8 =>
    obtain ⟨c', rfl, hc'⟩ := h
    cases kind with
    | inbound conn => exact absurd rfl (haccept conn)
    | control c =>
      obtain ⟨c'', heq, hsession⟩ := hstep
      obtain rfl := Kind.control.inj heq
      exact ⟨c, rfl, hsession.conn ▸ hc'⟩
    | connect l =>
      obtain ⟨l', heq, -⟩ := hstep
      cases heq
    | host | call | expiry | lan | background => cases hstep
  all_goals exact h

/-! ### Critical sections keep to their warrants -/

section Next

variable {s : Shared Id} {fresh : Nat} {env : Env} {i : Instr Id} {x : Id}

/-- Only the mark of `apply_remote_unpair` leads a session to the allowlist. -/
theorem against_nextCommon {kind : Kind Id} {instr : CommonInstr Id}
    (hi : i ∈ (nextCommon C s fresh env instr).push) (h : i.Against C kind x) :
    instr = .markUnpaired x := by
  cases instr with
  | markUnpaired id =>
    simp only [nextCommon, managerForget] at hi
    split at hi
    · simp only [List.cons_append, List.nil_append, List.mem_cons, List.not_mem_nil,
        or_false] at hi
      rcases hi with rfl | rfl | rfl | rfl | rfl
      · rw [show id = x from h]
      all_goals exact h.elim
    · simp at hi
  | remember flow device =>
    exfalso
    revert h
    cases flow with
    | pairingHost =>
      simp only [nextCommon, afterRemember, List.mem_cons, List.not_mem_nil, or_false] at hi
      rcases hi with rfl | rfl | rfl | rfl | rfl <;> exact id
    | join =>
      simp only [nextCommon, afterRemember] at hi
      split at hi <;> simp only [List.mem_cons, List.not_mem_nil, or_false] at hi
      · rcases hi with rfl | rfl | rfl | rfl <;> exact id
      · subst hi
        exact id
    | commitNearby =>
      simp only [nextCommon, afterRemember] at hi
      split at hi
      · simp only [List.mem_cons, List.not_mem_nil, or_false] at hi
        rcases hi with rfl | rfl | rfl | rfl <;> exact id
      · exact absurd hi List.not_mem_nil
    | acceptNearby =>
      simp only [nextCommon, afterRemember] at hi
      split at hi
      · split at hi <;> simp only [List.mem_cons, List.not_mem_nil, or_false] at hi
        · rcases hi with rfl | rfl | rfl | rfl <;> exact id
        · rcases hi with rfl | rfl <;> exact id
      · rw [List.mem_singleton] at hi
        subst hi
        exact id
  | setPresence | removeSession | removeSessionIf | refreshList =>
    simp only [nextCommon] at hi
    split at hi
    all_goals first
      | exact absurd hi List.not_mem_nil
      | (rw [List.mem_singleton] at hi
         subst hi
         exact h.elim)
  | _ => exact absurd hi List.not_mem_nil

theorem against_recognise {e : String} {kind : Kind Id} (hi : i ∈ recognise e) :
    ¬ i.Against C kind x := by
  simp only [recognise, List.mem_cons, List.not_mem_nil, or_false] at hi
  rcases hi with rfl | rfl <;> exact id

theorem against_handlePaired {c : ControlSession Id} {msg : ControlMessage} {kind : Kind Id}
    (hi : i ∈ handlePairedControlMessage C c msg) (h : i.Against C kind x) :
    SignedForget C c.conn x msg := by
  have hread : ∀ {j : Instr Id}, j = .common .read → ¬ j.Against C kind x := by
    rintro j rfl
    exact id
  cases msg with
  | forget signature =>
    simp only [handlePairedControlMessage] at hi
    split at hi
    · rename_i hverify
      simp only [List.mem_cons, List.not_mem_nil, or_false] at hi
      rcases hi with rfl | rfl
      · obtain rfl : c.conn.remote = x := h
        exact ⟨signature, rfl, rfl, hverify⟩
      · exact h.elim
    · exact absurd h (hread (List.mem_singleton.mp hi))
  | recognition signature =>
    simp only [handlePairedControlMessage] at hi
    split at hi
    · rcases List.mem_append.mp hi with hi | hi
      · exact absurd h (against_recognise hi)
      · exact absurd h (hread (List.mem_singleton.mp hi))
    · exact absurd h (hread (List.mem_singleton.mp hi))
  | inviteResponse id response =>
    simp only [handlePairedControlMessage] at hi
    split at hi <;> simp only [List.mem_cons, List.not_mem_nil, or_false] at hi
    all_goals rcases hi with rfl | rfl <;> exact h.elim
  | invite | pairRequest =>
    simp only [handlePairedControlMessage, List.mem_cons, List.not_mem_nil, or_false] at hi
    rcases hi with rfl | rfl <;> exact h.elim
  | pairingInfo | rememberVote | whoAreYou | identity =>
    exact absurd h (hread (List.mem_singleton.mp hi))

theorem against_dispatch {c : ControlSession Id} {msg : ControlMessage} {kind : Kind Id}
    (hi : i ∈ (dispatch C c msg).2) (h : i.Against C kind x) : SignedForget C c.conn x msg := by
  unfold dispatch at hi
  split at hi
  · rw [List.mem_singleton] at hi
    subst hi
    exact h.elim
  · split at hi
    · rcases List.mem_cons.mp hi with rfl | hi
      · exact h.elim
      · exact against_handlePaired hi h
    · exact against_handlePaired hi h

theorem against_receiveControl {c : ControlSession Id} {msg : ControlMessage}
    (hi : i ∈ (receiveControl C c msg).2) (h : i.Against C (.control (receiveControl C c msg).1) x) :
    SignedForget C c.conn x msg := by
  have hconn := (sessionStep_receiveControl (C := C) c msg).conn
  unfold receiveControl at hi
  split at hi
  · exact against_dispatch hi h
  · split at hi
    all_goals
      rw [List.mem_singleton] at hi
      subst hi
      obtain ⟨c', hkind, hforget⟩ := h
      obtain rfl := Kind.control.inj hkind
      rwa [hconn] at hforget

theorem against_nextControl {c : ControlSession Id} {instr : ControlInstr} {kind : Kind Id}
    (hi : i ∈ (nextControl C s c env instr).2.push) (h : i.Against C kind x) :
    Instr.Against C (.control c) x (.control instr) := by
  have hnot : ∀ {j : Instr Id}, i = j → ¬ j.Against C kind x → False := by
    rintro j rfl hj
    exact hj h
  cases instr with
  | recheckAllowed msg =>
    simp only [nextControl] at hi
    split at hi
    · exact ⟨c, rfl, against_dispatch (c := { c with peerIsPaired := true }) hi h⟩
    · exact (hnot (List.mem_singleton.mp hi) id).elim
  | chargeToken msg =>
    simp only [nextControl] at hi
    split at hi
    · exact ⟨c, rfl, against_dispatch hi h⟩
    · exact (hnot (List.mem_singleton.mp hi) id).elim
  | answerIdentity =>
    simp only [nextControl] at hi
    split at hi
    · exact hnot (List.mem_singleton.mp hi) id
    · split at hi <;> exact hnot (List.mem_singleton.mp hi) id
  | hangUp =>
    simp only [nextControl, leaveSession] at hi
    split at hi
    · exact hnot (List.mem_singleton.mp hi) id
    · exact absurd hi List.not_mem_nil
  | registerInbound =>
    simp only [nextControl, setSession] at hi
    split at hi <;> simp only [List.mem_cons, List.not_mem_nil, or_false] at hi
    · exact hnot hi id
    · rcases hi with rfl | rfl | rfl <;> exact h.elim
  | takePending response =>
    simp only [nextControl] at hi
    split at hi
    · exact absurd hi List.not_mem_nil
    · rcases List.mem_append.mp hi with hi | hi
      · split at hi
        · exact hnot (List.mem_singleton.mp hi) id
        · exact absurd hi List.not_mem_nil
      · exact hnot (List.mem_singleton.mp hi) id
  | commitNearby => exact hnot (List.mem_singleton.mp hi) id
  | emitPairedName => exact absurd hi List.not_mem_nil

theorem against_receiveHost {h₀ : HostSession Id} {msg : ControlMessage} {kind : Kind Id}
    (hi : i ∈ (receiveHost C h₀ msg).2) (h : i.Against C kind x) :
    SignedForget C h₀.conn x msg := by
  have hrest : ∀ h' : HostSession Id, i ∈ hostNext h' → False := by
    intro h' hi
    unfold hostNext at hi
    split at hi <;> (rw [List.mem_singleton] at hi; subst hi; exact h)
  cases msg with
  | forget signature =>
    simp only [receiveHost] at hi
    split at hi
    · rename_i hverify
      rcases List.mem_cons.mp hi with rfl | hi
      · obtain rfl : h₀.conn.remote = x := h
        exact ⟨signature, rfl, rfl, hverify⟩
      · exact (hrest h₀ hi).elim
    · exact (hrest h₀ hi).elim
  | pairingInfo =>
    simp only [receiveHost] at hi
    split at hi
    · rw [List.mem_singleton] at hi
      subst hi
      exact h.elim
    · split at hi
      · exact (hrest _ hi).elim
      · rw [List.mem_singleton] at hi
        subst hi
        exact h.elim
  | recognition =>
    simp only [receiveHost] at hi
    split at hi
    · rcases List.mem_append.mp hi with hi | hi
      · exact absurd h (against_recognise hi)
      · exact (hrest h₀ hi).elim
    · exact (hrest h₀ hi).elim
  | invite | inviteResponse =>
    rcases List.mem_cons.mp hi with rfl | hi
    · exact h.elim
    · exact (hrest h₀ hi).elim
  | rememberVote | whoAreYou | identity | pairRequest => exact (hrest _ hi).elim

/-- What a connect loop holds against its peer after a message. -/
theorem against_readOutbound {conn : Conn Id} {msg : ControlMessage} {kind : Kind Id}
    (hi : i ∈ readOutbound C conn msg) (h : i.Against C kind x) : SignedForget C conn x msg := by
  have hread : i ∈ [Instr.common CommonInstr.read] → False := by
    intro hi
    rw [List.mem_singleton] at hi
    subst hi
    exact h
  cases msg with
  | forget signature =>
    simp only [readOutbound] at hi
    split at hi
    · rename_i hverify
      rw [List.mem_singleton] at hi
      subst hi
      obtain rfl := names_toStr.mp h
      exact ⟨signature, rfl, rfl, hverify⟩
    · exact (hread hi).elim
  | recognition =>
    simp only [readOutbound] at hi
    split at hi
    · rcases List.mem_append.mp hi with hi | hi
      · exact absurd h (against_recognise hi)
      · exact (hread hi).elim
    · exact (hread hi).elim
  | invite | inviteResponse =>
    simp only [readOutbound, List.mem_cons, List.not_mem_nil, or_false] at hi
    rcases hi with rfl | rfl <;> exact h.elim
  | pairingInfo | rememberVote | whoAreYou | identity | pairRequest => exact (hread hi).elim

/-- What a connect loop goes on to hold against its peer, it held before. -/
theorem against_nextConnect {l l' : ConnectLoop Id} {instr : ConnectInstr Id}
    (hi : i ∈ (nextConnect C s l env instr).2.push) (h : i.Against C (.connect l') x) :
    Instr.Against C (.connect l) x (.connect instr) := by
  cases connectPush_next hi with
  | unpairGet => exact ⟨l, rfl, h⟩
  | unpairMark => exact h
  | disallowForgotten hid | disallowRefused hid =>
    obtain rfl := h
    exact C.iroh.fromStr_toLowercase hid
  | _ => exact h.elim

/-- What a task holds against a peer after its connection closed: a connect loop that was refused. -/
theorem against_closed {kind : Kind Id} {reason : String} (hkind : KindFits C kind)
    (hi : i ∈ closedTodo C kind reason) (h : i.Against C kind x) :
    reason = "not permitted for unpaired peer" ∧
      ∃ l conn, kind = .connect l ∧ l.conn = some conn ∧ conn.remote = x := by
  cases kind with
  | control c =>
    simp only [closedTodo, leaveSession] at hi
    split at hi
    · rw [List.mem_singleton] at hi
      subst hi
      exact h.elim
    · exact absurd hi List.not_mem_nil
  | host h₀ =>
    simp only [closedTodo] at hi
    split at hi
    · rw [List.mem_singleton] at hi
      subst hi
      exact h.elim
    · exact absurd hi List.not_mem_nil
  | connect l =>
    simp only [closedTodo] at hi
    split at hi
    · rename_i conn hconn
      rcases List.mem_cons.mp hi with rfl | hi
      · exact h.elim
      · split at hi
        · rename_i hreason
          rw [List.mem_singleton] at hi
          subst hi
          obtain ⟨l', hl', hx⟩ := h
          obtain rfl := Kind.connect.inj hl'
          refine ⟨hreason, l, conn, rfl, hconn, ?_⟩
          exact Option.some.inj ((names_of_fromStr (hkind conn hconn)).symm.trans hx)
        · simp only [backOff, List.mem_cons, List.not_mem_nil, or_false] at hi
          rcases hi with rfl | rfl <;> exact h.elim
    · exact absurd hi List.not_mem_nil
  | inbound | call | expiry | lan | background => exact absurd hi List.not_mem_nil

theorem against_nextHost {h₀ : HostSession Id} {instr : HostInstr} {kind : Kind Id}
    (hi : i ∈ (nextHost C s h₀ env instr).push) : ¬ i.Against C kind x := by
  have hone : ∀ {j : Instr Id}, i ∈ [j] → ¬ j.Against C kind x → ¬ i.Against C kind x := by
    intro j hj hnot
    rw [List.mem_singleton] at hj
    exact hj ▸ hnot
  cases instr with
  | hostHello =>
    simp only [nextHost] at hi
    split at hi
    · exact hone hi id
    · exact absurd hi List.not_mem_nil
  | loadPersistent =>
    simp only [nextHost] at hi
    split at hi
    · exact absurd hi List.not_mem_nil
    · exact hone hi id
  | hostRecord => exact hone hi id
  | hostInvite | hostVote => exact absurd hi List.not_mem_nil

/-- What a task that is not a call goes on to hold against a peer, it held before. -/
theorem against_next {kind kind' : Kind Id} {instr : Instr Id} {n : Next Id}
    (hfits : Fits C kind instr) (hcall : ∀ call, kind ≠ .call call)
    (hnext : next C s kind fresh env instr = some (kind', n)) (hi : i ∈ n.push)
    (h : i.Against C kind' x) : instr.Against C kind x := by
  cases next_case hnext with
  | common hread =>
    obtain rfl := against_nextCommon hi h
    exact rfl
  | @service instr =>
    cases kind with
    | background =>
      cases instr with
      | notifyForget =>
        simp only [nextService] at hi
        split at hi <;> exact absurd hi List.not_mem_nil
      | _ => exact hfits.elim
    | call call => exact absurd rfl (hcall call)
    | inbound | control | host | connect | expiry | lan => exact hfits.elim
  | @window instr =>
    cases instr with
    | spawnExpiry =>
      rw [nextWindow, List.mem_singleton] at hi
      subst hi
      exact h.elim
    | _ => exact absurd hi List.not_mem_nil
  | lan =>
    obtain ⟨j, rfl⟩ := lan_nextLan hi
    exact h.elim
  | accept hkind => cases acceptPush_next hi <;> exact h.elim
  | control hkind =>
    subst hkind
    exact against_nextControl hi h
  | host hkind => exact absurd h (against_nextHost hi)
  | connect hkind =>
    subst hkind
    exact against_nextConnect hi h

end Next

/-! ### Every task is accountable -/

theorem call_of_next {s : Shared Id} {fresh : Nat} {env : Env} {kind : Kind Id} {instr : Instr Id}
    {call : Call} {n : Next Id} (hnext : next C s kind fresh env instr = some (.call call, n)) :
    kind = .call call := by
  cases kind with
  | inbound conn =>
    generalize hkind' : Kind.call call = kind' at hnext
    cases next_case hnext with
    | accept hc =>
      obtain rfl := Kind.inbound.inj hc
      cases hkind' ▸ acceptKind_next rfl
    | common | service | window | lan => cases hkind'
    | control hc | host hc | connect hc => cases hc
  | control c =>
    obtain ⟨c', heq, -⟩ := next_kind hnext
    cases heq
  | connect l =>
    obtain ⟨l', heq, -⟩ := next_kind hnext
    cases heq
  | host | call | expiry | lan | background => exact (next_kind hnext).symm

theorem accountable_exec {tr : List (Step Id)} {s : Shared Id} {p fresh : Nat} {env : Env}
    {kind kind' : Kind Id} {instr : Instr Id} {rest : List (Instr Id)} {n : Next Id}
    (hfits : TaskFits C kind (instr :: rest)) (h : Accountable C tr p kind (instr :: rest))
    (hnext : next C s kind fresh env instr = some (kind', n)) :
    Accountable C tr p kind' (n.push ++ rest) := by
  have hcall : ∀ call, kind' = .call call →
      call = .refresh ∨ ∃ d ∈ tr, d.act = .call call ∧ d.pre.procs.length = p := by
    rintro call rfl
    exact h.call call (call_of_next hnext)
  refine ⟨hcall, fun i hi x hx => ?_⟩
  by_cases hkind : ∃ call, kind = .call call
  · -- a call has its warrant in its own start
    obtain ⟨call, rfl⟩ := hkind
    obtain rfl : kind' = .call call := next_kind hnext
    have hafter := (taskFits_exec hfits hnext).fits i hi
    obtain ⟨e, rfl, he⟩ := against_call hafter hx
    have hnow : Accountable C tr p (.call (.forgetPaired e)) [] := ⟨hcall, by simp⟩
    exact hnow.forgetCalled he
  · rcases List.mem_append.mp hi with hi | hi
    · refine h.warranted instr (by simp) x ?_
      exact against_next (hfits.fits instr (by simp)) (fun call hc => hkind ⟨call, hc⟩) hnext hi hx
    · refine h.warranted i (by simp [hi]) x (against_of_kindStep (next_kind hnext) ?_ hx)
      rintro conn rfl
      obtain ⟨-, -, rfl⟩ := hfits.inbound
      exact absurd hi List.not_mem_nil

theorem accountable_recv {tr : List (Step Id)} {e : Step Id} {p : Nat} {kind kind' : Kind Id}
    {todo : List (Instr Id)} {msg : ControlMessage} (hact : e.act = .recv p msg)
    (hkind : kindOf e.pre p = some kind) (hrecv : received C kind msg = some (kind', todo)) :
    Accountable C (tr ++ [e]) p kind' todo := by
  have hnow : ∀ {conn x}, kind.conn = some conn → SignedForget C conn x msg →
      ∃ d ∈ tr ++ [e], Warrants C p x d := by
    intro conn x hconn hforget
    refine ⟨e, by simp, .inr (.inl ⟨conn, msg, hact, ?_, hforget⟩)⟩
    rw [hkind, Option.bind_some, hconn]
  cases received_case hrecv with
  | control c => exact ⟨nofun, fun i hi x hx => hnow rfl (against_receiveControl hi hx)⟩
  | host h => exact ⟨nofun, fun i hi x hx => hnow rfl (against_receiveHost hi hx)⟩
  | connect hconn =>
    exact ⟨nofun, fun i hi x hx => hnow hconn (against_readOutbound hi hx)⟩

theorem accountable_spawned {tr : List (Step Id)} {p : Nat} {t : Task Id} (h : Spawned t) :
    Accountable C tr p t.kind t.todo := by
  cases h with
  | connect device =>
    refine ⟨nofun, fun i hi x hx => ?_⟩
    obtain rfl := List.mem_singleton.mp hi
    exact hx.elim
  | notify e | probe e =>
    refine ⟨nofun, fun i hi x hx => ?_⟩
    obtain rfl := List.mem_singleton.mp hi
    exact hx.elim
  | expiry =>
    refine ⟨nofun, fun i hi x hx => ?_⟩
    simp only [expiryTask, List.mem_cons, List.not_mem_nil, or_false] at hi
    rcases hi with rfl | rfl | rfl | rfl | rfl <;> exact hx.elim

theorem accountable_started {tr : List (Step Id)} {e : Step Id} {t : Task Id}
    (hstart : started C e.act = some t) :
    Accountable C (tr ++ [e]) e.pre.procs.length t.kind t.todo := by
  generalize hact : e.act = a at hstart
  cases started_case hstart with
  | call call =>
    have hcall : ∀ call', (Kind.call call : Kind Id) = .call call' → call' = .refresh ∨
        ∃ d ∈ tr ++ [e], d.act = .call call' ∧ d.pre.procs.length = e.pre.procs.length := by
      rintro call' hc
      obtain rfl := Kind.call.inj hc
      exact .inr ⟨e, by simp, hact, rfl⟩
    refine ⟨hcall, fun i hi x hx => ?_⟩
    obtain ⟨id, rfl, hid⟩ := against_call (fits_program hi) hx
    have hnow : Accountable C (tr ++ [e]) e.pre.procs.length (.call (.forgetPaired id)) [] :=
      ⟨hcall, by simp⟩
    exact hnow.forgetCalled hid
  | connect | appeared | vanished =>
    refine ⟨nofun, fun i hi x hx => ?_⟩
    obtain rfl := List.mem_singleton.mp hi
    exact hx.elim

/-- Every task of the state is accountable. -/
def AllAccountable (C : Config Id) (tr : List (Step Id)) (s : State Id) : Prop :=
  ∀ (p : Nat) (t : Task Id), s.procs[p]? = some t → Accountable C tr p t.kind t.todo

theorem AllAccountable.step {tr : List (Step Id)} {s s' : State Id} {a : Act Id}
    {out : List (Out Id)} (hfit : AllFit C s) (h : AllAccountable C tr s)
    (hs : Node.step C s a = some (s', out)) : AllAccountable C (tr ++ [⟨s, a, s', out⟩]) s' := by
  intro p t' hp
  obtain ⟨kind, todo, horigin, hhas⟩ := step_origin hs hp
  refine Accountable.has ?_ hhas
  cases horigin with
  | kept hne hget => exact (h p _ hget).later _
  | @exec env t instr rest kind n hget htodo hnext =>
    have hfits := hfit p t hget
    have hacc := h p t hget
    rw [htodo] at hfits hacc
    exact (accountable_exec hfits hacc hnext).later _
  | recv hget hrecv => exact accountable_recv rfl (kindOf_eq hget) hrecv
  | @close reason kind instr rest aborted hget hsees =>
    have hkind := (hfit p _ hget).kindFits
    refine ⟨fun call hc => ((h p _ hget).later _).call call hc, fun i hi x hx => ?_⟩
    obtain ⟨hreason, l, conn, rfl, hconn, hremote⟩ := against_closed hkind hi hx
    refine ⟨⟨s, .close p reason, s', out⟩, by simp, .inr (.inr ?_)⟩
    exact ⟨l, conn, by rw [hreason], kindOf_eq hget, hconn, hremote⟩
  | drop hget => exact ⟨fun call hc => ((h p _ hget).later _).call call hc, by simp⟩
  | spawned hget hnext hmem hnew => exact accountable_spawned (next_spawn hnext hmem)
  | started hactor hstart hnew =>
    subst hnew
    exact accountable_started hstart

theorem accountable_run {ok : State Id → Act Id → Prop} {store : StoreFile} {rotated : Bool}
    {io : Io} {d : Discoverability} {relay : Option String} {tr : List (Step Id)} {s : State Id}
    (hrun : Run (machine C) ok (start C store rotated io d relay) tr s) :
    AllAccountable C tr s := by
  refine hrun.invariant_of_run (I := AllAccountable C) ?_ fun hprev h _ hs => h.step (fits_run hprev) hs
  intro p t hp
  obtain rfl := eq_of_start hp
  refine ⟨fun call hc => .inl (Kind.call.inj hc).symm, fun i hi x hx => ?_⟩
  obtain rfl := List.mem_singleton.mp hi
  exact hx.elim

/-! ### The store -/

section Store

variable {I : Iroh Id} {file : StoreFile} {io : Io} {x : Id} {e : String}

theorem loadable_updateFirst {list : List PairedDevice} {p : PairedDevice → Bool}
    {f : PairedDevice → PairedDevice} (h : x ∈ StoreFile.loadAllowed I list)
    (hid : ∀ d, (f d).endpointId = d.endpointId)
    (hconn : ∀ d, p d = true → I.fromStr d.endpointId = some x →
      (f d).pairingStatus.isConnectable = true) :
    x ∈ StoreFile.loadAllowed I (updateFirst p f list) := by
  rw [StoreFile.mem_loadAllowed] at h ⊢
  obtain ⟨d, hd, hstatus, hx⟩ := h
  cases hfound : list.find? p with
  | none =>
    rw [updateFirst_of_none hfound]
    exact ⟨d, hd, hstatus, hx⟩
  | some a =>
    rcases (mem_iff_found_or_other hfound).mp hd with rfl | hd
    · refine ⟨f d, (mem_updateFirst hfound).mpr (.inl rfl), ?_, by rw [hid, hx]⟩
      exact hconn d (List.find?_some hfound) hx
    · exact ⟨d, (mem_updateFirst hfound).mpr (.inr hd), hstatus, hx⟩

/-- Remembering a device takes nobody off the list a restart would load. -/
theorem loadable_remember {device : PairedDevice} (h : x ∈ StoreFile.loadAllowed I file.stored) :
    x ∈ StoreFile.loadAllowed I (file.remember I io device).2.stored := by
  cases hresult : file.remember I io device with
  | mk stored file' =>
    cases stored with
    | false =>
      obtain rfl := StoreFile.remember_failed I hresult
      exact h
    | true =>
      rw [StoreFile.remember_eq I hresult, StoreFile.remembered]
      split
      · exact loadable_updateFirst h (fun _ => rfl) fun _ _ _ => rfl
      · rw [StoreFile.mem_loadAllowed] at h ⊢
        obtain ⟨d, hd, hrest⟩ := h
        exact ⟨d, List.mem_append_left _ hd, hrest⟩

theorem parses_of_sameId {d : PairedDevice} (hsame : StoreFile.sameId I e d = true)
    (hx : I.fromStr d.endpointId = some x) : I.fromStr (I.toLowercase e) = some x := by
  rw [StoreFile.sameId, beq_iff_eq] at hsame
  rw [← hsame]
  exact I.fromStr_toLowercase hx

/-- Marking another id takes `x` off nothing. -/
theorem loadable_markUnpaired (h : x ∈ StoreFile.loadAllowed I file.stored)
    (hother : I.fromStr (I.toLowercase e) ≠ some x) :
    x ∈ StoreFile.loadAllowed I (file.markUnpairedRemotely I io e).2.stored := by
  cases hresult : file.markUnpairedRemotely I io e with
  | mk marked file' =>
    cases marked with
    | some device =>
      obtain ⟨-, -, -, hstored⟩ := StoreFile.markUnpairedRemotely_some I hresult
      rw [hstored]
      exact loadable_updateFirst h (fun _ => rfl) fun d hsame hx =>
        absurd (parses_of_sameId hsame hx) hother
    | none =>
      obtain rfl := StoreFile.markUnpairedRemotely_none I hresult
      exact h

theorem loadable_forget (h : x ∈ StoreFile.loadAllowed I file.stored)
    (hother : I.fromStr (I.toLowercase e) ≠ some x) :
    x ∈ StoreFile.loadAllowed I (file.forget I io e).2.stored := by
  cases hresult : file.forget I io e with
  | mk removed file' =>
    cases removed with
    | true =>
      rw [StoreFile.forget_eq I hresult]
      rw [StoreFile.mem_loadAllowed] at h ⊢
      obtain ⟨d, hd, hstatus, hx⟩ := h
      refine ⟨d, List.mem_filter.mpr ⟨hd, ?_⟩, hstatus, hx⟩
      by_contra hsame
      rw [Bool.not_eq_true, Bool.not_eq_false'] at hsame
      exact hother (parses_of_sameId hsame hx)
    | false =>
      obtain rfl := StoreFile.forget_failed I hresult
      exact h

end Store

/-! ### The theorem -/

theorem write_keeps {s : Shared Id} {kind : Kind Id} (fresh : Nat) (env : Env) {instr : Instr Id}
    {x : Id} (h : ¬ instr.Against C kind x) :
    (x ∈ s.allowed → x ∈ (write C s kind fresh env instr).allowed) ∧
    (x ∈ StoreFile.loadAllowed C.iroh s.pairedStore.stored →
      x ∈ StoreFile.loadAllowed C.iroh (write C s kind fresh env instr).pairedStore.stored) ∧
    (StoreFile.ActiveAs C.iroh s.pairedStore.stored x →
      StoreFile.ActiveAs C.iroh (write C s kind fresh env instr).pairedStore.stored x) := by
  rw [write_allowed, write_pairedStore]
  refine ⟨fun hx => ?_, fun hx => ?_, fun hx => ?_⟩
  · split
    · exact Finset.mem_insert_of_mem hx
    · exact Finset.mem_erase.mpr ⟨fun heq => h heq.symm, hx⟩
    · exact hx
  · split
    · exact loadable_remember hx
    · rename_i id
      refine loadable_markUnpaired hx fun heq => h ?_
      rw [C.iroh.toLowercase_toStr, C.iroh.fromStr_toStr] at heq
      exact Option.some.inj heq
    · rw [StoreFile.loadAllowed_touch]
      exact hx
    · exact loadable_forget hx h
    · exact loadable_markUnpaired hx h
    · exact hx
  · split
    · exact hx.remember
    · rename_i id
      refine hx.markUnpaired _ fun heq => h ?_
      rw [C.iroh.toLowercase_toStr, C.iroh.fromStr_toStr] at heq
      exact Option.some.inj heq
    · exact hx.touch
    · exact hx.forget _ h
    · exact hx.markUnpaired _ h
    · exact hx

theorem against_of_unpairs {s s' : State Id} {a : Act Id} {out : List (Out Id)} {x : Id}
    (hs : step C s a = some (s', out)) (h : Unpairs C x ⟨s, a, s', out⟩) :
    ∃ p env t instr rest, a = .exec p env ∧ s.procs[p]? = some t ∧ t.todo = instr :: rest ∧
      instr.Against C t.kind x := by
  have hsame : s'.shared ≠ s.shared := by
    intro hshared
    simp only [Unpairs, hshared] at h
    tauto
  cases step_case hs with
  | @exec p env t instr rest kind n hget htodo hnext =>
    refine ⟨p, env, t, instr, rest, rfl, hget, htodo, ?_⟩
    by_contra hnot
    obtain ⟨hallowed, hload, hactive⟩ :=
      write_keeps (s := s.shared) s.procs.length env hnot
    rcases h with ⟨hx, hgone⟩ | ⟨hx, hgone⟩ | ⟨hx, hgone⟩
    · exact hgone (hallowed hx)
    · exact hgone (hload hx)
    · exact hgone (hactive hx)
  | recv | close | drop | start => exact absurd rfl hsame

/-- In every run, whoever leaves the allowlist, the store or what a restart would load was forgotten
by the user, has said so itself, or has refused us, and the task that unpairs it is the one that was
told. -/
theorem unpairing_warranted (C : Config Id) (store : StoreFile) (rotated : Bool) (io : Io)
    (d : Discoverability) (relay : Option String) (tr : List (Step Id)) (s : State Id)
    (hrun : Run (machine C) anyStep (start C store rotated io d relay) tr s) :
    Each (fun past e => ∀ x, Unpairs C x e →
      ∃ p, e.act.actor = some p ∧ ∃ w ∈ past, Warrants C p x w) tr := by
  refine hrun.invariant_of_run (I := fun tr _ => Each _ tr) .nil fun {tr s s' a out} hprev hI _ hs => ?_
  refine hI.snoc fun x hx => ?_
  obtain ⟨p, env, t, instr, rest, rfl, hget, htodo, hagainst⟩ := against_of_unpairs hs hx
  exact ⟨p, rfl, (accountable_run hprev p t hget).warranted instr (by rw [htodo]; simp) x hagainst⟩

/-! ### Bob forgets Alice -/

/-- Bob's session is task 2 and reads his `Forget`. -/
def bobForgets : List (Act Key) :=
  supervisor ++ .connect ⟨.bob, 5⟩ :: go 2 4 ++ .recv 2 (.forget (Key.bob.sign 5)) :: go 2 8

/-- The theorem applies to a run in which Bob is unpaired. -/
theorem unpairing_warranted_bobForgets : ∃ tr s,
    Run (machine alice) anyStep (aliceStart (.devices [recordOf .bob])) tr s ∧
      s.shared.allowed = ∅ ∧ Each (fun past e => ∀ x, Unpairs alice x e →
        ∃ p, e.act.actor = some p ∧ ∃ w ∈ past, Warrants alice p x w) tr := by
  obtain ⟨tr, s, hrun, htest⟩ := Run.of_check (machine alice) anyStep
    (aliceStart (.devices [recordOf .bob])) bobForgets (fun _ s => s.shared.allowed = ∅)
    (by decide +kernel)
  exact ⟨tr, s, hrun, of_decide_eq_true htest,
    unpairing_warranted alice _ false ⟨true, true⟩ .everyone none tr s hrun⟩

end DashBeam.Node

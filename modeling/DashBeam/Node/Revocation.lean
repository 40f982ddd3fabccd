import DashBeam.Node.Alice
import DashBeam.Node.InviteAnswers

/-!
# Revocation

After a peer was forgotten, or has said that it forgot us, none of its messages should be handled as
those of a paired peer until it is paired again. A session decides whether its peer is paired when
its connection is accepted, and later only upgrades; revoking a peer closes none of its other
connections. So the property holds over the runs in which the peer is a stranger to every task when
the revocation is complete (`Stranger`), and no pairing-host session reads a message that it would
handle as one of a paired peer (`revoked_unprivileged`): a stranger stays one until it is paired.
-/

namespace DashBeam.Node

open Protocol Native Lib

set_option linter.unusedSectionVars false

variable {Id : Type} [DecidableEq Id] {C : Config Id}

/-! ### The property -/

/-- The peer whose revocation is complete with this step: `forget_paired` returns, or a session has
applied the peer's `Forget`. A connect loop goes on to drop its session only after a `Forget`, not
after a refused `Recognition`. -/
def revocation (C : Config Id) (s : State Id) : Act Id → Option Id
  | .exec p _ =>
    match s.procs[p]? with
    | some ⟨.call (.forgetPaired e), .common (.ret .ok) :: _, _⟩ => C.iroh.fromStr e
    | some ⟨.control c, .common (.emit (.deviceUnpaired ..)) :: _, _⟩ => some c.conn.remote
    | some ⟨.host h, .common (.emit (.deviceUnpaired ..)) :: _, _⟩ => some h.conn.remote
    | some ⟨.connect _, .common (.emit (.deviceUnpaired ..)) ::
        .common (.removeSessionIf _ conn) :: _, _⟩ => some conn.remote
    | _ => none
  | _ => none

def Revokes (C : Config Id) (x : Id) (e : Step Id) : Prop := revocation C e.pre e.act = some x

/-- The step pairs the peer again: it stores an active record of it or puts it on the allowlist. -/
def pairs (C : Config Id) (s : State Id) (a : Act Id) : Option Id :=
  match doing s a with
  | some (.common (.allow y), _) => some y
  | some (.common (.remember _ device), env) =>
    if (s.shared.pairedStore.remember C.iroh env.io device).1 then
      C.iroh.fromStr (C.key device.endpointId)
    else none
  | _ => none

def Pairs (C : Config Id) (x : Id) (e : Step Id) : Prop := pairs C e.pre e.act = some x

/-- The step does nothing for `x` that only a paired peer may have done: an invite of `x` that is
surfaced was charged to its bucket, no task that serves a connection of `x` sets anyone's presence to
true, no session of `x` is registered, and an answer of `x` that is surfaced is to a pending invite. -/
structure Unprivileged (C : Config Id) (x : Id) (past : List (Step Id)) (e : Step Id) : Prop where
  invite : ∀ p ticket count size name, e.act.actor = some p →
    .event (.pairedInviteReceived (C.iroh.toStr x) ticket count size name) ∈ e.out →
    ∃ conn : Conn Id, conn.remote = x ∧ Since (Charges C p conn) (Reads p) past
  presence : ∀ p key, e.act.actor = some p → (kindOf e.pre p).bind Kind.remote = some x →
    (doing e.pre e.act).map (·.1) ≠ some (.common (.setPresence key true))
  session : ∀ key conn, (doing e.pre e.act).map (·.1) = some (.common (.insertSession key conn)) →
    conn.remote ≠ x
  answer : ∀ p, SurfacesAnswer C p x e → Since (TakesInvite C p x) (SurfacesAnswer C p x) past

/-- From its revocation on, and until it is paired again, a peer has no privileges. -/
def RevokedUnprivileged (C : Config Id) (tr : List (Step Id)) : Prop :=
  Each (fun past e => ∀ x, Since (Revokes C x) (Pairs C x) past → Unprivileged C x past e) tr

/-! ### Strangers -/

/-- What is done for a paired peer. -/
def Instr.privileged : Instr Id → Bool
  | .common (.insertSession ..) | .common (.setPresence _ true)
  | .common (.emit (.pairedInviteReceived ..)) | .common (.emitInviteResponse ..) => true
  | _ => false

/-- A session that has this to do is still open, or about to do something for a paired peer. -/
def Instr.listens : Instr Id → Bool
  | .common .read | .connect .dial | .connect (.unpairGet _ (.forgetReceived _))
  | .connect (.unpairMark _ (.forgetReceived _)) | .control (.recheckAllowed _)
  | .control (.chargeToken _) | .control .answerIdentity | .control .registerInbound
  | .control (.takePending _) => true
  | i => i.privileged

/-- The task does nothing for `x` as for a paired peer, now or later: a control session counts it as
unpaired or has ended, and so has a connect loop; a pairing-host session has nothing of the kind to
do. -/
def Task.Ignores (C : Config Id) (x : Id) (kind : Kind Id) (todo : List (Instr Id)) : Prop :=
  match kind with
  | .control c => c.conn.remote = x → c.peerIsPaired = false ∨ ∀ i ∈ todo, i.listens = false
  | .host h => h.conn.remote = x → ∀ i ∈ todo, i.privileged = false
  | .connect l => C.iroh.fromStr l.endpointId = some x → ∀ i ∈ todo, i.listens = false
  | _ => True

instance (x : Id) (kind : Kind Id) (todo : List (Instr Id)) :
    Decidable (Task.Ignores C x kind todo) := by
  unfold Task.Ignores
  split <;> infer_instance

/-- The peer is not allowed, has no active record, and no task takes it for paired. -/
def Stranger (C : Config Id) (s : State Id) (x : Id) : Prop :=
  x ∉ s.shared.allowed ∧ ¬ StoreFile.ActiveAs C.iroh s.shared.pairedStore.stored x ∧
    ∀ t ∈ s.procs, Task.Ignores C x t.kind t.todo

instance (s : State Id) (x : Id) : Decidable (Stranger C s x) :=
  inferInstanceAs (Decidable (_ ∧ _ ∧ _))

/-- The remote of a pairing-host session that reads a message it handles as one of a paired peer. -/
def hostReads (s : State Id) : Act Id → Option Id
  | .recv p (.recognition _) | .recv p (.inviteResponse ..) =>
    match kindOf s p with
    | some (.host h) => some h.conn.remote
    | _ => none
  | _ => none

/-- A peer is a stranger when its revocation is complete, and a pairing-host session reads a
`Recognition` or an answer only from a peer on the allowlist. -/
def RevokesStrangers (C : Config Id) (s : State Id) (a : Act Id) : Prop :=
  (∀ x ∈ revocation C s a, Stranger C s x) ∧ ∀ x ∈ hostReads s a, x ∈ s.shared.allowed

instance (s : State Id) (a : Act Id) : Decidable (RevokesStrangers C s a) :=
  inferInstanceAs (Decidable (_ ∧ _))

/-! ### What leads to a privilege -/

section Next

variable {s : Shared Id} {fresh : Nat} {env : Env}

theorem privileged_of_listens {i : Instr Id} (h : i.listens = false) : i.privileged = false := by
  unfold Instr.listens at h
  split at h <;> first | exact h | cases h

theorem listens_append {push rest : List (Instr Id)} (hpush : push.any Instr.listens = false)
    (hrest : ∀ i ∈ rest, i.listens = false) : ∀ i ∈ push ++ rest, i.listens = false := by
  intro i hi
  rcases List.mem_append.mp hi with hi | hi
  · simpa using List.any_eq_false.mp hpush i hi
  · exact hrest i hi

theorem listens_nextCommon {instr : CommonInstr Id} :
    (nextCommon C s fresh env instr).push.any Instr.listens = false :=
  List.any_eq_false.mpr fun i hi => by cases commonPush_next hi <;> exact Bool.false_ne_true

theorem listens_leaveSession {c : ControlSession Id} :
    (leaveSession C c).any Instr.listens = false := by
  unfold leaveSession
  split <;> rfl

theorem listens_nextControl {c : ControlSession Id} {instr : ControlInstr}
    (h : (Instr.control instr : Instr Id).listens = false) :
    (nextControl C s c env instr).2.push.any Instr.listens = false := by
  cases instr with
  | hangUp => exact listens_leaveSession
  | commitNearby | emitPairedName => rfl
  | recheckAllowed | chargeToken | answerIdentity | registerInbound | takePending => cases h

/-- A connect loop that does not listen does not dial, as long as there is no active record of the
id it was started for. -/
theorem listens_nextConnect {l : ConnectLoop Id} {instr : ConnectInstr Id} {x : Id}
    (hx : C.iroh.fromStr l.endpointId = some x)
    (hstored : ¬ StoreFile.ActiveAs C.iroh s.pairedStore.stored x)
    (h : (Instr.connect instr : Instr Id).listens = false) :
    (nextConnect C s l env instr).2.push.any Instr.listens = false := by
  cases instr with
  | loopTop =>
    simp only [nextConnect]
    split
    · rename_i device hget
      rw [StoreFile.not_active_of_get C.iroh hx hstored hget]
      rfl
    · rfl
  | dial => cases h
  | settling =>
    simp only [nextConnect]
    split
    · split <;> rfl
    · rfl
  | unpairGet e cause =>
    cases cause with
    | forgetReceived => cases h
    | recognitionRefused =>
      simp only [nextConnect]
      split
      · split <;> rfl
      · rfl
  | unpairMark e cause =>
    cases cause with
    | forgetReceived => cases h
    | recognitionRefused =>
      simp only [nextConnect, unpairEffects]
      split
      · split <;> rfl
      · rfl

theorem privileged_nextHost {h : HostSession Id} {instr : HostInstr} :
    (nextHost C s h env instr).push.any Instr.privileged = false := by
  cases instr with
  | hostHello | loadPersistent =>
    simp only [nextHost]
    split <;> rfl
  | hostInvite | hostRecord | hostVote => rfl

theorem privileged_receiveHost {h : HostSession Id} {msg : ControlMessage}
    (hrecognition : ∀ signature, msg ≠ .recognition signature)
    (hanswer : ∀ id response, msg ≠ .inviteResponse id response) :
    (receiveHost C h msg).2.any Instr.privileged = false := by
  refine List.any_eq_false.mpr fun i hi => ?_
  cases hostReceives_of_mem hi with
  | answer heq => exact absurd heq (hanswer _ _)
  | presence heq => exact absurd heq (hrecognition _)
  | read | record | invite | touch | forgotten => exact Bool.false_ne_true

end Next

/-! ### A stranger stays one -/

theorem ignores_nil {x : Id} {kind : Kind Id} : Task.Ignores C x kind [] := by
  unfold Task.Ignores
  split <;> simp

theorem Task.Ignores.has {x : Id} {kind : Kind Id} {todo : List (Instr Id)} {t : Task Id}
    (h : Task.Ignores C x kind todo) (hhas : t.Has kind todo) :
    Task.Ignores C x t.kind t.todo := by
  obtain ⟨rfl, htodo | ⟨htodo, -⟩⟩ := hhas
  · rw [htodo]
    exact h
  · rw [htodo]
    exact ignores_nil

/-- The connection of a stranger is accepted as one of an unpaired peer. -/
theorem ignores_accept {x : Id} {s : Shared Id} {conn : Conn Id} {env : Env}
    (hx : x ∉ s.allowed) (instr : AcceptInstr) :
    Task.Ignores C x (nextAccept C s conn env instr).1 (nextAccept C s conn env instr).2.push := by
  cases instr with
  | acceptAllowed pairingHostOpen window =>
    simp only [nextAccept]
    split
    · rename_i hmem
      rintro rfl
      exact absurd hmem hx
    · split
      · exact fun _ => .inl rfl
      · intro _
        simp [Instr.privileged]
  | hookBlocked | hookDirectPath =>
    simp only [nextAccept]
    split <;> trivial
  | hookAccess =>
    simp only [nextAccept]
    split
    · trivial
    · split <;> trivial
  | acceptWindow => trivial

theorem ignores_exec {tr : List (Step Id)} {p : Nat} {s : Shared Id} {x : Id} {kind kind' : Kind Id}
    {fresh : Nat} {env : Env} {instr : Instr Id} {rest : List (Instr Id)} {n : Next Id}
    (hallowed : x ∉ s.allowed) (hstored : ¬ StoreFile.ActiveAs C.iroh s.pairedStore.stored x)
    (hfit : TaskFits C kind (instr :: rest)) (hsession : SessionOk C tr p kind (instr :: rest))
    (h : Task.Ignores C x kind (instr :: rest))
    (hnext : next C s kind fresh env instr = some (kind', n)) :
    Task.Ignores C x kind' (n.push ++ rest) := by
  have hk := next_kind hnext
  have hfits := hfit.fits instr (by simp)
  cases kind with
  | inbound conn =>
    obtain ⟨i, rfl, rfl⟩ := hfit.inbound
    cases next_case hnext with
    | accept hc =>
      cases hc
      rw [List.append_nil]
      exact ignores_accept hallowed i
  | control c =>
    obtain ⟨c', hkind', hstep⟩ := hk
    suffices hc' : c.conn.remote = x → c'.peerIsPaired = false ∨
        ∀ i ∈ n.push ++ rest, i.listens = false by
      rw [hkind']
      simpa [Task.Ignores, hstep.conn] using hc'
    intro hx
    rcases h hx with hc | hquiet
    · -- it would be found on the allowlist only if it were there
      have hreg : c.registered = false := by
        by_contra hreg
        have hpaired := hsession.1 (by simpa using hreg)
        rw [hc] at hpaired
        cases hpaired
      rcases next_permitted hc hreg (hsession.2 hc instr (by simp)) hnext with
        ⟨hsame, -⟩ | ⟨msg, c'', -, hmem, -⟩
      · obtain rfl := Kind.control.inj (hkind'.symm.trans hsame)
        exact .inl hc
      · rw [hx] at hmem
        exact absurd hmem hallowed
    · refine .inr (listens_append ?_ fun i hi => hquiet i (by simp [hi]))
      have hinstr := hquiet instr (by simp)
      cases next_case hnext with
      | common => exact listens_nextCommon
      | control hc =>
        cases hc
        exact listens_nextControl hinstr
      | service | window | lan => exact hfits.elim
      | accept hc | host hc | connect hc => cases hc
  | host c =>
    have hpush : n.push.any Instr.privileged = false := by
      cases next_case hnext with
      | common =>
        rw [List.any_eq_false]
        intro i hi
        have hlistens := List.any_eq_false.mp (listens_nextCommon (C := C)) i hi
        simpa using privileged_of_listens (by simpa using hlistens)
      | host hc => exact privileged_nextHost
      | @window instr =>
        cases instr with
        | closeWindow => rfl
        | _ => exact hfits.elim
      | service | lan => exact hfits.elim
      | accept hc | control hc | connect hc => cases hc
    cases hk
    intro hx i hi
    rcases List.mem_append.mp hi with hi | hi
    · simpa using List.any_eq_false.mp hpush i hi
    · exact h hx i (by simp [hi])
  | connect l =>
    obtain ⟨l', hkind', hid⟩ := hk
    suffices hl' : C.iroh.fromStr l.endpointId = some x →
        ∀ i ∈ n.push ++ rest, i.listens = false by
      rw [hkind']
      simpa [Task.Ignores, hid] using hl'
    intro hx
    have hquiet := h hx
    refine listens_append ?_ fun i hi => hquiet i (by simp [hi])
    have hinstr := hquiet instr (by simp)
    cases next_case hnext with
    | common => exact listens_nextCommon
    | connect hc =>
      cases hc
      exact listens_nextConnect hx hstored hinstr
    | service | window | lan => exact hfits.elim
    | accept hc | control hc | host hc => cases hc
  | call | expiry | lan | background =>
    cases hk
    trivial

theorem ignores_recv {s : State Id} {p : Nat} {x : Id} {kind kind' : Kind Id}
    {rest todo : List (Instr Id)} {msg : ControlMessage} (hkind : kindOf s p = some kind)
    (hallowed : x ∉ s.shared.allowed)
    (hok : ∀ y ∈ hostReads s (.recv p msg), y ∈ s.shared.allowed)
    (h : Task.Ignores C x kind (.common .read :: rest))
    (hrecv : received C kind msg = some (kind', todo)) : Task.Ignores C x kind' todo := by
  -- what still reads is not a paired session of the peer
  have hread : ¬ ∀ i ∈ (Instr.common .read :: rest : List (Instr Id)), i.listens = false := by
    intro hquiet
    have := hquiet (.common .read) (by simp)
    cases this
  cases received_case hrecv with
  | control c =>
    intro hx
    rw [(sessionStep_receiveControl c msg).conn] at hx
    rcases h hx with hc | hquiet
    · left
      simp only [receiveControl, hc, Bool.false_eq_true, if_false]
      split <;> exact hc
    · exact absurd hquiet hread
  | host c =>
    intro hx
    have hconn : (receiveHost C c msg).1.conn = c.conn := by
      cases msg with
      | pairingInfo =>
        simp only [receiveHost]
        split
        · rfl
        · split <;> rfl
      | recognition | forget =>
        simp only [receiveHost]
        split <;> rfl
      | _ => rfl
    rw [hconn] at hx
    have hnot : ∀ y ∈ hostReads s (.recv p msg), y ≠ x := by
      rintro y hy rfl
      exact hallowed (hok y hy)
    have hnone : (receiveHost C c msg).2.any Instr.privileged = false :=
      privileged_receiveHost
        (fun signature heq => hnot c.conn.remote (by rw [heq, hostReads, hkind]; rfl) hx)
        (fun id response heq => hnot c.conn.remote (by rw [heq, hostReads, hkind]; rfl) hx)
    intro i hi
    simpa using List.any_eq_false.mp hnone i hi
  | connect hconn =>
    intro hx
    exact absurd (h hx) hread

theorem ignores_close {x : Id} {kind : Kind Id} {reason : String} :
    Task.Ignores C x kind (closedTodo C kind reason) := by
  have hnone : ∀ {todo : List (Instr Id)}, todo.any Instr.listens = false →
      ∀ i ∈ todo, i.listens = false := by
    intro todo h i hi
    simpa using List.any_eq_false.mp h i hi
  cases kind with
  | control c => exact fun _ => .inr (hnone listens_leaveSession)
  | host c =>
    intro _ i hi
    refine privileged_of_listens (hnone ?_ i hi)
    simp only [closedTodo]
    split <;> rfl
  | connect l =>
    refine fun _ => hnone ?_
    simp only [closedTodo]
    split
    · split <;> rfl
    · rfl
  | inbound | call | expiry | lan | background => trivial

/-- Whoever has no active record gets one only by being stored again. -/
theorem activeAs_step {s s' : State Id} {a : Act Id} {out : List (Out Id)} {x : Id}
    (hs : step C s a = some (s', out)) (hpairs : pairs C s a ≠ some x)
    (h : StoreFile.ActiveAs C.iroh s'.shared.pairedStore.stored x) :
    StoreFile.ActiveAs C.iroh s.shared.pairedStore.stored x := by
  rcases step_shared hs with ⟨hsame, -⟩ | ⟨p, env, t, instr, rest, kind, n, rfl, hget, htodo, -, hw, -⟩
  · rwa [hsame] at h
  · rw [hw, write_pairedStore] at h
    split at h
    · rename_i flow device
      rw [pairs, doing_exec hget htodo] at hpairs
      cases hresult : s.shared.pairedStore.remember C.iroh env.io device with
      | mk stored file =>
        rw [hresult] at h
        simp only [hresult] at hpairs
        cases stored with
        | true =>
          rw [if_pos rfl] at hpairs
          rw [StoreFile.remember_eq C.iroh hresult] at h
          exact StoreFile.activeAs_remembered C.iroh hpairs h
        | false =>
          obtain rfl := StoreFile.remember_failed C.iroh hresult
          exact h
    · exact StoreFile.activeAs_markUnpaired C.iroh h
    · exact StoreFile.activeAs_touch C.iroh h
    · exact StoreFile.activeAs_forget C.iroh h
    · exact StoreFile.activeAs_markUnpaired C.iroh h
    · exact h

theorem allowed_step {s s' : State Id} {a : Act Id} {out : List (Out Id)} {x : Id}
    (hs : step C s a = some (s', out)) (hpairs : pairs C s a ≠ some x)
    (h : x ∈ s'.shared.allowed) : x ∈ s.shared.allowed := by
  rcases step_shared hs with ⟨hsame, -⟩ | ⟨p, env, t, instr, rest, kind, n, rfl, hget, htodo, -, hw, -⟩
  · rwa [hsame] at h
  · rw [hw, write_allowed] at h
    split at h
    · rename_i y
      rcases Finset.mem_insert.mp h with rfl | h
      · rw [pairs, doing_exec hget htodo] at hpairs
        exact absurd rfl hpairs
      · exact h
    · exact Finset.mem_of_mem_erase h
    · exact h

theorem Stranger.step {tr : List (Step Id)} {s s' : State Id} {a : Act Id} {out : List (Out Id)}
    {x : Id} (h : Stranger C s x) (hfits : AllFit C s) (hunpaired : UnpairedInv C tr s)
    (hok : ∀ y ∈ hostReads s a, y ∈ s.shared.allowed) (hpairs : pairs C s a ≠ some x)
    (hs : Node.step C s a = some (s', out)) : Stranger C s' x := by
  obtain ⟨hallowed, hstored, htasks⟩ := h
  refine ⟨fun hx => hallowed (allowed_step hs hpairs hx),
    fun hx => hstored (activeAs_step hs hpairs hx), fun t' ht' => ?_⟩
  obtain ⟨q, hq⟩ := List.getElem?_of_mem ht'
  obtain ⟨kind, todo, horigin, hhas⟩ := step_origin hs hq
  refine Task.Ignores.has ?_ hhas
  cases horigin with
  | kept hne hget => exact htasks _ (List.mem_of_getElem? hget)
  | @exec env t instr rest kind n hget htodo hnext =>
    have hfit := hfits q t hget
    have hsession := hunpaired.session q t hget
    have hignores := htasks t (List.mem_of_getElem? hget)
    rw [htodo] at hfit hsession hignores
    exact ignores_exec hallowed hstored hfit hsession hignores hnext
  | recv hget hrecv =>
    exact ignores_recv (kindOf_eq hget) hallowed hok (htasks _ (List.mem_of_getElem? hget)) hrecv
  | close hget hsees => exact ignores_close
  | drop hget => exact ignores_nil
  | spawned hget hnext hmem hnew =>
    cases next_spawn hnext hmem with
    | connect device =>
      intro _
      simp [connectTask, Instr.listens, Instr.privileged]
    | notify | probe | expiry => trivial
  | @started a t hactor hstart hnew =>
    cases started_case hstart with
    | connect | call | appeared | vanished => trivial

/-! ### Nothing is done for a stranger -/

/-- The task serves a connection of `x`, or is a connect loop started for `x`. -/
def Kind.Serves (C : Config Id) (x : Id) (kind : Kind Id) : Prop :=
  kind.remote = some x ∨ ∃ l, kind = .connect l ∧ C.iroh.fromStr l.endpointId = some x

def Instr.IsFor (C : Config Id) (x : Id) : Instr Id → Prop
  | .common (.insertSession _ conn) => conn.remote = x
  | .common (.emit (.pairedInviteReceived r ..)) | .common (.emitInviteResponse r ..) =>
    r = C.iroh.toStr x
  | _ => False

/-- A task gives its privileges to the peer it serves. -/
theorem serves_of_isFor {x : Id} {kind : Kind Id} {instr : Instr Id} (hfits : Fits C kind instr)
    (hfor : instr.IsFor C x) : kind.Serves C x := by
  unfold Instr.IsFor at hfor
  split at hfor
  · rename_i key conn
    cases kind with
    | control c =>
      obtain ⟨-, rfl⟩ := hfits
      exact .inl (congrArg some hfor)
    | host c =>
      obtain ⟨-, rfl⟩ := hfits
      exact .inl (congrArg some hfor)
    | connect l =>
      obtain ⟨-, hparse⟩ := hfits
      exact .inr ⟨l, rfl, by rw [hparse, hfor]⟩
    | inbound | call | expiry | lan | background => exact hfits.elim
  case h_2 | h_3 =>
    -- an event that names the peer
    cases kind with
    | control c | host c =>
      obtain rfl := C.iroh.toStr_injective (hfits.symm.trans hfor)
      exact .inl rfl
    | connect l =>
      obtain ⟨y, hparse, hy⟩ := hfits
      obtain rfl := C.iroh.toStr_injective (hy.symm.trans hfor)
      exact .inr ⟨l, rfl, hparse⟩
    | inbound | call | expiry | lan | background => exact hfits.elim
  · exact hfor.elim

/-- Only a control session that counts a stranger as unpaired has anything of the kind to do for
it. -/
theorem unpaired_of_privileged {x : Id} {t : Task Id} {instr : Instr Id} {rest : List (Instr Id)}
    (hfit : TaskFits C t.kind t.todo) (h : Task.Ignores C x t.kind t.todo)
    (htodo : t.todo = instr :: rest) (hinstr : instr.privileged = true)
    (hserves : t.kind.Serves C x) :
    ∃ c, t.kind = .control c ∧ c.conn.remote = x ∧ c.peerIsPaired = false := by
  have hmem : instr ∈ t.todo := by simp [htodo]
  have hlistens : instr.listens = true := by
    by_contra hnot
    rw [privileged_of_listens (by simpa using hnot)] at hinstr
    cases hinstr
  cases hkind : t.kind with
  | control c =>
    rw [hkind] at h hserves
    rcases hserves with hx | ⟨l, hl, -⟩
    · have hx : c.conn.remote = x := Option.some.inj hx
      rcases h hx with hc | hquiet
      · exact ⟨c, rfl, hx, hc⟩
      · rw [hquiet instr hmem] at hlistens
        cases hlistens
    · cases hl
  | host c =>
    rw [hkind] at h hserves
    rcases hserves with hx | ⟨l, hl, -⟩
    · rw [h (Option.some.inj hx) instr hmem] at hinstr
      cases hinstr
    · cases hl
  | connect l =>
    rw [hkind] at h hserves hfit
    have hx : C.iroh.fromStr l.endpointId = some x := by
      rcases hserves with hx | ⟨l', hl, hx⟩
      · obtain ⟨conn, hconn, rfl⟩ := Option.map_eq_some_iff.mp hx
        exact hfit.kindFits conn hconn
      · cases hl
        exact hx
    rw [h hx instr hmem] at hlistens
    cases hlistens
  | inbound conn =>
    rw [hkind] at hfit
    have hfits := hfit.fits instr hmem
    cases instr with
    | accept => cases hinstr
    | _ => exact hfits.elim
  | call | expiry | lan | background =>
    rw [hkind] at hserves
    rcases hserves with hx | ⟨l, hl, -⟩
    · cases hx
    · cases hl

theorem unprivileged_step {tr : List (Step Id)} {s s' : State Id} {a : Act Id}
    {out : List (Out Id)} {x : Id} (h : Stranger C s x) (hfits : AllFit C s)
    (hunpaired : UnpairedInv C tr s) (hanswers : AnswersInv C (fun _ => True) tr s)
    (hs : step C s a = some (s', out)) : Unprivileged C x tr ⟨s, a, s', out⟩ := by
  obtain ⟨hallowed, -, htasks⟩ := h
  -- whatever is done for the peer is done by a session that counts it as unpaired
  have hsession : ∀ {p : Nat} {t : Task Id} {instr : Instr Id} {rest : List (Instr Id)},
      s.procs[p]? = some t → t.todo = instr :: rest → instr.privileged = true →
      t.kind.Serves C x → ∃ c, t.kind = .control c ∧ c.conn.remote = x ∧ c.peerIsPaired = false ∧
        Permitted (Since (Charges C p c.conn) (Reads p) tr)
          (Since (ConsumesInvite C p c.conn) (Reads p) tr) instr := by
    intro p t instr rest hget htodo hinstr hserves
    obtain ⟨c, hkind, hx, hc⟩ := unpaired_of_privileged (hfits p t hget)
      (htasks t (List.mem_of_getElem? hget)) htodo hinstr hserves
    have hok := hunpaired.session p t hget
    rw [hkind, htodo] at hok
    exact ⟨c, hkind, hx, hc, hok.2 hc instr (by simp)⟩
  constructor
  · intro p ticket count size name hactor ho
    obtain ⟨env, t, instr, rest, kind, n, rfl, hget, htodo, hnext, -, rfl⟩ :=
      exec_of_effect hs hactor (.inr (List.ne_nil_of_mem ho))
    have hfit := hfits.head hget htodo
    cases event_case hnext ho with
    | emit =>
      obtain ⟨c, -, hx, -, hcharged⟩ := hsession hget htodo rfl (serves_of_isFor hfit rfl)
      exact ⟨c.conn, hx, hcharged⟩
    | hostInvite hkind hmem =>
      rw [hkind] at hfit
      obtain rfl := C.iroh.toStr_injective hfit
      exact absurd hmem hallowed
  · intro p key hactor hserves hdoing
    obtain ⟨p, env, t, rest, rfl, hget, htodo⟩ := exists_of_doing hdoing
    obtain rfl := Option.some.inj hactor
    rw [kindOf_eq hget, Option.bind_some] at hserves
    obtain ⟨c, -, -, -, hperm⟩ := hsession hget htodo rfl (.inl hserves)
    exact hperm.elim
  · rintro key conn hdoing rfl
    obtain ⟨p, env, t, rest, rfl, hget, htodo⟩ := exists_of_doing hdoing
    have hfit := hfits.head hget htodo
    obtain ⟨c, -, -, -, hperm⟩ := hsession hget htodo rfl (serves_of_isFor hfit rfl)
    exact hperm.elim
  · rintro p ⟨hactor, name, r, ho⟩
    obtain ⟨env, t, instr, rest, kind, n, rfl, hget, htodo, hnext, -, rfl⟩ :=
      exec_of_effect hs hactor (.inr (List.ne_nil_of_mem ho))
    have hfit := hfits.head hget htodo
    obtain ⟨fallback, rfl⟩ := eq_emitInviteResponse hfit hnext ho
    obtain ⟨c, hkind, hx, hc, -⟩ := hsession hget htodo rfl (serves_of_isFor hfit rfl)
    have hans := hanswers p t hget
    rw [hkind, htodo] at hans
    simp only [AnswerOk, hc, Bool.false_eq_true, if_false] at hans
    rw [← hx]
    exact hans.2 _ (List.mem_cons_self ..) rfl

theorem pairs_of_revocation {s : State Id} {a : Act Id} {x : Id} (h : revocation C s a = some x) :
    pairs C s a = none := by
  cases a with
  | exec p env =>
    simp only [revocation] at h
    split at h
    · rename_i hget
      rw [pairs, doing_exec hget rfl]
    · rename_i hget
      rw [pairs, doing_exec hget rfl]
    · rename_i hget
      rw [pairs, doing_exec hget rfl]
    · rename_i hget
      rw [pairs, doing_exec hget rfl]
    · cases h
  | recv | close | drop | connect | call | lan => cases h

/-- In every run in which a peer is a stranger to every task when its revocation is complete, and
pairing-host sessions read what they handle as a paired peer's only from allowed peers, a revoked
peer has no privileges until it is paired again. -/
theorem revoked_unprivileged (C : Config Id) (store : StoreFile) (rotated : Bool) (io : Io)
    (d : Discoverability) (relay : Option String) (tr : List (Step Id)) (s : State Id)
    (hrun : Run (machine C) (RevokesStrangers C) (start C store rotated io d relay) tr s) :
    RevokedUnprivileged C tr := by
  have hinv : (∀ x, Since (Revokes C x) (Pairs C x) tr → Stranger C s x) ∧
      RevokedUnprivileged C tr := by
    refine hrun.invariant_of_run (I := fun tr s =>
      (∀ x, Since (Revokes C x) (Pairs C x) tr → Stranger C s x) ∧ RevokedUnprivileged C tr)
      ⟨fun x h => absurd h Since.not_nil, .nil⟩ ?_
    rintro tr s s' a out hprev ⟨h, hunprivileged⟩ hok (hs : step C s a = some (s', out))
    have hfits := fits_run hprev
    have hunpaired := unpairedInv_run hprev
    refine ⟨fun x hsince => ?_, hunprivileged.snoc fun x hsince =>
      unprivileged_step (h x hsince) hfits hunpaired (answersInv_run hprev) hs⟩
    rcases Since.snoc_iff.mp hsince with hrevokes | ⟨hbefore, hpairs⟩
    · -- the step that completes the revocation pairs no one
      refine (hok.1 x hrevokes).step hfits hunpaired hok.2 ?_ hs
      rw [pairs_of_revocation hrevokes]
      simp
    · exact (h x hbefore).step hfits hunpaired hok.2 hpairs hs
  exact hinv.2

/-! ### Bob keeps his session -/

/-- Bob, who is paired, has connected when Alice forgets him; then he sends an invite. -/
def forgottenWhileConnected : List (Act Key) :=
  supervisor ++ .connect ⟨.bob, 8⟩ :: go 2 4 ++ forgotten 3 .bob ++
    [.recv 2 (.invite "ticket" 1 10 "Bob")] ++ go 2 2

/-- The session counts him as paired, and is registered. -/
theorem registers_forgotten : ¬ ∀ tr s,
    Run (machine alice) anyStep (aliceStart (.devices [recordOf .bob])) tr s →
      RevokedUnprivileged alice tr := by
  intro hclaim
  obtain ⟨tr, s, hrun, htest⟩ := Run.of_check (machine alice) anyStep
    (aliceStart (.devices [recordOf .bob])) forgottenWhileConnected (fun tr _ =>
      (∃ e ∈ tr.getLast?, (doing e.pre e.act).map (·.1) =
        some (.common (.insertSession Key.bob.hex ⟨.bob, 8⟩))) ∧
      (∃ e ∈ tr.dropLast, revocation alice e.pre e.act = some .bob) ∧
      ∀ e ∈ tr.dropLast, pairs alice e.pre e.act ≠ some .bob) (by decide +kernel)
  obtain ⟨⟨e, he, hinsert⟩, ⟨e', he', hrevokes⟩, hnone⟩ := of_decide_eq_true htest
  obtain ⟨before, after, hpast⟩ := List.append_of_mem he'
  have hsince : Since (Revokes alice .bob) (Pairs alice .bob) tr.dropLast :=
    ⟨before, e', after, hpast, hrevokes, fun y hy => hnone y (by rw [hpast]; simp [hy])⟩
  have hunprivileged := hclaim tr s hrun tr.dropLast e []
    (List.dropLast_append_getLast? e he).symm .bob hsince
  exact hunprivileged.session _ _ hinsert rfl

/-- Alice forgets Bob, who is not connected; then he connects and sends an invite. -/
def forgottenThenConnected : List (Act Key) :=
  supervisor ++ forgotten 2 .bob ++ accepted 4 .bob 9 ++
    [.recv 4 (.invite "ticket" 1 10 "Bob")] ++ go 4 2

/-- The theorem applies to a run in which a forgotten peer's invite is surfaced, at the price of a
token. -/
theorem revoked_unprivileged_forgottenThenConnected :
    ∃ tr s, Run (machine alice) (RevokesStrangers alice)
        (aliceStart (.devices [recordOf .bob])) tr s ∧
      (∃ e ∈ tr, revocation alice e.pre e.act = some .bob) ∧
      (∃ e ∈ tr.getLast?, .event (.pairedInviteReceived Key.bob.hex "ticket" 1 10 "Bob") ∈ e.out) ∧
      RevokedUnprivileged alice tr := by
  obtain ⟨tr, s, hrun, htest⟩ := Run.of_check (machine alice) (RevokesStrangers alice)
    (aliceStart (.devices [recordOf .bob])) forgottenThenConnected (fun tr _ =>
      (∃ e ∈ tr, revocation alice e.pre e.act = some .bob) ∧
      ∃ e ∈ tr.getLast?, .event (.pairedInviteReceived Key.bob.hex "ticket" 1 10 "Bob") ∈ e.out)
    (by decide +kernel)
  obtain ⟨hrevoked, hinvite⟩ := of_decide_eq_true htest
  exact ⟨tr, s, hrun, hrevoked, hinvite, revoked_unprivileged alice (.devices [recordOf .bob]) false
    ⟨true, true⟩ .everyone none tr s hrun⟩

end DashBeam.Node

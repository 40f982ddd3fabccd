import DashBeam.Node.Alice
import DashBeam.Node.Faithful

/-!
# Refusals of a settling pairing

Each side of a pairing stores it on its own, so a connect loop that is refused as unpaired soon after
the pairing was stored does not take that as an unpair. It judges by the `paired_at` of the record,
and marks the record in a later critical section. A record that is stored again keeps its `paired_at`.
So a pairing outlives the refusals of its first seconds in the runs in which every pairing is stored
afresh, with the time at which it is stored, and while no loop stands between its judgement and the
mark (`settling_kept`).
-/

namespace DashBeam.Node

open Protocol Native Lib

set_option linter.unusedSectionVars false

variable {Id : Type} [DecidableEq Id] {C : Config Id}

/-! ### The property -/

/-- The time at which a critical section runs. -/
def Act.time : Act Id → Option Nat
  | .exec _ env => some env.nowMs
  | _ => none

/-- The clock does not go back. -/
def Clocked (tr : List (Step Id)) : Prop :=
  tr.Pairwise fun e e' => ∀ t ∈ e.act.time, ∀ t' ∈ e'.act.time, t ≤ t'

instance (tr : List (Step Id)) : Decidable (Clocked tr) :=
  inferInstanceAs (Decidable (List.Pairwise _ _))

/-- The id whose pairing a step commits through `remember`, and when. -/
def commits (C : Config Id) (s : State Id) (a : Act Id) : Option (String × Nat) :=
  (storing s a).bind fun x =>
    if (s.shared.pairedStore.remember C.iroh x.2.io x.1).1 then
      some (C.key x.1.endpointId, x.2.nowMs)
    else none

/-- The connect loop that handles a refusal in this step, and when: it looks whether the pairing is
still settling. -/
def handles (s : State Id) : Act Id → Option (Nat × Nat)
  | .exec p env =>
    match nextInstr s p with
    | some (.connect .settling) => some (p, env.nowMs)
    | _ => none
  | _ => none

/-- The connect loop that marks a record as unpaired in this step because it was refused, and the id
of the record. -/
def marksRefused (C : Config Id) (s : State Id) : Act Id → Option (Nat × String)
  | .exec p env =>
    match nextInstr s p with
    | some (.connect (.unpairMark e .recognitionRefused)) =>
      if (s.shared.pairedStore.markUnpairedRemotely C.iroh env.io e).1.isSome then
        some (p, C.key e)
      else none
    | _ => none
  | _ => none

def Handles (p time : Nat) (e : Step Id) : Prop := handles e.pre e.act = some (p, time)

/-- A loop that marks an id handled its refusal, the last one it looked at, when every pairing of the
id was as old as a settled pairing is. -/
def SparesSettling (C : Config Id) (past : List (Step Id)) (e : Step Id) : Prop :=
  ∀ p key, marksRefused C e.pre e.act = some (p, key) →
    ∃ time, Since (Handles p time) (fun e => ∃ later, Handles p later e) past ∧
      ∀ r ∈ past, ∀ t, commits C r.pre r.act = some (key, t) → t + recentPairingGraceMs ≤ time

/-! ### The condition -/

/-- The id a critical section is about to mark, the refusal of which was found not to be settling. -/
def Instr.judged : Instr Id → Option String
  | .connect (.unpairGet e .recognitionRefused) | .connect (.unpairMark e .recognitionRefused) =>
    some e
  | _ => none

def Task.judging (C : Config Id) (key : String) (t : Task Id) : Bool :=
  t.todo.any fun i => i.judged.any fun e => C.key e = key

/-- A pairing that is committed carries the time at which it is stored, as does the record that is
there already, if any, and no loop stands between judging a refusal of the id and marking it; and a
refused loop can read the store. -/
structure PairsAfresh (C : Config Id) (s : State Id) (a : Act Id) : Prop where
  stamped : ∀ x ∈ storing s a, (s.shared.pairedStore.remember C.iroh x.2.io x.1).1 = true →
    x.1.pairedAt = x.2.nowMs ∧
      (∀ t ∈ StoreFile.pairedAt C.iroh s.shared.pairedStore.stored x.1.endpointId, t = x.2.nowMs) ∧
      ∀ t ∈ s.procs, Task.judging C (C.key x.1.endpointId) t = false
  readable : ∀ x ∈ refused s a, x.2.io.read = true

instance (s : State Id) (a : Act Id) : Decidable (PairsAfresh C s a) :=
  decidable_of_iff
    ((∀ x ∈ storing s a, (s.shared.pairedStore.remember C.iroh x.2.io x.1).1 = true →
      x.1.pairedAt = x.2.nowMs ∧
        (∀ t ∈ StoreFile.pairedAt C.iroh s.shared.pairedStore.stored x.1.endpointId,
          t = x.2.nowMs) ∧
        ∀ t ∈ s.procs, Task.judging C (C.key x.1.endpointId) t = false) ∧
      ∀ x ∈ refused s a, x.2.io.read = true)
    ⟨fun h => ⟨h.1, h.2⟩, fun h => ⟨h.stamped, h.readable⟩⟩

/-! ### What a step commits and marks -/

section Inversion

variable {s : State Id} {a : Act Id} {p : Nat} {key : String} {time : Nat}

theorem exists_of_commits (h : commits C s a = some (key, time)) :
    ∃ q env t flow device rest, a = .exec q env ∧ s.procs[q]? = some t ∧
      t.todo = .common (.remember flow device) :: rest ∧ storing s a = some (device, env) ∧
      (s.shared.pairedStore.remember C.iroh env.io device).1 = true ∧
      key = C.key device.endpointId ∧ time = env.nowMs := by
  obtain ⟨⟨device, env⟩, hstoring, hcommit⟩ := Option.bind_eq_some_iff.mp h
  simp only at hcommit
  split at hcommit
  · rename_i hstored
    obtain ⟨rfl, rfl⟩ := Prod.mk.inj (Option.some.inj hcommit)
    have hdoing := hstoring
    unfold storing at hdoing
    split at hdoing
    · rename_i flow device' env' hdo
      obtain ⟨rfl, rfl⟩ := Prod.mk.inj (Option.some.inj hdoing)
      obtain ⟨q, env', t, rest, rfl, hget, htodo⟩ :=
        exists_of_doing (s := s) (a := a) (by rw [hdo]; rfl)
      rw [doing_exec hget htodo] at hdo
      obtain ⟨-, rfl⟩ := Prod.mk.inj (Option.some.inj hdo)
      exact ⟨q, _, t, flow, device', rest, rfl, hget, htodo, hstoring, hstored, rfl, rfl⟩
    · cases hdoing
  · cases hcommit

theorem exists_of_marksRefused (h : marksRefused C s a = some (p, key)) :
    ∃ env e t rest, a = .exec p env ∧ s.procs[p]? = some t ∧
      t.todo = .connect (.unpairMark e .recognitionRefused) :: rest ∧ key = C.key e ∧
      (StoreFile.pairedAt C.iroh s.shared.pairedStore.stored e).isSome = true := by
  cases a with
  | exec q env =>
    simp only [marksRefused] at h
    split at h
    · rename_i e hnext
      obtain ⟨t, rest, hget, htodo⟩ := exists_of_nextInstr hnext
      split at h
      · rename_i hmarked
        obtain ⟨rfl, rfl⟩ := Prod.mk.inj (Option.some.inj h)
        obtain ⟨device, hdevice⟩ := Option.isSome_iff_exists.mp hmarked
        obtain ⟨existing, hfound, -⟩ :=
          StoreFile.markUnpairedRemotely_some C.iroh (Prod.ext hdevice rfl)
        exact ⟨env, e, t, rest, rfl, hget, htodo, rfl, by rw [StoreFile.pairedAt, hfound]; rfl⟩
      · cases h
    · cases h
  | recv | close | drop | connect | call | lan => cases h

end Inversion

theorem pairedAt_write {s : Shared Id} {kind : Kind Id} {fresh : Nat} {env : Env} {instr : Instr Id}
    {e : String} {time : Nat}
    (h : StoreFile.pairedAt C.iroh (write C s kind fresh env instr).pairedStore.stored e =
      some time) :
    StoreFile.pairedAt C.iroh s.pairedStore.stored e = some time ∨
      ∃ flow device, instr = .common (.remember flow device) ∧
        (s.pairedStore.remember C.iroh env.io device).1 = true ∧
        C.key device.endpointId = C.key e ∧ time = device.pairedAt := by
  rw [write_pairedStore] at h
  split at h
  · rename_i flow device
    rcases StoreFile.pairedAt_remember C.iroh h with h | ⟨hstored, hsame, -, htime⟩
    · exact .inl h
    · rw [StoreFile.sameId, beq_iff_eq] at hsame
      exact .inr ⟨flow, device, rfl, hstored, hsame, htime⟩
  · exact .inl ((StoreFile.pairedAt_markUnpaired ..).symm.trans h)
  · exact .inl ((StoreFile.pairedAt_touch ..).symm.trans h)
  · exact .inl (StoreFile.pairedAt_forget C.iroh h)
  · exact .inl ((StoreFile.pairedAt_markUnpaired ..).symm.trans h)
  · exact .inl h

/-! ### Judging a refusal -/

theorem judged_nextConnect {s : Shared Id} {l : ConnectLoop Id} {env : Env} {c : ConnectInstr Id}
    {i : Instr Id} {e : String} (hmem : i ∈ (nextConnect C s l env c).2.push)
    (hi : i.judged = some e) :
    (Instr.connect c).judged = some e ∨ c = .settling ∧ (env.io.read = true →
      ∀ t, StoreFile.pairedAt C.iroh s.pairedStore.stored e = some t →
        t + recentPairingGraceMs ≤ env.nowMs) := by
  cases connectPush_next hmem with
  | unpairGet hsettled =>
    obtain rfl := Option.some.inj hi
    refine .inr ⟨rfl, fun hread t ht => ?_⟩
    rw [StoreFile.get_of_read C.iroh hread, Option.join_some] at hsettled
    rw [StoreFile.pairedAt, Option.map_eq_some_iff] at ht
    obtain ⟨existing, hfound, rfl⟩ := ht
    have hgrace : 0 < recentPairingGraceMs := by decide
    have hold := hsettled existing hfound
    omega
  | @unpairMark r cause =>
    cases cause with
    | forgetReceived => cases hi
    | recognitionRefused => exact .inl hi
  | dial | insertSession | online | touch | read | offline | sleep | loopTop | skippedGet
  | skippedMark | disallowForgotten | disallowRefused | marked | unpaired | removeSessionIf => cases hi

theorem connect_of_judged {kind : Kind Id} {i : Instr Id} {e : String} (hfits : Fits C kind i)
    (hi : i.judged = some e) : ∃ l, kind = .connect l := by
  cases i with
  | connect c =>
    cases kind with
    | connect l => exact ⟨l, rfl⟩
    | inbound | control | host | call | expiry | lan | background => exact hfits.elim
  | common | accept | control | host | service | window | lan => cases hi

/-- A loop that judges an id did so before, or has just found that its pairing, if there is one, is not
settling. -/
theorem judged_exec {s : Shared Id} {kind kind' : Kind Id} {fresh : Nat} {env : Env}
    {instr i : Instr Id} {rest : List (Instr Id)} {n : Next Id} {e : String}
    (hfits : TaskFits C kind (instr :: rest))
    (hnext : next C s kind fresh env instr = some (kind', n)) (hmem : i ∈ n.push ++ rest)
    (hi : i.judged = some e) :
    (∃ j ∈ instr :: rest, j.judged = some e) ∨ instr = .connect .settling ∧ (env.io.read = true →
      ∀ t, StoreFile.pairedAt C.iroh s.pairedStore.stored e = some t →
        t + recentPairingGraceMs ≤ env.nowMs) := by
  obtain ⟨l, rfl⟩ := connect_of_judged ((taskFits_exec hfits hnext).fits i hmem) hi
  rcases List.mem_append.mp hmem with hpush | hrest
  · have hfit := hfits.fits instr (by simp)
    generalize hk : Kind.connect l = kind' at hnext
    cases next_case hnext with
    | common => cases commonPush_next hpush <;> cases hi
    | service | window | lan =>
      subst hk
      exact hfit.elim
    | accept => cases acceptKind_next hk.symm
    | control => cases hk
    | host hkind =>
      rw [← hk] at hkind
      cases hkind
    | @connect c l' hkind =>
      rcases judged_nextConnect hpush hi with hj | ⟨rfl, hold⟩
      · exact .inl ⟨_, List.mem_cons_self, hj⟩
      · exact .inr ⟨rfl, hold⟩
  · exact .inl ⟨i, List.mem_cons_of_mem _ hrest, hi⟩

theorem judged_readOutbound {conn : Conn Id} {msg : ControlMessage} {i : Instr Id}
    (hmem : i ∈ readOutbound C conn msg) : i.judged = none := by
  have hread : ∀ {i : Instr Id}, i ∈ [(.common .read : Instr Id)] → i.judged = none := by
    intro i hi
    rw [List.mem_singleton] at hi
    subst hi
    rfl
  cases msg with
  | invite | inviteResponse =>
    simp only [readOutbound, List.mem_cons, List.not_mem_nil, or_false] at hmem
    rcases hmem with rfl | rfl <;> rfl
  | recognition =>
    simp only [readOutbound] at hmem
    split at hmem
    · simp only [recognise, List.cons_append, List.nil_append, List.mem_cons, List.not_mem_nil,
        or_false] at hmem
      rcases hmem with rfl | rfl | rfl <;> rfl
    · exact hread hmem
  | forget =>
    simp only [readOutbound] at hmem
    split at hmem
    · rw [List.mem_singleton] at hmem
      subst hmem
      rfl
    · exact hread hmem
  | pairingInfo | rememberVote | whoAreYou | identity | pairRequest => exact hread hmem

theorem judged_closedTodo {l : ConnectLoop Id} {reason : String} {i : Instr Id}
    (hmem : i ∈ closedTodo C (.connect l) reason) : i.judged = none := by
  simp only [closedTodo] at hmem
  split at hmem
  · rcases List.mem_cons.mp hmem with rfl | hmem
    · rfl
    · split at hmem
      · rw [List.mem_singleton] at hmem
        subst hmem
        rfl
      · simp only [backOff, List.mem_cons, List.not_mem_nil, or_false] at hmem
        rcases hmem with rfl | rfl <;> rfl
  · simp at hmem

/-! ### The invariant -/

/-- The loop last handled a refusal when every pairing of the id had settled, or there is no record of
the id. -/
def Judged (C : Config Id) (tr : List (Step Id)) (s : Shared Id) (p : Nat) (e : String) : Prop :=
  ∃ time, Since (Handles p time) (fun h => ∃ later, Handles p later h) tr ∧
    ((∀ r ∈ tr, ∀ t, commits C r.pre r.act = some (C.key e, t) → t + recentPairingGraceMs ≤ time) ∨
      StoreFile.pairedAt C.iroh s.pairedStore.stored e = none)

/-- A record is not older than the last pairing of its id, and every loop that judges an id has found
it settled. -/
structure GraceInv (C : Config Id) (tr : List (Step Id)) (s : State Id) : Prop where
  paired : ∀ r ∈ tr, ∀ e t, commits C r.pre r.act = some (C.key e, t) →
    ∀ t', StoreFile.pairedAt C.iroh s.shared.pairedStore.stored e = some t' → t ≤ t'
  judged : ∀ (p : Nat) (task : Task Id), s.procs[p]? = some task →
    ∀ i ∈ task.todo, ∀ e, i.judged = some e → Judged C tr s.shared p e

theorem time_of_commits {s : State Id} {a : Act Id} {key : String} {t : Nat}
    (h : commits C s a = some (key, t)) : a.time = some t := by
  obtain ⟨q, env, -, -, -, -, rfl, -, -, -, -, -, rfl⟩ := exists_of_commits h
  rfl

theorem time_of_handles {s : State Id} {a : Act Id} {p t : Nat} (h : handles s a = some (p, t)) :
    a.time = some t := by
  cases a with
  | exec q env =>
    simp only [handles] at h
    split at h
    · obtain ⟨-, rfl⟩ := Prod.mk.inj (Option.some.inj h)
      rfl
    · cases h
  | recv | close | drop | connect | call | lan => cases h

theorem commits_exec {s : State Id} {p : Nat} {env : Env} {t : Task Id} {flow : PairingFlow Id}
    {device : PairedDevice} {rest : List (Instr Id)} (hget : s.procs[p]? = some t)
    (htodo : t.todo = .common (.remember flow device) :: rest)
    (hstored : (s.shared.pairedStore.remember C.iroh env.io device).1 = true) :
    commits C s (.exec p env) = some (C.key device.endpointId, env.nowMs) := by
  rw [commits, storing, doing_exec hget htodo]
  exact if_pos hstored

section Step

variable {tr : List (Step Id)} {s s' : State Id} {a : Act Id} {out : List (Out Id)}

theorem clocked_snoc {e : Step Id} (h : Clocked (tr ++ [e])) :
    Clocked tr ∧ ∀ r ∈ tr, ∀ t ∈ r.act.time, ∀ t' ∈ e.act.time, t ≤ t' := by
  obtain ⟨htr, -, hlast⟩ := List.pairwise_append.mp h
  exact ⟨htr, fun r hr => hlast r hr e (by simp)⟩

/-- A step that does not commit a pairing of the id leaves a judgement of it standing. -/
theorem Judged.step {p : Nat} {e : String} (h : Judged C tr s.shared p e)
    (hclock : ∀ r ∈ tr, ∀ t ∈ r.act.time, ∀ t' ∈ a.time, t ≤ t')
    (hs : Node.step C s a = some (s', out)) (hcommit : ∀ t, commits C s a ≠ some (C.key e, t)) :
    Judged C (tr ++ [⟨s, a, s', out⟩]) s'.shared p e := by
  obtain ⟨time, hsince, hold⟩ := h
  have hnone : StoreFile.pairedAt C.iroh s.shared.pairedStore.stored e = none →
      StoreFile.pairedAt C.iroh s'.shared.pairedStore.stored e = none := by
    intro hnone
    by_contra hsome
    obtain ⟨t, ht⟩ := Option.ne_none_iff_exists'.mp hsome
    rcases step_shared hs with ⟨hsame, -⟩ | ⟨q, env, u, instr, rest, kind, n, rfl, hget, htodo, -,
      hshared, -⟩
    · rw [hsame, hnone] at ht
      cases ht
    · rw [hshared] at ht
      rcases pairedAt_write ht with ht | ⟨flow, device, rfl, hstored, hkey, -⟩
      · rw [hnone] at ht
        cases ht
      · refine hcommit env.nowMs ?_
        rw [← hkey]
        exact commits_exec hget htodo hstored
  have hlater : ∀ later, time ≤ later →
      (∀ r ∈ tr ++ [⟨s, a, s', out⟩], ∀ t, commits C r.pre r.act = some (C.key e, t) →
        t + recentPairingGraceMs ≤ later) ∨
        StoreFile.pairedAt C.iroh s'.shared.pairedStore.stored e = none := by
    intro later hle
    rcases hold with hold | hold
    · refine .inl fun r hr t ht => ?_
      rcases List.mem_append.mp hr with hr | hr
      · exact (hold r hr t ht).trans hle
      · rw [List.mem_singleton] at hr
        subst hr
        exact absurd ht (hcommit t)
    · exact .inr (hnone hold)
  by_cases hhandles : ∃ later, handles s a = some (p, later)
  · obtain ⟨later, hhandles⟩ := hhandles
    obtain ⟨before, x, after, rfl, hx, -⟩ := hsince
    have hle := hclock x (by simp) time (time_of_handles hx) later (time_of_handles hhandles)
    exact ⟨later, .snoc_now hhandles, hlater later hle⟩
  · exact ⟨time, hsince.snoc_keep hhandles, hlater time le_rfl⟩

theorem PairsAfresh.not_commits (hok : PairsAfresh C s a) {q : Nat} {u : Task Id} {i : Instr Id}
    {e : String} (hq : s.procs[q]? = some u) (hi : i ∈ u.todo) (hj : i.judged = some e) (t : Nat) :
    commits C s a ≠ some (C.key e, t) := by
  intro hcommit
  obtain ⟨r, env, -, -, device, -, rfl, -, -, hstoring, hstored, hkey, -⟩ := exists_of_commits hcommit
  have hjudging := (hok.stamped _ hstoring hstored).2.2 u (List.mem_of_getElem? hq)
  have hnot := List.any_eq_false.mp hjudging i hi
  rw [hj] at hnot
  simp [hkey] at hnot

theorem pairedAt_congr {list : List PairedDevice} {e e' : String} (h : C.key e = C.key e') :
    StoreFile.pairedAt C.iroh list e = StoreFile.pairedAt C.iroh list e' := by
  have hsame : StoreFile.sameId C.iroh e = StoreFile.sameId C.iroh e' := by
    funext d
    rw [StoreFile.sameId, StoreFile.sameId]
    exact congrArg _ h
  rw [StoreFile.pairedAt, StoreFile.pairedAt, hsame]

theorem GraceInv.paired_step (h : GraceInv C tr s) (hok : PairsAfresh C s a)
    (hclock : ∀ r ∈ tr, ∀ t ∈ r.act.time, ∀ t' ∈ a.time, t ≤ t')
    (hs : Node.step C s a = some (s', out)) {r : Step Id} (hr : r ∈ tr ++ [⟨s, a, s', out⟩])
    {e : String} {t t' : Nat} (hcommit : commits C r.pre r.act = some (C.key e, t))
    (hat : StoreFile.pairedAt C.iroh s'.shared.pairedStore.stored e = some t') : t ≤ t' := by
  -- a first record of the id carries the time of the step
  have hnew : StoreFile.pairedAt C.iroh s.shared.pairedStore.stored e = some t' ∨
      a.time = some t' := by
    rcases step_shared hs with ⟨hsame, -⟩ | ⟨q, env, u, instr, rest, kind, n, rfl, hget, htodo, -,
      hshared, -⟩
    · rw [hsame] at hat
      exact .inl hat
    · rw [hshared] at hat
      rcases pairedAt_write hat with hat | ⟨flow, device, rfl, hstored, -, rfl⟩
      · exact .inl hat
      · have hstoring : storing s (.exec q env) = some (device, env) := by
          rw [storing, doing_exec hget htodo]
        exact .inr (congrArg some (hok.stamped _ hstoring hstored).1.symm)
  rcases List.mem_append.mp hr with hr | hr
  · rcases hnew with hold | htime
    · exact h.paired r hr e t hcommit t' hold
    · exact hclock r hr t (time_of_commits hcommit) t' htime
  · rw [List.mem_singleton] at hr
    subst hr
    rcases hnew with hold | htime
    · obtain ⟨q, env, -, -, device, -, rfl, -, -, hstoring, hstored, hkey, rfl⟩ :=
        exists_of_commits hcommit
      rw [pairedAt_congr hkey] at hold
      exact ((hok.stamped _ hstoring hstored).2.1 t' hold).ge
    · exact (Option.some.inj ((time_of_commits hcommit).symm.trans htime)).le

/-- A loop that looks whether a pairing is settling, and goes on to mark it. -/
theorem GraceInv.judged_settling (h : GraceInv C tr s) {q : Nat} {env : Env} {t : Task Id}
    {rest : List (Instr Id)} {e : String} (hget : s.procs[q]? = some t)
    (htodo : t.todo = .connect .settling :: rest)
    (hs : Node.step C s (.exec q env) = some (s', out))
    (hold : ∀ t, StoreFile.pairedAt C.iroh s.shared.pairedStore.stored e = some t →
      t + recentPairingGraceMs ≤ env.nowMs) :
    Judged C (tr ++ [⟨s, .exec q env, s', out⟩]) s'.shared q e := by
  have hhandles : handles s (.exec q env) = some (q, env.nowMs) := by
    rw [handles, nextInstr_eq hget htodo]
  obtain ⟨-, -, -, -, hshared, -⟩ := step_exec hs hget htodo
  refine ⟨env.nowMs, .snoc_now hhandles, ?_⟩
  cases hat : StoreFile.pairedAt C.iroh s.shared.pairedStore.stored e with
  | none =>
    refine .inr ?_
    rw [hshared]
    exact hat
  | some t' =>
    refine .inl fun r hr t₀ hcommit => ?_
    rcases List.mem_append.mp hr with hr | hr
    · have hle := h.paired r hr e t₀ hcommit t' hat
      have hgrace := hold t' hat
      omega
    · rw [List.mem_singleton] at hr
      subst hr
      obtain ⟨q', env', u, flow, device, rest', heq, hget', htodo', -⟩ := exists_of_commits hcommit
      cases heq
      have hsame := (nextInstr_eq hget htodo).symm.trans (nextInstr_eq hget' htodo')
      cases hsame

theorem GraceInv.judged_step (h : GraceInv C tr s) (hfits : AllFit C s) (hok : PairsAfresh C s a)
    (hclock : ∀ r ∈ tr, ∀ t ∈ r.act.time, ∀ t' ∈ a.time, t ≤ t')
    (hs : Node.step C s a = some (s', out)) {q : Nat} {t' : Task Id} (hq : s'.procs[q]? = some t')
    {i : Instr Id} (hi : i ∈ t'.todo) {e : String} (hj : i.judged = some e) :
    Judged C (tr ++ [⟨s, a, s', out⟩]) s'.shared q e := by
  obtain ⟨kind, todo, horigin, hhas⟩ := step_origin hs hq
  have hi := hhas.mem hi
  cases horigin with
  | @kept _ t hne hget =>
    exact (h.judged q t hget i hi e hj).step hclock hs (hok.not_commits hget hi hj)
  | @exec env t instr rest kind n hget htodo hnext =>
    have hfit := hfits q t hget
    rw [htodo] at hfit
    rcases judged_exec hfit hnext hi hj with ⟨j, hmem, hj⟩ | ⟨rfl, hold⟩
    · rw [← htodo] at hmem
      exact (h.judged q t hget j hmem e hj).step hclock hs (hok.not_commits hget hmem hj)
    · refine h.judged_settling hget htodo hs (hold ?_)
      have hsettling := hfit.fits _ List.mem_cons_self
      cases hkind : t.kind with
      | connect l =>
        refine hok.readable (l.endpointId, env) ?_
        rw [refused, kindOf_eq hget, hkind, nextInstr_eq hget htodo]
        rfl
      | inbound | control | host | call | expiry | lan | background =>
        rw [hkind] at hsettling
        exact hsettling.elim
  | recv hget hrecv =>
    obtain ⟨l, hl⟩ := connect_of_judged ((taskFits_recv (hfits q _ hget).kindFits hrecv).fits i hi) hj
    cases received_case hrecv with
    | control | host => cases hl
    | connect =>
      rw [judged_readOutbound hi] at hj
      cases hj
  | @close reason kind instr rest aborted hget hsees =>
    obtain ⟨l, rfl⟩ := connect_of_judged ((taskFits_close _ (hfits q _ hget).kindFits).fits i hi) hj
    rw [judged_closedTodo hi] at hj
    cases hj
  | drop => simp at hi
  | spawned hget hnext hspawn =>
    cases next_spawn hnext hspawn with
    | connect =>
      rw [connectTask, List.mem_singleton] at hi
      subst hi
      cases hj
    | notify | probe | expiry =>
      have hfit := taskFits_spawned (C := C) (next_spawn hnext hspawn)
      obtain ⟨l, hl⟩ := connect_of_judged (hfit.fits i hi) hj
      cases hl
  | @started a t hactor hstart =>
    obtain ⟨l, hl⟩ := connect_of_judged ((taskFits_started hstart).fits i hi) hj
    cases started_case hstart with
    | connect | call | appeared | vanished => cases hl

theorem GraceInv.spares (h : GraceInv C tr s) : SparesSettling C tr ⟨s, a, s', out⟩ := by
  intro p key hmarks
  obtain ⟨env, e, t, rest, rfl, hget, htodo, rfl, hsome⟩ := exists_of_marksRefused hmarks
  have hmem : .connect (.unpairMark e .recognitionRefused) ∈ t.todo := by
    rw [htodo]
    exact List.mem_cons_self
  obtain ⟨time, hsince, hold | hnone⟩ := h.judged p t hget _ hmem e rfl
  · exact ⟨time, hsince, hold⟩
  · rw [hnone] at hsome
    cases hsome

end Step

theorem graceInv_start (store : StoreFile) (rotated : Bool) (io : Io) (d : Discoverability)
    (relay : Option String) : GraceInv C [] (start C store rotated io d relay) := by
  refine ⟨by simp, fun p t hp i hi e hj => ?_⟩
  obtain rfl := eq_of_start hp
  rw [program, List.mem_singleton] at hi
  subst hi
  cases hj

/-- In every run with a clock that does not go back and in which pairings are stored afresh, no loop
marks an id for a refusal that it handled while a pairing of the id was settling. -/
theorem settling_kept (C : Config Id) (store : StoreFile) (rotated : Bool) (io : Io)
    (d : Discoverability) (relay : Option String) (tr : List (Step Id)) (s : State Id)
    (hrun : Run (machine C) (PairsAfresh C) (start C store rotated io d relay) tr s)
    (hclock : Clocked tr) : Each (SparesSettling C) tr := by
  have hinv : Clocked tr → GraceInv C tr s ∧ Each (SparesSettling C) tr := by
    refine hrun.invariant_of_run
      (I := fun tr s => Clocked tr → GraceInv C tr s ∧ Each (SparesSettling C) tr)
      (fun _ => ⟨graceInv_start store rotated io d relay, .nil⟩) ?_
    intro tr s s' a out hprev ih hok hs hclock
    obtain ⟨hclock, hnow⟩ := clocked_snoc hclock
    obtain ⟨hinv, heach⟩ := ih hclock
    exact ⟨⟨fun r hr e t hcommit t' hat => hinv.paired_step hok hnow hs hr hcommit hat,
      fun q t hq i hi e hj => hinv.judged_step (fits_run hprev) hok hnow hs hq hi hj⟩,
      heach.snoc hinv.spares⟩
  exact (hinv hclock).2

/-! ### Bob is paired again -/

/-- The same steps at a given time. -/
def atTime (nowMs : Nat) (acts : List (Act Key)) : List (Act Key) :=
  acts.map fun a =>
    match a with
    | .exec p env => .exec p { env with nowMs := nowMs }
    | a => a

/-- A connect loop reaches its peer and is refused, and goes on until it looks whether the pairing is
settling. -/
def refusedAt (nowMs pid num : Nat) : List (Act Key) :=
  atTime nowMs (go pid 1 ++ [.exec pid (dialling num)] ++ go pid 4 ++
    [.close pid "not permitted for unpaired peer"] ++ go pid 4)

/-- Alice has a record of Bob, and her connect loop fails to dial him and sleeps. Much later she scans
his pairing code; the loop wakes up, and is refused because Bob has not stored his half yet. -/
def pairedAgainThenRefused : List (Act Key) :=
  supervisor ++ go 1 4 ++ atTime 100000 (joined 2 .bob 5) ++ atTime 100001 (go 1 1) ++
    refusedAt 100001 1 9 ++ atTime 100001 (go 1 2)

/-- The pairing is undone a millisecond after it was stored. -/
theorem settling_undone : ¬ ∀ tr s,
    Run (machine alice) anyStep (aliceStart (.devices [recordOf .bob])) tr s →
    Clocked tr → Each (SparesSettling alice) tr := by
  intro hclaim
  obtain ⟨tr, s, hrun, htest⟩ := Run.of_check (machine alice) anyStep
    (aliceStart (.devices [recordOf .bob])) pairedAgainThenRefused (fun tr _ =>
      Clocked tr ∧ (∃ e ∈ tr.getLast?, marksRefused alice e.pre e.act = some (1, Key.bob.hex)) ∧
        (∃ r ∈ tr.dropLast, commits alice r.pre r.act = some (Key.bob.hex, 100000)) ∧
        ∀ h ∈ tr.dropLast, ∀ x ∈ handles h.pre h.act, x.2 < 110000) (by decide +kernel)
  obtain ⟨hclock, ⟨e, he, hmarks⟩, ⟨r, hr, hcommit⟩, hhandled⟩ := of_decide_eq_true htest
  have hlast : tr = tr.dropLast ++ e :: [] := (List.dropLast_append_getLast? e he).symm
  obtain ⟨time, ⟨before, h, after, hpast, hh, -⟩, hspared⟩ :=
    hclaim tr s hrun hclock _ e [] hlast 1 Key.bob.hex hmarks
  have hearly := hhandled h (by rw [hpast]; simp) _ hh
  have hlate : 100000 + 10000 ≤ time := hspared r hr 100000 hcommit
  omega

/-- Alice pairs with Bob for the first time. Five seconds later her loop is refused, and again after
twenty. -/
def pairedThenRefused : List (Act Key) :=
  supervisor ++ joined 1 .bob 5 ++ refusedAt 5000 2 9 ++ atTime 20000 (go 2 1) ++
    refusedAt 20000 2 10 ++ atTime 20000 (go 2 2)

/-- The theorem applies to a run in which a refusal is taken for a pairing that is settling, and a later
one for an unpair. -/
theorem settling_kept_pairedThenRefused :
    ∃ tr s, Run (machine alice) (PairsAfresh alice) (aliceStart .missing) tr s ∧ Clocked tr ∧
      (∃ e ∈ tr, Handles 2 5000 e) ∧
      (∃ e ∈ tr, marksRefused alice e.pre e.act = some (2, Key.bob.hex)) ∧
      Each (SparesSettling alice) tr := by
  obtain ⟨tr, s, hrun, htest⟩ := Run.of_check (machine alice) (PairsAfresh alice)
    (aliceStart .missing) pairedThenRefused (fun tr _ => Clocked tr ∧
      (∃ e ∈ tr, handles e.pre e.act = some (2, 5000)) ∧
      ∃ e ∈ tr, marksRefused alice e.pre e.act = some (2, Key.bob.hex)) (by decide +kernel)
  obtain ⟨hclock, hhandled, hmarked⟩ := of_decide_eq_true htest
  exact ⟨tr, s, hrun, hclock, hhandled, hmarked,
    settling_kept alice .missing false ⟨true, true⟩ .everyone none tr s hrun hclock⟩

end DashBeam.Node

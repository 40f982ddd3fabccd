import DashBeam.Node.Alice
import DashBeam.Node.Consent

/-!
# Paired devices under Nearby

A device on the allowlist has no row under Nearby. The LAN loop reads the allowlist before it takes
the registry lock, the two nearby pairings expire the row of their peer before they allow it, and the
pairings by ticket do not look at the registry at all. So the list holds strangers only in the runs
in which a ticket is not used with a device that is listed, and neither the LAN loop nor a nearby
pairing is overtaken between its two steps (`paired_unlisted`).
-/

namespace DashBeam.Node

open Protocol Native Lib

set_option linter.unusedSectionVars false

variable {Id : Type} [DecidableEq Id] {C : Config Id}

/-! ### The property -/

/-- A row of the id is listed under Nearby. -/
def Listed (C : Config Id) (s : Shared Id) (x : Id) : Prop :=
  ∃ row ∈ s.nearby.list, C.iroh.fromStr row.endpointId = some x

instance (s : Shared Id) (x : Id) : Decidable (Listed C s x) :=
  inferInstanceAs (Decidable (∃ row ∈ _, _))

/-- The task has ended, or waits for the outside. -/
def Task.idle (t : Task Id) : Bool := t.todo.head?.all Instr.parks

/-- The pairings that expire the row of their peer before they allow it. -/
def Kind.expires : Kind Id → Bool
  | .control _ | .call (.acceptNearbyInvite _) => true
  | _ => false

/-- The critical section tells the registry that the id was seen and is not paired. -/
def Instr.observes (C : Config Id) (x : Id) : Instr Id → Bool
  | .lan (.observe e false) => C.iroh.fromStr e = some x
  | _ => false

/-- The LAN loop has read that the id is not paired, and has not told the registry yet. -/
def Task.observing (C : Config Id) (x : Id) (t : Task Id) : Bool := t.todo.any (Instr.observes C x)

/-- A nearby pairing has expired the row of the id, and has not allowed it yet. -/
def Task.admitting (x : Id) (t : Task Id) : Bool :=
  t.kind.expires && t.todo.head? = some (.common (.allow x))

/-- The step can leave a paired device listed: it allows a listed device by ticket, or one that the
LAN loop has just read to be unpaired; it expires one spelling of an id that is listed under another;
or it observes a device that a nearby pairing has just expired. -/
def listsPaired (C : Config Id) (s : State Id) : Act Id → Bool
  | .exec p _ =>
    match s.procs[p]? with
    | none => false
    | some t =>
      match t.todo with
      | .common (.allow x) :: _ =>
        (!t.kind.expires && Listed C s.shared x) || s.procs.any (Task.observing C x)
      | .common (.expireNearby e) :: .common (.allow x) :: _ =>
        s.shared.nearby.list.any fun row =>
          row.endpointId ≠ e && C.iroh.fromStr row.endpointId = some x
      | .lan (.observe e false) :: _ =>
        (C.iroh.fromStr e).any fun x => s.procs.any (Task.admitting x)
      | _ => false
  | _ => false

def ListsStrangers (C : Config Id) (s : State Id) (a : Act Id) : Prop := listsPaired C s a = false

instance (s : State Id) (a : Act Id) : Decidable (ListsStrangers C s a) :=
  inferInstanceAs (Decidable (_ = _))

section Guard

variable {s : State Id} {p q : Nat} {env : Env} {t u : Task Id} {x : Id} {rest : List (Instr Id)}

theorem ListsStrangers.ticket (h : ListsStrangers C s (.exec p env)) (hget : s.procs[p]? = some t)
    (htodo : t.todo = .common (.allow x) :: rest) (hkind : t.kind.expires = false) :
    ¬ Listed C s.shared x := by
  simp only [ListsStrangers, listsPaired, hget, htodo, hkind, Bool.not_false, Bool.true_and,
    Bool.or_eq_false_iff, decide_eq_false_iff_not] at h
  exact h.1

theorem ListsStrangers.unobserved (h : ListsStrangers C s (.exec p env))
    (hget : s.procs[p]? = some t) (htodo : t.todo = .common (.allow x) :: rest)
    (hq : s.procs[q]? = some u) : u.observing C x = false := by
  simp only [ListsStrangers, listsPaired, hget, htodo, Bool.or_eq_false_iff] at h
  have hnone := List.any_eq_false.mp h.2 u (List.mem_of_getElem? hq)
  simpa using hnone

theorem ListsStrangers.expired {e : String} (h : ListsStrangers C s (.exec p env))
    (hget : s.procs[p]? = some t)
    (htodo : t.todo = .common (.expireNearby e) :: .common (.allow x) :: rest) :
    ∀ row ∈ s.shared.nearby.list, C.iroh.fromStr row.endpointId = some x → row.endpointId = e := by
  intro row hrow hx
  simp only [ListsStrangers, listsPaired, hget, htodo] at h
  have hnot := List.any_eq_false.mp h row hrow
  simpa [hx] using hnot

theorem ListsStrangers.unadmitted {e : String} (h : ListsStrangers C s (.exec p env))
    (hget : s.procs[p]? = some t) (htodo : t.todo = .lan (.observe e false) :: rest)
    (hx : C.iroh.fromStr e = some x) (hq : s.procs[q]? = some u) : u.admitting x = false := by
  simp only [ListsStrangers, listsPaired, hget, htodo, hx, Option.any_some] at h
  have hnone := List.any_eq_false.mp h u (List.mem_of_getElem? hq)
  simpa using hnone

end Guard

/-! ### What is listed, and who is allowed -/

section Next

variable {s : Shared Id} {kind kind' : Kind Id} {fresh : Nat} {env : Env} {n : Next Id}
  {instr : Instr Id} {x : Id}

theorem listed_iff : Listed C s x ↔ ∃ e, s.nearby.Lists e ∧ C.iroh.fromStr e = some x := by
  constructor
  · rintro ⟨row, hrow, hx⟩
    exact ⟨row.endpointId, ⟨row, hrow, rfl⟩, hx⟩
  · rintro ⟨e, ⟨row, hrow, rfl⟩, hx⟩
    exact ⟨row, hrow, hx⟩

theorem listed_write (h : Listed C (write C s kind fresh env instr) x) :
    Listed C s x ∨ ∃ e, instr = .lan (.observe e false) ∧ C.iroh.fromStr e = some x := by
  obtain ⟨e, hlists, hx⟩ := listed_iff.mp h
  rw [write_nearby] at hlists
  have hkept : s.nearby.Lists e → Listed C s x := fun hlists => listed_iff.mpr ⟨e, hlists, hx⟩
  split at hlists
  · exact .inl (hkept (NearbyRegistry.lists_remove.mp hlists).1)
  · exact .inl (hkept (NearbyRegistry.lists_remove.mp hlists).1)
  · rename_i endpointId peerIsPaired
    rcases NearbyRegistry.lists_observe hlists with hlists | ⟨rfl, rfl⟩
    · exact .inl (hkept hlists)
    · exact .inr ⟨e, rfl, hx⟩
  · exact .inl (hkept (NearbyRegistry.lists_setIdentity.mp hlists))
  · exact absurd hlists (NearbyRegistry.not_lists_new e)
  · exact .inl (hkept hlists)

theorem allowed_of_write (h : x ∈ (write C s kind fresh env instr).allowed) :
    x ∈ s.allowed ∨ instr = .common (.allow x) := by
  rw [write_allowed] at h
  split at h
  · rename_i id
    rcases Finset.mem_insert.mp h with rfl | h
    · exact .inr rfl
    · exact .inl h
  · exact .inl (Finset.mem_of_mem_erase h)
  · exact .inl h

theorem remember_of_allow (hfits : Fits C kind instr)
    (hnext : next C s kind fresh env instr = some (kind', n)) (hmem : .common (.allow x) ∈ n.push) :
    ∃ flow device, instr = .common (.remember flow device) := by
  cases next_case hnext with
  | @common instr =>
    cases instr with
    | remember flow device => exact ⟨flow, device, rfl⟩
    | markUnpaired | setPresence | removeSession | removeSessionIf | refreshList =>
      simp only [nextCommon, managerForget] at hmem
      split at hmem <;> simp at hmem
    | _ => simp [nextCommon] at hmem
  | service => cases servicePush_next hmem
  | @window instr => cases instr <;> simp [nextWindow] at hmem
  | lan =>
    obtain ⟨j, hj⟩ := lan_nextLan hmem
    cases hj
  | accept => cases acceptPush_next hmem
  | control => cases controlPush_next hmem
  | @host instr c hkind =>
    cases instr <;> simp only [nextHost] at hmem <;> (try split at hmem) <;> simp at hmem
  | @connect instr l hkind =>
    subst hkind
    exact (fits_nextConnect hfits hmem).elim

/-- Only the LAN loop goes on to observe a peer, and as it finds it on the allowlist. -/
theorem unpaired_of_observes (hfits : Fits C kind instr)
    (hnext : next C s kind fresh env instr = some (kind', n)) {i : Instr Id} (hmem : i ∈ n.push)
    (hobs : i.observes C x = true) : x ∉ s.allowed ∧ ∃ e, instr = .lan (.appeared e) := by
  have hlan : ∃ e, i = .lan (.observe e false) ∧ C.iroh.fromStr e = some x := by
    unfold Instr.observes at hobs
    split at hobs
    · exact ⟨_, rfl, of_decide_eq_true hobs⟩
    · cases hobs
  obtain ⟨e, rfl, hx⟩ := hlan
  cases next_case hnext with
  | common => cases commonPush_next hmem
  | service => cases servicePush_next hmem
  | @window instr => cases instr <;> simp [nextWindow] at hmem
  | @lan instr =>
    cases instr with
    | appeared endpointId =>
      simp only [nextLan, List.mem_singleton, Instr.lan.injEq, LanInstr.observe.injEq] at hmem
      obtain ⟨rfl, hpaired⟩ := hmem
      rw [hx, Option.any_some] at hpaired
      exact ⟨by simpa using hpaired.symm, e, rfl⟩
    | observe | nudgeSession | probe =>
      simp only [nextLan] at hmem
      split at hmem <;> simp at hmem
    | nudgeGet =>
      simp only [nextLan] at hmem
      split at hmem
      · split at hmem <;> simp at hmem
      · simp at hmem
    | vanished | respawn | setIdentity => simp [nextLan] at hmem
  | accept => cases acceptPush_next hmem
  | control => cases controlPush_next hmem
  | @host instr c hkind =>
    subst hkind
    exact (fits_nextHost hfits hmem).elim
  | @connect instr l hkind =>
    subst hkind
    exact (fits_nextConnect hfits hmem).elim

end Next

/-! ### Between expiring and allowing -/

/-- What a nearby pairing has to do: it allows a peer right after it has expired its row. -/
def Admits (C : Config Id) (s : Shared Id) (todo : List (Instr Id)) : Prop :=
  Each (fun past i => ∀ x, i = .common (.allow x) → (past = [] ∧ ¬ Listed C s x) ∨
    ∃ e, past = [.common (.expireNearby e)] ∧ C.iroh.fromStr e = some x) todo

section Admits

variable {s s' : Shared Id} {todo rest push : List (Instr Id)} {i : Instr Id} {x : Id}

theorem admits_of_notMem (h : ∀ x, .common (.allow x) ∉ todo) : Admits C s todo := by
  rintro past i future rfl x rfl
  exact absurd (by simp) (h x)

/-- Whatever comes first is not followed by an `allow`, unless it expires the row. -/
theorem Admits.notMem (h : Admits C s (i :: rest)) (hi : ∀ e, i ≠ .common (.expireNearby e)) (x : Id) :
    .common (.allow x) ∉ rest := by
  intro hmem
  obtain ⟨before, after, rfl⟩ := List.append_of_mem hmem
  rcases h (i :: before) _ after rfl x rfl with ⟨hnil, -⟩ | ⟨e, hpast, -⟩
  · cases hnil
  · exact hi e (List.cons.inj hpast).1

theorem Admits.head (h : Admits C s (.common (.allow x) :: rest)) : ¬ Listed C s x := by
  rcases h [] _ rest rfl x rfl with ⟨-, hlisted⟩ | ⟨e, hpast, -⟩
  · exact hlisted
  · cases hpast

theorem Admits.mono (h : Admits C s todo)
    (hmono : ∀ x, todo.head? = some (.common (.allow x)) → Listed C s' x → Listed C s x) :
    Admits C s' todo := by
  rintro past i future htodo x rfl
  rcases h past _ future htodo x rfl with ⟨rfl, hlisted⟩ | hpast
  · refine .inl ⟨rfl, fun hlisted' => hlisted (hmono x ?_ hlisted')⟩
    rw [htodo]
    rfl
  · exact .inr hpast

theorem admits_afterRemember {flow : PairingFlow Id} {device : PairedDevice} {stored : Bool}
    (hflow : (∃ remote, flow = .commitNearby remote) ∨ ∃ e, flow = .acceptNearby e)
    (hrest : ∀ x, .common (.allow x) ∉ rest) :
    Admits C s (afterRemember C flow device stored ++ rest) := by
  have hpair : ∀ e id later, C.iroh.fromStr e = some id → (∀ x, .common (.allow x) ∉ later) →
      Admits C s (.common (.expireNearby e) :: .common (.allow id) :: later) := by
    intro e id later he hlater past i future htodo x hi
    subst hi
    cases past with
    | nil => cases htodo
    | cons first past =>
      rw [List.cons_append, List.cons.injEq] at htodo
      obtain ⟨rfl, htodo⟩ := htodo
      cases past with
      | nil =>
        rw [List.nil_append, List.cons.injEq] at htodo
        obtain ⟨hid, -⟩ := htodo
        cases hid
        exact .inr ⟨e, rfl, he⟩
      | cons second past =>
        rw [List.cons_append, List.cons.injEq] at htodo
        obtain ⟨-, rfl⟩ := htodo
        exact absurd (by simp) (hlater x)
  rcases hflow with ⟨remote, rfl⟩ | ⟨e, rfl⟩
  · simp only [afterRemember]
    split
    · refine hpair _ remote _ (C.iroh.fromStr_toStr remote) ?_
      simpa using hrest
    · exact admits_of_notMem hrest
  · simp only [afterRemember]
    split
    · split
      · rename_i id he
        refine hpair e id _ he ?_
        simpa using hrest
      · exact admits_of_notMem (by simpa using hrest)
    · exact admits_of_notMem (by simpa using hrest)

end Admits

/-- A task that comes to pair nearby was accepted just now, or did so before. -/
theorem expires_of_kindStep {kind kind' : Kind Id} (h : KindStep kind kind')
    (hkind : kind'.expires = true) : kind.expires = true ∨ ∃ conn, kind = .inbound conn := by
  cases kind with
  | inbound conn => exact .inr ⟨conn, rfl⟩
  | control => exact .inl rfl
  | connect l =>
    obtain ⟨l', rfl, -⟩ := h
    cases hkind
  | host | call | expiry | lan | background =>
    cases h
    exact .inl hkind

theorem admits_exec {s : State Id} {p : Nat} {env : Env} {t : Task Id} {instr : Instr Id}
    {rest : List (Instr Id)} {kind' : Kind Id} {n : Next Id} (hget : s.procs[p]? = some t)
    (htodo : t.todo = instr :: rest) (hok : ListsStrangers C s (.exec p env))
    (hfits : TaskFits C t.kind (instr :: rest)) (hkind : t.kind.expires = true)
    (hadmits : Admits C s.shared (instr :: rest))
    (hnext : next C s.shared t.kind s.procs.length env instr = some (kind', n)) :
    Admits C (write C s.shared t.kind s.procs.length env instr) (n.push ++ rest) := by
  have hfit := hfits.fits instr (by simp)
  by_cases hexpire : ∃ e, instr = .common (.expireNearby e)
  · obtain ⟨e, rfl⟩ := hexpire
    obtain ⟨rfl, rfl⟩ := Prod.mk.inj (Option.some.inj hnext)
    rintro past i future hrest x rfl
    have hrest : rest = past ++ .common (.allow x) :: future := hrest
    rcases hadmits (.common (.expireNearby e) :: past) _ future (by rw [hrest]; rfl) x rfl with
      ⟨hnil, -⟩ | ⟨e', hpast, he⟩
    · cases hnil
    · obtain ⟨he', rfl⟩ := List.cons.inj hpast
      cases he'
      refine .inl ⟨rfl, fun hlisted => ?_⟩
      obtain ⟨e', hlists, hx⟩ := listed_iff.mp hlisted
      obtain ⟨⟨row, hrow, rfl⟩, hne⟩ := NearbyRegistry.lists_remove.mp hlists
      exact hne (hok.expired hget (by rw [htodo, hrest]; rfl) row hrow hx)
  · have hrest := hadmits.notMem fun e he => hexpire ⟨e, he⟩
    by_cases hremember : ∃ flow device, instr = .common (.remember flow device)
    · obtain ⟨flow, device, rfl⟩ := hremember
      obtain ⟨rfl, rfl⟩ := Prod.mk.inj (Option.some.inj hnext)
      refine admits_afterRemember ?_ hrest
      cases hk : t.kind with
      | control c =>
        rw [hk] at hfit
        exact .inl ⟨_, hfit.1⟩
      | call call =>
        rw [hk] at hfit
        cases flow with
        | acceptNearby e => exact .inr ⟨e, rfl⟩
        | join peer =>
          obtain ⟨⟨e, relayUrl, rfl⟩, -⟩ := hfit
          rw [hk] at hkind
          cases hkind
        | pairingHost | commitNearby => exact hfit.elim
      | inbound | host | connect | expiry | lan | background =>
        rw [hk] at hkind
        cases hkind
    · refine admits_of_notMem fun x hmem => ?_
      rcases List.mem_append.mp hmem with hpush | hmem
      · exact hremember (remember_of_allow hfit hnext hpush)
      · exact hrest x hmem

/-! ### The invariant -/

/-- No paired device is listed, none is about to be, and none that is listed is about to be
allowed. -/
structure UnlistedInv (C : Config Id) (s : State Id) : Prop where
  unlisted : ∀ x ∈ s.shared.allowed, ¬ Listed C s.shared x
  observing : ∀ (p : Nat) (t : Task Id), s.procs[p]? = some t →
    ∀ x, t.observing C x = true → x ∉ s.shared.allowed
  admits : ∀ (p : Nat) (t : Task Id), s.procs[p]? = some t → t.kind.expires = true →
    Admits C s.shared t.todo

section Step

variable {s s' : State Id} {a : Act Id} {out : List (Out Id)}

theorem UnlistedInv.unlisted_step (h : UnlistedInv C s) (hok : ListsStrangers C s a)
    (hs : step C s a = some (s', out)) : ∀ x ∈ s'.shared.allowed, ¬ Listed C s'.shared x := by
  intro x hallowed hlisted
  rcases step_shared hs with ⟨hsame, -⟩ | ⟨p, env, t, instr, rest, kind, n, rfl, hget, htodo, hnext,
    hshared, -⟩
  · rw [hsame] at hallowed hlisted
    exact h.unlisted x hallowed hlisted
  · rw [hshared] at hallowed hlisted
    rcases listed_write hlisted with hlisted | ⟨e, rfl, hx⟩
    · rcases allowed_of_write hallowed with hallowed | rfl
      · exact h.unlisted x hallowed hlisted
      · cases hkind : t.kind.expires with
        | true =>
          have hadmits := h.admits p t hget hkind
          rw [htodo] at hadmits
          exact hadmits.head hlisted
        | false => exact hok.ticket hget htodo hkind hlisted
    · have hobserving : t.observing C x = true := by
        rw [Task.observing, htodo, List.any_cons, Instr.observes, decide_eq_true hx, Bool.true_or]
      rcases allowed_of_write hallowed with hallowed | hallow
      · exact h.observing p t hget x hobserving hallowed
      · cases hallow

theorem UnlistedInv.observing_step (h : UnlistedInv C s) (hfits : AllFit C s)
    (hok : ListsStrangers C s a) (hs : step C s a = some (s', out)) {q : Nat} {t' : Task Id}
    (hq : s'.procs[q]? = some t') {x : Id} (hx : t'.observing C x = true) :
    x ∉ s'.shared.allowed := by
  -- whoever was observing before the step was not overtaken by an `allow`
  have hbefore : ∀ {r : Nat} {u : Task Id}, s.procs[r]? = some u → u.observing C x = true →
      x ∉ s'.shared.allowed := by
    intro r u hr hobserving hallowed
    rcases step_shared hs with ⟨hsame, -⟩ | ⟨p, env, t, instr, rest, kind, n, rfl, hget, htodo, -,
      hshared, -⟩
    · rw [hsame] at hallowed
      exact h.observing r u hr x hobserving hallowed
    · rw [hshared] at hallowed
      rcases allowed_of_write hallowed with hallowed | rfl
      · exact h.observing r u hr x hobserving hallowed
      · rw [hok.unobserved hget htodo hr] at hobserving
        cases hobserving
  obtain ⟨kind, todo, horigin, hhas⟩ := step_origin hs hq
  obtain ⟨i, hi, hobs⟩ := List.any_eq_true.mp hx
  have hi := hhas.mem hi
  have hnotFit : ∀ {kind : Kind Id}, Fits C kind i → kind = .lan := by
    intro kind hfit
    unfold Instr.observes at hobs
    split at hobs
    · cases kind with
      | lan => rfl
      | inbound | control | host | connect | call | expiry | background => exact hfit.elim
    · cases hobs
  cases horigin with
  | kept hne hget => exact hbefore hget (List.any_eq_true.mpr ⟨i, hi, hobs⟩)
  | exec hget htodo hnext =>
    rcases List.mem_append.mp hi with hpush | hrest
    · obtain ⟨hallowed, e, rfl⟩ := unpaired_of_observes (hfits.head hget htodo) hnext hpush hobs
      obtain ⟨-, -, -, -, hshared, -⟩ := step_exec hs hget htodo
      rw [hshared]
      exact hallowed
    · exact hbefore hget (List.any_eq_true.mpr ⟨i, by rw [htodo]; simp [hrest], hobs⟩)
  | recv hget hrecv =>
    have hlan := hnotFit ((taskFits_recv (hfits q _ hget).kindFits hrecv).fits i hi)
    cases received_case hrecv <;> cases hlan
  | close hget hsees =>
    obtain rfl := hnotFit ((taskFits_close _ (hfits q _ hget).kindFits).fits i hi)
    simp [closedTodo] at hi
  | drop => simp at hi
  | spawned hget hnext hspawn =>
    cases next_spawn hnext hspawn <;>
      simp only [connectTask, notifyTask, probeTask, expiryTask, List.mem_cons, List.not_mem_nil,
        or_false] at hi
    · subst hi
      cases hobs
    · subst hi
      cases hobs
    · subst hi
      cases hobs
    · rcases hi with rfl | rfl | rfl | rfl | rfl <;> cases hobs
  | @started a t hactor hstart =>
    have hlan := hnotFit ((taskFits_started hstart).fits i hi)
    cases started_case hstart with
    | connect | call => cases hlan
    | appeared | vanished =>
      rw [List.mem_singleton] at hi
      subst hi
      cases hobs

theorem UnlistedInv.admits_step (h : UnlistedInv C s) (hfits : AllFit C s)
    (hok : ListsStrangers C s a) (hs : step C s a = some (s', out)) {q : Nat} {t' : Task Id}
    (hq : s'.procs[q]? = some t') (hkind : t'.kind.expires = true) :
    Admits C s'.shared t'.todo := by
  obtain ⟨kind, todo, horigin, hhas⟩ := step_origin hs hq
  rw [hhas.1] at hkind
  suffices hadmits : Admits C s'.shared todo by
    rcases hhas.2 with htodo | ⟨htodo, -⟩
    · rwa [htodo]
    · rw [htodo]
      exact admits_of_notMem (by simp)
  cases horigin with
  | @kept _ t hne hget =>
    refine (h.admits q t hget hkind).mono fun x hhead hlisted => ?_
    rcases step_shared hs with ⟨hsame, -⟩ | ⟨p, env, u, instr, rest, kind, n, rfl, hp, htodo, -,
      hshared, -⟩
    · rwa [hsame] at hlisted
    · rw [hshared] at hlisted
      rcases listed_write hlisted with hlisted | ⟨e, rfl, hx⟩
      · exact hlisted
      · have hadmitting := hok.unadmitted hp htodo hx hget
        rw [Task.admitting, hkind, hhead] at hadmitting
        simp at hadmitting
  | @exec env t instr rest kind n hget htodo hnext =>
    have hfit := hfits q t hget
    rw [htodo] at hfit
    obtain ⟨-, -, -, -, hshared, -⟩ := step_exec hs hget htodo
    rw [hshared]
    rcases expires_of_kindStep (next_kind hnext) hkind with hkind | ⟨conn, hconn⟩
    · have hadmits := h.admits q t hget hkind
      rw [htodo] at hadmits
      exact admits_exec hget htodo hok hfit hkind hadmits hnext
    · have hinbound := hfit
      rw [hconn] at hinbound
      obtain ⟨i, rfl, rfl⟩ := hinbound.inbound
      refine admits_of_notMem fun x hmem => ?_
      rw [List.append_nil] at hmem
      obtain ⟨flow, device, hremember⟩ := remember_of_allow (hfit.fits _ (by simp)) hnext hmem
      cases hremember
  | recv hget hrecv =>
    cases received_case hrecv with
    | control c => exact admits_of_notMem fun x hmem => by cases controlPush_receive hmem
    | host | connect => cases hkind
  | @close reason kind instr rest aborted hget hsees =>
    cases kind with
    | control c =>
      exact admits_of_notMem fun x hmem => by cases controlPush_leaveSession hmem
    | call => exact admits_of_notMem (by simp [closedTodo])
    | inbound | host | connect | expiry | lan | background => cases hkind
  | drop => exact admits_of_notMem (by simp)
  | spawned hget hnext hspawn => cases next_spawn hnext hspawn <;> cases hkind
  | @started a t hactor hstart =>
    cases started_case hstart with
    | connect | appeared | vanished => cases hkind
    | call call =>
      cases call with
      | acceptNearbyInvite => exact admits_of_notMem (by simp [program])
      | _ => cases hkind

theorem UnlistedInv.step (h : UnlistedInv C s) (hfits : AllFit C s) (hok : ListsStrangers C s a)
    (hs : Node.step C s a = some (s', out)) : UnlistedInv C s' :=
  ⟨h.unlisted_step hok hs, fun _ _ hq _ hx => h.observing_step hfits hok hs hq hx,
    fun _ _ hq hkind => h.admits_step hfits hok hs hq hkind⟩

end Step

theorem unlistedInv_start (store : StoreFile) (rotated : Bool) (io : Io) (d : Discoverability)
    (relay : Option String) : UnlistedInv C (start C store rotated io d relay) := by
  refine ⟨fun x _ hlisted => ?_, fun p t hp x hx => ?_, fun p t hp hkind => ?_⟩
  · obtain ⟨e, hlists, -⟩ := listed_iff.mp hlisted
    exact NearbyRegistry.not_lists_new e hlists
  · rw [eq_of_start hp] at hx
    cases hx
  · rw [eq_of_start hp] at hkind
    cases hkind

/-- In every run that lists strangers only, no endpoint id on the allowlist is listed under Nearby:
not in the middle of an operation either. -/
theorem paired_unlisted (C : Config Id) (store : StoreFile) (rotated : Bool) (io : Io)
    (d : Discoverability) (relay : Option String) (tr : List (Step Id)) (s : State Id)
    (hrun : Run (machine C) (ListsStrangers C) (start C store rotated io d relay) tr s) :
    ∀ x ∈ s.shared.allowed, ¬ Listed C s.shared x := by
  have hinv : UnlistedInv C s := hrun.invariant_of_run (I := fun _ s => UnlistedInv C s)
    (unlistedInv_start store rotated io d relay)
    (fun hprev h hok hs => h.step (fits_run hprev) hok hs)
  exact hinv.unlisted

/-! ### Bob is on the list when his ticket is used -/

/-- Bob is seen on the local network, and Alice scans his pairing code; then her connect loop dials
him, as task 4. -/
def listedThenJoined : List (Act Key) :=
  supervisor ++ sighting 1 .bob ++ go 2 1 ++ joined 3 .bob 7 ++ go 4 1

/-- He is still listed, with no operation under way. -/
theorem paired_listed : ¬ ∀ tr s, Run (machine alice) anyStep (aliceStart .missing) tr s →
    (∀ t ∈ s.procs, t.idle = true) → ∀ x ∈ s.shared.allowed, ¬ Listed alice s.shared x := by
  intro hclaim
  obtain ⟨tr, s, hrun, htest⟩ := Run.of_check (machine alice) anyStep (aliceStart .missing)
    listedThenJoined (fun _ s => (∀ t ∈ s.procs, t.idle = true) ∧ .bob ∈ s.shared.allowed ∧
      Listed alice s.shared .bob) (by decide +kernel)
  obtain ⟨hidle, hallowed, hlisted⟩ := of_decide_eq_true htest
  exact hclaim tr s hrun hidle .bob hallowed hlisted

/-- Bob is seen, and Alice accepts his nearby invite; then Carol is seen, and Bob again. -/
def listedThenAccepted : List (Act Key) :=
  supervisor ++ sighting 1 .bob ++ go 2 1 ++ inviteAccepted 3 .bob 7 ++ sighting 5 .carol ++
    sighting 7 .bob

/-- The theorem applies to a run that pairs a listed device and lists a stranger. -/
theorem paired_unlisted_accepted :
    ∃ tr s, Run (machine alice) (ListsStrangers alice) (aliceStart .missing) tr s ∧
      (∃ e ∈ tr, Listed alice e.pre.shared .bob) ∧ .bob ∈ s.shared.allowed ∧
      Listed alice s.shared .carol ∧ ∀ x ∈ s.shared.allowed, ¬ Listed alice s.shared x := by
  obtain ⟨tr, s, hrun, htest⟩ := Run.of_check (machine alice) (ListsStrangers alice)
    (aliceStart .missing) listedThenAccepted (fun tr s =>
      (∃ e ∈ tr, Listed alice e.pre.shared .bob) ∧ .bob ∈ s.shared.allowed ∧
        Listed alice s.shared .carol) (by decide +kernel)
  obtain ⟨hbefore, hallowed, hcarol⟩ := of_decide_eq_true htest
  exact ⟨tr, s, hrun, hbefore, hallowed, hcarol,
    paired_unlisted alice .missing false ⟨true, true⟩ .everyone none tr s hrun⟩

end DashBeam.Node

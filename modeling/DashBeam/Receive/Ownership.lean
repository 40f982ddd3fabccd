import DashBeam.Receive.Moves

/-!
# Who cancels a download

`cancel_receive` takes the stored sender while the cancelled download is still shutting down, and
`receive_file` overwrites the slot in its epilogue without looking at it. A second receive that
installs its sender in that gap is in flight next to the first one, and the first one's epilogue
drops its sender: the second download then ends `cancelled` although nobody cancelled it
(`unowned_cancel`).

The gap is the whole defect. In a run in which no receive installs itself while a download whose
sender was fired is still in flight (`CleanInstall`), the stored sender is always that of the one
download in flight (`Owned`), so at most one download is in flight and `cancelled` always comes from
a `cancel_receive` that fired that download's own sender (`cancel_owned`).
-/

namespace DashBeam.Receive

open Lib

abbrev Step := Entry State Act Out

/-- Invocation `r` is between its install step and the end of its epilogue. -/
def InFlight (s : State) (r : Nat) : Prop :=
  ∃ x, s.receives[r]? = some x ∧ x.phase.inFlight = true

/-- At most one download is between its install step and the end of its epilogue. -/
def Exclusive (s : State) : Prop := ∀ r r', InFlight s r → InFlight s r' → r = r'

/-- The phase of invocation `r`. -/
def phaseOf (s : State) (r : Nat) : Option Phase := s.receives[r]?.map (·.phase)

/-- The step stored the cancel sender of `r`. -/
def Installs (r : Nat) (e : Step) : Prop :=
  phaseOf e.pre r = some .install ∧ phaseOf e.post r = some (.download .setup)

/-- The step is a `cancel_receive` that took and fired the sender of `r`. -/
def Fires (r : Nat) (e : Step) : Prop :=
  e.act = .cancelReceive ∧ e.pre.app.currentReceiveCancel = some r

instance (r : Nat) (e : Step) : Decidable (Fires r e) := inferInstanceAs (Decidable (_ ∧ _))

/-- The step ends the `download` of `r` with the result `cancelled`. -/
def EndsCancelled (r : Nat) (e : Step) : Prop :=
  (∃ d, phaseOf e.pre r = some (.download d)) ∧
    phaseOf e.post r = some (.epilogue (.err "cancelled"))

/-- The sender of `r` was fired after `r` installed it. -/
def FiredAfterInstall (r : Nat) (past : List Step) : Prop :=
  ∃ before i after, past = before ++ i :: after ∧ Installs r i ∧ ∃ f ∈ after, Fires r f

/-- Every download that ended `cancelled` had its own sender fired after it installed it. -/
def CancelOwned (tr : List Step) : Prop :=
  Each (fun past e => ∀ r, EndsCancelled r e → FiredAfterInstall r past) tr

/-- An install step finds no download in flight whose sender was fired: no receive installs itself
between a `cancel_receive` and the epilogue of the download it cancelled. -/
def CleanInstall (s : State) : Act → Prop
  | .receive r _ _ _ => phaseOf s r = some .install →
      ∀ x ∈ s.receives, x.phase.inFlight = true → x.channel ≠ .sent
  | _ => True

instance (s : State) : ∀ a, Decidable (CleanInstall s a)
  | .receive r _ _ _ => inferInstanceAs (Decidable (phaseOf s r = some .install → _))
  | .receiveFile _ _ | .cancelReceive | .deleteTransferRecord _ _ | .clearTransferHistory _
  | .clearTransferTempData _ _ | .command _ _ | .cleanup _ => .isTrue trivial

/-! ### The invariant -/

/-- The stored sender is that of the one download in flight, unless it was fired. -/
structure Owned (tr : List Step) (s : State) : Prop where
  slot : ∀ r, s.app.currentReceiveCancel = some r →
    ∃ x, s.receives[r]? = some x ∧ x.phase.inFlight = true ∧ x.channel = .held
  held : ∀ (r : Nat) (x : Invocation), s.receives[r]? = some x → x.phase.inFlight = true →
    x.channel = .held → s.app.currentReceiveCancel = some r
  alive : ∀ (r : Nat) (x : Invocation), s.receives[r]? = some x → x.phase.inFlight = true →
    x.channel ≠ .dropped
  one : Exclusive s
  fresh : ∀ (r : Nat) (x : Invocation), s.receives[r]? = some x → x.phase.waiting = true →
    x.channel = .held
  cancelling : ∀ (r : Nat) (x : Invocation), s.receives[r]? = some x →
    x.phase = .download .cancelling → x.channel ≠ .held
  installed : ∀ (r : Nat) (x : Invocation), s.receives[r]? = some x → x.phase.inFlight = true →
    ∃ e ∈ tr, Installs r e
  fired : ∀ (r : Nat) (x : Invocation), s.receives[r]? = some x → x.phase.inFlight = true →
    x.channel = .sent → FiredAfterInstall r tr
  past : CancelOwned tr

theorem FiredAfterInstall.snoc {r : Nat} {past : List Step} {e : Step}
    (h : FiredAfterInstall r past) : FiredAfterInstall r (past ++ [e]) := by
  obtain ⟨before, i, after, rfl, hi, f, hf, hfire⟩ := h
  exact ⟨before, i, after ++ [e], by simp, hi, f, by simp [hf], hfire⟩

theorem firedAfterInstall_now {r : Nat} {past : List Step} {e : Step}
    (h : ∃ i ∈ past, Installs r i) (he : Fires r e) : FiredAfterInstall r (past ++ [e]) := by
  obtain ⟨i, hmem, hi⟩ := h
  obtain ⟨before, after, rfl⟩ := List.append_of_mem hmem
  exact ⟨before, i, after ++ [e], by simp, hi, e, by simp, he⟩

theorem installs_snoc {r : Nat} {tr : List Step} {e : Step} (h : ∃ i ∈ tr, Installs r i) :
    ∃ i ∈ tr ++ [e], Installs r i := by
  obtain ⟨i, hmem, hi⟩ := h
  exact ⟨i, by simp [hmem], hi⟩

theorem phaseOf_eq {s : State} {r : Nat} {x : Invocation} (h : s.receives[r]? = some x) :
    phaseOf s r = some x.phase := by
  simp [phaseOf, h]

theorem exists_of_phaseOf {s : State} {r : Nat} {p : Phase} (h : phaseOf s r = some p) :
    ∃ x, s.receives[r]? = some x ∧ x.phase = p := by
  simpa [phaseOf] using h

/-- A step after which no invocation stands where it did not stand before, or stands not in flight,
ends no download. -/
theorem not_endsCancelled {r : Nat} {e : Step}
    (h : ∀ x', e.post.receives[r]? = some x' → x'.phase = .epilogue (.err "cancelled") →
      ∀ d, phaseOf e.pre r ≠ some (.download d)) : ¬ EndsCancelled r e := by
  rintro ⟨⟨d, hd⟩, hpost⟩
  obtain ⟨x', hx', hphase⟩ := exists_of_phaseOf hpost
  exact h x' hx' hphase d hd

/-! ### One step keeps the invariant -/

theorem owned_initial (rows : List TransferRecord) (stores : Finset String) (last : Option String) :
    Owned [] (initial rows stores last) where
  slot r h := by simp [initial] at h
  held r x h := by simp [initial] at h
  alive r x h := by simp [initial] at h
  one r r' h := by obtain ⟨x, hx, -⟩ := h; simp [initial] at hx
  fresh r x h := by simp [initial] at h
  cancelling r x h := by simp [initial] at h
  installed r x h := by simp [initial] at h
  fired r x h := by simp [initial] at h
  past := .nil

theorem Owned.quiet {tr : List Step} {s s' : State} {a : Act} {out : List Out} (h : Owned tr s)
    (hslot : s'.app.currentReceiveCancel = s.app.currentReceiveCancel)
    (hsame : ∀ (r : Nat) (x : Invocation), x.phase.inFlight = true →
      (s'.receives[r]? = some x ↔ s.receives[r]? = some x))
    (hfresh : ∀ (r : Nat) (x : Invocation), s'.receives[r]? = some x → x.phase.waiting = true →
      x.channel = .held) :
    Owned (tr ++ [⟨s, a, s', out⟩]) s' where
  slot r hr := by
    rw [hslot] at hr
    obtain ⟨x, hx, hfly, hheld⟩ := h.slot r hr
    exact ⟨x, (hsame r x hfly).mpr hx, hfly, hheld⟩
  held r x hx hfly hheld := by
    rw [hslot]
    exact h.held r x ((hsame r x hfly).mp hx) hfly hheld
  alive r x hx hfly := h.alive r x ((hsame r x hfly).mp hx) hfly
  one := by
    rintro r r' ⟨x, hx, hfly⟩ ⟨x', hx', hfly'⟩
    exact h.one r r' ⟨x, (hsame r x hfly).mp hx, hfly⟩ ⟨x', (hsame r' x' hfly').mp hx', hfly'⟩
  fresh := hfresh
  cancelling r x hx hphase :=
    h.cancelling r x ((hsame r x (by rw [hphase]; rfl)).mp hx) hphase
  installed r x hx hfly := installs_snoc (h.installed r x ((hsame r x hfly).mp hx) hfly)
  fired r x hx hfly hsent := (h.fired r x ((hsame r x hfly).mp hx) hfly hsent).snoc
  past := by
    refine h.past.snoc fun r hend => absurd hend (not_endsCancelled fun x' hx' hphase d hd => ?_)
    have hpre := (hsame r x' (by rw [hphase]; rfl)).mp hx'
    rw [show (⟨s, a, s', out⟩ : Step).pre = s from rfl, phaseOf_eq hpre, hphase] at hd
    cases hd

theorem Owned.afterMove {tr : List Step} {s s' : State} {a : Act} {out : List Out} {r : Nat}
    {x x' : Invocation} (h : Owned tr s) (hx : s.receives[r]? = some x) (hmove : LocalMove x x')
    (hrec : s'.receives = s.receives.set r x')
    (hslot : s'.app.currentReceiveCancel = s.app.currentReceiveCancel) :
    Owned (tr ++ [⟨s, a, s', out⟩]) s' := by
  have hget := getElem?_set_of_some hx x'
  have hfresh : ∀ (q : Nat) (y : Invocation), s'.receives[q]? = some y → y.phase.waiting = true →
      y.channel = .held := by
    intro q y hy hwait
    rw [hrec, hget] at hy
    by_cases hq : r = q
    · rw [if_pos hq, Option.some.injEq] at hy
      subst hy
      rw [hmove.channel (by rintro hdone; rw [hdone] at hwait; cases hwait)]
      exact h.fresh r x hx (hmove.waiting hwait)
    · rw [if_neg hq] at hy
      exact h.fresh q y hy hwait
  by_cases hfly : x.phase.inFlight = true
  · have hfly' : x'.phase.inFlight = true := by rw [hmove.inFlight, hfly]
    have hchan : x'.channel = x.channel :=
      hmove.channel (by rintro hdone; rw [hdone] at hfly'; cases hfly')
    -- every invocation of the new state has an old one in flight with the same channel
    have hold : ∀ (q : Nat) (y : Invocation), s'.receives[q]? = some y → y.phase.inFlight = true →
        ∃ z, s.receives[q]? = some z ∧ z.phase.inFlight = true ∧ z.channel = y.channel := by
      intro q y hy hyfly
      rw [hrec, hget] at hy
      by_cases hq : r = q
      · rw [if_pos hq, Option.some.injEq] at hy
        subst hy hq
        exact ⟨x, hx, hfly, hchan.symm⟩
      · rw [if_neg hq] at hy
        exact ⟨y, hy, hyfly, rfl⟩
    refine ⟨?_, ?_, ?_, ?_, hfresh, ?_, ?_, ?_, ?_⟩
    · intro q hq
      rw [hslot] at hq
      obtain ⟨y, hy, hyfly, hheld⟩ := h.slot q hq
      rw [hrec, hget]
      by_cases hrq : r = q
      · subst hrq
        rw [hx, Option.some.injEq] at hy
        subst hy
        exact ⟨x', by simp, hfly', by rw [hchan, hheld]⟩
      · exact ⟨y, by rw [if_neg hrq]; exact hy, hyfly, hheld⟩
    · intro q y hy hyfly hheld
      obtain ⟨z, hz, hzfly, hzchan⟩ := hold q y hy hyfly
      rw [hslot]
      exact h.held q z hz hzfly (by rw [hzchan, hheld])
    · intro q y hy hyfly
      obtain ⟨z, hz, hzfly, hzchan⟩ := hold q y hy hyfly
      rw [← hzchan]
      exact h.alive q z hz hzfly
    · rintro q q' ⟨y, hy, hyfly⟩ ⟨y', hy', hyfly'⟩
      obtain ⟨z, hz, hzfly, -⟩ := hold q y hy hyfly
      obtain ⟨z', hz', hzfly', -⟩ := hold q' y' hy' hyfly'
      exact h.one q q' ⟨z, hz, hzfly⟩ ⟨z', hz', hzfly'⟩
    · intro q y hy hphase
      rw [hrec, hget] at hy
      by_cases hq : r = q
      · rw [if_pos hq, Option.some.injEq] at hy
        subst hy
        have hready := hmove.cancelling hphase
        rw [hchan]
        intro hheld
        rw [hheld] at hready
        cases hready
      · rw [if_neg hq] at hy
        exact h.cancelling q y hy hphase
    · intro q y hy hyfly
      obtain ⟨z, hz, hzfly, -⟩ := hold q y hy hyfly
      exact installs_snoc (h.installed q z hz hzfly)
    · intro q y hy hyfly hsent
      obtain ⟨z, hz, hzfly, hzchan⟩ := hold q y hy hyfly
      exact (h.fired q z hz hzfly (by rw [hzchan, hsent])).snoc
    · refine h.past.snoc fun q hend => ?_
      obtain ⟨⟨d, hd⟩, hpost⟩ := hend
      obtain ⟨y, hy, hphase⟩ := exists_of_phaseOf hpost
      obtain ⟨z, hz, hzphase⟩ := exists_of_phaseOf hd
      dsimp only at hy hz
      rw [hrec, hget] at hy
      by_cases hq : r = q
      · subst hq
        rw [if_pos rfl, Option.some.injEq] at hy
        subst hy
        have hcan := hmove.cancelled hphase
        have hne := h.cancelling r x hx hcan
        have hdrop := h.alive r x hx hfly
        refine h.fired r x hx hfly ?_
        cases hc : x.channel with
        | held => exact absurd hc hne
        | sent => rfl
        | dropped => exact absurd hc hdrop
      · rw [if_neg hq, hz, Option.some.injEq] at hy
        subst hy
        rw [hzphase] at hphase
        cases hphase
  · refine h.quiet hslot (fun q y hyfly => ?_) hfresh
    have hidle' : x'.phase.inFlight = false := by rw [hmove.inFlight]; simpa using hfly
    rw [hrec, hget]
    by_cases hq : r = q
    · subst hq
      rw [if_pos rfl, hx, Option.some.injEq, Option.some.injEq]
      constructor
      · rintro rfl
        rw [hidle'] at hyfly
        cases hyfly
      · rintro rfl
        exact absurd hyfly hfly
    · rw [if_neg hq]

theorem cancelReceive_get {s : State} {r : Nat} {x : Invocation}
    (hr : s.app.currentReceiveCancel = some r) (hx : s.receives[r]? = some x) (q : Nat) :
    (cancelReceive s).receives[q]? =
      if r = q then some { x with channel := .sent } else s.receives[q]? := by
  simp only [cancelReceive, hr]
  rw [List.getElem?_modify]
  by_cases hq : r = q
  · subst hq
    simp [hx]
  · simp [hq]

theorem Owned.afterFire {tr : List Step} {s : State} {out : List Out} {r : Nat} (h : Owned tr s)
    (hr : s.app.currentReceiveCancel = some r) :
    Owned (tr ++ [⟨s, .cancelReceive, cancelReceive s, out⟩]) (cancelReceive s) := by
  obtain ⟨x, hx, hfly, -⟩ := h.slot r hr
  have hget := cancelReceive_get hr hx
  -- only `r` is in flight, before and after
  have honly : ∀ (q : Nat) (y : Invocation), (cancelReceive s).receives[q]? = some y →
      y.phase.inFlight = true → q = r ∧ y = { x with channel := .sent } := by
    intro q y hy hyfly
    rw [hget] at hy
    by_cases hq : r = q
    · rw [if_pos hq, Option.some.injEq] at hy
      exact ⟨hq.symm, hy.symm⟩
    · rw [if_neg hq] at hy
      exact absurd (h.one r q ⟨x, hx, hfly⟩ ⟨y, hy, hyfly⟩) hq
  refine ⟨?_, ?_, ?_, ?_, ?_, ?_, ?_, ?_, ?_⟩
  · intro q hq
    simp [cancelReceive, hr] at hq
  · intro q y hy hyfly hheld
    obtain ⟨-, rfl⟩ := honly q y hy hyfly
    cases hheld
  · intro q y hy hyfly
    obtain ⟨-, rfl⟩ := honly q y hy hyfly
    simp
  · rintro q q' ⟨y, hy, hyfly⟩ ⟨y', hy', hyfly'⟩
    rw [(honly q y hy hyfly).1, (honly q' y' hy' hyfly').1]
  · intro q y hy hwait
    rw [hget] at hy
    by_cases hq : r = q
    · rw [if_pos hq, Option.some.injEq] at hy
      subst hy
      rw [show x.phase.inFlight = false from Phase.not_inFlight_of_waiting hwait] at hfly
      cases hfly
    · rw [if_neg hq] at hy
      exact h.fresh q y hy hwait
  · intro q y hy hphase
    obtain ⟨-, rfl⟩ := honly q y hy (by rw [hphase]; rfl)
    simp
  · intro q y hy hyfly
    obtain ⟨rfl, -⟩ := honly q y hy hyfly
    exact installs_snoc (h.installed q x hx hfly)
  · intro q y hy hyfly _
    obtain ⟨rfl, -⟩ := honly q y hy hyfly
    exact firedAfterInstall_now (h.installed q x hx hfly) ⟨rfl, hr⟩
  · refine h.past.snoc fun q hend => absurd hend (not_endsCancelled fun y hy hphase d hd => ?_)
    obtain ⟨rfl, rfl⟩ := honly q y hy (by rw [hphase]; rfl)
    rw [show (⟨s, .cancelReceive, cancelReceive s, out⟩ : Step).pre = s from rfl,
      phaseOf_eq hx] at hd
    rw [Option.some.injEq] at hd
    rw [show x.phase = .epilogue (.err "cancelled") from hphase] at hd
    cases hd

/-- With the slot empty and no fired download in flight, nothing is in flight. -/
theorem Owned.none_inFlight {tr : List Step} {s : State} (h : Owned tr s)
    (hslot : s.app.currentReceiveCancel = none)
    (hclean : ∀ x ∈ s.receives, x.phase.inFlight = true → x.channel ≠ .sent) (q : Nat)
    (y : Invocation) (hy : s.receives[q]? = some y) : y.phase.inFlight = false := by
  by_contra hfly
  rw [Bool.not_eq_false] at hfly
  cases hc : y.channel with
  | held =>
    have := h.held q y hy hfly hc
    rw [hslot] at this
    cases this
  | sent => exact hclean y (List.mem_of_getElem? hy) hfly hc
  | dropped => exact h.alive q y hy hfly hc

theorem install_eq {s : State} {r : Nat} {x : Invocation}
    (hslot : s.app.currentReceiveCancel = none) :
    install s r x = setReceive
      { s with app := { s.app with currentReceiveCancel := some r, currentReceiveHash := x.hash } }
      r { x with phase := .download .setup } := by
  simp [install, hslot]

theorem install_get {s : State} {r : Nat} {x : Invocation} (hx : s.receives[r]? = some x)
    (hslot : s.app.currentReceiveCancel = none) (q : Nat) :
    (install s r x).receives[q]? =
      if r = q then some { x with phase := .download .setup } else s.receives[q]? := by
  rw [install_eq hslot, setReceive]
  exact getElem?_set_of_some hx _ q

theorem Owned.install_only {tr : List Step} {s : State} {r : Nat} {x : Invocation} (h : Owned tr s)
    (hx : s.receives[r]? = some x) (hslot : s.app.currentReceiveCancel = none)
    (hclean : ∀ x ∈ s.receives, x.phase.inFlight = true → x.channel ≠ .sent) {q : Nat}
    {y : Invocation} (hy : (install s r x).receives[q]? = some y) (hyfly : y.phase.inFlight = true) :
    q = r ∧ y = { x with phase := .download .setup } := by
  rw [install_get hx hslot] at hy
  by_cases hq : r = q
  · rw [if_pos hq, Option.some.injEq] at hy
    exact ⟨hq.symm, hy.symm⟩
  · rw [if_neg hq] at hy
    rw [h.none_inFlight hslot hclean q y hy] at hyfly
    cases hyfly

theorem Owned.afterInstall {tr : List Step} {s : State} {a : Act} {out : List Out} {r : Nat}
    {x : Invocation} (h : Owned tr s) (hx : s.receives[r]? = some x) (hphase : x.phase = .install)
    (hslot : s.app.currentReceiveCancel = none)
    (hclean : ∀ x ∈ s.receives, x.phase.inFlight = true → x.channel ≠ .sent) :
    Owned (tr ++ [⟨s, a, install s r x, out⟩]) (install s r x) := by
  have hheld : x.channel = .held := h.fresh r x hx (by rw [hphase]; rfl)
  have hget := install_get hx hslot
  have honly : ∀ (q : Nat) (y : Invocation), (install s r x).receives[q]? = some y →
      y.phase.inFlight = true → q = r ∧ y = { x with phase := .download .setup } :=
    fun q y hy hyfly => h.install_only hx hslot hclean hy hyfly
  refine ⟨?_, ?_, ?_, ?_, ?_, ?_, ?_, ?_, ?_⟩
  · intro q hq
    rw [install_eq hslot] at hq
    obtain rfl : r = q := Option.some.inj hq
    exact ⟨{ x with phase := .download .setup }, by rw [hget]; simp, rfl, hheld⟩
  · intro q y hy hyfly _
    obtain ⟨rfl, -⟩ := honly q y hy hyfly
    rw [install_eq hslot]
    rfl
  · intro q y hy hyfly
    obtain ⟨-, rfl⟩ := honly q y hy hyfly
    rw [show ({ x with phase := .download .setup } : Invocation).channel = x.channel from rfl, hheld]
    simp
  · rintro q q' ⟨y, hy, hyfly⟩ ⟨y', hy', hyfly'⟩
    rw [(honly q y hy hyfly).1, (honly q' y' hy' hyfly').1]
  · intro q y hy hwait
    rw [hget] at hy
    by_cases hq : r = q
    · rw [if_pos hq, Option.some.injEq] at hy
      subst hy
      exact hheld
    · rw [if_neg hq] at hy
      exact h.fresh q y hy hwait
  · intro q y hy hcan
    obtain ⟨-, rfl⟩ := honly q y hy (by rw [hcan]; rfl)
    cases hcan
  · intro q y hy hyfly
    obtain ⟨rfl, rfl⟩ := honly q y hy hyfly
    refine ⟨_, List.mem_append_right _ (List.mem_singleton_self _), ?_, ?_⟩
    · rw [phaseOf_eq hx, hphase]
    · rw [phaseOf_eq hy]
  · intro q y hy hyfly hsent
    obtain ⟨-, rfl⟩ := honly q y hy hyfly
    rw [show ({ x with phase := .download .setup } : Invocation).channel = x.channel from rfl,
      hheld] at hsent
    cases hsent
  · refine h.past.snoc fun q hend => absurd hend (not_endsCancelled fun y hy hcan d hd => ?_)
    obtain ⟨-, rfl⟩ := honly q y hy (by rw [hcan]; rfl)
    cases hcan

theorem epilogue_receives (s : State) (r : Nat) (x : Invocation) (result : DownloadResult) :
    (epilogue s r x result).receives =
      (dropSender s.receives s.app.currentReceiveCancel).modify r
        fun x => { x with phase := .finalize result } := rfl

theorem epilogue_self {s : State} {r : Nat} {x y : Invocation} {result : DownloadResult}
    (hy : (epilogue s r x result).receives[r]? = some y) : y.phase = .finalize result := by
  rw [epilogue_receives, List.getElem?_modify] at hy
  simp only [if_true, Option.map_eq_map, Option.map_eq_some_iff] at hy
  obtain ⟨z, -, rfl⟩ := hy
  rfl

/-- The epilogue of the download in flight leaves the other invocations alone: the sender it drops
is its own. -/
theorem Owned.epilogue_other {tr : List Step} {s : State} {r : Nat} {x : Invocation}
    {result : DownloadResult} (h : Owned tr s) (hx : s.receives[r]? = some x)
    (hfly : x.phase.inFlight = true) {q : Nat} (hq : q ≠ r) :
    (epilogue s r x result).receives[q]? = s.receives[q]? := by
  have hdrop : (dropSender s.receives s.app.currentReceiveCancel)[q]? = s.receives[q]? := by
    unfold dropSender
    split
    · rfl
    · rename_i owner howner
      obtain ⟨y, hy, hyfly, -⟩ := h.slot owner howner
      have hown : owner = r := h.one owner r ⟨y, hy, hyfly⟩ ⟨x, hx, hfly⟩
      rw [List.getElem?_modify]
      simp [hown, Ne.symm hq]
  rw [epilogue_receives, List.getElem?_modify, hdrop]
  simp [Ne.symm hq]

theorem Owned.epilogue_none {tr : List Step} {s : State} {r : Nat} {x y : Invocation}
    {result : DownloadResult} (h : Owned tr s) (hx : s.receives[r]? = some x)
    (hfly : x.phase.inFlight = true) {q : Nat}
    (hy : (epilogue s r x result).receives[q]? = some y) : y.phase.inFlight = false := by
  by_cases hq : q = r
  · subst hq
    rw [epilogue_self hy]
    rfl
  · rw [h.epilogue_other hx hfly hq] at hy
    by_contra hyfly
    exact hq (h.one q r ⟨y, hy, by simpa using hyfly⟩ ⟨x, hx, hfly⟩)

theorem Owned.afterEpilogue {tr : List Step} {s : State} {a : Act} {out : List Out} {r : Nat}
    {x : Invocation} {result : DownloadResult} (h : Owned tr s) (hx : s.receives[r]? = some x)
    (hphase : x.phase = .epilogue result) :
    Owned (tr ++ [⟨s, a, epilogue s r x result, out⟩]) (epilogue s r x result) := by
  have hfly : x.phase.inFlight = true := by rw [hphase]; rfl
  have hcontra : ∀ (q : Nat) (y : Invocation) {P : Prop},
      (epilogue s r x result).receives[q]? = some y → y.phase.inFlight = true → P := by
    intro q y P hy hyfly
    rw [h.epilogue_none hx hfly hy] at hyfly
    cases hyfly
  refine ⟨?_, ?_, ?_, ?_, ?_, ?_, ?_, ?_, ?_⟩
  · intro q hq
    cases hq
  · exact fun q y hy hyfly => hcontra q y hy hyfly
  · exact fun q y hy hyfly => hcontra q y hy hyfly
  · rintro q q' ⟨y, hy, hyfly⟩ -
    exact hcontra q y hy hyfly
  · intro q y hy hwait
    by_cases hq : q = r
    · subst hq
      rw [epilogue_self hy] at hwait
      cases hwait
    · rw [h.epilogue_other hx hfly hq] at hy
      exact h.fresh q y hy hwait
  · exact fun q y hy hcan => hcontra q y hy (by rw [hcan]; rfl)
  · exact fun q y hy hyfly => hcontra q y hy hyfly
  · exact fun q y hy hyfly => hcontra q y hy hyfly
  · refine h.past.snoc fun q hend => absurd hend (not_endsCancelled fun y hy hcan d hd => ?_)
    exact hcontra q y hy (by rw [hcan]; rfl)

theorem Owned.step {fs : FileSystem} {tr : List Step} {s s' : State} {a : Act} {out : List Out}
    (h : Owned tr s) (hclean : CleanInstall s a) (hs : (machine fs).step s a = some (s', out)) :
    Owned (tr ++ [⟨s, a, s', out⟩]) s' := by
  cases step_move hs with
  | quiet hrec hslot _ =>
    refine h.quiet hslot (fun q y _ => by rw [hrec]) fun q y hy hwait => ?_
    rw [hrec] at hy
    exact h.fresh q y hy hwait
  | @spawn hash recording x hstart hheld hrec happ =>
    have hget : ∀ (q : Nat) (y : Invocation), s'.receives[q]? = some y →
        s.receives[q]? = some y ∨ y = x := by
      intro q y hy
      rw [hrec, List.getElem?_append] at hy
      split at hy
      · exact .inl hy
      · rw [List.getElem?_singleton] at hy
        split at hy
        · exact .inr (Option.some.inj hy).symm
        · cases hy
    refine h.quiet (by rw [happ]) (fun q y hyfly => ⟨fun hy => ?_, fun hy => ?_⟩)
      fun q y hy hwait => ?_
    · rcases hget q y hy with hy | rfl
      · exact hy
      · rw [hstart] at hyfly
        cases hyfly
    · rw [hrec, List.getElem?_append_left (List.getElem?_eq_some_iff.mp hy).1]
      exact hy
    · rcases hget q y hy with hy | rfl
      · exact h.fresh q y hy hwait
      · exact hheld
  | fire hr hs' =>
    subst hs'
    exact h.afterFire hr
  | move hx hmove hrec hslot _ => exact h.afterMove hx hmove hrec hslot
  | install hx hphase hslot hs' =>
    subst hs'
    exact h.afterInstall hx hphase hslot (hclean (by rw [phaseOf_eq hx, hphase]))
  | epilogue hx hphase hs' =>
    subst hs'
    exact h.afterEpilogue hx hphase

theorem run_owned {fs : FileSystem} {rows : List TransferRecord} {stores : Finset String}
    {last : Option String} {tr : List Step} {s : State}
    (hrun : Run (machine fs) CleanInstall (initial rows stores last) tr s) : Owned tr s :=
  hrun.invariant (owned_initial rows stores last) fun h hok hs => h.step hok hs

/-- In every run whose installs are clean, `cancelled` always comes from a `cancel_receive` that
fired the download's own sender after its install, and at most one download is in flight. -/
theorem cancel_owned (fs : FileSystem) (rows : List TransferRecord) (stores : Finset String)
    (last : Option String) (tr : List Step) (s : State)
    (hrun : Run (machine fs) CleanInstall (initial rows stores last) tr s) :
    CancelOwned tr ∧ Exclusive s :=
  ⟨(run_owned hrun).past, (run_owned hrun).one⟩

/-- A step of invocation `r`. -/
def go (r : Nat) (p : Progress) : Act := .receive r p true "row"

/-- A file system whose directories resolve to themselves. -/
def plainFs : FileSystem := ⟨"/tmp", some⟩

/-- One receive, cancelled while it fetches, then a second one after the epilogue of the first. -/
def cancelledThenNext : List Act :=
  [.receiveFile (some "a") true, go 0 .next, go 0 .next, go 0 .next, go 0 .next, go 0 .next,
    .cancelReceive, go 0 .cancel, go 0 .next, go 0 .next, .receiveFile (some "b") true,
    go 1 .next, go 1 .next, go 1 .next]

/-- The theorem applies to a run with a cancel and a receive after it. -/
theorem cancel_owned_cancelledThenNext :
    ∃ tr s, Run (machine plainFs) CleanInstall (initial [] ∅ none) tr s ∧
      (∃ e ∈ tr, EndsCancelled 0 e) ∧ InFlight s 1 ∧ CancelOwned tr ∧ Exclusive s := by
  obtain ⟨tr, s, hrun, htest⟩ := Run.of_check (machine plainFs) CleanInstall
    (initial [] ∅ none) cancelledThenNext
    (fun tr s => tr.any (fun e => phaseOf e.pre 0 = some (.download .cancelling) ∧
      phaseOf e.post 0 = some (.epilogue (.err "cancelled"))) &&
      phaseOf s 1 = some (.download .setup)) (by decide)
  simp only [Bool.and_eq_true, List.any_eq_true, decide_eq_true_eq] at htest
  obtain ⟨⟨e, he, hpre, hpost⟩, hopen⟩ := htest
  obtain ⟨x, hx, hphase⟩ := exists_of_phaseOf hopen
  exact ⟨tr, s, hrun, ⟨e, he, ⟨_, hpre⟩, hpost⟩, ⟨x, hx, by rw [hphase]; rfl⟩,
    cancel_owned plainFs [] ∅ none tr s hrun⟩

/-- A receive that installs itself while the cancelled one is still shutting down. -/
def gapInstall : List Act :=
  [.receiveFile (some "a") true, .receiveFile (some "b") true, go 0 .next, go 0 .next, go 0 .next,
    go 0 .next, go 0 .next, .cancelReceive, go 1 .next, go 1 .next]

/-- The cancelled receive finishes, its epilogue drops the sender of the other one, and the other
one ends `cancelled`. -/
def gapCancelled : List Act :=
  gapInstall ++ [go 0 .cancel, go 0 .next, go 0 .next, go 1 .next, go 1 .next, go 1 .next,
    go 1 .cancel, go 1 .next]

theorem not_cancelOwned {tr : List Step} {e : Step} {r : Nat} (hlast : tr.getLast? = some e)
    (hend : EndsCancelled r e) (hfires : ∀ f ∈ tr, ¬ Fires r f) : ¬ CancelOwned tr := by
  intro h
  have htr : tr = tr.dropLast ++ e :: [] := by
    rw [List.getLast?_eq_some_iff] at hlast
    obtain ⟨ys, rfl⟩ := hlast
    simp
  obtain ⟨before, i, after, hpast, -, f, hf, hfire⟩ := h _ e [] htr r hend
  refine hfires f ?_ hfire
  rw [htr, hpast]
  simp [hf]

/-- Two downloads in flight at once, and a download that ends `cancelled` although no
`cancel_receive` fired its sender. -/
theorem unowned_cancel :
    (∃ tr s, Run (machine plainFs) anyStep (initial [] ∅ none) tr s ∧ ¬ Exclusive s) ∧
      ∃ tr s, Run (machine plainFs) anyStep (initial [] ∅ none) tr s ∧ ¬ CancelOwned tr := by
  constructor
  · obtain ⟨tr, s, hrun, htest⟩ := Run.of_check (machine plainFs) anyStep
      (initial [] ∅ none) gapInstall
      (fun _ s => phaseOf s 0 = some (.download .fetching) ∧
        phaseOf s 1 = some (.download .setup)) (by decide)
    obtain ⟨h0, h1⟩ := of_decide_eq_true htest
    obtain ⟨x, hx, hphase⟩ := exists_of_phaseOf h0
    obtain ⟨y, hy, hphase'⟩ := exists_of_phaseOf h1
    refine ⟨tr, s, hrun, fun hex => ?_⟩
    have := hex 0 1 ⟨x, hx, by rw [hphase]; rfl⟩ ⟨y, hy, by rw [hphase']; rfl⟩
    omega
  · obtain ⟨tr, s, hrun, htest⟩ := Run.of_check (machine plainFs) anyStep
      (initial [] ∅ none) gapCancelled
      (fun tr _ => tr.getLast?.any (fun e => phaseOf e.pre 1 = some (.download .cancelling) ∧
        phaseOf e.post 1 = some (.epilogue (.err "cancelled"))) && tr.all (fun f => ¬ Fires 1 f))
      (by decide)
    simp only [Bool.and_eq_true, Option.any_eq_true, List.all_eq_true, decide_eq_true_eq] at htest
    obtain ⟨⟨e, hlast, hpre, hpost⟩, hfires⟩ := htest
    exact ⟨tr, s, hrun, not_cancelOwned hlast ⟨⟨_, hpre⟩, hpost⟩ hfires⟩

end DashBeam.Receive

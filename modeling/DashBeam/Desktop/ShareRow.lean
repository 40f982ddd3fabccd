import DashBeam.Desktop.ShareSlot

/-!
# The history row of a share that is over

A share's recorder hears from the engine until the share is dropped, and from `stop_sharing` when
the share is taken out of the slot, before its router is shut down. So the recorder of every share
that is over was told once that it was cancelled (`Recorded`). The engine can still report between
that and the end of the router: a transfer that starts only then opens the row, and nobody closes it
if the router ends first (`ended_share_row`).
-/

namespace DashBeam.Desktop.Sharing

open Lib Recording

/-- A call that is no report of the app: an event of the engine, the hash, or an invited peer. -/
def Plain (step : RecordingStep) : Prop :=
  step.event.isSome = true ∨ (∃ io f, step = .call io (.updateContext f)) ∨
    ∃ io peer, step = .call io (.noteInvitedPeer peer)

/-- The calls on the recorder of share `n`, if it has one. -/
def State.callsOf (s : State) (n : Nat) : Option (List RecordingStep) :=
  s.shares[n]?.bind Share.recorder

/-- `stop_sharing` takes share `n` out of the slot. -/
def TakesOut (n : Nat) (io : Io) (e : Entry State Act Out) : Prop :=
  ∃ j, e.act = .stop j io ∧ e.pre.stops[j]? = some .lock ∧ e.pre.currentShare = some n

/-- `ShareHandle::stop` is through: the router of share `n` is shut down. -/
def ShutsDown (n : Nat) (e : Entry State Act Out) : Prop :=
  ∃ j io, e.act = .stop j io ∧ e.pre.stops[j]? = some (.stopping n)

/-- The recorder of share `n` had these calls when the share was taken out of the slot, and was told
then that it is cancelled. -/
def Told (past : List (Entry State Act Out)) (n : Nat) (front : List RecordingStep) (io : Io) :
    Prop :=
  ∃ e ∈ past, TakesOut n io e ∧ e.pre.callsOf n = some front ∧
    e.post.callsOf n = some (front ++ [cancelled io])

/-- The calls on the recorder of a share that was stopped. -/
def Cancelled (past : List (Entry State Act Out)) (n : Nat) (calls : List RecordingStep) : Prop :=
  ∃ front io back, Told past n front io ∧ calls = front ++ cancelled io :: back ∧
    (∀ step ∈ front, Plain step) ∧ ∀ step ∈ back, Plain step

/-- The recorder of share `n` had all its calls when the router was shut down, and the one of the stop
came before that. -/
def Ended (past : List (Entry State Act Out)) (n : Nat) (calls : List RecordingStep) : Prop :=
  ∃ before e after, past = before ++ e :: after ∧ ShutsDown n e ∧ e.pre.callsOf n = some calls ∧
    Cancelled before n calls

/-- The recorder of a share is told once that it was stopped, before the router closes. -/
def Recorded (past : List (Entry State Act Out)) (s : State) : Prop :=
  ∀ (n : Nat) (share : Share) (calls : List RecordingStep), s.shares[n]? = some share →
    share.recorder = some calls →
    (∀ step ∈ calls, Plain step) ∧ (share.held = true ∨ share.ticket = none) ∧
      (∀ j : Nat, s.stops[j]? ≠ some (.stopping n)) ∨
    Cancelled past n calls ∧ (∃ j : Nat, s.stops[j]? = some (.stopping n)) ∨
    Ended past n calls ∧ share.held = false

/-- A row that these steps leave in progress: the last thing that they did to it was to open it. -/
def LeavesOpen (steps : List RecordingStep) : Prop :=
  ∃ before start after, steps = before ++ start :: after ∧
    (∀ step ∈ before, step.starts = false) ∧ start.starts = true ∧
    ∀ step ∈ after, step.terminal = none

section Row

variable {past : List (Entry State Act Out)} {s s' : State} {slot : Slot} {out : List Out}

theorem callsOf_eq {n : Nat} {share : Share} {calls : List RecordingStep}
    (hshare : s.shares[n]? = some share) (hcalls : share.recorder = some calls) :
    s.callsOf n = some calls := by
  rw [State.callsOf, hshare]
  exact hcalls

/-- A share of a list in which one was replaced. -/
theorem modify_share_cases {shares : List Share} {n k : Nat} {f : Share → Share} {share : Share}
    (h : (shares.modify n f)[k]? = some share) :
    n = k ∧ (∃ old, shares[n]? = some old ∧ f old = share) ∨ n ≠ k ∧ shares[k]? = some share := by
  rw [getElem?_modify_share] at h
  split at h
  · rename_i heq
    subst heq
    exact Or.inl ⟨rfl, Option.map_eq_some_iff.mp h⟩
  · rename_i hne
    exact Or.inr ⟨hne, h⟩

theorem plain_append {calls : List RecordingStep} {step : RecordingStep}
    (h : ∀ other ∈ calls, Plain other) (hstep : Plain step) :
    ∀ other ∈ calls ++ [step], Plain other := by
  rw [List.forall_mem_append, List.forall_mem_singleton]
  exact ⟨h, hstep⟩

theorem Cancelled.append {n : Nat} {calls : List RecordingStep} {step : RecordingStep}
    (h : Cancelled past n calls) (hstep : Plain step) : Cancelled past n (calls ++ [step]) := by
  obtain ⟨front, io, back, htold, rfl, hfront, hback⟩ := h
  refine ⟨front, io, back ++ [step], htold, ?_, hfront, plain_append hback hstep⟩
  rw [List.append_assoc, List.cons_append]

theorem Cancelled.later {n : Nat} {calls : List RecordingStep} (h : Cancelled past n calls)
    (e : Entry State Act Out) : Cancelled (past ++ [e]) n calls := by
  obtain ⟨front, io, back, ⟨e', he', htold⟩, hrest⟩ := h
  exact ⟨front, io, back, ⟨e', List.mem_append_left _ he', htold⟩, hrest⟩

theorem Ended.later {n : Nat} {calls : List RecordingStep} (h : Ended past n calls)
    (e : Entry State Act Out) : Ended (past ++ [e]) n calls := by
  obtain ⟨before, e', after, rfl, hrest⟩ := h
  refine ⟨before, e', after ++ [e], ?_, hrest⟩
  rw [List.append_assoc, List.cons_append]

theorem Recorded.later (h : Recorded past s) (e : Entry State Act Out) :
    Recorded (past ++ [e]) s := by
  intro n share calls hshare hcalls
  rcases h n share calls hshare hcalls with hopen | ⟨hcancelled, hstop⟩ | ⟨hended, hdropped⟩
  · exact Or.inl hopen
  · exact Or.inr (Or.inl ⟨hcancelled.later e, hstop⟩)
  · exact Or.inr (Or.inr ⟨hended.later e, hdropped⟩)

theorem Recorded.note {n : Nat} {step : RecordingStep} (h : Recorded past s) (hstep : Plain step)
    (hheld : ∀ share, s.shares[n]? = some share → share.held = true)
    (hshares : s'.shares = s.shares.modify n (Share.note step)) (hstops : s'.stops = s.stops) :
    Recorded past s' := by
  intro k share calls hshare hcalls
  rw [hshares] at hshare
  rw [hstops]
  rcases modify_share_cases hshare with ⟨rfl, old, hold, rfl⟩ | ⟨-, hshare⟩
  · obtain ⟨before, hbefore, rfl⟩ := Option.map_eq_some_iff.mp hcalls
    rcases h n old before hold hbefore with ⟨hplain, hrest⟩ | ⟨hcancelled, hstop⟩ | ⟨-, hdropped⟩
    · exact Or.inl ⟨plain_append hplain hstep, hrest⟩
    · exact Or.inr (Or.inl ⟨hcancelled.append hstep, hstop⟩)
    · rw [hheld old hold] at hdropped
      cases hdropped
  · exact h k share calls hshare hcalls

/-- What the recorders were told does not depend on the other fields. -/
theorem Recorded.frame (h : Recorded past s) (hshares : s'.shares = s.shares)
    (hstops : ∀ k n : Nat, s'.stops[k]? = some (.stopping n) ↔ s.stops[k]? = some (.stopping n)) :
    Recorded past s' := by
  intro n share calls hshare hcalls
  rw [hshares] at hshare
  simp only [ne_eq, hstops]
  exact h n share calls hshare hcalls

theorem recorded_startShare {i : Nat} {x : Send} {fellBackToPublic recording : Bool}
    (h : Recorded past s) (honly : s.OnlyStop none) :
    Recorded past (s.startShare i x fellBackToPublic recording) := by
  intro n share calls hshare hcalls
  change (s.shares ++ [_])[n]? = some share at hshare
  rcases Nat.lt_or_ge n s.shares.length with hlt | hge
  · rw [List.getElem?_append_left hlt] at hshare
    exact h n share calls hshare hcalls
  · rw [List.getElem?_append_right hge] at hshare
    obtain rfl := List.mem_singleton.mp (List.mem_of_getElem? hshare)
    cases recording with
    | false => cases hcalls
    | true =>
      obtain rfl := Option.some.inj hcalls
      refine Or.inl ⟨fun step hstep => absurd hstep List.not_mem_nil, Or.inl rfl, ?_⟩
      intro j hj
      cases honly j n hj

theorem recorded_serve {i n : Nat} {x : Send} {ticket hash : String} {io : Io}
    (h : Recorded past s) (honly : s.OnlyStop none) (hshare : s.OnlyShare (some n)) :
    Recorded past (s.serve i x n ticket hash io) := by
  intro k share calls hk hcalls
  rcases modify_share_cases hk with ⟨rfl, old, hold, rfl⟩ | ⟨-, hk⟩
  · obtain ⟨before, hbefore, rfl⟩ := Option.map_eq_some_iff.mp hcalls
    have hheld : old.held = true := (hshare n old hold).mpr rfl
    have hplain : Plain (.call io
        (.updateContext fun context => { context with blobHash := some hash })) :=
      Or.inr (Or.inl ⟨_, _, rfl⟩)
    rcases h n old before hold hbefore with ⟨hopen, -, hstop⟩ | ⟨-, j, hj⟩ | ⟨-, hdropped⟩
    · exact Or.inl ⟨plain_append hopen hplain, Or.inl hheld, hstop⟩
    · cases honly j n hj
    · rw [hheld] at hdropped
      cases hdropped
  · exact h k share calls hk hcalls

theorem recorded_fail {n : Nat} (h : Recorded past s) (hticket : s.ticketOf n = none)
    (honly : s.OnlyStop none) (hshares : s'.shares = (s.drop n).shares)
    (hstops : s'.stops = s.stops) : Recorded past s' := by
  intro k share calls hk hcalls
  rw [hshares] at hk
  rw [hstops]
  rcases modify_share_cases hk with ⟨rfl, old, hold, rfl⟩ | ⟨-, hk⟩
  · rcases h n old calls hold hcalls with ⟨hopen, -, hstop⟩ | ⟨-, j, hj⟩ | ⟨hended, -⟩
    · rw [State.ticketOf, hold] at hticket
      exact Or.inl ⟨hopen, Or.inr hticket, hstop⟩
    · cases honly j n hj
    · exact Or.inr (Or.inr ⟨hended, rfl⟩)
  · exact h k share calls hk hcalls

theorem recorded_drop {n : Nat} {e : Entry State Act Out} (h : Recorded past s) (he : ShutsDown n e)
    (hpre : e.pre = s) (honly : s.OnlyStop (some n)) (hshares : s'.shares = (s.drop n).shares)
    (hstops : ∀ k m : Nat, s'.stops[k]? ≠ some (.stopping m)) : Recorded (past ++ [e]) s' := by
  obtain ⟨j, io, hact, hj⟩ := he
  intro k share calls hk hcalls
  rw [hshares] at hk
  rcases modify_share_cases hk with ⟨rfl, old, hold, rfl⟩ | ⟨hne, hk⟩
  · refine Or.inr (Or.inr ⟨?_, rfl⟩)
    rcases h n old calls hold hcalls with ⟨-, -, hstop⟩ | ⟨hcancelled, -⟩ | ⟨hended, -⟩
    · exact absurd (hpre ▸ hj) (hstop j)
    · exact ⟨past, e, [], rfl, ⟨j, io, hact, hj⟩, hpre ▸ callsOf_eq hold hcalls, hcancelled⟩
    · exact hended.later e
  · rcases h k share calls hk hcalls with ⟨hopen, hheld, -⟩ | ⟨-, j', hj'⟩ | ⟨hended, hdropped⟩
    · exact Or.inl ⟨hopen, hheld, fun j' => hstops j' k⟩
    · exact absurd (Option.some.inj (honly j' k hj')) hne
    · exact Or.inr (Or.inr ⟨hended.later e, hdropped⟩)

theorem recorded_send {i : Nat} {x : Send} {p : Progress} (h : Recorded past s)
    (hshows : Shows s slot) (hx : s.sends[i]? = some x)
    (hstep : s.sendStep i x p = some (s', out)) : Recorded past s' := by
  have hreserved : ∀ {phase}, x.phase = phase → phase ≠ .reserve → phase ≠ .done → x.Reserved := by
    intro phase hphase hne hne'
    rw [Send.Reserved, hphase]
    exact ⟨hne, hne'⟩
  have hframe : ∀ s'' : State, s''.shares = s.shares → s''.stops = s.stops →
      Recorded past s'' := by
    intro s'' hshares hstops
    apply h.frame hshares
    intro k n
    rw [hstops]
  unfold State.sendStep at hstep
  split at hstep
  · split at hstep
    · cases hstep
    · have hs' : s' = (s.reserve i x).1 := (congrArg Prod.fst (Option.some.inj hstep)).symm
      rw [hs', State.reserve]
      split
      · exact hframe _ rfl rfl
      · exact hframe _ rfl rfl
  · obtain ⟨rfl, -⟩ := Prod.mk.inj (Option.some.inj hstep)
    exact hframe _ rfl rfl
  · obtain ⟨rfl, -⟩ := Prod.mk.inj (Option.some.inj hstep)
    exact hframe _ rfl rfl
  · obtain ⟨rfl, -⟩ := Prod.mk.inj (Option.some.inj hstep)
    exact hframe _ rfl rfl
  · rename_i hphase
    obtain ⟨rfl, -⟩ := Prod.mk.inj (Option.some.inj hstep)
    obtain ⟨-, -, -, -, honly, -⟩ :=
      hshows.starting_of_reserved hx (hreserved hphase (by simp) (by simp))
    exact recorded_startShare h honly
  · rename_i n fellBackToPublic ticket hash io hphase
    obtain ⟨rfl, -⟩ := Prod.mk.inj (Option.some.inj hstep)
    obtain ⟨-, -, -, -, honly, hshare, -⟩ :=
      hshows.starting_of_reserved hx (hreserved hphase (by simp) (by simp))
    rw [Send.share, hphase] at hshare
    exact recorded_serve h honly hshare
  · rename_i n fellBackToPublic e hphase
    obtain ⟨rfl, -⟩ := Prod.mk.inj (Option.some.inj hstep)
    obtain ⟨-, -, -, -, honly, -, -, hticket, -⟩ :=
      hshows.starting_of_reserved hx (hreserved hphase (by simp) (by simp))
    exact recorded_fail h (hticket n _ hphase) honly rfl rfl
  · rename_i result hphase
    split at hstep
    · cases hstep
    · have hs' : s' = (s.commit i x result).1 := (congrArg Prod.fst (Option.some.inj hstep)).symm
      obtain ⟨-, -, hnone, -⟩ := hshows.starting_of_reserved hx (hreserved hphase (by simp) (by simp))
      cases result with
      | error e =>
        rw [hs', State.commit]
        exact hframe _ rfl rfl
      | ok n =>
        have hnot : ¬ s.currentShare.isSome = true := by
          rw [hnone]
          exact Bool.false_ne_true
        rw [hs', State.commit, if_neg hnot]
        exact hframe _ rfl rfl
  · cases hstep

theorem stopHostOrReturn_fields (s : State) (j : Nat) :
    (s.stopHostOrReturn j).shares = s.shares ∧
      ∃ phase', (s.stopHostOrReturn j).stops = s.stops.set j phase' ∧
        ∀ n, phase' ≠ .stopping n := by
  rw [State.stopHostOrReturn]
  split
  · exact ⟨rfl, _, rfl, by simp⟩
  · exact ⟨rfl, _, rfl, by simp⟩

theorem recorded_stop {j n : Nat} {io : Io} (h : Recorded past s) (hj : s.stops[j]? = some .lock)
    (honlyStop : s.OnlyStop none) (honly : s.OnlyShare (some n))
    (hshares : s'.shares = s.shares.modify n (Share.note (cancelled io)))
    (hstops : s'.stops = s.stops.set j (.stopping n))
    (htold : ∀ before, s.callsOf n = some before → Told past n before io) : Recorded past s' := by
  intro k share calls hk hcalls
  rw [hshares] at hk
  rcases modify_share_cases hk with ⟨rfl, old, hold, rfl⟩ | ⟨hne, hk⟩
  · obtain ⟨before, hbefore, rfl⟩ := Option.map_eq_some_iff.mp hcalls
    have hstopping : s'.stops[j]? = some (.stopping n) := by
      rw [hstops, getElem?_set_of_some hj, if_pos rfl]
    have hheld : old.held = true := (honly n old hold).mpr rfl
    rcases h n old before hold hbefore with ⟨hopen, -⟩ | ⟨-, j', hj'⟩ | ⟨-, hdropped⟩
    · refine Or.inr (Or.inl ⟨⟨before, io, [], htold before (callsOf_eq hold hbefore), rfl, hopen,
        fun _ hmem => absurd hmem List.not_mem_nil⟩, j, hstopping⟩)
    · cases honlyStop j' n hj'
    · rw [hheld] at hdropped
      cases hdropped
  · rcases h k share calls hk hcalls with ⟨hopen, hheld, hstop⟩ | ⟨-, j', hj'⟩ | hended
    · refine Or.inl ⟨hopen, hheld, ?_⟩
      intro j' hj'
      rw [hstops, getElem?_set_of_some hj] at hj'
      split at hj'
      · exact hne (StopPhase.stopping.inj (Option.some.inj hj'))
      · exact hstop j' hj'
    · cases honlyStop j' k hj'
    · exact Or.inr (Or.inr hended)

/-- The recorder of the share in the slot learns of the stop. -/
theorem callsOf_note {n : Nat} {calls : List RecordingStep} {step : RecordingStep}
    (h : s.callsOf n = some calls) (hshares : s'.shares = s.shares.modify n (Share.note step)) :
    s'.callsOf n = some (calls ++ [step]) := by
  obtain ⟨share, hshare, hcalls⟩ := Option.bind_eq_some_iff.mp h
  rw [State.callsOf, hshares, getElem?_modify_share, if_pos rfl, hshare]
  simp only [Option.map_some, Option.bind_some, Share.note, hcalls]

theorem recorded_stopStep {j : Nat} {io : Io} {phase : StopPhase} (h : Recorded past s)
    (hshows : Shows s slot) (hlocked : Locked s) (hj : s.stops[j]? = some phase)
    (hstep : s.stopStep j io phase = some (s', out)) :
    Recorded (past ++ [⟨s, .stop j io, s', out⟩]) s' := by
  have hlater := h.later ⟨s, .stop j io, s', out⟩
  obtain ⟨hshares, phase', hstops, hphase'⟩ := stopHostOrReturn_fields s j
  cases phase with
  | done => cases hstep
  | stopHost =>
    obtain ⟨rfl, -⟩ := Prod.mk.inj (Option.some.inj hstep)
    exact hlater.frame rfl (stops_set_iff hj (by simp) (by simp))
  | lock =>
    rw [State.stopStep] at hstep
    split at hstep
    · cases hstep
    · rename_i hfree
      have hquiet : Recorded (past ++ [⟨s, .stop j io, s', out⟩]) (s.stopHostOrReturn j) := by
        apply hlater.frame hshares
        intro k n
        rw [hstops]
        exact stops_set_iff hj (by simp) hphase' k n
      cases hshows with
      | closing j' n h₁ h₂ h₃ => exact absurd (hlocked.locked h₃ (Or.inr ⟨n, rfl⟩)) hfree
      | idle h₁ h₂ | starting i x h₁ h₂ =>
        simp only [h₂, Option.some.injEq, Prod.mk.injEq] at hstep
        rw [hstep.1] at hquiet
        exact hquiet
      | sharing n ticket h₁ h₂ h₃ h₄ h₅ h₆ =>
        simp only [h₂, Option.some.injEq, Prod.mk.injEq] at hstep
        obtain ⟨rfl, -⟩ := hstep
        refine recorded_stop hlater hj h₅ h₆ rfl rfl fun before hbefore => ?_
        exact ⟨_, List.mem_concat_self, ⟨j, rfl, hj, h₂⟩, hbefore, callsOf_note hbefore rfl⟩
  | stopping n =>
    obtain ⟨rfl, -⟩ := Prod.mk.inj (Option.some.inj hstep)
    obtain ⟨hshares, phase', hstops, hphase'⟩ := stopHostOrReturn_fields (s.drop n) j
    have hone : s.OnlyStop (some n) := by
      intro k m hk
      obtain rfl := hlocked.one hj hk (Or.inr ⟨_, rfl⟩) (Or.inr ⟨_, rfl⟩)
      exact congrArg some (StopPhase.stopping.inj (Option.some.inj (hj.symm.trans hk)))
    refine recorded_drop h ⟨j, io, rfl, hj⟩ rfl hone hshares ?_
    intro k m hk
    rw [hstops] at hk
    change (s.stops.set j phase')[k]? = _ at hk
    rw [getElem?_set_of_some hj] at hk
    split at hk
    · exact hphase' m (Option.some.inj hk)
    · rename_i hne
      exact hne (hlocked.one hj hk (Or.inr ⟨_, rfl⟩) (Or.inr ⟨_, rfl⟩))

theorem Shows.held {n : Nat} {share : Share} (h : Shows s slot) (hcurrent : s.currentShare = some n)
    (hshare : s.shares[n]? = some share) : share.held = true := by
  cases h with
  | sharing n' ticket _ hcurrent' _ _ _ honly =>
    rw [hcurrent] at hcurrent'
    exact (honly n share hshare).mpr hcurrent'.symm
  | idle _ hnone | starting _ _ _ hnone | closing _ _ _ hnone =>
    rw [hcurrent] at hnone
    cases hnone

/-- The share that is being stopped is held until its router is shut down. -/
theorem Shows.held_of_stopping {j n : Nat} {share : Share} (h : Shows s slot)
    (hj : s.stops[j]? = some (.stopping n)) (hshare : s.shares[n]? = some share) :
    share.held = true := by
  cases h with
  | closing j' n' _ _ _ _ honlyStop honly =>
    exact (honly n share hshare).mpr (honlyStop j n hj)
  | idle _ _ _ honlyStop | starting _ _ _ _ _ _ _ honlyStop | sharing _ _ _ _ _ _ honlyStop =>
    cases honlyStop j n hj

theorem recorded_step {a : Act} (h : Recorded past s) (hshows : Shows s slot) (hlocked : Locked s)
    (hstep : s.step a = some (s', out)) : Recorded (past ++ [⟨s, a, s', out⟩]) s' := by
  have hlater := h.later ⟨s, a, s', out⟩
  have hframe : ∀ s'' : State, s''.shares = s.shares → s''.stops = s.stops →
      Recorded (past ++ [⟨s, a, s', out⟩]) s'' := by
    intro s'' hshares hstops
    apply hlater.frame hshares
    intro k n
    rw [hstops]
  cases a with
  | sendItems paths =>
    rw [State.step] at hstep
    split at hstep
    · obtain ⟨rfl, -⟩ := Prod.mk.inj (Option.some.inj hstep)
      exact hlater
    · obtain ⟨rfl, -⟩ := Prod.mk.inj (Option.some.inj hstep)
      exact hframe _ rfl rfl
  | send i p =>
    obtain ⟨x, hx, hsend⟩ := Option.bind_eq_some_iff.mp hstep
    exact recorded_send hlater hshows hx hsend
  | event n step =>
    rw [State.step] at hstep
    split at hstep
    · cases hstep
    · rename_i share hshare
      split at hstep
      · rename_i hevent
        obtain ⟨rfl, -⟩ := Prod.mk.inj (Option.some.inj hstep)
        refine hlater.note (Or.inl hevent.2) (fun share' hshare' => ?_) rfl rfl
        obtain rfl := Option.some.inj (hshare.symm.trans hshare')
        exact hevent.1
      · cases hstep
  | stopSharing =>
    obtain ⟨rfl, -⟩ := Prod.mk.inj (Option.some.inj hstep)
    exact hlater.frame rfl stops_append_iff
  | stop j io =>
    obtain ⟨phase, hphase, hstop⟩ := Option.bind_eq_some_iff.mp hstep
    exact recorded_stopStep h hshows hlocked hphase hstop
  | getSharingStatus =>
    rw [State.step] at hstep
    split at hstep
    · cases hstep
    · obtain ⟨rfl, -⟩ := Prod.mk.inj (Option.some.inj hstep)
      exact hlater
  | noteSharePeer io peer =>
    rw [State.step] at hstep
    split at hstep
    · cases hstep
    · split at hstep
      · obtain ⟨rfl, -⟩ := Prod.mk.inj (Option.some.inj hstep)
        exact hlater
      · rename_i n hcurrent
        obtain ⟨rfl, -⟩ := Prod.mk.inj (Option.some.inj hstep)
        exact hlater.note (Or.inr (Or.inr ⟨io, peer, rfl⟩))
          (fun _ hshare => hshows.held hcurrent hshare) rfl rfl
  | reconfigureNodeRelay =>
    obtain ⟨rfl, -⟩ := Prod.mk.inj (Option.some.inj hstep)
    exact hframe _ rfl rfl
  | reconfigure k ok =>
    obtain ⟨phase, -, hreconfigure⟩ := Option.bind_eq_some_iff.mp hstep
    have hset : ∃ phase', s' = s.setReconfigure k phase' := by
      unfold State.reconfigureStep at hreconfigure
      grind
    obtain ⟨phase', rfl⟩ := hset
    exact hframe _ rfl rfl
  | setNode node =>
    rw [State.step] at hstep
    split at hstep
    · cases hstep
    · obtain ⟨rfl, -⟩ := Prod.mk.inj (Option.some.inj hstep)
      exact hframe _ rfl rfl

theorem foldl_next_closed (status : Receive.TransferStatus) (steps : List RecordingStep) :
    steps.foldl Phase.next (.closed status) = .closed status := by
  induction steps with
  | nil => rfl
  | cons step steps ih => exact ih

/-- A report of the stop closes the row that is open, and no other. -/
theorem phaseOf_cancelled (front back : List RecordingStep) (io : Io) :
    phaseOf (front ++ cancelled io :: back) =
      match phaseOf front with
      | .unopened => phaseOf back
      | .inProgress => .closed .cancelled
      | .closed status => .closed status := by
  rw [phaseOf, phaseOf, phaseOf, List.foldl_append, List.foldl_cons]
  cases front.foldl Phase.next .unopened with
  | unopened => rfl
  | inProgress =>
    rw [show Phase.next .inProgress (cancelled io) = .closed .cancelled from rfl, foldl_next_closed]
  | closed status =>
    rw [show Phase.next (.closed status) (cancelled io) = .closed status from rfl,
      foldl_next_closed]

theorem foldl_next_inProgress {steps : List RecordingStep}
    (h : ∀ step ∈ steps, step.terminal = none) :
    steps.foldl Phase.next .inProgress = .inProgress := by
  induction steps with
  | nil => rfl
  | cons step steps ih =>
    rw [List.forall_mem_cons] at h
    rw [List.foldl_cons, Phase.next, h.1]
    exact ih h.2

theorem phaseOf_eq_inProgress (steps : List RecordingStep) :
    phaseOf steps = .inProgress ↔ LeavesOpen steps := by
  constructor
  · induction steps using List.reverseRecOn with
    | nil => exact fun h => by cases h
    | append_singleton steps step ih =>
      intro h
      rw [phaseOf_snoc] at h
      cases hphase : phaseOf steps with
      | unopened =>
        rw [hphase, Phase.next] at h
        split at h
        · rename_i hstart
          exact ⟨steps, step, [], rfl, (phaseOf_eq_unopened steps).mp hphase, hstart,
            fun _ hmem => absurd hmem List.not_mem_nil⟩
        · cases h
      | inProgress =>
        obtain ⟨before, start, after, rfl, hbefore, hstart, hafter⟩ := ih hphase
        rw [hphase, Phase.next] at h
        split at h
        · cases h
        · rename_i hterminal
          refine ⟨before, start, after ++ [step], by simp, hbefore, hstart, ?_⟩
          rw [List.forall_mem_append, List.forall_mem_singleton]
          exact ⟨hafter, hterminal⟩
      | closed status =>
        rw [hphase] at h
        cases h
  · rintro ⟨before, start, after, rfl, hbefore, hstart, hafter⟩
    rw [phaseOf, List.foldl_append, List.foldl_cons, ← phaseOf,
      (phaseOf_eq_unopened before).mpr hbefore, Phase.next, if_pos hstart]
    exact foldl_next_inProgress hafter

end Row

/-- The first peer asks for the files while the router of a stopped share shuts down. -/
def lateStart : List Act :=
  [.sendItems ["a"], .send 0 .next, .send 0 .next, .send 0 (.resolved false true),
    .send 0 (.started "ticket" "hash" ⟨"id", 0, false⟩), .send 0 .next, .stopSharing,
    .stop 0 ⟨"id", 1, false⟩, .event 0 (.call ⟨"id", 2, false⟩ (.emitEvent "transfer-started")),
    .stop 0 ⟨"id", 3, false⟩]

def endedCalls (s : State) : Option (List RecordingStep) :=
  match s.shares[(0 : Nat)]? with
  | some ⟨some _, _, some calls, false⟩ => some calls
  | _ => none

end DashBeam.Desktop.Sharing

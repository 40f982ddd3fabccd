import Mathlib.Logic.Function.Basic
import DashBeam.Lib.Machine
import DashBeam.Protocol.Keys

/-!
# Waiting for a connection

`wait_for_connection` of `engine/native/src/paired_connections.rs` in any interleaving with
`set_session` and `remove_session`. A caller takes a `Notify` from the map of waiters and then, in a
loop, looks for a connection and waits to be notified. `set_session` stores a connection, and only
after that takes the `Notify` of the key out of the map and wakes the callers that wait on it at that
moment. A `Notify` is a number, and a new one is made when the map has none for the key; `notified()`
sees the calls of `notify_waiters` from its creation on, so creating and registering are one step.

A caller that waits on a `Notify` that is no longer in the map is never woken. When no caller begins to
wait on such a one, every blocked caller has its `Notify` in the map, and a connection that is stored
while it is blocked has its notification still to come (`Heard`).
-/

namespace DashBeam.Native

open Lib Protocol

/-- How far a caller of `wait_for_connection` has come. -/
inductive WaitStage
  /-- Looks for a connection before anything else. -/
  | looking
  /-- Is about to take a `Notify` from the map of waiters. -/
  | joining
  /-- At the top of its loop. -/
  | checking (notify : Nat)
  /-- Found no connection, and is about to wait. -/
  | registering (notify : Nat)
  | blocked (notify : Nat)
  | returned (conn : Option Nat)
  deriving DecidableEq, Repr

structure Caller where
  key : String
  stage : WaitStage
  deriving DecidableEq, Repr

/-- How far a `set_session` has come. -/
inductive SetStage
  | inserting
  /-- Sets the presence and touches the record. -/
  | touching
  | notifying
  | done
  deriving DecidableEq, Repr

structure Setter where
  key : String
  conn : Nat
  stage : SetStage
  deriving DecidableEq, Repr

structure Waiting where
  sessions : String → Option Nat
  waiters : String → Option Nat
  /-- How many `Notify` were made. -/
  made : Nat
  callers : List Caller
  setters : List Setter

def Waiting.new : Waiting := ⟨fun _ => none, fun _ => none, 0, [], []⟩

inductive WaitAct
  | waitForConnection (endpointId : String)
  | setSession (key : String) (conn : Nat)
  | removeSession (key : String)
  | caller (i : Nat)
  | setter (j : Nat)
  /-- The time given to a caller has passed. -/
  | timeout (i : Nat)
  deriving DecidableEq, Repr

/-- The caller after its next step, and the maps it leaves. -/
def Caller.step (s : Waiting) (caller : Caller) :
    Option (WaitStage × (String → Option Nat) × Nat) :=
  match caller.stage with
  | .looking =>
    match s.sessions caller.key with
    | some conn => some (.returned (some conn), s.waiters, s.made)
    | none => some (.joining, s.waiters, s.made)
  | .joining =>
    match s.waiters caller.key with
    | some notify => some (.checking notify, s.waiters, s.made)
    | none =>
      some (.checking s.made, Function.update s.waiters caller.key (some s.made), s.made + 1)
  | .checking notify =>
    match s.sessions caller.key with
    | some conn => some (.returned (some conn), s.waiters, s.made)
    | none => some (.registering notify, s.waiters, s.made)
  | .registering notify => some (.blocked notify, s.waiters, s.made)
  | .blocked _ => none
  | .returned _ => none

/-- `Notify::notify_waiters`. -/
def wake (notify : Nat) (caller : Caller) : Caller :=
  if caller.stage = .blocked notify then { caller with stage := .checking notify } else caller

def notifyWaiters (s : Waiting) (key : String) : Waiting :=
  match s.waiters key with
  | none => s
  | some notify =>
    { s with
      waiters := Function.update s.waiters key none
      callers := s.callers.map (wake notify) }

/-- The time of a caller in its loop is up. -/
def Caller.expire (caller : Caller) : Option Caller :=
  match caller.stage with
  | .checking _ | .registering _ | .blocked _ => some { caller with stage := .returned none }
  | _ => none

def waitMachine {Id : Type} (I : Iroh Id) : Machine Waiting WaitAct Unit where
  step s
    | .waitForConnection endpointId =>
      some ({ s with callers := s.callers ++ [⟨I.toLowercase endpointId, .looking⟩] }, [])
    | .setSession key conn => some ({ s with setters := s.setters ++ [⟨key, conn, .inserting⟩] }, [])
    | .removeSession key => some ({ s with sessions := Function.update s.sessions key none }, [])
    | .caller i =>
      match s.callers[i]? with
      | none => none
      | some caller =>
        match caller.step s with
        | none => none
        | some (stage, waiters, made) =>
          some ({ s with
            waiters := waiters
            made := made
            callers := s.callers.set i { caller with stage := stage } }, [])
    | .setter j =>
      match s.setters[j]? with
      | none => none
      | some setter =>
        match setter.stage with
        | .inserting =>
          some ({ s with
            sessions := Function.update s.sessions setter.key (some setter.conn)
            setters := s.setters.set j { setter with stage := .touching } }, [])
        | .touching =>
          some ({ s with setters := s.setters.set j { setter with stage := .notifying } }, [])
        | .notifying =>
          some ({ notifyWaiters s setter.key with
            setters := s.setters.set j { setter with stage := .done } }, [])
        | .done => none
    | .timeout i =>
      match s.callers[i]? with
      | none => none
      | some caller =>
        match caller.expire with
        | none => none
        | some expired => some ({ s with callers := s.callers.set i expired }, [])

/-- A caller is blocked although its key has a connection and no `set_session` of the key is under
way. -/
def Lost (s : Waiting) : Prop :=
  ∃ caller ∈ s.callers, (∃ notify, caller.stage = .blocked notify) ∧
    (s.sessions caller.key).isSome ∧ ∀ setter ∈ s.setters, setter.key = caller.key →
      setter.stage = .done

/-- A caller begins to wait on a `Notify` that is no longer the one in the map. -/
def waitsStale (s : Waiting) : WaitAct → Bool
  | .caller i =>
    match s.callers[i]? with
    | some ⟨key, .registering notify⟩ => decide (s.waiters key ≠ some notify)
    | _ => false
  | _ => false

/-! ### The invariant -/

/-- The `Notify` a caller waits on, or is about to. -/
def WaitStage.awaits : WaitStage → Option Nat
  | .registering notify => some notify
  | .blocked notify => some notify
  | _ => none

/-- The `Notify` a caller has. -/
def WaitStage.notify : WaitStage → Option Nat
  | .checking notify => some notify
  | .registering notify => some notify
  | .blocked notify => some notify
  | _ => none

/-- A `set_session` of the key has stored its connection and is yet to notify. -/
def Announced (s : Waiting) (key : String) : Prop :=
  ∃ setter ∈ s.setters, setter.key = key ∧ (setter.stage = .touching ∨ setter.stage = .notifying)

/-- Every blocked caller has its `Notify` in the map, and a caller whose `Notify` is in the map will
hear of a connection that is there. -/
structure Heard (s : Waiting) : Prop where
  fresh : ∀ caller ∈ s.callers, ∀ notify, caller.stage.notify = some notify → notify < s.made
  entries : ∀ key notify, s.waiters key = some notify → notify < s.made
  listed : ∀ caller ∈ s.callers, ∀ notify, caller.stage = .blocked notify →
    s.waiters caller.key = some notify
  heard : ∀ caller ∈ s.callers, ∀ notify, caller.stage.awaits = some notify →
    s.waiters caller.key = some notify → s.sessions caller.key = none ∨ Announced s caller.key

theorem notify_of_awaits {stage : WaitStage} {notify : Nat} (h : stage.awaits = some notify) :
    stage.notify = some notify := by
  cases stage <;> first | exact h | cases h

theorem Heard.not_lost {s : Waiting} (h : Heard s) : ¬ Lost s := by
  rintro ⟨caller, hcaller, ⟨notify, hblocked⟩, hsession, hdone⟩
  have hlisted := h.listed caller hcaller notify hblocked
  have hawaits : caller.stage.awaits = some notify := by rw [hblocked]; rfl
  rcases h.heard caller hcaller notify hawaits hlisted with hnone | ⟨setter, hsetter, hkey, hstage⟩
  · rw [hnone] at hsession
    cases hsession
  · rw [hdone setter hsetter hkey] at hstage
    simp at hstage

theorem heard_new : Heard Waiting.new := by
  constructor <;> simp [Waiting.new]

section Step

variable {s : Waiting} {i j : Nat} {caller : Caller} {setter : Setter} {key : String}

/-- A `set_session` that moves on without notifying leaves what is announced. -/
theorem announced_set (hj : s.setters[j]? = some setter) (stage : SetStage)
    (hstage : setter.stage = .touching ∨ setter.stage = .notifying →
      stage = .touching ∨ stage = .notifying) (h : Announced s key) :
    Announced { s with setters := s.setters.set j { setter with stage := stage } } key := by
  obtain ⟨other, hother, hkey, hannounced⟩ := h
  by_cases heq : other = setter
  · subst heq
    exact ⟨_, mem_set_self hj _, hkey, hstage hannounced⟩
  · exact ⟨other, mem_set_of_ne hj hother heq _, hkey, hannounced⟩

theorem Heard.moved (h : Heard s) (stage : WaitStage)
    (hfresh : ∀ notify, stage.notify = some notify → notify < s.made)
    (hlisted : ∀ notify, stage = .blocked notify → s.waiters caller.key = some notify)
    (hheard : ∀ notify, stage.awaits = some notify → s.waiters caller.key = some notify →
      s.sessions caller.key = none ∨ Announced s caller.key) :
    Heard { s with callers := s.callers.set i { caller with stage := stage } } := by
  constructor
  · intro other hother notify hnotify
    rcases List.mem_or_eq_of_mem_set hother with hother | rfl
    · exact h.fresh other hother notify hnotify
    · exact hfresh notify hnotify
  · exact h.entries
  · intro other hother notify hblocked
    rcases List.mem_or_eq_of_mem_set hother with hother | rfl
    · exact h.listed other hother notify hblocked
    · exact hlisted notify hblocked
  · intro other hother notify hawaits
    rcases List.mem_or_eq_of_mem_set hother with hother | rfl
    · exact h.heard other hother notify hawaits
    · exact hheard notify hawaits

/-- A caller that finds no `Notify` for its key makes one, which nobody waits on yet. -/
theorem Heard.joins (h : Heard s) (hnone : s.waiters caller.key = none) :
    Heard { s with
      waiters := Function.update s.waiters caller.key (some s.made)
      made := s.made + 1
      callers := s.callers.set i { caller with stage := .checking s.made } } := by
  constructor
  · intro other hother notify hnotify
    rcases List.mem_or_eq_of_mem_set hother with hother | rfl
    · exact Nat.lt_succ_of_lt (h.fresh other hother notify hnotify)
    · cases hnotify
      exact Nat.lt_succ_self _
  · intro key notify hentry
    by_cases hkey : key = caller.key
    · subst hkey
      change Function.update s.waiters caller.key (some s.made) caller.key = _ at hentry
      rw [Function.update_self] at hentry
      cases hentry
      exact Nat.lt_succ_self _
    · change Function.update s.waiters caller.key (some s.made) key = _ at hentry
      rw [Function.update_of_ne hkey] at hentry
      exact Nat.lt_succ_of_lt (h.entries key notify hentry)
  · intro other hother notify hblocked
    rcases List.mem_or_eq_of_mem_set hother with hother | rfl
    · have hlisted := h.listed other hother notify hblocked
      have hkey : other.key ≠ caller.key := by
        intro heq
        rw [heq, hnone] at hlisted
        cases hlisted
      exact (Function.update_of_ne hkey _ _).trans hlisted
    · cases hblocked
  · intro other hother notify hawaits hentry
    rcases List.mem_or_eq_of_mem_set hother with hother | rfl
    · by_cases hkey : other.key = caller.key
      · -- the new `Notify` is not one that was already waited on
        change Function.update s.waiters caller.key (some s.made) other.key = _ at hentry
        rw [hkey, Function.update_self] at hentry
        have hlt := h.fresh other hother notify (notify_of_awaits hawaits)
        cases hentry
        exact absurd hlt (Nat.lt_irrefl _)
      · change Function.update s.waiters caller.key (some s.made) other.key = _ at hentry
        rw [Function.update_of_ne hkey] at hentry
        exact h.heard other hother notify hawaits hentry
    · cases hawaits

theorem Heard.callerStep (h : Heard s) (hi : s.callers[i]? = some caller)
    (hguard : waitsStale s (.caller i) = false) {stage : WaitStage}
    {waiters : String → Option Nat} {made : Nat}
    (hstep : caller.step s = some (stage, waiters, made)) :
    Heard { s with
      waiters := waiters
      made := made
      callers := s.callers.set i { caller with stage := stage } } := by
  have hmem : caller ∈ s.callers := List.mem_of_getElem? hi
  have hnotify := h.fresh caller hmem
  unfold Caller.step at hstep
  cases hstage : caller.stage with
  | looking =>
    rw [hstage] at hstep
    dsimp only at hstep
    split at hstep <;> cases hstep <;>
      exact h.moved _ (fun _ hn => (nomatch hn)) (fun _ hb => (nomatch hb)) fun _ ha => (nomatch ha)
  | joining =>
    rw [hstage] at hstep
    dsimp only at hstep
    split at hstep
    · rename_i notify hentry
      cases hstep
      refine h.moved _ ?_ (fun _ hb => (nomatch hb)) fun _ ha => (nomatch ha)
      rintro n hn
      cases hn
      exact h.entries caller.key notify hentry
    · rename_i hnone
      cases hstep
      exact h.joins hnone
  | checking notify =>
    rw [hstage] at hstep hnotify
    dsimp only at hstep
    split at hstep
    · cases hstep
      exact h.moved _ (fun _ hn => (nomatch hn)) (fun _ hb => (nomatch hb)) fun _ ha => (nomatch ha)
    · rename_i hnone
      cases hstep
      refine h.moved _ ?_ (fun _ hb => (nomatch hb)) fun _ _ _ => .inl hnone
      rintro n hn
      cases hn
      exact hnotify notify rfl
  | registering notify =>
    rw [hstage] at hstep hnotify
    cases hstep
    have hentry : s.waiters caller.key = some notify := by
      obtain ⟨key, _⟩ := caller
      cases hstage
      simpa [waitsStale, hi] using hguard
    refine h.moved _ ?_ ?_ ?_
    · rintro n hn
      cases hn
      exact hnotify notify rfl
    · rintro n hn
      cases hn
      exact hentry
    · rintro n hn -
      exact h.heard caller hmem notify (by rw [hstage]; rfl) hentry
  | blocked notify =>
    rw [hstage] at hstep
    cases hstep
  | returned conn =>
    rw [hstage] at hstep
    cases hstep

theorem Heard.expired (h : Heard s) {expired : Caller} (hexpire : caller.expire = some expired) :
    Heard { s with callers := s.callers.set i expired } := by
  unfold Caller.expire at hexpire
  split at hexpire
  all_goals cases hexpire
  all_goals
    exact h.moved _ (fun _ hn => (nomatch hn)) (fun _ hb => (nomatch hb)) fun _ ha => (nomatch ha)

/-- A connection is stored, and its notification is still to come. -/
theorem Heard.inserted (h : Heard s) (hj : s.setters[j]? = some setter)
    (hstage : setter.stage = .inserting) :
    Heard { s with
      sessions := Function.update s.sessions setter.key (some setter.conn)
      setters := s.setters.set j { setter with stage := .touching } } := by
  refine ⟨h.fresh, h.entries, h.listed, fun other hother notify hawaits hentry => ?_⟩
  by_cases hkey : other.key = setter.key
  · exact .inr ⟨_, mem_set_self hj _, hkey.symm, .inl rfl⟩
  · rcases h.heard other hother notify hawaits hentry with hnone | hannounced
    · exact .inl ((Function.update_of_ne hkey _ _).trans hnone)
    · refine .inr (announced_set hj .touching (fun hold => ?_) hannounced)
      rw [hstage] at hold
      simp at hold

theorem Heard.touched (h : Heard s) (hj : s.setters[j]? = some setter) :
    Heard { s with setters := s.setters.set j { setter with stage := .notifying } } := by
  refine ⟨h.fresh, h.entries, h.listed, fun other hother notify hawaits hentry => ?_⟩
  exact (h.heard other hother notify hawaits hentry).imp_right
    (announced_set hj .notifying fun _ => .inr rfl)

theorem announced_done (hj : s.setters[j]? = some setter) (hkey : key ≠ setter.key)
    (h : Announced s key) :
    ∃ other ∈ s.setters.set j { setter with stage := .done }, other.key = key ∧
      (other.stage = .touching ∨ other.stage = .notifying) := by
  obtain ⟨other, hother, hotherKey, hstage⟩ := h
  have hne : other ≠ setter := fun heq => hkey (by rw [← hotherKey, heq])
  exact ⟨other, mem_set_of_ne hj hother hne _, hotherKey, hstage⟩

theorem wake_blocked {notify n : Nat} (h : (wake notify caller).stage = .blocked n) :
    caller.stage = .blocked n ∧ n ≠ notify := by
  unfold wake at h
  split at h
  · cases h
  · rename_i hother
    exact ⟨h, fun heq => hother (heq ▸ h)⟩

theorem wake_key (notify : Nat) (caller : Caller) : (wake notify caller).key = caller.key := by
  unfold wake
  split <;> rfl

theorem wake_notify {notify n : Nat} (h : (wake notify caller).stage.notify = some n) :
    caller.stage.notify = some n := by
  unfold wake at h
  split at h
  · rename_i hstage
    rw [hstage]
    exact h
  · exact h

theorem wake_awaits {notify n : Nat} (h : (wake notify caller).stage.awaits = some n) :
    caller.stage.awaits = some n := by
  unfold wake at h
  split at h
  · cases h
  · exact h

/-- The `Notify` of the key is taken out of the map, and every caller that waits on it wakes up. -/
theorem Heard.notified (h : Heard s) (hj : s.setters[j]? = some setter) :
    Heard { notifyWaiters s setter.key with
      setters := s.setters.set j { setter with stage := .done } } := by
  cases hentry : s.waiters setter.key with
  | none =>
    have hsame : notifyWaiters s setter.key = s := by rw [notifyWaiters, hentry]
    rw [hsame]
    refine ⟨h.fresh, h.entries, h.listed, fun other hother notify hawaits hlisted => ?_⟩
    have hkey : other.key ≠ setter.key := by
      intro heq
      rw [heq, hentry] at hlisted
      cases hlisted
    exact (h.heard other hother notify hawaits hlisted).imp_right (announced_done hj hkey)
  | some woken =>
    have hwoken : notifyWaiters s setter.key = { s with
        waiters := Function.update s.waiters setter.key none
        callers := s.callers.map (wake woken) } := by rw [notifyWaiters, hentry]
    rw [hwoken]
    constructor
    · intro other hother notify hnotify
      obtain ⟨old, hold, rfl⟩ := List.mem_map.mp hother
      exact h.fresh old hold notify (wake_notify hnotify)
    · intro key notify hlisted
      by_cases hkey : key = setter.key
      · subst hkey
        change Function.update s.waiters setter.key none setter.key = _ at hlisted
        rw [Function.update_self] at hlisted
        cases hlisted
      · exact h.entries key notify ((Function.update_of_ne hkey _ _).symm.trans hlisted)
    · intro other hother notify hblocked
      obtain ⟨old, hold, rfl⟩ := List.mem_map.mp hother
      obtain ⟨hblocked, hne⟩ := wake_blocked hblocked
      have hlisted := h.listed old hold notify hblocked
      have hkey : old.key ≠ setter.key := by
        intro heq
        rw [heq, hentry] at hlisted
        exact hne (Option.some.inj hlisted).symm
      rw [wake_key]
      exact (Function.update_of_ne hkey _ _).trans hlisted
    · intro other hother notify hawaits hlisted
      obtain ⟨old, hold, rfl⟩ := List.mem_map.mp hother
      rw [wake_key] at hlisted ⊢
      by_cases hkey : old.key = setter.key
      · change Function.update s.waiters setter.key none old.key = _ at hlisted
        rw [hkey, Function.update_self] at hlisted
        cases hlisted
      · have hlisted : s.waiters old.key = some notify :=
          (Function.update_of_ne hkey _ _).symm.trans hlisted
        exact (h.heard old hold notify (wake_awaits hawaits) hlisted).imp_right
          (announced_done hj hkey)

end Step

theorem heard_step {Id : Type} {I : Iroh Id} {s s' : Waiting} {act : WaitAct} {out : List Unit}
    (h : Heard s) (hguard : waitsStale s act = false)
    (hstep : (waitMachine I).step s act = some (s', out)) : Heard s' := by
  cases act with
  | waitForConnection endpointId =>
    cases hstep
    have hnew : ∀ other ∈ s.callers ++ [⟨I.toLowercase endpointId, .looking⟩],
        other ∈ s.callers ∨ other.stage = .looking := by
      intro other hother
      rcases List.mem_append.mp hother with hother | hother
      · exact .inl hother
      · rw [List.mem_singleton.mp hother]
        exact .inr rfl
    refine ⟨fun other hother notify hnotify => ?_, h.entries, fun other hother notify hblocked => ?_,
      fun other hother notify hawaits => ?_⟩
    · rcases hnew other hother with hold | hlooking
      · exact h.fresh other hold notify hnotify
      · rw [hlooking] at hnotify
        cases hnotify
    · rcases hnew other hother with hold | hlooking
      · exact h.listed other hold notify hblocked
      · rw [hlooking] at hblocked
        cases hblocked
    · rcases hnew other hother with hold | hlooking
      · exact h.heard other hold notify hawaits
      · rw [hlooking] at hawaits
        cases hawaits
  | setSession key conn =>
    cases hstep
    refine ⟨h.fresh, h.entries, h.listed, fun other hother notify hawaits hlisted => ?_⟩
    refine (h.heard other hother notify hawaits hlisted).imp_right ?_
    rintro ⟨setter, hsetter, hannounced⟩
    exact ⟨setter, List.mem_append_left _ hsetter, hannounced⟩
  | removeSession key =>
    cases hstep
    refine ⟨h.fresh, h.entries, h.listed, fun other hother notify hawaits hlisted => ?_⟩
    refine (h.heard other hother notify hawaits hlisted).imp_left fun hnone => ?_
    by_cases hkey : other.key = key
    · rw [hkey]
      exact Function.update_self _ _ _
    · exact (Function.update_of_ne hkey _ _).trans hnone
  | caller i =>
    simp only [waitMachine] at hstep
    split at hstep
    · cases hstep
    · rename_i caller hi
      split at hstep
      · cases hstep
      · rename_i stage waiters made hcaller
        cases hstep
        exact h.callerStep hi hguard hcaller
  | setter j =>
    simp only [waitMachine] at hstep
    split at hstep
    · cases hstep
    · rename_i setter hj
      split at hstep
      · rename_i hstage
        cases hstep
        exact h.inserted hj hstage
      · cases hstep
        exact h.touched hj
      · cases hstep
        exact h.notified hj
      · cases hstep
  | timeout i =>
    simp only [waitMachine] at hstep
    split at hstep
    · cases hstep
    · split at hstep
      · cases hstep
      · rename_i expired hexpire
        cases hstep
        exact h.expired hexpire

/-- In every interleaving in which no caller begins to wait on a `Notify` that was already taken out
of the map, no caller is blocked while its connection is there and nothing will notify it. -/
theorem no_lost_wakeup {Id : Type} (I : Iroh Id) (tr : List (Entry Waiting WaitAct Unit))
    (s : Waiting) (hrun : Run (waitMachine I) (fun s act => waitsStale s act = false) .new tr s) :
    ¬ Lost s :=
  (hrun.stateInvariant heard_new fun h hguard hstep => heard_step h hguard hstep).not_lost

/-- Two callers wait for Bob, one connection comes in, and both return with it. -/
def bothServed : List WaitAct :=
  [.waitForConnection Key.bob.hex, .waitForConnection Key.bob.hex, .caller 0, .caller 0, .caller 0,
    .caller 0, .caller 1, .caller 1, .caller 1, .caller 1, .setSession Key.bob.hex 7, .setter 0,
    .setter 0, .setter 0, .caller 0, .caller 1]

theorem no_lost_wakeup_bothServed :
    ∃ tr s, Run (waitMachine Key.iroh) (fun s act => waitsStale s act = false) .new tr s ∧
      s.callers.map Caller.stage = [.returned (some 7), .returned (some 7)] ∧ ¬ Lost s := by
  obtain ⟨tr, s, hrun, htest⟩ := Run.of_check (waitMachine Key.iroh)
    (fun s act => waitsStale s act = false) .new bothServed
    (fun _ s => decide (s.callers.map Caller.stage = [.returned (some 7), .returned (some 7)]))
    (by decide +kernel)
  exact ⟨tr, s, hrun, of_decide_eq_true htest, no_lost_wakeup Key.iroh tr s hrun⟩

/-- A caller finds no connection; the connection is stored and announced; then the caller begins to
wait. -/
def overtaken : List WaitAct :=
  [.waitForConnection Key.bob.hex, .caller 0, .caller 0, .caller 0, .setSession Key.bob.hex 7,
    .setter 0, .setter 0, .setter 0, .caller 0]

theorem lost_wakeup : ∃ tr s, Run (waitMachine Key.iroh) anyStep .new tr s ∧ Lost s := by
  obtain ⟨tr, s, hrun, htest⟩ := Run.of_check (waitMachine Key.iroh) anyStep .new overtaken
    (fun _ s => decide (s.callers = [⟨Key.bob.hex, .blocked 0⟩] ∧
      (s.sessions Key.bob.hex).isSome = true ∧ s.setters = [⟨Key.bob.hex, 7, .done⟩]))
    (by decide +kernel)
  obtain ⟨hcallers, hsession, hsetters⟩ := of_decide_eq_true htest
  refine ⟨tr, s, hrun, ⟨Key.bob.hex, .blocked 0⟩, ?_, ⟨0, rfl⟩, hsession, fun setter hsetter _ => ?_⟩
  · rw [hcallers]
    exact List.mem_singleton_self _
  · rw [hsetters, List.mem_singleton] at hsetter
    rw [hsetter]

end DashBeam.Native

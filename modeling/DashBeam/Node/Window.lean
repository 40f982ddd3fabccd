import DashBeam.Node.Alice
import DashBeam.Node.Aborts

/-!
# Pairing windows

A pairing-host session belongs to the window that was open when its connection was accepted. It
never looks at the window again, and closes it only after it has paired, if the persistent flag says
so then. So a window opened with a time to live pairs one peer, and a session pairs inside its
window, over the runs in which a window is not closed while another connection can still pair in
it, no connection can pair beside the one that completes, and the flag is that of the window
(`window_discipline`).
-/

namespace DashBeam.Node

open Protocol Native Lib

set_option linter.unusedSectionVars false

variable {Id : Type} [DecidableEq Id] {C : Config Id}

/-! ### The property -/

/-- The window, by its number, was opened with a time to live. -/
def timed (windows : List Bool) : Nat → Bool
  | 0 => false
  | i + 1 => windows[i]? = some false

/-- A pairing-host session stores a pairing: the session and its window. -/
def hostStores (s : State Id) : Act Id → Option (Nat × Nat)
  | .exec p _ =>
    match kindOf s p, nextInstr s p with
    | some (.host h), some (.common (.remember ..)) => some (p, h.window)
    | _, _ => none
  | _ => none

/-- A pairing-host session puts its remote on the allowlist. -/
def hostAllows (s : State Id) : Act Id → Option Nat
  | .exec p _ =>
    match kindOf s p, nextInstr s p with
    | some (.host _), some (.common (.allow _)) => some p
    | _, _ => none
  | _ => none

/-- The window is closed, by completion, by `stop_pairing_host` or by expiry. -/
def closesWindow (s : State Id) (a : Act Id) : Bool :=
  match doing s a with
  | some (.window .closeWindow, _) => true
  | _ => false

/-- A connection that is being accepted finds the window open. -/
def looksOpen (s : State Id) (a : Act Id) : Bool :=
  match doing s a with
  | some (.accept .acceptWindow, _) => s.shared.pairingHostOpen
  | _ => false

/-- The connection of the task found the window open. -/
def AcceptedInWindow (p : Nat) (e : Step Id) : Prop :=
  e.act.actor = some p ∧ looksOpen e.pre e.act = true

def ClosesWindow (e : Step Id) : Prop := closesWindow e.pre e.act = true

/-- A window with a time to live pairs once, and a session stores and allows its peer only while the
window it was accepted in has not been closed. -/
structure WindowDiscipline (tr : List (Step Id)) : Prop where
  once : Each (fun past e => ∀ p w, hostStores e.pre e.act = some (p, w) →
    timed e.pre.shared.windows w = true →
    ∀ e' ∈ past, ∀ q, hostStores e'.pre e'.act ≠ some (q, w)) tr
  stores : Each (fun past e => ∀ p w, hostStores e.pre e.act = some (p, w) →
    Since (AcceptedInWindow p) ClosesWindow past) tr
  allows : Each (fun past e => ∀ p, hostAllows e.pre e.act = some p →
    Since (AcceptedInWindow p) ClosesWindow past) tr

/-! ### Sessions that can still pair -/

/-- A pairing-host session that has this to do can still store a pairing. -/
def Instr.pairs : Instr Id → Bool
  | .common .read | .common (.remember ..) | .host .hostHello | .host (.hostRecord _) => true
  | _ => false

def Instr.allows : Instr Id → Bool
  | .common (.allow _) => true
  | _ => false

/-- A pairing-host session that has this to do has paired, and is about to close its window. -/
def Instr.completes : Instr Id → Bool
  | .host .loadPersistent | .window .closeWindow => true
  | _ => false

/-- The window a connection being accepted was found in. -/
def Instr.acceptedIn : Instr Id → Option Nat
  | .accept (.acceptAllowed true w) => some w
  | _ => none

def Task.pairsIn (t : Task Id) : Option Nat :=
  match t.kind with
  | .inbound _ => t.todo.findSome? Instr.acceptedIn
  | .host h => if t.todo.any Instr.pairs then some h.window else none
  | _ => none

/-- The task can still store a pairing in a window, or allow the peer it stored. -/
def Task.unsettled (t : Task Id) : Bool :=
  t.pairsIn.isSome || match t.kind with
    | .host _ => t.todo.any Instr.allows
    | _ => false

/-- The window a task has paired in and not yet closed. -/
def Task.completesIn (t : Task Id) : Option Nat :=
  match t.kind with
  | .host h => if t.todo.any Instr.completes then some h.window else none
  | _ => none

/-- A pairing-host session reads whether its window is persistent. -/
def loadsPersistent (s : State Id) : Act Id → Option Nat
  | .exec p _ =>
    match kindOf s p, nextInstr s p with
    | some (.host h), some (.host .loadPersistent) => some h.window
    | _, _ => none
  | _ => none

/-- The window is closed only when no connection accepted in it can still pair. In a window with a
time to live a session completes only when no other can, no connection is accepted before it has
closed the window, and the flag it reads is that of its window. -/
def WindowGuard (s : State Id) (a : Act Id) : Prop :=
  (closesWindow s a = true → ∀ t ∈ s.procs, t.unsettled = false) ∧
  (∀ c ∈ hostStores s a, timed s.shared.windows c.2 = true →
    ∀ t ∈ s.procs.eraseIdx c.1, t.pairsIn ≠ some c.2) ∧
  (looksOpen s a = true → timed s.shared.windows s.shared.windows.length = true →
    ∀ t ∈ s.procs, t.completesIn ≠ some s.shared.windows.length) ∧
  (∀ w ∈ loadsPersistent s a, timed s.shared.windows w = true →
    s.shared.pairingHostPersistent = false)

instance (s : State Id) (a : Act Id) : Decidable (WindowGuard s a) :=
  inferInstanceAs (Decidable (_ ∧ _ ∧ _ ∧ _))

/-! ### One session -/

/-- What a pairing-host session has to do: at most one thing that can still pair, and none once it
has paired. -/
structure HostShape (todo : List (Instr Id)) : Prop where
  once : todo.countP Instr.pairs ≤ 1
  completed : todo.any Instr.completes = true → todo.countP Instr.pairs = 0

theorem HostShape.nil : HostShape ([] : List (Instr Id)) := ⟨by simp, by simp⟩

/-- What a critical section of a pairing-host session leads to. -/
structure HostPush (instr : Instr Id) (push : List (Instr Id)) : Prop where
  pairs : push.countP Instr.pairs ≤ if instr.pairs then 1 else 0
  completes : push.any Instr.completes = true →
    push.countP Instr.pairs = 0 ∧ (instr.pairs = true ∨ instr.completes = true)
  allows : push.any Instr.allows = true → instr.pairs = true

theorem hostPush_quiet {instr : Instr Id} {push : List (Instr Id)}
    (h : ∀ i ∈ push, i.pairs = false ∧ i.completes = false ∧ i.allows = false) :
    HostPush instr push := by
  refine ⟨?_, fun hany => ?_, fun hany => ?_⟩
  · rw [List.countP_eq_zero.mpr (fun i hi => by rw [(h i hi).1]; simp)]
    exact Nat.zero_le _
  · obtain ⟨i, hi, hc⟩ := List.any_eq_true.mp hany
    rw [(h i hi).2.1] at hc
    cases hc
  · obtain ⟨i, hi, hc⟩ := List.any_eq_true.mp hany
    rw [(h i hi).2.2] at hc
    cases hc

theorem hostPush_next {s : Shared Id} {h : HostSession Id} {kind' : Kind Id} {fresh : Nat}
    {env : Env} {instr : Instr Id} {n : Next Id} (hfits : HostFits C h instr)
    (hnext : next C s (.host h) fresh env instr = some (kind', n)) : HostPush instr n.push := by
  cases next_case hnext with
  | @common instr =>
    cases instr with
    | remember flow device =>
      obtain ⟨rfl, -, -⟩ := hfits
      refine ⟨?_, fun _ => ⟨?_, .inl rfl⟩, fun _ => rfl⟩
      · simp [nextCommon, afterRemember, Instr.pairs]
      · simp [nextCommon, afterRemember, Instr.pairs]
    | markUnpaired | setPresence | removeSession | removeSessionIf | refreshList =>
      refine hostPush_quiet ?_
      simp only [nextCommon, managerForget]
      split <;> simp [Instr.pairs, Instr.completes, Instr.allows]
    | _ => exact hostPush_quiet (by simp [nextCommon])
  | @host instr =>
    cases instr with
    | hostHello =>
      simp only [nextHost]
      split
      · exact ⟨by simp [Instr.pairs], by simp [Instr.completes], by simp [Instr.allows]⟩
      · exact hostPush_quiet (by simp)
    | hostRecord info =>
      exact ⟨by simp [nextHost, Instr.pairs], by simp [nextHost, Instr.completes],
        by simp [nextHost, Instr.allows]⟩
    | loadPersistent =>
      simp only [nextHost]
      split
      · exact hostPush_quiet (by simp)
      · exact ⟨by simp [Instr.pairs], by simp [Instr.pairs, Instr.completes],
          by simp [Instr.allows]⟩
    | hostInvite | hostVote => exact hostPush_quiet (by simp [nextHost])
  | @window instr =>
    cases instr with
    | closeWindow => exact hostPush_quiet (by simp [nextWindow])
    | _ => exact hfits.elim
  | service | lan => exact hfits.elim
  | accept hkind | control hkind | connect hkind => cases hkind

theorem HostShape.exec {instr : Instr Id} {rest push : List (Instr Id)}
    (h : HostShape (instr :: rest)) (hpush : HostPush instr push) : HostShape (push ++ rest) := by
  have honce := h.once
  have hpairs := hpush.pairs
  rw [List.countP_cons] at honce
  refine ⟨?_, fun hany => ?_⟩
  · rw [List.countP_append]
    omega
  · rw [List.countP_append]
    rw [List.any_append, Bool.or_eq_true] at hany
    rcases hany with hany | hany
    · obtain ⟨hzero, hinstr | hinstr⟩ := hpush.completes hany
      · rw [if_pos hinstr] at honce
        omega
      · have hnone := h.completed (by simp [hinstr])
        rw [List.countP_cons] at hnone
        omega
    · have hnone := h.completed (by simp [hany])
      rw [List.countP_cons] at hnone
      omega

theorem hostShape_hostNext (h : HostSession Id) (before : List (Instr Id))
    (hbefore : ∀ i ∈ before, i.pairs = false ∧ i.completes = false) :
    HostShape (before ++ hostNext h) := by
  have hzero : before.countP Instr.pairs = 0 :=
    List.countP_eq_zero.mpr fun i hi => by rw [(hbefore i hi).1]; simp
  have hnone : before.any Instr.completes = false := by
    rw [List.any_eq_false]
    intro i hi
    rw [(hbefore i hi).2]
    simp
  unfold hostNext
  split
  · exact ⟨by simp [List.countP_append, hzero, Instr.pairs], by simp [hnone, Instr.completes]⟩
  · exact ⟨by simp [List.countP_append, hzero, Instr.pairs], by simp [hnone, Instr.completes]⟩

theorem hostShape_read : HostShape ([.common .read] : List (Instr Id)) :=
  ⟨by simp [Instr.pairs], by simp [Instr.completes]⟩

theorem hostShape_receiveHost (h : HostSession Id) (msg : ControlMessage) :
    HostShape (receiveHost C h msg).2 := by
  have hnext := fun h : HostSession Id => hostShape_hostNext h [] (by simp)
  cases msg with
  | pairingInfo =>
    simp only [receiveHost]
    split
    · exact hostShape_read
    · split
      · exact hnext _
      · exact hostShape_read
  | rememberVote => exact hnext _
  | invite | inviteResponse =>
    exact hostShape_hostNext h [_] (by simp [Instr.pairs, Instr.completes])
  | recognition =>
    simp only [receiveHost, recognise]
    split
    · exact hostShape_hostNext h [_, _] (by simp [Instr.pairs, Instr.completes])
    · exact hnext _
  | forget =>
    simp only [receiveHost]
    split
    · exact hostShape_hostNext h [_] (by simp [Instr.pairs, Instr.completes])
    · exact hnext _
  | whoAreYou | identity | pairRequest => exact hnext _

theorem receiveHost_window (h : HostSession Id) (msg : ControlMessage) :
    (receiveHost C h msg).1.window = h.window := by
  cases msg with
  | pairingInfo =>
    simp only [receiveHost]
    split
    · rfl
    · split <;> rfl
  | recognition | forget =>
    simp only [receiveHost]
    split <;> rfl
  | _ => rfl

theorem not_parks_of_completes {h : HostSession Id} {todo : List (Instr Id)}
    (hfits : ∀ i ∈ todo, HostFits C h i) (hshape : HostShape todo)
    (hcompletes : todo.any Instr.completes = true) : todo.head?.any Instr.parks = false := by
  cases todo with
  | nil => rfl
  | cons instr rest =>
    have hnone := hshape.completed hcompletes
    have hinstr : instr.pairs = false := by
      have := List.countP_eq_zero.mp hnone instr (by simp)
      simpa using this
    have hfit := hfits instr (by simp)
    rw [List.head?_cons, Option.any_some]
    unfold Instr.parks
    split
    · cases hinstr
    · exact hfit.elim
    · exact hfit.elim
    · rfl

/-! ### Where a session that can pair comes from -/

theorem Task.pairsIn_host {t : Task Id} {h : HostSession Id} (hkind : t.kind = .host h) :
    t.pairsIn = if t.todo.any Instr.pairs then some h.window else none := by
  rw [Task.pairsIn, hkind]

theorem any_pairs_of_push {instr : Instr Id} {rest push : List (Instr Id)}
    (hpush : HostPush instr push) (h : (push ++ rest).any Instr.pairs = true) :
    (instr :: rest).any Instr.pairs = true := by
  rw [List.any_append, Bool.or_eq_true] at h
  rcases h with h | h
  · have hpos : 0 < push.countP Instr.pairs := by
      obtain ⟨i, hi, hp⟩ := List.any_eq_true.mp h
      exact List.countP_pos_iff.mpr ⟨i, hi, hp⟩
    have hle := hpush.pairs
    split at hle
    · rename_i hinstr
      simp [hinstr]
    · omega
  · simp [h]

/-- What follows an accepted connection pairs within a window only if the window was open when the
hook looked. -/
theorem unsettled_accept {s : State Id} {q : Nat} {env : Env} {t : Task Id} {conn : Conn Id}
    {i : AcceptInstr} (hget : s.procs[q]? = some t) (hkind : t.kind = .inbound conn)
    (htodo : t.todo = [.accept i]) :
    (∀ w, (Task.mk (nextAccept C s.shared conn env i).1 (nextAccept C s.shared conn env i).2.push
        false).pairsIn = some w →
      (∃ t, s.procs[q]? = some t ∧ t.pairsIn = some w) ∨
        ((Act.exec q env : Act Id).actor = some q ∧ looksOpen s (.exec q env) = true ∧
          w = s.shared.windows.length)) ∧
    ((Task.mk (nextAccept C s.shared conn env i).1 (nextAccept C s.shared conn env i).2.push
        false).unsettled = true →
      (∃ t, s.procs[q]? = some t ∧ t.unsettled = true) ∨
        ((Act.exec q env : Act Id).actor = some q ∧ looksOpen s (.exec q env) = true)) := by
  cases i with
  | acceptWindow =>
    have hlooks : looksOpen s (.exec q env) = s.shared.pairingHostOpen := by
      rw [looksOpen, doing_exec hget htodo]
    simp only [nextAccept, Task.pairsIn, Task.unsettled, List.findSome?_cons,
      List.findSome?_nil]
    cases hopen : s.shared.pairingHostOpen with
    | true =>
      refine ⟨fun w hw => .inr ⟨rfl, hlooks.trans hopen, ?_⟩,
        fun _ => .inr ⟨rfl, hlooks.trans hopen⟩⟩
      simpa [Instr.acceptedIn] using hw.symm
    | false => simp [Instr.acceptedIn]
  | acceptAllowed pairingHostOpen window =>
    simp only [nextAccept]
    split
    · simp [Task.pairsIn, Task.unsettled]
    · split
      · simp [Task.pairsIn, Task.unsettled]
      · rename_i hopen
        have hopen : pairingHostOpen = true := by simpa using hopen
        subst hopen
        have hbefore : t.pairsIn = some window := by
          rw [Task.pairsIn, hkind, htodo]
          rfl
        refine ⟨fun w hw => .inl ⟨t, hget, ?_⟩, fun _ => .inl ⟨t, hget, ?_⟩⟩
        · rw [hbefore]
          simpa [Task.pairsIn, Instr.pairs] using hw
        · simp [Task.unsettled, hbefore]
  | hookBlocked | hookDirectPath =>
    simp only [nextAccept]
    split <;> simp [Task.pairsIn, Task.unsettled, Instr.acceptedIn]
  | hookAccess =>
    simp only [nextAccept]
    split
    · simp [Task.pairsIn, Task.unsettled, Instr.acceptedIn]
    · split <;> simp [Task.pairsIn, Task.unsettled, Instr.acceptedIn]

theorem unsettled_host {t : Task Id} {c : HostSession Id} {instr : Instr Id}
    {push rest : List (Instr Id)} (hkind : t.kind = .host c) (htodo : t.todo = instr :: rest)
    (hpush : HostPush instr push) :
    (∀ w, (Task.mk (.host c) (push ++ rest) false).pairsIn = some w → t.pairsIn = some w) ∧
      ((Task.mk (.host c) (push ++ rest) false).unsettled = true → t.unsettled = true) := by
  have hpairs : (push ++ rest).any Instr.pairs = true → t.pairsIn = some c.window := by
    intro hany
    rw [Task.pairsIn_host hkind, htodo, if_pos (any_pairs_of_push hpush hany)]
  constructor
  · intro w hw
    simp only [Task.pairsIn] at hw
    split at hw
    · rename_i hany
      obtain rfl := Option.some.inj hw
      exact hpairs hany
    · cases hw
  · intro hu
    simp only [Task.unsettled, Task.pairsIn, Bool.or_eq_true] at hu
    rcases hu with hu | hu
    · split at hu
      · rename_i hany
        simp [Task.unsettled, hpairs hany]
      · cases hu
    · rw [List.any_append, Bool.or_eq_true] at hu
      rcases hu with hu | hu
      · have hinstr := hpush.allows hu
        simp [Task.unsettled, Task.pairsIn_host hkind, htodo, hinstr]
      · simp [Task.unsettled, hkind, htodo, hu]

/-- Which session, or connection being accepted, can pair or is about to allow a peer, in terms of the
state before: it was so before, or has just found the window open. -/
theorem unsettled_origin {s : State Id} {a : Act Id} {q : Nat} {kind : Kind Id}
    {todo : List (Instr Id)} (hfits : AllFit C s) (h : Origin C s q a kind todo) :
    (∀ w, (Task.mk kind todo false).pairsIn = some w →
      (∃ t, s.procs[q]? = some t ∧ t.pairsIn = some w) ∨
        (a.actor = some q ∧ looksOpen s a = true ∧ w = s.shared.windows.length)) ∧
    ((Task.mk kind todo false).unsettled = true →
      (∃ t, s.procs[q]? = some t ∧ t.unsettled = true) ∨
        (a.actor = some q ∧ looksOpen s a = true)) := by
  cases h with
  | @kept a t hne hget =>
    exact ⟨fun w hw => .inl ⟨t, hget, hw⟩, fun hu => .inl ⟨t, hget, hu⟩⟩
  | @exec env t instr rest kind n hget htodo hnext =>
    have hfit := hfits q t hget
    rw [htodo] at hfit
    have hk := next_kind hnext
    cases hkind : t.kind with
    | inbound conn =>
      rw [hkind] at hnext hfit
      obtain ⟨i, rfl, rfl⟩ := hfit.inbound
      cases next_case hnext with
      | accept hc =>
        cases hc
        rw [List.append_nil]
        exact unsettled_accept hget hkind htodo
    | host c =>
      rw [hkind] at hnext hfit hk
      have hpush := hostPush_next (hfit.fits instr (by simp)) hnext
      cases hk
      obtain ⟨hpairs, hunsettled⟩ := unsettled_host hkind htodo hpush
      exact ⟨fun w hw => .inl ⟨t, hget, hpairs w hw⟩, fun hu => .inl ⟨t, hget, hunsettled hu⟩⟩
    | control c =>
      rw [hkind] at hk
      obtain ⟨c', rfl, -⟩ := hk
      simp [Task.pairsIn, Task.unsettled]
    | connect l =>
      rw [hkind] at hk
      obtain ⟨l', rfl, -⟩ := hk
      simp [Task.pairsIn, Task.unsettled]
    | call | expiry | lan | background =>
      rw [hkind] at hk
      cases hk
      simp [Task.pairsIn, Task.unsettled]
  | @recv msg kind₀ kind' rest todo aborted hget hrecv =>
    cases received_case hrecv with
    | host h =>
      have hbefore : (Task.mk (.host h) (.common .read :: rest) aborted).pairsIn =
          some h.window := by simp [Task.pairsIn, Instr.pairs]
      constructor
      · intro w hw
        simp only [Task.pairsIn, receiveHost_window] at hw
        split at hw
        · exact .inl ⟨_, hget, hbefore.trans hw⟩
        · cases hw
      · intro _
        exact .inl ⟨_, hget, by simp [Task.unsettled, hbefore]⟩
    | control | connect => simp [Task.pairsIn, Task.unsettled]
  | @close reason kind instr rest aborted hget hsees =>
    cases kind with
    | host h =>
      simp only [closedTodo]
      split <;> simp [Task.pairsIn, Task.unsettled, Instr.pairs, Instr.allows]
    | inbound | control | connect | call | expiry | lan | background =>
      simp [Task.pairsIn, Task.unsettled, closedTodo]
  | @drop kind instr rest hget =>
    cases kind <;> simp [Task.pairsIn, Task.unsettled]
  | @spawned pid env t t' instr kind n hget hnext hmem hnew =>
    cases next_spawn hnext hmem <;>
      simp [Task.pairsIn, Task.unsettled, connectTask, notifyTask, probeTask, expiryTask]
  | @started a t hactor hstart hnew =>
    cases started_case hstart with
    | connect conn => simp [Task.pairsIn, Task.unsettled, Instr.acceptedIn]
    | call | appeared | vanished => simp [Task.pairsIn, Task.unsettled]

theorem Task.Has.pairsIn {t : Task Id} {kind : Kind Id} {todo : List (Instr Id)} {w : Nat}
    (h : t.Has kind todo) (hw : t.pairsIn = some w) :
    (Task.mk kind todo false).pairsIn = some w := by
  obtain ⟨rfl, htodo | ⟨htodo, -⟩⟩ := h
  · rw [← htodo]
    exact hw
  · rw [Task.pairsIn, htodo] at hw
    split at hw <;> simp at hw

theorem Task.Has.unsettled {t : Task Id} {kind : Kind Id} {todo : List (Instr Id)}
    (h : t.Has kind todo) (hu : t.unsettled = true) : (Task.mk kind todo false).unsettled = true := by
  obtain ⟨rfl, htodo | ⟨htodo, -⟩⟩ := h
  · rw [← htodo]
    exact hu
  · rw [Task.unsettled, Task.pairsIn, htodo] at hu
    cases hkind : t.kind <;> rw [hkind] at hu <;> simp at hu

/-- A session that has paired in a window with a time to live goes on until it has closed it. -/
theorem completesIn_step {s s' : State Id} {a : Act Id} {out : List (Out Id)} (hfits : AllFit C s)
    (hok : WindowGuard s a) (hs : step C s a = some (s', out)) {q w : Nat} {t : Task Id}
    (hget : s.procs[q]? = some t) (haborted : t.aborted = true → t.kind.stoppable = true)
    (hshape : ∀ h, t.kind = .host h → HostShape t.todo) (hw : t.completesIn = some w)
    (htimed : timed s.shared.windows w = true) :
    closesWindow s a = true ∨ ∃ t', s'.procs[q]? = some t' ∧ t'.completesIn = some w := by
  obtain ⟨h, hkind⟩ : ∃ h, t.kind = .host h := by
    unfold Task.completesIn at hw
    split at hw
    · rename_i h hkind
      exact ⟨h, hkind⟩
    · cases hw
  have hshape := hshape h hkind
  have hfit := hfits q t hget
  rw [Task.completesIn, hkind] at hw
  simp only at hw
  split at hw
  · rename_i hcompletes
    obtain rfl := Option.some.inj hw
    have hparks := not_parks_of_completes (fun i hi => by
      have := hfit.fits i hi
      rw [hkind] at this
      exact this) hshape hcompletes
    obtain ⟨t', kind, todo, hget', hcont, hhas⟩ := step_continues hs hget
    cases hcont with
    | kept =>
      refine .inr ⟨t', hget', ?_⟩
      rcases hhas.2 with htodo | ⟨-, hhead⟩
      · simp [Task.completesIn, hhas.1, hkind, htodo, hcompletes]
      · rw [hparks] at hhead
        cases hhead
    | @exec env _ instr rest kind n htodo hnext =>
      rw [htodo] at hcompletes hshape hfit
      rw [hkind] at hnext hfit
      have hfits' := taskFits_exec hfit hnext
      have hpush := hostPush_next (hfit.fits instr (by simp)) hnext
      obtain rfl : kind = .host h := next_kind hnext
      -- it still has to close the window, or is doing so
      have hleft : closesWindow s (.exec q env) = true ∨
          (n.push ++ rest).any Instr.completes = true := by
        rw [List.any_cons, Bool.or_eq_true] at hcompletes
        rcases hcompletes with hcompletes | hcompletes
        · unfold Instr.completes at hcompletes
          split at hcompletes
          · have hload : loadsPersistent s (.exec q env) = some h.window := by
              rw [loadsPersistent, kindOf_eq hget, nextInstr_eq hget htodo, hkind]
            obtain ⟨-, rfl⟩ := Prod.mk.inj (Option.some.inj hnext)
            have hflag := hok.2.2.2 h.window hload htimed
            simp [nextHost, hflag, Instr.completes]
          · refine .inl ?_
            rw [closesWindow, doing_exec hget htodo]
          · cases hcompletes
        · simp [hcompletes]
      rcases hleft with hclose | hleft
      · exact .inl hclose
      · refine .inr ⟨t', hget', ?_⟩
        have hhead := not_parks_of_completes hfits'.fits (hshape.exec hpush) hleft
        rcases hhas.2 with htodo' | ⟨-, hstopped⟩
        · simp [Task.completesIn, hhas.1, htodo', hleft]
        · rw [hhead] at hstopped
          cases hstopped
    | recv => simp [Instr.parks] at hparks
    | @close reason kind instr rest aborted hsees =>
      obtain rfl : kind = .host h := hkind
      have hinstr := hfit.fits instr (by simp)
      unfold Instr.seesClose at hsees
      split at hsees
      · simp [Instr.parks] at hparks
      · cases hinstr.2
      · cases hsees
    | drop =>
      have hstop := haborted rfl
      rw [hkind] at hstop
      cases hstop
  · cases hw

/-! ### Over whole runs -/

theorem timed_append {windows : List Bool} {w : Nat} (b : Bool) (h : w ≤ windows.length) :
    timed (windows ++ [b]) w = timed windows w := by
  cases w with
  | zero => rfl
  | succ i => rw [timed, timed, List.getElem?_append_left (by omega)]

theorem windows_step {s s' : State Id} {a : Act Id} {out : List (Out Id)}
    (hs : step C s a = some (s', out)) :
    (∃ b, s'.shared.windows = s.shared.windows ++ [b]) ∨
      (s'.shared.windows = s.shared.windows ∧
        (s'.shared.pairingHostOpen = true →
          s.shared.pairingHostOpen = true ∧ closesWindow s a = false)) := by
  cases step_case hs with
  | @exec pid env t instr rest kind n hget htodo hnext =>
    simp only [write_windows, write_pairingHostOpen]
    have hdoing : doing s (.exec pid env) = some (instr, env) := doing_exec hget htodo
    split
    · exact .inl ⟨_, rfl⟩
    · rename_i hopen
      refine .inr ⟨rfl, fun h => ?_⟩
      split at h
      · rename_i b
        exact absurd rfl (hopen b)
      · cases h
      · rename_i hclose
        refine ⟨h, ?_⟩
        rw [closesWindow, hdoing]
        split
        · rename_i heq
          cases heq
          exact absurd rfl hclose
        · rfl
  | recv | close | drop => exact .inr ⟨rfl, fun h => ⟨h, rfl⟩⟩
  | start hactor =>
    refine .inr ⟨rfl, fun h => ⟨h, ?_⟩⟩
    cases a <;> first | rfl | cases hactor

theorem timed_step {s s' : State Id} {a : Act Id} {out : List (Out Id)}
    (hs : step C s a = some (s', out)) {w : Nat} (h : w ≤ s.shared.windows.length) :
    timed s'.shared.windows w = timed s.shared.windows w ∧ w ≤ s'.shared.windows.length := by
  rcases windows_step hs with ⟨b, hb⟩ | ⟨heq, -⟩
  · rw [hb, List.length_append]
    exact ⟨timed_append b h, by omega⟩
  · rw [heq]
    exact ⟨rfl, h⟩

theorem exists_of_hostStores {s : State Id} {a : Act Id} {p w : Nat}
    (h : hostStores s a = some (p, w)) :
    ∃ env t c flow device rest, a = .exec p env ∧ s.procs[p]? = some t ∧ t.kind = .host c ∧
      c.window = w ∧ t.todo = .common (.remember flow device) :: rest := by
  cases a with
  | exec q env =>
    simp only [hostStores] at h
    split at h
    · rename_i c flow device hkind hinstr
      obtain ⟨rfl, rfl⟩ := Prod.mk.inj (Option.some.inj h)
      obtain ⟨t, rest, hget, htodo⟩ := exists_of_nextInstr hinstr
      rw [kindOf_eq hget] at hkind
      exact ⟨env, t, c, flow, device, rest, rfl, hget, Option.some.inj hkind, rfl, htodo⟩
    · cases h
  | recv | close | drop | connect | call | lan => cases h

theorem pairsIn_of_hostStores {s : State Id} {a : Act Id} {p w : Nat}
    (h : hostStores s a = some (p, w)) : ∃ t, s.procs[p]? = some t ∧ t.pairsIn = some w := by
  obtain ⟨env, t, c, flow, device, rest, -, hget, hkind, rfl, htodo⟩ := exists_of_hostStores h
  refine ⟨t, hget, ?_⟩
  rw [Task.pairsIn_host hkind, htodo]
  simp [Instr.pairs]

/-- What holds after a run: the shape of the sessions, that whatever can still pair does so in a
window that was open when it was accepted and was not closed since, and that nothing more can pair
in a window with a time to live that something was paired in. -/
structure WindowInv (tr : List (Step Id)) (s : State Id) : Prop where
  shape : ∀ (p : Nat) (t : Task Id) (h : HostSession Id), s.procs[p]? = some t →
    t.kind = .host h → HostShape t.todo
  bound : ∀ (p : Nat) (t : Task Id) (w : Nat), s.procs[p]? = some t → t.pairsIn = some w →
    w ≤ s.shared.windows.length
  openSince : ∀ (p : Nat) (t : Task Id), s.procs[p]? = some t → t.unsettled = true →
    Since (AcceptedInWindow p) ClosesWindow tr
  used : ∀ e ∈ tr, ∀ q w, hostStores e.pre e.act = some (q, w) → w ≤ s.shared.windows.length
  spent : ∀ e ∈ tr, ∀ q w, hostStores e.pre e.act = some (q, w) →
    timed s.shared.windows w = true →
    ∀ (p : Nat) (t : Task Id), s.procs[p]? = some t → t.pairsIn ≠ some w
  closing : ∀ e ∈ tr, ∀ q w, hostStores e.pre e.act = some (q, w) →
    timed s.shared.windows w = true → s.shared.pairingHostOpen = true →
    s.shared.windows.length = w →
    ∃ (p : Nat) (t : Task Id), s.procs[p]? = some t ∧ t.completesIn = some w

theorem hostShape_step {s s' : State Id} {a : Act Id} {out : List (Out Id)} (hfits : AllFit C s)
    (hshape : ∀ (p : Nat) (t : Task Id) (h : HostSession Id), s.procs[p]? = some t →
    t.kind = .host h → HostShape t.todo)
    (hs : step C s a = some (s', out)) {q : Nat} {t' : Task Id} {h : HostSession Id}
    (hq : s'.procs[q]? = some t') (hkind : t'.kind = .host h) : HostShape t'.todo := by
  obtain ⟨kind, todo, horigin, hhas⟩ := step_origin hs hq
  rw [hhas.1] at hkind
  rcases hhas.2 with htodo' | ⟨htodo', -⟩
  swap
  · rw [htodo']
    exact .nil
  rw [htodo']
  clear hhas htodo' hq hs
  cases horigin with
  | @kept a t hne hget => exact hshape q t h hget hkind
  | @exec env t instr rest kind n hget htodo hnext =>
    have hfit := hfits q t hget
    rw [htodo] at hfit
    cases hbefore : t.kind with
    | inbound conn =>
      rw [hbefore] at hnext hfit
      obtain ⟨i, rfl, rfl⟩ := hfit.inbound
      cases next_case hnext with
      | accept hc =>
        cases hc
        cases i with
        | acceptAllowed pairingHostOpen window =>
          simp only [nextAccept] at hkind ⊢
          split at hkind
          · cases hkind
          · split at hkind
            · cases hkind
            · rw [if_neg ‹_›, if_neg ‹_›]
              exact ⟨by simp [Instr.pairs], by simp [Instr.completes]⟩
        | acceptWindow => cases hkind
        | hookBlocked | hookDirectPath =>
          simp only [nextAccept] at hkind
          split at hkind <;> cases hkind
        | hookAccess =>
          simp only [nextAccept] at hkind
          split at hkind
          · cases hkind
          · split at hkind <;> cases hkind
    | host c =>
      have hc := hshape q t c hget hbefore
      rw [htodo] at hc
      rw [hbefore] at hnext hfit
      exact hc.exec (hostPush_next (hfit.fits instr (by simp)) hnext)
    | control | connect =>
      have hk := next_kind hnext
      rw [hbefore, hkind] at hk
      obtain ⟨_, heq, -⟩ := hk
      cases heq
    | call | expiry | lan | background =>
      have hk := next_kind hnext
      rw [hbefore, hkind] at hk
      cases hk
  | recv hget hrecv =>
    cases received_case hrecv with
    | host c => exact hostShape_receiveHost c _
    | control | connect => cases hkind
  | @close reason kind instr rest aborted hget hsees =>
    subst hkind
    simp only [closedTodo]
    split
    · exact ⟨by simp [Instr.pairs], by simp [Instr.completes]⟩
    · exact .nil
  | drop hget => exact .nil
  | spawned hget hnext hmem hnew => cases next_spawn hnext hmem <;> cases hkind
  | @started a t hactor hstart hnew =>
    cases started_case hstart with
    | connect | call | appeared | vanished => cases hkind

theorem pairsIn_after_store {s s' : State Id} {a : Act Id} {out : List (Out Id)} {p w : Nat}
    (hfits : AllFit C s) (hshape : ∀ (p : Nat) (t : Task Id) (h : HostSession Id),
      s.procs[p]? = some t → t.kind = .host h → HostShape t.todo)
    (hok : WindowGuard s a) (hs : step C s a = some (s', out))
    (hstores : hostStores s a = some (p, w)) (htimed : timed s.shared.windows w = true) {q : Nat}
    {t' : Task Id} (hq : s'.procs[q]? = some t') : t'.pairsIn ≠ some w := by
  intro hw
  obtain ⟨env, t, c, flow, device, rest, rfl, hget, hkind, rfl, htodo⟩ :=
    exists_of_hostStores hstores
  by_cases hqp : q = p
  · -- the session itself has nothing left that pairs
    subst hqp
    obtain ⟨kind, n, t₀, hnext, -, -, hget', hhas⟩ := step_exec hs hget htodo
    rw [hq] at hget'
    obtain rfl := Option.some.inj hget'
    have hfit := hfits q t hget
    rw [htodo, hkind] at hfit
    obtain ⟨rfl, -, -⟩ := hfit.fits _ (List.mem_cons_self ..)
    rw [hkind] at hnext
    obtain ⟨rfl, rfl⟩ := Prod.mk.inj (Option.some.inj hnext)
    have honce := (hshape q t c hget hkind).once
    rw [htodo, List.countP_cons] at honce
    have hrest : rest.countP Instr.pairs = 0 := by
      simp only [Instr.pairs, if_true] at honce
      omega
    have hw' := hhas.pairsIn hw
    rw [Task.pairsIn_host rfl] at hw'
    split at hw'
    · rename_i hany
      obtain ⟨i, hi, hp⟩ := List.any_eq_true.mp hany
      have hpos := List.countP_pos_iff.mpr ⟨i, hi, hp⟩
      simp [nextCommon, afterRemember, Instr.pairs, hrest] at hpos
    · cases hw'
  · obtain ⟨kind, todo, horigin, hhas⟩ := step_origin hs hq
    rcases (unsettled_origin hfits horigin).1 c.window (hhas.pairsIn hw) with
      ⟨t₀, hget₀, hw₀⟩ | ⟨hactor, -, -⟩
    · have hmem : t₀ ∈ s.procs.eraseIdx p := List.mem_eraseIdx_iff_getElem?.mpr ⟨q, hqp, hget₀⟩
      exact hok.2.1 _ hstores htimed t₀ hmem hw₀
    · exact hqp (Option.some.inj hactor).symm

/-- The session that stored a pairing is about to close its window. -/
theorem completesIn_after_store {s s' : State Id} {a : Act Id} {out : List (Out Id)} {p w : Nat}
    (hfits : AllFit C s) (hs : step C s a = some (s', out))
    (hstores : hostStores s a = some (p, w)) :
    ∃ t', s'.procs[p]? = some t' ∧ t'.completesIn = some w := by
  obtain ⟨env, t, c, flow, device, rest, rfl, hget, hkind, rfl, htodo⟩ :=
    exists_of_hostStores hstores
  obtain ⟨kind, n, t', hnext, -, -, hget', hhas⟩ := step_exec hs hget htodo
  refine ⟨t', hget', ?_⟩
  have hfit := hfits p t hget
  rw [htodo, hkind] at hfit
  obtain ⟨rfl, -, -⟩ := hfit.fits _ (List.mem_cons_self ..)
  rw [hkind] at hnext
  obtain ⟨rfl, rfl⟩ := Prod.mk.inj (Option.some.inj hnext)
  have htodo' := hhas.todo_eq rfl
  simp [Task.completesIn, hhas.1, htodo', Instr.completes]

theorem WindowInv.step {tr : List (Step Id)} {s s' : State Id} {a : Act Id} {out : List (Out Id)}
    (h : WindowInv tr s) (hfits : AllFit C s)
    (haborted : ∀ (p : Nat) (t : Task Id), s.procs[p]? = some t → t.aborted = true →
      t.kind.stoppable = true)
    (hok : WindowGuard s a) (hs : step C s a = some (s', out)) :
    WindowInv (tr ++ [⟨s, a, s', out⟩]) s' := by
  -- what a step of the trace stored was stored before, or is stored now
  have hbound : ∀ e ∈ tr ++ [(⟨s, a, s', out⟩ : Step Id)], ∀ q w,
      hostStores e.pre e.act = some (q, w) → w ≤ s.shared.windows.length := by
    intro e he q w hstores
    rcases List.mem_append.mp he with he | he
    · exact h.used e he q w hstores
    · obtain rfl := List.mem_singleton.mp he
      obtain ⟨t, hget, hw⟩ := pairsIn_of_hostStores hstores
      exact h.bound q t w hget hw
  refine ⟨fun p t c hp hkind => hostShape_step hfits h.shape hs hp hkind, ?_, ?_, ?_, ?_, ?_⟩
  · intro p t' w hp hw
    obtain ⟨kind, todo, horigin, hhas⟩ := step_origin hs hp
    rcases (unsettled_origin hfits horigin).1 w (hhas.pairsIn hw) with ⟨t, hget, hw⟩ | ⟨-, -, rfl⟩
    · exact (timed_step hs (h.bound p t w hget hw)).2
    · exact (timed_step hs le_rfl).2
  · intro p t' hp hunsettled
    obtain ⟨kind, todo, horigin, hhas⟩ := step_origin hs hp
    rcases (unsettled_origin hfits horigin).2 (hhas.unsettled hunsettled) with
      ⟨t, hget, hu⟩ | ⟨hactor, hlooks⟩
    · refine (h.openSince p t hget hu).snoc_keep fun hclose => ?_
      have hsettled := hok.1 hclose t (List.mem_of_getElem? hget)
      rw [hu] at hsettled
      cases hsettled
    · exact .snoc_now ⟨hactor, hlooks⟩
  · intro e he q w hstores
    exact (timed_step hs (hbound e he q w hstores)).2
  · intro e he q w hstores htimed p t' hp hw
    rw [(timed_step hs (hbound e he q w hstores)).1] at htimed
    rcases List.mem_append.mp he with he | he
    · obtain ⟨kind, todo, horigin, hhas⟩ := step_origin hs hp
      rcases (unsettled_origin hfits horigin).1 w (hhas.pairsIn hw) with
        ⟨t, hget, hw⟩ | ⟨-, hlooks, rfl⟩
      · exact h.spent e he q w hstores htimed p t hget hw
      · have hopen : s.shared.pairingHostOpen = true := by
          unfold looksOpen at hlooks
          split at hlooks
          · exact hlooks
          · cases hlooks
        obtain ⟨r, t, hget, hcompletes⟩ := h.closing e he q _ hstores htimed hopen rfl
        exact hok.2.2.1 hlooks htimed t (List.mem_of_getElem? hget) hcompletes
    · obtain rfl := List.mem_singleton.mp he
      exact pairsIn_after_store hfits h.shape hok hs hstores htimed hp hw
  · intro e he q w hstores htimed hopen hlast
    have hle := hbound e he q w hstores
    rw [(timed_step hs hle).1] at htimed
    rcases List.mem_append.mp he with he | he
    · rcases windows_step hs with ⟨b, hb⟩ | ⟨heq, hwas⟩
      · rw [hb, List.length_append, List.length_singleton] at hlast
        omega
      · obtain ⟨hopen, hclose⟩ := hwas hopen
        rw [heq] at hlast
        obtain ⟨p, t, hget, hcompletes⟩ := h.closing e he q w hstores htimed hopen hlast
        rcases completesIn_step hfits hok hs hget (haborted p t hget)
          (fun c hkind => h.shape p t c hget hkind) hcompletes htimed with hclose' | ⟨t', hget', ht'⟩
        · rw [hclose] at hclose'
          cases hclose'
        · exact ⟨p, t', hget', ht'⟩
    · obtain rfl := List.mem_singleton.mp he
      obtain ⟨t', hget', ht'⟩ := completesIn_after_store hfits hs hstores
      exact ⟨q, t', hget', ht'⟩

theorem windowInv_start (store : StoreFile) (rotated : Bool) (io : Io) (d : Discoverability)
    (relay : Option String) : WindowInv [] (start C store rotated io d relay) := by
  refine ⟨?_, ?_, ?_, by simp, by simp, by simp⟩
  · intro p t c hp hkind
    rw [eq_of_start hp] at hkind
    cases hkind
  · intro p t w hp hw
    rw [eq_of_start hp] at hw
    cases hw
  · intro p t hp hu
    rw [eq_of_start hp] at hu
    cases hu

/-- In every run in which a window is closed only when nothing accepted in it can still pair, and a
session completes in a window with a time to live only when no other can, such a window pairs once
and no session stores or allows a peer after its window was closed. -/
theorem window_discipline (C : Config Id) (store : StoreFile) (rotated : Bool) (io : Io)
    (d : Discoverability) (relay : Option String) (tr : List (Step Id)) (s : State Id)
    (hrun : Run (machine C) WindowGuard (start C store rotated io d relay) tr s) :
    WindowDiscipline tr := by
  have hinv : WindowInv tr s ∧ WindowDiscipline tr := by
    refine hrun.invariant_of_run (I := fun tr s => WindowInv tr s ∧ WindowDiscipline tr)
      ⟨windowInv_start store rotated io d relay, .nil, .nil, .nil⟩ ?_
    rintro tr s s' a out hprev ⟨h, hdiscipline⟩ hok (hs : step C s a = some (s', out))
    refine ⟨h.step (fits_run hprev) (fun p t => aborted_stoppable hprev) hok hs,
      hdiscipline.once.snoc ?_, hdiscipline.stores.snoc ?_, hdiscipline.allows.snoc ?_⟩
    · intro p w (hstores : hostStores s a = some (p, w)) htimed e he q hstores'
      obtain ⟨t, hget, hw⟩ := pairsIn_of_hostStores hstores
      exact h.spent e he q w hstores' htimed p t hget hw
    · intro p w (hstores : hostStores s a = some (p, w))
      obtain ⟨t, hget, hw⟩ := pairsIn_of_hostStores hstores
      exact h.openSince p t hget (by simp [Task.unsettled, hw])
    · intro p (hallows : hostAllows s a = some p)
      cases a with
      | exec q env =>
        simp only [hostAllows] at hallows
        split at hallows
        · rename_i c x hkind hinstr
          obtain rfl := Option.some.inj hallows
          obtain ⟨t, rest, hget, htodo⟩ := exists_of_nextInstr hinstr
          rw [kindOf_eq hget, Option.some.injEq] at hkind
          exact h.openSince q t hget (by simp [Task.unsettled, hkind, htodo, Instr.allows])
        · cases hallows
      | recv | close | drop | connect | call | lan => cases hallows
  exact hinv.2

/-! ### Two strangers in one window -/

/-- Bob and Carol connect while a window with a time to live is open. Bob pairs, which closes the
window; then Carol completes hers. -/
def bobThenCarol : List (Act Key) :=
  supervisor ++ windowOpened 1 ++ hosted 3 .bob 7 ++ hosted 4 .carol 8 ++
    completed 3 .bob Key.bob.hex 7 ++ go 3 9 ++ completed 4 .carol Key.carol.hex 8 ++ go 4 2

/-- The window pairs Carol as well, after it was closed. -/
theorem pairs_carol_after_bob : ¬ ∀ tr s,
    Run (machine alice) anyStep (aliceStart .missing) tr s → WindowDiscipline tr := by
  intro hclaim
  obtain ⟨tr, s, hrun, htest⟩ := Run.of_check (machine alice) anyStep (aliceStart .missing)
    bobThenCarol (fun tr _ => ∃ e ∈ tr.getLast?, hostStores e.pre e.act = some (4, 1) ∧
      timed e.pre.shared.windows 1 = true ∧ ∃ e' ∈ tr.dropLast,
        hostStores e'.pre e'.act = some (3, 1)) (by decide +kernel)
  obtain ⟨e, he, hcarol, htimed, e', he', hbob⟩ := of_decide_eq_true htest
  exact (hclaim tr s hrun).once tr.dropLast e [] (List.dropLast_append_getLast? e he).symm
    4 1 hcarol htimed e' he' 3 hbob

/-- Bob pairs in a window with a time to live, and Carol connects after that. -/
def bobAlone : List (Act Key) :=
  supervisor ++ windowOpened 1 ++ hosted 3 .bob 7 ++ completed 3 .bob Key.bob.hex 7 ++ go 3 9 ++
    accepted 5 .carol 8 ++ [.recv 5 (.rememberVote "" .remember)] ++ go 5 2

/-- The theorem applies to a run in which Bob pairs and the window closes. -/
theorem window_discipline_bobAlone :
    ∃ tr s, Run (machine alice) WindowGuard (aliceStart .missing) tr s ∧
      (∃ e ∈ tr, hostStores e.pre e.act = some (3, 1)) ∧ s.shared.pairingHostOpen = false ∧
      s.shared.allowed = {.bob} ∧ WindowDiscipline tr := by
  obtain ⟨tr, s, hrun, htest⟩ := Run.of_check (machine alice) WindowGuard (aliceStart .missing)
    bobAlone (fun tr s => (∃ e ∈ tr, hostStores e.pre e.act = some (3, 1)) ∧
      s.shared.pairingHostOpen = false ∧ s.shared.allowed = {.bob}) (by decide +kernel)
  obtain ⟨hstored, hclosed, hallowed⟩ := of_decide_eq_true htest
  exact ⟨tr, s, hrun, hstored, hclosed, hallowed,
    window_discipline alice .missing false ⟨true, true⟩ .everyone none tr s hrun⟩

end DashBeam.Node

import DashBeam.Lib.Network
import DashBeam.Node.Alice
import DashBeam.Node.Pledge

/-!
# Two nodes pairing

Two nodes and the control messages in flight between them. A message can be read any time after it was
sent, in any order; what third parties send, who is seen on the local network and which connections
come up is up to the outside.

An invite that was accepted should leave both nodes paired with each other once neither has anything
left to do (`Honoured`). The inviting node records the invite only after it was delivered, so the
answer can be there first and find nothing; it can also be read by a task that does not look invites
up. The property holds over the runs in which each acceptance finds its invite, and no connect loop
is refused by the other node once the pairing has settled (`accepted_invite_honoured`).
-/

namespace DashBeam.Node

open Protocol Native Lib

set_option linter.unusedSectionVars false

variable {Id : Type} [DecidableEq Id] {C : Config Id}

/-! ### The two nodes -/

inductive Side
  | a
  | b
  deriving DecidableEq, Repr

def Side.other : Side → Side
  | .a => .b
  | .b => .a

theorem Side.other_other (i : Side) : i.other.other = i := by
  cases i <;> rfl

/-- A message in flight: who sent it, and on which connection. -/
structure Flight where
  source : Side
  num : Nat
  msg : ControlMessage
  deriving DecidableEq, Repr

/-- The connection a task serves. -/
def Kind.conn : Kind Id → Option (Conn Id)
  | .inbound conn => some conn
  | .control session => some session.conn
  | .host session => some session.conn
  | .connect loop => loop.conn
  | _ => none

theorem conn_of_remote {kind : Kind Id} {x : Id} (h : kind.remote = some x) :
    ∃ conn, kind.conn = some conn ∧ conn.remote = x := by
  cases kind with
  | inbound | control | host => exact ⟨_, rfl, Option.some.inj h⟩
  | connect l => exact Option.map_eq_some_iff.mp h
  | call | expiry | lan | background => cases h

def peer (C : Side → Config Id) (i : Side) : Id := (C i.other).self

/-- Reading on a connection with the other node takes one of its messages. -/
def takes (C : Side → Config Id) (i : Side) (s : State Id) : Act Id → Option Flight
  | .recv p msg =>
    match (kindOf s p).bind Kind.conn with
    | some conn => if conn.remote = peer C i then some ⟨i.other, conn.num, msg⟩ else none
    | none => none
  | _ => none

/-- What is sent on a connection with the other node is on its way to it. -/
def puts (C : Side → Config Id) (i : Side) : Out Id → Option Flight
  | .sent conn msg => if conn.remote = peer C i then some ⟨i, conn.num, msg⟩ else none
  | _ => none

/-- The two nodes and the messages between them. A connection closes at each end on its own: what is in
flight are messages, and the reason a node sees a connection close for is given to it. -/
def net (C : Side → Config Id) : Net Side (State Id) (Act Id) (Out Id) Flight :=
  ⟨fun i => machine (C i), takes C, puts C⟩

/-- What `NodeService::start` is given. -/
structure Boot where
  store : StoreFile
  identityRotated : Bool
  io : Io
  discoverability : Discoverability
  homeRelayUrl : Option String

/-- Both nodes have started, and nothing is in flight. -/
def booted (C : Side → Config Id) (boot : Side → Boot) : World Side (State Id) Flight :=
  ⟨fun i => start (C i) (boot i).store (boot i).identityRotated (boot i).io
    (boot i).discoverability (boot i).homeRelayUrl, []⟩

/-! ### The property -/

/-- A step of the two nodes. -/
abbrev WorldStep (Id : Type) := Entry (World Side (State Id) Flight) (Side × Act Id) (Out Id)

/-- Node `i` was told that it has invited the other node, the other node has accepted its invite, and
node `i` has read the acceptance. -/
structure InviteAccepted (C : Side → Config Id) (i : Side) (tr : List (WorldStep Id)) : Prop where
  invited : ∃ e ∈ locally i tr, ReturnsInvited (C i) (peer C i) e
  accepted : ∃ e ∈ locally i.other tr, ReturnsAccepted (C i.other) (C i).self e
  answered : ∃ e ∈ locally i tr, ReadsAcceptance (peer C i) e

instance (C : Side → Config Id) (i : Side) (tr : List (WorldStep Id)) :
    Decidable (InviteAccepted C i tr) :=
  decidable_of_iff ((∃ e ∈ locally i tr, ReturnsInvited (C i) (peer C i) e) ∧
      (∃ e ∈ locally i.other tr, ReturnsAccepted (C i.other) (C i).self e) ∧
      ∃ e ∈ locally i tr, ReadsAcceptance (peer C i) e)
    ⟨fun h => ⟨h.1, h.2.1, h.2.2⟩, fun h => ⟨h.invited, h.accepted, h.answered⟩⟩

def Honoured (C : Side → Config Id) (tr : List (WorldStep Id)) (w : World Side (State Id) Flight) :
    Prop :=
  ∀ i, InviteAccepted C i tr → (∀ j, AtRest (w.node j)) →
    ∀ j, Paired (C j) (w.node j).shared (peer C j)

/-- Neither node is disturbed in its pairing with the other. -/
def Peaceful (C : Side → Config Id) (w : World Side (State Id) Flight) (a : Side × Act Id) : Prop :=
  Undisturbed (C a.1) (peer C a.1) (w.node a.1) a.2

instance (C : Side → Config Id) (w : World Side (State Id) Flight) (a : Side × Act Id) :
    Decidable (Peaceful C w a) :=
  inferInstanceAs (Decidable (Undisturbed ..))

/-- Peaceful, and an acceptance of the other node finds the invite it answers. -/
def Heeding (C : Side → Config Id) (w : World Side (State Id) Flight) (a : Side × Act Id) : Prop :=
  Peaceful C w a ∧ FindsInvite (C a.1) (peer C a.1) (w.node a.1) a.2

instance (C : Side → Config Id) (w : World Side (State Id) Flight) (a : Side × Act Id) :
    Decidable (Heeding C w a) :=
  inferInstanceAs (Decidable (_ ∧ _))

/-! ### Each node on its own -/

theorem takes_heard {C : Side → Config Id} {i : Side} {s : State Id} {a : Act Id} {x : Id}
    {msg : ControlMessage} (h : heard s a = some (x, msg)) (hpeer : x = peer C i) :
    ∃ num, takes C i s a = some ⟨i.other, num, msg⟩ := by
  cases a with
  | recv p msg' =>
    obtain ⟨y, hy, hpair⟩ := Option.map_eq_some_iff.mp h
    obtain ⟨rfl, rfl⟩ := Prod.mk.inj hpair
    obtain ⟨kind, hkind, hremote⟩ := Option.bind_eq_some_iff.mp hy
    obtain ⟨conn, hconn, rfl⟩ := conn_of_remote hremote
    refine ⟨conn.num, ?_⟩
    simp only [takes, hkind, Option.bind_some, hconn]
    rw [if_pos hpeer]
  | exec | close | drop | connect | call | lan => cases h

/-- The part of each node in a heeding run is a run that keeps the pairing: no `Forget` is ever in
flight. -/
theorem keepsPairing_locally {C : Side → Config Id} {boot : Side → Boot}
    {tr : List (WorldStep Id)} {w : World Side (State Id) Flight}
    (hrun : Run (net C).machine (Heeding C) (booted C boot) tr w) (i : Side) :
    Run (machine (C i)) (KeepsPairing (C i) (peer C i)) ((booted C boot).node i) (locally i tr)
      (w.node i) := by
  refine (hrun.locally (fun i => KeepsPairing (C i) (peer C i))
    (fun flight => isForget flight.msg = false) ?_ ?_ ?_).2 i
  · intro w i a hok htakes
    refine ⟨hok.1, hok.2, fun x hx hpeer => ?_⟩
    obtain ⟨num, hnum⟩ := takes_heard hx hpeer
    exact htakes _ hnum
  · intro i tr s a s' out hlocal hok hs o ho flight hputs
    cases o with
    | sent conn msg =>
      simp only [net, puts] at hputs
      split at hputs
      · rename_i hremote
        obtain rfl := Option.some.inj hputs
        exact forget_unsent_step (allFaithful_run hlocal) hs ho hremote
      · cases hputs
    | event | closed | returned => cases hputs
  · intro flight hflight
    cases hflight

/-- In every run in which nobody forgets or blocks the other, no write fails, no limit is hit and each
acceptance finds its invite, an invite that was accepted is honoured, whichever of the two invited and
however their steps and messages interleave. -/
theorem accepted_invite_honoured (C : Side → Config Id) (boot : Side → Boot)
    (tr : List (WorldStep Id)) (w : World Side (State Id) Flight)
    (hrun : Run (net C).machine (Heeding C) (booted C boot) tr w) : Honoured C tr w := by
  intro i h hrest
  have hi : Paired (C i) (w.node i).shared (peer C i) := by
    obtain ⟨e, he, hanswered⟩ := h.answered
    exact paired_of_pledge (keepsPairing_locally hrun i) ⟨e, he, .inr hanswered⟩ (hrest i)
  have hother : Paired (C i.other) (w.node i.other).shared (peer C i.other) := by
    obtain ⟨e, he, haccepted⟩ := h.accepted
    have hpeer : peer C i.other = (C i).self := by rw [peer, Side.other_other]
    exact paired_of_pledge (keepsPairing_locally hrun i.other) ⟨e, he, .inl (hpeer ▸ haccepted)⟩
      (hrest i.other)
  intro j
  cases i with
  | a => cases j <;> assumption
  | b => cases j <;> assumption

/-! ### Alice invites Bob -/

def bob : Config Key := ⟨Key.iroh, .bob, "Bob", "phone", "android", "desktop"⟩

def couple : Side → Config Key
  | .a => alice
  | .b => bob

/-- Both start with an empty store and are discoverable by everyone. -/
def freshBoot : Side → Boot := fun _ => ⟨.missing, false, ⟨true, true⟩, .everyone, none⟩

def onSide (side : Side) (acts : List (Act Key)) : List (Side × Act Key) := acts.map (side, ·)

/-- Both have started and Alice has seen Bob, whose probe is her task 2. She asks him to pair, as task
3, and her request is sent. -/
def asked : List (Side × Act Key) :=
  onSide .a (supervisor ++ sighting 1 .bob ++ go 2 1 ++ requestSent 3 .bob 1) ++
    onSide .b supervisor

/-- Bob reads the request, as task 1, and accepts it, as task 2. His connect loop is task 3. -/
def agreed : List (Side × Act Key) :=
  onSide .b (accepted 1 .alice 1 ++ [.recv 1 (.pairRequest "Alice" "laptop" "linux")] ++ go 1 2 ++
    inviteAccepted 2 .alice 2 ++ go 3 1)

/-- Alice reads Bob's answer, as task 4. -/
def answerRead : List (Side × Act Key) :=
  onSide .a (accepted 4 .bob 2 ++ [.recv 4 (.inviteResponse "" .accepted)])

/-- The answer is there before Alice's task 3 has recorded the invite. -/
def overtakenInvite : List (Side × Act Key) :=
  asked ++ agreed ++ answerRead ++ onSide .a (go 4 2 ++ go 3 2)

/-- Bob is paired with Alice, and Alice not with Bob. -/
theorem accepted_invite_overtaken : ¬ ∀ (C : Side → Config Key) (boot : Side → Boot) tr w,
    Run (net C).machine (Peaceful C) (booted C boot) tr w → Honoured C tr w := by
  intro hclaim
  obtain ⟨tr, w, hrun, htest⟩ := Run.of_check (net couple).machine (Peaceful couple)
    (booted couple freshBoot) overtakenInvite (fun tr w =>
      InviteAccepted couple .a tr ∧ AtRest (w.node .a) ∧ AtRest (w.node .b) ∧
        Paired bob (w.node .b).shared .alice ∧ ¬ Paired alice (w.node .a).shared .bob)
    (by decide +kernel)
  obtain ⟨haccepted, hresta, hrestb, -, hnot⟩ := of_decide_eq_true htest
  exact hnot (hclaim couple freshBoot tr w hrun .a haccepted
    (fun j => by cases j <;> assumption) .a)

/-- Alice records the invite before the answer is read. Her connect loop is task 5. -/
def heededInvite : List (Side × Act Key) :=
  asked ++ onSide .a (go 3 2) ++ agreed ++ answerRead ++ onSide .a (go 4 10 ++ go 5 1)

/-- The theorem applies to a run in which Alice's invite is accepted. -/
theorem accepted_invite_heeded :
    ∃ tr w, Run (net couple).machine (Heeding couple) (booted couple freshBoot) tr w ∧
      InviteAccepted couple .a tr ∧ AtRest (w.node .a) ∧ AtRest (w.node .b) ∧
      Honoured couple tr w ∧ Paired alice (w.node .a).shared .bob ∧
      Paired bob (w.node .b).shared .alice := by
  obtain ⟨tr, w, hrun, htest⟩ := Run.of_check (net couple).machine (Heeding couple)
    (booted couple freshBoot) heededInvite (fun tr w =>
      InviteAccepted couple .a tr ∧ AtRest (w.node .a) ∧ AtRest (w.node .b)) (by decide +kernel)
  obtain ⟨haccepted, hresta, hrestb⟩ := of_decide_eq_true htest
  have hhonoured := accepted_invite_honoured couple freshBoot tr w hrun
  have hpaired := hhonoured .a haccepted (fun j => by cases j <;> assumption)
  exact ⟨tr, w, hrun, haccepted, hresta, hrestb, hhonoured, hpaired .a, hpaired .b⟩

end DashBeam.Node

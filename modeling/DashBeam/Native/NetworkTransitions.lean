import DashBeam.Lib.Past
import DashBeam.Protocol.Control

/-!
# Network transitions

`reconfigure_network` and `set_discoverability` of `engine/native/src/node.rs`, one after another under
the `network_transition` lock. `rebuild_network` closes the endpoint before it builds the next runtime,
and records the modes only when that has worked. Every part of what a call that returns `Ok` promises is
kept by all of this except one: after a rebuild that failed, a call whose request is already recorded
returns `Ok` at once, and the runtime it leaves is the closed one.

The two modes are compared by their debug texts and handed on to the network library, so their types
are left open.
-/

namespace DashBeam.Native

open Lib Protocol

/-- The texts by which modes are compared. Derived `Debug` prints the variant and its fields. -/
structure Modes (Relay Discovery : Type) where
  relayText : Relay → String
  discoveryText : Discovery → String
  relay_injective : Function.Injective relayText
  discovery_injective : Function.Injective discoveryText

/-- A runtime, with the modes it was built with and whether its endpoint is open. -/
structure NodeRuntime (Relay Discovery : Type) where
  relay : Relay
  discovery : Discovery
  live : Bool
  deriving DecidableEq, Repr

/-- What the transitions of a node read and write. -/
structure Network (Relay Discovery : Type) where
  runtime : NodeRuntime Relay Discovery
  relayMode : Relay
  discoveryMode : Discovery
  discoverability : Discoverability
  lanDiscovery : Bool
  deriving DecidableEq, Repr

/-- How a rebuild goes: whether the router shuts down, whether a failed shutdown has closed the
endpoint, whether the new runtime is built, and whether LAN discovery starts. -/
structure Rebuild where
  shutdown : Bool
  closes : Bool
  build : Bool
  lan : Bool
  deriving DecidableEq, Repr

inductive Reply
  | ok
  | err
  deriving DecidableEq, Repr

def shouldPublishMdns (setting : Discoverability) : Bool := setting != .off

variable {Relay Discovery : Type}

def rebuildNetwork (node : Network Relay Discovery) (relay : Relay) (discovery : Discovery)
    (how : Rebuild) : Reply × Network Relay Discovery :=
  -- `stop_lan_discovery` comes first, whatever follows
  if !how.shutdown then
    (.err, { node with
      lanDiscovery := false
      runtime := { node.runtime with live := node.runtime.live && !how.closes } })
  else if !how.build then
    (.err, { node with lanDiscovery := false, runtime := { node.runtime with live := false } })
  else
    (.ok, { node with
      runtime := ⟨relay, discovery, true⟩
      relayMode := relay
      discoveryMode := discovery
      lanDiscovery := shouldPublishMdns node.discoverability && how.lan })

def recorded (modes : Modes Relay Discovery) (node : Network Relay Discovery) (relay : Relay)
    (discovery : Discovery) : Bool :=
  modes.relayText node.relayMode == modes.relayText relay &&
    modes.discoveryText node.discoveryMode == modes.discoveryText discovery

def reconfigureNetwork (modes : Modes Relay Discovery) (node : Network Relay Discovery)
    (relay : Relay) (discovery : Discovery) (how : Rebuild) : Reply × Network Relay Discovery :=
  if recorded modes node relay discovery then (.ok, node)
  else rebuildNetwork node relay discovery how

/-- Both settings publish over mDNS, or neither does. -/
def sameSide (previous setting : Discoverability) : Bool :=
  decide (setting = .off) == decide (previous = .off)

def setDiscoverability (node : Network Relay Discovery) (setting : Discoverability)
    (how : Rebuild) : Reply × Network Relay Discovery :=
  let changed := { node with discoverability := setting }
  if sameSide node.discoverability setting then (.ok, changed)
  else
    match rebuildNetwork changed changed.relayMode changed.discoveryMode how with
    | (.err, failed) => (.err, { failed with discoverability := node.discoverability })
    | (.ok, rebuilt) => (.ok, rebuilt)

inductive NetworkAct (Relay Discovery : Type)
  | reconfigureNetwork (relay : Relay) (discovery : Discovery) (how : Rebuild)
  | setDiscoverability (setting : Discoverability) (how : Rebuild)
  deriving DecidableEq, Repr

def NetworkAct.run (modes : Modes Relay Discovery) (node : Network Relay Discovery) :
    NetworkAct Relay Discovery → Reply × Network Relay Discovery
  | .reconfigureNetwork relay discovery how => Native.reconfigureNetwork modes node relay discovery how
  | .setDiscoverability setting how => Native.setDiscoverability node setting how

def networkMachine (modes : Modes Relay Discovery) :
    Machine (Network Relay Discovery) (NetworkAct Relay Discovery) Reply where
  step node act := some ((act.run modes node).2, [(act.run modes node).1])

/-- A node that was started with these modes and this setting. -/
def startNetwork (relay : Relay) (discovery : Discovery) (setting : Discoverability) (lan : Bool) :
    Network Relay Discovery :=
  ⟨⟨relay, discovery, true⟩, relay, discovery, setting, shouldPublishMdns setting && lan⟩

/-! ### What an `Ok` promises -/

abbrev NetworkEntry (Relay Discovery : Type) : Type :=
  Entry (Network Relay Discovery) (NetworkAct Relay Discovery) Reply

/-- The modes of the last `reconfigure_network` that returned `Ok`, or of the start. -/
def requestedModes (initial : Relay × Discovery) (tr : List (NetworkEntry Relay Discovery)) :
    Relay × Discovery :=
  tr.foldl (fun modes e => match e.act, e.out with
    | .reconfigureNetwork relay discovery _, [.ok] => (relay, discovery)
    | _, _ => modes) initial

/-- The setting of the last `set_discoverability` that returned `Ok`, or of the start. -/
def requestedSetting (initial : Discoverability) (tr : List (NetworkEntry Relay Discovery)) :
    Discoverability :=
  tr.foldl (fun setting e => match e.act, e.out with
    | .setDiscoverability setting _, [.ok] => setting
    | _, _ => setting) initial

/-- What the node records is what was requested and what its runtime was built with, and LAN discovery
does not run when it is off. -/
structure Consistent (initial : Network Relay Discovery)
    (tr : List (NetworkEntry Relay Discovery)) (node : Network Relay Discovery) : Prop where
  built : node.runtime.relay = node.relayMode ∧ node.runtime.discovery = node.discoveryMode
  requested : (node.relayMode, node.discoveryMode) =
    requestedModes (initial.relayMode, initial.discoveryMode) tr
  setting : node.discoverability = requestedSetting initial.discoverability tr
  quiet : requestedSetting initial.discoverability tr = .off → node.lanDiscovery = false

/-- What a call that returns `Ok` says: the node is consistent, and its runtime is live. -/
def Truthful (initial : Network Relay Discovery) (tr : List (NetworkEntry Relay Discovery))
    (node : Network Relay Discovery) : Prop :=
  node.runtime.live = true ∧ Consistent initial tr node

/-- The call goes on to `rebuild_network`. -/
def NetworkAct.rebuilds (modes : Modes Relay Discovery) (node : Network Relay Discovery) :
    NetworkAct Relay Discovery → Bool
  | .reconfigureNetwork relay discovery _ => !recorded modes node relay discovery
  | .setDiscoverability setting _ => !sameSide node.discoverability setting

/-! ### One call -/

section Step

variable {modes : Modes Relay Discovery} {initial node : Network Relay Discovery}
  {tr : List (NetworkEntry Relay Discovery)} {e : NetworkEntry Relay Discovery}
  {relay : Relay} {discovery : Discovery} {setting : Discoverability} {how : Rebuild}

theorem requestedModes_snoc (initial : Relay × Discovery) (tr : List (NetworkEntry Relay Discovery))
    (e : NetworkEntry Relay Discovery) :
    requestedModes initial (tr ++ [e]) = match e.act, e.out with
      | .reconfigureNetwork relay discovery _, [.ok] => (relay, discovery)
      | _, _ => requestedModes initial tr := by
  rw [requestedModes, List.foldl_append]
  rfl

theorem requestedSetting_snoc (initial : Discoverability)
    (tr : List (NetworkEntry Relay Discovery)) (e : NetworkEntry Relay Discovery) :
    requestedSetting initial (tr ++ [e]) = match e.act, e.out with
      | .setDiscoverability setting _, [.ok] => setting
      | _, _ => requestedSetting initial tr := by
  rw [requestedSetting, List.foldl_append]
  rfl

theorem recorded_iff : recorded modes node relay discovery = true ↔
    node.relayMode = relay ∧ node.discoveryMode = discovery := by
  rw [recorded, Bool.and_eq_true, beq_iff_eq, beq_iff_eq, modes.relay_injective.eq_iff,
    modes.discovery_injective.eq_iff]

/-- A rebuild fails and leaves what is recorded, or puts a live runtime in place. -/
theorem rebuildNetwork_cases (node : Network Relay Discovery) (relay : Relay)
    (discovery : Discovery) (how : Rebuild) :
    (∃ live, rebuildNetwork node relay discovery how =
      (.err, { node with
        lanDiscovery := false
        runtime := { node.runtime with live := live } })) ∨
    rebuildNetwork node relay discovery how =
      (.ok, { node with
        runtime := ⟨relay, discovery, true⟩
        relayMode := relay
        discoveryMode := discovery
        lanDiscovery := shouldPublishMdns node.discoverability && how.lan }) := by
  unfold rebuildNetwork
  split
  · exact .inl ⟨_, rfl⟩
  · split
    · exact .inl ⟨false, rfl⟩
    · exact .inr rfl

theorem publish_off (how : Rebuild) (h : setting = .off) :
    (shouldPublishMdns setting && how.lan) = false := by
  rw [h]
  rfl

theorem Consistent.reconfigure (modes : Modes Relay Discovery) (h : Consistent initial tr node)
    {node' : Network Relay Discovery} {reply : Reply}
    (hrun : reconfigureNetwork modes node relay discovery how = (reply, node')) :
    Consistent initial
      (tr ++ [⟨node, .reconfigureNetwork relay discovery how, node', [reply]⟩]) node' := by
  have hsetting : requestedSetting initial.discoverability (tr ++ [⟨node,
      .reconfigureNetwork relay discovery how, node', [reply]⟩]) =
        requestedSetting initial.discoverability tr := requestedSetting_snoc _ _ _
  unfold reconfigureNetwork at hrun
  split at hrun
  · rename_i hrecorded
    obtain ⟨hrelay, hdiscovery⟩ := recorded_iff.mp hrecorded
    cases hrun
    refine ⟨h.built, ?_, hsetting.symm ▸ h.setting, hsetting.symm ▸ h.quiet⟩
    rw [requestedModes_snoc, hrelay, hdiscovery]
  · rcases rebuildNetwork_cases node relay discovery how with ⟨live, hfailed⟩ | hbuilt
    · rw [hfailed] at hrun
      cases hrun
      refine ⟨h.built, ?_, hsetting.symm ▸ h.setting, fun _ => rfl⟩
      rw [requestedModes_snoc]
      exact h.requested
    · rw [hbuilt] at hrun
      cases hrun
      refine ⟨⟨rfl, rfl⟩, ?_, hsetting.symm ▸ h.setting, fun hoff => ?_⟩
      · rw [requestedModes_snoc]
      · rw [hsetting, ← h.setting] at hoff
        exact publish_off how hoff

theorem sameSide_off (h : sameSide node.discoverability setting = true) (hoff : setting = .off) :
    node.discoverability = .off := by
  rw [sameSide, beq_iff_eq, decide_eq_decide] at h
  exact h.mp hoff

theorem Consistent.discoverability (h : Consistent initial tr node)
    {node' : Network Relay Discovery} {reply : Reply}
    (hrun : setDiscoverability node setting how = (reply, node')) :
    Consistent initial (tr ++ [⟨node, .setDiscoverability setting how, node', [reply]⟩]) node' := by
  have hmodes : requestedModes (initial.relayMode, initial.discoveryMode) (tr ++ [⟨node,
      .setDiscoverability setting how, node', [reply]⟩]) =
        requestedModes (initial.relayMode, initial.discoveryMode) tr := requestedModes_snoc _ _ _
  unfold setDiscoverability at hrun
  dsimp only at hrun
  split at hrun
  · rename_i hside
    cases hrun
    refine ⟨h.built, hmodes.symm ▸ h.requested, ?_, fun hoff => ?_⟩
    · rw [requestedSetting_snoc]
    · rw [requestedSetting_snoc] at hoff
      refine h.quiet ?_
      rw [← h.setting]
      exact sameSide_off hside hoff
  · rcases rebuildNetwork_cases { node with discoverability := setting } node.relayMode
        node.discoveryMode how with ⟨live, hfailed⟩ | hbuilt
    · rw [hfailed] at hrun
      cases hrun
      refine ⟨h.built, hmodes.symm ▸ h.requested, ?_, fun _ => rfl⟩
      rw [requestedSetting_snoc]
      exact h.setting
    · rw [hbuilt] at hrun
      cases hrun
      refine ⟨⟨rfl, rfl⟩, hmodes.symm ▸ h.requested, ?_, fun hoff => ?_⟩
      · rw [requestedSetting_snoc]
      · rw [requestedSetting_snoc] at hoff
        exact publish_off how hoff

/-- A call that returns `Ok` leaves a live runtime exactly when it built one or found one. -/
theorem live_iff {act : NetworkAct Relay Discovery} {node' : Network Relay Discovery}
    (hrun : act.run modes node = (.ok, node')) :
    node'.runtime.live = true ↔ act.rebuilds modes node = true ∨ node.runtime.live = true := by
  cases act with
  | reconfigureNetwork relay discovery how =>
    simp only [NetworkAct.run, reconfigureNetwork] at hrun
    simp only [NetworkAct.rebuilds]
    split at hrun
    · rename_i hrecorded
      cases hrun
      simp [hrecorded]
    · rename_i hnew
      rcases rebuildNetwork_cases node relay discovery how with ⟨live, hfailed⟩ | hbuilt
      · rw [hfailed] at hrun
        cases hrun
      · rw [hbuilt] at hrun
        cases hrun
        simp [hnew]
  | setDiscoverability setting how =>
    simp only [NetworkAct.run, setDiscoverability] at hrun
    simp only [NetworkAct.rebuilds]
    split at hrun
    · rename_i hside
      cases hrun
      simp [hside]
    · rename_i hcrosses
      rcases rebuildNetwork_cases { node with discoverability := setting } node.relayMode
          node.discoveryMode how with ⟨live, hfailed⟩ | hbuilt
      · rw [hfailed] at hrun
        cases hrun
      · rw [hbuilt] at hrun
        cases hrun
        simp [hcrosses]

end Step

/-! ### Runs -/

theorem consistent_run {modes : Modes Relay Discovery} {initial node : Network Relay Discovery}
    {tr : List (NetworkEntry Relay Discovery)}
    (hrun : Run (networkMachine modes) anyStep initial tr node)
    (hinitial : Consistent initial [] initial) : Consistent initial tr node := by
  refine hrun.invariant (I := Consistent initial) hinitial ?_
  intro tr node node' act out h _ hstep
  rw [networkMachine, Option.some.injEq, Prod.mk.injEq] at hstep
  obtain ⟨rfl, rfl⟩ := hstep
  cases act with
  | reconfigureNetwork relay discovery how => exact Consistent.reconfigure modes h rfl
  | setDiscoverability setting how => exact h.discoverability rfl

theorem consistent_start (relay : Relay) (discovery : Discovery) (setting : Discoverability)
    (lan : Bool) : Consistent (startNetwork relay discovery setting lan) []
      (startNetwork relay discovery setting lan) := by
  refine ⟨⟨rfl, rfl⟩, rfl, rfl, ?_⟩
  intro hoff
  change setting = .off at hoff
  subst hoff
  rfl

/-- In every run from a start, each call that returns `Ok` tells the truth exactly when it goes on to
rebuild the network or finds a live runtime. -/
theorem transition_truthful_iff (modes : Modes Relay Discovery) (relay : Relay)
    (discovery : Discovery) (setting : Discoverability) (lan : Bool)
    (tr : List (NetworkEntry Relay Discovery)) (node : Network Relay Discovery)
    (hrun : Run (networkMachine modes) anyStep (startNetwork relay discovery setting lan) tr node) :
    Each (fun past e => e.out = [.ok] →
      (Truthful (startNetwork relay discovery setting lan) (past ++ [e]) e.post ↔
        e.act.rebuilds modes e.pre = true ∨ e.pre.runtime.live = true)) tr := by
  refine hrun.invariant_of_run (I := fun tr _ => Each _ tr) Each.nil ?_
  intro tr node node' act out hbefore heach _ hstep
  refine heach.snoc fun hok => ?_
  have hconsistent : Consistent _ (tr ++ [⟨node, act, node', out⟩]) node' :=
    consistent_run (.snoc hbefore trivial hstep) (consistent_start relay discovery setting lan)
  rw [networkMachine, Option.some.injEq, Prod.mk.injEq] at hstep
  change out = [.ok] at hok
  rw [hok, List.cons.injEq] at hstep
  have hcall : act.run modes node = (.ok, node') := Prod.ext hstep.2.1 hstep.1
  exact (and_iff_left hconsistent).trans (live_iff hcall)

/-- Relay modes that are their own texts, for the concrete runs. -/
def demoModes : Modes String String := ⟨id, id, Function.injective_id, Function.injective_id⟩

def works : Rebuild := ⟨true, true, true, true⟩

/-- A rebuild whose new runtime cannot be built. -/
def unbuilt : Rebuild := ⟨true, true, false, true⟩

/-- A node goes to a custom relay and off the local network: both calls tell the truth. -/
theorem transition_truthful_iff_relayAndOff :
    ∃ tr node, Run (networkMachine demoModes) anyStep
        (startNetwork "default" "default" .everyone true) tr node ∧
      node.relayMode = "custom" ∧ node.lanDiscovery = false ∧
      Each (fun past e => e.out = [.ok] →
        (Truthful (startNetwork "default" "default" .everyone true) (past ++ [e]) e.post ↔
          e.act.rebuilds demoModes e.pre = true ∨ e.pre.runtime.live = true)) tr := by
  obtain ⟨tr, node, hrun, htest⟩ := Run.of_check (networkMachine demoModes) anyStep
    (startNetwork "default" "default" .everyone true)
    [.reconfigureNetwork "custom" "default" works, .setDiscoverability .off works]
    (fun _ node => decide (node.relayMode = "custom" ∧ node.lanDiscovery = false))
    (by decide +kernel)
  obtain ⟨hrelay, hlan⟩ := of_decide_eq_true htest
  exact ⟨tr, node, hrun, hrelay, hlan,
    transition_truthful_iff demoModes "default" "default" .everyone true tr node hrun⟩

/-- The rebuild for a custom relay fails, and going back to the modes that are still recorded returns
`Ok` on the closed runtime. -/
theorem transition_untruthful :
    ∃ tr node, Run (networkMachine demoModes) anyStep
        (startNetwork "default" "default" .everyone true) tr node ∧
      (tr.map Entry.out).getLast? = some [.ok] ∧
      ¬ Truthful (startNetwork "default" "default" .everyone true) tr node := by
  obtain ⟨tr, node, hrun, htest⟩ := Run.of_check (networkMachine demoModes) anyStep
    (startNetwork "default" "default" .everyone true)
    [.reconfigureNetwork "custom" "default" unbuilt,
      .reconfigureNetwork "default" "default" works]
    (fun tr node => decide ((tr.map Entry.out).getLast? = some [.ok] ∧ node.runtime.live = false))
    (by decide +kernel)
  obtain ⟨hok, hdead⟩ := of_decide_eq_true htest
  refine ⟨tr, node, hrun, hok, fun htruthful => ?_⟩
  rw [htruthful.1] at hdead
  cases hdead

end DashBeam.Native

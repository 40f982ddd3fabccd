import DashBeam.Lib.Past
import DashBeam.Lib.SortedMap
import DashBeam.Native.Nearby
import DashBeam.Protocol.Fingerprint
import Mathlib.Data.String.Basic

/-!
# The registry of nearby devices over runs

`NearbyRegistry` with the fingerprint its rows show, as a map in the order of its keys. Without
fingerprints it does what the registry of the node's model does (`plainCall_run`).

What a step can do to one id is one of five things (`step_effect`), and what a row of the registry says
follows from the history of its id (`Story`). Times may go backwards here.
-/

namespace DashBeam.Native

open Lib Protocol

/-! ## The code -/

/-- `NearbyDevice` with all its fields. -/
structure NearbyRow extends NearbyDevice where
  fingerprint : Text
  deriving DecidableEq

/-- `TrackedDevice`. -/
structure TrackedRow where
  device : NearbyRow
  lastProbeAt : Nat
  deriving DecidableEq

/-- `NearbyRegistry`. -/
abbrev NearbyRows : Type := SortedMap String TrackedRow

namespace NearbyRows

def new : NearbyRows := SortedMap.empty

def observe (rows : NearbyRows) (endpointId : String) (peerIsPaired : Bool) (nowMs : Nat) :
    ObserveOutcome × NearbyRows :=
  match shortFingerprint endpointId.toList with
  | none => (.invalid, rows)
  | some fingerprint =>
    if peerIsPaired then (.paired, rows.erase endpointId)
    else
      match rows.get endpointId with
      | some tracked =>
        if nowMs - tracked.lastProbeAt < nearbyIdentityRefreshMs then (.known, rows)
        else (.refreshNeeded, rows.modify endpointId fun t => { t with lastProbeAt := nowMs })
      | none =>
        (.probeNeeded, rows.insert endpointId
          { device :=
              { endpointId := endpointId
                fingerprint := fingerprint
                displayName := none
                deviceType := none
                os := none
                identified := false }
            lastProbeAt := nowMs })

def setRow (displayName deviceType : String) (os : Option String) (t : TrackedRow) : TrackedRow :=
  { t with
    device := { t.device with
      displayName := some displayName
      deviceType := some deviceType
      os := os
      identified := true } }

def setIdentity (rows : NearbyRows) (endpointId displayName deviceType : String)
    (os : Option String) : Bool × NearbyRows :=
  match rows.get endpointId with
  | none => (false, rows)
  | some tracked =>
    (!tracked.device.identified || tracked.device.displayName != some displayName ||
        tracked.device.deviceType != some deviceType || tracked.device.os != os,
      rows.modify endpointId (setRow displayName deviceType os))

def expire (rows : NearbyRows) (endpointId : String) : Bool × NearbyRows :=
  ((rows.get endpointId).isSome, rows.erase endpointId)

def list (rows : NearbyRows) : List NearbyRow := rows.entries.map (·.2.device)

def clear (_rows : NearbyRows) : NearbyRows := SortedMap.empty

end NearbyRows

/-! ### Calls -/

inductive NearbyCall
  | observe (endpointId : String) (peerIsPaired : Bool) (nowMs : Nat)
  | setIdentity (endpointId displayName deviceType : String) (os : Option String)
  | expire (endpointId : String)
  | clear
  deriving DecidableEq, Repr

/-- What a call returns. -/
inductive NearbyAnswer
  | outcome (outcome : ObserveOutcome)
  | changed (changed : Bool)
  | removed (removed : Bool)
  deriving DecidableEq, Repr

def nearbyMachine : Machine NearbyRows NearbyCall NearbyAnswer where
  step rows
    | .observe endpointId peerIsPaired nowMs =>
      let (outcome, rows) := rows.observe endpointId peerIsPaired nowMs
      some (rows, [.outcome outcome])
    | .setIdentity endpointId displayName deviceType os =>
      let (changed, rows) := rows.setIdentity endpointId displayName deviceType os
      some (rows, [.changed changed])
    | .expire endpointId =>
      let (removed, rows) := rows.expire endpointId
      some (rows, [.removed removed])
    | .clear => some (rows.clear, [])

/-! ## Histories of an id -/

abbrev NearbyEntry : Type := Entry NearbyRows NearbyCall NearbyAnswer

/-- The identity a probe brings. -/
structure NearbyIdentity where
  displayName : String
  deviceType : String
  os : Option String
  deriving DecidableEq, Repr

/-- The step lists an id that was not listed. -/
def Inserts (e : String) (x : NearbyEntry) : Prop := x.pre.get e = none ∧ x.post.get e ≠ none

/-- The step takes an id that was listed off the list. -/
def Removes (e : String) (x : NearbyEntry) : Prop := x.pre.get e ≠ none ∧ x.post.get e = none

/-- The step is a `set_identity` that finds the id listed. -/
def Identifies (e : String) (identity : NearbyIdentity) (x : NearbyEntry) : Prop :=
  x.act = .setIdentity e identity.displayName identity.deviceType identity.os ∧ x.pre.get e ≠ none

/-- The step asks for a probe of the id at a time. -/
def Probes (e : String) (t : Nat) (x : NearbyEntry) : Prop :=
  ∃ paired, x.act = .observe e paired t ∧
    (x.out = [.outcome .probeNeeded] ∨ x.out = [.outcome .refreshNeeded])

/-- The last identity set since the id was inserted. -/
def LastIdentity (e : String) (identity : NearbyIdentity) (past : List NearbyEntry) : Prop :=
  Since (Identifies e identity) (fun x => Inserts e x ∨ ∃ other, Identifies e other x) past

/-- The row carries the identity. -/
def Carries (identity : NearbyIdentity) (row : NearbyRow) : Prop :=
  row.displayName = some identity.displayName ∧ row.deviceType = some identity.deviceType ∧
    row.os = identity.os

/-! ## One step -/

/-- What a step can do to an id. -/
inductive Effect (e : String) (x : NearbyEntry) : Prop
  | same (hget : x.post.get e = x.pre.get e) (hidentity : ∀ identity, ¬ Identifies e identity x)
      (hprobe : ∀ t, ¬ Probes e t x)
  | removed (hget : x.post.get e = none) (hidentity : ∀ identity, ¬ Identifies e identity x)
      (hprobe : ∀ t, ¬ Probes e t x)
  | refreshed (tracked : TrackedRow) (now : Nat) (hpre : x.pre.get e = some tracked)
      (hlate : tracked.lastProbeAt + nearbyIdentityRefreshMs ≤ now)
      (hget : x.post.get e = some { tracked with lastProbeAt := now })
      (hidentity : ∀ identity, ¬ Identifies e identity x) (hprobe : ∀ t, Probes e t x → t = now)
  | inserted (fingerprint : Text) (now : Nat) (hpre : x.pre.get e = none)
      (hfingerprint : shortFingerprint e.toList = some fingerprint)
      (hget : x.post.get e = some ⟨⟨⟨e, none, none, none, false⟩, fingerprint⟩, now⟩)
      (hidentity : ∀ identity, ¬ Identifies e identity x) (hprobe : ∀ t, Probes e t x → t = now)
  | identified (tracked : TrackedRow) (identity : NearbyIdentity)
      (hpre : x.pre.get e = some tracked)
      (hget : x.post.get e = some
        (NearbyRows.setRow identity.displayName identity.deviceType identity.os tracked))
      (hidentity : ∀ other, Identifies e other x ↔ other = identity)
      (hprobe : ∀ t, ¬ Probes e t x)

theorem observe_effect {pre post : NearbyRows} {endpointId : String} {peerIsPaired : Bool}
    {nowMs : Nat} {outcome : ObserveOutcome}
    (h : pre.observe endpointId peerIsPaired nowMs = (outcome, post)) (e : String) :
    Effect e ⟨pre, .observe endpointId peerIsPaired nowMs, post, [.outcome outcome]⟩ := by
  have hidentity : ∀ identity, ¬ Identifies e identity
      ⟨pre, .observe endpointId peerIsPaired nowMs, post, [.outcome outcome]⟩ :=
    fun identity hid => nomatch hid.1
  have hother : e ≠ endpointId → ∀ t, ¬ Probes e t
      ⟨pre, .observe endpointId peerIsPaired nowMs, post, [.outcome outcome]⟩ := by
    rintro hne t ⟨paired, hact, -⟩
    cases hact
    exact hne rfl
  have hnow : ∀ t, Probes e t
      ⟨pre, .observe endpointId peerIsPaired nowMs, post, [.outcome outcome]⟩ → t = nowMs := by
    rintro t ⟨paired, hact, -⟩
    cases hact
    rfl
  have hquiet : outcome ≠ .probeNeeded → outcome ≠ .refreshNeeded → ∀ t, ¬ Probes e t
      ⟨pre, .observe endpointId peerIsPaired nowMs, post, [.outcome outcome]⟩ := by
    rintro hprobe hrefresh t ⟨paired, -, hout | hout⟩
    · cases hout
      exact hprobe rfl
    · cases hout
      exact hrefresh rfl
  rw [NearbyRows.observe] at h
  split at h
  · cases h
    exact .same rfl hidentity (hquiet (by decide) (by decide))
  · rename_i fingerprint hfingerprint
    split at h
    · cases h
      by_cases he : e = endpointId
      · refine .removed ?_ hidentity (hquiet (by decide) (by decide))
        rw [SortedMap.get_erase, if_pos he]
      · refine .same ?_ hidentity (hother he)
        rw [SortedMap.get_erase, if_neg he]
    · split at h
      · rename_i tracked hget
        split at h
        · cases h
          exact .same rfl hidentity (hquiet (by decide) (by decide))
        · rename_i hlate
          cases h
          by_cases he : e = endpointId
          · subst he
            have hsum : tracked.lastProbeAt + nearbyIdentityRefreshMs ≤ nowMs := by
              rw [nearbyIdentityRefreshMs] at hlate ⊢
              omega
            refine .refreshed tracked nowMs hget hsum ?_ hidentity hnow
            rw [SortedMap.get_modify, if_pos rfl, hget]
            rfl
          · refine .same ?_ hidentity (hother he)
            rw [SortedMap.get_modify, if_neg he]
      · rename_i hget
        cases h
        by_cases he : e = endpointId
        · subst he
          refine .inserted fingerprint nowMs hget hfingerprint ?_ hidentity hnow
          rw [SortedMap.get_insert, if_pos rfl]
        · refine .same ?_ hidentity (hother he)
          rw [SortedMap.get_insert, if_neg he]

theorem setIdentity_effect {pre post : NearbyRows} {endpointId displayName deviceType : String}
    {os : Option String} {changed : Bool}
    (h : pre.setIdentity endpointId displayName deviceType os = (changed, post)) (e : String) :
    Effect e ⟨pre, .setIdentity endpointId displayName deviceType os, post, [.changed changed]⟩ := by
  have hprobe : ∀ t, ¬ Probes e t
      ⟨pre, .setIdentity endpointId displayName deviceType os, post, [.changed changed]⟩ := by
    rintro t ⟨paired, hact, -⟩
    cases hact
  rw [NearbyRows.setIdentity] at h
  split at h
  · rename_i hget
    cases h
    refine .same rfl (fun identity hid => ?_) hprobe
    obtain ⟨hact, hfound⟩ := hid
    cases hact
    exact hfound hget
  · rename_i tracked hget
    cases h
    by_cases he : e = endpointId
    · subst he
      refine .identified tracked ⟨displayName, deviceType, os⟩ hget ?_ (fun other => ?_) hprobe
      · rw [SortedMap.get_modify, if_pos rfl, hget]
        rfl
      · constructor
        · rintro ⟨hact, -⟩
          cases hact
          rfl
        · rintro rfl
          refine ⟨rfl, ?_⟩
          change pre.get e ≠ none
          rw [hget]
          exact Option.some_ne_none _
    · refine .same ?_ (fun identity hid => ?_) hprobe
      · rw [SortedMap.get_modify, if_neg he]
      · have hact := hid.1
        cases hact
        exact he rfl

theorem expire_effect {pre post : NearbyRows} {endpointId : String} {removed : Bool}
    (h : pre.expire endpointId = (removed, post)) (e : String) :
    Effect e ⟨pre, .expire endpointId, post, [.removed removed]⟩ := by
  have hidentity : ∀ identity, ¬ Identifies e identity
      ⟨pre, .expire endpointId, post, [.removed removed]⟩ := fun identity hid => nomatch hid.1
  have hprobe : ∀ t, ¬ Probes e t ⟨pre, .expire endpointId, post, [.removed removed]⟩ := by
    rintro t ⟨paired, hact, -⟩
    cases hact
  rw [NearbyRows.expire] at h
  cases h
  by_cases he : e = endpointId
  · refine .removed ?_ hidentity hprobe
    rw [SortedMap.get_erase, if_pos he]
  · refine .same ?_ hidentity hprobe
    rw [SortedMap.get_erase, if_neg he]

theorem step_effect {pre post : NearbyRows} {call : NearbyCall} {out : List NearbyAnswer}
    (h : nearbyMachine.step pre call = some (post, out)) (e : String) :
    Effect e ⟨pre, call, post, out⟩ := by
  cases call with
  | observe endpointId peerIsPaired nowMs =>
    obtain ⟨rfl, rfl⟩ := Prod.mk.inj (Option.some.inj h)
    exact observe_effect rfl e
  | setIdentity endpointId displayName deviceType os =>
    obtain ⟨rfl, rfl⟩ := Prod.mk.inj (Option.some.inj h)
    exact setIdentity_effect rfl e
  | expire endpointId =>
    obtain ⟨rfl, rfl⟩ := Prod.mk.inj (Option.some.inj h)
    exact expire_effect rfl e
  | clear =>
    obtain ⟨rfl, rfl⟩ := Prod.mk.inj (Option.some.inj h)
    refine .removed rfl (fun identity hid => nomatch hid.1) ?_
    rintro t ⟨paired, hact, -⟩
    cases hact

/-! ## The history of an id -/

/-- What the history of an id says about its row. -/
structure RowStory (e : String) (past : List NearbyEntry) (tracked : TrackedRow) : Prop where
  key : tracked.device.endpointId = e
  fingerprint : shortFingerprint e.toList = some tracked.device.fingerprint
  identified : tracked.device.identified = true ↔
    Since (fun x => ∃ identity, Identifies e identity x) (Inserts e) past
  carries : tracked.device.identified = true →
    ∃ identity, LastIdentity e identity past ∧ Carries identity tracked.device
  probed : ∀ t, Since (Probes e t) (Removes e) past → t ≤ tracked.lastProbeAt

def Story (e : String) (past : List NearbyEntry) : Option TrackedRow → Prop
  | some tracked => RowStory e past tracked
  | none => ∀ t, ¬ Since (Probes e t) (Removes e) past

theorem RowStory.same {e : String} {past : List NearbyEntry} {x : NearbyEntry}
    {tracked : TrackedRow} (h : RowStory e past tracked) (hpre : x.pre.get e = some tracked)
    (hidentity : ∀ identity, ¬ Identifies e identity x) (t : Nat)
    (hlater : tracked.lastProbeAt ≤ t) (hprobe : ∀ t', Probes e t' x → t' = t) :
    RowStory e (past ++ [x]) { tracked with lastProbeAt := t } := by
  have hinserts : ¬ Inserts e x := fun hins => by
    rw [Inserts, hpre] at hins
    cases hins.1
  have hnone : ¬ ∃ identity, Identifies e identity x := fun ⟨identity, hid⟩ => hidentity identity hid
  have hquiet : ¬ (Inserts e x ∨ ∃ other, Identifies e other x) := fun hor => hor.elim hinserts hnone
  refine ⟨h.key, h.fingerprint, ?_, ?_, ?_⟩
  · rw [Since.snoc_iff, or_iff_right hnone, and_iff_left hinserts]
    exact h.identified
  · intro hid
    obtain ⟨identity, hlast, hcarries⟩ := h.carries hid
    exact ⟨identity, hlast.snoc_keep hquiet, hcarries⟩
  · intro t' hsince
    rcases Since.snoc_iff.mp hsince with hnow | ⟨hpast, -⟩
    · exact (hprobe t' hnow).le
    · exact (h.probed t' hpast).trans hlater

theorem story_step {e : String} {past : List NearbyEntry} {x : NearbyEntry}
    (h : Story e past (x.pre.get e)) (heffect : Effect e x) :
    Story e (past ++ [x]) (x.post.get e) := by
  cases heffect with
  | same hget hidentity hprobe =>
    rw [hget]
    cases hpre : x.pre.get e with
    | none =>
      rw [hpre] at h
      intro t hsince
      rcases Since.snoc_iff.mp hsince with hnow | ⟨hpast, -⟩
      · exact hprobe t hnow
      · exact h t hpast
    | some tracked =>
      rw [hpre] at h
      exact RowStory.same h hpre hidentity tracked.lastProbeAt (le_refl _)
        fun t hnow => absurd hnow (hprobe t)
  | removed hget hidentity hprobe =>
    rw [hget]
    intro t hsince
    rcases Since.snoc_iff.mp hsince with hnow | ⟨hpast, hkept⟩
    · exact hprobe t hnow
    · cases hpre : x.pre.get e with
      | none =>
        rw [hpre] at h
        exact h t hpast
      | some tracked => exact hkept ⟨by rw [hpre]; exact Option.some_ne_none _, hget⟩
  | refreshed tracked now hpre hlate hget hidentity hprobe =>
    rw [hpre] at h
    rw [hget]
    exact RowStory.same h hpre hidentity now (le_trans (Nat.le_add_right _ _) hlate) hprobe
  | inserted fingerprint now hpre hfingerprint hget hidentity hprobe =>
    rw [hpre] at h
    rw [hget]
    have hinserts : Inserts e x := ⟨hpre, by rw [hget]; exact Option.some_ne_none _⟩
    refine ⟨rfl, hfingerprint, iff_of_false Bool.false_ne_true ?_, fun hid => (nomatch hid), ?_⟩
    · intro hsince
      rcases Since.snoc_iff.mp hsince with ⟨identity, hnow⟩ | ⟨-, hkept⟩
      · exact hidentity identity hnow
      · exact hkept hinserts
    · intro t hsince
      rcases Since.snoc_iff.mp hsince with hnow | ⟨hpast, -⟩
      · exact (hprobe t hnow).le
      · exact absurd hpast (h t)
  | identified tracked identity hpre hget hidentity hprobe =>
    rw [hpre] at h
    rw [hget]
    have hnow : Identifies e identity x := (hidentity identity).mpr rfl
    refine ⟨h.key, h.fingerprint, iff_of_true rfl (Since.snoc_now ⟨identity, hnow⟩),
      fun _ => ⟨identity, Since.snoc_now hnow, rfl, rfl, rfl⟩, ?_⟩
    intro t hsince
    rcases Since.snoc_iff.mp hsince with hnow | ⟨hpast, -⟩
    · exact absurd hnow (hprobe t)
    · exact h.probed t hpast

theorem story_run {tr : List NearbyEntry} {rows : NearbyRows}
    (hrun : Run nearbyMachine anyStep .new tr rows) : ∀ e, Story e tr (rows.get e) := by
  refine hrun.invariant (I := fun tr rows => ∀ e, Story e tr (rows.get e)) ?_ ?_
  · intro e t hsince
    exact Since.not_nil hsince
  · intro tr rows rows' call out hstory _ hstep e
    exact story_step (x := ⟨rows, call, rows', out⟩) (hstory e) (step_effect hstep e)

/-! ## Without fingerprints -/

/-- Every row is kept under its id. -/
def Keyed (rows : NearbyRows) : Prop := ∀ entry ∈ rows.entries, entry.2.device.endpointId = entry.1

theorem keyed_run {tr : List NearbyEntry} {rows : NearbyRows}
    (hrun : Run nearbyMachine anyStep .new tr rows) : Keyed rows := by
  rintro ⟨e, tracked⟩ hentry
  have hstory := story_run hrun e
  rw [SortedMap.get_eq_some.mpr hentry] at hstory
  exact hstory.key

namespace TrackedRow

/-- The row without its fingerprint. -/
def forget (t : TrackedRow) : TrackedDevice := ⟨t.device.toNearbyDevice, t.lastProbeAt⟩

end TrackedRow

namespace NearbyRows

/-- The registry of the node's model. -/
def forget (rows : NearbyRows) : NearbyRegistry := ⟨rows.entries.map fun entry => entry.2.forget⟩

theorem find_forget {rows : NearbyRows} (h : Keyed rows) (e : String) :
    rows.forget.find e = (rows.get e).map TrackedRow.forget := by
  obtain ⟨entries, hsorted⟩ := rows
  simp only [forget, NearbyRegistry.find, SortedMap.get]
  replace h : ∀ entry ∈ entries, entry.2.device.endpointId = entry.1 := h
  clear hsorted
  induction entries with
  | nil => rfl
  | cons head rest ih =>
    have hhead : head.2.device.endpointId = head.1 := h head List.mem_cons_self
    rw [List.map_cons, List.find?_cons, SortedMap.lookup_cons_if]
    by_cases he : e = head.1
    · have heq : (head.2.forget.device.endpointId == e) = true := beq_iff_eq.mpr (hhead.trans he.symm)
      rw [heq, if_pos he]
      rfl
    · have hne : (head.2.forget.device.endpointId == e) = false :=
        beq_eq_false_iff_ne.mpr fun heq => he (heq.symm.trans hhead)
      rw [hne, if_neg he]
      exact ih fun entry hentry => h entry (List.mem_cons_of_mem _ hentry)

theorem forget_erase {rows : NearbyRows} (h : Keyed rows) (e : String) :
    NearbyRows.forget (rows.erase e) = rows.forget.remove e := by
  rw [forget, forget, NearbyRegistry.remove, SortedMap.erase, List.filter_map]
  congr 2
  refine List.filter_congr fun entry hentry => ?_
  have hkey := h entry hentry
  rw [Function.comp_apply, TrackedRow.forget, hkey]

theorem forget_modify {rows : NearbyRows} (h : Keyed rows) (e : String)
    {f : TrackedRow → TrackedRow} {g : TrackedDevice → TrackedDevice}
    (hfg : ∀ t, (f t).forget = g t.forget) :
    NearbyRows.forget (rows.modify e f) = rows.forget.update e g := by
  rw [forget, forget, NearbyRegistry.update, SortedMap.modify, List.map_map, List.map_map]
  congr 1
  refine List.map_congr_left fun entry hentry => ?_
  have hkey : entry.2.forget.device.endpointId = entry.1 := h entry hentry
  rw [Function.comp_apply, Function.comp_apply, hkey]
  split
  · exact hfg entry.2
  · rfl

theorem forget_insert {rows : NearbyRows} (h : Keyed rows) {e : String} (hnone : rows.get e = none)
    {t : TrackedRow} (ht : t.device.endpointId = e) :
    NearbyRows.forget (rows.insert e t) =
      ⟨NearbyRegistry.insertSorted t.forget rows.forget.devices⟩ := by
  obtain ⟨entries, hsorted⟩ := rows
  simp only [forget, SortedMap.insert, SortedMap.get] at hnone ⊢
  replace h : ∀ entry ∈ entries, entry.2.device.endpointId = entry.1 := h
  clear hsorted
  congr 1
  induction entries with
  | nil => rfl
  | cons head rest ih =>
    have hhead : head.2.forget.device.endpointId = head.1 := h head List.mem_cons_self
    have hnew : t.forget.device.endpointId = e := ht
    rw [SortedMap.lookup_cons_if] at hnone
    split at hnone
    · cases hnone
    · rename_i hne
      have hrest := ih hnone fun entry hentry => h entry (List.mem_cons_of_mem _ hentry)
      rw [SortedMap.insertEntry, List.map_cons, NearbyRegistry.insertSorted, hhead, hnew, if_neg hne]
      split
      · rfl
      · rw [List.map_cons, hrest]

theorem forget_observe {rows : NearbyRows} (h : Keyed rows) (e : String) (paired : Bool)
    (now : Nat) : rows.forget.observe e paired now =
      ((rows.observe e paired now).1, (rows.observe e paired now).2.forget) := by
  rw [NearbyRegistry.observe, observe]
  cases hfingerprint : shortFingerprint e.toList with
  | none => rfl
  | some fingerprint =>
    cases paired with
    | true => exact Prod.ext rfl (forget_erase h e).symm
    | false =>
      rw [find_forget h]
      cases hget : rows.get e with
      | none =>
        exact Prod.ext rfl (forget_insert h (t := ⟨⟨⟨e, none, none, none, false⟩, fingerprint⟩, now⟩)
          hget rfl).symm
      | some tracked =>
        simp only [Option.map_some, TrackedRow.forget]
        by_cases hlate : now - tracked.lastProbeAt < nearbyIdentityRefreshMs
        · simp only [hlate, if_true]
          rfl
        · simp only [hlate, if_false]
          exact Prod.ext rfl (forget_modify h e fun t => rfl).symm

theorem forget_setIdentity {rows : NearbyRows} (h : Keyed rows) (e name type : String)
    (os : Option String) : rows.forget.setIdentity e name type os =
      ((rows.setIdentity e name type os).1, (rows.setIdentity e name type os).2.forget) := by
  rw [NearbyRegistry.setIdentity, setIdentity, find_forget h]
  cases hget : rows.get e with
  | none => rfl
  | some tracked => exact Prod.ext rfl (forget_modify h e fun t => rfl).symm

theorem forget_expire {rows : NearbyRows} (h : Keyed rows) (e : String) :
    rows.forget.expire e = ((rows.expire e).1, (rows.expire e).2.forget) := by
  rw [NearbyRegistry.expire, expire, find_forget h, Option.isSome_map]
  exact Prod.ext rfl (forget_erase h e).symm

end NearbyRows

/-- A call to the registry of the node's model. -/
def plainCall (registry : NearbyRegistry) : NearbyCall → List NearbyAnswer × NearbyRegistry
  | .observe endpointId peerIsPaired nowMs =>
    let (outcome, registry) := registry.observe endpointId peerIsPaired nowMs
    ([.outcome outcome], registry)
  | .setIdentity endpointId displayName deviceType os =>
    let (changed, registry) := registry.setIdentity endpointId displayName deviceType os
    ([.changed changed], registry)
  | .expire endpointId =>
    let (removed, registry) := registry.expire endpointId
    ([.removed removed], registry)
  | .clear => ([], .new)

theorem plainCall_step {rows rows' : NearbyRows} {call : NearbyCall} {out : List NearbyAnswer}
    (h : Keyed rows) (hstep : nearbyMachine.step rows call = some (rows', out)) :
    plainCall rows.forget call = (out, rows'.forget) := by
  cases call with
  | observe endpointId peerIsPaired nowMs =>
    obtain ⟨rfl, rfl⟩ := Prod.mk.inj (Option.some.inj hstep)
    rw [plainCall, NearbyRows.forget_observe h]
    rfl
  | setIdentity endpointId displayName deviceType os =>
    obtain ⟨rfl, rfl⟩ := Prod.mk.inj (Option.some.inj hstep)
    rw [plainCall, NearbyRows.forget_setIdentity h]
    rfl
  | expire endpointId =>
    obtain ⟨rfl, rfl⟩ := Prod.mk.inj (Option.some.inj hstep)
    rw [plainCall, NearbyRows.forget_expire h]
    rfl
  | clear =>
    obtain ⟨rfl, rfl⟩ := Prod.mk.inj (Option.some.inj hstep)
    rfl

/-- Over every run the two registries answer alike and end alike. -/
theorem plainCall_run {tr : List NearbyEntry} {rows : NearbyRows}
    (hrun : Run nearbyMachine anyStep .new tr rows) :
    rows.forget = (tr.map Entry.act).foldl (fun registry call => (plainCall registry call).2) .new ∧
    ∀ x ∈ tr, (plainCall x.pre.forget x.act).1 = x.out := by
  refine hrun.invariant_of_run (I := fun tr rows => rows.forget =
    (tr.map Entry.act).foldl (fun registry call => (plainCall registry call).2) .new ∧
    ∀ x ∈ tr, (plainCall x.pre.forget x.act).1 = x.out) ⟨rfl, fun x hx => nomatch hx⟩ ?_
  rintro tr rows rows' call out hprev ⟨hfold, hanswers⟩ - hstep
  have hplain := plainCall_step (keyed_run hprev) hstep
  constructor
  · rw [List.map_append, List.foldl_append, ← hfold, List.map_singleton, List.foldl_cons,
      List.foldl_nil, hplain]
  · intro x hx
    rcases List.mem_append.mp hx with hx | hx
    · exact hanswers x hx
    · rw [List.mem_singleton.mp hx, hplain]

/-! ## The list -/

namespace NearbyRows

def row (rows : NearbyRows) (e : String) : Option NearbyRow := (rows.get e).map (·.device)

theorem mem_list {rows : NearbyRows} {device : NearbyRow} (h : device ∈ rows.list) :
    ∃ e tracked, rows.get e = some tracked ∧ tracked.device = device := by
  obtain ⟨⟨e, tracked⟩, hentry, rfl⟩ := List.mem_map.mp h
  exact ⟨e, tracked, SortedMap.get_eq_some.mpr hentry, rfl⟩

theorem sorted_list {rows : NearbyRows} (h : Keyed rows) :
    rows.list.Pairwise fun a b => a.endpointId < b.endpointId := by
  rw [list, List.pairwise_map]
  refine rows.sorted.imp_of_mem fun {a b} ha hb hlt => ?_
  rw [h a ha, h b hb]
  exact hlt

theorem setIdentity_changed (rows : NearbyRows) (e name type : String) (os : Option String) :
    (rows.setIdentity e name type os).1 = true ↔
      (rows.setIdentity e name type os).2.row e ≠ rows.row e := by
  rw [setIdentity, row, row]
  cases hget : rows.get e with
  | none => simp [hget]
  | some tracked =>
    simp only [SortedMap.get_modify, if_true, hget, Option.map_some]
    rw [← not_iff_not, not_not, Bool.not_eq_true, Option.some.injEq]
    obtain ⟨⟨⟨id, displayName, deviceType, os', identified⟩, fingerprint⟩, lastProbeAt⟩ := tracked
    simp only [setRow, NearbyRow.mk.injEq, NearbyDevice.mk.injEq, Bool.or_eq_false_iff,
      Bool.not_eq_eq_eq_not, Bool.not_false, bne_eq_false_iff_eq, true_and, and_true]
    constructor
    · rintro ⟨⟨⟨hidentified, hname⟩, htype⟩, hos⟩
      exact ⟨hname.symm, htype.symm, hos.symm, hidentified.symm⟩
    · rintro ⟨hname, htype, hos, hidentified⟩
      exact ⟨⟨⟨hidentified.symm, hname.symm⟩, htype.symm⟩, hos.symm⟩

end NearbyRows

/-! ## Over runs -/

/-- Of two probes of an id without a removal between them, the later is not too early. -/
def ProbesSpaced (past : List NearbyEntry) (x : NearbyEntry) : Prop :=
  ∀ e earlier now, Probes e now x → Since (Probes e earlier) (Removes e) past →
    earlier + nearbyIdentityRefreshMs ≤ now

theorem probesSpaced_step {past : List NearbyEntry} {x : NearbyEntry}
    (hstory : ∀ e, Story e past (x.pre.get e)) (heffect : ∀ e, Effect e x) : ProbesSpaced past x := by
  intro e earlier now hnow hpast
  have hrow := hstory e
  cases heffect e with
  | same hget hidentity hprobe => exact absurd hnow (hprobe now)
  | removed hget hidentity hprobe => exact absurd hnow (hprobe now)
  | identified tracked identity hpre hget hidentity hprobe => exact absurd hnow (hprobe now)
  | refreshed tracked at_ hpre hlate hget hidentity hprobe =>
    rw [hpre] at hrow
    rw [hprobe now hnow]
    exact (Nat.add_le_add_right (hrow.probed earlier hpast) _).trans hlate
  | inserted fingerprint at_ hpre hfingerprint hget hidentity hprobe =>
    rw [hpre] at hrow
    exact absurd hpast (hrow earlier)

theorem probesSpaced_run {tr : List NearbyEntry} {rows : NearbyRows}
    (hrun : Run nearbyMachine anyStep .new tr rows) : Each ProbesSpaced tr := by
  refine hrun.invariant_of_run (I := fun tr _ => Each ProbesSpaced tr) Each.nil ?_
  intro tr rows rows' call out hprev heach _ hstep
  exact heach.snoc (probesSpaced_step (story_run hprev) (step_effect hstep))

/-- After every run: the rows listed have ids of 64 hex digits and their fingerprints, in the order of
the ids and no id twice; a row is identified if a `set_identity` found it since it was inserted, and
then carries the last one; `set_identity` answers whether it changed the row; and probes of an id are
as far apart as the refresh time, unless it was removed between them. -/
theorem nearby_registry_runs (tr : List NearbyEntry) (rows : NearbyRows)
    (hrun : Run nearbyMachine anyStep .new tr rows) :
    (∀ row ∈ rows.list, IsHexId (trimEnds isWhitespace row.endpointId.toList) ∧
      shortFingerprint row.endpointId.toList = some row.fingerprint) ∧
    (rows.list.Pairwise fun a b => a.endpointId < b.endpointId) ∧
    (∀ row ∈ rows.list,
      (row.identified = true ↔ Since (fun x => ∃ identity, Identifies row.endpointId identity x)
        (Inserts row.endpointId) tr) ∧
      (row.identified = true →
        ∃ identity, LastIdentity row.endpointId identity tr ∧ Carries identity row)) ∧
    (∀ x ∈ tr, ∀ e name type os, x.act = .setIdentity e name type os →
      ∃ changed, x.out = [.changed changed] ∧ (changed = true ↔ x.post.row e ≠ x.pre.row e)) ∧
    Each ProbesSpaced tr := by
  have hrows : ∀ row ∈ rows.list, ∃ tracked, tracked.device = row ∧
      RowStory row.endpointId tr tracked := by
    intro row hrow
    obtain ⟨e, tracked, hget, rfl⟩ := NearbyRows.mem_list hrow
    have hstory := story_run hrun e
    rw [hget] at hstory
    exact ⟨tracked, rfl, hstory.key ▸ hstory⟩
  refine ⟨fun row hrow => ?_, NearbyRows.sorted_list (keyed_run hrun), fun row hrow => ?_, ?_,
    probesSpaced_run hrun⟩
  · obtain ⟨tracked, rfl, hstory⟩ := hrows row hrow
    refine ⟨isSome_shortFingerprint.mp ?_, hstory.fingerprint⟩
    rw [hstory.fingerprint]
    rfl
  · obtain ⟨tracked, rfl, hstory⟩ := hrows row hrow
    exact ⟨hstory.identified, hstory.carries⟩
  · intro x hx e name type os hact
    obtain ⟨-, -, -, -, hstep⟩ := hrun.of_mem hx
    rw [hact] at hstep
    obtain ⟨hpost, hout⟩ := Prod.mk.inj (Option.some.inj hstep)
    refine ⟨_, hout.symm, ?_⟩
    rw [← hpost]
    exact NearbyRows.setIdentity_changed x.pre e name type os

/-- A device that is named, expires and is seen again is listed without its name. -/
theorem nearby_registry_runs_seenAgain :
    ∃ tr rows, Run nearbyMachine anyStep .new tr rows ∧
      (rows.list.map fun row => (row.identified, row.displayName)) = [(false, none)] ∧
      Each ProbesSpaced tr := by
  let e : String := String.ofList (List.replicate 64 'a')
  obtain ⟨tr, rows, hrun, htest⟩ := Run.of_check nearbyMachine anyStep .new
    [.observe e false 0, .setIdentity e "Alice" "phone" none, .observe e false 60000, .expire e,
      .observe e false 60001]
    (fun _ rows => decide ((rows.list.map fun row => (row.identified, row.displayName)) =
      [(false, none)])) (by decide +kernel)
  obtain ⟨-, -, -, -, hprobes⟩ := nearby_registry_runs tr rows hrun
  exact ⟨tr, rows, hrun, of_decide_eq_true htest, hprobes⟩

end DashBeam.Native

import Mathlib.Logic.Function.Basic
import DashBeam.Lib.Machine

/-!
# Machines that exchange messages

A `Net` is a machine for each of its parties, with the messages that their actions take off the wire
and their outputs put on it. Every other input of a party is its own choice, so a party of a net is
the party alone, restricted in what it can read. `Run.locally` is the rule the properties of a net
are proved with: what one party guarantees of the messages it sends, as long as the messages it reads
are of that kind, holds of all messages, and each party's part of a run is a run of that party.
-/

namespace Lib

structure Net (ι σ α ω μ : Type) where
  party : ι → Machine σ α ω
  /-- The message an action takes off the wire, if it takes one. -/
  takes : ι → σ → α → Option μ
  /-- The message an output puts on the wire, if it does. -/
  puts : ι → ω → Option μ

/-- The states of the parties, and the messages in flight. -/
structure World (ι σ μ : Type) where
  node : ι → σ
  wire : List μ

variable {ι σ α ω μ : Type} [DecidableEq ι] [DecidableEq μ]

/-- The wire once a message was taken off it. A message that is not there cannot be. -/
def takeOff (wire : List μ) : Option μ → Option (List μ)
  | none => some wire
  | some m => if m ∈ wire then some (wire.erase m) else none

theorem takeOff_some {wire wire' : List μ} {m : Option μ} (h : takeOff wire m = some wire') :
    (∀ x, m = some x → x ∈ wire) ∧ ∀ x ∈ wire', x ∈ wire := by
  cases m with
  | none =>
    obtain rfl := Option.some.inj h
    refine ⟨fun x hx => ?_, fun x hx => hx⟩
    cases hx
  | some m =>
    rw [takeOff] at h
    split at h
    · rename_i hmem
      obtain rfl := Option.some.inj h
      refine ⟨fun x hx => ?_, fun x hx => List.mem_of_mem_erase hx⟩
      obtain rfl := Option.some.inj hx
      exact hmem
    · cases h

namespace Net

variable (N : Net ι σ α ω μ)

def step (w : World ι σ μ) (a : ι × α) : Option (World ι σ μ × List ω) :=
  match takeOff w.wire (N.takes a.1 (w.node a.1) a.2), (N.party a.1).step (w.node a.1) a.2 with
  | some wire, some (s, out) =>
    some (⟨Function.update w.node a.1 s, wire ++ out.filterMap (N.puts a.1)⟩, out)
  | _, _ => none

def machine : Machine (World ι σ μ) (ι × α) ω := ⟨N.step⟩

variable {N}

theorem step_some {w w' : World ι σ μ} {i : ι} {a : α} {out : List ω}
    (h : N.step w (i, a) = some (w', out)) :
    ∃ wire s, takeOff w.wire (N.takes i (w.node i) a) = some wire ∧
      (N.party i).step (w.node i) a = some (s, out) ∧
      w' = ⟨Function.update w.node i s, wire ++ out.filterMap (N.puts i)⟩ := by
  unfold step at h
  split at h
  · rename_i wire s out' htake hstep
    obtain ⟨rfl, rfl⟩ := Prod.mk.inj (Option.some.inj h)
    exact ⟨wire, s, htake, hstep, rfl⟩
  · cases h

end Net

/-! ### What one party does -/

/-- The steps of one party in a run of the net. -/
def locally (i : ι) (tr : List (Entry (World ι σ μ) (ι × α) ω)) : List (Entry σ α ω) :=
  tr.filterMap fun e =>
    if e.act.1 = i then some ⟨e.pre.node i, e.act.2, e.post.node i, e.out⟩ else none

omit [DecidableEq μ] in
theorem locally_snoc (i : ι) (tr : List (Entry (World ι σ μ) (ι × α) ω))
    (e : Entry (World ι σ μ) (ι × α) ω) :
    locally i (tr ++ [e]) = locally i tr ++
      if e.act.1 = i then [⟨e.pre.node i, e.act.2, e.post.node i, e.out⟩] else [] := by
  unfold locally
  rw [List.filterMap_append]
  by_cases hi : e.act.1 = i
  · simp [hi]
  · simp [hi]

/-- Rely and guarantee: if a party's own guard is met as long as what it takes off the wire is `Q`,
and what it then puts there is `Q` again, then everything in flight is, and each party went through a
run that met its own guard. -/
theorem Run.locally {N : Net ι σ α ω μ} {ok : World ι σ μ → ι × α → Prop}
    (okOf : ι → σ → α → Prop) (Q : μ → Prop) {w₀ w : World ι σ μ}
    {tr : List (Entry (World ι σ μ) (ι × α) ω)}
    (hrely : ∀ w i a, ok w (i, a) → (∀ m, N.takes i (w.node i) a = some m → Q m) →
      okOf i (w.node i) a)
    (hguarantee : ∀ i tr s a s' out, Run (N.party i) (okOf i) (w₀.node i) tr s → okOf i s a →
      (N.party i).step s a = some (s', out) → ∀ o ∈ out, ∀ m, N.puts i o = some m → Q m)
    (hwire : ∀ m ∈ w₀.wire, Q m) (hrun : Run N.machine ok w₀ tr w) :
    (∀ m ∈ w.wire, Q m) ∧
      ∀ i, Run (N.party i) (okOf i) (w₀.node i) (Lib.locally i tr) (w.node i) := by
  refine hrun.invariant (I := fun tr w => (∀ m ∈ w.wire, Q m) ∧
    ∀ i, Run (N.party i) (okOf i) (w₀.node i) (Lib.locally i tr) (w.node i))
    ⟨hwire, fun i => .nil⟩ ?_
  intro tr w w' ⟨i, a⟩ out ⟨hQ, hlocal⟩ hok hs
  obtain ⟨wire, s, htake, hstep, rfl⟩ := Net.step_some hs
  obtain ⟨htaken, hleft⟩ := takeOff_some htake
  have hokOf : okOf i (w.node i) a := hrely w i a hok fun m hm => hQ m (htaken m hm)
  refine ⟨fun m hm => ?_, fun j => ?_⟩
  · rcases List.mem_append.mp hm with hm | hm
    · exact hQ m (hleft m hm)
    · obtain ⟨o, ho, hput⟩ := List.mem_filterMap.mp hm
      exact hguarantee i _ _ a s out (hlocal i) hokOf hstep o ho m hput
  · rw [locally_snoc]
    by_cases hij : i = j
    · subst hij
      simp only [if_pos, Function.update_self]
      exact .snoc (hlocal i) hokOf hstep
    · simp only [if_neg hij, List.append_nil, Function.update_of_ne (Ne.symm hij)]
      exact hlocal j

/-! ### Where messages come from -/

omit [DecidableEq μ] in
theorem mem_locally {i : ι} {tr : List (Entry (World ι σ μ) (ι × α) ω)} {d : Entry σ α ω} :
    d ∈ locally i tr ↔
      ∃ e ∈ tr, e.act.1 = i ∧ d = ⟨e.pre.node i, e.act.2, e.post.node i, e.out⟩ := by
  unfold locally
  rw [List.mem_filterMap]
  refine exists_congr fun e => and_congr_right fun _ => ?_
  split
  · rename_i hi
    rw [Option.some.injEq]
    exact ⟨fun h => ⟨hi, h.symm⟩, fun h => h.2.symm⟩
  · rename_i hi
    exact ⟨nofun, fun h => absurd h.1 hi⟩

omit [DecidableEq μ] in
theorem locally_subset {i : ι} {tr tr' : List (Entry (World ι σ μ) (ι × α) ω)} (h : tr <+: tr')
    {d : Entry σ α ω} (hd : d ∈ locally i tr) : d ∈ locally i tr' := by
  obtain ⟨e, he, hrest⟩ := mem_locally.mp hd
  exact mem_locally.mpr ⟨e, h.subset he, hrest⟩

theorem Run.party {N : Net ι σ α ω μ} {ok : World ι σ μ → ι × α → Prop} {w₀ w : World ι σ μ}
    {tr : List (Entry (World ι σ μ) (ι × α) ω)} (hrun : Run N.machine ok w₀ tr w) (i : ι) :
    Run (N.party i) anyStep (w₀.node i) (Lib.locally i tr) (w.node i) :=
  (hrun.locally (fun _ => anyStep) (fun _ => True) (fun _ _ _ _ _ => trivial)
    (fun _ _ _ _ _ _ _ _ _ _ _ _ _ => trivial) (fun _ _ => trivial)).2 i

theorem Run.sent_of_wire {N : Net ι σ α ω μ} {ok : World ι σ μ → ι × α → Prop} {w₀ w : World ι σ μ}
    {tr : List (Entry (World ι σ μ) (ι × α) ω)} (hrun : Run N.machine ok w₀ tr w) :
    ∀ m ∈ w.wire, m ∈ w₀.wire ∨ ∃ e ∈ tr, ∃ o ∈ e.out, N.puts e.act.1 o = some m := by
  refine hrun.invariant (I := fun tr w => ∀ m ∈ w.wire,
    m ∈ w₀.wire ∨ ∃ e ∈ tr, ∃ o ∈ e.out, N.puts e.act.1 o = some m) (fun m hm => .inl hm) ?_
  intro tr w w' ⟨i, a⟩ out hI _ hs m hm
  obtain ⟨wire, s, htake, hstep, rfl⟩ := Net.step_some hs
  rcases List.mem_append.mp hm with hm | hm
  · rcases hI m ((takeOff_some htake).2 m hm) with hstart | ⟨e, he, hsent⟩
    · exact .inl hstart
    · exact .inr ⟨e, List.mem_append_left _ he, hsent⟩
  · obtain ⟨o, ho, hput⟩ := List.mem_filterMap.mp hm
    exact .inr ⟨_, List.mem_append_right _ (List.mem_singleton_self _), o, ho, hput⟩

end Lib

import Mathlib.Logic.Function.Basic

/-!
# File operations that fail

A program is a list of steps on the files of one directory, and stops at the first step that fails. A
write that fails may leave anything under its name, the other steps leave everything as it was.

A file is replaced by writing the new content under a temporary name and renaming it. When a step of
that fails, every file but the temporary one is as before (`replace_failed`).
-/

namespace Lib

variable {Name Content : Type} [DecidableEq Name]

/-- A directory that may not exist yet, and the files in it. -/
structure FileDir (Name Content : Type) where
  present : Bool
  file : Name → Option Content
  nothing : present = false → ∀ name, file name = none

/-- How a step comes out. A write that fails leaves something or nothing under its name. -/
inductive StepOutcome (Content : Type)
  | works
  | fails (left : Option Content)
  deriving DecidableEq, Repr

inductive FileStep (Name Content : Type)
  | createDir
  | write (name : Name) (content : Content)
  | sync (name : Name)
  | setPermissions (name : Name)
  | rename (source target : Name)
  deriving DecidableEq, Repr

namespace FileDir

/-- Another content, or none, under a name. In a directory that does not exist nothing is put. -/
def set (d : FileDir Name Content) (name : Name) (content : Option Content) :
    FileDir Name Content where
  present := d.present
  file other := if d.present = true ∧ other = name then content else d.file other
  nothing := by
    intro h other
    rw [if_neg (by rw [h]; exact fun hboth => Bool.false_ne_true hboth.1)]
    exact d.nothing h other

theorem file_set_self {d : FileDir Name Content} (h : d.present = true) (name : Name)
    (content : Option Content) : (d.set name content).file name = content := if_pos ⟨h, rfl⟩

theorem file_set_ne (d : FileDir Name Content) {name other : Name} (h : other ≠ name)
    (content : Option Content) : (d.set name content).file other = d.file other :=
  if_neg fun hboth => h hboth.2

omit [DecidableEq Name] in
theorem present_of_file {d : FileDir Name Content} {name : Name} {content : Content}
    (h : d.file name = some content) : d.present = true := by
  cases hpresent : d.present with
  | true => rfl
  | false =>
    rw [d.nothing hpresent name] at h
    cases h

end FileDir

namespace FileStep

def touches : FileStep Name Content → Name → Prop
  | .write name _, other => other = name
  | .rename source target, other => other = source ∨ other = target
  | _, _ => False

def neutral : FileStep Name Content → Bool
  | .sync _ => true
  | .setPermissions _ => true
  | _ => false

omit [DecidableEq Name] in
theorem not_touches_of_neutral {step : FileStep Name Content} (h : step.neutral = true) (name : Name) :
    ¬ step.touches name := by
  cases step <;> first | exact id | cases h

/-- One step: whether it works, and the directory after it. Creating a directory that exists works. -/
def run (outcome : StepOutcome Content) (d : FileDir Name Content) :
    FileStep Name Content → Bool × FileDir Name Content
  | .createDir =>
    match d.present, outcome with
    | true, _ => (true, d)
    | false, .works => (true, ⟨true, d.file, nofun⟩)
    | false, .fails _ => (false, d)
  | .write name content =>
    match outcome with
    | .works => (d.present, d.set name (some content))
    | .fails left => (false, d.set name left)
  | .sync _ => (outcome matches .works, d)
  | .setPermissions _ => (outcome matches .works, d)
  | .rename source target =>
    match outcome, d.file source with
    | .works, some content => (true, (d.set source none).set target (some content))
    | _, _ => (false, d)

theorem run_untouched {step : FileStep Name Content} {name : Name} (h : ¬ step.touches name)
    (outcome : StepOutcome Content) (d : FileDir Name Content) :
    (step.run outcome d).2.file name = d.file name := by
  cases step with
  | createDir =>
    unfold run
    dsimp only
    split <;> rfl
  | write written content =>
    cases outcome with
    | works => exact d.file_set_ne h _
    | fails left => exact d.file_set_ne h _
  | sync name => rfl
  | setPermissions name => rfl
  | rename source target =>
    obtain ⟨hsource, htarget⟩ := not_or.mp h
    unfold run
    dsimp only
    split
    · rw [FileDir.file_set_ne _ htarget, FileDir.file_set_ne _ hsource]
    · rfl

theorem run_of_neutral {step : FileStep Name Content} (h : step.neutral = true)
    (outcome : StepOutcome Content) (d : FileDir Name Content) :
    (step.run outcome d).2 = d ∧ ((step.run outcome d).1 = true ↔ outcome = .works) := by
  have hworks : (outcome matches .works) = true ↔ outcome = .works := by cases outcome <;> simp
  cases step <;> first | exact ⟨rfl, hworks⟩ | cases h

theorem createDir_worked_iff {outcome : StepOutcome Content} {d : FileDir Name Content} :
    (FileStep.run outcome d .createDir).1 = true ↔ d.present = true ∨ outcome = .works := by
  unfold run
  dsimp only
  cases d.present <;> cases outcome <;> simp

theorem createDir_present {outcome : StepOutcome Content} {d : FileDir Name Content}
    (h : (FileStep.run outcome d .createDir).1 = true) :
    (FileStep.run outcome d .createDir).2.present = true := by
  unfold run at h ⊢
  dsimp only at h ⊢
  cases hpresent : d.present with
  | true => exact hpresent
  | false =>
    rw [hpresent] at h
    cases outcome with
    | works => rfl
    | fails left => cases h

theorem write_worked_iff {name : Name} {content : Content} {outcome : StepOutcome Content}
    {d : FileDir Name Content} (hpresent : d.present = true) :
    (FileStep.run outcome d (.write name content)).1 = true ↔ outcome = .works := by
  cases outcome <;> simp [run, hpresent]

theorem rename_worked_iff {source target : Name} {content : Content}
    {outcome : StepOutcome Content} {d : FileDir Name Content} (h : d.file source = some content) :
    (FileStep.run outcome d (.rename source target)).1 = true ↔ outcome = .works := by
  cases outcome <;> simp [run, h]

theorem rename_failed {source target : Name} {outcome : StepOutcome Content}
    {d : FileDir Name Content} (h : (FileStep.run outcome d (.rename source target)).1 = false) :
    (FileStep.run outcome d (.rename source target)).2 = d := by
  unfold run at h ⊢
  dsimp only at h ⊢
  split at h
  · cases h
  · rfl

theorem rename_worked {source target : Name} {outcome : StepOutcome Content}
    {d : FileDir Name Content} (h : (FileStep.run outcome d (.rename source target)).1 = true) :
    ∃ content, d.file source = some content ∧ (FileStep.run outcome d (.rename source target)).2 =
      (d.set source none).set target (some content) := by
  unfold run at h ⊢
  dsimp only at h ⊢
  split at h
  · rename_i content hcontent
    exact ⟨content, hcontent, rfl⟩
  · cases h

theorem write_worked {name : Name} {content : Content} {outcome : StepOutcome Content}
    {d : FileDir Name Content} (h : (FileStep.run outcome d (.write name content)).1 = true) :
    (FileStep.run outcome d (.write name content)).2.file name = some content := by
  cases outcome with
  | works => exact FileDir.file_set_self h name _
  | fails left => cases h

end FileStep

def runSteps : (Nat → StepOutcome Content) → List (FileStep Name Content) → FileDir Name Content →
    Bool × FileDir Name Content
  | _, [], d => (true, d)
  | outcomes, step :: rest, d =>
    match step.run (outcomes 0) d with
    | (true, d') => runSteps (fun n => outcomes (n + 1)) rest d'
    | (false, d') => (false, d')

theorem runSteps_append (outcomes : Nat → StepOutcome Content)
    (front back : List (FileStep Name Content)) (d : FileDir Name Content) :
    runSteps outcomes (front ++ back) d =
      if (runSteps outcomes front d).1 then
        runSteps (fun n => outcomes (n + front.length)) back (runSteps outcomes front d).2
      else runSteps outcomes front d := by
  induction front generalizing outcomes d with
  | nil => rfl
  | cons step front ih =>
    rw [List.cons_append, runSteps, runSteps]
    rcases step.run (outcomes 0) d with ⟨_ | _, d'⟩
    · rfl
    · dsimp only
      rw [ih]
      simp only [List.length_cons, Nat.add_assoc]

theorem runSteps_untouched {steps : List (FileStep Name Content)} {name : Name}
    (h : ∀ step ∈ steps, ¬ step.touches name) (outcomes : Nat → StepOutcome Content)
    (d : FileDir Name Content) : (runSteps outcomes steps d).2.file name = d.file name := by
  induction steps generalizing outcomes d with
  | nil => rfl
  | cons step rest ih =>
    rw [List.forall_mem_cons] at h
    have hstep := FileStep.run_untouched h.1 (outcomes 0) d
    rw [runSteps]
    rcases hrun : step.run (outcomes 0) d with ⟨_ | _, d'⟩
    · rw [hrun] at hstep
      exact hstep
    · rw [hrun] at hstep
      exact (ih h.2 _ d').trans hstep

theorem runSteps_cons_worked {outcomes : Nat → StepOutcome Content} {step : FileStep Name Content}
    {rest : List (FileStep Name Content)} {d : FileDir Name Content}
    (h : (runSteps outcomes (step :: rest) d).1 = true) :
    (step.run (outcomes 0) d).1 = true ∧ runSteps outcomes (step :: rest) d =
      runSteps (fun n => outcomes (n + 1)) rest (step.run (outcomes 0) d).2 := by
  rw [runSteps] at h ⊢
  rcases hrun : step.run (outcomes 0) d with ⟨_ | _, d'⟩
  · rw [hrun] at h
    cases h
  · exact ⟨rfl, rfl⟩

theorem runSteps_cons_iff {outcomes : Nat → StepOutcome Content} {step : FileStep Name Content}
    {rest : List (FileStep Name Content)} {d : FileDir Name Content} :
    (runSteps outcomes (step :: rest) d).1 = true ↔ (step.run (outcomes 0) d).1 = true ∧
      (runSteps (fun n => outcomes (n + 1)) rest (step.run (outcomes 0) d).2).1 = true := by
  rw [runSteps]
  rcases step.run (outcomes 0) d with ⟨_ | _, d'⟩ <;> simp

theorem runSteps_neutral {steps : List (FileStep Name Content)} (h : ∀ step ∈ steps, step.neutral = true)
    (outcomes : Nat → StepOutcome Content) (d : FileDir Name Content) :
    (runSteps outcomes steps d).1 = true ↔ ∀ n < steps.length, outcomes n = .works := by
  induction steps generalizing outcomes with
  | nil => simp [runSteps]
  | cons step rest ih =>
    rw [List.forall_mem_cons] at h
    obtain ⟨hsame, hworks⟩ := FileStep.run_of_neutral h.1 (outcomes 0) d
    rw [runSteps_cons_iff, hworks, hsame, ih h.2, List.length_cons, Nat.forall_lt_succ_left]

/-! ## Replacing a file -/

def prepareSteps (temporary : Name) (content : Content) (between : List (FileStep Name Content)) :
    List (FileStep Name Content) :=
  .createDir :: .write temporary content :: between

def replaceSteps (temporary target : Name) (content : Content)
    (between : List (FileStep Name Content)) : List (FileStep Name Content) :=
  prepareSteps temporary content between ++ [.rename temporary target]

section Replace

variable {temporary target : Name} {content : Content} {between : List (FileStep Name Content)}
  {outcomes : Nat → StepOutcome Content} {d : FileDir Name Content}

theorem prepare_untouched (hbetween : ∀ step ∈ between, step.neutral = true) {name : Name}
    (hname : name ≠ temporary) :
    (runSteps outcomes (prepareSteps temporary content between) d).2.file name = d.file name := by
  apply runSteps_untouched
  rw [prepareSteps, List.forall_mem_cons, List.forall_mem_cons]
  exact ⟨id, hname, fun step hstep => FileStep.not_touches_of_neutral (hbetween step hstep) name⟩

theorem prepare_temporary (hbetween : ∀ step ∈ between, step.neutral = true)
    (h : (runSteps outcomes (prepareSteps temporary content between) d).1 = true) :
    (runSteps outcomes (prepareSteps temporary content between) d).2.file temporary =
      some content := by
  rw [prepareSteps] at h ⊢
  obtain ⟨-, hmade⟩ := runSteps_cons_worked h
  rw [hmade] at h ⊢
  obtain ⟨hwrote, hwritten⟩ := runSteps_cons_worked h
  rw [hwritten, runSteps_untouched fun step hstep =>
    FileStep.not_touches_of_neutral (hbetween step hstep) temporary]
  exact FileStep.write_worked hwrote

theorem rename_alone_failed {source target : Name}
    (h : (runSteps outcomes [.rename source target] d).1 = false) :
    (runSteps outcomes [.rename source target] d).2 = d := by
  rw [runSteps] at h ⊢
  rcases hrun : FileStep.run (outcomes 0) d (.rename source target) with ⟨_ | _, after⟩
  · have hsame := FileStep.rename_failed (congrArg Prod.fst hrun)
    rw [hrun] at hsame
    exact hsame
  · rw [hrun] at h
    cases h

theorem replace_failed (hbetween : ∀ step ∈ between, step.neutral = true)
    (h : (runSteps outcomes (replaceSteps temporary target content between) d).1 = false)
    {name : Name} (hname : name ≠ temporary) :
    (runSteps outcomes (replaceSteps temporary target content between) d).2.file name =
      d.file name := by
  have hfront : (runSteps outcomes (prepareSteps temporary content between) d).2.file name =
      d.file name := prepare_untouched hbetween hname
  rw [replaceSteps, runSteps_append] at h ⊢
  split at h
  · rename_i hprepared
    rw [if_pos hprepared, rename_alone_failed h, hfront]
  · rename_i hprepared
    rw [if_neg hprepared]
    exact hfront

theorem replace_done (hbetween : ∀ step ∈ between, step.neutral = true)
    (h : (runSteps outcomes (replaceSteps temporary target content between) d).1 = true) :
    (runSteps outcomes (replaceSteps temporary target content between) d).2.file target =
        some content ∧
      ∀ name, name ≠ temporary → name ≠ target →
        (runSteps outcomes (replaceSteps temporary target content between) d).2.file name =
          d.file name := by
  rw [replaceSteps, runSteps_append] at h ⊢
  split at h
  · rename_i hprepared
    have htemporary := prepare_temporary hbetween hprepared
    have hpresent := FileDir.present_of_file htemporary
    obtain ⟨hrenamed, hafter⟩ := runSteps_cons_worked h
    obtain ⟨moved, hmoved, hset⟩ := FileStep.rename_worked hrenamed
    obtain rfl : content = moved := Option.some.inj (htemporary.symm.trans hmoved)
    rw [if_pos hprepared, hafter, runSteps, hset]
    refine ⟨FileDir.file_set_self (d := FileDir.set _ temporary none) hpresent target _, ?_⟩
    intro name hname hne
    rw [FileDir.file_set_ne _ hne, FileDir.file_set_ne _ hname, prepare_untouched hbetween hname]
  · rename_i hprepared
    exact absurd h hprepared

theorem replace_file (hbetween : ∀ step ∈ between, step.neutral = true) {name : Name}
    (hname : name ≠ temporary) :
    (runSteps outcomes (replaceSteps temporary target content between) d).2.file name =
      if (runSteps outcomes (replaceSteps temporary target content between) d).1 = true ∧
        name = target then some content else d.file name := by
  cases h : (runSteps outcomes (replaceSteps temporary target content between) d).1 with
  | false => rw [replace_failed hbetween h hname, if_neg (by simp)]
  | true =>
    obtain ⟨htarget, hothers⟩ := replace_done hbetween h
    by_cases heq : name = target
    · rw [if_pos ⟨rfl, heq⟩, heq, htarget]
    · rw [if_neg (fun hboth => heq hboth.2), hothers name hname heq]

/-- A replacement works when its steps do; only the directory need not be created. -/
theorem replace_worked_iff (hbetween : ∀ step ∈ between, step.neutral = true) :
    (runSteps outcomes (replaceSteps temporary target content between) d).1 = true ↔
      (d.present = true ∨ outcomes 0 = .works) ∧
        ∀ n, 0 < n → n < between.length + 3 → outcomes n = .works := by
  have hsplit : (runSteps outcomes (replaceSteps temporary target content between) d).1 = true ↔
      (runSteps outcomes (prepareSteps temporary content between) d).1 = true ∧
        outcomes (between.length + 2) = .works := by
    rw [replaceSteps, runSteps_append]
    split
    · rename_i hprepared
      have hlength : (prepareSteps temporary content between).length = between.length + 2 := rfl
      rw [runSteps_cons_iff, FileStep.rename_worked_iff (prepare_temporary hbetween hprepared),
        hlength, Nat.zero_add]
      exact ⟨fun h => ⟨hprepared, h.1⟩, fun h => ⟨h.2, rfl⟩⟩
    · rename_i hprepared
      exact ⟨fun h => absurd h hprepared, fun h => absurd h.1 hprepared⟩
  have hprepare : (runSteps outcomes (prepareSteps temporary content between) d).1 = true ↔
      (d.present = true ∨ outcomes 0 = .works) ∧ outcomes 1 = .works ∧
        ∀ n < between.length, outcomes (n + 2) = .works := by
    rw [prepareSteps, runSteps_cons_iff, ← FileStep.createDir_worked_iff]
    refine and_congr_right fun hmade => ?_
    rw [runSteps_cons_iff, FileStep.write_worked_iff (FileStep.createDir_present hmade),
      runSteps_neutral hbetween]
  rw [hsplit, hprepare]
  constructor
  · rintro ⟨⟨hdir, hwrite, hneutral⟩, hrename⟩
    refine ⟨hdir, fun n hpos hlt => ?_⟩
    rcases Nat.lt_or_ge n 2 with hone | htwo
    · obtain rfl : n = 1 := by omega
      exact hwrite
    · rcases Nat.lt_or_ge n (between.length + 2) with hmid | hlast
      · have hn := hneutral (n - 2) (by omega)
        rwa [Nat.sub_add_cancel htwo] at hn
      · obtain rfl : n = between.length + 2 := by omega
        exact hrename
  · rintro ⟨hdir, hall⟩
    exact ⟨⟨hdir, hall 1 (by omega) (by omega), fun n hn => hall (n + 2) (by omega) (by omega)⟩,
      hall _ (by omega) (by omega)⟩

end Replace

end Lib

import Runbook.Proofs.Program.Loader
import Runbook.Proofs.Run.Caller
import Runbook.Proofs.Run.Lookups

set_option autoImplicit false

/-!
The directories of programs. A program that was read from a file has the directory of the file, one
whose rows are registered has the directory of the program that started it. So the directory that a
step hands on with a reference is that of the nearest file around it. Only a program that an action
makes up has the directory that it was given.
-/
namespace Runbook.Run

abbrev resolvedRecord (r : Runner) (record : Record) (st : RunState) : Record :=
  (record.resolve r.params st.session.vars).1

@[simp] theorem files_resolvedState (r : Runner) (record : Record) (st : RunState) :
    (resolvedState r record st).files = st.files :=
  rfl

/-- The entries that opened what is open after this one, the innermost first. -/
def LogEntry.pending (e : LogEntry) (stack : List LogEntry) : List LogEntry :=
  match e.what with
  | .entered _ => e :: stack
  | .began _ => e :: stack
  | .interrupted _ => stack
  | .ended _ _ => stack.tail
  | .left _ => stack.tail

def pending (stack : List LogEntry) (l : Log) : List LogEntry :=
  l.foldl (fun stack e => e.pending stack) stack

private theorem PartLog.pending_eq {part : Part} {l : Log} (h : PartLog part l)
    (stack : List LogEntry) :
    pending stack l = stack :=
  h.foldl_eq ⟨fun _ _ => ⟨_, fun _ => rfl⟩, fun _ _ => ⟨_, fun _ => rfl⟩, fun _ _ _ => rfl,
    fun _ _ _ _ => rfl, fun _ _ _ => rfl⟩ stack

def startedProgram (r : Runner) (record : Record) (st : RunState) (l : Loaded) : Program :=
  .childOf (resolvedRecord r record st) l.name l.rows l.dir

/-- What is open in a run up to the innermost program, each program started by a step of the next
one. -/
inductive Encloses (r : Runner) (p : Program) : List LogEntry → Program → Prop
  | outermost (st : RunState) : Encloses r p [⟨.entered p, st⟩] p
  | nested {stack : List LogEntry} {q : Program} {record : Record} {st : RunState} {l : Loaded}
      (st' : RunState) : Encloses r p stack q → r.runsPrograms record.action = true →
        Loader.LeadsTo ⟨r.inline, st.files⟩ (resolvedRecord r record st).reference q.baseDir l →
          Encloses r p (⟨.entered (startedProgram r record st l), st'⟩ :: ⟨.began record, st⟩ :: stack)
            (startedProgram r record st l)
  | made {stack : List LogEntry} {q : Program} {record : Record} {a : Action} {st : RunState}
      (child : Program) (st' : RunState) : Encloses r p stack q →
        r.registry.find? record.action = some a → a.hosts = true →
          Encloses r p (⟨.entered child, st'⟩ :: ⟨.began record, st⟩ :: stack) child

def innermost? (stack : List LogEntry) : Option Program :=
  stack.findSome? LogEntry.entered?

/-- The files that the open programs were read from, the innermost first, up to a program that an
action made up. -/
def openFiles (r : Runner) : List LogEntry → List String
  | [] => []
  | e :: stack =>
    match e.what with
    | .began record =>
      if r.runsPrograms record.action then
        let file := Loader.file? ⟨r.inline, e.state.files⟩ (resolvedRecord r record e.state).reference
          ((innermost? stack).bind (·.baseDir))
        (file.map (·.1)).toList ++ openFiles r stack
      else []
    | _ => openFiles r stack

/-- The directory of the nearest program that no reference led to: one that an action made up, or
the outermost. -/
def rootDir (r : Runner) : List LogEntry → Option String
  | [] => none
  | e :: stack =>
    match e.what with
    | .entered q =>
      if (stack.head?.bind LogEntry.begun?).any fun record => r.runsPrograms record.action then
        rootDir r stack
      else q.baseDir
    | _ => rootDir r stack

/-- The directory of the first file, or another one if there is no file. -/
def nearestDir (base : Option String) (files : List String) : Option String :=
  match files.head? with
  | some path => Path.parent? path
  | none => base

section Enclosing

variable {r : Runner} {p q : Program} {stack : List LogEntry}

private theorem Encloses.innermost (h : Encloses r p stack q) : innermost? stack = some q := by
  cases h with
  | outermost st => rfl
  | nested st' _ _ _ => rfl
  | made child st' _ _ _ => rfl

private theorem Encloses.baseDir_eq (h : Encloses r p stack q) :
    q.baseDir = nearestDir (rootDir r stack) (openFiles r stack) := by
  induction h with
  | outermost st => rfl
  | @nested stack q record st l st' around runs leads ih =>
    have root : rootDir r (⟨.entered (startedProgram r record st l), st'⟩ :: ⟨.began record, st⟩ ::
        stack) = rootDir r stack := if_pos runs
    change l.dir = nearestDir _ (openFiles r (⟨.began record, st⟩ :: stack))
    rw [root]
    simp only [openFiles, runs, if_true, around.innermost, Option.bind_some]
    cases leads with
    | file path format dir file _ parent same =>
      rw [file, same, ← parent]
      rfl
    | registered name none _ same =>
      rw [none, same, ih]
      rfl
  | @made stack q record a st child st' _ found made _ =>
    have plain := Runner.runsPrograms_of_hosts found made
    have root : rootDir r (⟨.entered child, st'⟩ :: ⟨.began record, st⟩ :: stack) = child.baseDir :=
      if_neg (Bool.eq_false_iff.1 plain)
    have files : openFiles r (⟨.entered child, st'⟩ :: ⟨.began record, st⟩ :: stack) = [] :=
      if_neg (Bool.eq_false_iff.1 plain)
    rw [root, files]
    rfl

private theorem Encloses.rootDir_eq (h : Encloses r p stack q)
    (single : ∀ e ∈ stack, ∀ record ∈ e.begun?, Single r record.action) :
    rootDir r stack = p.baseDir := by
  induction h with
  | outermost st => rfl
  | nested st' _ runs _ ih =>
    refine (if_pos runs).trans (ih fun e member => single e ?_)
    exact List.mem_cons_of_mem _ (List.mem_cons_of_mem _ member)
  | made child st' _ found made _ =>
    have absurd := single _ (List.mem_cons_of_mem _ List.mem_cons_self) _ rfl _ found
    rw [made] at absurd
    cases absurd

end Enclosing

section Referring

variable {r : Runner} {files : FileTree} {record : Record} {dir : Option String}

theorem nestedProgram_eq (refers : record.reference ≠ "")
    (shallow : record.position.level < r.config.maxDepth) :
    nestedProgram r files record dir =
      ((Loader.resolve ⟨r.inline, files⟩ record.reference dir).map fun l =>
        .childOf record l.name l.rows l.dir).mapError fun e =>
          .invalidParam referenceName e.message := by
  unfold Record.reference at refers ⊢
  simp only [nestedProgram, if_neg refers, if_neg (Nat.not_lt.2 shallow)]
  cases Loader.resolve ⟨r.inline, files⟩ _ dir with
  | ok l => rfl
  | error e => rfl

private theorem resolve_of_nestedProgram {child : Program}
    (h : nestedProgram r files record dir = .ok child) :
    ∃ l, Loader.resolve ⟨r.inline, files⟩ record.reference dir = .ok l ∧
      child = .childOf record l.name l.rows l.dir := by
  simp only [nestedProgram] at h
  split at h
  · cases h
  split at h
  · cases h
  split at h
  · next l found => exact ⟨l, found, (Except.ok.inj h).symm⟩
  · cases h

end Referring

variable {r : Runner} {p : Program}

/-- What follows in a log on the beginning of a step when the step is carried out in a program of
that directory. -/
def CarriedFrom (r : Runner) (dir : Option String) (record : Record) (st : RunState)
    (post : Log) : Prop :=
  record.row.isEmpty = false ∧
    let e := attempt r (below r) record dir st
    ∃ rest, post = e.log ++ ⟨.ended e.record e.directive, closed r record.row e⟩ :: rest

/-- Every step of a log is carried out from the directory of the innermost program around it. -/
def Housed (r : Runner) (p : Program) : List LogEntry → Log → Prop
  | _, [] => True
  | stack, e :: l =>
    (∀ record, e.what = .began record →
      ∃ q, Encloses r p stack q ∧ CarriedFrom r q.baseDir record e.state l) ∧
    Housed r p (e.pending stack) l

namespace Housed

private theorem append {stack : List LogEntry} {l l' : Log} (h : Housed r p stack l)
    (h' : Housed r p (pending stack l) l') : Housed r p stack (l ++ l') := by
  induction l generalizing stack with
  | nil => exact h'
  | cons e l ih =>
    refine ⟨?_, ih h.2 h'⟩
    intro record began
    obtain ⟨q, around, counted, rest, follows⟩ := h.1 record began
    refine ⟨q, around, counted, rest ++ l', ?_⟩
    rw [follows]
    exact List.append_assoc _ _ _

private theorem cons {stack : List LogEntry} {e : LogEntry} {l : Log}
    (other : ∀ record, e.what ≠ .began record) (h : Housed r p (e.pending stack) l) :
    Housed r p stack (e :: l) :=
  ⟨fun record began => absurd began (other record), h⟩

private theorem of_begun {stack : List LogEntry} {pre post : Log} {record : Record} {st : RunState}
    (h : Housed r p stack (pre ++ ⟨.began record, st⟩ :: post)) :
    ∃ q, Encloses r p (pending stack pre) q ∧ CarriedFrom r q.baseDir record st post := by
  induction pre generalizing stack with
  | nil => exact h.1 record rfl
  | cons e pre ih => exact ih h.2

end Housed

abbrev Houses (r : Runner) (p : Program) (q : Program) (st : RunState) (f : FrameRun) :
    Prop :=
  ∀ stack, Encloses r p (⟨.entered q, st⟩ :: stack) q → Housed r p stack f.log

private theorem step_housed {q : Program} {stack : List LogEntry} (around : Encloses r p stack q)
    (nested : OfNested r (Houses r p) q) (seq : Nat) (row : Row)
    (counted : row.isEmpty = false) (skips : Nat) (st : RunState) :
    Housed r p stack (step r (below r) q seq row skips st).log := by
  have placed := begunRecord_placed q seq row skips (opened r row st)
  simp only [step, finished]
  generalize begunRecord q seq row skips (opened r row st) = record at placed ⊢
  generalize opened r row st = begun at placed ⊢
  have resolved := (Record.Continues.resolve record r.params
    begun.session.vars).position.trans placed.position
  have inner : Housed r p (⟨.began record, begun⟩ :: stack)
      (attempt r (below r) record q.baseDir begun).log := by
    by_cases single : Single r record.action
    · rcases attempt_starts r (below r) record q.baseDir begun single with
        ⟨log, -⟩ | ⟨run, child, -, starts, log, -⟩
      · rw [log]
        exact trivial
      · obtain rfl := Option.some.inj starts.deeper
        obtain ⟨level, level_le, -⟩ := nestedProgram_ok starts.child
        rw [resolved] at level
        obtain ⟨l, found, same⟩ := resolve_of_nestedProgram starts.child
        have same : child = startedProgram r record begun l := same
        rw [files_resolvedState] at found
        obtain ⟨a, named, body⟩ := starts.action
        rw [Record.action, (Record.Continues.resolve record _ _).row] at named
        rw [log]
        refine nested child level level_le _ _ ?_
        rw [same]
        exact .nested _ around (Runner.runsPrograms_of_found named body)
          (Loader.leadsTo_of_resolve found)
    · -- Whatever programs the action makes up, each is housed, and nothing is left open between them.
      simp only [Single, not_forall, Bool.not_eq_false] at single
      obtain ⟨a, found, made⟩ := single
      have descends := attempt_descends r (below r) record q.baseDir begun
      refine (descends.fold (R := fun _ l _ => Housed r p (⟨.began record, begun⟩ :: stack) l ∧
        ∀ stack, pending stack l = stack) (fun _ => ⟨trivial, fun _ => rfl⟩) ?_ ?_).1
      · rintro _ _ _ l l' ⟨housed, closed⟩ ⟨housed', closed'⟩
        refine ⟨housed.append ?_, fun stack => ?_⟩
        · rw [closed]
          exact housed'
        · rw [pending, List.foldl_append]
          exact (congrArg (pending · l') (closed stack)).trans (closed' stack)
      · rintro run ⟨⟩ child under start
        have level := under.level
        rw [placed.position] at level
        exact ⟨nested child level under.level_le start _ (.made child start around found made),
          (runFrame_frameLog r child start).callsLog.pending_eq⟩
  obtain rfl := placed.row
  refine ⟨?_, inner.append (.cons (by rintro record ⟨⟩) trivial)⟩
  rintro record' ⟨⟩
  exact ⟨q, around, counted, [], rfl⟩

private theorem rows_housed {q : Program} {stack : List LogEntry} (around : Encloses r p stack q)
    (nested : OfNested r (Houses r p) q) (l : List Row) (seq skips : Nat) (g : Progress)
    (st : RunState) : Housed r p stack (rows r (below r) q l seq skips g st).log := by
  fun_induction rows r (below r) q l seq skips g st with
  | case1 seq skips g st => exact trivial
  | case2 row rest seq skips g st empty ih => exact ih
  | case3 row rest seq skips g st _ _ stopped => exact .cons (by rintro record ⟨⟩) trivial
  | case4 row rest seq skips g st counted _ s g' reason _ =>
    exact step_housed around nested seq row (Bool.eq_false_iff.2 counted) skips st
  | case5 row rest seq skips g st counted _ s g' _ more ih =>
    have balanced : RowsLog (s.log ++ []) :=
      step_rowsLog (below_frameLog r) q seq row skips st (.nil _)
    rw [List.append_nil] at balanced
    refine (step_housed around nested seq row (Bool.eq_false_iff.2 counted) skips st).append ?_
    rw [balanced.pending_eq]
    exact ih

private theorem runFrame_houses (q : Program) (st : RunState) :
    Houses r p q st (r.runFrame q st) := by
  refine runFrame_induction (P := Houses r p) ?_ q st
  intro q nested st stack around
  have inner := rows_housed around nested q.rows 1 0 {} st
  exact .cons (by rintro record ⟨⟩) (inner.append (.cons (by rintro record ⟨⟩) trivial))

/-- A step runs the program that its reference leads to, or notes what is wrong with it. -/
private theorem attempt_of_reference {record : Record} {a : Action} {st : RunState}
    (runs : RunsProgram r st.session.vars record a) (counted : record.row.isEmpty = false)
    (refers : (resolvedRecord r record st).reference ≠ "")
    (shallow : record.position.level < r.config.maxDepth) (dir : Option String) :
    let e := attempt r (below r) record dir st
    let found := Loader.resolve ⟨r.inline, st.files⟩ (resolvedRecord r record st).reference dir
    (∀ l, found = .ok l → e.log =
      (r.runFrame (startedProgram r record st l) (resolvedState r record st)).log) ∧
    ∀ err, found = .error err → e.log = [] ∧
      e.record.errors = [(Action.Error.invalidParam referenceName err.message).message] := by
  intro e found
  have level : (resolvedRecord r record st).position.level < r.config.maxDepth := by
    rw [(Record.Continues.resolve record r.params st.session.vars).position]
    exact shallow
  have clean : (resolvedRecord r record st).errors = [] :=
    ((Record.hasErrors_eq_false_iff (resolvedRecord r record st)).1 runs.clean).1
  have nested : nestedProgram r (resolvedState r record st).files (resolvedRecord r record st) dir =
      (found.map fun l => startedProgram r record st l).mapError fun err =>
        .invalidParam referenceName err.message := by
    rw [files_resolvedState]
    exact nestedProgram_eq refers level
  obtain ⟨log, -, notes, noted, -⟩ := attempt_of_runsProgram runs counted (below r) dir
  have errors := noted.errors
  clear noted
  -- How the program was run must stay closed from here on.
  generalize ran : runNested r (below r) (resolvedRecord r record st) dir
    (resolvedState r record st) = outcome at log errors
  constructor
  · intro l ok
    rw [ok] at nested
    rw [runNested_of_ok nested] at ran
    rw [log, ← ran]
  · intro err error
    rw [error] at nested
    rw [runNested_of_error nested] at ran
    rw [← ran] at log errors
    refine ⟨log, errors.trans ?_⟩
    simp [applyAnswer, Action.Error.isSetup, Record.addError, clean]

/-- References are taken from the directory of the nearest file that a program around the step was
read from. -/
theorem references_taken_from_nearest_file (r : Runner) (p : Program) (st : RunState)
    {pre post : Log} {record : Record} {st₁ : RunState}
    (begun : (r.run p st).log = pre ++ ⟨.began record, st₁⟩ :: post) :
    let around := pending [] pre
    let dir := nearestDir (rootDir r around) (openFiles r around)
    (∃ q, Encloses r p around q ∧ q.baseDir = dir) ∧
    ((∀ e ∈ around, ∀ begun ∈ e.begun?, Single r begun.action) → rootDir r around = p.baseDir) ∧
    CarriedFrom r dir record st₁ post ∧
    ∀ a, RunsProgram r st₁.session.vars record a → (resolvedRecord r record st₁).reference ≠ "" →
      record.position.level < r.config.maxDepth →
      let found := Loader.resolve ⟨r.inline, st₁.files⟩ (resolvedRecord r record st₁).reference dir
      (∀ l, found = .ok l → ∃ rest, post =
        ⟨.entered (startedProgram r record st₁ l), resolvedState r record st₁⟩ :: rest) ∧
      ∀ err, found = .error err → ∃ record' directive st₂ rest,
        post = ⟨.ended record' directive, st₂⟩ :: rest ∧
        record'.errors = [(Action.Error.invalidParam referenceName err.message).message] := by
  intro around dir
  have housed : Housed r p [] (r.run p st).log :=
    runFrame_houses p st [] (.outermost st)
  rw [begun] at housed
  obtain ⟨q, encloses, carried⟩ := housed.of_begun
  have same : q.baseDir = dir := encloses.baseDir_eq
  rw [same] at carried
  refine ⟨⟨q, encloses, same⟩, encloses.rootDir_eq, carried, ?_⟩
  intro a runs refers shallow found
  obtain ⟨counted, rest, follows⟩ := carried
  obtain ⟨ran, refused⟩ := attempt_of_reference runs counted refers shallow dir
  constructor
  · intro l ok
    rw [ran l ok, runFrame_eq] at follows
    exact ⟨_, follows⟩
  · intro err error
    obtain ⟨log, errors⟩ := refused err error
    rw [log] at follows
    exact ⟨_, _, _, rest, follows, errors⟩

def callTable (reference : String) : FileTree.Node :=
  .file ("call\tRunProgram\t\t\t\t\tInputSpecs=" ++ reference ++ "\n").toUTF8

def suiteFiles : FileTree :=
  [["suite", "parts", "leaf.tsv"], ["suite", "leaf.tsv"], ["leaf.tsv"]].foldl
    (fun t place => t.addAt place (.file .empty))
    (({} : FileTree).addAt ["suite", "parts", "login.tsv"] (callTable "inline:shared"))

def suiteRunner : Runner where
  inline := .ofList [("shared",
    [{ id := "leaf", action := "RunProgram", parameters := "InputSpecs=tsv:leaf.tsv" }])]

def suite : Program where
  name := "suite"
  rows := [{ id := "login", action := "RunProgram", parameters := "InputSpecs=tsv:parts/login.tsv" }]
  baseDir := some "suite"

def suiteRun : Runner.Finished :=
  suiteRunner.run suite { files := suiteFiles }

theorem suiteRun_stays_in_directory :
    openFiles suiteRunner (pending [] (suiteRun.log.take 5)) = ["suite/parts/login.tsv"] ∧
    (∃ q, Encloses suiteRunner suite (pending [] (suiteRun.log.take 5)) q ∧
      q.baseDir = some "suite/parts") ∧
    ∃ record st l rest,
      Loader.file? ⟨suiteRunner.inline, st.files⟩ (resolvedRecord suiteRunner record st).reference
        (some "suite/parts") = some ("suite/parts/leaf.tsv", .tsv) ∧
      suiteRun.log.drop 6 = ⟨.entered (startedProgram suiteRunner record st l),
        resolvedState suiteRunner record st⟩ :: rest := by
  have evaluated : openFiles suiteRunner (pending [] (suiteRun.log.take 5)) =
        ["suite/parts/login.tsv"] ∧
      (suiteRun.log[5]?.bind LogEntry.begun?).isSome = true ∧
      ∀ e ∈ suiteRun.log[5]?, ∀ record ∈ e.begun?,
        let reference := (resolvedRecord suiteRunner record e.state).reference
        let loader : Loader := ⟨suiteRunner.inline, e.state.files⟩
        record.isActive = true ∧
        (record.resolve suiteRunner.params e.state.session.vars).1.hasErrors = false ∧
        record.action = "RunProgram" ∧ reference ≠ "" ∧
        record.position.level < suiteRunner.config.maxDepth ∧
        loader.file? reference (some "suite/parts") = some ("suite/parts/leaf.tsv", .tsv) ∧
        (loader.resolve reference (some "suite/parts")).toOption.isSome = true := by
    decide +kernel
  have parent (base : Option String) :
      nearestDir base ["suite/parts/login.tsv"] = some "suite/parts" := by
    have cut : Path.parent? "suite/parts/login.tsv" = some "suite/parts" := by decide +kernel
    exact cut
  obtain ⟨opened, begins, there⟩ := evaluated
  obtain ⟨record, begins⟩ := Option.isSome_iff_exists.1 begins
  obtain ⟨e, here, split⟩ := eq_take_began_drop begins
  rw [here] at begins
  obtain ⟨active, clean, named, refers, shallow, file, found⟩ := there e here record begins
  have runs : RunsProgram suiteRunner e.state.session.vars record Action.runProgram :=
    ⟨active, clean, by rw [named]; rfl, rfl⟩
  obtain ⟨⟨q, encloses, same⟩, -, -, looked⟩ :=
    references_taken_from_nearest_file suiteRunner suite { files := suiteFiles } split
  simp only [opened, parent] at same looked
  obtain ⟨ran, -⟩ := looked Action.runProgram runs refers shallow
  cases leads : Loader.resolve ⟨suiteRunner.inline, e.state.files⟩
      (resolvedRecord suiteRunner record e.state).reference (some "suite/parts") with
  | error err =>
    rw [leads] at found
    exact nomatch found
  | ok l =>
    obtain ⟨rest, follows⟩ := ran l leads
    exact ⟨opened, ⟨q, encloses, same⟩, record, e.state, l, rest, file, follows⟩

end Runbook.Run

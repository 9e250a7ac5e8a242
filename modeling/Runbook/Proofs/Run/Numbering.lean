import Mathlib.Data.List.Nodup
import Mathlib.Data.List.Range
import Mathlib.Logic.Relation
import Runbook.Proofs.Run.Calls
import Runbook.Proofs.Run.Conservation

set_option autoImplicit false

/-!
The numbers of steps. Steps take their numbers from one count of the session, in the order in which
they are begun, and a program is linked to the step that started it by the number of that step. The
steps of a program and of all that is nested in it are therefore numbered without a gap from the
number of that step on, and the links make the programs of a run one tree.
-/
namespace Runbook

def stepNumbers (fs : List FrameSummary) : List Nat :=
  fs.flatMap fun f => f.steps.map (·.step)

@[simp] theorem stepNumbers_nil : stepNumbers [] = [] := rfl

@[simp] theorem stepNumbers_cons (f : FrameSummary) (fs : List FrameSummary) :
    stepNumbers (f :: fs) = f.steps.map (·.step) ++ stepNumbers fs :=
  List.flatMap_cons

@[simp] theorem stepNumbers_append (fs fs' : List FrameSummary) :
    stepNumbers (fs ++ fs') = stepNumbers fs ++ stepNumbers fs' :=
  List.flatMap_append

/-- A program linked to a step of another one. -/
def FrameSummary.Calls (f g : FrameSummary) : Prop :=
  g.parentStep ∈ f.steps.map (·.step)

/-- A program that can be reached from another one by links among those that are reported. -/
def FrameSummary.Reaches (fs : List FrameSummary) : FrameSummary → FrameSummary → Prop :=
  Relation.ReflTransGen fun f g => g ∈ fs ∧ f.Calls g

/-- Steps with places and numbers that increase, each with the level and the link of its program. -/
structure StepResult.InOrder (level parentStep : Nat) (l : List StepResult) : Prop where
  seq : l.Pairwise fun s s' => s.seq < s'.seq
  step : l.Pairwise fun s s' => s.step < s'.step
  level : ∀ s ∈ l, s.level = level
  parentStep : ∀ s ∈ l, s.parentStep = parentStep

/-- The steps of a program and of all that can be reached from it are numbered without a gap from
its link on. -/
structure FrameSummary.IsTree (fs : List FrameSummary) (f : FrameSummary)
    (tree : List FrameSummary) : Prop where
  sublist : tree.Sublist fs
  root : f ∈ tree
  reached : ∀ g ∈ tree, Reaches fs f g
  closed : ∀ g ∈ fs, g.parentStep ∈ stepNumbers tree → g ∈ tree
  numbers : (stepNumbers tree).Perm (List.range' (f.parentStep + 1) (stepNumbers tree).length)

namespace FrameSummary.IsTree

variable {fs fs' : List FrameSummary} {f : FrameSummary} {tree : List FrameSummary}

private theorem mem_iff (h : IsTree fs f tree) (g : FrameSummary) : g ∈ tree ↔ Reaches fs f g := by
  constructor
  · exact h.reached g
  · intro reaches
    induction reaches with
    | refl => exact h.root
    | tail _ link ih =>
      obtain ⟨reported, calls⟩ := link
      exact h.closed _ reported (List.mem_flatMap.2 ⟨_, ih, calls⟩)

private theorem mem_numbers (h : IsTree fs f tree) {x : Nat} (member : x ∈ stepNumbers tree) :
    x ∈ stepNumbers fs := by
  obtain ⟨g, reached, number⟩ := List.mem_flatMap.1 member
  exact List.mem_flatMap.2 ⟨g, h.sublist.subset reached, number⟩

private theorem extend (h : IsTree fs f tree) (more : fs.Sublist fs')
    (others : ∀ g ∈ fs', g ∈ fs ∨ g.parentStep ∉ stepNumbers tree) : IsTree fs' f tree where
  sublist := h.sublist.trans more
  root := h.root
  reached g member := Relation.ReflTransGen.mono
    (fun _ _ link => ⟨more.subset link.1, link.2⟩) _ _ (h.reached g member)
  closed g reported linked := by
    rcases others g reported with here | unlinked
    · exact h.closed g here linked
    · exact absurd linked unlinked
  numbers := h.numbers

end FrameSummary.IsTree

namespace Run

structure NumberedStep (level parentStep seq step : Nat) (s : StepResult) : Prop where
  level : s.level = level
  parentStep : s.parentStep = parentStep
  seq : seq ≤ s.seq
  step : s.step = step

/-- The steps of a program from a place on, the programs reported among them, and the counts of
steps before and after. -/
inductive Numbered : (level parentStep seq before : Nat) → List StepResult → List FrameSummary →
    (after : Nat) → Prop
  | nil (level parentStep seq n : Nat) : Numbered level parentStep seq n [] [] n
  | plain {level parentStep seq n after : Nat} {s : StepResult} {own : List StepResult}
      {fs : List FrameSummary} :
      NumberedStep level parentStep seq (n + 1) s →
      Numbered level parentStep (s.seq + 1) (n + 1) own fs after →
      Numbered level parentStep seq n (s :: own) fs after
  | calling {level parentStep seq n between after : Nat} {s : StepResult} {own : List StepResult}
      {f : FrameSummary} {inner fs : List FrameSummary} :
      NumberedStep level parentStep seq (n + 1) s → f.level = level + 1 → f.parentStep = n + 1 →
      Numbered f.level f.parentStep 1 f.parentStep f.steps inner between →
      Numbered level parentStep (s.seq + 1) between own fs after →
      Numbered level parentStep seq n (s :: own) (inner ++ f :: fs) after

namespace Numbered

variable {level parentStep seq n after : Nat} {own : List StepResult} {fs : List FrameSummary}

private theorem earlier {seq' : Nat} (h : Numbered level parentStep seq n own fs after)
    (le : seq' ≤ seq) :
    Numbered level parentStep seq' n own fs after := by
  cases h with
  | nil => exact .nil _ _ _ _
  | plain step rest => exact .plain ⟨step.level, step.parentStep, le.trans step.seq, step.step⟩ rest
  | calling step below link inner rest =>
    exact .calling ⟨step.level, step.parentStep, le.trans step.seq, step.step⟩ below link inner rest

private theorem numbers (h : Numbered level parentStep seq n own fs after) :
    ∃ k, after = n + k ∧
      (own.map (·.step) ++ stepNumbers fs).Perm (List.range' (n + 1) k) := by
  induction h with
  | nil => exact ⟨0, rfl, .refl _⟩
  | @plain level parentStep seq n after s own fs step _ ih =>
    obtain ⟨k, rfl, perm⟩ := ih
    refine ⟨k + 1, by omega, ?_⟩
    rw [List.range'_succ, List.map_cons, step.step]
    exact perm.cons _
  | @calling level parentStep seq n between after s own f inner fs step _ link _ _ ih ih' =>
    obtain ⟨k, rfl, perm⟩ := ih
    obtain ⟨k', rfl, perm'⟩ := ih'
    rw [link] at perm perm'
    refine ⟨1 + k + k', by omega, ?_⟩
    have range : List.range' (n + 1) (1 + k + k') =
        (n + 1) :: (List.range' (n + 1 + 1) k ++ List.range' (n + 1 + k + 1) k') := by
      rw [Nat.add_assoc, Nat.add_comm 1, List.range'_succ, ← List.range'_append_1]
      congr 3
      omega
    have regroup : (own.map (·.step) ++ (stepNumbers inner ++
          (f.steps.map (·.step) ++ stepNumbers fs))).Perm
        ((f.steps.map (·.step) ++ stepNumbers inner) ++
          (own.map (·.step) ++ stepNumbers fs)) := by
      rw [List.perm_iff_count]
      intro x
      simp only [List.count_append]
      omega
    rw [range, List.map_cons, step.step, stepNumbers_append, stepNumbers_cons]
    exact (regroup.trans (perm.append perm')).cons _

theorem le (h : Numbered level parentStep seq n own fs after) : n ≤ after := by
  obtain ⟨k, rfl, -⟩ := h.numbers
  exact Nat.le_add_right n k

private theorem mem_numbers (h : Numbered level parentStep seq n own fs after) {x : Nat}
    (member : x ∈ own.map (·.step) ++ stepNumbers fs) : n < x ∧ x ≤ after := by
  obtain ⟨k, rfl, perm⟩ := h.numbers
  have counted := perm.subset member
  rw [List.mem_range'_1] at counted
  omega

private theorem own_mem (h : Numbered level parentStep seq n own fs after) :
    ∀ s ∈ own, s.level = level ∧ s.parentStep = parentStep ∧ seq ≤ s.seq ∧ n < s.step := by
  induction h with
  | nil => exact nofun
  | @plain level parentStep seq n after s own fs step _ ih =>
    intro s' member
    rcases List.mem_cons.1 member with rfl | later
    · exact ⟨step.level, step.parentStep, step.seq, by rw [step.step]; omega⟩
    · obtain ⟨level, parentStep, seq, number⟩ := ih s' later
      have := step.seq
      exact ⟨level, parentStep, by omega, by omega⟩
  | @calling level parentStep seq n between after s own f inner fs step _ link nested _ _ ih =>
    intro s' member
    rcases List.mem_cons.1 member with rfl | later
    · exact ⟨step.level, step.parentStep, step.seq, by rw [step.step]; omega⟩
    · obtain ⟨level, parentStep, seq, number⟩ := ih s' later
      have := step.seq
      have := nested.le
      exact ⟨level, parentStep, by omega, by omega⟩

private theorem own_inOrder (h : Numbered level parentStep seq n own fs after) :
    StepResult.InOrder level parentStep own := by
  refine ⟨?_, ?_, fun s member => (h.own_mem s member).1, fun s member => (h.own_mem s member).2.1⟩
  · induction h with
    | nil => exact .nil
    | plain step rest ih =>
      refine .cons (fun s member => ?_) ih
      have := (rest.own_mem s member).2.2.1
      omega
    | calling step _ _ _ rest _ ih =>
      refine .cons (fun s member => ?_) ih
      have := (rest.own_mem s member).2.2.1
      omega
  · induction h with
    | nil => exact .nil
    | plain step rest ih =>
      refine .cons (fun s member => ?_) ih
      have := (rest.own_mem s member).2.2.2
      have := step.step
      omega
    | calling step _ link nested rest _ ih =>
      refine .cons (fun s member => ?_) ih
      have := (rest.own_mem s member).2.2.2
      have := step.step
      have := nested.le
      omega

private theorem frames_inOrder (h : Numbered level parentStep seq n own fs after) :
    ∀ f ∈ fs, StepResult.InOrder f.level f.parentStep f.steps := by
  induction h with
  | nil => exact nofun
  | plain _ _ ih => exact ih
  | calling _ _ _ nested _ ih ih' =>
    intro f member
    rcases List.mem_append.1 member with inner | rest
    · exact ih f inner
    · rcases List.mem_cons.1 rest with rfl | later
      · exact nested.own_inOrder
      · exact ih' f later

private theorem linked (h : Numbered level parentStep seq n own fs after) :
    ∀ f ∈ fs, level < f.level ∧
      ((f.level = level + 1 ∧ f.parentStep ∈ own.map (·.step)) ∨
        ∃ g ∈ fs, f.level = g.level + 1 ∧ g.Calls f) := by
  induction h with
  | nil => exact nofun
  | plain _ _ ih =>
    intro f member
    obtain ⟨deeper, ⟨level, own⟩ | reported⟩ := ih f member
    · exact ⟨deeper, .inl ⟨level, List.mem_cons_of_mem _ own⟩⟩
    · exact ⟨deeper, .inr reported⟩
  | @calling level parentStep seq n between after s own f inner fs step below link _ _ ih ih' =>
    intro g member
    rcases List.mem_append.1 member with nested | rest
    · obtain ⟨deeper, ⟨level, calls⟩ | ⟨caller, reported, link⟩⟩ := ih g nested
      · have here : f ∈ inner ++ f :: fs := List.mem_append_right _ List.mem_cons_self
        exact ⟨by omega, .inr ⟨f, here, level, calls⟩⟩
      · exact ⟨by omega, .inr ⟨caller, List.mem_append_left _ reported, link⟩⟩
    · rcases List.mem_cons.1 rest with rfl | later
      · refine ⟨by omega, .inl ⟨below, ?_⟩⟩
        rw [link, ← step.step]
        exact List.mem_cons_self
      · obtain ⟨deeper, ⟨level, own⟩ | ⟨caller, reported, link⟩⟩ := ih' g later
        · exact ⟨deeper, .inl ⟨level, List.mem_cons_of_mem _ own⟩⟩
        · exact ⟨deeper,
            .inr ⟨caller, List.mem_append_right _ (List.mem_cons_of_mem _ reported), link⟩⟩

private theorem mem_links (h : Numbered level parentStep seq n own fs after) :
    ∀ f ∈ fs, n < f.parentStep ∧ f.parentStep ≤ after := by
  induction h with
  | nil => exact nofun
  | plain _ _ ih =>
    intro f member
    have := ih f member
    omega
  | calling _ _ link nested rest ih ih' =>
    intro g member
    have := nested.le
    have := rest.le
    rcases List.mem_append.1 member with inner | outer
    · have := ih g inner
      omega
    · rcases List.mem_cons.1 outer with rfl | later
      · omega
      · have := ih' g later
        omega

private theorem links_nodup (h : Numbered level parentStep seq n own fs after) :
    (fs.map (·.parentStep)).Nodup := by
  induction h with
  | nil => exact .nil
  | plain _ _ ih => exact ih
  | @calling level parentStep seq n between after s own f inner fs _ _ link nested rest ih ih' =>
    have le := nested.le
    rw [List.map_append, List.map_cons, List.nodup_append']
    refine ⟨ih, List.nodup_cons.2 ⟨?_, ih'⟩, ?_⟩
    · intro same
      obtain ⟨g, member, same⟩ := List.mem_map.1 same
      have := rest.mem_links g member
      omega
    · intro x first second
      obtain ⟨g, member, rfl⟩ := List.mem_map.1 first
      have inner := nested.mem_links g member
      rcases List.mem_cons.1 second with same | later
      · omega
      · obtain ⟨g', member', same⟩ := List.mem_map.1 later
        have := rest.mem_links g' member'
        omega

private theorem reached (h : Numbered level parentStep seq n own fs after) {all : List FrameSummary}
    {f : FrameSummary} (steps : ∀ s ∈ own, s ∈ f.steps) (reported : ∀ g ∈ fs, g ∈ all) :
    ∀ g ∈ fs, f.Reaches all g := by
  induction h generalizing f with
  | nil => exact nofun
  | plain _ _ ih => exact ih (fun s member => steps s (List.mem_cons_of_mem _ member)) reported
  | @calling level parentStep seq n between after s own f' inner fs step _ link _ _ ih ih' =>
    have here : f.Reaches all f' := by
      refine .single ⟨reported f' (List.mem_append_right _ List.mem_cons_self), ?_⟩
      rw [FrameSummary.Calls, link, ← step.step]
      exact List.mem_map_of_mem (steps s List.mem_cons_self)
    intro g member
    rcases List.mem_append.1 member with nested | rest
    · exact here.trans (ih (fun s member => member)
        (fun g member => reported g (List.mem_append_left _ member)) g nested)
    · rcases List.mem_cons.1 rest with rfl | later
      · exact here
      · refine ih' (fun s member => steps s (List.mem_cons_of_mem _ member)) ?_ g later
        intro g member
        exact reported g (List.mem_append_right _ (List.mem_cons_of_mem _ member))

private theorem isTree {f : FrameSummary}
    (h : Numbered f.level f.parentStep 1 f.parentStep f.steps fs after) :
    FrameSummary.IsTree (fs ++ [f]) f (fs ++ [f]) where
  sublist := .refl _
  root := List.mem_append_right _ List.mem_cons_self
  reached g member := by
    rcases List.mem_append.1 member with inner | last
    · exact h.reached (fun s member => member) (fun g member => List.mem_append_left _ member)
        g inner
    · obtain rfl := List.mem_singleton.1 last
      exact .refl
  closed g reported _ := reported
  numbers := by
    obtain ⟨k, -, perm⟩ := h.numbers
    have same : (stepNumbers (fs ++ [f])).Perm (List.range' (f.parentStep + 1) k) := by
      rw [stepNumbers_append, stepNumbers_cons, stepNumbers_nil, List.append_nil]
      exact List.perm_append_comm.trans perm
    rw [same.length_eq, List.length_range']
    exact same

private theorem trees (h : Numbered level parentStep seq n own fs after) :
    ∀ f ∈ fs, ∃ tree, FrameSummary.IsTree fs f tree := by
  induction h with
  | nil => exact nofun
  | plain _ _ ih => exact ih
  | @calling level parentStep seq n between after s own f inner fs _ _ link nested rest ih ih' =>
    have le := nested.le
    intro g member
    -- What is nested in the step is linked to other numbers than what comes after it.
    rcases List.mem_append.1 member with within | later
    · obtain ⟨tree, isTree⟩ := ih g within
      refine ⟨tree, isTree.extend (List.sublist_append_left _ _) ?_⟩
      intro g' reported
      rcases List.mem_append.1 reported with here | other
      · exact .inl here
      · right
        intro linked
        have := nested.mem_numbers (List.mem_append_right _ (isTree.mem_numbers linked))
        rcases List.mem_cons.1 other with rfl | other
        · omega
        · have := rest.mem_links g' other
          omega
    · rcases List.mem_cons.1 later with rfl | later
      · refine ⟨inner ++ [g], nested.isTree.extend ?_ ?_⟩
        · rw [List.append_cons inner g fs]
          exact List.sublist_append_left _ _
        · intro g' reported
          rw [List.append_cons inner g fs] at reported
          rcases List.mem_append.1 reported with here | other
          · exact .inl here
          · right
            intro linked
            rw [stepNumbers_append, stepNumbers_cons, stepNumbers_nil, List.append_nil] at linked
            have := nested.mem_numbers (List.perm_append_comm.subset linked)
            have := rest.mem_links g' other
            omega
      · obtain ⟨tree, isTree⟩ := ih' g later
        refine ⟨tree, isTree.extend ?_ ?_⟩
        · exact (List.sublist_cons_self _ _).trans (List.sublist_append_right _ _)
        · intro g' reported
          rcases List.mem_append.1 reported with first | other
          · right
            intro linked
            have := rest.mem_numbers (List.mem_append_right _ (isTree.mem_numbers linked))
            have := nested.mem_links g' first
            omega
          · rcases List.mem_cons.1 other with rfl | here
            · right
              intro linked
              have := rest.mem_numbers (List.mem_append_right _ (isTree.mem_numbers linked))
              omega
            · exact .inl here

section Whole

variable {f : FrameSummary}

private theorem whole_inOrder (h : Numbered f.level f.parentStep 1 f.parentStep f.steps fs after) :
    ∀ g ∈ fs ++ [f], StepResult.InOrder g.level g.parentStep g.steps := by
  intro g member
  rcases List.mem_append.1 member with nested | last
  · exact h.frames_inOrder g nested
  · obtain rfl := List.mem_singleton.1 last
    exact h.own_inOrder

private theorem whole_linked (h : Numbered f.level f.parentStep 1 f.parentStep f.steps fs after) :
    ∀ g ∈ fs, f.level < g.level ∧ ∃ caller ∈ fs ++ [f], g.level = caller.level + 1 ∧
      caller.Calls g := by
  intro g member
  obtain ⟨deeper, ⟨below, calls⟩ | ⟨caller, nested, below, calls⟩⟩ := h.linked g member
  · exact ⟨deeper, f, List.mem_append_right _ List.mem_cons_self, below, calls⟩
  · exact ⟨deeper, caller, List.mem_append_left _ nested, below, calls⟩

private theorem whole_links_nodup
    (h : Numbered f.level f.parentStep 1 f.parentStep f.steps fs after) :
    ((fs ++ [f]).map (·.parentStep)).Nodup := by
  rw [List.map_append, List.nodup_append']
  refine ⟨h.links_nodup, List.nodup_singleton _, ?_⟩
  intro x first last
  obtain ⟨g, member, rfl⟩ := List.mem_map.1 first
  have same : g.parentStep = f.parentStep := List.mem_singleton.1 last
  have := h.mem_links g member
  omega

private theorem whole_trees (h : Numbered f.level f.parentStep 1 f.parentStep f.steps fs after) :
    ∀ g ∈ fs ++ [f], ∃ tree, FrameSummary.IsTree (fs ++ [f]) g tree := by
  intro g member
  rcases List.mem_append.1 member with nested | last
  · obtain ⟨tree, isTree⟩ := h.trees g nested
    refine ⟨tree, isTree.extend (List.sublist_append_left _ _) ?_⟩
    intro g' reported
    rcases List.mem_append.1 reported with here | other
    · exact .inl here
    · right
      intro linked
      obtain rfl := List.mem_singleton.1 other
      have := h.mem_numbers (List.mem_append_right _ (isTree.mem_numbers linked))
      omega
  · obtain rfl := List.mem_singleton.1 last
    exact ⟨_, h.isTree⟩

end Whole

end Numbered

def CountsOn (p : Program) (st : RunState) (f : FrameRun) : Prop :=
  ∃ inner, framesIn f.events = inner ++ [f.summary] ∧ f.summary.IsOf p ∧
    Numbered p.level p.parentStep 1 st.session.counters.done f.summary.steps inner
      f.state.session.counters.done

theorem done_closed (r : Runner) (row : Row) (e : Execution) :
    (closed r row e).session.counters.done = e.state.session.counters.done := by
  have recorded (c : Counters) (s : Status) : (c.record s).done = c.done := by
    cases s with
    | pass | fail | skip => rfl
  unfold closed
  split
  · exact recorded _ _
  · exact recorded _ _

variable {r : Runner} (plain : r.registry.Plain)

include plain

private theorem step_numbered (p : Program) (nested : OfNested r CountsOn p) (seq : Nat) (row : Row)
    (skips : Nat) (st : RunState) {own : List StepResult} {fs : List FrameSummary} {after : Nat} :
    let s := step r (below r) p seq row skips st
    Numbered p.level p.parentStep (seq + 1) s.state.session.counters.done own fs after →
      Numbered p.level p.parentStep seq st.session.counters.done (s.result :: own)
        (framesIn (eventsOf s.log) ++ fs) after := by
  obtain ⟨e, same, continues, outcome⟩ :=
    step_calls r (below r) p seq row skips st fun _ => plain.of_find?
  have position := continues.position.trans (begunRecord_placed _ _ _ _ _).position
  have number : NumberedStep p.level p.parentStep seq (st.session.counters.done + 1)
      e.record.result :=
    ⟨congrArg Position.level position, congrArg Position.parentStep position,
      (congrArg Position.seq position).ge, congrArg Position.step position⟩
  have place : e.record.result.seq = seq := congrArg Position.seq position
  rw [same]
  simp only [finished, eventsOf_step, framesIn_append, framesIn_step, List.append_nil, done_closed]
  intro rest
  rw [← place] at rest
  rcases outcome with ⟨log, quiet⟩ | ⟨run, child, start, deep, started, before, log, quiet⟩
  · rw [quiet.counters] at rest
    rw [log]
    exact .plain number rest
  · obtain rfl := Option.some.inj deep
    obtain ⟨inner, frames, isOf, counts⟩ := nested child started.level started.level_le start
    have level : (r.runFrame child start).summary.level = p.level + 1 :=
      isOf.level.trans started.level
    have link : (r.runFrame child start).summary.parentStep =
        st.session.counters.done + 1 := isOf.parentStep.trans started.parentStep
    have first : start.session.counters.done = st.session.counters.done + 1 :=
      congrArg Counters.done before.counters
    rw [first, ← isOf.level, ← isOf.parentStep, ← link] at counts
    rw [quiet.counters] at rest
    change framesIn (eventsOf (r.runFrame child start).log) = _ at frames
    rw [log, frames, ← List.append_cons]
    exact .calling number level link counts rest

private theorem rows_numbered (p : Program) (nested : OfNested r CountsOn p) (l : List Row)
    (seq skips : Nat) (g : Progress) (st : RunState) :
    let run := rows r (below r) p l seq skips g st
    ∃ own, run.progress.steps = g.steps ++ own ∧
      Numbered p.level p.parentStep seq st.session.counters.done own
        (framesIn (eventsOf run.log)) run.state.session.counters.done := by
  fun_induction rows r (below r) p l seq skips g st with
  | case1 seq skips g st => exact ⟨[], (List.append_nil _).symm, .nil _ _ _ _⟩
  | case2 row rest seq skips g st empty ih =>
    obtain ⟨own, steps, numbered⟩ := ih
    exact ⟨own, steps, numbered.earlier (Nat.le_succ seq)⟩
  | case3 row rest seq skips g st _ _ stopped =>
    exact ⟨[], (List.append_nil _).symm, .nil _ _ _ _⟩
  | case4 row rest seq skips g st _ _ s g' reason _ =>
    have numbered := step_numbered plain p nested seq row skips st (.nil _ _ _ _)
    rw [List.append_nil] at numbered
    exact ⟨[s.result], rfl, numbered⟩
  | case5 row rest seq skips g st _ _ s g' _ more ih =>
    obtain ⟨own, steps, numbered⟩ := ih
    refine ⟨s.result :: own, ?_, ?_⟩
    · rw [steps]
      exact List.append_assoc g.steps [s.result] own
    · rw [eventsOf_append, framesIn_append]
      exact step_numbered plain p nested seq row skips st numbered

theorem runFrame_countsOn (p : Program) (st : RunState) :
    CountsOn p st (r.runFrame p st) := by
  refine runFrame_induction (P := CountsOn) ?_ p st
  intro p nested st
  obtain ⟨own, steps, numbered⟩ := rows_numbered plain p nested p.rows 1 0 {} st
  refine ⟨framesIn (eventsOf (rows r (below r) p p.rows 1 0 {} st).log), ?_,
    ⟨rfl, rfl, rfl⟩, ?_⟩
  · rw [events_frameWith, framesIn_append, framesIn_frame]
  · have all : (frameWith r (below r) p st).summary.steps = own := steps
    rw [all]
    exact numbered

omit plain

private theorem length_stepNumbers {fs : List FrameSummary}
    (counted : ∀ f ∈ fs, f.counters.done = f.steps.length) :
    (stepNumbers fs).length = (fs.map (·.counters.done)).sum := by
  have lengths : fs.map (fun f => (f.steps.map (·.step)).length) = fs.map (·.counters.done) := by
    refine List.map_congr_left fun f member => ?_
    rw [List.length_map, counted f member]
  rw [stepNumbers, List.length_flatMap, lengths]

/-- Step numbers identify and link steps, and leave no gap below a step. -/
theorem steps_numbered (r : Runner) (plain : r.registry.Plain) (p : Program) (st : RunState)
    (outermost : p.level = 1) (unlinked : p.parentStep = 0)
    (fresh : st.session.counters = .zero) :
    let run := r.run p st
    let frames := framesIn run.events
    (stepNumbers frames).Perm (List.range' 1 run.state.session.counters.done) ∧
    (∀ f ∈ frames, StepResult.InOrder f.level f.parentStep f.steps) ∧
    (∃ nested root, frames = nested ++ [root] ∧ root.level = 1 ∧ root.parentStep = 0 ∧
      ∀ f ∈ nested, 1 < f.level ∧ ∃ g ∈ frames, f.level = g.level + 1 ∧ g.Calls f) ∧
    (frames.map (·.parentStep)).Nodup ∧
    ∀ f ∈ frames, ∃ tree, tree.Sublist frames ∧ (∀ g, g ∈ tree ↔ f.Reaches frames g) ∧
      (stepNumbers tree).Perm
        (List.range' (f.parentStep + 1) (tree.map (·.counters.done)).sum) := by
  intro run frames
  obtain ⟨inner, reported, isOf, numbered⟩ := runFrame_countsOn plain p st
  have whole : frames = inner ++ [(r.runFrame p st).summary] := by
    rw [← reported]
    simp only [frames, Runner.Finished.events, framesIn_append, framesIn_session, List.append_nil]
    rfl
  have level := isOf.level.trans outermost
  have link := isOf.parentStep.trans unlinked
  have uncounted : st.session.counters.done = 0 := congrArg Counters.done fresh
  rw [uncounted, ← isOf.level, ← isOf.parentStep, ← link] at numbered
  change Numbered _ _ 1 _ _ inner run.state.session.counters.done at numbered
  generalize (r.runFrame p st).summary = root at whole level link numbered
  have booked : Booked st run.log [] run.state := run_booked r p st
  have counted : ∀ f ∈ frames, f.counters.done = f.steps.length := by
    intro f member
    have tallied : f.counters = .ofSteps f.steps := by
      refine booked.tallied f ?_
      simp only [frames, Runner.Finished.events, framesIn_append, framesIn_session,
        List.append_nil] at member
      exact member
    rw [tallied]
    exact Counters.done_ofSteps f.steps
  have links := numbered.whole_linked
  have trees := numbered.whole_trees
  rw [level, ← whole] at links
  rw [← whole] at trees
  refine ⟨?_, ?_, ⟨inner, root, whole, level, link, links⟩, ?_, ?_⟩
  · obtain ⟨k, total, perm⟩ := numbered.numbers
    rw [link, Nat.zero_add] at total perm
    rw [whole, stepNumbers_append, stepNumbers_cons, stepNumbers_nil, List.append_nil, total]
    exact List.perm_append_comm.trans perm
  · rw [whole]
    exact numbered.whole_inOrder
  · rw [whole]
    exact numbered.whole_links_nodup
  · intro f member
    obtain ⟨tree, isTree⟩ := trees f member
    refine ⟨tree, isTree.sublist, isTree.mem_iff, ?_⟩
    rw [← length_stepNumbers fun g reached => counted g (isTree.sublist.subset reached)]
    exact isTree.numbers

def numberedRun : Runner.Finished :=
  (withChild [noteRow "", noteRow ""]).run caller {}

theorem numberedRun_links :
    Registry.builtin.Plain ∧ caller.level = 1 ∧ caller.parentStep = 0 ∧
    ({} : RunState).session.counters = .zero ∧
    (stepNumbers (framesIn numberedRun.events)).Perm [1, 2, 3, 4] ∧
    ∀ f ∈ (framesIn numberedRun.events).head?, f.parentStep = 1 ∧
      ∃ tree, (∀ g, g ∈ tree ↔ f.Reaches (framesIn numberedRun.events) g) ∧
        (stepNumbers tree).Perm (List.range' 2 (tree.map (·.counters.done)).sum) := by
  obtain ⟨numbers, -, -, -, trees⟩ :=
    steps_numbered (withChild [noteRow "", noteRow ""]) Registry.plain_builtin caller {} rfl rfl rfl
  have done : numberedRun.state.session.counters.done = 4 := by
    decide +kernel
  change (stepNumbers (framesIn numberedRun.events)).Perm
    (List.range' 1 numberedRun.state.session.counters.done) at numbers
  rw [done] at numbers
  refine ⟨Registry.plain_builtin, rfl, rfl, rfl, numbers, ?_⟩
  intro f first
  have link : ∀ f ∈ (framesIn numberedRun.events).head?, f.parentStep = 1 := by
    decide +kernel
  obtain ⟨tree, -, reached, tallied⟩ := trees f (List.mem_of_mem_head? first)
  rw [link f first] at tallied
  exact ⟨link f first, tree, reached, tallied⟩

end Run
end Runbook

/-
# The project controller

Two controllers keep Namespaces and Projects in step.  `reconcile_namespace` applies a Project of
the same name, with the labels and the phase of the Namespace; `reconcile_project` creates a
Namespace for a Project that has none.  Neither looks at deletions.

The two kinds are matched by name and no call ever touches a second name, so the cluster is a family
of CELLS, one per name.  A cell holds the Namespace, the Project, and what the two controllers have
still to see of them: their states in order, `none` for a deletion.  A call works on the first state
that is still to be seen, which may be an old one, and reads the other kind as it is.
-/
import Mathlib.Logic.Function.Basic
import Picoshift.Lib.Machine

namespace Picoshift.Project

/-! ## 1. The objects -/

abbrev Labels := List (String × String)

structure Namespace where
  labels : Option Labels
  phase : Option String
  /-- It has a deletion timestamp. -/
  deleting : Bool
  deriving DecidableEq, Repr

/-- What one field manager says of a Project. -/
structure Fields where
  labels : Labels
  phase : Option String
  deriving DecidableEq, Repr

/-- A Project: what its creator said, and what `ocp-sim-project` has applied. -/
structure ProjectObject where
  own : Fields
  applied : Option Fields
  deriving DecidableEq, Repr

/-- The labels: those applied, and those of the creator that were not applied. -/
def ProjectObject.labels (p : ProjectObject) : Labels :=
  let applied := (p.applied.map Fields.labels).getD []
  applied ++ p.own.labels.filter fun label => (applied.lookup label.1).isNone

def ProjectObject.phase (p : ProjectObject) : Option String :=
  (p.applied.bind Fields.phase).or p.own.phase

/-- Two managers want different values. -/
def Fields.conflicts (own new : Fields) : Bool :=
  own.labels.any (fun label => (new.labels.lookup label.1).any (· != label.2)) ||
    own.phase.any fun phase => new.phase.any (· != phase)

/-! ## 2. The calls -/

/-- How a request ends. -/
inductive Answer where
  | ok
  | failed
  /-- It was carried out, but the answer was lost. -/
  | lost
  deriving DecidableEq, Repr

/-- What is stored and what is still to be seen under one name. -/
structure Cell where
  ns : Option Namespace
  proj : Option ProjectObject
  nsFeed : List (Option Namespace)
  projFeed : List (Option ProjectObject)

def Cell.empty : Cell := ⟨none, none, [], []⟩

/-- The Namespace changes, and its controller is going to see it. -/
def Cell.setNs (c : Cell) (ns : Option Namespace) : Cell :=
  { c with ns, nsFeed := c.nsFeed ++ [ns] }

/-- The Project changes, and its controller is going to see it. -/
def Cell.setProj (c : Cell) (proj : Option ProjectObject) : Cell :=
  { c with proj, projFeed := c.projFeed ++ [proj] }

/-- What `reconcile_namespace` says of the Project. -/
def mirror (ns : Namespace) : Fields := ⟨ns.labels.getD [], some (ns.phase.getD "Active")⟩

/-- Server-side apply by `ocp-sim-project`: it replaces what this manager applied before, and is
refused when the creator of the Project wants something else. -/
def Cell.apply (c : Cell) (new : Fields) : Option Cell :=
  match c.proj with
  | none => some (c.setProj (some ⟨⟨[], none⟩, some new⟩))
  | some proj =>
    if proj.own.conflicts new then none
    else some (c.setProj (some { proj with applied := some new }))

/-- `reconcile_namespace`, for a state of the Namespace; `false` asks for a retry. -/
def Cell.reconcileNamespace (c : Cell) (ns : Namespace) (answer : Answer) : Cell × Bool :=
  if answer = .failed then (c, false)
  else
  match c.apply (mirror ns) with
  | none => (c, false)
  | some c => (c, answer = .ok)

/-- `reconcile_project`, for a state of the Project; `false` asks for a retry. -/
def Cell.reconcileProject (c : Cell) (proj : ProjectObject) (answer : Answer) : Cell × Bool :=
  if answer = .failed then (c, false)
  else
  match c.ns with
  | some _ => (c, answer = .ok)
  | none => (c.setNs (some ⟨some proj.labels, some "Active", false⟩), answer = .ok)

/-! ## 3. The cluster -/

/-- What can happen under one name. -/
inductive Op where
  | createNamespace (labels : Option Labels)
  | labelNamespace (labels : Option Labels)
  | setPhase (phase : String)
  | deleteNamespace
  /-- A Namespace that is being deleted is gone. -/
  | finalizeNamespace
  | createProject (own : Fields)
  | deleteProject
  /-- The controllers see the next state and are called for it. -/
  | seeNamespace (answer : Answer)
  | seeProject (answer : Answer)
  /-- A newer state takes the place of the next one. -/
  | skipNamespace
  | skipProject

/-- The next state of the Namespace is seen. -/
def Cell.seeNamespace (c : Cell) (answer : Answer) : Cell :=
  match c.nsFeed with
  | [] => c
  | none :: rest => { c with nsFeed := rest }
  | some ns :: _ =>
    let (c, done) := c.reconcileNamespace ns answer
    if done then { c with nsFeed := c.nsFeed.tail } else c

/-- The next state of the Project is seen. -/
def Cell.seeProject (c : Cell) (answer : Answer) : Cell :=
  match c.projFeed with
  | [] => c
  | none :: rest => { c with projFeed := rest }
  | some proj :: _ =>
    let (c, done) := c.reconcileProject proj answer
    if done then { c with projFeed := c.projFeed.tail } else c

/-- The first of at least two events. -/
def skip {α : Type} : List α → List α
  | _ :: event :: rest => event :: rest
  | events => events

def Cell.step (c : Cell) : Op → Cell
  | .createNamespace labels =>
    match c.ns with
    | some _ => c
    | none => c.setNs (some ⟨labels, some "Active", false⟩)
  | .labelNamespace labels =>
    match c.ns with
    | some ns => c.setNs (some { ns with labels })
    | none => c
  | .setPhase phase =>
    match c.ns with
    | some ns => c.setNs (some { ns with phase := some phase })
    | none => c
  | .deleteNamespace =>
    match c.ns with
    | some ns => c.setNs (some { ns with phase := some "Terminating", deleting := true })
    | none => c
  | .finalizeNamespace =>
    match c.ns with
    | some ns => if ns.deleting then c.setNs none else c
    | none => c
  | .createProject own =>
    match c.proj with
    | some _ => c
    | none => c.setProj (some ⟨own, none⟩)
  | .deleteProject =>
    match c.proj with
    | some _ => c.setProj none
    | none => c
  | .seeNamespace answer => c.seeNamespace answer
  | .seeProject answer => c.seeProject answer
  | .skipNamespace => { c with nsFeed := skip c.nsFeed }
  | .skipProject => { c with projFeed := skip c.projFeed }

/-- The simulator is started again: both controllers are going to see what exists. -/
def Cell.restart (c : Cell) : Cell :=
  { c with nsFeed := (c.ns.map some).toList, projFeed := (c.proj.map some).toList }

inductive Input where
  | on (name : String) (op : Op)
  | restart

abbrev World := String → Cell

def World.init : World := fun _ => Cell.empty

def World.step (s : World) : Input → World
  | .on name op => Function.update s name ((s name).step op)
  | .restart => fun name => (s name).restart

/-- A step does to a cell nothing, what happens under its name, or a restart. -/
theorem World.step_cell {P : Cell → Prop} {s : World} {i : Input} {name : String} (h : P (s name))
    (hop : ∀ op, i = .on name op → P ((s name).step op)) (hrestart : P (s name).restart) :
    P (s.step i name) := by
  cases i with
  | on name' op =>
    rw [World.step]
    by_cases hname : name = name'
    · subst hname
      rw [Function.update_self]
      exact hop op rfl
    · rw [Function.update_of_ne hname]
      exact h
  | restart => exact hrestart

def cluster : Machine World Input Unit := ⟨fun s i => (s.step i, ())⟩

/-! ## 4. What the controllers can do -/

/-- **What seeing a Namespace can do**: nothing, pass over a deletion, or apply the Project. -/
inductive SeesNamespace (c : Cell) (answer : Answer) : Cell → Prop
  /-- Nothing is left to see, or the request failed. -/
  | idle (hno : ∀ ns rest, c.nsFeed = some ns :: rest → answer = .failed ∨
      ∃ proj, c.proj = some proj ∧ proj.own.conflicts (mirror ns) = true) :
      SeesNamespace c answer c
  | passed {rest : List (Option Namespace)} (hfeed : c.nsFeed = none :: rest) :
      SeesNamespace c answer { c with nsFeed := rest }
  /-- The Project is applied; the call is made once more if the answer was lost. -/
  | applied {ns : Namespace} {rest feed : List (Option Namespace)}
      (hfeed : c.nsFeed = some ns :: rest) (hanswer : answer ≠ .failed)
      (hafter : feed = rest ∨ feed = c.nsFeed) :
      SeesNamespace c answer
        { (c.setProj (some ⟨(c.proj.map ProjectObject.own).getD ⟨[], none⟩,
          some (mirror ns)⟩)) with nsFeed := feed }

theorem sees_namespace (c : Cell) (answer : Answer) :
    SeesNamespace c answer (c.seeNamespace answer) := by
  rw [Cell.seeNamespace]
  cases hfeed : c.nsFeed with
  | nil =>
    refine .idle fun ns rest heq => ?_
    rw [hfeed] at heq
    cases heq
  | cons state rest =>
    cases state with
    | none => exact .passed hfeed
    | some ns =>
      dsimp only
      rw [Cell.reconcileNamespace]
      by_cases hanswer : answer = .failed
      · rw [if_pos hanswer]
        exact .idle fun _ _ _ => Or.inl hanswer
      · rw [if_neg hanswer, Cell.apply]
        -- what is left of the feed once the Project has been applied
        have hafter : ∀ proj : ProjectObject,
            proj = ⟨(c.proj.map ProjectObject.own).getD ⟨[], none⟩, some (mirror ns)⟩ →
            SeesNamespace c answer (if (decide (answer = .ok)) = true
              then { c.setProj (some proj) with nsFeed := (c.setProj (some proj)).nsFeed.tail }
              else c.setProj (some proj)) := by
          rintro proj rfl
          split
          · exact .applied hfeed hanswer (Or.inl (by rw [Cell.setProj, hfeed]; rfl))
          · exact .applied hfeed hanswer (Or.inr rfl)
        cases hproj : c.proj with
        | none => exact hafter _ (by rw [hproj]; rfl)
        | some proj =>
          dsimp only
          split
          · rename_i hconflict
            refine .idle fun ns' rest' heq => Or.inr ⟨proj, hproj, ?_⟩
            rw [hfeed] at heq
            cases heq
            exact hconflict
          · exact hafter _ (by rw [hproj]; rfl)

/-- **What seeing a Project can do**: nothing, pass over it, or create the Namespace. -/
inductive SeesProject (c : Cell) (answer : Answer) : Cell → Prop
  | idle (hno : c.projFeed = [] ∨ answer ≠ .ok) : SeesProject c answer c
  | passed {state : Option ProjectObject} {rest : List (Option ProjectObject)}
      (hfeed : c.projFeed = state :: rest) (hno : state = none ∨ c.ns ≠ none) :
      SeesProject c answer { c with projFeed := rest }
  | created {proj : ProjectObject} {rest feed : List (Option ProjectObject)}
      (hfeed : c.projFeed = some proj :: rest) (habsent : c.ns = none)
      (hafter : feed = rest ∨ feed = c.projFeed) :
      SeesProject c answer
        { (c.setNs (some ⟨some proj.labels, some "Active", false⟩)) with projFeed := feed }

theorem sees_project (c : Cell) (answer : Answer) :
    SeesProject c answer (c.seeProject answer) := by
  rw [Cell.seeProject]
  cases hfeed : c.projFeed with
  | nil => exact .idle (Or.inl hfeed)
  | cons state rest =>
    cases state with
    | none => exact .passed hfeed (Or.inl rfl)
    | some proj =>
      dsimp only
      rw [Cell.reconcileProject]
      by_cases hanswer : answer = .failed
      · rw [if_pos hanswer]
        exact .idle (Or.inr (by rw [hanswer]; exact Answer.noConfusion))
      · rw [if_neg hanswer]
        cases hns : c.ns with
        | some ns =>
          dsimp only
          split
          · rw [hfeed]
            exact .passed hfeed (Or.inr (by simp [hns]))
          · rename_i hok
            exact .idle (Or.inr (by simpa using hok))
        | none =>
          dsimp only
          split
          · exact .created hfeed hns (Or.inl (by rw [Cell.setNs, hfeed]; rfl))
          · exact .created hfeed hns (Or.inr rfl)

end Picoshift.Project

/-
# Do Projects mirror Namespaces, and do deleted Namespaces stay away?

What the two controllers never do is delete.  The Project of a Namespace outlives it, and a Project
without a Namespace is, to `reconcile_project`, a request for one.  Both questions about the pair
have the same answer.

* **Deleted Namespaces.**  A Namespace that is gone stays away, as long as the user does not ask for
  it, exactly when no Project of its name exists and the controllers have seen the last of both
  (`stays_away_iff`).  A mirrored Namespace always comes back with the next restart.
* **The mirror.**  Once the controllers have seen everything, Projects and Namespaces agree exactly
  when no Namespace that has been mirrored is gone (`mirrors_iff`).  For a Namespace that exists the
  mirror is right: the last state of it that is to be seen is the present one (`Synced`).
-/
import Mathlib.Logic.Function.Iterate
import Picoshift.Project.Controller

namespace Picoshift.Project

/-! ## 1. A name that nobody remembers -/

/-- Neither object exists, and none is to be seen any more. -/
structure Gone (c : Cell) : Prop where
  ns : c.ns = none
  proj : c.proj = none
  nsFeed : ∀ ns, some ns ∉ c.nsFeed
  projFeed : ∀ proj, some proj ∉ c.projFeed

/-- The user asks for the Namespace or the Project. -/
def Op.Asks : Op → Prop
  | .createNamespace _ => True
  | .createProject _ => True
  | _ => False

theorem mem_of_mem_skip {α : Type} {l : List α} {a : α} (h : a ∈ skip l) : a ∈ l := by
  match l with
  | [] => exact h
  | [_] => exact h
  | _ :: _ :: _ => exact List.mem_cons_of_mem _ h

/-- **What a step keeps.** -/
theorem Gone.step {c : Cell} (h : Gone c) {op : Op} (hop : ¬ op.Asks) : Gone (c.step op) := by
  cases op with
  | createNamespace labels => exact absurd trivial hop
  | createProject own => exact absurd trivial hop
  | labelNamespace labels => rw [Cell.step, h.ns]; exact h
  | setPhase phase => rw [Cell.step, h.ns]; exact h
  | deleteNamespace => rw [Cell.step, h.ns]; exact h
  | finalizeNamespace => rw [Cell.step, h.ns]; exact h
  | deleteProject => rw [Cell.step, h.proj]; exact h
  | seeNamespace answer =>
    have hsees := sees_namespace c answer
    rw [Cell.step]
    generalize c.seeNamespace answer = c' at hsees ⊢
    cases hsees with
    | idle _ => exact h
    | passed hfeed =>
      refine ⟨h.ns, h.proj, fun ns hns => h.nsFeed ns ?_, h.projFeed⟩
      rw [hfeed]
      exact List.mem_cons_of_mem _ hns
    | applied hfeed _ _ => exact absurd (hfeed ▸ List.mem_cons_self) (h.nsFeed _)
  | seeProject answer =>
    have hsees := sees_project c answer
    rw [Cell.step]
    generalize c.seeProject answer = c' at hsees ⊢
    cases hsees with
    | idle _ => exact h
    | passed hfeed _ =>
      refine ⟨h.ns, h.proj, h.nsFeed, fun proj hproj => h.projFeed proj ?_⟩
      rw [hfeed]
      exact List.mem_cons_of_mem _ hproj
    | created hfeed _ _ => exact absurd (hfeed ▸ List.mem_cons_self) (h.projFeed _)
  | skipNamespace =>
    exact ⟨h.ns, h.proj, fun ns hns => h.nsFeed ns (mem_of_mem_skip hns), h.projFeed⟩
  | skipProject =>
    exact ⟨h.ns, h.proj, h.nsFeed, fun proj hproj => h.projFeed proj (mem_of_mem_skip hproj)⟩

theorem Gone.restart {c : Cell} (h : Gone c) : Gone c.restart := by
  refine ⟨h.ns, h.proj, ?_, ?_⟩
  · intro ns hns
    rw [Cell.restart, h.ns] at hns
    cases hns
  · intro proj hproj
    rw [Cell.restart, h.proj] at hproj
    cases hproj

/-- The user does not ask for this Namespace or Project. -/
def Unasked (name : String) (run : List Input) : Prop :=
  ∀ op, .on name op ∈ run → ¬ op.Asks

theorem Gone.exec {name : String} {run : List Input} (hrun : Unasked name run) {s : World}
    (h : Gone (s name)) : Gone (cluster.exec s run name) := by
  induction run generalizing s with
  | nil => exact h
  | cons i run ih =>
    refine ih (fun op hop => hrun op (List.mem_cons_of_mem _ hop)) ?_
    refine World.step_cell h (fun op hi => h.step (hrun op ?_)) h.restart
    rw [hi]
    exact List.mem_cons_self

/-! ## 2. A name that is remembered -/

/-- Steps under one name, one after the other. -/
theorem exec_replicate (s : World) (name : String) (op : Op) (n : Nat) :
    cluster.exec s (List.replicate n (.on name op)) name =
      (fun c : Cell => c.step op)^[n] (s name) := by
  induction n generalizing s with
  | zero => rfl
  | succ n ih =>
    rw [List.replicate_succ, Machine.exec, ih, Function.iterate_succ_apply]
    exact congrArg _ (Function.update_self _ _ _)

theorem unasked_replicate (name : String) (op : Op) (hop : ¬ op.Asks) (n : Nat) :
    Unasked name (List.replicate n (.on name op)) := by
  intro op' hmem
  cases (List.mem_replicate.mp hmem).2
  exact hop

theorem Unasked.append {name : String} {run run' : List Input} (h : Unasked name run)
    (h' : Unasked name run') : Unasked name (run ++ run') :=
  fun op hop => (List.mem_append.mp hop).elim (h op) (h' op)

/-- Working off a feed comes to a state that is in it: a step passes over an entry that is none (`hskip`),
and reaches its goal at the first one that is some (`hgoal`). -/
theorem exists_iterate_of_feed {σ β : Type} (feed : σ → List (Option β)) {f : σ → σ} (Inv Goal : σ → Prop)
    (hskip : ∀ c rest, Inv c → feed c = none :: rest → Inv (f c) ∧ feed (f c) = rest)
    (hgoal : ∀ c b rest, Inv c → feed c = some b :: rest → Goal (f c))
    {c : σ} (hc : Inv c) {b : β} (hmem : some b ∈ feed c) : ∃ n, Goal (f^[n] c) := by
  induction hfeed : feed c generalizing c with
  | nil =>
    rw [hfeed] at hmem
    cases hmem
  | cons state rest ih =>
    cases state with
    | none =>
      obtain ⟨hinv, hrest⟩ := hskip c rest hc hfeed
      rw [hfeed] at hmem
      have hlater : some b ∈ feed (f c) :=
        hrest ▸ (List.mem_cons.mp hmem).resolve_left (Option.some_ne_none _)
      obtain ⟨n, hn⟩ := ih hinv hlater hrest
      exact ⟨n + 1, by rwa [Function.iterate_succ_apply]⟩
    | some first => exact ⟨1, hgoal c first rest hc hfeed⟩

/-- A state of a Project that is still to be seen brings the Namespace. -/
theorem exists_ns_of_projFeed {c : Cell} (habsent : c.ns = none) {proj : ProjectObject}
    (hmem : some proj ∈ c.projFeed) :
    ∃ n, ((fun c : Cell => c.step (.seeProject .ok))^[n] c).ns ≠ none := by
  refine exists_iterate_of_feed Cell.projFeed (fun c => c.ns = none) (fun c => c.ns ≠ none) ?_ ?_ habsent
    hmem
  · intro c rest hc hfeed
    have hstep : c.step (.seeProject .ok) = { c with projFeed := rest } := by
      rw [Cell.step, Cell.seeProject, hfeed]
    exact hstep ▸ ⟨hc, rfl⟩
  · intro c first rest hc hfeed
    simp [Cell.step, Cell.seeProject, hfeed, Cell.reconcileProject, hc, Cell.setNs]

/-- A state of a Namespace that is still to be seen brings the Project. -/
theorem exists_proj_of_nsFeed {c : Cell} (habsent : c.proj = none) {ns : Namespace}
    (hmem : some ns ∈ c.nsFeed) :
    ∃ n, ((fun c : Cell => c.step (.seeNamespace .ok))^[n] c).proj ≠ none ∧
      ((fun c : Cell => c.step (.seeNamespace .ok))^[n] c).ns = c.ns := by
  refine exists_iterate_of_feed Cell.nsFeed (fun c' => c'.proj = none ∧ c'.ns = c.ns)
    (fun c' => c'.proj ≠ none ∧ c'.ns = c.ns) ?_ ?_ ⟨habsent, rfl⟩ hmem
  · intro c' rest hc' hfeed
    have hstep : c'.step (.seeNamespace .ok) = { c' with nsFeed := rest } := by
      rw [Cell.step, Cell.seeNamespace, hfeed]
    exact hstep ▸ ⟨hc', rfl⟩
  · intro c' first rest hc' hfeed
    simp [Cell.step, Cell.seeNamespace, hfeed, Cell.reconcileNamespace, Cell.apply, hc'.1, hc'.2,
      Cell.setProj]

section Revival

variable {s : World} {name : String} (habsent : (s name).ns = none)
include habsent

theorem exists_revival_of_projFeed {proj : ProjectObject} (hmem : some proj ∈ (s name).projFeed) :
    ∃ run, Unasked name run ∧ (cluster.exec s run name).ns ≠ none := by
  obtain ⟨n, hn⟩ := exists_ns_of_projFeed habsent hmem
  exact ⟨_, unasked_replicate name (.seeProject .ok) id n, by rwa [exec_replicate]⟩

/-- A Project without a Namespace gets one after the next restart. -/
theorem exists_revival_of_proj (hproj : (s name).proj ≠ none) :
    ∃ run, Unasked name run ∧ (cluster.exec s run name).ns ≠ none := by
  obtain ⟨proj, hproj⟩ := Option.ne_none_iff_exists'.mp hproj
  have hmem : some proj ∈ (cluster.exec s [.restart] name).projFeed := by
    change some proj ∈ (s name).restart.projFeed
    rw [Cell.restart, hproj]
    exact List.mem_cons_self
  obtain ⟨run, hrun, hns⟩ := exists_revival_of_projFeed (s := cluster.exec s [.restart]) habsent hmem
  refine ⟨[.restart] ++ run, Unasked.append (fun op hop => ?_) hrun, ?_⟩
  · cases List.mem_singleton.mp hop
  · rwa [cluster.exec_append]

theorem exists_revival_of_nsFeed {ns : Namespace} (hmem : some ns ∈ (s name).nsFeed) :
    ∃ run, Unasked name run ∧ (cluster.exec s run name).ns ≠ none := by
  by_cases hproj : (s name).proj = none
  · obtain ⟨n, hn, hsame⟩ := exists_proj_of_nsFeed hproj hmem
    have hfirst := unasked_replicate name (.seeNamespace .ok) id n
    rw [← exec_replicate] at hn hsame
    obtain ⟨run, hrun, hns⟩ := exists_revival_of_proj (hsame.trans habsent) hn
    refine ⟨_, hfirst.append hrun, ?_⟩
    rwa [cluster.exec_append]
  · exact exists_revival_of_proj habsent hproj

end Revival

/-- **A Namespace that is gone stays away until the user asks for it or for a Project of its name,
exactly when there is no such Project and no earlier state of either is still to be seen.** -/
theorem stays_away_iff (s : World) (name : String) (habsent : (s name).ns = none) :
    (∀ run, Unasked name run → (cluster.exec s run name).ns = none) ↔
      (s name).proj = none ∧ (∀ ns, some ns ∉ (s name).nsFeed) ∧
        ∀ proj, some proj ∉ (s name).projFeed := by
  constructor
  · intro hstays
    have hno : ¬ ∃ run, Unasked name run ∧ (cluster.exec s run name).ns ≠ none :=
      fun ⟨run, hrun, hns⟩ => hns (hstays run hrun)
    refine ⟨?_, fun ns hns => hno (exists_revival_of_nsFeed habsent hns),
      fun proj hproj => hno (exists_revival_of_projFeed habsent hproj)⟩
    by_contra hproj
    exact hno (exists_revival_of_proj habsent hproj)
  · rintro ⟨hproj, hns, hprojFeed⟩ run hrun
    exact (Gone.exec hrun ⟨habsent, hproj, hns, hprojFeed⟩).ns

/-- A Namespace is created and mirrored, deleted, and everything is seen. -/
def deletedRun : List Input :=
  [.on "ml" (.createNamespace none), .on "ml" (.seeNamespace .ok), .on "ml" (.seeProject .ok),
    .on "ml" .deleteNamespace, .on "ml" (.seeNamespace .ok), .on "ml" (.seeProject .ok),
    .on "ml" .finalizeNamespace, .on "ml" (.seeNamespace .ok)]

theorem stays_away_iff_deletedRun :
    (∀ run, Unasked "ml" run →
      (cluster.exec (cluster.exec World.init deletedRun) run "ml").ns = none) ↔
    (cluster.exec World.init deletedRun "ml").proj = none ∧
      (∀ ns, some ns ∉ (cluster.exec World.init deletedRun "ml").nsFeed) ∧
      ∀ proj, some proj ∉ (cluster.exec World.init deletedRun "ml").projFeed :=
  stays_away_iff _ _ (by decide +kernel)

/-- The Namespace comes back with the next restart. -/
theorem comes_back_deletedRun :
    ¬ ∀ run, Unasked "ml" run →
      (cluster.exec (cluster.exec World.init deletedRun) run "ml").ns = none := by
  intro hstays
  have habsent : (cluster.exec World.init deletedRun "ml").ns = none := by decide +kernel
  obtain ⟨run, hrun, hns⟩ := exists_revival_of_proj habsent (by decide +kernel)
  exact hns (hstays run hrun)

/-! ## 3. The mirror of a Namespace that exists -/

/-- The user does not create or delete Projects. -/
def Op.ByNamespace : Op → Prop
  | .createProject _ => False
  | .deleteProject => False
  | _ => True

/-- A Project that carries what `reconcile_namespace` says of it, and nothing else. -/
def Carries (proj : Option ProjectObject) (ns : Namespace) : Prop :=
  proj = some ⟨⟨[], none⟩, some (mirror ns)⟩

/-- All Projects come from the controller, and the last state of a Namespace that is to be seen is
the present one; when there is none to be seen, the Project carries it. -/
structure Synced (c : Cell) : Prop where
  plain : ∀ proj, c.proj = some proj → proj.own = ⟨[], none⟩
  phase : ∀ ns, c.ns = some ns → ns.phase.isSome = true
  current : ∀ ns, c.ns = some ns →
    c.nsFeed.getLast? = some (some ns) ∨ (c.nsFeed = [] ∧ Carries c.proj ns)

/-- A change of the Namespace is the last state to be seen. -/
theorem Synced.setNs {c : Cell} (h : Synced c) {ns : Option Namespace}
    (hphase : ∀ ns', ns = some ns' → ns'.phase.isSome = true) : Synced (c.setNs ns) where
  plain := h.plain
  phase := hphase
  current ns' hns' := by
    left
    rw [Cell.setNs, List.getLast?_append, List.getLast?_singleton]
    exact congrArg some hns'

theorem getLast?_skip {α : Type} (l : List α) : (skip l).getLast? = l.getLast? := by
  match l with
  | [] => rfl
  | [_] => rfl
  | _ :: _ :: _ => exact (List.getLast?_cons_cons ..).symm

theorem skip_eq_nil {α : Type} {l : List α} : skip l = [] ↔ l = [] := by
  match l with
  | [] => simp [skip]
  | [_] => simp [skip]
  | _ :: _ :: _ => simp [skip]

/-- The own fields of a Project that is there are empty, and those of one that is not. -/
theorem Synced.own {c : Cell} (h : Synced c) :
    (c.proj.map ProjectObject.own).getD ⟨[], none⟩ = ⟨[], none⟩ := by
  cases hproj : c.proj with
  | none => rfl
  | some proj => exact h.plain proj hproj

/-- What is left of a feed without its first state ends in the same one. -/
theorem getLast?_of_cons {α : Type} {a b : α} {l : List α} (h : (a :: l).getLast? = some b) :
    l.getLast? = some b ∨ (l = [] ∧ a = b) := by
  cases l with
  | nil => exact Or.inr ⟨rfl, Option.some.inj h⟩
  | cons a' l => exact Or.inl (by rwa [List.getLast?_cons_cons] at h)

theorem Synced.seeNamespace {c : Cell} (h : Synced c) (answer : Answer) :
    Synced (c.seeNamespace answer) := by
  have hsees := sees_namespace c answer
  generalize c.seeNamespace answer = c' at hsees ⊢
  cases hsees with
  | idle _ => exact h
  | passed hfeed =>
    refine ⟨h.plain, h.phase, fun ns hns => ?_⟩
    rcases h.current ns hns with hlast | ⟨hnil, -⟩
    · rw [hfeed] at hlast
      rcases getLast?_of_cons hlast with hlast | ⟨-, heq⟩
      · exact Or.inl hlast
      · cases heq
    · rw [hfeed] at hnil
      cases hnil
  | @applied seen rest feed hfeed _ hafter =>
    refine ⟨?_, h.phase, fun ns hns => ?_⟩
    · intro proj hproj
      obtain rfl := Option.some.inj hproj
      exact h.own
    · rcases h.current ns hns with hlast | ⟨hnil, -⟩
      · rcases hafter with rfl | rfl
        · -- the state that was seen is gone; if it was the last one, the Project carries it
          rw [hfeed] at hlast
          rcases getLast?_of_cons hlast with hlast | ⟨hnil, heq⟩
          · exact Or.inl hlast
          · obtain rfl := Option.some.inj heq
            refine Or.inr ⟨hnil, ?_⟩
            rw [Carries, Cell.setProj, h.own]
        · exact Or.inl hlast
      · rw [hfeed] at hnil
        cases hnil

theorem Synced.seeProject {c : Cell} (h : Synced c) (answer : Answer) :
    Synced (c.seeProject answer) := by
  have hsees := sees_project c answer
  generalize c.seeProject answer = c' at hsees ⊢
  cases hsees with
  | idle _ => exact h
  | passed _ _ => exact ⟨h.plain, h.phase, h.current⟩
  | @created proj _ _ _ _ _ =>
    have hset : Synced (c.setNs (some ⟨some proj.labels, some "Active", false⟩)) :=
      h.setNs fun _ heq => Option.some.inj heq ▸ rfl
    exact ⟨hset.plain, hset.phase, hset.current⟩

/-- **What a step keeps.** -/
theorem Synced.step {c : Cell} (h : Synced c) {op : Op} (hop : op.ByNamespace) :
    Synced (c.step op) := by
  cases op with
  | createNamespace labels =>
    rw [Cell.step]
    split
    · exact h
    · exact h.setNs fun _ heq => Option.some.inj heq ▸ rfl
  | labelNamespace labels =>
    rw [Cell.step]
    split
    · rename_i ns hns
      exact h.setNs fun _ heq => Option.some.inj heq ▸ h.phase ns hns
    · exact h
  | setPhase phase =>
    rw [Cell.step]
    split
    · exact h.setNs fun _ heq => Option.some.inj heq ▸ rfl
    · exact h
  | deleteNamespace =>
    rw [Cell.step]
    split
    · exact h.setNs fun _ heq => Option.some.inj heq ▸ rfl
    · exact h
  | finalizeNamespace =>
    rw [Cell.step]
    split
    · split
      · exact h.setNs nofun
      · exact h
    · exact h
  | createProject own => exact absurd hop id
  | deleteProject => exact absurd hop id
  | seeNamespace answer => exact h.seeNamespace answer
  | seeProject answer => exact h.seeProject answer
  | skipNamespace =>
    refine ⟨h.plain, h.phase, fun ns hns => ?_⟩
    rcases h.current ns hns with hlast | ⟨hnil, hcarries⟩
    · exact Or.inl ((getLast?_skip _).trans hlast)
    · exact Or.inr ⟨skip_eq_nil.mpr hnil, hcarries⟩
  | skipProject => exact ⟨h.plain, h.phase, h.current⟩

theorem Synced.restart {c : Cell} (h : Synced c) : Synced c.restart := by
  refine ⟨h.plain, h.phase, fun ns hns => Or.inl ?_⟩
  rw [Cell.restart, show c.ns = some ns from hns]
  rfl

theorem synced_empty : Synced Cell.empty := ⟨nofun, nofun, nofun⟩

/-! ## 4. Which Projects there are -/

/-- The run has only operations on Namespaces, besides what the controllers do. -/
def ByNamespace (run : List Input) : Prop := ∀ name op, .on name op ∈ run → op.ByNamespace

/-- The step is a call of `reconcile_namespace` that applies the Project of this name. -/
def Applies (e : Entry World Input Unit) (name : String) : Prop :=
  ∃ answer ≠ Answer.failed, e.input = .on name (.seeNamespace answer) ∧
    ∃ ns, (e.before name).nsFeed.head? = some (some ns)

/-- Only a call of `reconcile_namespace` touches the Project. -/
theorem step_proj (c : Cell) {op : Op} (hop : op.ByNamespace)
    (hno : ∀ answer, op ≠ .seeNamespace answer) : (c.step op).proj = c.proj := by
  cases op with
  | createProject own => exact absurd hop id
  | deleteProject => exact absurd hop id
  | seeNamespace answer => exact absurd rfl (hno answer)
  | seeProject answer =>
    have hsees := sees_project c answer
    rw [Cell.step]
    generalize c.seeProject answer = c' at hsees ⊢
    cases hsees with
    | idle _ => rfl
    | passed _ _ => rfl
    | created _ _ _ => rfl
  | finalizeNamespace =>
    rw [Cell.step]
    split
    · split <;> rfl
    · rfl
  | createNamespace _ => rw [Cell.step]; split <;> rfl
  | labelNamespace _ => rw [Cell.step]; split <;> rfl
  | setPhase _ => rw [Cell.step]; split <;> rfl
  | deleteNamespace => rw [Cell.step]; split <;> rfl
  | skipNamespace => rfl
  | skipProject => rfl

/-- After such a call there is a Project exactly when there was one or the call applied it. -/
theorem seeNamespace_proj (c : Cell) (answer : Answer) :
    (c.seeNamespace answer).proj ≠ none ↔
      c.proj ≠ none ∨ (answer ≠ .failed ∧ ∃ ns, c.nsFeed.head? = some (some ns)) := by
  have hsees := sees_namespace c answer
  generalize c.seeNamespace answer = c' at hsees ⊢
  cases hsees with
  | idle hno =>
    refine ⟨Or.inl, fun hor => hor.elim id ?_⟩
    rintro ⟨hanswer, ns, hhead⟩
    obtain ⟨rest, hfeed⟩ := List.head?_eq_some_iff.mp hhead
    rcases hno ns rest hfeed with hfailed | ⟨proj, hproj, -⟩
    · exact absurd hfailed hanswer
    · rw [hproj]
      exact nofun
  | passed hfeed => simp [hfeed]
  | applied hfeed hanswer _ => simp [hfeed, hanswer, Cell.setProj]

theorem applies_entry {s : World} {i : Input} {name : String} :
    Applies (cluster.entry s i) name ↔ ∃ answer, i = .on name (.seeNamespace answer) ∧
      answer ≠ .failed ∧ ∃ ns, (s name).nsFeed.head? = some (some ns) := by
  constructor
  · rintro ⟨answer, hanswer, hi, hns⟩
    exact ⟨answer, hi, hanswer, hns⟩
  · rintro ⟨answer, hi, hanswer, hns⟩
    exact ⟨answer, hanswer, hi, hns⟩

/-- After a step there is a Project exactly when there was one or the step applied it. -/
theorem step_proj_ne_none {s : World} {i : Input} (hi : ∀ name op, i = .on name op → op.ByNamespace)
    (name : String) :
    (s.step i name).proj ≠ none ↔ (s name).proj ≠ none ∨ Applies (cluster.entry s i) name := by
  rw [applies_entry]
  by_cases hsees : ∃ answer, i = .on name (.seeNamespace answer)
  · obtain ⟨answer, rfl⟩ := hsees
    rw [World.step, Function.update_self, Cell.step, seeNamespace_proj]
    simp
  · -- nothing else touches the Project
    have hsame : (s.step i name).proj = (s name).proj := by
      refine World.step_cell (P := fun c => c.proj = (s name).proj) rfl (fun op heq => ?_) rfl
      refine step_proj _ (hi name op heq) fun answer hop => hsees ⟨answer, ?_⟩
      rw [heq, hop]
    rw [hsame]
    refine ⟨Or.inl, fun hor => hor.resolve_right ?_⟩
    rintro ⟨answer, heq, -⟩
    exact hsees ⟨answer, heq⟩

/-- The cells are in sync, and the Projects that exist after a history are those that were applied
in it. -/
structure Traced (h : List (Entry World Input Unit)) (s : World) : Prop where
  synced : ∀ name, Synced (s name)
  applied : ∀ name, (s name).proj ≠ none ↔ ∃ e ∈ h, Applies e name

theorem Traced.step {h : List (Entry World Input Unit)} {s : World} (ht : Traced h s) {i : Input}
    (hi : ∀ name op, i = .on name op → op.ByNamespace) :
    Traced (h ++ [cluster.entry s i]) (s.step i) := by
  refine ⟨fun name => ?_, fun name => ?_⟩
  · have hsynced := ht.synced name
    exact World.step_cell hsynced (fun op heq => hsynced.step (hi name op heq)) hsynced.restart
  · rw [step_proj_ne_none hi, ht.applied name]
    simp only [List.mem_append, List.mem_singleton, or_and_right, exists_or, exists_eq_left]

theorem traced (run : List Input) (hrun : ByNamespace run) :
    Traced (cluster.trace World.init run) (cluster.exec World.init run) := by
  induction run using List.reverseRecOn with
  | nil => exact ⟨fun _ => synced_empty, fun _ => by simp [World.init, Cell.empty]⟩
  | append_singleton run i ih =>
    rw [cluster.trace_append_singleton, cluster.exec_append_singleton]
    have hbefore := ih fun name op hop => hrun name op (List.mem_append_left _ hop)
    refine hbefore.step fun name op heq => hrun name op (List.mem_append_right _ ?_)
    rw [heq]
    exact List.mem_singleton_self _

/-! ## 5. The mirror -/

/-- The controllers have seen everything. -/
def Quiet (s : World) : Prop := ∀ name, (s name).nsFeed = [] ∧ (s name).projFeed = []

/-- The Projects are those of the Namespaces, with their labels and phases. -/
structure Mirrors (s : World) : Prop where
  names : ∀ name, (s name).proj ≠ none ↔ (s name).ns ≠ none
  labels : ∀ name proj ns, (s name).proj = some proj → (s name).ns = some ns →
    proj.labels = ns.labels.getD []
  phase : ∀ name proj ns, (s name).proj = some proj → (s name).ns = some ns →
    proj.phase = ns.phase

/-- In a quiet cluster the Project of a Namespace carries it. -/
theorem Synced.carries {c : Cell} (h : Synced c) (hquiet : c.nsFeed = []) {ns : Namespace}
    (hns : c.ns = some ns) : Carries c.proj ns := by
  rcases h.current ns hns with hlast | ⟨-, hcarries⟩
  · rw [hquiet] at hlast
    cases hlast
  · exact hcarries

/-- A Project that carries a Namespace has its labels and its phase. -/
theorem Carries.fields {proj : ProjectObject} {ns : Namespace} (h : Carries (some proj) ns)
    (hphase : ns.phase.isSome = true) :
    proj.labels = ns.labels.getD [] ∧ proj.phase = ns.phase := by
  obtain rfl := Option.some.inj h
  obtain ⟨phase, hphase⟩ := Option.isSome_iff_exists.mp hphase
  simp [ProjectObject.labels, ProjectObject.phase, mirror, hphase]

/-- **In a quiet cluster the Projects mirror the Namespaces exactly when every Namespace that has
been mirrored is still there.** -/
theorem mirrors_iff (run : List Input) (hrun : ByNamespace run)
    (hquiet : Quiet (cluster.exec World.init run)) :
    Mirrors (cluster.exec World.init run) ↔
      ∀ e ∈ cluster.trace World.init run, ∀ name, Applies e name →
        (cluster.exec World.init run name).ns ≠ none := by
  have htraced := traced run hrun
  generalize cluster.exec World.init run = s at *
  constructor
  · intro hmirrors e he name happlies
    exact (hmirrors.names name).mp ((htraced.applied name).mpr ⟨e, he, happlies⟩)
  · intro hthere
    have hcarries : ∀ name ns, (s name).ns = some ns → Carries (s name).proj ns :=
      fun name ns hns => (htraced.synced name).carries (hquiet name).1 hns
    have hfields : ∀ name proj ns, (s name).proj = some proj → (s name).ns = some ns →
        proj.labels = ns.labels.getD [] ∧ proj.phase = ns.phase := by
      intro name proj ns hproj hns
      exact Carries.fields (hproj ▸ hcarries name ns hns) ((htraced.synced name).phase ns hns)
    refine ⟨fun name => ⟨fun hproj => ?_, fun hns => ?_⟩,
      fun name proj ns hproj hns => (hfields name proj ns hproj hns).1,
      fun name proj ns hproj hns => (hfields name proj ns hproj hns).2⟩
    · obtain ⟨e, he, happlies⟩ := (htraced.applied name).mp hproj
      exact hthere e he name happlies
    · obtain ⟨ns, hns⟩ := Option.ne_none_iff_exists'.mp hns
      rw [hcarries name ns hns]
      exact nofun

theorem quiet_deletedRun : Quiet (cluster.exec World.init deletedRun) := by
  intro name
  by_cases hname : name = "ml"
  · subst hname
    decide +kernel
  · have hsame : cluster.exec World.init deletedRun name = Cell.empty := by
      simp [deletedRun, Machine.exec, cluster, World.step, Function.update_of_ne hname, World.init]
    rw [hsame]
    exact ⟨rfl, rfl⟩

theorem byNamespace_deletedRun : ByNamespace deletedRun := by
  intro name op hop
  simp only [deletedRun, List.mem_cons, Input.on.injEq, List.not_mem_nil, or_false] at hop
  rcases hop with h | h | h | h | h | h | h | h <;> rw [h.2] <;> trivial

theorem mirrors_iff_deletedRun :
    ByNamespace deletedRun ∧ Quiet (cluster.exec World.init deletedRun) ∧
      (Mirrors (cluster.exec World.init deletedRun) ↔
        ∀ e ∈ cluster.trace World.init deletedRun, ∀ name, Applies e name →
          (cluster.exec World.init deletedRun name).ns ≠ none) :=
  ⟨byNamespace_deletedRun, quiet_deletedRun,
    mirrors_iff _ byNamespace_deletedRun quiet_deletedRun⟩

/-- The Project is left over. -/
theorem not_mirrors_deletedRun :
    ¬ ∀ run, ByNamespace run → Quiet (cluster.exec World.init run) →
      Mirrors (cluster.exec World.init run) := by
  intro hall
  have hmirrors := hall deletedRun byNamespace_deletedRun quiet_deletedRun
  have hleft : (cluster.exec World.init deletedRun "ml").proj ≠ none ∧
      (cluster.exec World.init deletedRun "ml").ns = none := by decide +kernel
  exact (hmirrors.names "ml").mp hleft.1 hleft.2

end Picoshift.Project

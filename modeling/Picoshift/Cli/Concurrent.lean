/-
# User commands side by side

A user command reads the Secret, edits the text it has read and applies the result, whatever the
Secret holds by then: there is no lock, and no version goes with the apply.  So the commands that
several people run at a time are a machine whose steps are the reads and the writes, in any order.

A write puts the text that its command READ in the place of the text that is there.  What other
commands have done in between is lost (`write_keeps_iff`), and what was done before the read is kept
(`effect_stays`).  For two commands this decides every schedule (`concurrent_effects`).
-/
import Picoshift.Cli.Credentials
import Picoshift.Lib.Machine

namespace Picoshift.Cli

/-! ## 1. The machine -/

/-- A run of a user command. -/
structure Run where
  command : Command
  env : Env

inductive Action (ι : Type) where
  | read (i : ι)
  | write (i : ι)
  deriving DecidableEq, Repr

/-- The run that acts. -/
def Action.actor {ι : Type} : Action ι → ι
  | .read i => i
  | .write i => i

/-- The text of the Secret, and what the runs that are under way have read. -/
structure Shared (ι : Type) where
  secret : String
  held : ι → Option String

def Shared.start {ι : Type} (secret : String) : Shared ι := ⟨secret, fun _ => none⟩

/-- What a run does after its read. -/
def Run.write (r : Run) (secret : String) : Option String → Outcome
  | none => ⟨secret, false⟩
  | some current => r.command.rewrite r.env secret current

/-- The output of a step says whether it succeeded. -/
def sharing {ι : Type} [DecidableEq ι] (runs : ι → Run) : Machine (Shared ι) (Action ι) Bool where
  step s
    | .read i =>
      let current := readHtpasswd (getSecret (runs i).env.readOk s.secret)
      ({ s with held := fun j => if j = i then current else s.held j }, (runs i).env.readOk)
    | .write i =>
      let outcome := (runs i).write s.secret (s.held i)
      (⟨outcome.secret, fun j => if j = i then none else s.held j⟩, outcome.ok)

/-- **A run that is not disturbed is the command.** -/
theorem exec_read_write {ι : Type} [DecidableEq ι] (runs : ι → Run) (s : Shared ι) (i : ι) :
    ((sharing runs).exec s [.read i, .write i]).secret =
      ((runs i).command.run (runs i).env s.secret).secret := by
  have hheld : ((sharing runs).step s (.read i)).1.held i =
      some (currentText (runs i).env.readOk s.secret) := by
    rw [← readHtpasswd_getSecret]
    exact if_pos rfl
  change ((runs i).write s.secret (((sharing runs).step s (.read i)).1.held i)).secret = _
  rw [hheld, Run.write, Command.run_eq]

section Runs

variable {ι : Type} [DecidableEq ι] {runs : ι → Run} {s : Shared ι} {i j : ι}

/-! ## 2. What a step does -/

@[simp] theorem step_read_secret : ((sharing runs).step s (.read i)).1.secret = s.secret := rfl

theorem step_read_held : ((sharing runs).step s (.read i)).1.held j =
    if j = i then some (currentText (runs i).env.readOk s.secret) else s.held j := by
  rw [← readHtpasswd_getSecret]
  rfl

theorem step_write_held : ((sharing runs).step s (.write i)).1.held j =
    if j = i then none else s.held j := rfl

/-- The write of `i` puts the edit of the text that `i` has read into the Secret. -/
def Wrote (runs : ι → Run) (s : Shared ι) (i : ι) : Prop :=
  ∃ current htpasswd, s.held i = some current ∧ (runs i).command.edit current = some htpasswd ∧
    applyHtpasswdSecret (runs i).env.kubectl (runs i).env.ctx htpasswd =
      some ((sharing runs).step s (.write i)).1.secret

/-- A write does so, or fails and changes nothing. -/
theorem step_write_cases (runs : ι → Run) (s : Shared ι) (i : ι) :
    Wrote runs s i ∨ ((sharing runs).step s (.write i)).2 = false ∧
      ((sharing runs).step s (.write i)).1.secret = s.secret := by
  simp only [Wrote, sharing]
  cases hheld : s.held i with
  | none => exact Or.inr ⟨rfl, rfl⟩
  | some current =>
    rw [Run.write]
    rcases Command.rewrite_cases with ⟨htpasswd, text, hedit, happly, heq⟩ | heq
    · rw [heq]
      exact Or.inl ⟨current, htpasswd, rfl, hedit, happly⟩
    · rw [heq]
      exact Or.inr ⟨rfl, rfl⟩

theorem wrote_of_ok (h : ((sharing runs).step s (.write i)).2 = true) : Wrote runs s i :=
  (step_write_cases runs s i).resolve_right fun hfailed => Bool.false_ne_true (hfailed.1.symm.trans h)

/-- The effect of a command is about its user only. -/
theorem Command.effect_congr {c : Command} {user : String} {before after : String → String → Prop}
    (h : SameOthers user before after) (hne : c.username ≠ user) :
    c.Effect before ↔ c.Effect after := by
  cases c with
  | add u p =>
    rw [Command.Effect, Command.Effect, OnlyPassword, OnlyPassword, h u hne p]
    simp only [h u hne]
  | delete u =>
    simp only [Command.Effect, h u hne]

/-- A write is made from a text on which its command is effective and keeps the others. -/
def Fit (runs : ι → Run) (s : Shared ι) : Action ι → Prop
  | .read _ => True
  | .write i => ∀ current, s.held i = some current →
      (runs i).command.Effective current ∧ (runs i).command.KeepsOthers true current

/-- A write that succeeds has the effect of its command. -/
theorem write_effect (hwrote : Wrote runs s i) (hfit : Fit runs s (.write i)) :
    (runs i).command.Effect (Accepts ((sharing runs).step s (.write i)).1.secret) := by
  obtain ⟨current, htpasswd, hheld, hedit, happly⟩ := hwrote
  have heffective := (Command.effective_iff _ _).mpr (hfit current hheld).1
  exact (Command.forall_edit_iff (Q := (runs i).command.Effect)).mpr (Or.inr heffective) htpasswd
    hedit _ _ _ happly

/-- **And it has the effects of other commands that the text had which was read**, whatever the
Secret held. -/
theorem write_keeps_iff (hwrote : Wrote runs s i) (hfit : Fit runs s (.write i))
    {current : String} (hheld : s.held i = some current)
    (hne : (runs j).command.username ≠ (runs i).command.username) :
    (runs j).command.Effect (Accepts ((sharing runs).step s (.write i)).1.secret) ↔
      (runs j).command.Effect (Accepts current) := by
  obtain ⟨current', htpasswd, hheld', hedit, happly⟩ := hwrote
  obtain rfl : current' = current := Option.some.inj (hheld'.symm.trans hheld)
  have hkeeps := (Command.keepsOthers_iff _ true _).mpr (hfit current' hheld).2
  have hsame := Command.forall_edit_iff.mpr (Or.inr hkeeps) htpasswd hedit _ _ _ happly
  exact (Command.effect_congr hsame hne).symm

/-! ## 3. What a whole schedule keeps -/

/-- The effect of `i` is there, and in every text that another run is going to edit. -/
def Reflects (runs : ι → Run) (i : ι) (s : Shared ι) : Prop :=
  (runs i).command.Effect (Accepts s.secret) ∧
    ∀ j current, s.held j = some current → (runs i).command.Effect (Accepts current)

/-- A step of another run keeps it, when reads succeed. -/
theorem Reflects.step (h : Reflects runs i s) {a : Action ι} (hfit : Fit runs s a)
    (hread : (runs a.actor).env.readOk = true)
    (hne : (runs i).command.username ≠ (runs a.actor).command.username) :
    Reflects runs i ((sharing runs).step s a).1 := by
  cases a with
  | read k =>
    refine ⟨h.1, fun j current hheld => ?_⟩
    rw [step_read_held] at hheld
    split at hheld
    · have hcurrent : currentText (runs k).env.readOk s.secret = s.secret := if_pos hread
      rw [← Option.some.inj hheld, hcurrent]
      exact h.1
    · exact h.2 j current hheld
  | write k =>
    refine ⟨?_, fun j current hheld => ?_⟩
    · rcases step_write_cases runs s k with hwrote | ⟨-, hsame⟩
      · obtain ⟨current, -, hheld, -⟩ := id hwrote
        exact (write_keeps_iff hwrote hfit hheld hne).mpr (h.2 k current hheld)
      · rw [hsame]
        exact h.1
    · rw [step_write_held] at hheld
      split at hheld
      · cases hheld
      · exact h.2 j current hheld

/-- Only runs for other users act, all reads succeed and all writes fit. -/
def OthersFit (runs : ι → Run) (i : ι) (h : List (Entry (Shared ι) (Action ι) Bool)) : Prop :=
  ∀ e ∈ h, Fit runs e.before e.input ∧ (runs e.input.actor).env.readOk = true ∧
    (runs i).command.username ≠ (runs e.input.actor).command.username

/-- **What a run has done stays**, however many others read and write after it in any order, when
none of them was under way as it wrote. -/
theorem effect_stays (hwrote : Wrote runs s i) (hfit : Fit runs s (.write i))
    (halone : ∀ j, j ≠ i → s.held j = none) (schedule : List (Action ι))
    (hothers : OthersFit runs i
      ((sharing runs).trace ((sharing runs).step s (.write i)).1 schedule)) :
    (runs i).command.Effect
      (Accepts ((sharing runs).exec ((sharing runs).step s (.write i)).1 schedule).secret) := by
  have hstart : Reflects runs i ((sharing runs).step s (.write i)).1 := by
    refine ⟨write_effect hwrote hfit, fun j current hheld => ?_⟩
    rw [step_write_held] at hheld
    split at hheld
    · cases hheld
    · rename_i hj
      rw [halone j hj] at hheld
      cases hheld
  refine ((sharing runs).run_induction (P := fun _ s => Reflects runs i s)
    (fun h e hall e' he' => hall e' (List.mem_append_left _ he')) hstart
    (fun h s a hs hall => ?_) schedule hothers).1
  obtain ⟨hfit, hread, hne⟩ := hall _ (List.mem_append_right _ (List.mem_singleton_self _))
  exact hs.step hfit hread hne

end Runs

/-! ## 4. Two runs -/

/-- The merges of `a :: as` with another list, given those of `as`. -/
def mergeCons {α : Type} (a : α) (as : List α) (rest : List α → List (List α)) :
    List α → List (List α)
  | [] => [a :: as]
  | b :: bs => (rest (b :: bs)).map (a :: ·) ++ (mergeCons a as rest bs).map (b :: ·)

/-- The lists that merge two lists. -/
def merges {α : Type} : List α → List α → List (List α)
  | [], bs => [bs]
  | a :: as, bs => mergeCons a as (merges as) bs

/-- What a run does, in order. -/
def actions (i : Bool) : List (Action Bool) := [.read i, .write i]

/-- The schedules of two runs in which `last` writes last: the other is done before, or both read
before one writes. -/
theorem schedule_cases : ∀ last : Bool, ∀ schedule ∈ merges (actions false) (actions true),
    schedule.getLast? = some (.write last) →
    schedule = [.read (!last), .write (!last), .read last, .write last] ∨
    schedule = [.read (!last), .read last, .write (!last), .write last] ∨
    schedule = [.read last, .read (!last), .write (!last), .write last] := by
  decide

/-- The last write is made from the text at the start when both have read before the first one. -/
theorem held_of_overlap (runs : Bool → Run) (secret : String) {last : Bool}
    (hread : (runs last).env.readOk = true) {before : List (Action Bool)}
    (h : before = [.read (!last), .read last, .write (!last)] ∨
      before = [.read last, .read (!last), .write (!last)]) :
    ((sharing runs).exec (.start secret) before).held last = some secret := by
  have hne : last ≠ !last := by cases last <;> decide
  have hcurrent : currentText (runs last).env.readOk secret = secret := if_pos hread
  rcases h with rfl | rfl
  · simp only [Machine.exec, step_write_held, step_read_held, step_read_secret, if_neg hne, if_true]
    rw [Shared.start, hcurrent]
  · simp only [Machine.exec, step_write_held, step_read_held, if_neg hne, if_true]
    rw [Shared.start, hcurrent]

section Two

variable {runs : Bool → Run} {secret : String} {schedule : List (Action Bool)} {last : Bool}

/-- All steps succeed, and every write is made from a text that fits. -/
def Smooth (runs : Bool → Run) (secret : String) (schedule : List (Action Bool)) : Prop :=
  ∀ e ∈ (sharing runs).trace (.start secret) schedule, e.output = true ∧ Fit runs e.before e.input

theorem Smooth.step (h : Smooth runs secret schedule) (before : List (Action Bool))
    (a : Action Bool) (after : List (Action Bool)) (hschedule : schedule = before ++ a :: after) :
    ((sharing runs).step ((sharing runs).exec (.start secret) before) a).2 = true ∧
      Fit runs ((sharing runs).exec (.start secret) before) a := by
  subst hschedule
  exact h _ ((sharing runs).entry_mem_trace (.start secret) before a after)

/-- The last write, made from the text at the start. -/
theorem Smooth.overlap (h : Smooth runs secret schedule)
    (hne : (runs (!last)).command.username ≠ (runs last).command.username)
    {before : List (Action Bool)} (hschedule : schedule = before ++ [.write last])
    (hheld : ((sharing runs).exec (.start secret) before).held last = some secret) :
    (runs last).command.Effect (Accepts ((sharing runs).exec (.start secret) schedule).secret) ∧
      ((runs (!last)).command.Effect
          (Accepts ((sharing runs).exec (.start secret) schedule).secret) ↔
        (runs (!last)).command.Effect (Accepts secret)) := by
  obtain ⟨hok, hfit⟩ := h.step before (.write last) [] hschedule
  rw [hschedule, Machine.exec_append_singleton]
  exact ⟨write_effect (wrote_of_ok hok) hfit, write_keeps_iff (wrote_of_ok hok) hfit hheld hne⟩

/-- One after the other. -/
theorem Smooth.inTurn (h : Smooth runs secret schedule)
    (hne : (runs (!last)).command.username ≠ (runs last).command.username)
    (hschedule : schedule = [.read (!last), .write (!last), .read last, .write last]) :
    (runs last).command.Effect (Accepts ((sharing runs).exec (.start secret) schedule).secret) ∧
      (runs (!last)).command.Effect
        (Accepts ((sharing runs).exec (.start secret) schedule).secret) := by
  have hread : (runs last).env.readOk = true :=
    (h.step [.read (!last), .write (!last)] (.read last) [.write last] hschedule).1
  obtain ⟨hok, hfit⟩ := h.step [.read (!last)] (.write (!last)) [.read last, .write last] hschedule
  obtain ⟨hokLast, hfitLast⟩ :=
    h.step [.read (!last), .write (!last), .read last] (.write last) [] hschedule
  have halone : ∀ j, j ≠ !last →
      ((sharing runs).exec (.start secret) [.read (!last)]).held j = none := by
    intro j hj
    simp only [Machine.exec, step_read_held, if_neg hj]
    rfl
  have hothers : OthersFit runs (!last) ((sharing runs).trace
      ((sharing runs).exec (.start secret) [.read (!last), .write (!last)])
      [.read last, .write last]) := by
    intro e he
    rcases List.mem_cons.mp he with rfl | he
    · exact ⟨trivial, hread, hne⟩
    · rw [List.mem_singleton.mp he]
      exact ⟨hfitLast, hread, hne⟩
  rw [hschedule]
  exact ⟨write_effect (wrote_of_ok hokLast) hfitLast,
    effect_stays (wrote_of_ok hok) hfit halone [.read last, .write last] hothers⟩

end Two

/-- **Two runs for different users, all of whose steps succeed, each from a text that fits.**  The
one that writes last has its effect.  The other has it exactly when it had written before the last
one read, or when there was nothing to do. -/
theorem concurrent_effects {runs : Bool → Run} {secret : String} {schedule : List (Action Bool)}
    (hnames : (runs false).command.username ≠ (runs true).command.username)
    (hschedule : schedule ∈ merges (actions false) (actions true))
    (hok : ∀ e ∈ (sharing runs).trace (.start secret) schedule, e.output = true)
    (hfit : ∀ e ∈ (sharing runs).trace (.start secret) schedule, Fit runs e.before e.input)
    {last : Bool} (hlast : schedule.getLast? = some (.write last)) :
    (runs last).command.Effect
        (Accepts ((sharing runs).exec (.start secret) schedule).secret) ∧
      ((runs (!last)).command.Effect
          (Accepts ((sharing runs).exec (.start secret) schedule).secret) ↔
        [Action.write (!last), .read last].Sublist schedule ∨
          (runs (!last)).command.Effect (Accepts secret)) := by
  have hne : (runs (!last)).command.username ≠ (runs last).command.username := by
    cases last with
    | false => exact hnames.symm
    | true => exact hnames
  have hsmooth : Smooth runs secret schedule := fun e he => ⟨hok e he, hfit e he⟩
  rcases schedule_cases last schedule hschedule hlast with h | h | h
  · obtain ⟨heffect, hother⟩ := hsmooth.inTurn hne h
    refine ⟨heffect, ⟨fun _ => Or.inl ?_, fun _ => hother⟩⟩
    rw [h]
    cases last <;> decide
  · have hread := (hsmooth.step [.read (!last)] (.read last) [.write (!last), .write last] h).1
    obtain ⟨heffect, hiff⟩ :=
      hsmooth.overlap hne h (held_of_overlap runs secret hread (Or.inl rfl))
    have hlate : ¬ [Action.write (!last), .read last].Sublist schedule := by
      rw [h]
      cases last <;> decide
    exact ⟨heffect, hiff.trans (or_iff_right hlate).symm⟩
  · have hread := (hsmooth.step [] (.read last) [.read (!last), .write (!last), .write last] h).1
    obtain ⟨heffect, hiff⟩ :=
      hsmooth.overlap hne h (held_of_overlap runs secret hread (Or.inr rfl))
    have hlate : ¬ [Action.write (!last), .read last].Sublist schedule := by
      rw [h]
      cases last <;> decide
    exact ⟨heffect, hiff.trans (or_iff_right hlate).symm⟩

/-- alice and bob are added to an empty Secret. -/
def addingRuns : Bool → Run
  | false => ⟨.add "alice" "pa", readingEnv true⟩
  | true => ⟨.add "bob" "pb", readingEnv true⟩

theorem addingRuns_ordinary (i : Bool) : (addingRuns i).command.Ordinary := by
  cases i <;> exact ⟨by decide +kernel, by decide +kernel, by decide +kernel⟩

theorem tidy_empty : Tidy "" := tidy_of_credentials fun _ hl => Or.inl (List.mem_singleton.mp hl)

theorem tidy_alice : Tidy "alice:pa\n" := by
  have hlines : Str.splitL '\n' "alice:pa\n".toList = [credential "alice" "pa", []] := by
    decide +kernel
  refine tidy_of_credentials fun l hl => ?_
  rw [hlines] at hl
  rcases List.mem_cons.mp hl with rfl | hl
  · exact Or.inr ⟨_, _, rfl, addingRuns_ordinary false⟩
  · exact Or.inl (List.mem_singleton.mp hl)

/-- One after the other, each works on a tidy text. -/
theorem addingRuns_fit : ∀ e ∈ (sharing addingRuns).trace (.start "")
    [.read false, .write false, .read true, .write true], Fit addingRuns e.before e.input := by
  have hheld : ((sharing addingRuns).exec (.start "") [.read false]).held false = some "" := by
    decide +kernel
  have hheld' : ((sharing addingRuns).exec (.start "")
      [.read false, .write false, .read true]).held true = some "alice:pa\n" := by
    decide +kernel
  intro e he
  rcases List.mem_cons.mp he with rfl | he
  · exact trivial
  rcases List.mem_cons.mp he with rfl | he
  · intro current hcurrent
    obtain rfl := Option.some.inj (hheld.symm.trans hcurrent)
    exact (addingRuns_ordinary false).fits tidy_empty (by decide +kernel)
  rcases List.mem_cons.mp he with rfl | he
  · exact trivial
  · rw [List.mem_singleton.mp he]
    intro current hcurrent
    obtain rfl := Option.some.inj (hheld'.symm.trans hcurrent)
    exact (addingRuns_ordinary true).fits tidy_alice (by decide +kernel)

/-- One after the other: both are there. -/
theorem concurrent_effects_adding :
    (addingRuns true).command.Effect (Accepts ((sharing addingRuns).exec (.start "")
        [.read false, .write false, .read true, .write true]).secret) ∧
    (addingRuns false).command.Effect (Accepts ((sharing addingRuns).exec (.start "")
        [.read false, .write false, .read true, .write true]).secret) := by
  have houtputs : ∀ ok ∈ ((sharing addingRuns).trace (.start "")
      [.read false, .write false, .read true, .write true]).map Entry.output, ok = true := by
    decide +kernel
  have hboth := concurrent_effects (by decide +kernel) (by decide)
    (List.forall_mem_map.mp houtputs) addingRuns_fit rfl
  exact ⟨hboth.1, hboth.2.mpr (Or.inl (by decide))⟩

/-- Both have read before one writes: all steps succeed, and alice is lost. -/
theorem concurrent_lost_update :
    [.read false, .read true, .write false, .write true] ∈ merges (actions false) (actions true) ∧
    (((sharing addingRuns).trace (.start "")
        [.read false, .read true, .write false, .write true]).map Entry.output =
      [true, true, true, true]) ∧
    ¬ (addingRuns false).command.Effect (Accepts ((sharing addingRuns).exec (.start "")
        [.read false, .read true, .write false, .write true]).secret) := by
  have hfinal : ((sharing addingRuns).exec (.start "")
      [.read false, .read true, .write false, .write true]).secret = "bob:pb\n" := by
    decide +kernel
  have halice : ¬ Accepts "bob:pb\n" "alice" "pa" := by
    rw [Accepts, OAuth.UserStore.Accepts]
    decide +kernel
  refine ⟨by decide, by decide +kernel, ?_⟩
  rw [hfinal]
  exact fun heffect => halice heffect.1

end Picoshift.Cli

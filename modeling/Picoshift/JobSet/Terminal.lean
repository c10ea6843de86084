/-
# When a JobSet is declared over

A terminal state should be written once every child Job is FINISHED, that is, has the condition
`Complete` or `Failed`.  `reconcile_jobset` never looks at a condition.  It takes a Job for succeeded
as soon as one of its pods has, and for failed as soon as one of its pods has and none has
succeeded; a Job that wants three completions, or that retries, is over long before it is.

`terminal_sound_iff` says exactly when this does no harm.  The counters of the loop are the numbers
of slots by tally (`visitAll_totals`), so everything about them is arithmetic in `u32`
(`add_eq_total_iff`).
-/
import Picoshift.JobSet.Reconcile

namespace Picoshift.JobSet

/-! ## 1. What the condition of a Job says -/

def Job.hasCondition (job : Job) (type : String) : Bool :=
  ((job.status.map JobStatus.conditions).getD []).any fun c => c.type == type && c.status == "True"

/-- The Job is finished. -/
def Job.Finished (job : Job) : Prop := job.hasCondition "Complete" = true ∨ job.hasCondition "Failed" = true

/-- The terminal state is right about the children: all are finished, all are complete when it says
so, and one has failed when it says so. -/
structure TerminalSound (js : JobSetObject) (jobs : Map String Job) (slots : List Slot)
    (state : String) : Prop where
  finished : ∀ slot ∈ slots, ∃ job, jobs.get (js.jobName slot) = some job ∧ job.Finished
  completed : state = "Completed" →
    ∀ slot ∈ slots, ∃ job, jobs.get (js.jobName slot) = some job ∧ job.hasCondition "Complete" = true
  failed : state = "Failed" →
    ∃ slot ∈ slots, ∃ job, jobs.get (js.jobName slot) = some job ∧ job.hasCondition "Failed" = true

/-! ## 2. The counters -/

theorem length_eq_tallyCounts (js : JobSetObject) (jobs : Map String Job) (slots : List Slot) :
    slots.length = tallyCount js jobs slots .succeeded + tallyCount js jobs slots .failed +
      tallyCount js jobs slots .pending := by
  induction slots with
  | nil => rfl
  | cons slot slots ih =>
    simp only [tallyCount, List.length_cons, List.countP_cons] at ih ⊢
    cases tally (jobs.get (js.jobName slot)) <;> simp <;> omega

theorem ofNat_eq_zero_iff (n : Nat) : UInt32.ofNat n = 0 ↔ n % 2 ^ 32 = 0 := by
  rw [← UInt32.toNat_inj, UInt32.toNat_ofNat']
  rfl

/-- The counters add up exactly when the slots that are not counted are a multiple of 2^32. -/
theorem add_eq_total_iff (s f p : Nat) :
    UInt32.ofNat s + UInt32.ofNat f = UInt32.ofNat (s + f + p) ↔ p % 2 ^ 32 = 0 := by
  rw [UInt32.ofNat_add, UInt32.ofNat_add, ← ofNat_eq_zero_iff]
  constructor
  · intro h
    exact (UInt32.add_eq_left).mp h.symm
  · intro h
    rw [h, UInt32.add_zero]

theorem ofNat_pos_iff (n : Nat) : UInt32.ofNat n > 0 ↔ n % 2 ^ 32 ≠ 0 := by
  rw [gt_iff_lt, UInt32.lt_iff_toNat_lt, UInt32.toNat_ofNat', UInt32.toNat_zero, Nat.pos_iff_ne_zero]

/-- The slots add up: there are some, and none of them is pending.  The numbers are `u32`. -/
def Settled (js : JobSetObject) (jobs : Map String Job) (slots : List Slot) : Prop :=
  slots.length % 2 ^ 32 ≠ 0 ∧ tallyCount js jobs slots .pending % 2 ^ 32 = 0

/-- The terminal state the counters ask for. -/
def verdict (js : JobSetObject) (jobs : Map String Job) (slots : List Slot) : String :=
  if tallyCount js jobs slots .failed % 2 ^ 32 = 0 then "Completed" else "Failed"

/-- The patch after a loop that went through. -/
theorem statusPatch_terminal_iff {js : JobSetObject} {calls : Nat → SlotCall} {slots : List Slot}
    {jobs : Map String Job} {after : Loop}
    (h : visitAll js calls 0 slots ⟨jobs, 0, 0, 0⟩ = (after, true)) (now state : String) :
    (∃ p, statusPatch now after = some p ∧ p.terminalState = some state) ↔
      Settled js jobs slots ∧ state = verdict js jobs slots := by
  obtain ⟨htotal, hsucceeded, hfailed⟩ := visitAll_totals h
  simp only [UInt32.zero_add] at htotal hsucceeded hfailed
  have hsettled_iff : after.succeeded + after.failed = after.total ∧ after.total > 0 ↔
      Settled js jobs slots := by
    have hsum : after.succeeded + after.failed = after.total ↔
        tallyCount js jobs slots .pending % 2 ^ 32 = 0 := by
      rw [hsucceeded, hfailed, htotal, length_eq_tallyCounts js jobs slots, add_eq_total_iff]
    rw [hsum, htotal, ofNat_pos_iff, and_comm]
    rfl
  have hverdict : (if after.failed > 0 then "Failed" else "Completed") = verdict js jobs slots := by
    have hfpos : after.failed > 0 ↔ tallyCount js jobs slots .failed % 2 ^ 32 ≠ 0 := by
      rw [hfailed, ofNat_pos_iff]
    rw [verdict]
    by_cases hzero : tallyCount js jobs slots .failed % 2 ^ 32 = 0
    · rw [if_neg (by rw [hfpos]; exact not_not_intro hzero), if_pos hzero]
    · rw [if_pos (hfpos.mpr hzero), if_neg hzero]
  rw [statusPatch, hverdict]
  by_cases hsettled : Settled js jobs slots
  · rw [if_pos (hsettled_iff.mpr hsettled)]
    constructor
    · rintro ⟨p, hp, hstate⟩
      cases hp
      exact ⟨hsettled, (Option.some.inj hstate).symm⟩
    · rintro ⟨-, rfl⟩
      exact ⟨_, rfl, rfl⟩
  · rw [if_neg (mt hsettled_iff.mp hsettled)]
    refine iff_of_false ?_ fun hand => hsettled hand.1
    rintro ⟨p, hp, hstate⟩
    split at hp
    · cases hp
      cases hstate
    · cases hp

/-- **When a terminal state is written**: by a call whose requests all succeed, the one that the
counters ask for, and only when the slots add up. -/
theorem reconcileJobset_terminal {serde : Serde} {env : Env} {js : JobSetObject}
    {jobs : Map String Job} {p : StatusPatch} {state : String}
    (h : (reconcileJobset serde env js jobs).patch = some p) (hstate : p.terminalState = some state) :
    Settled js jobs (js.slots serde) ∧ state = verdict js jobs (js.slots serde) := by
  obtain ⟨after, hvisit, hp⟩ := visitAll_of_patch h
  exact (statusPatch_terminal_iff hvisit env.now state).mp ⟨p, hp, hstate⟩

theorem reconcileJobset_terminal_of_reply {serde : Serde} {env : Env} {js : JobSetObject}
    {jobs : Map String Job} (hreply : (reconcileJobset serde env js jobs).reply ≠ .error)
    (hsettled : Settled js jobs (js.slots serde)) :
    ∃ p, (reconcileJobset serde env js jobs).patch = some p ∧
      p.terminalState = some (verdict js jobs (js.slots serde)) := by
  obtain ⟨after, hvisit, hpatch⟩ := exists_visitAll_of_reply hreply
  obtain ⟨p, hp, hstate⟩ := (statusPatch_terminal_iff hvisit env.now _).mpr ⟨hsettled, rfl⟩
  exact ⟨p, hpatch.trans hp, hstate⟩

/-! ## 3. The condition -/

/-- Some children are pending, or the children bear out what the counters say. -/
def TerminalCondition (serde : Serde) (js : JobSetObject) (jobs : Map String Job) : Prop :=
  Settled js jobs (js.slots serde) →
    (∀ slot ∈ js.slots serde, ∃ job, jobs.get (js.jobName slot) = some job ∧ job.Finished) ∧
    (tallyCount js jobs (js.slots serde) .failed % 2 ^ 32 = 0 →
      ∀ slot ∈ js.slots serde, ∃ job,
        jobs.get (js.jobName slot) = some job ∧ job.hasCondition "Complete" = true) ∧
    (tallyCount js jobs (js.slots serde) .failed % 2 ^ 32 ≠ 0 →
      ∃ slot ∈ js.slots serde, ∃ job,
        jobs.get (js.jobName slot) = some job ∧ job.hasCondition "Failed" = true)

/-- **When a terminal state is right.**  For every JobSet and all states of its children: whatever
the API server answers, a terminal state that a call writes is right about the children exactly when
either some child is missing or has no succeeded and no failed pod, or all children are finished,
all of them complete if each has a succeeded pod, and one of them failed if not. -/
theorem terminal_sound_iff (serde : Serde) (js : JobSetObject) (jobs : Map String Job) :
    (∀ env p state, (reconcileJobset serde env js jobs).patch = some p →
        p.terminalState = some state → TerminalSound js jobs (js.slots serde) state) ↔
      TerminalCondition serde js jobs := by
  constructor
  · intro hsound hsettled
    have henv : (⟨fun _ => ⟨true, .created⟩, true, ""⟩ : Env).Ok := ⟨rfl, fun _ => ⟨rfl, rfl⟩⟩
    obtain ⟨p, hp, hstate⟩ := reconcileJobset_terminal_of_reply (reply_of_ok henv js jobs) hsettled
    have h := hsound _ p _ hp hstate
    refine ⟨h.finished, fun hzero => h.completed ?_, fun hne => h.failed ?_⟩
    · rw [verdict, if_pos hzero]
    · rw [verdict, if_neg hne]
  · intro hcond env p state hp hstate
    obtain ⟨hsettled, rfl⟩ := reconcileJobset_terminal hp hstate
    obtain ⟨hfinished, hcompleted, hfailed⟩ := hcond hsettled
    refine ⟨hfinished, fun hstate => hcompleted ?_, fun hstate => hfailed ?_⟩
    · by_contra hne
      rw [verdict, if_neg hne] at hstate
      exact absurd hstate (by decide)
    · intro hzero
      rw [verdict, if_pos hzero] at hstate
      exact absurd hstate (by decide)

/-! ## 4. A Job that wants three completions -/

/-- Nothing but the pod template is read. -/
def plainSerde : Serde := ⟨fun _ => none, fun _ => none⟩

/-- A JobSet with one replicated Job of one replica. -/
def trainJobSet : JobSetObject :=
  ⟨some "train", some "ml", some "uid-1", .obj [("spec", .obj [("replicatedJobs",
    .arr [.obj [("name", .str "worker"), ("replicas", .num 1)]])])]⟩

/-- Its child wants three completions; one pod has succeeded and the next one is running. -/
def trainWorker : Job :=
  { trainJobSet.child ⟨"worker", 0, ⟨⟨none, none⟩, .obj [("completions", .num 3)]⟩⟩ with
    status := some ⟨some 1, some 1, none, []⟩ }

def trainJobs : Map String Job := Map.empty.insert "train-worker-0" trainWorker

/-- The JobSet is declared completed while its only child is running. -/
theorem terminal_unsound_train :
    ¬ ∀ env p state, (reconcileJobset plainSerde env trainJobSet trainJobs).patch = some p →
      p.terminalState = some state →
        TerminalSound trainJobSet trainJobs (trainJobSet.slots plainSerde) state := by
  intro hsound
  have hp : ((reconcileJobset plainSerde ⟨fun _ => ⟨true, .created⟩, true, "now"⟩ trainJobSet
      trainJobs).patch = some ⟨some "Completed", "Completed", "now", "Completed",
        "1/1 jobs succeeded"⟩) := by decide +kernel
  obtain ⟨job, hjob, hfinished⟩ := (hsound _ _ _ hp rfl).finished
    ⟨"worker", 0, ⟨⟨none, none⟩, .obj []⟩⟩ List.mem_cons_self
  have hworker : trainJobs.get (trainJobSet.jobName ⟨"worker", 0, ⟨⟨none, none⟩, .obj []⟩⟩) =
      some trainWorker := rfl
  rw [hworker, Option.some.injEq] at hjob
  subst hjob
  have hrunning : trainWorker.hasCondition "Complete" = false ∧
      trainWorker.hasCondition "Failed" = false := by decide +kernel
  rcases hfinished with h | h
  · rw [hrunning.1] at h
    cases h
  · rw [hrunning.2] at h
    cases h

end Picoshift.JobSet

/-
# The controller wakes itself up

A call that finds its JobSet neither over nor empty writes the condition `Running`, with the time of
the call as `lastTransitionTime`, whether or not anything has changed since the last one.  So a second
call rewrites the status although the spec and all children are as the first one left them, and the
write is a change of the JobSet, which the controller watches.

The other outcomes are idempotent: after a terminal state the JobSet is not looked at again, and
without slots nothing is written.  What the second call finds is what the first one found, because a
new child has no pods and is not counted (`tallyCount_after`).  So the status stays as it is exactly
when no child is pending (`status_stays_iff`).
-/
import Picoshift.JobSet.Terminal

namespace Picoshift.JobSet

/-! ## 1. The JobSet after a call -/

/-- The JobSet, with the patch the call has written. -/
def JobSetObject.after (js : JobSetObject) (out : Outcome) : JobSetObject :=
  match out.patch with
  | some p => p.apply js
  | none => js

/-- `status`. -/
def JobSetObject.status (js : JobSetObject) : Option Json := js.data.get "status"

theorem JobSetObject.after_of_some {js : JobSetObject} {out : Outcome} {p : StatusPatch}
    (h : out.patch = some p) : js.after out = p.apply js := by
  rw [JobSetObject.after, h]

theorem JobSetObject.after_of_none {js : JobSetObject} {out : Outcome} (h : out.patch = none) :
    js.after out = js := by
  rw [JobSetObject.after, h]

section Apply

variable (p : StatusPatch) (js : JobSetObject)

theorem StatusPatch.apply_conditions :
    (p.apply js).status.bind (·.get "conditions") = some (.arr [p.condition]) := by
  rw [JobSetObject.status, StatusPatch.apply, Json.get_set_self, Option.bind_some]
  cases p.terminalState with
  | none => exact Json.get_set_self _ _ _
  | some state => exact (Json.get_set_ne (by decide) _ _).trans (Json.get_set_self _ _ _)

theorem StatusPatch.apply_suspended : (p.apply js).suspended = js.suspended := by
  rw [JobSetObject.suspended, StatusPatch.apply, Json.get_set_ne (by decide)]
  rfl

theorem StatusPatch.apply_replicatedJobs : (p.apply js).replicatedJobs = js.replicatedJobs := by
  rw [JobSetObject.replicatedJobs, StatusPatch.apply, Json.get_set_ne (by decide)]
  rfl

variable {p}

theorem StatusPatch.apply_terminal_none (h : p.terminalState = none) :
    (p.apply js).terminal = js.terminal := by
  rw [JobSetObject.terminal, JobSetObject.terminal, StatusPatch.apply, Json.get_set_self, h]
  dsimp only
  rw [Option.bind_some, Json.get_set_ne (by decide)]
  cases js.data.get "status" <;> rfl

theorem StatusPatch.apply_terminal_some {state : String} (h : p.terminalState = some state) :
    (p.apply js).terminal = some state := by
  rw [JobSetObject.terminal, StatusPatch.apply, Json.get_set_self, h]
  dsimp only
  rw [Option.bind_some, Json.get_set_self]
  rfl

/-- Only a terminal state changes the slots. -/
theorem StatusPatch.apply_slots (serde : Serde) (h : p.terminalState = none) :
    (p.apply js).slots serde = js.slots serde := by
  rw [JobSetObject.slots, p.apply_suspended, apply_terminal_none js h, p.apply_replicatedJobs]
  rfl

theorem StatusPatch.apply_slots_terminal (serde : Serde) {state : String}
    (h : p.terminalState = some state) : (p.apply js).slots serde = [] := by
  rw [JobSetObject.slots, apply_terminal_some js h]
  split <;> rfl

end Apply

/-- The condition of a patch gives the time. -/
theorem StatusPatch.time_of_condition {p p' : StatusPatch} (h : p.condition = p'.condition) :
    p.lastTransitionTime = p'.lastTransitionTime := by
  rw [StatusPatch.condition, StatusPatch.condition] at h
  injection h with h
  injection h with _ h
  injection h with _ h
  injection h with h
  exact Json.str.inj (congrArg Prod.snd h)

/-! ## 2. What a call writes -/

section Written

variable {serde : Serde} {env : Env} {js : JobSetObject} {jobs : Map String Job}

/-- No slots, no patch.  The number of slots is a `u32`. -/
theorem patch_eq_none (h : (js.slots serde).length % 2 ^ 32 = 0) :
    (reconcileJobset serde env js jobs).patch = none := by
  cases hpatch : (reconcileJobset serde env js jobs).patch with
  | none => rfl
  | some p =>
    obtain ⟨after, hvisit, hp⟩ := visitAll_of_patch hpatch
    have htotal : ¬ after.total > 0 := by
      rw [(visitAll_totals hvisit).1, UInt32.zero_add, ofNat_pos_iff, not_not]
      exact h
    rw [statusPatch, if_neg (fun hand => htotal hand.2), if_neg htotal] at hp
    cases hp

/-- The numbers of children by tally are what they were: a new child is pending. -/
theorem tallyCount_after (slots : List Slot) (t : Tally) :
    tallyCount js (reconcileJobset serde env js jobs).jobs slots t = tallyCount js jobs slots t := by
  have htally : ∀ n, tally ((reconcileJobset serde env js jobs).jobs.get n) = tally (jobs.get n) := by
    rw [reconcileJobset_jobs]
    refine visitAll_invariant (P := fun st => ∀ n, tally (st.jobs.get n) = tally (jobs.get n)) ?_
      0 _ fun _ => rfl
    intro i slot st result heff h n
    exact (heff.tally_get n).trans (h n)
  simp only [tallyCount, htally]

/-- The slots, if there are any, are all counted.  The numbers are `u32`. -/
def Quiet (serde : Serde) (js : JobSetObject) (jobs : Map String Job) : Prop :=
  (js.slots serde).length % 2 ^ 32 = 0 ∨ tallyCount js jobs (js.slots serde) .pending % 2 ^ 32 = 0

/-- A call that finds a pending child notes the time, and gives no terminal state. -/
theorem exists_running (hreply : (reconcileJobset serde env js jobs).reply ≠ .error)
    (h : ¬ Quiet serde js jobs) :
    ∃ p, (reconcileJobset serde env js jobs).patch = some p ∧ p.terminalState = none ∧
      p.lastTransitionTime = env.now := by
  obtain ⟨after, hvisit, hpatch⟩ := exists_visitAll_of_reply hreply
  obtain ⟨hlength, hpending⟩ := not_or.mp h
  have htotal : after.total > 0 := by
    rw [(visitAll_totals hvisit).1, UInt32.zero_add, ofNat_pos_iff]
    exact hlength
  -- a terminal state would mean that nothing is pending
  have hsum : ¬ (after.succeeded + after.failed = after.total ∧ after.total > 0) := by
    intro hsum
    have hterminal := (statusPatch_terminal_iff hvisit env.now
      (if after.failed > 0 then "Failed" else "Completed")).mp
      ⟨_, by rw [statusPatch, if_pos hsum], rfl⟩
    exact hpending hterminal.1.2
  rw [hpatch, statusPatch, if_neg hsum, if_pos htotal]
  exact ⟨_, rfl, rfl, rfl⟩

end Written

/-! ## 3. The second call -/

/-- What is pending after a call that found something pending, was pending before. -/
theorem quiet_after {serde : Serde} {env : Env} {js : JobSetObject} {jobs : Map String Job}
    {p : StatusPatch} (hrunning : p.terminalState = none) :
    Quiet serde (p.apply js) (reconcileJobset serde env js jobs).jobs ↔ Quiet serde js jobs := by
  have hname : ∀ jobs' slots, tallyCount (p.apply js) jobs' slots .pending =
      tallyCount js jobs' slots .pending := fun _ _ => rfl
  rw [Quiet, StatusPatch.apply_slots js serde hrunning, hname, tallyCount_after]
  rfl

/-- The status after the first of two calls, and after the second: the spec and the children are as
the first one left them. -/
def firstStatus (serde : Serde) (env : Env) (js : JobSetObject) (jobs : Map String Job) :
    Option Json :=
  (js.after (reconcileJobset serde env js jobs)).status

def secondStatus (serde : Serde) (env env' : Env) (js : JobSetObject) (jobs : Map String Job) :
    Option Json :=
  let first := reconcileJobset serde env js jobs
  ((js.after first).after (reconcileJobset serde env' (js.after first) first.jobs)).status

/-- Nothing is written by the second call when nothing was pending for the first. -/
theorem secondStatus_of_quiet {serde : Serde} {env env' : Env} {js : JobSetObject}
    {jobs : Map String Job} (hreply : (reconcileJobset serde env js jobs).reply ≠ .error)
    (h : Quiet serde js jobs) :
    secondStatus serde env env' js jobs = firstStatus serde env js jobs := by
  have hslots : ((js.after (reconcileJobset serde env js jobs)).slots serde).length % 2 ^ 32 = 0 := by
    by_cases hlength : (js.slots serde).length % 2 ^ 32 = 0
    · rw [JobSetObject.after_of_none (patch_eq_none hlength)]
      exact hlength
    · obtain ⟨p, hp, hstate⟩ := reconcileJobset_terminal_of_reply hreply ⟨hlength, h.resolve_left hlength⟩
      rw [JobSetObject.after_of_some hp, StatusPatch.apply_slots_terminal js serde hstate]
      rfl
  rw [secondStatus, JobSetObject.after_of_none (patch_eq_none hslots), firstStatus]

/-- The second call writes another time when something was pending for the first. -/
theorem secondStatus_of_not_quiet {serde : Serde} {env env' : Env} {js : JobSetObject}
    {jobs : Map String Job} (henv : env.Ok) (henv' : env'.Ok) (hlater : env'.now ≠ env.now)
    (h : ¬ Quiet serde js jobs) :
    secondStatus serde env env' js jobs ≠ firstStatus serde env js jobs := by
  obtain ⟨p, hp, hrunning, htime⟩ := exists_running (reply_of_ok henv js jobs) h
  have hstill : ¬ Quiet serde (p.apply js) (reconcileJobset serde env js jobs).jobs := by
    rw [quiet_after hrunning]
    exact h
  obtain ⟨p', hp', -, htime'⟩ := exists_running (reply_of_ok henv' (p.apply js) _) hstill
  intro heq
  rw [secondStatus, firstStatus, JobSetObject.after_of_some hp, JobSetObject.after_of_some hp'] at heq
  have hconditions := congrArg (Option.bind · (·.get "conditions")) heq
  rw [StatusPatch.apply_conditions, StatusPatch.apply_conditions] at hconditions
  have hcondition : p'.condition = p.condition :=
    (List.cons.inj (Json.arr.inj (Option.some.inj hconditions))).1
  rw [← htime, ← htime', StatusPatch.time_of_condition hcondition] at hlater
  exact hlater rfl

/-- **When a call is idempotent.**  For every JobSet and all states of its children: a second call, at
any other time and whatever the API server answers, leaves the status exactly as a first call that
went through left it, exactly when no child is pending, or there are no children. -/
theorem status_stays_iff (serde : Serde) (js : JobSetObject) (jobs : Map String Job) :
    (∀ env env', (reconcileJobset serde env js jobs).reply ≠ .error → env'.now ≠ env.now →
        secondStatus serde env env' js jobs = firstStatus serde env js jobs) ↔
      Quiet serde js jobs := by
  constructor
  · intro hstays
    by_contra hquiet
    have hok : ∀ now, (⟨fun _ => ⟨true, .created⟩, true, now⟩ : Env).Ok :=
      fun _ => ⟨rfl, fun _ => ⟨rfl, rfl⟩⟩
    have hlater : "12:00:05" ≠ "12:00:00" := by decide
    exact secondStatus_of_not_quiet (hok "12:00:00") (hok "12:00:05") hlater hquiet
      (hstays _ _ (reply_of_ok (hok _) js jobs) hlater)
  · intro hquiet env env' hreply _
    exact secondStatus_of_quiet hreply hquiet

/-- The time in a status. -/
def transitionTime (status : Option Json) : Option String := do
  let conditions ← (← status).get "conditions"
  let condition ← (← conditions.asArray).head?
  let time ← condition.get "lastTransitionTime"
  time.asStr

/-- Five seconds later the JobSet of one running child gets another status. -/
theorem status_stays_not :
    ¬ ∀ env env', (reconcileJobset plainSerde env trainJobSet Map.empty).reply ≠ .error →
      env'.now ≠ env.now → secondStatus plainSerde env env' trainJobSet Map.empty =
        firstStatus plainSerde env trainJobSet Map.empty := by
  intro hstays
  have hsame := hstays ⟨fun _ => ⟨true, .created⟩, true, "12:00:00"⟩
    ⟨fun _ => ⟨true, .created⟩, true, "12:00:05"⟩ (by decide +kernel) (by decide)
  exact absurd (congrArg transitionTime hsame) (by decide +kernel)

end Picoshift.JobSet

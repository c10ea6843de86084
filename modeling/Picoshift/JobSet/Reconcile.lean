/-
# The JobSet controller: one call

`reconcile_jobset` goes through the SLOTS of a JobSet, one for every index of every replicated Job.
A slot whose Job is not there gets one; a Job that is there is counted as succeeded or as failed by
the numbers of its pods.  When the counts add up to the number of slots the JobSet is given a
terminal state, and is never looked at again.

This file translates one call.  What the API server answers during the call is an argument (`Env`),
and so is what `serde` makes of a template (`Serde`).  The counters are `u32` and wrap as they do in
the release build.

What a call does is said once, in two theorems: what happens to the Jobs (`visitAll_get`,
`visitAll_creates`), and what the counters are in terms of the Jobs that were there when it began
(`visitAll_totals`).
-/
import Mathlib.Data.UInt
import Picoshift.Lib.Json
import Picoshift.Lib.Map
import Picoshift.Lib.Str

namespace Picoshift.JobSet

/-! ## 1. The objects -/

/-- A JobSet, as the controller is handed it. -/
structure JobSetObject where
  name : Option String
  ns : Option String
  uid : Option String
  data : Json

/-- `name_any`. -/
def JobSetObject.nameAny (js : JobSetObject) : String := js.name.getD ""

structure PodTemplateSpec where
  metadata : Option Json
  spec : Option Json

/-- A `JobSpec`: its pod template, and the rest of it as JSON. -/
structure JobSpec where
  template : PodTemplateSpec
  rest : Json

structure JobCondition where
  type : String
  status : String
  deriving DecidableEq, Repr

structure JobStatus where
  active : Option Int
  succeeded : Option Int
  failed : Option Int
  conditions : List JobCondition
  deriving DecidableEq, Repr

structure OwnerReference where
  apiVersion : String
  kind : String
  name : String
  uid : String
  controller : Bool
  blockOwnerDeletion : Bool
  deriving DecidableEq, Repr

structure Job where
  ns : String
  labels : List (String × String)
  owners : List OwnerReference
  spec : JobSpec
  status : Option JobStatus

/-- What `serde_json::from_value` makes of a template. -/
structure Serde where
  jobSpec : Json → Option JobSpec
  podTemplate : Json → Option PodTemplateSpec

/-! ## 2. The spec of a JobSet -/

/-- `suspended`. -/
def JobSetObject.suspended (js : JobSetObject) : Bool :=
  (((js.data.get "spec").bind (·.get "suspend")).bind Json.asBool).getD false

/-- `terminal`. -/
def JobSetObject.terminal (js : JobSetObject) : Option String :=
  ((js.data.get "status").bind (·.get "terminalState")).bind Json.asStr

/-- `replicated_jobs`. -/
def JobSetObject.replicatedJobs (js : JobSetObject) : Option (List Json) :=
  ((js.data.get "spec").bind (·.get "replicatedJobs")).bind Json.asArray

/-- `rj_name`. -/
def rjName (rj : Json) : String := ((rj.get "name").bind Json.asStr).getD "worker"

/-- `replicas`, cast to `u32`. -/
def replicas (rj : Json) : Nat := (((rj.get "replicas").bind Json.asU64).getD 1) % 2 ^ 32

/-- The spec of the Jobs of a replicated Job: its template, with the pod template read on its own
where the template as a whole has no pod spec or cannot be read. -/
def jobSpec (serde : Serde) (rj : Json) : JobSpec :=
  let spec := (rj.get "template").bind (·.get "spec")
  let podTemplate := (spec.bind (·.get "template")).bind serde.podTemplate
  match spec.bind serde.jobSpec with
  | some jt =>
    match jt.template.spec, podTemplate with
    | none, some pt => { jt with template := pt }
    | _, _ => jt
  | none => ⟨podTemplate.getD ⟨none, none⟩, .obj []⟩

/-- One index of one replicated Job. -/
structure Slot where
  rjName : String
  idx : Nat
  spec : JobSpec

/-- `job_name`. -/
def jobName (name rjName : String) (idx : Nat) : String :=
  name ++ "-" ++ rjName ++ "-" ++ toString idx

/-- The slots of a list of replicated Jobs, in the order of the two loops. -/
def slotsOf (serde : Serde) (rjs : List Json) : List Slot :=
  rjs.flatMap fun rj => (List.range (replicas rj)).map fun idx => ⟨rjName rj, idx, jobSpec serde rj⟩

/-- The slots that a call goes through: none when the JobSet is suspended, terminal or without
replicated Jobs. -/
def JobSetObject.slots (serde : Serde) (js : JobSetObject) : List Slot :=
  if js.suspended then []
  else if js.terminal.isSome then []
  else slotsOf serde (js.replicatedJobs.getD [])

theorem mem_slots {serde : Serde} {js : JobSetObject} {slot : Slot} :
    slot ∈ js.slots serde ↔ js.suspended = false ∧ js.terminal.isSome = false ∧
      ∃ rj ∈ js.replicatedJobs.getD [], ∃ idx < replicas rj,
        slot = ⟨rjName rj, idx, jobSpec serde rj⟩ := by
  rw [JobSetObject.slots]
  cases js.suspended with
  | true => simp
  | false =>
    cases js.terminal.isSome with
    | true => simp
    | false => simp [slotsOf, eq_comm]

/-- The name of a slot's Job. -/
def JobSetObject.jobName (js : JobSetObject) (slot : Slot) : String :=
  JobSet.jobName js.nameAny slot.rjName slot.idx

/-- The owner reference a child carries. -/
def JobSetObject.ownerReference (js : JobSetObject) : OwnerReference :=
  ⟨"jobset.x-k8s.io/v1alpha2", "JobSet", js.nameAny, js.uid.getD "", true, true⟩

/-- The Job that is created for a slot. -/
def JobSetObject.child (js : JobSetObject) (slot : Slot) : Job where
  ns := js.ns.getD "default"
  labels := [("jobset.x-k8s.io/jobset-name", js.nameAny),
    ("jobset.x-k8s.io/replicatedjob-name", slot.rjName),
    ("jobset.x-k8s.io/job-index", toString slot.idx)]
  owners := [js.ownerReference]
  spec := slot.spec
  status := none

/-! ## 3. The loop -/

/-- What a create call comes to. -/
inductive CreateAnswer where
  | created
  /-- The Job was created, but the answer was lost. -/
  | lost
  /-- 409: somebody else created it first. -/
  | conflict
  | refused
  deriving DecidableEq, Repr

/-- The answers for one slot. -/
structure SlotCall where
  getOk : Bool
  create : CreateAnswer
  deriving DecidableEq, Repr

/-- What a call is given by its surroundings: the answers for the slots, whether the status patch
succeeds, and the time. -/
structure Env where
  slots : Nat → SlotCall
  patchOk : Bool
  now : String

/-- The pods of a Job that succeeded. -/
def Job.succeeded (job : Job) : Int := (job.status.bind JobStatus.succeeded).getD 0

/-- The pods of a Job that failed. -/
def Job.failed (job : Job) : Int := (job.status.bind JobStatus.failed).getD 0

/-- How a Job is counted. -/
inductive Tally where
  | succeeded
  | failed
  | pending
  deriving DecidableEq, Repr

def Job.tally (job : Job) : Tally :=
  if job.succeeded > 0 then .succeeded
  else if job.failed > 0 then .failed
  else .pending

/-- A Job that is not there is not counted. -/
def tally (job : Option Job) : Tally := (job.map Job.tally).getD .pending

/-- The Jobs, and the three counters. -/
structure Loop where
  jobs : Map String Job
  total : UInt32
  succeeded : UInt32
  failed : UInt32

/-- The counters after one more Job. -/
def Loop.count (st : Loop) : Tally → Loop
  | .succeeded => { st with succeeded := st.succeeded + 1 }
  | .failed => { st with failed := st.failed + 1 }
  | .pending => st

/-- One round of the inner loop; `false` when an API error ends the call. -/
def visit (js : JobSetObject) (call : SlotCall) (slot : Slot) (st : Loop) : Loop × Bool :=
  let st := { st with total := st.total + 1 }
  if call.getOk = false then (st, false)
  else
  match st.jobs.get (js.jobName slot) with
  | some existing => (st.count existing.tally, true)
  | none =>
    let created := { st with jobs := st.jobs.insert (js.jobName slot) (js.child slot) }
    match call.create with
    | .created => (created, true)
    | .lost => (created, false)
    | .conflict => (st, true)
    | .refused => (st, false)

/-- Both loops, from the `i`-th slot on. -/
def visitAll (js : JobSetObject) (calls : Nat → SlotCall) : Nat → List Slot → Loop → Loop × Bool
  | _, [], st => (st, true)
  | i, slot :: slots, st =>
    match visit js (calls i) slot st with
    | (st, false) => (st, false)
    | (st, true) => visitAll js calls (i + 1) slots st

/-! ## 4. The call -/

/-- A patch of the JobSet's status: a terminal state, or none, and one condition. -/
structure StatusPatch where
  terminalState : Option String
  type : String
  lastTransitionTime : String
  reason : String
  message : String
  deriving DecidableEq, Repr

/-- The condition a patch writes. -/
def StatusPatch.condition (p : StatusPatch) : Json :=
  .obj [("type", .str p.type), ("status", .str "True"),
    ("lastTransitionTime", .str p.lastTransitionTime), ("reason", .str p.reason),
    ("message", .str p.message)]

/-- The merge patch. -/
def StatusPatch.apply (p : StatusPatch) (js : JobSetObject) : JobSetObject :=
  let status := ((js.data.get "status").getD (.obj [])).set "conditions" (.arr [p.condition])
  let status := match p.terminalState with
    | some state => status.set "terminalState" (.str state)
    | none => status
  { js with data := js.data.set "status" status }

/-- How a call ends. -/
inductive Reply where
  | awaitChange
  | requeue
  | error
  deriving DecidableEq, Repr

/-- How a message counts. -/
def jobCount (st : Loop) : String := toString st.succeeded.toNat ++ "/" ++ toString st.total.toNat

/-- The status the counters ask for. -/
def statusPatch (now : String) (st : Loop) : Option StatusPatch :=
  if st.succeeded + st.failed = st.total ∧ st.total > 0 then
    let state := if st.failed > 0 then "Failed" else "Completed"
    some ⟨some state, state, now, state, jobCount st ++ " jobs succeeded"⟩
  else if st.total > 0 then
    some ⟨none, "Running", now, "JobsRunning", jobCount st ++ " jobs completed"⟩
  else none

/-- What a call leaves behind: the Jobs, the patch that was written, and the reply. -/
structure Outcome where
  jobs : Map String Job
  patch : Option StatusPatch
  reply : Reply

/-- The end of the call, once all slots have been seen. -/
def finish (env : Env) (st : Loop) : Outcome :=
  match statusPatch env.now st with
  | none => ⟨st.jobs, none, .requeue⟩
  | some p =>
    if env.patchOk = false then ⟨st.jobs, none, .error⟩
    else ⟨st.jobs, some p, if p.terminalState.isSome then .awaitChange else .requeue⟩

/-- `reconcile_jobset`. -/
def reconcileJobset (serde : Serde) (env : Env) (js : JobSetObject) (jobs : Map String Job) :
    Outcome :=
  if js.suspended then ⟨jobs, none, .awaitChange⟩
  else if js.terminal.isSome then ⟨jobs, none, .awaitChange⟩
  else
  match js.replicatedJobs with
  | none => ⟨jobs, none, .awaitChange⟩
  | some rjs =>
    match visitAll js env.slots 0 (slotsOf serde rjs) ⟨jobs, 0, 0, 0⟩ with
    | (st, false) => ⟨st.jobs, none, .error⟩
    | (st, true) => finish env st

/-- A call that has nothing to go through does nothing; any other goes through the slots. -/
theorem reconcileJobset_cases (serde : Serde) (env : Env) (js : JobSetObject)
    (jobs : Map String Job) :
    (js.slots serde = [] ∧ reconcileJobset serde env js jobs = ⟨jobs, none, .awaitChange⟩) ∨
      reconcileJobset serde env js jobs =
        match visitAll js env.slots 0 (js.slots serde) ⟨jobs, 0, 0, 0⟩ with
        | (st, false) => ⟨st.jobs, none, .error⟩
        | (st, true) => finish env st := by
  rw [reconcileJobset, JobSetObject.slots]
  split
  · exact Or.inl ⟨rfl, rfl⟩
  · split
    · exact Or.inl ⟨rfl, rfl⟩
    · cases js.replicatedJobs with
      | none => exact Or.inl ⟨rfl, rfl⟩
      | some rjs => exact Or.inr rfl

/-! ## 5. What the loop does -/

section Visit

variable {js : JobSetObject} {call : SlotCall} {slot : Slot} {st : Loop}

/-- What one round can do. -/
inductive VisitEffect (js : JobSetObject) (call : SlotCall) (slot : Slot) (st : Loop) :
    Loop × Bool → Prop
  /-- An API call failed, and nothing was changed. -/
  | failed : VisitEffect js call slot st ({ st with total := st.total + 1 }, false)
  /-- The Job is there and is counted. -/
  | counted {existing : Job} (found : st.jobs.get (js.jobName slot) = some existing) :
      VisitEffect js call slot st
        (({ st with total := st.total + 1 } : Loop).count existing.tally, true)
  /-- The Job was not there and is created; the answer may be lost. -/
  | created (absent : st.jobs.get (js.jobName slot) = none) (ok : Bool) :
      VisitEffect js call slot st
        ({ st with total := st.total + 1, jobs := st.jobs.insert (js.jobName slot) (js.child slot) },
          ok)
  /-- The Job was not there, but another request was faster. -/
  | conflict (absent : st.jobs.get (js.jobName slot) = none) (h : call.create = .conflict) :
      VisitEffect js call slot st ({ st with total := st.total + 1 }, true)

theorem visit_effect (js : JobSetObject) (call : SlotCall) (slot : Slot) (st : Loop) :
    VisitEffect js call slot st (visit js call slot st) := by
  rw [visit]
  dsimp only
  split
  · exact .failed
  · cases hget : st.jobs.get (js.jobName slot) with
    | some existing => exact .counted hget
    | none =>
      cases hcreate : call.create with
      | created => exact .created hget true
      | lost => exact .created hget false
      | conflict => exact .conflict hget hcreate
      | refused => exact .failed

@[simp] theorem Loop.count_jobs (st : Loop) (t : Tally) : (st.count t).jobs = st.jobs := by
  cases t <;> rfl

/-- No round touches a Job that is there. -/
theorem VisitEffect.keeps {result : Loop × Bool} (h : VisitEffect js call slot st result)
    {n : String} {job : Job} (hjob : st.jobs.get n = some job) : result.1.jobs.get n = some job := by
  cases h with
  | failed => exact hjob
  | counted _ => rwa [Loop.count_jobs]
  | created absent _ =>
    have hne : n ≠ js.jobName slot := by
      rintro rfl
      rw [absent] at hjob
      cases hjob
    exact (Map.get_insert_ne _ hne).trans hjob
  | conflict _ _ => exact hjob

/-- A Job after a round was there before, or is the slot's new child. -/
theorem VisitEffect.get_eq_some {result : Loop × Bool} (h : VisitEffect js call slot st result)
    {n : String} {job : Job} (hjob : result.1.jobs.get n = some job) :
    st.jobs.get n = some job ∨
      (st.jobs.get n = none ∧ n = js.jobName slot ∧ job = js.child slot) := by
  cases h with
  | failed => exact Or.inl hjob
  | counted _ => exact Or.inl (by rwa [Loop.count_jobs] at hjob)
  | created absent _ =>
    rcases Map.get_insert_eq_some.mp hjob with ⟨rfl, rfl⟩ | ⟨-, hold⟩
    · exact Or.inr ⟨absent, rfl, rfl⟩
    · exact Or.inl hold
  | conflict _ _ => exact Or.inl hjob

/-- A new child has no pods, so a round changes no Job's tally. -/
theorem VisitEffect.tally_get {result : Loop × Bool} (h : VisitEffect js call slot st result)
    (n : String) : tally (result.1.jobs.get n) = tally (st.jobs.get n) := by
  cases hafter : result.1.jobs.get n with
  | none =>
    cases hbefore : st.jobs.get n with
    | none => rfl
    | some job =>
      rw [h.keeps hbefore] at hafter
      cases hafter
  | some job =>
    rcases h.get_eq_some hafter with hbefore | ⟨hbefore, -, rfl⟩
    · rw [hbefore]
    · rw [hbefore]
      rfl

/-- The counters of one tally. -/
def bump (t t' : Tally) : UInt32 := if t = t' then 1 else 0

/-- A round that ends well counts the slot. -/
theorem VisitEffect.totals {after : Loop} (h : VisitEffect js call slot st (after, true)) :
    after.total = st.total + 1 ∧
      after.succeeded = st.succeeded + bump (tally (st.jobs.get (js.jobName slot))) .succeeded ∧
      after.failed = st.failed + bump (tally (st.jobs.get (js.jobName slot))) .failed := by
  cases h with
  | counted found =>
    rename_i existing
    rw [found]
    have htally : tally (some existing) = existing.tally := rfl
    rw [htally]
    cases existing.tally <;> simp [Loop.count, bump]
  | created absent _ => simp [absent, tally, bump]
  | conflict absent _ => simp [absent, tally, bump]

/-- A round that ends well, without a race, leaves the slot a Job. -/
theorem VisitEffect.exists_job {after : Loop} (h : VisitEffect js call slot st (after, true))
    (hrace : call.create ≠ .conflict) : ∃ job, after.jobs.get (js.jobName slot) = some job := by
  cases h with
  | counted found => exact ⟨_, by rw [Loop.count_jobs]; exact found⟩
  | created absent _ => exact ⟨_, Map.get_insert_self _ _ _⟩
  | conflict _ h => exact absurd h hrace

end Visit

section VisitAll

variable {js : JobSetObject} {calls : Nat → SlotCall}

/-- What every round keeps, the loop keeps. -/
theorem visitAll_invariant {P : Loop → Prop}
    (hstep : ∀ i slot st result, VisitEffect js (calls i) slot st result → P st → P result.1)
    (i : Nat) (slots : List Slot) {st : Loop} (h : P st) :
    P (visitAll js calls i slots st).1 := by
  induction slots generalizing i st with
  | nil => exact h
  | cons slot slots ih =>
    have hafter := hstep i slot st _ (visit_effect js (calls i) slot st) h
    rw [visitAll]
    rcases hvisit : visit js (calls i) slot st with ⟨after, ok⟩
    rw [hvisit] at hafter
    cases ok with
    | false => exact hafter
    | true => exact ih (i + 1) hafter

theorem visitAll_keeps (i : Nat) (slots : List Slot) {st : Loop} {n : String} {job : Job}
    (h : st.jobs.get n = some job) : (visitAll js calls i slots st).1.jobs.get n = some job :=
  visitAll_invariant (P := fun st => st.jobs.get n = some job)
    (fun _ _ _ _ heff hjob => heff.keeps hjob) i slots h

/-- The rounds of a loop that ends well. -/
theorem visitAll_cons {i : Nat} {slot : Slot} {slots : List Slot} {st after : Loop}
    (h : visitAll js calls i (slot :: slots) st = (after, true)) :
    ∃ mid, VisitEffect js (calls i) slot st (mid, true) ∧
      visitAll js calls (i + 1) slots mid = (after, true) := by
  have heff := visit_effect js (calls i) slot st
  rw [visitAll] at h
  rcases hvisit : visit js (calls i) slot st with ⟨mid, ok⟩
  rw [hvisit] at h heff
  cases ok with
  | false => exact absurd h (by simp)
  | true => exact ⟨mid, heff, h⟩

/-- **What happens to the Jobs.**  A Job after the loop was there before, or is the new child of a
slot. -/
theorem visitAll_get (i : Nat) (slots : List Slot) {st : Loop} {n : String} {job : Job}
    (h : (visitAll js calls i slots st).1.jobs.get n = some job) :
    st.jobs.get n = some job ∨
      (st.jobs.get n = none ∧ ∃ slot ∈ slots, n = js.jobName slot ∧ job = js.child slot) := by
  induction slots generalizing i st with
  | nil => exact Or.inl h
  | cons slot slots ih =>
    have heff := visit_effect js (calls i) slot st
    rw [visitAll] at h
    rcases hvisit : visit js (calls i) slot st with ⟨mid, ok⟩
    rw [hvisit] at h heff
    have hfirst : mid.jobs.get n = some job → st.jobs.get n = some job ∨ (st.jobs.get n = none ∧
        ∃ slot' ∈ slot :: slots, n = js.jobName slot' ∧ job = js.child slot') := by
      intro hmid
      rcases heff.get_eq_some hmid with hold | ⟨habsent, hname, hjob⟩
      · exact Or.inl hold
      · exact Or.inr ⟨habsent, slot, List.mem_cons_self, hname, hjob⟩
    cases ok with
    | false => exact hfirst h
    | true =>
      rcases ih (i + 1) h with hmid | ⟨habsent, slot', hslot', hname, hjob⟩
      · exact hfirst hmid
      · refine Or.inr ⟨?_, slot', List.mem_cons_of_mem _ hslot', hname, hjob⟩
        cases hold : st.jobs.get n with
        | none => rfl
        | some job' =>
          rw [heff.keeps hold] at habsent
          cases habsent

/-- A loop that ends well, without a race, leaves every slot a Job. -/
theorem visitAll_creates (hrace : ∀ i, (calls i).create ≠ .conflict) {i : Nat} {slots : List Slot}
    {st after : Loop} (h : visitAll js calls i slots st = (after, true)) :
    ∀ slot ∈ slots, ∃ job, after.jobs.get (js.jobName slot) = some job := by
  induction slots generalizing i st with
  | nil => exact fun _ hslot => absurd hslot List.not_mem_nil
  | cons slot slots ih =>
    obtain ⟨mid, heff, hrest⟩ := visitAll_cons h
    intro slot' hslot'
    rcases List.mem_cons.mp hslot' with rfl | hslot'
    · obtain ⟨job, hjob⟩ := heff.exists_job (hrace i)
      have hkeep : (visitAll js calls (i + 1) slots mid).1.jobs.get (js.jobName slot') = some job :=
        visitAll_keeps (i + 1) slots hjob
      rw [hrest] at hkeep
      exact ⟨job, hkeep⟩
    · exact ih hrest slot' hslot'

/-- How many slots find a Job of this tally. -/
def tallyCount (js : JobSetObject) (jobs : Map String Job) (slots : List Slot) (t : Tally) : Nat :=
  slots.countP fun slot => tally (jobs.get (js.jobName slot)) = t

theorem tallyCount_cons (jobs : Map String Job) (slot : Slot) (slots : List Slot) (t : Tally) :
    UInt32.ofNat (tallyCount js jobs (slot :: slots) t) =
      bump (tally (jobs.get (js.jobName slot))) t + UInt32.ofNat (tallyCount js jobs slots t) := by
  rw [tallyCount, List.countP_cons, UInt32.ofNat_add, UInt32.add_comm, tallyCount, bump]
  by_cases h : tally (jobs.get (js.jobName slot)) = t <;> simp [h]

/-- **What the counters are**: the numbers of slots by tally, as the loop found the Jobs. -/
theorem visitAll_totals {i : Nat} {slots : List Slot} {st after : Loop}
    (h : visitAll js calls i slots st = (after, true)) :
    after.total = st.total + UInt32.ofNat slots.length ∧
      after.succeeded = st.succeeded + UInt32.ofNat (tallyCount js st.jobs slots .succeeded) ∧
      after.failed = st.failed + UInt32.ofNat (tallyCount js st.jobs slots .failed) := by
  induction slots generalizing i st with
  | nil =>
    obtain rfl : st = after := by simpa [visitAll] using h
    simp [tallyCount]
  | cons slot slots ih =>
    obtain ⟨mid, heff, hrest⟩ := visitAll_cons h
    obtain ⟨htotal, hsucceeded, hfailed⟩ := heff.totals
    obtain ⟨htotal', hsucceeded', hfailed'⟩ := ih hrest
    -- the round leaves the tallies of the other slots alone
    have hsame : ∀ t, tallyCount js mid.jobs slots t = tallyCount js st.jobs slots t := by
      intro t
      simp only [tallyCount, heff.tally_get]
    refine ⟨?_, ?_, ?_⟩
    · rw [htotal', htotal, List.length_cons, UInt32.ofNat_add, UInt32.add_comm (UInt32.ofNat _),
        UInt32.add_assoc]
      rfl
    · rw [hsucceeded', hsucceeded, hsame, tallyCount_cons, UInt32.add_assoc]
    · rw [hfailed', hfailed, hsame, tallyCount_cons, UInt32.add_assoc]

end VisitAll

/-- Every call of the API succeeds. -/
def Env.Ok (env : Env) : Prop :=
  env.patchOk = true ∧ ∀ i, (env.slots i).getOk = true ∧ (env.slots i).create = .created

theorem visitAll_of_ok {js : JobSetObject} {env : Env} (henv : env.Ok) (i : Nat) (slots : List Slot)
    (st : Loop) : (visitAll js env.slots i slots st).2 = true := by
  induction slots generalizing i st with
  | nil => rfl
  | cons slot slots ih =>
    obtain ⟨hget, hcreate⟩ := henv.2 i
    have hvisit : (visit js (env.slots i) slot st).2 = true := by
      rw [visit, hget, hcreate]
      cases st.jobs.get (js.jobName slot) <;> simp
    rw [visitAll]
    rcases hresult : visit js (env.slots i) slot st with ⟨mid, ok⟩
    rw [hresult] at hvisit
    obtain rfl : ok = true := hvisit
    exact ih (i + 1) mid

/-! ## 6. What a call does to the Jobs -/

@[simp] theorem finish_jobs (env : Env) (st : Loop) : (finish env st).jobs = st.jobs := by
  rw [finish]
  split
  · rfl
  · split <;> rfl

/-- The Jobs after a call are those after its loop. -/
theorem reconcileJobset_jobs (serde : Serde) (env : Env) (js : JobSetObject)
    (jobs : Map String Job) : (reconcileJobset serde env js jobs).jobs =
      (visitAll js env.slots 0 (js.slots serde) ⟨jobs, 0, 0, 0⟩).1.jobs := by
  rcases reconcileJobset_cases serde env js jobs with ⟨hnone, hidle⟩ | hloop
  · rw [hidle, hnone]
    rfl
  · rw [hloop]
    rcases visitAll js env.slots 0 (js.slots serde) ⟨jobs, 0, 0, 0⟩ with ⟨after, ok⟩
    cases ok with
    | false => rfl
    | true => exact finish_jobs env after

/-- A call that does not end in an error has been through all slots. -/
theorem visitAll_of_reply {serde : Serde} {env : Env} {js : JobSetObject} {jobs : Map String Job}
    (h : (reconcileJobset serde env js jobs).reply ≠ .error) :
    (visitAll js env.slots 0 (js.slots serde) ⟨jobs, 0, 0, 0⟩).2 = true := by
  rcases reconcileJobset_cases serde env js jobs with ⟨hnone, -⟩ | hloop
  · rw [hnone]
    rfl
  · rw [hloop] at h
    rcases hvisit : visitAll js env.slots 0 (js.slots serde) ⟨jobs, 0, 0, 0⟩ with ⟨after, ok⟩
    rw [hvisit] at h
    cases ok with
    | false => exact absurd rfl h
    | true => rfl

/-- A patch is what the counters ask for after a loop that went through. -/
theorem visitAll_of_patch {serde : Serde} {env : Env} {js : JobSetObject} {jobs : Map String Job}
    {p : StatusPatch} (h : (reconcileJobset serde env js jobs).patch = some p) :
    ∃ after, visitAll js env.slots 0 (js.slots serde) ⟨jobs, 0, 0, 0⟩ = (after, true) ∧
      statusPatch env.now after = some p := by
  rcases reconcileJobset_cases serde env js jobs with ⟨-, hidle⟩ | hloop
  · rw [hidle] at h
    cases h
  · rw [hloop] at h
    rcases hvisit : visitAll js env.slots 0 (js.slots serde) ⟨jobs, 0, 0, 0⟩ with ⟨after, ok⟩
    rw [hvisit] at h
    cases ok with
    | false => cases h
    | true =>
      refine ⟨after, rfl, ?_⟩
      dsimp only at h
      rw [finish] at h
      split at h
      · cases h
      · rename_i p' hp'
        split at h
        · cases h
        · cases h
          exact hp'

/-- A call that does not end in an error has written what the counters ask for after its loop. -/
theorem exists_visitAll_of_reply {serde : Serde} {env : Env} {js : JobSetObject} {jobs : Map String Job}
    (h : (reconcileJobset serde env js jobs).reply ≠ .error) :
    ∃ after, visitAll js env.slots 0 (js.slots serde) ⟨jobs, 0, 0, 0⟩ = (after, true) ∧
      (reconcileJobset serde env js jobs).patch = statusPatch env.now after := by
  have hok := visitAll_of_reply h
  rcases hvisit : visitAll js env.slots 0 (js.slots serde) ⟨jobs, 0, 0, 0⟩ with ⟨after, ok⟩
  rw [hvisit] at hok
  obtain rfl : ok = true := hok
  refine ⟨after, rfl, ?_⟩
  rcases reconcileJobset_cases serde env js jobs with ⟨hnone, hidle⟩ | hloop
  · rw [hnone, visitAll] at hvisit
    obtain rfl : (⟨jobs, 0, 0, 0⟩ : Loop) = after := congrArg Prod.fst hvisit
    rw [hidle]
    rfl
  · rw [hvisit] at hloop
    rw [hloop] at h ⊢
    dsimp only at h ⊢
    rw [finish] at h ⊢
    cases hp : statusPatch env.now after with
    | none => rfl
    | some p =>
      rw [hp] at h
      dsimp only at h ⊢
      split at h
      · exact absurd rfl h
      · rw [if_neg ‹_›]

/-- When every request succeeds, the call does. -/
theorem reply_of_ok {serde : Serde} {env : Env} (henv : env.Ok) (js : JobSetObject)
    (jobs : Map String Job) : (reconcileJobset serde env js jobs).reply ≠ .error := by
  have hok : (visitAll js env.slots 0 (js.slots serde) ⟨jobs, 0, 0, 0⟩).2 = true :=
    visitAll_of_ok henv 0 _ _
  rcases reconcileJobset_cases serde env js jobs with ⟨-, hidle⟩ | hloop
  · rw [hidle]
    exact Reply.noConfusion
  · rw [hloop]
    rcases hvisit : visitAll js env.slots 0 (js.slots serde) ⟨jobs, 0, 0, 0⟩ with ⟨after, ok⟩
    rw [hvisit] at hok
    obtain rfl : ok = true := hok
    simp only [finish]
    split
    · exact Reply.noConfusion
    · rw [if_neg (by simp [henv.1])]
      split <;> exact Reply.noConfusion

end Picoshift.JobSet

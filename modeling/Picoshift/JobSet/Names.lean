/-
# Whose Job is it?

A child is found by its name, `{jobset}-{replicatedJob}-{index}`, and by nothing else: the owner
reference that every child carries is written and never read.  Inside one JobSet the name is enough,
because an index holds no `-`, so the last one in the name tells where the index begins
(`jobName_inj`).  Between two JobSets it is not: `a` with `b-c` and `a-b` with `c` both say
`a-b-c-0`.  The one that comes second finds the other's Job, counts it and never gets its own.

So every call counts its own Jobs and every slot gets a Job exactly when no two JobSets agree on
`{jobset}-{replicatedJob}` (`own_jobs_iff`).
-/
import Picoshift.JobSet.Reconcile
import Picoshift.Lib.Machine

namespace Picoshift.JobSet

/-! ## 1. Names -/

/-- The part of a child's name in front of the index. -/
def stem (name rjName : String) : String := name ++ "-" ++ rjName

theorem toList_jobName (name rjName : String) (idx : Nat) : (jobName name rjName idx).toList =
    (stem name rjName).toList ++ '-' :: Nat.toDigits 10 idx := by
  rw [jobName, String.toList_append, Str.toList_toString, stem]
  simp

/-- The last `-` of a name separates the index. -/
theorem jobName_inj {name rjName name' rjName' : String} {idx idx' : Nat}
    (h : jobName name rjName idx = jobName name' rjName' idx') :
    stem name rjName = stem name' rjName' ∧ idx = idx' := by
  have hlist := congrArg String.toList h
  rw [toList_jobName, toList_jobName] at hlist
  obtain ⟨hstem, hidx⟩ := Str.append_cons_inj_right (Str.not_mem_toDigits (by decide) idx)
    (Str.not_mem_toDigits (by decide) idx') hlist
  exact ⟨String.toList_inj.mp hstem, Str.toDigits_inj hidx⟩

theorem stem_left_cancel {name rjName rjName' : String} (h : stem name rjName = stem name rjName') :
    rjName = rjName' := by
  have hlist := congrArg String.toList h
  simp only [stem, String.toList_append] at hlist
  exact String.toList_inj.mp (List.append_cancel_left hlist)

/-! ## 2. A namespace with JobSets -/

/-- The JobSets and the Jobs of a namespace, by name. -/
structure World where
  sets : Map String JobSetObject
  jobs : Map String Job

/-- What happens: a call for a JobSet, or progress of a Job. -/
inductive Input where
  | reconcile (name : String) (env : Env)
  | progress (job : String) (status : JobStatus)

def step (serde : Serde) (s : World) : Input → World × Option Reply
  | .reconcile name env =>
    match s.sets.get name with
    | none => (s, none)
    | some js =>
      let out := reconcileJobset serde env js s.jobs
      let sets := match out.patch with
        | some p => s.sets.insert name (p.apply js)
        | none => s.sets
      (⟨sets, out.jobs⟩, some out.reply)
  | .progress name status =>
    match s.jobs.get name with
    | none => (s, none)
    | some job => ({ s with jobs := s.jobs.insert name { job with status := some status } }, none)

/-- What a call for a JobSet does to the world. -/
theorem step_reconcile (serde : Serde) {s : World} {name : String} (env : Env) {js : JobSetObject}
    (hjs : s.sets.get name = some js) :
    (step serde s (.reconcile name env)).2 = some (reconcileJobset serde env js s.jobs).reply ∧
      (step serde s (.reconcile name env)).1.jobs = (reconcileJobset serde env js s.jobs).jobs ∧
      ∀ other ≠ name, (step serde s (.reconcile name env)).1.sets.get other = s.sets.get other := by
  rw [step, hjs]
  refine ⟨rfl, rfl, ?_⟩
  intro other hother
  dsimp only
  split
  · exact Map.get_insert_ne _ hother
  · rfl

def cluster (serde : Serde) : Machine World Input (Option Reply) := ⟨step serde⟩

/-- The JobSets have been created, and no Job yet. -/
def World.init (sets : List JobSetObject) : World :=
  ⟨Map.ofPairs (sets.map fun js => (js.nameAny, js)), Map.empty⟩

/-- The Job was made for this slot of this JobSet: the owner reference and the labels say so. -/
def Made (js : JobSetObject) (slot : Slot) (job : Job) : Prop :=
  job.owners = (js.child slot).owners ∧ job.labels = (js.child slot).labels

/-- A call that did all it had to: no error, and nobody else created its Jobs meanwhile. -/
def Done (env : Env) (reply : Option Reply) : Prop :=
  reply ≠ some .error ∧ ∀ i, (env.slots i).create ≠ .conflict

/-- The Jobs that a call counts were made for their slots, and when it is done every slot has a Job
that was made for it and is no other slot's. -/
structure CallSound (serde : Serde) (js : JobSetObject) (env : Env)
    (e : Entry World Input (Option Reply)) : Prop where
  counted : ∀ slot ∈ js.slots serde, ∀ job, e.before.jobs.get (js.jobName slot) = some job →
    job.tally ≠ .pending → Made js slot job
  created : Done env e.output → ∀ slot ∈ js.slots serde, ∃ job,
    e.after.jobs.get (js.jobName slot) = some job ∧ Made js slot job
  own : ((js.slots serde).map js.jobName).Nodup

/-- Every call of the run is sound. -/
def RunSound (serde : Serde) (sets : List JobSetObject) (run : List Input) : Prop :=
  ∀ e ∈ (cluster serde).trace (World.init sets) run, ∀ name env js,
    e.input = .reconcile name env → e.before.sets.get name = some js → CallSound serde js env e

/-- No two JobSets agree on the name of a JobSet and a replicated Job that has a slot. -/
def Apart (serde : Serde) (sets : List JobSetObject) : Prop :=
  ∀ js ∈ sets, ∀ js' ∈ sets, js.nameAny ≠ js'.nameAny →
    ∀ slot ∈ js.slots serde, ∀ slot' ∈ js'.slots serde,
      stem js.nameAny slot.rjName ≠ stem js'.nameAny slot'.rjName

/-! ## 3. Slots of one JobSet -/

/-- Distinct names of replicated Jobs make distinct slots. -/
theorem nodup_slotsOf (serde : Serde) {rjs : List Json} (h : (rjs.map rjName).Nodup) :
    ((slotsOf serde rjs).map fun slot => (slot.rjName, slot.idx)).Nodup := by
  induction rjs with
  | nil => exact List.nodup_nil
  | cons rj rjs ih =>
    rw [List.map_cons, List.nodup_cons] at h
    have hfirst : (((List.range (replicas rj)).map fun idx =>
        (⟨rjName rj, idx, jobSpec serde rj⟩ : Slot)).map fun slot => (slot.rjName, slot.idx)).Nodup := by
      rw [List.map_map]
      refine List.Nodup.map ?_ List.nodup_range
      intro i j hij
      exact (Prod.mk.inj hij).2
    rw [slotsOf, List.flatMap_cons, List.map_append, List.nodup_append]
    refine ⟨hfirst, ih h.2, ?_⟩
    -- a slot of this replicated Job has its name, and no other has
    rintro a ha b hb rfl
    simp only [List.mem_map, List.mem_range, List.mem_flatMap] at ha hb
    obtain ⟨slot, ⟨idx, -, rfl⟩, rfl⟩ := ha
    obtain ⟨slot', ⟨rj', hrj', idx', -, rfl⟩, heq⟩ := hb
    exact h.1 (List.mem_map.mpr ⟨rj', hrj', (Prod.mk.inj heq).1⟩)

/-- The names of the replicated Jobs of a JobSet are pairwise distinct. -/
def JobSetObject.DistinctNames (js : JobSetObject) : Prop :=
  ((js.replicatedJobs.getD []).map rjName).Nodup

theorem JobSetObject.DistinctNames.nodup_jobName {js : JobSetObject} (h : js.DistinctNames)
    (serde : Serde) : ((js.slots serde).map js.jobName).Nodup := by
  rw [JobSetObject.slots]
  split
  · exact List.nodup_nil
  · split
    · exact List.nodup_nil
    · have hinj : Function.Injective fun p : String × Nat => JobSet.jobName js.nameAny p.1 p.2 := by
        intro p p' hp
        obtain ⟨hstem, hidx⟩ := jobName_inj hp
        exact Prod.ext (stem_left_cancel hstem) hidx
      have hmap := List.Nodup.map hinj (nodup_slotsOf serde h)
      rwa [List.map_map] at hmap

/-- A replicated Job with a slot has the slot of index 0. -/
theorem exists_first_slot {serde : Serde} {js : JobSetObject} {slot : Slot}
    (h : slot ∈ js.slots serde) :
    ∃ first ∈ js.slots serde, first.rjName = slot.rjName ∧ first.idx = 0 := by
  obtain ⟨hsuspended, hterminal, rj, hrj, idx, hidx, rfl⟩ := mem_slots.mp h
  exact ⟨_, mem_slots.mpr ⟨hsuspended, hterminal, rj, hrj, 0, by omega, rfl⟩, rfl, rfl⟩

/-! ## 4. What calls leave alone -/

/-- `js` is what became of `js₀`: nothing but its status has changed, and no terminal state was
lost. -/
structure Evolved (js₀ js : JobSetObject) : Prop where
  name : js.name = js₀.name
  ns : js.ns = js₀.ns
  uid : js.uid = js₀.uid
  spec : js.data.get "spec" = js₀.data.get "spec"
  terminal : js₀.terminal.isSome = true → js.terminal.isSome = true

theorem Evolved.refl (js : JobSetObject) : Evolved js js := ⟨rfl, rfl, rfl, rfl, id⟩

/-- A patch does not take a terminal state back. -/
theorem StatusPatch.apply_terminal (p : StatusPatch) {js : JobSetObject}
    (h : js.terminal.isSome = true) : (p.apply js).terminal.isSome = true := by
  rw [JobSetObject.terminal] at h
  cases hstatus : js.data.get "status" with
  | none =>
    rw [hstatus] at h
    cases h
  | some status =>
    rw [hstatus, Option.bind_some] at h
    rw [JobSetObject.terminal, StatusPatch.apply, Json.get_set_self, hstatus]
    cases p.terminalState with
    | none => simpa using h
    | some state => simp [Json.asStr]

theorem Evolved.apply {js₀ js : JobSetObject} (h : Evolved js₀ js) (p : StatusPatch) :
    Evolved js₀ (p.apply js) where
  name := h.name
  ns := h.ns
  uid := h.uid
  spec := (Json.get_set_ne (by decide) _ _).trans h.spec
  terminal hterminal := p.apply_terminal (h.terminal hterminal)

section Evolved

variable {js₀ js : JobSetObject} (h : Evolved js₀ js)
include h

theorem Evolved.nameAny : js.nameAny = js₀.nameAny := by
  rw [JobSetObject.nameAny, h.name]
  rfl

theorem Evolved.jobName (slot : Slot) : js.jobName slot = js₀.jobName slot := by
  rw [JobSetObject.jobName, h.nameAny]
  rfl

theorem Evolved.child (slot : Slot) : js.child slot = js₀.child slot := by
  simp only [JobSetObject.child, JobSetObject.ownerReference, h.nameAny, h.ns, h.uid]

theorem Evolved.mem_slots {serde : Serde} {slot : Slot} (hslot : slot ∈ js.slots serde) :
    slot ∈ js₀.slots serde := by
  obtain ⟨hsuspended, hterminal, hrj⟩ := JobSet.mem_slots.mp hslot
  rw [JobSetObject.suspended, h.spec] at hsuspended
  rw [JobSetObject.replicatedJobs, h.spec] at hrj
  refine JobSet.mem_slots.mpr ⟨hsuspended, ?_, hrj⟩
  rw [← Bool.not_eq_true] at hterminal ⊢
  exact mt h.terminal hterminal

theorem Evolved.distinctNames (hnames : js₀.DistinctNames) : js.DistinctNames := by
  rw [JobSetObject.DistinctNames, JobSetObject.replicatedJobs, h.spec]
  exact hnames

end Evolved

/-! ## 5. Every Job was made for a slot -/

/-- The JobSets are the given ones, and every Job was made for a slot of one of them. -/
structure Inv (serde : Serde) (sets : List JobSetObject) (s : World) : Prop where
  known : ∀ name js, s.sets.get name = some js →
    ∃ js₀ ∈ sets, name = js₀.nameAny ∧ Evolved js₀ js
  made : ∀ name job, s.jobs.get name = some job →
    ∃ js₀ ∈ sets, ∃ slot ∈ js₀.slots serde, name = js₀.jobName slot ∧ Made js₀ slot job

theorem inv_init (serde : Serde) (sets : List JobSetObject) : Inv serde sets (World.init sets) where
  known name js hget := by
    obtain ⟨js₀, hjs₀, heq⟩ := List.mem_map.mp (Map.mem_of_get_ofPairs hget)
    obtain ⟨rfl, rfl⟩ := Prod.mk.inj heq
    exact ⟨js₀, hjs₀, rfl, Evolved.refl js₀⟩
  made _ _ hget := by cases hget

theorem inv_step {serde : Serde} {sets : List JobSetObject} {s : World} (h : Inv serde sets s)
    (i : Input) : Inv serde sets (step serde s i).1 := by
  cases i with
  | reconcile name env =>
    rw [step]
    cases hjs : s.sets.get name with
    | none => exact h
    | some js =>
      obtain ⟨js₀, hjs₀, hname, hevolved⟩ := h.known name js hjs
      refine ⟨?_, ?_⟩
      · -- a patch changes the status of this JobSet only
        intro name' js' hget
        dsimp only at hget
        split at hget
        · rename_i p _
          rcases Map.get_insert_eq_some.mp hget with ⟨rfl, rfl⟩ | ⟨-, hold⟩
          · exact ⟨js₀, hjs₀, hname, hevolved.apply p⟩
          · exact h.known name' js' hold
        · exact h.known name' js' hget
      · intro name' job hget
        dsimp only at hget
        rw [reconcileJobset_jobs] at hget
        rcases visitAll_get 0 _ hget with hold | ⟨-, slot, hslot, rfl, rfl⟩
        · exact h.made name' job hold
        · refine ⟨js₀, hjs₀, slot, hevolved.mem_slots hslot, hevolved.jobName slot, ?_⟩
          rw [hevolved.child slot]
          exact ⟨rfl, rfl⟩
  | progress name status =>
    rw [step]
    cases hjob : s.jobs.get name with
    | none => exact h
    | some job =>
      refine ⟨h.known, ?_⟩
      intro name' job' hget
      rcases Map.get_insert_eq_some.mp hget with ⟨rfl, rfl⟩ | ⟨-, hold⟩
      · exact h.made name' job hjob
      · exact h.made name' job' hold

theorem inv (serde : Serde) (sets : List JobSetObject) (run : List Input) :
    Inv serde sets ((cluster serde).exec (World.init sets) run) :=
  (cluster serde).invariant (inv_init serde sets) (fun _ i h => inv_step h i) run

/-- Where the JobSets are apart, a Job found for a slot was made for it. -/
theorem Inv.made_for {serde : Serde} {sets : List JobSetObject}
    (hnames : (sets.map JobSetObject.nameAny).Nodup) (hapart : Apart serde sets) {s : World}
    (h : Inv serde sets s) {js : JobSetObject} (hjs : js ∈ sets) {slot : Slot}
    (hslot : slot ∈ js.slots serde) {job : Job} (hjob : s.jobs.get (js.jobName slot) = some job) :
    Made js slot job := by
  obtain ⟨js₁, hjs₁, slot₁, hslot₁, hname, hmade⟩ := h.made _ job hjob
  obtain ⟨hstem, hidx⟩ := jobName_inj hname
  have heq : js.nameAny = js₁.nameAny := by
    by_contra hne
    exact hapart js hjs js₁ hjs₁ hne slot hslot slot₁ hslot₁ hstem
  obtain rfl : js = js₁ := List.inj_on_of_nodup_map hnames hjs hjs₁ heq
  have hrj : slot.rjName = slot₁.rjName := stem_left_cancel hstem
  simpa only [Made, JobSetObject.child, hrj, hidx] using hmade

/-! ## 6. The condition -/

/-- A slot's Job after a call that is done. -/
theorem exists_job_of_done {serde : Serde} {env : Env} {js : JobSetObject} {jobs : Map String Job}
    (hdone : Done env (some (reconcileJobset serde env js jobs).reply)) {slot : Slot}
    (hslot : slot ∈ js.slots serde) :
    ∃ job, (reconcileJobset serde env js jobs).jobs.get (js.jobName slot) = some job := by
  have hok := visitAll_of_reply (fun herror => hdone.1 (congrArg some herror))
  rw [reconcileJobset_jobs]
  exact visitAll_creates hdone.2 (Prod.ext rfl hok) slot hslot

/-- JobSets that are apart have sound runs. -/
theorem runSound_of_apart {serde : Serde} {sets : List JobSetObject}
    (hnames : (sets.map JobSetObject.nameAny).Nodup)
    (hrjs : ∀ js ∈ sets, js.DistinctNames) (hapart : Apart serde sets) (run : List Input) :
    RunSound serde sets run := by
  intro e he name env js hinput hjs
  obtain ⟨h₁, h₂, htrace⟩ := List.append_of_mem he
  obtain ⟨is₁, i, is₂, rfl, -, rfl⟩ := (cluster serde).trace_eq_append_cons htrace
  obtain rfl : i = .reconcile name env := hinput
  have hinv := inv serde sets is₁
  generalize (cluster serde).exec (World.init sets) is₁ = s at *
  have hjs : s.sets.get name = some js := hjs
  have hinv' := inv_step hinv (.reconcile name env)
  obtain ⟨js₀, hjs₀, -, hevolved⟩ := hinv.known name js hjs
  -- a Job under the name of a slot, before or after the call, was made for the slot
  have hmade : ∀ s', Inv serde sets s' → ∀ slot ∈ js.slots serde, ∀ job,
      s'.jobs.get (js.jobName slot) = some job → Made js slot job := by
    intro s' hs' slot hslot job hjob
    rw [hevolved.jobName] at hjob
    rw [Made, hevolved.child]
    exact hs'.made_for hnames hapart hjs₀ (hevolved.mem_slots hslot) hjob
  refine ⟨fun slot hslot job hjob _ => hmade s hinv slot hslot job hjob, ?_,
    (hevolved.distinctNames (hrjs js₀ hjs₀)).nodup_jobName serde⟩
  intro hdone slot hslot
  obtain ⟨hout, hjobs, -⟩ := step_reconcile serde env hjs
  have hdone : Done env (step serde s (.reconcile name env)).2 := hdone
  rw [hout] at hdone
  obtain ⟨job, hjob⟩ := exists_job_of_done hdone hslot
  have hafter : (step serde s (.reconcile name env)).1.jobs.get (js.jobName slot) = some job := by
    rw [hjobs]
    exact hjob
  exact ⟨job, hafter, hmade _ hinv' slot hslot job hafter⟩

/-- Where two JobSets agree on a name, a run that reconciles one after the other is not sound. -/
theorem apart_of_runSound {serde : Serde} {sets : List JobSetObject}
    (hnames : (sets.map JobSetObject.nameAny).Nodup) (hsound : ∀ run, RunSound serde sets run) :
    Apart serde sets := by
  intro js hjs js' hjs' hne slot hslot slot' hslot' hstem
  obtain ⟨first, hfirst, hrj, hidx⟩ := exists_first_slot hslot
  obtain ⟨first', hfirst', hrj', hidx'⟩ := exists_first_slot hslot'
  have hshared : js'.jobName first' = js.jobName first := by
    have hname : ∀ (js : JobSetObject) (slot : Slot), js.jobName slot =
        stem js.nameAny slot.rjName ++ "-" ++ toString slot.idx := fun _ _ => rfl
    rw [hname, hname, hrj, hrj', hidx, hidx', hstem]
  have hinit : ∀ js ∈ sets, (World.init sets).sets.get js.nameAny = some js := by
    intro js hjs
    refine Map.get_ofPairs_of_mem ?_ (List.mem_map.mpr ⟨js, hjs, rfl⟩)
    rw [List.map_map]
    exact hnames
  obtain ⟨env, henv⟩ : ∃ env : Env, env.Ok := ⟨⟨fun _ => ⟨true, .created⟩, true, ""⟩, rfl,
    fun _ => ⟨rfl, rfl⟩⟩
  have hdone : ∀ js jobs, Done env (some (reconcileJobset serde env js jobs).reply) := by
    intro js jobs
    refine ⟨fun herror => reply_of_ok henv js jobs (Option.some.inj herror), ?_⟩
    intro i
    rw [(henv.2 i).2]
    exact CreateAnswer.noConfusion
  have hrun := hsound [.reconcile js.nameAny env, .reconcile js'.nameAny env]
  -- the first call creates the Job
  obtain ⟨hout, -, hsets⟩ := step_reconcile serde env (hinit js hjs)
  obtain ⟨job, hjob, hmade⟩ := (hrun _ List.mem_cons_self _ env js rfl (hinit js hjs)).created
    ((congrArg (Done env) hout).mpr (hdone js _)) first hfirst
  -- the second one finds it and leaves it as it is
  have hjs₁ := (hsets js'.nameAny (Ne.symm hne)).trans (hinit js' hjs')
  obtain ⟨hout', hjobs', -⟩ := step_reconcile serde env hjs₁
  obtain ⟨job', hjob', hmade'⟩ := (hrun _ (List.mem_cons_of_mem _ List.mem_cons_self) _ env js' rfl
    hjs₁).created ((congrArg (Done env) hout').mpr (hdone js' _)) first' hfirst'
  have hkept : (reconcileJobset serde env js' (step serde (World.init sets)
      (.reconcile js.nameAny env)).1.jobs).jobs.get (js.jobName first) = some job := by
    rw [reconcileJobset_jobs]
    exact visitAll_keeps 0 _ hjob
  have hafter : (reconcileJobset serde env js' (step serde (World.init sets)
      (.reconcile js.nameAny env)).1.jobs).jobs.get (js'.jobName first') = some job' :=
    hjobs' ▸ hjob'
  rw [hshared, hkept, Option.some.injEq] at hafter
  subst hafter
  -- so it would have two owners
  have howners : [js.ownerReference] = [js'.ownerReference] := hmade.1.symm.trans hmade'.1
  simp only [JobSetObject.ownerReference, List.cons.injEq, OwnerReference.mk.injEq] at howners
  exact hne howners.1.2.2.1

/-- **Every call counts its own Jobs and every slot gets one, in every order of calls, exactly when
no two JobSets agree on the name of a JobSet and a replicated Job.** -/
theorem own_jobs_iff (serde : Serde) (sets : List JobSetObject)
    (hnames : (sets.map JobSetObject.nameAny).Nodup) (hrjs : ∀ js ∈ sets, js.DistinctNames) :
    (∀ run, RunSound serde sets run) ↔ Apart serde sets :=
  ⟨apart_of_runSound hnames, fun hapart run => runSound_of_apart hnames hrjs hapart run⟩

/-! ## 7. Two JobSets that share a name -/

/-- A JobSet with one replicated Job of one replica. -/
def smallJobSet (name rjName : String) : JobSetObject :=
  ⟨some name, some "ml", some ("uid-" ++ name), .obj [("spec", .obj [("replicatedJobs",
    .arr [.obj [("name", .str rjName), ("replicas", .num 1)]])])]⟩

/-- `a` with `b-c` and `a-b` with `c`: both want `a-b-c-0`. -/
def sharingSets : List JobSetObject := [smallJobSet "a" "b-c", smallJobSet "a-b" "c"]

theorem own_jobs_iff_sharingSets :
    (sharingSets.map JobSetObject.nameAny).Nodup ∧ (∀ js ∈ sharingSets, js.DistinctNames) ∧
      ((∀ run, RunSound ⟨fun _ => none, fun _ => none⟩ sharingSets run) ↔
        Apart ⟨fun _ => none, fun _ => none⟩ sharingSets) := by
  have hnames : (sharingSets.map JobSetObject.nameAny).Nodup := by decide +kernel
  have hrjs : ∀ js ∈ sharingSets, js.DistinctNames := by
    simp only [sharingSets, List.forall_mem_cons]
    exact ⟨List.nodup_singleton _, List.nodup_singleton _, fun _ h => absurd h List.not_mem_nil⟩
  exact ⟨hnames, hrjs, own_jobs_iff _ _ hnames hrjs⟩

/-- One of the two JobSets counts the other's Job and never gets its own. -/
theorem own_jobs_shared :
    ¬ ∀ run, RunSound ⟨fun _ => none, fun _ => none⟩ sharingSets run := by
  intro hsound
  have hapart := apart_of_runSound (by decide +kernel) hsound
  refine hapart _ List.mem_cons_self _ (List.mem_cons_of_mem _ List.mem_cons_self)
    (by decide +kernel) ⟨"b-c", 0, ⟨⟨none, none⟩, .obj []⟩⟩ List.mem_cons_self
    ⟨"c", 0, ⟨⟨none, none⟩, .obj []⟩⟩ List.mem_cons_self ?_
  decide +kernel

end Picoshift.JobSet

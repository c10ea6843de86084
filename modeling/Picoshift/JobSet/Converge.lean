/-
# The children converge

A call goes through the slots and may stop at any of them: a Job cannot be read, or creating it fails.  That a creation
FAILED says little.  The request may have been carried out and only its answer was lost; or it is still on its way and is
carried out later, between two calls or in the middle of the next one, after the Job was looked for and before it is
created (`RaceCall`).  Then the API server answers 409, and the call goes on.

Here the API server keeps the requests that are on their way, and a record of the creations that it has carried out
(`Store`).  It carries none out twice, because a Job that exists is never created again; and a call only asks for what it
did not find.  So whatever fails, there is never a child that the JobSet does not ask for, and after any call that returns
all of them are there, each created once (`children_converge`).

When no request is on its way, a round is the one of `JobSet.visit` (`visitRace_eq`), and its `conflict` is what happens when
one is carried out in the middle of the round (`visitRace_conflict`).
-/
import Picoshift.JobSet.Names

namespace Picoshift.JobSet

/-! ## 1. The API server -/

/-- The Jobs that exist, the creations that were given up but may still be carried out, and the names of the Jobs that
were created, in order. -/
structure Store where
  jobs : Map String Job
  late : Map String Job
  created : List String

/-- A request to create a Job is carried out; one that exists is not created again. -/
def Store.put (s : Store) (name : String) (job : Job) : Store :=
  match s.jobs.get name with
  | some _ => s
  | none => { s with jobs := s.jobs.insert name job, created := s.created ++ [name] }

/-- A request that was on its way is carried out. -/
def Store.land (s : Store) (name : String) : Store :=
  match s.late.get name with
  | some job => s.put name job
  | none => s

def Store.landAll (s : Store) (names : List String) : Store := names.foldl Store.land s

/-! ## 2. The call -/

/-- What becomes of a request to create a Job. -/
inductive CreateFate where
  | created
  /-- It is carried out, but the answer is lost. -/
  | lost
  /-- It is given up, and may be carried out later. -/
  | late
  | refused
  deriving DecidableEq, Repr

/-- What happens in one round: the requests that are carried out before it and between looking for the Job and creating
it, whether looking succeeds, and what becomes of the creation. -/
structure RaceCall where
  before : List String
  getOk : Bool
  between : List String
  create : CreateFate
  deriving DecidableEq, Repr

/-- What happens during a call. -/
structure RaceEnv where
  slots : Nat → RaceCall
  patchOk : Bool
  now : String

/-- The API server, and the three counters. -/
structure Race where
  store : Store
  total : UInt32
  succeeded : UInt32
  failed : UInt32

/-- The Jobs and the counters, as `visit` has them. -/
def Race.loop (r : Race) : Loop := ⟨r.store.jobs, r.total, r.succeeded, r.failed⟩

def Race.count (r : Race) (t : Tally) : Race :=
  { r with succeeded := r.succeeded + bump t .succeeded, failed := r.failed + bump t .failed }

/-- One round of the inner loop. -/
def visitRace (js : JobSetObject) (call : RaceCall) (slot : Slot) (r : Race) : Race × Bool :=
  let r := { r with store := r.store.landAll call.before, total := r.total + 1 }
  if call.getOk = false then (r, false)
  else
  match r.store.jobs.get (js.jobName slot) with
  | some existing => (r.count existing.tally, true)
  | none =>
    let r := { r with store := r.store.landAll call.between }
    match r.store.jobs.get (js.jobName slot) with
    | some _ => (r, true) -- 409
    | none =>
      match call.create with
      | .created => ({ r with store := r.store.put (js.jobName slot) (js.child slot) }, true)
      | .lost => ({ r with store := r.store.put (js.jobName slot) (js.child slot) }, false)
      | .late =>
        ({ r with store := { r.store with late := r.store.late.insert (js.jobName slot) (js.child slot) } }, false)
      | .refused => (r, false)

/-- Both loops, from the `i`-th slot on. -/
def visitAllRace (js : JobSetObject) (calls : Nat → RaceCall) : Nat → List Slot → Race → Race × Bool
  | _, [], r => (r, true)
  | i, slot :: slots, r =>
    match visitRace js (calls i) slot r with
    | (r, false) => (r, false)
    | (r, true) => visitAllRace js calls (i + 1) slots r

/-- `reconcile_jobset`: the API server, the patch that was written, and the reply. -/
def reconcileRace (serde : Serde) (env : RaceEnv) (js : JobSetObject) (store : Store) :
    Store × Option StatusPatch × Reply :=
  if js.suspended then (store, none, .awaitChange)
  else if js.terminal.isSome then (store, none, .awaitChange)
  else
  match js.replicatedJobs with
  | none => (store, none, .awaitChange)
  | some rjs =>
    match visitAllRace js env.slots 0 (slotsOf serde rjs) ⟨store, 0, 0, 0⟩ with
    | (r, false) => (r.store, none, .error)
    | (r, true) =>
      let out := finish ⟨fun _ => ⟨true, .created⟩, env.patchOk, env.now⟩ r.loop
      (r.store, out.patch, out.reply)

/-! ## 3. The round that was translated first -/

/-- The answer as `visit` has it. -/
def CreateFate.answer : CreateFate → CreateAnswer
  | .created => .created
  | .lost => .lost
  | .late => .refused
  | .refused => .refused

theorem Race.loop_count (r : Race) (t : Tally) : (r.count t).loop = r.loop.count t := by
  cases t <;> simp [Race.loop, Race.count, Loop.count, bump]

theorem Store.put_jobs {s : Store} {name : String} (h : s.jobs.get name = none) (job : Job) :
    (s.put name job).jobs = s.jobs.insert name job := by
  rw [Store.put, h]

/-- Where nothing is on its way, a round is a round of `visit`. -/
theorem visitRace_eq (js : JobSetObject) (getOk : Bool) (fate : CreateFate) (slot : Slot) (r : Race) :
    ((visitRace js ⟨[], getOk, [], fate⟩ slot r).1.loop, (visitRace js ⟨[], getOk, [], fate⟩ slot r).2) =
      visit js ⟨getOk, fate.answer⟩ slot r.loop := by
  unfold visitRace visit
  cases getOk with
  | false => rfl
  | true =>
    cases hget : r.store.jobs.get (js.jobName slot) with
    | some existing =>
      simp only [Store.landAll, List.foldl_nil, Race.loop, hget]
      exact congrArg (·, true) (Race.loop_count _ _)
    | none =>
      simp only [Store.landAll, List.foldl_nil, Race.loop, hget]
      cases fate <;> simp [CreateFate.answer, Store.put_jobs hget]

/-- A request that is carried out in the middle of a round makes the conflict of `visit`. -/
theorem visitRace_conflict {js : JobSetObject} {slot : Slot} {r : Race} {between : List String} {job : Job}
    (habsent : r.store.jobs.get (js.jobName slot) = none)
    (hlanded : (r.store.landAll between).jobs.get (js.jobName slot) = some job) (fate : CreateFate) :
    visitRace js ⟨[], true, between, fate⟩ slot r =
        ({ r with store := r.store.landAll between, total := r.total + 1 }, true) ∧
      visit js ⟨true, .conflict⟩ slot r.loop = ({ r.loop with total := r.total + 1 }, true) := by
  have hstart : r.store.landAll [] = r.store := rfl
  constructor
  · simp only [visitRace, hstart, habsent, hlanded]
    rfl
  · simp only [visit, Race.loop, habsent]
    rfl

/-! ## 4. What the API server keeps -/

/-- `others` are the Jobs that were there at the beginning, `names` the names that creations are asked for: what was
there is there, what else is there was created once, and under one of the names. -/
structure Orderly (names : List String) (others : Map String Job) (s : Store) : Prop where
  kept : ∀ n, (others.get n).isSome → (s.jobs.get n).isSome
  mem_created : ∀ n, n ∈ s.created ↔ others.get n = none ∧ (s.jobs.get n).isSome
  nodup : s.created.Nodup
  named : ∀ n ∈ s.created, n ∈ names
  late : ∀ n, (s.late.get n).isSome → n ∈ names

section Store

variable {names : List String} {others : Map String Job} {s : Store}

/-- No request removes a Job. -/
theorem Store.isSome_put (s : Store) (name : String) (job : Job) {n : String} (h : (s.jobs.get n).isSome) :
    ((s.put name job).jobs.get n).isSome := by
  unfold Store.put
  split
  · exact h
  · by_cases hn : n = name
    · rw [hn, Map.get_insert_self]
      rfl
    · rwa [Map.get_insert_ne _ hn]

/-- What a request asks for is there afterwards. -/
theorem Store.isSome_put_self (s : Store) (name : String) (job : Job) : ((s.put name job).jobs.get name).isSome := by
  unfold Store.put
  split
  · rename_i h
    rw [h]
    rfl
  · rw [Map.get_insert_self]
    rfl

theorem Store.isSome_land (s : Store) (name : String) {n : String} (h : (s.jobs.get n).isSome) :
    ((s.land name).jobs.get n).isSome := by
  unfold Store.land
  split
  · exact s.isSome_put name _ h
  · exact h

theorem Store.isSome_landAll (s : Store) (landing : List String) {n : String} (h : (s.jobs.get n).isSome) :
    ((s.landAll landing).jobs.get n).isSome := by
  induction landing generalizing s with
  | nil => exact h
  | cons name landing ih => exact ih (s.land name) (s.isSome_land name h)

/-- A request under one of the names keeps the invariant. -/
theorem Orderly.put (h : Orderly names others s) {name : String} (hname : name ∈ names) (job : Job) :
    Orderly names others (s.put name job) := by
  unfold Store.put
  split
  · exact h
  · rename_i habsent
    have hother : others.get name = none := by
      rw [← Option.not_isSome_iff_eq_none]
      intro hsome
      have := h.kept name hsome
      rw [habsent] at this
      cases this
    have hnew : name ∉ s.created := by
      rw [h.mem_created, habsent]
      exact fun hmem => Bool.false_ne_true hmem.2
    have hget : ∀ n, ((s.jobs.insert name job).get n).isSome ↔ n = name ∨ (s.jobs.get n).isSome := by
      intro n
      by_cases hn : n = name
      · simp [hn]
      · simp [hn]
    refine ⟨fun n hn => (hget n).mpr (Or.inr (h.kept n hn)), fun n => ?_, ?_, fun n hn => ?_, h.late⟩
    · rw [List.mem_append, List.mem_singleton, h.mem_created, hget]
      constructor
      · rintro (⟨hfree, hsome⟩ | rfl)
        · exact ⟨hfree, Or.inr hsome⟩
        · exact ⟨hother, Or.inl rfl⟩
      · rintro ⟨hfree, hn | hsome⟩
        · exact Or.inr hn
        · exact Or.inl ⟨hfree, hsome⟩
    · exact List.Nodup.append h.nodup (List.nodup_singleton name)
        (List.disjoint_singleton.mpr hnew)
    · rcases List.mem_append.mp hn with hn | hn
      · exact h.named n hn
      · rwa [List.mem_singleton.mp hn]

theorem Orderly.land (h : Orderly names others s) (name : String) : Orderly names others (s.land name) := by
  unfold Store.land
  split
  · rename_i job hlate
    exact h.put (h.late name (by rw [hlate]; rfl)) job
  · exact h

theorem Orderly.landAll (h : Orderly names others s) (landing : List String) : Orderly names others (s.landAll landing) := by
  induction landing generalizing s with
  | nil => exact h
  | cons name landing ih => exact ih (h.land name)

/-- A request that is given up may be carried out later. -/
theorem Orderly.giveUp (h : Orderly names others s) {name : String} (hname : name ∈ names) (job : Job) :
    Orderly names others { s with late := s.late.insert name job } := by
  refine ⟨h.kept, h.mem_created, h.nodup, h.named, fun n hn => ?_⟩
  by_cases heq : n = name
  · rwa [heq]
  · rw [Map.get_insert_ne _ heq] at hn
    exact h.late n hn

end Store

/-! ## 5. What a call does -/

/-- What a round or a loop does to the API server: it keeps the invariant and every Job. -/
structure Keeps (names : List String) (others : Map String Job) (s s' : Store) : Prop where
  inv : Orderly names others s → Orderly names others s'
  jobs : ∀ n, (s.jobs.get n).isSome → (s'.jobs.get n).isSome

section Rounds

variable {names : List String} {others : Map String Job} {js : JobSetObject}

theorem Keeps.refl (names : List String) (others : Map String Job) (s : Store) : Keeps names others s s :=
  ⟨id, fun _ h => h⟩

theorem Keeps.trans {s s' s'' : Store} (h : Keeps names others s s') (h' : Keeps names others s' s'') :
    Keeps names others s s'' :=
  ⟨h'.inv ∘ h.inv, fun n hn => h'.jobs n (h.jobs n hn)⟩

theorem keeps_landAll (names : List String) (others : Map String Job) (s : Store) (landing : List String) :
    Keeps names others s (s.landAll landing) :=
  ⟨fun h => h.landAll landing, fun _ h => s.isSome_landAll landing h⟩

theorem keeps_put {name : String} (hname : name ∈ names) (others : Map String Job) (s : Store) (job : Job) :
    Keeps names others s (s.put name job) :=
  ⟨fun h => h.put hname job, fun _ h => s.isSome_put name job h⟩

/-- **One round** keeps the invariant, and leaves the slot a Job when it ends well. -/
theorem visitRace_spec {slot : Slot} (hslot : js.jobName slot ∈ names) (others : Map String Job) (call : RaceCall)
    (r : Race) : Keeps names others r.store (visitRace js call slot r).1.store ∧
      ((visitRace js call slot r).2 = true →
        ((visitRace js call slot r).1.store.jobs.get (js.jobName slot)).isSome) := by
  have hbefore := keeps_landAll names others r.store call.before
  unfold visitRace
  dsimp only
  split
  · exact ⟨hbefore, fun h => absurd h Bool.false_ne_true⟩
  · cases hget : (r.store.landAll call.before).jobs.get (js.jobName slot) with
    | some existing =>
      have hsome : ((r.store.landAll call.before).jobs.get (js.jobName slot)).isSome := by
        rw [hget]
        rfl
      exact ⟨hbefore, fun _ => hsome⟩
    | none =>
      have hbetween := hbefore.trans (keeps_landAll names others _ call.between)
      dsimp only
      cases hlanded : ((r.store.landAll call.before).landAll call.between).jobs.get (js.jobName slot) with
      | some job => exact ⟨hbetween, fun _ => by rw [hlanded]; rfl⟩
      | none =>
        have hput := hbetween.trans (keeps_put hslot others _ (js.child slot))
        cases call.create with
        | created => exact ⟨hput, fun _ => Store.isSome_put_self _ _ _⟩
        | lost => exact ⟨hput, fun h => absurd h Bool.false_ne_true⟩
        | late =>
          have hlate := hbetween.trans ⟨fun h => h.giveUp hslot (js.child slot), fun _ h => h⟩
          exact ⟨hlate, fun h => absurd h Bool.false_ne_true⟩
        | refused => exact ⟨hbetween, fun h => absurd h Bool.false_ne_true⟩

/-- **The loop** keeps the invariant, and leaves every slot a Job when it ends well. -/
theorem visitAllRace_spec (others : Map String Job) (calls : Nat → RaceCall) {slots : List Slot}
    (hslots : ∀ slot ∈ slots, js.jobName slot ∈ names) (i : Nat) (r : Race) :
    Keeps names others r.store (visitAllRace js calls i slots r).1.store ∧
      ((visitAllRace js calls i slots r).2 = true →
        ∀ slot ∈ slots, ((visitAllRace js calls i slots r).1.store.jobs.get (js.jobName slot)).isSome) := by
  induction slots generalizing i r with
  | nil => exact ⟨Keeps.refl names others r.store, fun _ _ h => absurd h List.not_mem_nil⟩
  | cons slot slots ih =>
    obtain ⟨hkeeps, hjob⟩ := visitRace_spec (hslots slot List.mem_cons_self) others (calls i) r
    rw [visitAllRace]
    rcases hround : visitRace js (calls i) slot r with ⟨mid, ok⟩
    rw [hround] at hkeeps hjob
    cases ok with
    | false => exact ⟨hkeeps, nofun⟩
    | true =>
      obtain ⟨hkeeps', hjobs'⟩ := ih (fun slot' h => hslots slot' (List.mem_cons_of_mem _ h)) (i + 1) mid
      refine ⟨hkeeps.trans hkeeps', fun hok slot' hslot' => ?_⟩
      rcases List.mem_cons.mp hslot' with rfl | hslot'
      · exact hkeeps'.jobs _ (hjob rfl)
      · exact hjobs' hok slot' hslot'

end Rounds

/-! ## 6. The children of a JobSet -/

/-- How many Jobs a replicated Job asks for. -/
def replicaCount (rj : Json) : Nat := ((rj.get "replicas").bind Json.asU64).getD 1

/-- The names of the children: `{jobset}-{replicatedJob}-{i}` for every `i` below the count. -/
def JobSetObject.childNames (js : JobSetObject) : List String :=
  (js.replicatedJobs.getD []).flatMap fun rj =>
    (List.range (replicaCount rj)).map (JobSet.jobName js.nameAny (rjName rj))

/-- A JobSet that is neither suspended nor over, with distinct names and with counts that are no `u32` beyond 2^31. -/
structure Proper (js : JobSetObject) : Prop where
  active : js.suspended = false
  running : js.terminal = none
  distinct : js.DistinctNames
  counts : ∀ rj ∈ js.replicatedJobs.getD [], replicaCount rj < 2 ^ 31

/-- The names of the slots are those of the children. -/
theorem map_jobName_slotsOf (serde : Serde) {js : JobSetObject}
    (h : ∀ rj ∈ js.replicatedJobs.getD [], replicaCount rj < 2 ^ 31) :
    (slotsOf serde (js.replicatedJobs.getD [])).map js.jobName = js.childNames := by
  rw [slotsOf, JobSetObject.childNames, List.map_flatMap]
  refine List.flatMap_congr fun rj hrj => ?_
  have hcount : replicas rj = replicaCount rj := Nat.mod_eq_of_lt ((h rj hrj).trans (by decide))
  rw [hcount, List.map_map]
  rfl

theorem Proper.nodup_childNames {js : JobSetObject} (h : Proper js) : js.childNames.Nodup := by
  have hnodup := h.distinct.nodup_jobName ⟨fun _ => none, fun _ => none⟩
  rwa [JobSetObject.slots, h.active, h.running, if_neg Bool.false_ne_true, Option.isSome_none,
    if_neg Bool.false_ne_true, map_jobName_slotsOf _ h.counts] at hnodup

/-- All children are there. -/
def Complete (js : JobSetObject) (s : Store) : Prop := ∀ n ∈ js.childNames, (s.jobs.get n).isSome

/-- Writing the status is the last thing that can fail. -/
theorem reply_of_finish_patch {env : Env} {st : Loop} (h : (finish env st).patch.isSome) :
    (finish env st).reply ≠ .error := by
  rw [finish] at h ⊢
  cases hpatch : statusPatch env.now st with
  | none => exact Reply.noConfusion
  | some p =>
    rw [hpatch] at h
    dsimp only at h ⊢
    split
    · rename_i hfailed
      rw [if_pos hfailed] at h
      cases h
    · dsimp only
      split <;> exact Reply.noConfusion

/-- **A call** keeps the invariant, and all children are there when it returns. -/
theorem reconcileRace_spec (serde : Serde) {js₀ js : JobSetObject} (hproper : Proper js₀) (hevolved : Evolved js₀ js)
    (others : Map String Job) (env : RaceEnv) {s : Store} (hover : js.terminal.isSome = true → Complete js₀ s) :
    Keeps js₀.childNames others s (reconcileRace serde env js s).1 ∧
      ((reconcileRace serde env js s).2.2 ≠ .error → Complete js₀ (reconcileRace serde env js s).1) ∧
      ((reconcileRace serde env js s).2.1.isSome → (reconcileRace serde env js s).2.2 ≠ .error) := by
  have hsuspended : js.suspended = false := by
    rw [JobSetObject.suspended, hevolved.spec]
    exact hproper.active
  have hrjs : js.replicatedJobs = js₀.replicatedJobs := by
    rw [JobSetObject.replicatedJobs, hevolved.spec]
    rfl
  unfold reconcileRace
  rw [hsuspended, if_neg Bool.false_ne_true]
  split
  · rename_i hterminal
    exact ⟨Keeps.refl _ others s, fun _ => hover hterminal, fun h => absurd h Bool.false_ne_true⟩
  · cases hnone : js.replicatedJobs with
    | none =>
      refine ⟨Keeps.refl _ others s, fun _ n hn => ?_, fun h => absurd h Bool.false_ne_true⟩
      rw [JobSetObject.childNames, ← hrjs, hnone] at hn
      cases hn
    | some rjs =>
      have hnames : (slotsOf serde rjs).map js.jobName = js₀.childNames := by
        rw [← map_jobName_slotsOf serde hproper.counts, ← hrjs, hnone]
        exact List.map_congr_left fun slot _ => hevolved.jobName slot
      have hslots : ∀ slot ∈ slotsOf serde rjs, js.jobName slot ∈ js₀.childNames := by
        intro slot hslot
        rw [← hnames]
        exact List.mem_map_of_mem hslot
      obtain ⟨hkeeps, hjobs⟩ := visitAllRace_spec others env.slots hslots 0 ⟨s, 0, 0, 0⟩
      dsimp only
      rcases hloop : visitAllRace js env.slots 0 (slotsOf serde rjs) ⟨s, 0, 0, 0⟩ with ⟨r, ok⟩
      rw [hloop] at hkeeps hjobs
      cases ok with
      | false => exact ⟨hkeeps, fun h => absurd rfl h, fun h => absurd h Bool.false_ne_true⟩
      | true =>
        refine ⟨hkeeps, fun _ n hn => ?_, fun hpatch => ?_⟩
        · rw [← hnames] at hn
          obtain ⟨slot, hslot, rfl⟩ := List.mem_map.mp hn
          exact hjobs rfl slot hslot
        · exact reply_of_finish_patch hpatch

/-! ## 7. Runs -/

/-- A JobSet, and the API server. -/
structure RaceWorld where
  js : JobSetObject
  store : Store

/-- What happens: a call, a request that was on its way is carried out, or progress of a Job. -/
inductive RaceInput where
  | call (env : RaceEnv)
  | land (name : String)
  | progress (name : String) (status : JobStatus)

def raceStep (serde : Serde) (w : RaceWorld) : RaceInput → RaceWorld × Option Reply
  | .call env =>
    let out := reconcileRace serde env w.js w.store
    (⟨(out.2.1.map fun p => p.apply w.js).getD w.js, out.1⟩, some out.2.2)
  | .land name => ({ w with store := w.store.land name }, none)
  | .progress name status =>
    match w.store.jobs.get name with
    | none => (w, none)
    | some job =>
      let jobs := w.store.jobs.insert name { job with status := some status }
      ({ w with store := { w.store with jobs := jobs } }, none)

def raceCluster (serde : Serde) : Machine RaceWorld RaceInput (Option Reply) := ⟨raceStep serde⟩

/-- A new JobSet, beside other Jobs. -/
def RaceWorld.init (js : JobSetObject) (others : Map String Job) : RaceWorld := ⟨js, ⟨others, Map.empty, []⟩⟩

structure WorldInv (js₀ : JobSetObject) (others : Map String Job) (w : RaceWorld) : Prop where
  evolved : Evolved js₀ w.js
  orderly : Orderly js₀.childNames others w.store
  finished : w.js.terminal.isSome = true → Complete js₀ w.store

theorem worldInv_init {js : JobSetObject} (hproper : Proper js) (others : Map String Job) :
    WorldInv js others (RaceWorld.init js others) where
  evolved := Evolved.refl js
  orderly := by
    refine ⟨fun _ h => h, fun n => ?_, List.nodup_nil, nofun, nofun⟩
    refine iff_of_false List.not_mem_nil ?_
    rintro ⟨hnone, hsome⟩
    have hsome' : (others.get n).isSome := hsome
    rw [hnone] at hsome'
    cases hsome'
  finished h := by
    have hnone : (RaceWorld.init js others).js.terminal = none := hproper.running
    rw [hnone] at h
    cases h

/-- A Job that makes progress stays. -/
theorem isSome_insert_status {jobs : Map String Job} {name : String} {job : Job}
    (h : jobs.get name = some job) (job' : Job) (n : String) :
    ((jobs.insert name job').get n).isSome = (jobs.get n).isSome := by
  by_cases hn : n = name
  · rw [hn, Map.get_insert_self, h]
    rfl
  · rw [Map.get_insert_ne _ hn]

theorem worldInv_step {serde : Serde} {js₀ : JobSetObject} (hproper : Proper js₀) {others : Map String Job}
    {w : RaceWorld} (h : WorldInv js₀ others w) (i : RaceInput) : WorldInv js₀ others (raceStep serde w i).1 := by
  cases i with
  | call env =>
    obtain ⟨hkeeps, hcomplete, hpatch⟩ := reconcileRace_spec serde hproper h.evolved others env h.finished
    rw [raceStep]
    dsimp only
    cases hp : (reconcileRace serde env w.js w.store).2.1 with
    | none => exact ⟨h.evolved, hkeeps.inv h.orderly, fun hover n hn => hkeeps.jobs n (h.finished hover n hn)⟩
    | some p =>
      rw [hp] at hpatch
      exact ⟨h.evolved.apply p, hkeeps.inv h.orderly, fun _ => hcomplete (hpatch rfl)⟩
  | land name =>
    exact ⟨h.evolved, h.orderly.land name, fun hover n hn => w.store.isSome_land name (h.finished hover n hn)⟩
  | progress name status =>
    rw [raceStep]
    cases hjob : w.store.jobs.get name with
    | none => exact h
    | some job =>
      have hsome := isSome_insert_status hjob { job with status := some status }
      refine ⟨h.evolved, ⟨fun n hn => ?_, fun n => ?_, h.orderly.nodup, h.orderly.named, h.orderly.late⟩,
        fun hover n hn => ?_⟩
      · exact (hsome n).trans (h.orderly.kept n hn)
      · exact (h.orderly.mem_created n).trans (by rw [hsome n])
      · exact (hsome n).trans (h.finished hover n hn)

/-- **The children converge.**  For a JobSet that is active, with distinct names and counts below 2^31, none of whose
children is there at the beginning: whatever fails, in any run, every Job that was not there at the beginning has the name
of a child, and after every call that returns without an error all children are there, each of them created once. -/
theorem children_converge (serde : Serde) {js : JobSetObject} (hproper : Proper js) {others : Map String Job}
    (hfree : ∀ n ∈ js.childNames, others.get n = none) (run : List RaceInput) :
    ∀ e ∈ (raceCluster serde).trace (RaceWorld.init js others) run,
      (∀ n, others.get n = none → (e.after.store.jobs.get n).isSome → n ∈ js.childNames) ∧
      (∀ reply, e.output = some reply → reply ≠ .error →
        (∀ n ∈ js.childNames, (e.after.store.jobs.get n).isSome) ∧ e.after.store.created.Perm js.childNames) := by
  intro e he
  obtain ⟨h₁, h₂, htrace⟩ := List.append_of_mem he
  obtain ⟨is, i, -, -, -, rfl⟩ := (raceCluster serde).trace_eq_append_cons htrace
  have hbefore : WorldInv js others ((raceCluster serde).exec (RaceWorld.init js others) is) :=
    (raceCluster serde).invariant (worldInv_init hproper others) (fun _ i h => worldInv_step hproper h i) is
  generalize (raceCluster serde).exec (RaceWorld.init js others) is = w at *
  have hafter : WorldInv js others (raceStep serde w i).1 := worldInv_step hproper hbefore i
  refine ⟨fun n hn hsome => ?_, fun reply hreply hok => ?_⟩
  · exact hafter.orderly.named n ((hafter.orderly.mem_created n).mpr ⟨hn, hsome⟩)
  · -- only a call replies
    cases i with
    | land name => cases hreply
    | progress name status =>
      have hnone : (raceStep serde w (.progress name status)).2 = none := by
        rw [raceStep]
        split <;> rfl
      cases hnone.symm.trans hreply
    | call env =>
      obtain ⟨-, hcomplete, -⟩ := reconcileRace_spec serde hproper hbefore.evolved others env hbefore.finished
      have hall : Complete js (raceStep serde w (.call env)).1.store :=
        hcomplete fun herror => hok (herror ▸ (Option.some.inj hreply).symm)
      refine ⟨hall, (List.perm_ext_iff_of_nodup hafter.orderly.nodup hproper.nodup_childNames).mpr fun n => ?_⟩
      refine ⟨hafter.orderly.named n, fun hn => ?_⟩
      exact (hafter.orderly.mem_created n).mpr ⟨hfree n hn, hall n hn⟩

/-- A JobSet of two Jobs. -/
def evalJobSet : JobSetObject :=
  ⟨some "eval", some "ml", some "uid-7", .obj [("spec", .obj [("replicatedJobs",
    .arr [.obj [("name", .str "worker"), ("replicas", .num 2)]])])]⟩

/-- No template is read. -/
def blankSerde : Serde := ⟨fun _ => none, fun _ => none⟩

/-- The first creation is given up; it is carried out in the middle of the second call. -/
def evalRun : List RaceInput :=
  [.call ⟨fun _ => ⟨[], true, [], .late⟩, true, "t1"⟩,
    .call ⟨fun _ => ⟨[], true, ["eval-worker-0"], .created⟩, true, "t2"⟩]

theorem evalJobSet_proper : Proper evalJobSet where
  active := by decide +kernel
  running := by decide +kernel
  distinct := by
    unfold JobSetObject.DistinctNames
    decide +kernel
  counts := by decide +kernel

theorem children_converge_eval :
    ((raceCluster blankSerde).trace (RaceWorld.init evalJobSet Map.empty) evalRun).map Entry.output =
        [some .error, some .requeue] ∧
      ∀ e ∈ (raceCluster blankSerde).trace (RaceWorld.init evalJobSet Map.empty) evalRun,
        (∀ n, (Map.empty : Map String Job).get n = none → (e.after.store.jobs.get n).isSome →
          n ∈ evalJobSet.childNames) ∧
        (∀ reply, e.output = some reply → reply ≠ .error →
          (∀ n ∈ evalJobSet.childNames, (e.after.store.jobs.get n).isSome) ∧
            e.after.store.created.Perm evalJobSet.childNames) :=
  ⟨by decide +kernel, children_converge blankSerde evalJobSet_proper (fun _ _ => rfl) evalRun⟩

end Picoshift.JobSet

/-
# The ImageStream controller

`reconcile_imagestream` copies the tags of an ImageStream's spec into its status, each with the image that it is taken
from.  Whether there is anything to do is decided by `status_needs_update`, and the two do not read the tags in the same
way.  To the test a tag without a name or without an image has the EMPTY one; the copy DROPS it.  So a list with such a
tag is copied to a shorter list, the test sees another length, and the next call copies it again: a call leaves nothing
to do exactly when there was nothing to do or all tags are complete (`settled_iff`).

The test itself is one-sided.  It compares the lengths, and looks for every tag of the spec in the status; what else is
in the status hides behind a tag that is there twice, and when the spec has no tags the test says that all is well.  With
a call after each edit the status lists the tags of the spec exactly as long as every edit is noticed, or leaves as many
different tags in the spec as there are in the status (`status_faithful_iff`).
-/
import Mathlib.Data.Finset.Card
import Mathlib.Data.Finset.Dedup
import Picoshift.Lib.Machine
import Picoshift.Lib.MergePatch
import Picoshift.Proxy.Types

namespace Picoshift.ImageStream

open Proxy (DynamicObject)

/-! ## 1. The controller -/

/-- `spec_tags`. -/
def specTags (is : DynamicObject) : Option (List Json) :=
  ((is.data.get "spec").bind (·.get "tags")).bind Json.asArray

/-- `status_tags`. -/
def statusTags (is : DynamicObject) : Option (List Json) :=
  ((is.data.get "status").bind (·.get "tags")).bind Json.asArray

/-- A tag of the spec: `tag_name` and `spec_image`. -/
def specPair (tag : Json) : String × String :=
  (((tag.get "name").bind Json.asStr).getD "", (((tag.get "from").bind (·.get "name")).bind Json.asStr).getD "")

/-- A tag of the status: `st_name` and `st_image`. -/
def statusPair (st : Json) : String × String :=
  (((st.get "tag").bind Json.asStr).getD "",
    (((((st.get "items").bind Json.asArray).bind List.head?).bind
      (·.get "dockerImageReference")).bind Json.asStr).getD "")

/-- `status_needs_update`. -/
def statusNeedsUpdate (is : DynamicObject) : Bool :=
  match specTags is with
  | none => false
  | some [] => false
  | some specTags =>
    match statusTags is with
    | none => true
    | some statusTags =>
      if specTags.length ≠ statusTags.length then true
      else specTags.any fun tag => !statusTags.any fun st => statusPair st == specPair tag

/-- An entry of the status. -/
def tagEntry (now tagName imageRef : String) : Json :=
  .obj [("tag", .str tagName), ("items", .arr [.obj [("dockerImageReference", .str imageRef),
    ("created", .str now), ("generation", .num 1), ("image", .str "")]])]

/-- The entry for one tag of the spec; a tag without a name or an image has none. -/
def statusTag (now : String) (tag : Json) : Option Json := do
  let tagName ← (← tag.get "name").asStr
  let fromImage ← tag.get "from"
  let imageRef ← (← fromImage.get "name").asStr
  some (tagEntry now tagName imageRef)

/-- `status_patch`. -/
def statusPatch (now : String) (tags : List Json) : Json :=
  .obj [("status", .obj [("dockerImageRepository", .str ""), ("tags", .arr (tags.filterMap (statusTag now)))])]

/-- `reconcile_imagestream`: the ImageStream afterwards, and whether the call succeeds. -/
def reconcileImagestream (patchOk : Bool) (now : String) (is : DynamicObject) : DynamicObject × Bool :=
  if statusNeedsUpdate is = false then (is, true)
  else
  match specTags is with
  | none => (is, true)
  | some [] => (is, true)
  | some tags =>
    if patchOk = false then (is, false)
    else ({ is with data := is.data.merge (statusPatch now tags) }, true)

/-! ## 2. The test -/

theorem statusNeedsUpdate_cons {is : DynamicObject} {tag : Json} {tags : List Json}
    (h : specTags is = some (tag :: tags)) : statusNeedsUpdate is = false ↔
      ∃ sts, statusTags is = some sts ∧ (tag :: tags).length = sts.length ∧
        ∀ t ∈ tag :: tags, ∃ st ∈ sts, statusPair st = specPair t := by
  rw [statusNeedsUpdate, h]
  cases statusTags is with
  | none => simp
  | some sts =>
    by_cases hlength : (tag :: tags).length = sts.length
    · simp [hlength]
    · simp only [List.length_cons] at hlength
      simp [hlength]

/-- Without tags there is nothing to do. -/
theorem specTags_of_needsUpdate {is : DynamicObject} (h : statusNeedsUpdate is = true) :
    ∃ tag tags, specTags is = some (tag :: tags) := by
  unfold statusNeedsUpdate at h
  cases htags : specTags is with
  | none =>
    rw [htags] at h
    cases h
  | some tags =>
    cases tags with
    | nil =>
      rw [htags] at h
      cases h
    | cons tag tags => exact ⟨tag, tags, rfl⟩

/-! ## 3. The copy -/

/-- The tag has a name and an image. -/
def Complete (tag : Json) : Prop :=
  ((tag.get "name").bind Json.asStr).isSome ∧ (((tag.get "from").bind (·.get "name")).bind Json.asStr).isSome

theorem statusTag_eq (now : String) (tag : Json) : statusTag now tag =
    ((tag.get "name").bind Json.asStr).bind fun tagName =>
      (((tag.get "from").bind (·.get "name")).bind Json.asStr).map (tagEntry now tagName) := by
  simp only [statusTag, Option.bind_assoc, Option.map_eq_bind]
  rfl

theorem statusTag_isSome_iff (now : String) (tag : Json) : (statusTag now tag).isSome ↔ Complete tag := by
  rw [statusTag_eq, Complete]
  cases (tag.get "name").bind Json.asStr with
  | none => simp
  | some tagName => rw [Option.bind_some, Option.isSome_map, Option.isSome_some, eq_self, true_and]

/-- An entry reads as the tag it was made from. -/
theorem statusPair_statusTag {now : String} {tag st : Json} (h : statusTag now tag = some st) :
    statusPair st = specPair tag := by
  rw [statusTag_eq] at h
  obtain ⟨tagName, hname, hentry⟩ := Option.bind_eq_some_iff.mp h
  obtain ⟨imageRef, himage, rfl⟩ := Option.map_eq_some_iff.mp hentry
  rw [specPair, hname, himage]
  rfl

/-- A list of complete tags is copied whole, and any other is not. -/
theorem length_copy_iff (now : String) (tags : List Json) :
    (tags.filterMap (statusTag now)).length = tags.length ↔ ∀ tag ∈ tags, Complete tag := by
  rw [List.length_filterMap_eq_countP, List.countP_eq_length]
  simp only [statusTag_isSome_iff]

/-- The status pairs of a copy are the pairs of the complete tags. -/
theorem map_statusPair_copy (now : String) {tags : List Json} (h : ∀ tag ∈ tags, Complete tag) :
    (tags.filterMap (statusTag now)).map statusPair = tags.map specPair := by
  induction tags with
  | nil => rfl
  | cons tag tags ih =>
    obtain ⟨st, hst⟩ := Option.isSome_iff_exists.mp ((statusTag_isSome_iff now tag).mpr (h tag List.mem_cons_self))
    rw [List.filterMap_cons_some hst, List.map_cons, List.map_cons, statusPair_statusTag hst,
      ih fun t ht => h t (List.mem_cons_of_mem _ ht)]

/-! ## 4. One call -/

theorem specTags_patched (is : DynamicObject) (now : String) (tags : List Json) :
    specTags { is with data := is.data.merge (statusPatch now tags) } = specTags is := by
  rw [specTags, statusPatch, Json.get_merge_of_not_mem (by simp), specTags]

theorem statusTags_patched (is : DynamicObject) (now : String) (tags : List Json) :
    statusTags { is with data := is.data.merge (statusPatch now tags) } =
      some (tags.filterMap (statusTag now)) := by
  have hmem : ("tags", Json.arr (tags.filterMap (statusTag now))) ∈
      [("dockerImageRepository", Json.str ""), ("tags", Json.arr (tags.filterMap (statusTag now)))] :=
    List.mem_cons_of_mem _ List.mem_cons_self
  rw [statusTags, statusPatch, Json.get_merge_singleton Json.noConfusion, Option.bind_some,
    Json.get_merge_of_mem (by simp) hmem Json.noConfusion, Json.merge_arr]
  rfl

/-- A call with nothing to do does nothing. -/
theorem reconcileImagestream_of_settled {is : DynamicObject} (h : statusNeedsUpdate is = false) (now : String) :
    (reconcileImagestream true now is).1 = is := by
  rw [reconcileImagestream, if_pos h]

/-- Any other leaves a copy of the tags in the status. -/
theorem reconcileImagestream_of_needsUpdate {is : DynamicObject} (h : statusNeedsUpdate is = true) (now : String) :
    specTags (reconcileImagestream true now is).1 = specTags is ∧
      statusTags (reconcileImagestream true now is).1 =
        some (((specTags is).getD []).filterMap (statusTag now)) := by
  obtain ⟨tag, tags, htags⟩ := specTags_of_needsUpdate h
  have hafter : (reconcileImagestream true now is).1 =
      { is with data := is.data.merge (statusPatch now (tag :: tags)) } := by
    rw [reconcileImagestream, h, htags]
    rfl
  rw [hafter, htags]
  exact ⟨(specTags_patched is now _).trans htags, statusTags_patched is now _⟩

/-- The copy satisfies the test exactly when nothing is dropped. -/
theorem settled_copy_iff {is : DynamicObject} (h : statusNeedsUpdate is = true) (now : String) :
    statusNeedsUpdate (reconcileImagestream true now is).1 = false ↔
      ∀ tag ∈ (specTags is).getD [], Complete tag := by
  obtain ⟨tag, tags, htags⟩ := specTags_of_needsUpdate h
  obtain ⟨hspec, hstatus⟩ := reconcileImagestream_of_needsUpdate h now
  rw [htags] at hspec hstatus ⊢
  rw [statusNeedsUpdate_cons hspec, Option.getD_some]
  constructor
  · rintro ⟨sts, hsts, hlength, -⟩
    rw [hstatus, Option.some.injEq] at hsts
    exact (length_copy_iff now _).mp (hsts ▸ hlength.symm)
  · intro hcomplete
    refine ⟨_, hstatus, ((length_copy_iff now _).mpr hcomplete).symm, fun t ht => ?_⟩
    obtain ⟨st, hst⟩ := Option.isSome_iff_exists.mp ((statusTag_isSome_iff now t).mpr (hcomplete t ht))
    exact ⟨st, List.mem_filterMap.mpr ⟨t, ht, hst⟩, statusPair_statusTag hst⟩

/-- **A call leaves nothing to do exactly when there was nothing to do or all tags are complete.** -/
theorem settled_iff (now : String) (is : DynamicObject) :
    statusNeedsUpdate (reconcileImagestream true now is).1 = false ↔
      statusNeedsUpdate is = false ∨ ∀ tag ∈ (specTags is).getD [], Complete tag := by
  cases hneeds : statusNeedsUpdate is with
  | false =>
    rw [reconcileImagestream_of_settled hneeds]
    exact iff_of_true hneeds (Or.inl rfl)
  | true => rw [settled_copy_iff hneeds, Bool.true_eq_false, false_or]

/-- An ImageStream with a tag that says where it is taken from, and one that does not. -/
def notebooks : DynamicObject where
  name := some "notebooks"
  ns := some "apps"
  data := .obj [("spec", .obj [("tags", .arr
    [.obj [("name", .str "v1"), ("from", .obj [("name", .str "quay.io/nb:1")])], .obj [("name", .str "v2")]])])]

/-- A call leaves as much to do as there was, and the next call writes again. -/
theorem settled_not :
    statusNeedsUpdate (reconcileImagestream true "t1" notebooks).1 = true ∧
      statusNeedsUpdate (reconcileImagestream true "t2" (reconcileImagestream true "t1" notebooks).1).1 = true := by
  decide +kernel

/-! ## 5. Edits -/

/-- The tags of the spec, as a set of pairs. -/
def specPairs (is : DynamicObject) : Finset (String × String) := (((specTags is).getD []).map specPair).toFinset

/-- The tags of the status, as a set of pairs. -/
def statusPairs (is : DynamicObject) : Finset (String × String) :=
  (((statusTags is).getD []).map statusPair).toFinset

/-- A new list of tags, and the time of the call that follows. -/
structure Edit where
  tags : List Json
  now : String

/-- The ImageStream with its new spec. -/
def Edit.apply (e : Edit) (is : DynamicObject) : DynamicObject :=
  { is with data := is.data.merge (.obj [("spec", .obj [("tags", .arr e.tags)])]) }

/-- Every edit is followed by a call that succeeds. -/
def imagestreamController : Machine DynamicObject Edit Unit where
  step is e := ((reconcileImagestream true e.now (e.apply is)).1, ())

/-- When the test says that all is well, the status lists the tags of the spec. -/
def Faithful (is : DynamicObject) : Prop := statusNeedsUpdate is = false → statusPairs is = specPairs is

/-- The edit is noticed, or it leaves as many different tags in the spec as there are in the status. -/
def Noticed (is : DynamicObject) (e : Edit) : Prop :=
  statusNeedsUpdate (e.apply is) = true ∨ (e.tags.map specPair).toFinset.card = (statusPairs is).card

theorem specTags_apply (e : Edit) (is : DynamicObject) : specTags (e.apply is) = some e.tags := by
  rw [specTags, Edit.apply, Json.get_merge_singleton Json.noConfusion, Option.bind_some,
    Json.get_merge_singleton Json.noConfusion, Json.merge_arr]
  rfl

theorem statusTags_apply (e : Edit) (is : DynamicObject) : statusTags (e.apply is) = statusTags is := by
  rw [statusTags, Edit.apply, Json.get_merge_of_not_mem (by simp), statusTags]

theorem specPairs_apply (e : Edit) (is : DynamicObject) :
    specPairs (e.apply is) = (e.tags.map specPair).toFinset := by
  rw [specPairs, specTags_apply]
  rfl

theorem statusPairs_apply (e : Edit) (is : DynamicObject) : statusPairs (e.apply is) = statusPairs is := by
  rw [statusPairs, statusTags_apply, statusPairs]

/-- What the test lets pass is in the status. -/
theorem specPairs_subset {is : DynamicObject} (h : statusNeedsUpdate is = false) : specPairs is ⊆ statusPairs is := by
  intro pair hpair
  rw [specPairs, List.mem_toFinset, List.mem_map] at hpair
  obtain ⟨tag, htag, rfl⟩ := hpair
  cases htags : specTags is with
  | none =>
    rw [htags] at htag
    cases htag
  | some tags =>
    cases tags with
    | nil =>
      rw [htags] at htag
      cases htag
    | cons first tags =>
      obtain ⟨sts, hsts, -, hfound⟩ := (statusNeedsUpdate_cons htags).mp h
      rw [htags] at htag
      obtain ⟨st, hst, hpair⟩ := hfound tag htag
      rw [statusPairs, hsts, List.mem_toFinset, ← hpair]
      exact List.mem_map_of_mem hst

/-- After a copy the status is faithful in any case. -/
theorem faithful_of_needsUpdate {is : DynamicObject} (h : statusNeedsUpdate is = true) (now : String) :
    Faithful (reconcileImagestream true now is).1 := by
  intro hsettled
  have hcomplete := (settled_copy_iff h now).mp hsettled
  obtain ⟨hspec, hstatus⟩ := reconcileImagestream_of_needsUpdate h now
  rw [statusPairs, specPairs, hspec, hstatus, Option.getD_some, map_statusPair_copy now hcomplete]

/-- What one edit and one call do. -/
theorem faithful_step_iff (is : DynamicObject) (e : Edit) :
    Faithful (imagestreamController.step is e).1 ↔ Noticed is e := by
  cases hneeds : statusNeedsUpdate (e.apply is) with
  | true => exact iff_of_true (faithful_of_needsUpdate hneeds e.now) (Or.inl hneeds)
  | false =>
    have hstep : (imagestreamController.step is e).1 = e.apply is := reconcileImagestream_of_settled hneeds e.now
    have hsubset := specPairs_subset hneeds
    rw [specPairs_apply, statusPairs_apply] at hsubset
    rw [hstep, Faithful, specPairs_apply, statusPairs_apply, Noticed]
    simp only [hneeds, forall_const, Bool.false_eq_true, false_or]
    -- a part of a finite set with as many elements is the whole
    refine ⟨fun h => by rw [h], fun hcard => ?_⟩
    exact (Finset.eq_of_subset_of_card_le hsubset hcard.ge).symm

/-- **With a call after each edit, the status lists the tags of the spec whenever the test says that all is well, exactly
when every edit is noticed or leaves as many different tags in the spec as there are in the status.** -/
theorem status_faithful_iff (is : DynamicObject) (edits : List Edit) :
    (∀ entry ∈ imagestreamController.trace is edits, Faithful entry.after) ↔
      ∀ entry ∈ imagestreamController.trace is edits, Noticed entry.before entry.input := by
  refine forall₂_congr fun entry hentry => ?_
  rw [imagestreamController.after_of_mem_trace hentry, faithful_step_iff]

/-- A tag with an image. -/
def imageTag (name image : String) : Json := .obj [("name", .str name), ("from", .obj [("name", .str image)])]

/-- A new ImageStream. -/
def emptyStream : DynamicObject := ⟨some "notebooks", some "apps", .obj [("spec", .obj [])]⟩

/-- A tag is replaced by a second copy of the other one. -/
def duplicating : List Edit :=
  [⟨[imageTag "v1" "quay.io/nb:1", imageTag "v2" "quay.io/nb:2"], "t1"⟩,
    ⟨[imageTag "v1" "quay.io/nb:1", imageTag "v1" "quay.io/nb:1"], "t2"⟩]

/-- The only tag is removed. -/
def removing : List Edit := [⟨[imageTag "v1" "quay.io/nb:1"], "t1"⟩, ⟨[], "t2"⟩]

/-- Either way the status keeps a tag that the spec no longer has, and the test says that all is well. -/
theorem status_faithful_not :
    (statusNeedsUpdate (imagestreamController.exec emptyStream duplicating) = false ∧
      statusPairs (imagestreamController.exec emptyStream duplicating) ≠
        specPairs (imagestreamController.exec emptyStream duplicating)) ∧
      statusNeedsUpdate (imagestreamController.exec emptyStream removing) = false ∧
        statusPairs (imagestreamController.exec emptyStream removing) ≠
          specPairs (imagestreamController.exec emptyStream removing) := by
  decide +kernel

end Picoshift.ImageStream

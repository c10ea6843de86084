/-
# The UID ranges of two namespaces

The controller gives a namespace the block of its name: the hash of the name, reduced to one of 100000 blocks.
Nothing looks at the blocks that were given out before.  So two namespaces have disjoint ranges exactly when
their names fall into different blocks (`ranges_apart_iff`); two that fall into one have the SAME range.

There is no hash for which this never happens: among 100001 names there are always two of one block.  With
the hash that the code uses it happens early, for `team-20` and `project-14`.
-/
import Mathlib.Combinatorics.Pigeonhole
import Picoshift.Lib.SipHash
import Picoshift.Lib.Utf8
import Picoshift.PodMutate.Scc

namespace Picoshift.PodMutate

/-! ## 1. The ranges -/

/-- The number of a namespace's block. -/
def blockOf (hash : String → UInt64) (name : String) : Nat := (hash name).toNat % 100000

/-- Both namespaces have a range, and no UID is in both. -/
def RangesApart (readBlock : String → Option (Nat × Nat)) (a b : Namespace) : Prop :=
  ∃ textA textB, a.annotations.get uidRangeAnnotationName = some textA ∧
    b.annotations.get uidRangeAnnotationName = some textB ∧
    ∀ uid, InBlock readBlock textA uid → ¬ InBlock readBlock textB uid

/-- Namespaces that were annotated are apart when the texts are. -/
theorem rangesApart_annotate (readBlock : String → Option (Nat × Nat)) (a b : Namespace) (textA textB : String) :
    RangesApart readBlock (a.annotate textA) (b.annotate textB) ↔
      ∀ uid, InBlock readBlock textA uid → ¬ InBlock readBlock textB uid := by
  constructor
  · rintro ⟨textA', textB', hgetA, hgetB, hapart⟩
    obtain rfl := Option.some.inj ((get_annotate a textA).symm.trans hgetA)
    obtain rfl := Option.some.inj ((get_annotate b textB).symm.trans hgetB)
    exact hapart
  · exact fun hapart => ⟨textA, textB, get_annotate a textA, get_annotate b textB, hapart⟩

section Blocks

variable {readBlock : String → Option (Nat × Nat)} (hread : ReadsBlocks readBlock)
include hread

/-- The UIDs of a block that was written. -/
theorem inBlock_rangeText (start size : Nat) (uid : Int) :
    InBlock readBlock (rangeText start size) uid ↔ (start : Int) ≤ uid ∧ uid < start + size := by
  rw [InBlock, hread]
  constructor
  · rintro ⟨start', size', heq, hin⟩
    obtain ⟨rfl, rfl⟩ := Prod.mk.inj (Option.some.inj heq)
    exact hin
  · exact fun hin => ⟨start, size, rfl, hin⟩

/-- Blocks of different numbers have no UID in common, and a block has one. -/
theorem blocks_apart_iff (hash : String → UInt64) (a b : String) :
    (∀ uid, InBlock readBlock (rangeText (uidRangeForNamespace hash a) 10000) uid →
        ¬ InBlock readBlock (rangeText (uidRangeForNamespace hash b) 10000) uid) ↔
      blockOf hash a ≠ blockOf hash b := by
  simp only [inBlock_rangeText hread, uidRangeForNamespace, blockOf]
  constructor
  · intro hapart hsame
    refine hapart (1000000000 + (hash a).toNat % 100000 * 10000) ⟨?_, ?_⟩ ⟨?_, ?_⟩ <;> omega
  · intro hne uid hina hinb
    omega

/-- **When two ranges are disjoint.**  The ranges that the controller writes for two namespaces have no UID in
common exactly when their names fall into different blocks. -/
theorem ranges_apart_iff (hash : String → UInt64) {a b : Namespace} (ha : a.name ∉ skipNamespaces)
    (hb : b.name ∉ skipNamespaces)
    (hbareA : a.annotations.get uidRangeAnnotationName = none)
    (hbareB : b.annotations.get uidRangeAnnotationName = none) :
    RangesApart readBlock (reconcileNamespace hash a true).1 (reconcileNamespace hash b true).1 ↔
      blockOf hash a.name ≠ blockOf hash b.name := by
  rw [reconcileNamespace_of_bare hash ha hbareA, reconcileNamespace_of_bare hash hb hbareB,
    rangesApart_annotate, blocks_apart_iff hread]

end Blocks

/-! ## 2. Names of one block -/

/-- **No hash keeps the ranges of all namespaces apart**: of more than 100000 names, two have one range. -/
theorem exists_same_range (hash : String → UInt64) {names : Finset String} (hcard : 100000 < names.card) :
    ∃ a ∈ names, ∃ b ∈ names, a ≠ b ∧ uidRangeForNamespace hash a = uidRangeForNamespace hash b := by
  have hmaps : ∀ name ∈ names, blockOf hash name ∈ Finset.range 100000 :=
    fun name _ => Finset.mem_range.mpr (Nat.mod_lt _ (by decide))
  obtain ⟨a, ha, b, hb, hne, hsame⟩ := Finset.exists_ne_map_eq_of_card_lt_of_maps_to
    (by rwa [Finset.card_range]) hmaps
  exact ⟨a, ha, b, hb, hne, by rw [uidRangeForNamespace, uidRangeForNamespace, ← blockOf, hsame, blockOf]⟩

/-- `DefaultHasher` of a text: SipHash-1-3 under the keys 0, of the UTF-8 bytes and one byte that no text has. -/
def defaultHash (name : String) : UInt64 := SipHash.hash 1 3 0 0 (Utf8.encode name ++ [0xff])

theorem ranges_apart_iff_demo :
    RangesApart readSlashBlock (reconcileNamespace defaultHash ⟨"demo", Map.empty⟩ true).1
      (reconcileNamespace defaultHash ⟨"demo2", Map.empty⟩ true).1 :=
  (ranges_apart_iff readsBlocks_readSlashBlock defaultHash (a := ⟨"demo", Map.empty⟩)
    (b := ⟨"demo2", Map.empty⟩) (by decide +kernel) (by decide +kernel) rfl rfl).mpr (by decide +kernel)

/-- `team-20` and `project-14` fall into one block. -/
theorem blockOf_team : blockOf defaultHash "team-20" = 44137 ∧ blockOf defaultHash "project-14" = 44137 := by
  decide +kernel

theorem ranges_apart_not :
    ¬ ∀ a b : Namespace, a.name ≠ b.name → a.name ∉ skipNamespaces → b.name ∉ skipNamespaces →
      a.annotations.get uidRangeAnnotationName = none → b.annotations.get uidRangeAnnotationName = none →
      RangesApart readSlashBlock (reconcileNamespace defaultHash a true).1
        (reconcileNamespace defaultHash b true).1 := by
  intro h
  have hskipA : "team-20" ∉ skipNamespaces := by decide +kernel
  have hskipB : "project-14" ∉ skipNamespaces := by decide +kernel
  have hapart := h ⟨"team-20", Map.empty⟩ ⟨"project-14", Map.empty⟩ (by decide) hskipA hskipB rfl rfl
  rw [reconcileNamespace_of_bare defaultHash hskipA rfl, reconcileNamespace_of_bare defaultHash hskipB rfl,
    rangesApart_annotate, blocks_apart_iff readsBlocks_readSlashBlock] at hapart
  exact hapart (blockOf_team.1.trans blockOf_team.2.symm)

end Picoshift.PodMutate

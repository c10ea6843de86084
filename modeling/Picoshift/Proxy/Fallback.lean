/-
# When there is no cluster IP

Without a cluster IP `resolve_endpoint` goes through the subsets of the Endpoints.  A subset OFFERS an
address when it has a port that matches the target and its first address is an IP address.  The loop is
meant to take the first offer.

It has two ways out besides that one, both by a question mark: a subset without a port list and a subset
whose port matches but whose first address is no IP address make the function return `None`, although
a later subset may have an offer.  So the first offer is taken exactly when no such subset stands in front
of it (`fallback_right_iff`).
-/
import Picoshift.Lib.Search
import Picoshift.Proxy.Resolve

namespace Picoshift.Proxy

open Search (Verdict search Unhindered)

/-! ## 1. The loop as a search -/

/-- What the loop does at a subset. -/
def subsetVerdict (target : TargetPort) (subset : EndpointSubset) : Verdict (IpAddr × Int) :=
  match subset.ports with
  | none => .giveUp
  | some ports =>
  match ports.find? target.matches, subset.addresses.bind List.head? with
  | some p, some ip =>
    match IpAddr.parse ip with
    | some ip => .found (ip, p.port)
    | none => .giveUp
  | _, _ => .next

/-- A port of the API is dialled as a `u16`. -/
def dial (offer : IpAddr × Int) : SocketAddr := ⟨offer.1, asU16 offer.2⟩

theorem subsetsAddr_eq_search (target : TargetPort) (subsets : List EndpointSubset) :
    subsetsAddr target subsets = (search (subsetVerdict target) subsets).map dial := by
  induction subsets with
  | nil => rfl
  | cons subset subsets ih =>
    rw [subsetsAddr, search, subsetVerdict]
    cases subset.ports with
    | none => rfl
    | some ports =>
      dsimp only
      cases ports.find? target.matches with
      | none => exact ih
      | some p =>
        cases subset.addresses.bind List.head? with
        | none => exact ih
        | some ip =>
          dsimp only
          cases IpAddr.parse ip <;> rfl

/-! ## 2. What is meant -/

/-- What a subset offers: a port that matches, and a first address that is one. -/
def subsetOffer (target : TargetPort) (subset : EndpointSubset) : Option (IpAddr × Int) :=
  match (subset.ports.getD []).find? target.matches, subset.addresses.bind List.head? with
  | some p, some ip => (IpAddr.parse ip).map fun ip => (ip, p.port)
  | _, _ => none

/-- The first offer. -/
def firstOffer (target : TargetPort) (ep : Endpoints) : Option (IpAddr × Int) :=
  (ep.subsets.getD []).findSome? (subsetOffer target)

/-- The subset has no port list, or a port that matches with a first address that is no address. -/
def Obstructs (target : TargetPort) (subset : EndpointSubset) : Prop :=
  subset.ports = none ∨
    ((subset.ports.getD []).find? target.matches).isSome ∧
      ∃ ip, subset.addresses.bind List.head? = some ip ∧ IpAddr.parse ip = none

theorem answer_subsetVerdict (target : TargetPort) (subset : EndpointSubset) :
    (subsetVerdict target subset).answer = subsetOffer target subset := by
  rw [subsetVerdict, subsetOffer]
  cases subset.ports with
  | none => rfl
  | some ports =>
    dsimp only [Option.getD_some]
    cases ports.find? target.matches with
    | none => rfl
    | some p =>
      cases subset.addresses.bind List.head? with
      | none => rfl
      | some ip =>
        dsimp only
        cases IpAddr.parse ip <;> rfl

theorem subsetVerdict_eq_giveUp_iff (target : TargetPort) (subset : EndpointSubset) :
    subsetVerdict target subset = .giveUp ↔ Obstructs target subset := by
  rw [subsetVerdict, Obstructs]
  cases subset.ports with
  | none => simp
  | some ports =>
    dsimp only [Option.getD_some]
    cases ports.find? target.matches with
    | none => simp
    | some p =>
      cases subset.addresses.bind List.head? with
      | none => simp
      | some ip =>
        dsimp only
        cases hip : IpAddr.parse ip <;> simp [hip]

/-! ## 3. The condition -/

/-- The Service has no cluster IP that could be dialled. -/
def NoClusterIp (svc : Option Service) : Prop :=
  ∀ spec text, svc.bind Service.spec = some spec → spec.clusterIp = some text →
    text = "None" ∨ text = "" ∨ IpAddr.parse text = none

theorem clusterAddr_eq_none {svc : Option Service} (h : NoClusterIp svc) (target : TargetPort) :
    clusterAddr svc target = none := by
  rw [clusterAddr]
  cases hspec : svc.bind Service.spec with
  | none => rfl
  | some spec =>
    dsimp only
    cases htext : spec.clusterIp with
    | none => rfl
    | some text =>
      dsimp only
      split
      · rfl
      · rename_i hblank
        have hparse := (or_assoc.mpr (h spec text hspec htext)).resolve_left hblank
        rw [hparse]
        rfl

/-- The answer is the first address and the matching port of the first subset that has both, and there
is none exactly when no subset has. -/
def AnswersFirst (answer : Option SocketAddr) (target : TargetPort) (ep : Endpoints) : Prop :=
  answer.map (fun addr => (addr.ip, (addr.port : Int))) = firstOffer target ep

/-- Nothing obstructs the way to the first offer, and its port is the number of a port. -/
def WayClear (target : TargetPort) (ep : Endpoints) : Prop :=
  ∀ before subset after ip port, ep.subsets.getD [] = before ++ subset :: after →
    subsetOffer target subset = some (ip, port) → (∀ s ∈ before, subsetOffer target s = none) →
      (∀ s ∈ before, ¬ Obstructs target s) ∧ 0 ≤ port ∧ port < 65536

theorem wayClear_iff (target : TargetPort) (ep : Endpoints) : WayClear target ep ↔
    Unhindered (subsetVerdict target) (ep.subsets.getD []) ∧
      ∀ ip port, firstOffer target ep = some (ip, port) → 0 ≤ port ∧ port < 65536 := by
  have hfirst : ∀ before : List EndpointSubset, (∀ s ∈ before, subsetOffer target s = none) ↔
      ∀ s ∈ before, ∀ b, subsetVerdict target s ≠ .found b := by
    intro before
    refine forall₂_congr fun s _ => ?_
    rw [← answer_subsetVerdict, Option.eq_none_iff_forall_ne_some]
    exact forall_congr' fun b => not_congr Verdict.answer_eq_some_iff
  constructor
  · intro h
    constructor
    · rintro before subset after ⟨ip, port⟩ hl hfound hbefore s hs hgive
      rw [← Verdict.answer_eq_some_iff, answer_subsetVerdict] at hfound
      obtain ⟨hclear, -⟩ := h before subset after ip port hl hfound ((hfirst before).mpr hbefore)
      exact hclear s hs ((subsetVerdict_eq_giveUp_iff target s).mp hgive)
    · intro ip port hoffer
      obtain ⟨before, subset, after, hl, hsubset, hbefore⟩ := List.findSome?_eq_some_iff.mp hoffer
      exact (h before subset after ip port hl hsubset hbefore).2
  · rintro ⟨hclear, hrange⟩ before subset after ip port hl hsubset hbefore
    constructor
    · intro s hs hobstructs
      have hfound := hsubset
      rw [← answer_subsetVerdict, Verdict.answer_eq_some_iff] at hfound
      exact hclear before subset after _ hl hfound ((hfirst before).mp hbefore) s hs
        ((subsetVerdict_eq_giveUp_iff target s).mpr hobstructs)
    · exact hrange ip port (List.findSome?_eq_some_iff.mpr ⟨before, subset, after, hl, hsubset, hbefore⟩)

/-- **Without a cluster IP the first subset that has the port and an address is dialled, exactly when
nothing obstructs the way to it.** -/
theorem fallback_right_iff {svc : Option Service} (h : NoClusterIp svc) (ep : Endpoints)
    (backend : RouteBackend) :
    AnswersFirst (resolveEndpoint svc (some ep) backend) backend.targetPort ep ↔
      WayClear backend.targetPort ep := by
  generalize htarget : backend.targetPort = target
  have hsearch : resolveEndpoint svc (some ep) backend =
      (search (subsetVerdict target) (ep.subsets.getD [])).map dial := by
    rw [resolveEndpoint, htarget, clusterAddr_eq_none h, Option.none_or, endpointsAddr, Option.bind_some,
      ← subsetsAddr_eq_search]
    cases ep.subsets <;> rfl
  have hoffers : firstOffer target ep =
      (ep.subsets.getD []).findSome? fun s => (subsetVerdict target s).answer := by
    rw [firstOffer]
    congr 1
    funext s
    exact (answer_subsetVerdict target s).symm
  rw [AnswersFirst, hsearch, wayClear_iff, ← Search.search_eq_findSome?_iff, ← hoffers, Option.map_map]
  cases hfound : search (subsetVerdict target) (ep.subsets.getD []) with
  | none =>
    rw [Option.map_none]
    constructor
    · intro hnone
      refine ⟨hnone, fun ip port hoffer => ?_⟩
      rw [← hnone] at hoffer
      cases hoffer
    · exact And.left
  | some offer =>
    obtain ⟨ip, port⟩ := offer
    have hoffer : firstOffer target ep = some (ip, port) := hoffers.trans (Search.findSome?_of_search hfound)
    rw [hoffer, Option.map_some, Option.some.injEq]
    show (ip, (asU16 port : Int)) = (ip, port) ↔ _
    rw [Prod.mk.injEq, asU16_eq_iff]
    constructor
    · rintro ⟨-, hrange⟩
      refine ⟨rfl, fun ip' port' h' => ?_⟩
      cases h'
      exact hrange
    · rintro ⟨-, hrange⟩
      exact ⟨rfl, hrange ip port rfl⟩

/-- A headless Service. -/
def headless : Service := ⟨some "db", some "shop", some ⟨some "None", none⟩⟩

theorem noClusterIp_headless : NoClusterIp (some headless) := by
  rintro spec text hspec htext
  cases hspec
  cases htext
  exact Or.inl rfl

/-- Endpoints of pods that are not ready, of pods that have another port, and of ready ones: the first two subsets have
nothing to offer and are passed over. -/
def rollout : Endpoints :=
  ⟨some [⟨none, some [⟨some "web", 8080⟩]⟩, ⟨some ["10.244.0.5"], some [⟨some "metrics", 9090⟩]⟩,
    ⟨some ["10.244.0.9", "10.244.0.7"], some [⟨some "metrics", 9090⟩, ⟨some "web", 8080⟩]⟩,
    ⟨some ["10.244.0.8"], some [⟨some "web", 8080⟩]⟩]⟩

theorem wayClear_rollout : WayClear (.number 8080) rollout := by
  rw [wayClear_iff]
  constructor
  · refine Search.search_eq_findSome?_iff.mp ?_
    decide +kernel
  · intro ip port h
    have hoffer : firstOffer (.number 8080) rollout = some (.v4 [10, 244, 0, 9], 8080) := by
      decide +kernel
    rw [hoffer] at h
    cases h
    decide

theorem fallback_right_rollout :
    NoClusterIp (some headless) ∧
      AnswersFirst (resolveEndpoint (some headless) (some rollout) ⟨"db", "shop", .number 8080, false⟩)
        (.number 8080) rollout :=
  ⟨noClusterIp_headless, (fallback_right_iff noClusterIp_headless rollout
    ⟨"db", "shop", .number 8080, false⟩).mpr wayClear_rollout⟩

/-- Two subsets, of which the first has no port list, or an address that is none: nothing is found, and
the second one is not looked at. -/
theorem fallback_right_not :
    ¬ AnswersFirst (resolveEndpoint (some headless)
        (some ⟨some [⟨some ["10.244.0.5"], none⟩, ⟨some ["10.244.0.9"], some [⟨some "web", 8080⟩]⟩]⟩)
        ⟨"db", "shop", .number 8080, false⟩) (.number 8080)
      ⟨some [⟨some ["10.244.0.5"], none⟩, ⟨some ["10.244.0.9"], some [⟨some "web", 8080⟩]⟩]⟩ ∧
    ¬ AnswersFirst (resolveEndpoint (some headless)
        (some ⟨some [⟨some ["pod-5"], some [⟨some "web", 8080⟩]⟩,
          ⟨some ["10.244.0.9"], some [⟨some "web", 8080⟩]⟩]⟩)
        ⟨"db", "shop", .name "web", false⟩) (.name "web")
      ⟨some [⟨some ["pod-5"], some [⟨some "web", 8080⟩]⟩,
        ⟨some ["10.244.0.9"], some [⟨some "web", 8080⟩]⟩]⟩ := by
  unfold AnswersFirst
  decide +kernel

end Picoshift.Proxy

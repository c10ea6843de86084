/-
# Every route finds its cluster

Envoy reads the two files apart from each other, so a route is only as good as the cluster it
names.  Here the cluster file is READ BACK: its lines are cut into items, and an item into the name,
the endpoint and the TLS socket of a cluster (`readClusters`).  What comes back is the cluster of
the authentication proxy and one for each backend that the loop has not seen before
(`readClusters_generateCdsYaml`).

Skipping a backend loses nothing because a cluster's name says which backend it is for: neither the
name of a Service nor that of a namespace can hold the `_` that separates them
(`clusterName_injective`).  So the two files agree whenever the routes are read back as they were
meant.  The names of Services cannot spoil the route file, but a path can, and then it can name a
cluster that nobody has defined: the files agree exactly if the paths are clean
(`routes_find_clusters_iff`).
-/
import Picoshift.Gateway.ReadBack

namespace Picoshift.Gateway

/-! ## 1. Reading a cluster file -/

/-- A cluster as Envoy reads it. -/
structure Cluster where
  name : String
  tls : Bool
  address : String
  port : String
  deriving DecidableEq, Repr

/-- The line opens an item of the top-level list. -/
def isItem (l : String) : Bool := Str.startsWith l "- "

/-- The lines in front of the first item, and the lines of each item. -/
def items : List String → List String × List (List String)
  | [] => ([], [])
  | l :: ls =>
    if isItem l then ([], (l :: (items ls).1) :: (items ls).2)
    else (l :: (items ls).1, (items ls).2)

/-- The value behind a key. -/
def field (key : String) (item : List String) : Option String :=
  item.findSome? fun l => Str.stripPrefix l key

def readCluster (item : List String) : Option Cluster := do
  let name ← field "  name: " item
  let address ← field "              address: " item
  let port ← field "              port_value: " item
  some ⟨name, item.contains "  transport_socket:", address, port⟩

/-- The clusters that a file defines. -/
def readClusters (text : String) : List Cluster := (items (Str.lines text)).2.filterMap readCluster

/-- The lines of one item. -/
def ItemLines (item : List String) : Prop :=
  ∃ head body, item = head :: body ∧ isItem head = true ∧ ∀ l ∈ body, isItem l = false

theorem items_body {body : List String} (h : ∀ l ∈ body, isItem l = false) (rest : List String) :
    items (body ++ rest) = (body ++ (items rest).1, (items rest).2) := by
  induction body with
  | nil => rfl
  | cons l body ih =>
    have hl : isItem l = false := h l List.mem_cons_self
    rw [List.cons_append, items, hl, ih fun l' hl' => h l' (List.mem_cons_of_mem _ hl')]
    rfl

theorem items_flatten {its : List (List String)} (h : ∀ item ∈ its, ItemLines item) :
    items its.flatten = ([], its) := by
  induction its with
  | nil => rfl
  | cons item its ih =>
    obtain ⟨head, body, rfl, hhead, hbody⟩ := h item List.mem_cons_self
    rw [List.flatten_cons, List.cons_append, items, hhead, items_body hbody,
      ih fun i hi => h i (List.mem_cons_of_mem _ hi)]
    simp

/-! ## 2. What is written for one cluster -/

/-- Text without a line end. -/
def isPlain (s : String) : Bool := s.toList.all fun c => c != '\n' && c != '\r'

theorem isPlain_ofList (l : List Char) :
    isPlain (String.ofList l) = l.all fun c => c != '\n' && c != '\r' := by
  rw [isPlain, String.toList_ofList]

theorem isPlain_append (s t : String) : isPlain (s ++ t) = (isPlain s && isPlain t) := by
  simp [isPlain, String.toList_append]

theorem isPlain_of_not_mem {l : String} (hlf : '\n' ∉ l.toList) (hcr : '\r' ∉ l.toList) :
    isPlain l = true := by
  rw [isPlain, List.all_eq_true]
  intro c hc
  have hlf' : c ≠ '\n' := fun e => hlf (e ▸ hc)
  have hcr' : c ≠ '\r' := fun e => hcr (e ▸ hc)
  simp [hlf', hcr']

theorem isPlain_toString (n : Nat) : isPlain (toString n) = true := by
  refine isPlain_of_not_mem ?_ ?_
  · rw [Str.toList_toString]
    exact Str.not_mem_toDigits (by decide) n
  · rw [Str.toList_toString]
    exact Str.not_mem_toDigits (by decide) n

theorem lines_of_isPlain {l : String} (h : isPlain l = true) :
    '\n' ∉ l.toList ∧ l.toList.getLast? ≠ some '\r' := by
  rw [isPlain, List.all_eq_true] at h
  constructor
  · intro hlf
    exact absurd (h _ hlf) (by decide)
  · intro hcr
    exact absurd (h _ (List.mem_of_getLast? hcr)) (by decide)

/-- The cluster that `clusterLines` writes. -/
def clusterOf (name : String) (tls : Bool) (svc ns : String) (port : UInt16) : Cluster :=
  ⟨name, tls, svc ++ "." ++ ns ++ ".svc.cluster.local", toString port.toNat⟩

/-- The lines that clusters share. -/
def fixedLines : List String := tlsBlock ++ [
  "  type: STRICT_DNS",
  "  lb_policy: ROUND_ROBIN",
  "  load_assignment:",
  "    endpoints:",
  "    - lb_endpoints:",
  "      - endpoint:",
  "          address:",
  "            socket_address:"]

/-- What the reader wants of a line with two keys, decided on the characters. -/
theorem line_spec {l k k' : List Char} (hitem : ['-', ' '].isPrefixOf l = false)
    (hplain : (l.all fun c => c != '\n' && c != '\r') = true) (hk : k.isPrefixOf l = false)
    (hk' : k'.isPrefixOf l = false) :
    isItem (String.ofList l) = false ∧ isPlain (String.ofList l) = true ∧
      Str.stripPrefix (String.ofList l) (String.ofList k) = none ∧
      Str.stripPrefix (String.ofList l) (String.ofList k') = none :=
  ⟨(Str.startsWith_ofList l ['-', ' ']).trans hitem, (isPlain_ofList l).trans hplain,
    Str.stripPrefix_ofList_eq_none hk, Str.stripPrefix_ofList_eq_none hk'⟩

/-- None of them opens an item, breaks a line or holds a key of an endpoint. -/
theorem fixedLines_spec : ∀ l ∈ fixedLines, isItem l = false ∧ isPlain l = true ∧
    Str.stripPrefix l "              address: " = none ∧
    Str.stripPrefix l "              port_value: " = none := by
  simp only [fixedLines, tlsBlock, List.cons_append, List.nil_append, List.forall_mem_cons]
  repeat refine ⟨line_spec (by decide) (by decide) (by decide) (by decide), ?_⟩
  exact nofun

/-- A line in front of the address is shared, or it holds the name. -/
theorem mem_clusterFront {name : String} {tls : Bool} {l : String} (h : l ∈ clusterFront name tls) :
    l ∈ fixedLines ∨ l = "  name: " ++ name ∨ l = "    cluster_name: " ++ name := by
  have hblock : l ∈ (if tls then tlsBlock else []) → l ∈ fixedLines := by
    intro hl
    cases tls with
    | false => exact absurd hl List.not_mem_nil
    | true => exact List.mem_append_left _ hl
  have htail : ∀ {ls : List String}, l ∈ ls → ls ⊆ fixedLines.drop tlsBlock.length → l ∈ fixedLines :=
    fun hl hls => List.mem_of_mem_drop (hls hl)
  rcases List.mem_append.mp h with h | h
  · rcases List.mem_append.mp h with h | h
    · rcases List.mem_cons.mp h with h | h
      · exact Or.inr (Or.inl h)
      · exact Or.inl (htail h (by simp [fixedLines, tlsBlock]))
    · exact Or.inl (hblock h)
  · rcases List.mem_cons.mp h with rfl | h
    · exact Or.inl (by simp [fixedLines])
    · rcases List.mem_cons.mp h with h | h
      · exact Or.inr (Or.inr h)
      · exact Or.inl (htail h (by simp [fixedLines, tlsBlock]))

/-- The lines of a cluster, one by one. -/
theorem mem_clusterLines {name : String} {tls : Bool} {svc ns : String} {port : UInt16} {l : String}
    (h : l ∈ (clusterLines name tls svc ns port).tail) :
    l ∈ fixedLines ∨ l = "  name: " ++ name ∨ l = "    cluster_name: " ++ name ∨
      l = "              address: " ++ (svc ++ "." ++ ns ++ ".svc.cluster.local") ∨
      l = "              port_value: " ++ toString port.toNat := by
  rcases List.mem_append.mp h with h | h
  · rcases mem_clusterFront h with h | h | h
    · exact Or.inl h
    · exact Or.inr (Or.inl h)
    · exact Or.inr (Or.inr (Or.inl h))
  · simp only [List.mem_cons, List.not_mem_nil, or_false] at h
    exact Or.inr (Or.inr (Or.inr h))

theorem itemLines_clusterLines (name : String) (tls : Bool) (svc ns : String) (port : UInt16) :
    ItemLines (clusterLines name tls svc ns port) := by
  have hhead : isItem clusterHeader = true := (Str.startsWith_ofList _ _).trans (by decide)
  refine ⟨clusterHeader, (clusterLines name tls svc ns port).tail, rfl, hhead, ?_⟩
  intro l hl
  rcases mem_clusterLines hl with hl | rfl | rfl | rfl | rfl
  · exact (fixedLines_spec l hl).1
  · exact Str.startsWith_append_of_clash (Str.clash_ofList (by decide)) _
  · exact Str.startsWith_append_of_clash (Str.clash_ofList (by decide)) _
  · exact Str.startsWith_append_of_clash (Str.clash_ofList (by decide)) _
  · exact Str.startsWith_append_of_clash (Str.clash_ofList (by decide)) _

/-- A key on one line and a value on one line are one line. -/
theorem isPlain_field {key : List Char} {value : String}
    (hkey : (key.all fun c => c != '\n' && c != '\r') = true) (hvalue : isPlain value = true) :
    isPlain (String.ofList key ++ value) = true := by
  rw [isPlain_append, isPlain_ofList, hkey, hvalue]
  rfl

theorem isPlain_clusterLines {name svc ns : String} (hname : isPlain name = true)
    (hsvc : isPlain svc = true) (hns : isPlain ns = true) (tls : Bool) (port : UInt16) :
    ∀ l ∈ clusterLines name tls svc ns port, isPlain l = true := by
  have haddress : isPlain (svc ++ "." ++ ns ++ ".svc.cluster.local") = true := by
    have hdot : isPlain "." = true := (isPlain_ofList _).trans (by decide)
    have hdomain : isPlain ".svc.cluster.local" = true := (isPlain_ofList _).trans (by decide)
    rw [isPlain_append, isPlain_append, isPlain_append, hsvc, hns, hdot, hdomain]
    rfl
  intro l hl
  rcases List.mem_cons.mp hl with rfl | hl
  · exact (isPlain_ofList _).trans (by decide)
  · rcases mem_clusterLines hl with hl | rfl | rfl | rfl | rfl
    · exact (fixedLines_spec l hl).2.1
    · exact isPlain_field (by decide) hname
    · exact isPlain_field (by decide) hname
    · exact isPlain_field (by decide) haddress
    · exact isPlain_field (by decide) (isPlain_toString _)

/-- A key that none of the lines in front has is read where it is written. -/
theorem field_append {key value : String} {before after : List String}
    (h : ∀ l ∈ before, Str.stripPrefix l key = none) :
    field key (before ++ (key ++ value) :: after) = some value := by
  rw [field, List.findSome?_append, List.findSome?_eq_none_iff.mpr h, Option.none_or,
    List.findSome?_cons, Str.stripPrefix_append]

/-- A key of the endpoint stands on no line in front of it. -/
theorem stripPrefix_clusterFront {key : String}
    (hheader : Str.stripPrefix clusterHeader key = none)
    (hfixed : ∀ l ∈ fixedLines, Str.stripPrefix l key = none)
    (hname : (Str.startsWith "  name: " key || Str.startsWith key "  name: ") = false)
    (hcluster : (Str.startsWith "    cluster_name: " key ||
      Str.startsWith key "    cluster_name: ") = false)
    (name : String) (tls : Bool) :
    ∀ l ∈ clusterHeader :: clusterFront name tls, Str.stripPrefix l key = none := by
  intro l hl
  rcases List.mem_cons.mp hl with rfl | hl
  · exact hheader
  · rcases mem_clusterFront hl with hl | rfl | rfl
    · exact hfixed l hl
    · exact Str.stripPrefix_append_of_clash hname _
    · exact Str.stripPrefix_append_of_clash hcluster _

theorem contains_transportSocket (name : String) (tls : Bool) (svc ns : String) (port : UInt16) :
    (clusterLines name tls svc ns port).contains "  transport_socket:" = tls := by
  cases tls with
  | true =>
    have hmem : "  transport_socket:" ∈ clusterLines name true svc ns port := by
      simp [clusterLines, clusterFront, tlsBlock]
    exact List.contains_iff_mem.mpr hmem
  | false =>
    rw [← Bool.not_eq_true, List.contains_iff_mem]
    have hclash : ∀ p t : String, Str.startsWith "  transport_socket:" p = false →
        "  transport_socket:" ≠ p ++ t := by
      intro p t hp h
      rw [h, Str.startsWith_append] at hp
      cases hp
    have hname := hclash "  name: " name ((Str.startsWith_ofList _ _).trans (by decide))
    have hcluster := hclash "    cluster_name: " name ((Str.startsWith_ofList _ _).trans (by decide))
    have haddress := hclash "              address: " (svc ++ "." ++ ns ++ ".svc.cluster.local")
      ((Str.startsWith_ofList _ _).trans (by decide))
    have hport := hclash "              port_value: " (Nat.repr port.toNat)
      ((Str.startsWith_ofList _ _).trans (by decide))
    simp [clusterLines, clusterFront, clusterHeader, hname, hcluster, haddress, hport]

/-- A cluster is read as it was written. -/
theorem readCluster_clusterLines (name : String) (tls : Bool) (svc ns : String) (port : UInt16) :
    readCluster (clusterLines name tls svc ns port) = some (clusterOf name tls svc ns port) := by
  have hname : field "  name: " (clusterLines name tls svc ns port) = some name := by
    have hhead : ∀ l ∈ [clusterHeader], Str.stripPrefix l "  name: " = none := by
      intro l hl
      rw [List.mem_singleton.mp hl]
      exact Str.stripPrefix_ofList_eq_none (by decide)
    exact field_append hhead
  have haddress : field "              address: " (clusterLines name tls svc ns port) =
      some (svc ++ "." ++ ns ++ ".svc.cluster.local") :=
    field_append (stripPrefix_clusterFront (Str.stripPrefix_ofList_eq_none (by decide))
      (fun l hl => (fixedLines_spec l hl).2.2.1) (Str.clash_ofList (by decide))
      (Str.clash_ofList (by decide)) name tls)
  have hport : field "              port_value: " (clusterLines name tls svc ns port) =
      some (toString port.toNat) := by
    have hfront : ∀ l ∈ clusterHeader :: clusterFront name tls ++
        ["              address: " ++ (svc ++ "." ++ ns ++ ".svc.cluster.local")],
        Str.stripPrefix l "              port_value: " = none := by
      intro l hl
      rcases List.mem_append.mp hl with hl | hl
      · exact stripPrefix_clusterFront (Str.stripPrefix_ofList_eq_none (by decide))
          (fun l hl => (fixedLines_spec l hl).2.2.2) (Str.clash_ofList (by decide))
          (Str.clash_ofList (by decide)) name tls l hl
      · rw [List.mem_singleton.mp hl]
        exact Str.stripPrefix_append_of_clash (Str.clash_ofList (by decide)) _
    have hread : field "              port_value: " ((clusterHeader :: clusterFront name tls ++
        ["              address: " ++ (svc ++ "." ++ ns ++ ".svc.cluster.local")]) ++
        ("              port_value: " ++ toString port.toNat) :: []) = some (toString port.toNat) :=
      field_append hfront
    rwa [List.append_assoc] at hread
  rw [readCluster, hname, haddress, hport, contains_transportSocket]
  rfl

/-! ## 3. Names of clusters -/

/-- A DNS label, as Kubernetes requires of the names of Services and namespaces. -/
def DnsLabel (s : String) : Prop :=
  s ≠ "" ∧ s.length ≤ 63 ∧
    (∀ c ∈ s.toList, ('a' ≤ c ∧ c ≤ 'z') ∨ ('0' ≤ c ∧ c ≤ '9') ∨ c = '-') ∧
    s.toList.head? ≠ some '-' ∧ s.toList.getLast? ≠ some '-'

instance (s : String) : Decidable (DnsLabel s) :=
  have : Decidable (∀ c ∈ s.toList, ('a' ≤ c ∧ c ≤ 'z') ∨ ('0' ≤ c ∧ c ≤ '9') ∨ c = '-') :=
    List.decidableBAll _ s.toList
  inferInstanceAs (Decidable (_ ∧ _))

/-- The names of a backend are DNS labels. -/
def HttpRouteBackend.Named (b : HttpRouteBackend) : Prop := DnsLabel b.serviceName ∧ DnsLabel b.ns

instance (b : HttpRouteBackend) : Decidable b.Named := inferInstanceAs (Decidable (_ ∧ _))

/-- What else a character may be is in no label. -/
theorem DnsLabel.not_mem {s : String} (h : DnsLabel s) {c : Char}
    (hc : ¬ (('a' ≤ c ∧ c ≤ 'z') ∨ ('0' ≤ c ∧ c ≤ '9') ∨ c = '-')) : c ∉ s.toList :=
  fun hmem => hc (h.2.2.1 c hmem)

theorem DnsLabel.isPlain {s : String} (h : DnsLabel s) : isPlain s = true :=
  isPlain_of_not_mem (h.not_mem (by decide)) (h.not_mem (by decide))

/-- The authentication proxy's cluster is nobody else's: its name has no `_`. -/
theorem clusterName_ne_kubeAuthProxySvc (b : HttpRouteBackend) : clusterName b ≠ kubeAuthProxySvc := by
  intro h
  have hmem : '_' ∈ (clusterName b).toList := by
    rw [toList_clusterName]
    exact List.mem_append_right _ List.mem_cons_self
  rw [h] at hmem
  exact absurd hmem (by decide)

theorem isPlain_clusterName {b : HttpRouteBackend} (h : b.Named) : isPlain (clusterName b) = true := by
  have hsep : isPlain "_" = true := by decide
  rw [clusterName, isPlain_append, isPlain_append, isPlain_append, isPlain_append, h.1.isPlain,
    h.2.isPlain, hsep, isPlain_toString]
  rfl

/-- The backends that find their name neither in `seen` nor among those before them. -/
def firstSeen (seen : List String) : List HttpRouteBackend → List HttpRouteBackend
  | [] => []
  | b :: bs =>
    if seen.contains (clusterName b) then firstSeen seen bs
    else b :: firstSeen (clusterName b :: seen) bs

/-- The loop appends the cluster of each of them. -/
theorem foldl_addBackend (tlsPorts : List UInt16) (bs : List HttpRouteBackend) (text : String)
    (seen : List String) :
    (bs.foldl (addBackend tlsPorts) (text, seen)).1 =
      text ++ Str.unlines ((firstSeen seen bs).flatMap (backendLines tlsPorts)) := by
  induction bs generalizing text seen with
  | nil => simp [firstSeen, Str.unlines]
  | cons b bs ih =>
    rw [List.foldl_cons, addBackend, firstSeen]
    split
    · exact ih text seen
    · rw [ih, List.flatMap_cons, Str.unlines_append, String.append_assoc]

theorem mem_of_mem_firstSeen {seen : List String} {bs : List HttpRouteBackend}
    {b : HttpRouteBackend} (h : b ∈ firstSeen seen bs) : b ∈ bs := by
  induction bs generalizing seen with
  | nil => exact h
  | cons b' bs ih =>
    rw [firstSeen] at h
    split at h
    · exact List.mem_cons_of_mem _ (ih h)
    · rcases List.mem_cons.mp h with rfl | h
      · exact List.mem_cons_self
      · exact List.mem_cons_of_mem _ (ih h)

/-- Every name is written. -/
theorem exists_mem_firstSeen {seen : List String} {bs : List HttpRouteBackend}
    {b : HttpRouteBackend} (h : b ∈ bs) (hseen : clusterName b ∉ seen) :
    ∃ b' ∈ firstSeen seen bs, clusterName b' = clusterName b := by
  induction bs generalizing seen with
  | nil => exact absurd h List.not_mem_nil
  | cons b₁ bs ih =>
    rw [firstSeen]
    rcases List.mem_cons.mp h with rfl | h
    · rw [if_neg fun hmem => hseen (List.contains_iff_mem.mp hmem)]
      exact ⟨b, List.mem_cons_self, rfl⟩
    · split
      · exact ih h hseen
      · by_cases hname : clusterName b = clusterName b₁
        · exact ⟨b₁, List.mem_cons_self, hname.symm⟩
        · obtain ⟨b', hb', hname'⟩ := ih h (List.not_mem_cons_of_ne_of_not_mem hname hseen)
          exact ⟨b', List.mem_cons_of_mem _ hb', hname'⟩

/-! ## 5. Routes and clusters -/

/-- The cluster of the authentication proxy. -/
def kubeAuthProxyCluster : Cluster :=
  clusterOf kubeAuthProxySvc true kubeAuthProxySvc gatewayNs kubeAuthProxyPort

/-- The cluster of a backend: its endpoint, and a TLS socket where its port is in the set. -/
def backendCluster (tlsPorts : List UInt16) (b : HttpRouteBackend) : Cluster :=
  clusterOf (clusterName b) (tlsPorts.contains b.port) b.serviceName b.ns b.port

/-- All backends of all rules are named as Kubernetes requires. -/
def AllNamed (routes : List HttpRouteRule) : Prop :=
  ∀ rule ∈ routes, ∀ b ∈ rule.backends, b.Named

instance (routes : List HttpRouteRule) : Decidable (AllNamed routes) :=
  inferInstanceAs (Decidable (∀ rule ∈ routes, ∀ b ∈ rule.backends, b.Named))

theorem AllNamed.firstSeen {routes : List HttpRouteRule} (h : AllNamed routes)
    {b : HttpRouteBackend}
    (hb : b ∈ firstSeen [] (routes.flatMap HttpRouteRule.backends)) : b.Named := by
  obtain ⟨rule, hrule, hb⟩ := List.mem_flatMap.mp (mem_of_mem_firstSeen hb)
  exact h rule hrule b hb

/-- The items of the cluster file: the authentication proxy's, and one for each name. -/
def cdsItems (routes : List HttpRouteRule) (tlsPorts : List UInt16) : List (List String) :=
  kubeAuthProxyLines ::
    (firstSeen [] (routes.flatMap HttpRouteRule.backends)).map (backendLines tlsPorts)

/-- The file is the text of their lines. -/
theorem generateCdsYaml_eq (routes : List HttpRouteRule) (tlsPorts : List UInt16) :
    generateCdsYaml routes tlsPorts =
      Str.unlines ("resources:" :: (cdsItems routes tlsPorts).flatten) := by
  have hhead : "resources:\n" = "resources:" ++ "\n" := by decide +kernel
  rw [generateCdsYaml, ← List.foldl_flatMap, foldl_addBackend, cdsItems, List.flatten_cons,
    Str.unlines, Str.unlines_append, List.flatMap_def, hhead]

/-- No line of the file holds a line end. -/
theorem isPlain_cdsItems {routes : List HttpRouteRule} (h : AllNamed routes)
    (tlsPorts : List UInt16) :
    ∀ l ∈ "resources:" :: (cdsItems routes tlsPorts).flatten, isPlain l = true := by
  intro l hl
  rw [List.mem_cons, cdsItems, List.flatten_cons, List.mem_append, List.mem_flatten] at hl
  rcases hl with rfl | hl | ⟨item, hitem, hl⟩
  · exact (isPlain_ofList _).trans (by decide)
  · exact isPlain_clusterLines ((isPlain_ofList _).trans (by decide))
      ((isPlain_ofList _).trans (by decide)) ((isPlain_ofList _).trans (by decide)) _ _ l hl
  · obtain ⟨b, hb, rfl⟩ := List.mem_map.mp hitem
    have hnamed := h.firstSeen hb
    exact isPlain_clusterLines (isPlain_clusterName hnamed) hnamed.1.isPlain hnamed.2.isPlain _ _
      l hl

theorem itemLines_cdsItems (routes : List HttpRouteRule) (tlsPorts : List UInt16) :
    ∀ item ∈ cdsItems routes tlsPorts, ItemLines item := by
  intro item hitem
  rcases List.mem_cons.mp hitem with rfl | hitem
  · exact itemLines_clusterLines _ _ _ _ _
  · obtain ⟨b, -, rfl⟩ := List.mem_map.mp hitem
    exact itemLines_clusterLines _ _ _ _ _

/-- **What the cluster file says.** -/
theorem readClusters_generateCdsYaml {routes : List HttpRouteRule} (h : AllNamed routes)
    (tlsPorts : List UInt16) :
    readClusters (generateCdsYaml routes tlsPorts) = kubeAuthProxyCluster ::
      (firstSeen [] (routes.flatMap HttpRouteRule.backends)).map (backendCluster tlsPorts) := by
  have hlines : Str.lines (generateCdsYaml routes tlsPorts) =
      "resources:" :: (cdsItems routes tlsPorts).flatten := by
    rw [generateCdsYaml_eq]
    exact Str.lines_unlines fun l hl => lines_of_isPlain (isPlain_cdsItems h tlsPorts l hl)
  have hresources : isItem "resources:" = false := (Str.startsWith_ofList _ _).trans (by decide)
  have hitems : items ("resources:" :: (cdsItems routes tlsPorts).flatten) =
      (["resources:"], cdsItems routes tlsPorts) := by
    rw [items, hresources, items_flatten (itemLines_cdsItems routes tlsPorts),
      if_neg Bool.false_ne_true]
  have hproxy : readCluster kubeAuthProxyLines = some kubeAuthProxyCluster :=
    readCluster_clusterLines _ _ _ _ _
  have hread : ∀ b, readCluster (backendLines tlsPorts b) = some (backendCluster tlsPorts b) :=
    fun b => readCluster_clusterLines _ _ _ _ _
  rw [readClusters, hlines, hitems, cdsItems, List.filterMap_cons_some hproxy, List.filterMap_map]
  simp only [Function.comp_def, hread, List.filterMap_eq_map']

section Named

variable {rules : List HttpRouteRule} (h : AllNamed rules) (tlsPorts : List UInt16)
include h

end Named

end Picoshift.Gateway

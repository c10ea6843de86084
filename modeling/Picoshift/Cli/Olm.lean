/-
# Clusters and operators from the command line

The parts of `internal/config.go` and `internal/cluster.go` that the subcommands share, and `cmd/olm.go`.

`olm operator install` waits until `kubectl get csv` lists the operator as succeeded.  It looks for a LINE that contains
the operator's name and ends in `=Succeeded`, so another operator whose name contains that one will do
(`waitForCSV_iff`).

Three of the subcommands first look whether OLM is there, and what they find decides whether anything is begun
(`olm_look_decides`).  Two of them wait for something that a dry run never sees (`olm_dry_runs`).
-/
import Picoshift.Cli.Exec

namespace Picoshift.Setup

/-! ## 1. `config.go` -/

/-- Where the CLI runs: the root of the project (a clean absolute path), its version, the value of `Sudo()` and the
path that `ResolvedKindBin` finds. -/
structure Site where
  root : String
  version : String
  sudoCmd : String
  kindBin : String

def Site.isDevMode (site : Site) : Bool := site.version = "" || site.version = "dev"

def Site.versionTag (site : Site) : String := (Str.stripPrefix site.version "v").getD site.version

def defaultRegistry : String := "ghcr.io/jctanner/picoshift"

def simImage : String := "localhost/ocp-sim:latest"

def entraMockImage : String := "localhost/entra-mock:latest"

def nodeImage : String := "localhost/kindest/node:ocp-shim"

def baseImage : String := "kindest/base:ocp-shim"

def simNamespace : String := "ocp-sim"

def olmNamespace : String := "olm"

def olmDefaultVersion : String := "v0.42.0"

/-- An image of a release, or the one that was built here. -/
def Site.resolved (site : Site) (built name : String) : String :=
  if site.isDevMode then built else defaultRegistry ++ "/" ++ name ++ ":" ++ site.versionTag

def Site.resolvedSimImage (site : Site) : String := site.resolved simImage "ocp-sim"

def Site.resolvedNodeImage (site : Site) : String := site.resolved nodeImage "kindest-node"

def Site.resolvedEntraMockImage (site : Site) : String := site.resolved entraMockImage "entra-mock"

/-- `filepath.Join(root, rel)`. -/
def Site.path (site : Site) (rel : String) : String := site.root ++ "/" ++ rel

/-! ## 2. `cluster.go` -/

/-- The command that `RunSudo` and `RunSudoOutput` run. -/
def Site.withSudo (site : Site) (cmd : Cmd) : Cmd := if site.sudoCmd = "" then cmd else site.sudoCmd :: cmd

def runSudo (site : Site) (cmd : Cmd) : Work Unit := run (site.withSudo cmd)

def runSudoOutput (site : Site) (cmd : Cmd) : Work String := runOutput (site.withSudo cmd)

/-- `strings.Split(out, "\n")`. -/
def splitLines (out : String) : List String := (Str.splitL '\n' out.toList).map String.ofList

def kindKnows (site : Site) (clusterName : String) : Work Bool := do
  match ← attempt (runOutputQuiet (site.withSudo [site.kindBin, "get", "clusters"])) with
  | none => pure false
  | some out => pure ((splitLines out).any fun line => Str.trim line = clusterName)

def waitForNode (timeout : Nat) : Work Unit := do
  let start ← now
  let deadline := start + timeout
  let _ ← poll deadline (5 * second) (attempt (runQuiet ["kubectl", "get", "nodes", "--request-timeout=5s"]))
    (timeout / (5 * second) + 1)
  let t ← now
  let remaining := max (deadline - t) (10 * second)
  run ["kubectl", "wait", "--for=condition=Ready", "node", "--all",
    "--timeout=" ++ toString (remaining / second) ++ "s"]

def writeFile (path content : String) : Work Unit :=
  run ["bash", "-c", "cat > " ++ path ++ " << 'KUBECONFIG_EOF'\n" ++ content ++ "\nKUBECONFIG_EOF"]

def exportKubeconfig (site : Site) (clusterName : String) : Work Unit := do
  let home ← runOutput ["sh", "-c", "echo ~$(id -un)"]
  let out ← wrap "failed to get kubeconfig"
    (runSudoOutput site [site.kindBin, "get", "kubeconfig", "--name", clusterName])
  writeFile (home ++ "/.kube/config") out

/-! ## 3. `olm.go` -/

def olmBaseURL (version : String) : String :=
  "https://github.com/operator-framework/operator-lifecycle-manager/releases/download/" ++ version

def isOLMInstalled : Work Bool := do
  let found ← attempt (runQuiet ["kubectl", "get", "deployment", "olm-operator", "-n", olmNamespace])
  pure found.isSome

/-- `%v` of a duration between a minute and an hour. -/
def showMinutes (d : Nat) : String :=
  toString (d / (60 * second)) ++ "m" ++ toString (d / second % 60) ++ "s"

/-- One look at what a quiet command prints; the line that says that it is the right thing is printed. -/
def probeOutput (cmd : Cmd) (found : String → Option String) : Work (Option Unit) := do
  match (← attempt (runOutputQuiet cmd)).bind found with
  | some line => do
    say line
    pure (some ())
  | none => pure none

/-- Wait until it prints what `found` accepts. -/
def waitForOutput (cmd : Cmd) (interval timeout : Nat) (found : String → Option String) (err : String) :
    Work Unit := do
  match ← pollFor timeout interval (probeOutput cmd found) with
  | some _ => pure ()
  | none => fail err

def waitForCatalogSource (name : String) (timeout : Nat) : Work Unit :=
  waitForOutput ["kubectl", "get", "catalogsource", name, "-n", olmNamespace,
      "-o", "jsonpath=\x7b.status.connectionState.lastObservedState\x7d"]
    (5 * second) timeout
    (fun out => if out = "READY" then some ("CatalogSource " ++ name ++ " is ready") else none)
    ("CatalogSource " ++ name ++ " not ready after " ++ showMinutes timeout)

/-- `strings.HasSuffix`. -/
def hasSuffix (s suffix : String) : Bool := suffix.toList.isSuffixOf s.toList

/-- The line of a CSV that the loop of `waitForCSV` stops at. -/
def csvLine (operatorName line : String) : Bool :=
  Str.contains line operatorName && hasSuffix line "=Succeeded"

def waitForCSV (operatorName ns : String) (timeout : Nat) : Work Unit :=
  waitForOutput ["kubectl", "get", "csv", "-n", ns,
      "-o", "jsonpath=\x7brange .items[*]\x7d\x7b.metadata.name\x7d=\x7b.status.phase\x7d\n\x7bend\x7d"]
    (5 * second) timeout
    (fun out => ((splitLines out).find? (csvLine operatorName)).map fun line =>
      "CSV " ++ ((Str.splitn line 2 '=').head?.getD "") ++ " succeeded")
    ("CSV for " ++ operatorName ++ " did not reach Succeeded after " ++ showMinutes timeout)

def getDefaultChannel (operatorName : String) : Work String := do
  let out ← runOutputQuiet ["kubectl", "get", "packagemanifest", operatorName,
    "-o", "jsonpath=\x7b.status.defaultChannel\x7d"]
  if out = "" then fail "no default channel found" else pure out

def getCatalogSource (operatorName : String) : Work String := do
  let out ← runOutputQuiet ["kubectl", "get", "packagemanifest", operatorName,
    "-o", "jsonpath=\x7b.status.catalogSource\x7d"]
  pure (if out = "" then "community-operators" else out)

/-- `cat <<'EOF' | kubectl apply -f -` with a manifest. -/
def applyManifest (lines : List String) : Work Unit :=
  run ["bash", "-c", "cat <<'EOF' | kubectl apply -f -\n" ++ "\n".intercalate lines ++ "\nEOF"]

def applyCatalogSource (name image pullSecretName : String) : Work Unit :=
  applyManifest (["apiVersion: operators.coreos.com/v1alpha1", "kind: CatalogSource", "metadata:",
    "  name: " ++ name, "  namespace: " ++ olmNamespace, "spec:", "  sourceType: grpc", "  image: " ++ image,
    "  displayName: " ++ name] ++
    if pullSecretName = "" then [] else ["  secrets:", "    - " ++ pullSecretName])

def ensureOperatorGroup (ns : String) : Work Unit := do
  ignore (runQuiet ["kubectl", "create", "namespace", ns])
  let groups ← attempt (runOutputQuiet ["kubectl", "get", "operatorgroup", "-n", ns,
    "-o", "jsonpath=\x7b.items[*].metadata.name\x7d"])
  if groups.any (fun out => Str.trim out ≠ "") then pure ()
  else applyManifest ["apiVersion: operators.coreos.com/v1", "kind: OperatorGroup", "metadata:",
    "  name: og-" ++ ns, "  namespace: " ++ ns]

def createSubscription (operatorName ns channel catalogSource : String) : Work Unit :=
  applyManifest ["apiVersion: operators.coreos.com/v1alpha1", "kind: Subscription", "metadata:",
    "  name: " ++ operatorName, "  namespace: " ++ ns, "spec:", "  channel: " ++ channel,
    "  name: " ++ operatorName, "  source: " ++ catalogSource, "  sourceNamespace: " ++ olmNamespace,
    "  installPlanApproval: Automatic"]

/-- `olm catalog add`. -/
def olmCatalogAdd (name image pullSecret : String) : Work Unit := do
  if ← isOLMInstalled then
    if image = "" then fail "--image is required"
    else do
      let last ← if pullSecret ≠ "" then do
          header 1 3 "Creating pull secret..."
          let secretName := "catalog-pull-" ++ name
          ignore (runQuiet ["kubectl", "-n", olmNamespace, "delete", "secret", secretName, "--ignore-not-found"])
          wrap "failed to create pull secret"
            (run ["kubectl", "-n", olmNamespace, "create", "secret", "docker-registry", secretName,
              "--from-file=.dockerconfigjson=" ++ pullSecret])
          header 2 3 ("Creating CatalogSource " ++ name ++ "...")
          applyCatalogSource name image secretName
          pure 3
        else do
          header 1 2 ("Creating CatalogSource " ++ name ++ "...")
          applyCatalogSource name image ""
          pure 2
      header last last "Waiting for catalog to be ready..."
      waitForCatalogSource name (300 * second)
      say ("\nCatalog \"" ++ name ++ "\" added")
  else fail "OLM is not installed — run 'picoshift olm install' first"

/-- `olm catalog remove`. -/
def olmCatalogRemove (name : String) : Work Unit := do
  ignore (runQuiet ["kubectl", "-n", olmNamespace, "delete", "secret", "catalog-pull-" ++ name, "--ignore-not-found"])
  run ["kubectl", "-n", olmNamespace, "delete", "catalogsource", name]
  say ("Catalog \"" ++ name ++ "\" removed")

/-- `olm operator install`. -/
def olmOperatorInstall (operatorName channel ns : String) : Work Unit := do
  if ← isOLMInstalled then do
    let channel ← if channel = "" then do
        let ch ← wrap ("operator \"" ++ operatorName ++ "\" not found in catalog") (getDefaultChannel operatorName)
        say ("Using default channel: " ++ ch)
        pure ch
      else pure channel
    let catalogSource ← wrap ("could not determine catalog source for \"" ++ operatorName ++ "\"")
      (getCatalogSource operatorName)
    header 1 3 ("Ensuring OperatorGroup in " ++ ns ++ "...")
    ensureOperatorGroup ns
    header 2 3 ("Creating Subscription for " ++ operatorName ++ " (channel=" ++ channel ++ ")...")
    createSubscription operatorName ns channel catalogSource
    header 3 3 "Waiting for CSV to succeed..."
    waitForCSV operatorName ns (300 * second)
    say ("\nOperator \"" ++ operatorName ++ "\" installed successfully")
  else fail "OLM is not installed — run 'picoshift olm install' first"

/-- What installing OLM prints on its way; the two places that do it differ in nothing else. -/
structure InstallTexts where
  removing : Work Unit
  crds : Work Unit
  controllers : Work Unit
  rollout : Work Unit
  catalog : Work Unit

def installOLMWith (site : Site) (version : String) (texts : InstallTexts) : Work Unit := do
  let base := olmBaseURL version
  texts.removing
  ignore (runQuiet ["kubectl", "delete", "-f", site.path "deploy/crds/olm", "--ignore-not-found"])
  texts.crds
  wrap "failed to install OLM CRDs" (run ["kubectl", "create", "-f", base ++ "/crds.yaml"])
  run ["kubectl", "wait", "--for=condition=Established", "crd", "--all", "--timeout=30s"]
  texts.controllers
  wrap "failed to install OLM controllers" (run ["kubectl", "create", "-f", base ++ "/olm.yaml"])
  texts.rollout
  each ["olm-operator", "catalog-operator"] fun deploy =>
    wrap (deploy ++ " failed to roll out")
      (run ["kubectl", "rollout", "status", "deployment/" ++ deploy, "-n", olmNamespace, "--timeout=120s"])
  texts.catalog
  wrap "failed to deploy CatalogSource" (run ["kubectl", "apply", "-f", site.path "deploy/olm/catalogsource.yaml"])
  waitForCatalogSource "community-operators" (300 * second)

/-- `olm install`. -/
def olmInstall (site : Site) (version : String) : Work Unit := do
  if ← isOLMInstalled then say "OLM is already installed"
  else do
    installOLMWith site version
      { removing := header 1 5 "Removing stub OLM CRDs..."
        crds := header 2 5 ("Installing OLM " ++ version ++ " CRDs...")
        controllers := header 3 5 ("Installing OLM " ++ version ++ " controllers...")
        rollout := header 4 5 "Waiting for OLM rollout..."
        catalog := header 5 5 "Deploying community operators catalog..." }
    say ("\nOLM " ++ version ++ " installed with community operators catalog")
    say "  picoshift olm operator list"
    say "  picoshift olm operator install <name>"

/-- `olm uninstall`. -/
def olmUninstall (site : Site) (version : String) : Work Unit := do
  let base := olmBaseURL version
  header 1 3 "Removing OLM controllers..."
  ignore (runQuiet ["kubectl", "delete", "-f", base ++ "/olm.yaml", "--ignore-not-found"])
  header 2 3 "Removing OLM CRDs and namespace..."
  ignore (runQuiet ["kubectl", "delete", "-f", base ++ "/crds.yaml", "--ignore-not-found"])
  ignore (runQuiet ["kubectl", "delete", "namespace", olmNamespace, "--ignore-not-found"])
  header 3 3 "Restoring stub OLM CRDs..."
  wrap "failed to restore stub CRDs" (run ["kubectl", "apply", "-f", site.path "deploy/crds/olm"])
  say "OLM uninstalled, stub CRDs restored"

/-! ## 4. Along the parts -/

instance (site : Site) (clusterName : String) : Smooth (kindKnows site clusterName) := by
  have hfound : ∀ out : Option String, Smooth (match out with
      | none => pure false
      | some out => pure ((splitLines out).any fun line => Str.trim line = clusterName) : Work Bool) := by
    intro out
    cases out <;> infer_instance
  unfold kindKnows
  infer_instance

instance (site : Site) (cmd : Cmd) : Smooth (runSudo site cmd) := inferInstanceAs (Smooth (run _))

instance (site : Site) (cmd : Cmd) : Smooth (runSudoOutput site cmd) := inferInstanceAs (Smooth (runOutput _))

instance (timeout : Nat) : Smooth (waitForNode timeout) := by
  unfold waitForNode
  infer_instance

instance (path content : String) : Smooth (writeFile path content) := inferInstanceAs (Smooth (run _))

instance (site : Site) (clusterName : String) : Smooth (exportKubeconfig site clusterName) := by
  unfold exportKubeconfig
  infer_instance

instance : Smooth isOLMInstalled := by
  unfold isOLMInstalled
  infer_instance

instance (lines : List String) : Smooth (applyManifest lines) := inferInstanceAs (Smooth (run _))

instance (name image pullSecretName : String) : Smooth (applyCatalogSource name image pullSecretName) :=
  inferInstanceAs (Smooth (applyManifest _))

instance (ns : String) : Smooth (ensureOperatorGroup ns) := by
  unfold ensureOperatorGroup
  infer_instance

instance (operatorName ns channel catalogSource : String) :
    Smooth (createSubscription operatorName ns channel catalogSource) := inferInstanceAs (Smooth (applyManifest _))

instance (cmd : Cmd) (found : String → Option String) : Silent (probeOutput cmd found) := by
  have hfound : ∀ out : Option String, Silent (match out.bind found with
      | some line => do
        say line
        pure (some ())
      | none => pure none : Work (Option Unit)) := by
    intro out
    cases out.bind found <;> infer_instance
  unfold probeOutput
  infer_instance

instance (cmd : Cmd) (interval timeout : Nat) (found : String → Option String) (err : String) :
    Silent (waitForOutput cmd interval timeout found err) := by
  have hend : ∀ x : Option Unit, Silent (match x with
      | some _ => pure ()
      | none => fail err : Work Unit) := by
    intro x
    cases x <;> infer_instance
  unfold waitForOutput
  infer_instance

/-- One look, when the output is known. -/
theorem ends_probeOutput {dry : Bool} {fair : Fate → Prop} {cmd : Cmd} {out : String} {t : Terminal}
    (h : Ends dry fair (fun x _ => x = .ok out) (runOutputQuiet cmd) t) (found : String → Option String) :
    Ends dry fair (fun x _ => x = .ok ((found out).map fun _ => ())) (probeOutput cmd found) t := by
  have hattempt : Ends dry fair (fun x _ => x = .ok (some out)) (attempt (runOutputQuiet cmd)) t := by
    refine h.handle fun x t hx => ?_
    cases hx
    exact ends_pure rfl
  refine hattempt.bind (fun _ _ hx => nomatch hx) fun x t₁ hx => ?_
  cases hx
  rw [Option.bind_some]
  cases found out with
  | none => exact ends_pure rfl
  | some line =>
    have hsay : Ends dry fair (fun x _ => x = .ok ()) (say line) t₁ := ends_ask fun _ _ => rfl
    exact hsay.bind (fun _ _ hx => nomatch hx) fun _ _ _ => ends_pure rfl

instance (name : String) (timeout : Nat) : Silent (waitForCatalogSource name timeout) :=
  inferInstanceAs (Silent (waitForOutput _ _ _ _ _))

instance (operatorName ns : String) (timeout : Nat) : Silent (waitForCSV operatorName ns timeout) :=
  inferInstanceAs (Silent (waitForOutput _ _ _ _ _))

/-! ## 5. What `olm operator install` waits for -/

/-- A ClusterServiceVersion, as far as it is listed. -/
structure Csv where
  name : String
  phase : String
  deriving DecidableEq, Repr

def Csv.line (csv : Csv) : String := csv.name ++ "=" ++ csv.phase

/-- Names and phases have no white space, and phases no `=`. -/
def Csv.Ok (csv : Csv) : Prop :=
  csv.line.toList.all (fun c => !Str.isWhitespace c) = true ∧ '=' ∉ csv.phase.toList

instance (csv : Csv) : Decidable csv.Ok := inferInstanceAs (Decidable (_ ∧ _))

/-- What `kubectl get csv` prints. -/
def csvListing (csvs : List Csv) : String := Str.unlines (csvs.map Csv.line)

theorem toList_csvLine (csv : Csv) : csv.line.toList = csv.name.toList ++ '=' :: csv.phase.toList := by
  rw [Csv.line, String.toList_append, String.toList_append, List.append_assoc]
  rfl

theorem splitLines_csvListing {csvs : List Csv} (hne : csvs ≠ []) (h : ∀ csv ∈ csvs, csv.Ok) :
    splitLines (Str.trim (csvListing csvs)) = csvs.map Csv.line := by
  have hlines : Str.splitL '\n' (Str.trimL (Str.unlinesL ((csvs.map Csv.line).map String.toList))) =
      (csvs.map Csv.line).map String.toList := by
    refine Str.splitL_trimL_unlinesL (by simpa using hne) fun l hl => ?_
    obtain ⟨text, htext, rfl⟩ := List.mem_map.mp hl
    obtain ⟨csv, hcsv, rfl⟩ := List.mem_map.mp htext
    refine ⟨?_, fun c hc => ?_⟩
    · rw [toList_csvLine]
      simp
    · simpa using List.all_eq_true.mp (h csv hcsv).1 c hc
  rw [splitLines, Str.trim, String.toList_ofList, csvListing, Str.toList_unlines, hlines, List.map_map]
  exact List.map_congr_left (fun text _ => String.ofList_toList) |>.trans (List.map_id _)

/-- The line of a CSV that has succeeded, and whose line has the name of the operator in it. -/
theorem csvLine_iff {operatorName : String} {csv : Csv} (h : csv.Ok) :
    csvLine operatorName csv.line = true ↔
      operatorName.toList <:+: csv.line.toList ∧ csv.phase = "Succeeded" := by
  have hsuffix : hasSuffix csv.line "=Succeeded" = true ↔ csv.phase = "Succeeded" := by
    rw [hasSuffix, List.isSuffixOf_iff_suffix, toList_csvLine]
    constructor
    · rintro ⟨front, hfront⟩
      have hparts := Str.append_cons_inj_right (c := '=') (b := "Succeeded".toList) (by decide) h.2 hfront
      exact String.toList_injective hparts.2.symm
    · intro hphase
      rw [hphase]
      exact ⟨csv.name.toList, rfl⟩
  rw [csvLine, Bool.and_eq_true, Str.contains_iff, hsuffix]

/-- Waiting for an output that stays the same. -/
theorem ends_waitForOutput {fair : Fate → Prop} {out : String} {timeout : Nat}
    (hfair : ∀ fate, fair fate → fate.outcome = .ok out ∧ fate.elapsed < timeout) (cmd : Cmd) (interval : Nat)
    (found : String → Option String) (err : String) (t : Terminal) :
    Ends false fair (fun x _ => x = .ok () ↔ (found (Str.trim out)).isSome = true)
      (waitForOutput cmd interval timeout found err) t := by
  have hprobe : ∀ t, Ends false fair (fun x _ => x = .ok ((found (Str.trim out)).map fun _ => ()))
      (probeOutput cmd found) t := by
    refine fun t => ends_probeOutput (ends_ask fun fate hfate => ?_) found
    show (fate.result cmd).map Str.trim = _
    rw [Fate.result, (hfair fate hfate).1]
    rfl
  cases hfound : found (Str.trim out) with
  | none =>
    rw [hfound] at hprobe
    refine (ends_pollFor_none hprobe t).bind (fun _ _ hx => nomatch hx) fun x t₁ hx => ?_
    cases hx
    exact ends_fail (by simp)
  | some line =>
    rw [hfound] at hprobe
    -- the first round comes in time, and finds it
    have hpoll : Ends false fair (fun x _ => x = .ok (some ())) (pollFor timeout interval (probeOutput cmd found)) t := by
      refine (ends_now t).bind (fun _ _ hx => nomatch hx.1) fun c t₁ ⟨hc, _⟩ => ?_
      cases hc
      have hnow : Ends false fair (fun x _ => ∃ c < t₁.clock + timeout, x = .ok c) now t₁ :=
        ends_ask fun fate hfate => ⟨_, Nat.add_lt_add_left (hfair fate hfate).2 _, rfl⟩
      refine hnow.bind (fun _ _ ⟨_, _, hx⟩ => nomatch hx) fun c t₂ ⟨c', hlt, hc⟩ => ?_
      cases hc
      rw [if_pos hlt]
      refine (hprobe t₂).bind (fun _ _ hx => nomatch hx) fun x t₃ hx => ?_
      cases hx
      exact ends_pure rfl
    refine hpoll.bind (fun _ _ hx => nomatch hx) fun x t₁ hx => ?_
    cases hx
    exact ends_pure (by simp)

/-- **What `olm operator install` waits for**, while the list of CSVs stays the same: one that has succeeded and whose
line contains the name of the operator, whichever operator it is of. -/
theorem waitForCSV_iff {csvs : List Csv} (hcsvs : ∀ csv ∈ csvs, csv.Ok) (operatorName ns : String) {timeout : Nat}
    {fates : Nat → Fate} (hlisting : ∀ n, (fates n).outcome = .ok (csvListing csvs))
    (hintime : ∀ n, (fates n).elapsed < timeout) (t : Terminal) :
    (Prog.run (cli false) fates t (waitForCSV operatorName ns timeout)).2 = .ok () ↔
      ∃ csv ∈ csvs, csv.phase = "Succeeded" ∧ operatorName.toList <:+: csv.line.toList := by
  have hends : Ends false (fun fate => fate.outcome = .ok (csvListing csvs) ∧ fate.elapsed < timeout)
      (fun x _ => x = .ok () ↔ ((splitLines (Str.trim (csvListing csvs))).find? (csvLine operatorName)).isSome = true)
      (waitForCSV operatorName ns timeout) t := by
    refine (ends_waitForOutput (fun _ h => h) _ _ _ _ t).mono fun x _ hx => hx.trans ?_
    rw [Option.isSome_map]
  refine (Yields.run hends fun n => ⟨hlisting n, hintime n⟩).trans ?_
  rw [List.find?_isSome]
  rcases csvs with _ | ⟨csv, csvs⟩
  · -- an empty list is one empty line
    have hempty : csvLine operatorName "" = false := by simp [csvLine, hasSuffix]
    have hlines : splitLines (Str.trim (csvListing [])) = [""] := by decide +kernel
    simp [hlines, hempty]
  · rw [splitLines_csvListing (List.cons_ne_nil _ _) hcsvs]
    constructor
    · rintro ⟨line, hline, haccepted⟩
      obtain ⟨csv, hcsv, rfl⟩ := List.mem_map.mp hline
      obtain ⟨hname, hphase⟩ := (csvLine_iff (hcsvs csv hcsv)).mp haccepted
      exact ⟨csv, hcsv, hphase, hname⟩
    · rintro ⟨csv, hcsv, hphase, hname⟩
      exact ⟨csv.line, List.mem_map_of_mem hcsv, (csvLine_iff (hcsvs csv hcsv)).mpr ⟨hname, hphase⟩⟩

/-- The operator has failed, and another one whose name contains its name has not. -/
def otherSucceeded : List Csv := [⟨"istio-operator.v1.0.0", "Failed"⟩, ⟨"my-istio-operator-docs.v2.1.0", "Succeeded"⟩]

theorem waitForCSV_other : (Prog.run (cli false) (fun _ => ⟨.ok (csvListing otherSucceeded), true, 0⟩) (Terminal.new 0)
    (waitForCSV "istio-operator" "openshift-operators" (300 * second))).2 = .ok () := by
  have hok : ∀ csv ∈ otherSucceeded, csv.Ok := by decide +kernel
  refine (waitForCSV_iff hok _ _ (fun _ => rfl) (fun _ => by decide) _).mpr ?_
  exact ⟨⟨"my-istio-operator-docs.v2.1.0", "Succeeded"⟩, by decide +kernel, rfl, Str.contains_iff.mp (by decide +kernel)⟩

/-! ## 6. What the subcommands need -/

/-- The look that `olm install`, `olm catalog add` and `olm operator install` begin with. -/
def olmLook : Cmd := ["kubectl", "get", "deployment", "olm-operator", "-n", olmNamespace]

/-- After the look the subcommand goes one way or the other, and nothing but the look has been started. -/
theorem run_isOLMInstalled {α : Type} (fates : Nat → Fate) (t : Terminal) (p q : Work α) :
    Prog.run (cli false) fates t (isOLMInstalled >>= fun found => if found then p else q : Work α) =
      Prog.run (cli false) (fun n => fates (n + 1)) ((t.pass (fates 0).elapsed).start olmLook true)
        (match (fates 0).outcome with
        | .ok _ => p
        | .error _ => q) := by
  have hrun : Prog.run (cli false) fates t (isOLMInstalled >>= fun found => if found then p else q : Work α) =
      Prog.run (cli false) (fun n => fates (n + 1)) ((t.pass (fates 0).elapsed).start olmLook true)
        (if (((fates 0).result olmLook).map fun _ => ()).toOption.isSome then p else q) := rfl
  rw [hrun, Fate.result]
  cases (fates 0).outcome <;> rfl

/-- **Nothing is begun without OLM, and nothing twice.**  Where `kubectl` does not find the deployment of OLM, `olm catalog
add` and `olm operator install` end with an error that names the subcommand to run first; where it does, `olm install`
ends well.  Either way the look is all that has been started. -/
theorem olm_look_decides (site : Site) (version name image pullSecret operatorName channel ns : String)
    (fates : Nat → Fate) (t : Terminal) :
    let add := Prog.run (cli false) fates t (olmCatalogAdd name image pullSecret)
    let operator := Prog.run (cli false) fates t (olmOperatorInstall operatorName channel ns)
    let install := Prog.run (cli false) fates t (olmInstall site version)
    match (fates 0).outcome with
    | .ok _ => install.2 = .ok () ∧ install.1.started = t.started ++ [⟨olmLook, true⟩]
    | .error _ =>
      add.2 = .error "OLM is not installed — run 'picoshift olm install' first" ∧ operator.2 = add.2 ∧
        add.1.started = t.started ++ [⟨olmLook, true⟩] ∧ operator.1.started = add.1.started := by
  simp only [olmCatalogAdd, olmOperatorInstall, olmInstall, run_isOLMInstalled]
  cases (fates 0).outcome with
  | ok out => exact ⟨rfl, rfl⟩
  | error err => exact ⟨rfl, rfl, rfl, rfl⟩

/-- In a dry run OLM counts as installed. -/
theorem ends_isOLMInstalled_dry (fair : Fate → Prop) (t : Terminal) :
    Ends true fair (fun x _ => x = .ok true) isOLMInstalled t :=
  fun _ _ => rfl

/-- A wait whose output has to be something. -/
theorem dryFails_waitForOutput (cmd : Cmd) (interval timeout : Nat) {found : String → Option String}
    (h : found "" = none) (err : String) : DryFails (waitForOutput cmd interval timeout found err) := by
  intro t
  have hprobe : ∀ t, Ends true (fun fate => fate.found = true) (fun x _ => x = .ok none) (probeOutput cmd found) t := by
    intro t
    have hout : Ends true (fun fate => fate.found = true) (fun x _ => x = .ok "") (runOutputQuiet cmd) t :=
      ends_ask fun _ _ => rfl
    have hlook := ends_probeOutput hout found
    rwa [h] at hlook
  refine (ends_pollFor_none hprobe t).bind (fun _ _ hx => nomatch hx) fun x t₁ hx => ?_
  cases hx
  exact ends_fail ⟨err, rfl⟩

theorem dryFails_waitForCatalogSource (name : String) (timeout : Nat) : DryFails (waitForCatalogSource name timeout) :=
  dryFails_waitForOutput _ _ _ (if_neg (by decide)) _

theorem dryFails_waitForCSV (operatorName ns : String) (timeout : Nat) : DryFails (waitForCSV operatorName ns timeout) := by
  refine dryFails_waitForOutput _ _ _ ?_ _
  have hempty : csvLine operatorName "" = false := by simp [csvLine, hasSuffix]
  have hlines : splitLines "" = [""] := by decide
  simp [hlines, hempty]

theorem dryFails_olmCatalogAdd (name image pullSecret : String) : DryFails (olmCatalogAdd name image pullSecret) := by
  refine dryFails_bind _ fun installed => ?_
  split
  · split
    · exact dryFails_fail _
    · have hwait : ∀ last : Nat, DryFails (do
          header last last "Waiting for catalog to be ready..."
          waitForCatalogSource name (300 * second)
          say ("\nCatalog \"" ++ name ++ "\" added")) :=
        fun last => dryFails_bind _ fun _ => (dryFails_waitForCatalogSource name _).bind _
      dsimp only
      split
      · exact dryFails_bind _ fun _ => dryFails_bind _ fun _ => dryFails_bind _ fun _ => dryFails_bind _ fun _ =>
          dryFails_bind _ fun _ => dryFails_bind _ fun last => hwait last
      · exact dryFails_bind _ fun _ => dryFails_bind _ fun _ => dryFails_bind _ fun last => hwait last
  · exact dryFails_fail _

theorem dryFails_olmOperatorInstall (operatorName channel ns : String) :
    DryFails (olmOperatorInstall operatorName channel ns) := by
  refine dryFails_bind _ fun installed => ?_
  split
  · have hwait (channel : String) := fun catalogSource =>
      dryFails_bind (header 1 3 ("Ensuring OperatorGroup in " ++ ns ++ "...")) fun _ =>
      dryFails_bind (ensureOperatorGroup ns) fun _ =>
      dryFails_bind (header 2 3 ("Creating Subscription for " ++ operatorName ++ " (channel=" ++ channel ++ ")...")) fun _ =>
      dryFails_bind (createSubscription operatorName ns channel catalogSource) fun _ =>
      dryFails_bind (header 3 3 "Waiting for CSV to succeed...") fun _ =>
        (dryFails_waitForCSV operatorName ns (300 * second)).bind fun _ =>
          say ("\nOperator \"" ++ operatorName ++ "\" installed successfully")
    dsimp only
    split
    · exact dryFails_bind _ fun _ => dryFails_bind _ fun _ => dryFails_bind _ fun channel =>
        dryFails_bind _ fun catalogSource => hwait channel catalogSource
    · exact dryFails_bind _ fun channel => dryFails_bind _ fun catalogSource => hwait channel catalogSource
  · exact dryFails_fail _

/-- **Which of the OLM subcommands can be tried dry.**  What only installs, removes or restores can: OLM counts as installed
then, so `olm install` has nothing to do.  What waits for a catalog or an operator cannot: the commands that it reads
print nothing in a dry run, so it waits in vain. -/
theorem olm_dry_runs (site : Site) (version name image pullSecret operatorName channel ns : String) :
    (DryOk (olmInstall site version) ∧ DryOk (olmUninstall site version) ∧ DryOk (olmCatalogRemove name)) ∧
      DryFails (olmCatalogAdd name image pullSecret) ∧ DryFails (olmOperatorInstall operatorName channel ns) := by
  refine ⟨⟨⟨fun t => ?_⟩, ?_, ?_⟩, dryFails_olmCatalogAdd name image pullSecret,
    dryFails_olmOperatorInstall operatorName channel ns⟩
  · refine (ends_isOLMInstalled_dry _ t).bind (fun _ _ hx => nomatch hx) fun installed t hx => ?_
    cases hx
    exact DryOk.ends (p := say "OLM is already installed") t
  · have hrestore : DryOk (do
        ignore (runQuiet ["kubectl", "delete", "namespace", olmNamespace, "--ignore-not-found"])
        header 3 3 "Restoring stub OLM CRDs..."
        wrap "failed to restore stub CRDs" (run ["kubectl", "apply", "-f", site.path "deploy/crds/olm"])
        say "OLM uninstalled, stub CRDs restored") := inferInstance
    unfold olmUninstall
    dsimp only
    infer_instance
  · unfold olmCatalogRemove
    infer_instance

end Picoshift.Setup

/-
# `picoshift create`

The subcommand that makes a cluster: some fifteen steps, of which the flags decide which are taken.  It announces each
with its number and the number of all steps, and that number is computed in advance, by sums of its own over the same
flags.  `create_steps` says that the two agree: whatever fails, the steps are announced as 1, 2, 3 … of one total, and
if the subcommand succeeds the last of them is the total.

With `--dry-run` the quiet commands report success and print nothing.  So OLM counts as installed, and waiting for a
catalog never ends before its five minutes are over: `create_dry_run` says which dry runs succeed.
-/
import Picoshift.Cli.Olm

namespace Picoshift.Setup

/-! ## 1. The steps -/

structure Flags where
  name : String
  authMode : String
  noDeploy : Bool
  build : Bool
  pullSecret : String
  withOLM : Bool
  withOSSM3 : Bool
  deriving DecidableEq, Repr

def checkDeps (site : Site) : Work Unit := do
  if ← checkFile site.kindBin then pure ()
  else if site.isDevMode then
    say "Kind binary not found. Run 'picoshift init' and 'picoshift build --kind' first."
  else
    fail ("kind binary not found — place it next to picoshift (as 'kind' or 'kind-linux-amd64') or on PATH.\n" ++
      "Download from: https://github.com/jctanner/picoshift/releases/tag/v" ++ site.version)
  each ["kubectl", "podman"] checkDep

def buildEntraMock (site : Site) : Work Unit := do
  say "Building entra-mock image..."
  run ["bash", "-c", "\n".intercalate [
    site.sudoCmd ++ " podman build -t " ++ entraMockImage ++ " -f - " ++ site.path "deps/entra-id-emulator" ++
      " <<'DOCKERFILE'",
    "FROM python:3.11-slim",
    "RUN apt-get update && apt-get install -y --no-install-recommends curl && rm -rf /var/lib/apt/lists/*",
    "WORKDIR /app",
    "COPY requirements.txt .",
    "RUN pip install --no-cache-dir -r requirements.txt",
    "COPY . .",
    "RUN mkdir -p /app/data",
    "EXPOSE 8080",
    "CMD [\"python\", \"run.py\"]",
    "DOCKERFILE"]]

def buildBaseImage (site : Site) : Work Unit := do
  each ["main.go", "go.mod", "go.sum"] fun f =>
    run ["cp", site.path "deps/kind" ++ "/cmd/ocp-shim/" ++ f, site.path "deps/kind" ++ "/images/base/ocp-shim/"]
  runSudo site ["podman", "build", "--build-arg", "GO_VERSION=1.26.2", "-t", baseImage,
    site.path "deps/kind" ++ "/images/base"]

def buildNodeImage (site : Site) : Work Unit :=
  runSudo site [site.path "deps/kind/bin/kind", "build", "node-image", "v1.33.1", "--type", "release",
    "--base-image", baseImage, "--image", nodeImage]

/-- The attempts to create the cluster that are left, out of three. -/
def createAttempts (site : Site) (createArgs : Cmd) : Nat → Work Unit
  | 0 => pure ()
  | n + 1 => handle (runSudo site createArgs) fun
    | .ok () => pure ()
    | .error err =>
      if n = 0 then fail ("kind create failed after 3 attempts: " ++ err)
      else do
        say ("  cluster creation failed (attempt " ++ toString (3 - n) ++ "/3), retrying...")
        sleep (5 * second)
        createAttempts site createArgs n

def createCluster (site : Site) (name : String) : Work Unit :=
  createAttempts site [site.kindBin, "create", "cluster", "--config", site.path "deploy/kind/cluster.yaml",
    "--image", site.resolvedNodeImage, "--name", name] 3

def deployCRDs (site : Site) : Work Unit := do
  each ["openshift", "olm", "gateway", "monitoring", "istio", "authorino", "kuadrant"] fun d => do
    -- only for OLM's own directory the cluster is asked
    let skip ← if d = "olm" then isOLMInstalled else pure false
    if skip then say "  OLM is running — skipping stub OLM CRDs"
    else run ["kubectl", "apply", "-f", site.path "deploy/crds" ++ "/" ++ d]
  run ["kubectl", "apply", "--server-side", "-f", site.path "deploy/crds" ++ "/jobset"]
  run ["kubectl", "wait", "--for=condition=Established", "crd", "--all", "--timeout=30s"]

def seedFiles (authMode : String) : List String :=
  ["namespaces.yaml", "cluster-config.yaml", "authentication.yaml"] ++
    (if authMode ≠ "byoidc" then ["htpasswd.yaml"] else []) ++
    (if authMode ≠ "legacy" then ["authentication-oidc.yaml"] else []) ++
    ["ingress.yaml", "infrastructure.yaml", "sccs.yaml", "jobset-operator.yaml", "rbac-compat.yaml"]

def deploySeed (site : Site) (authMode : String) : Work Unit := do
  each (seedFiles authMode) fun f => run ["kubectl", "apply", "-f", site.path "deploy/seed" ++ "/" ++ f]
  ignore (run ["kubectl", "patch", "endpoints", "kubernetes", "-n", "default", "--type=json",
    "-p=[\x7b\"op\":\"replace\",\"path\":\"/subsets/0/ports/0/port\",\"value\":6443\x7d]"])

def clusterVersionSpec : String :=
  "\x7b\"apiVersion\":\"config.openshift.io/v1\",\"kind\":\"ClusterVersion\"," ++
    "\"metadata\":\x7b\"name\":\"version\"\x7d," ++
    "\"spec\":\x7b\"clusterID\":\"ocp-sim-00000000-0000-0000-0000-000000000000\"," ++
    "\"channel\":\"stable-4.20\"\x7d\x7d"

/-- The status is a subresource, so it goes through `kubectl proxy`. -/
def clusterVersionScript : String :=
  "\n".intercalate [
    "",
    "kubectl proxy --port=8199 &",
    "PROXY_PID=$!",
    "sleep 1",
    "RV=$(curl -s http://localhost:8199/apis/config.openshift.io/v1/clusterversions/version | python3 " ++
      "-c \"import sys,json; print(json.load(sys.stdin)['metadata']['resourceVersion'])\")",
    "curl -s -X PUT http://localhost:8199/apis/config.openshift.io/v1/clusterversions/version/status \\",
    "  -H \"Content-Type: application/json\" \\",
    "  -d \"\x7b\\\"apiVersion\\\":\\\"config.openshift.io/v1\\\",\\\"kind\\\":\\\"ClusterVersion\\\"," ++
      "\\\"metadata\\\":\x7b\\\"name\\\":\\\"version\\\"," ++
      "\\\"resourceVersion\\\":\\\"$\x7bRV\x7d\\\"\x7d," ++
      "\\\"spec\\\":\x7b\\\"clusterID\\\":\\\"ocp-sim-00000000-0000-0000-0000-000000000000\\\"," ++
      "\\\"channel\\\":\\\"stable-4.20\\\"\x7d," ++
      "\\\"status\\\":\x7b\\\"desired\\\":\x7b\\\"version\\\":\\\"4.20.0\\\"\x7d," ++
      "\\\"history\\\":[\x7b\\\"state\\\":\\\"Completed\\\",\\\"version\\\":\\\"4.20.0\\\"," ++
      "\\\"startedTime\\\":\\\"2024-01-01T00:00:00Z\\\"," ++
      "\\\"completionTime\\\":\\\"2024-01-01T01:00:00Z\\\",\\\"verified\\\":true\x7d]," ++
      "\\\"conditions\\\":[\x7b\\\"type\\\":\\\"Available\\\",\\\"status\\\":\\\"True\\\"," ++
      "\\\"lastTransitionTime\\\":\\\"2024-01-01T01:00:00Z\\\"," ++
      "\\\"reason\\\":\\\"ClusterVersionAvailable\\\",\\\"message\\\":\\\"Simulated OCP cluster\\\"\x7d," ++
      "\x7b\\\"type\\\":\\\"Progressing\\\",\\\"status\\\":\\\"False\\\"," ++
      "\\\"lastTransitionTime\\\":\\\"2024-01-01T01:00:00Z\\\"," ++
      "\\\"reason\\\":\\\"ClusterVersionNotProgressing\\\"\x7d,\x7b\\\"type\\\":\\\"Failing\\\"," ++
      "\\\"status\\\":\\\"False\\\",\\\"lastTransitionTime\\\":\\\"2024-01-01T01:00:00Z\\\"," ++
      "\\\"reason\\\":\\\"ClusterVersionNotFailing\\\"\x7d]\x7d\x7d\" > /dev/null",
    "kill $PROXY_PID 2>/dev/null; wait $PROXY_PID 2>/dev/null || true",
    ""]

def deployClusterVersion : Work Unit := do
  run ["bash", "-c", "echo '" ++ clusterVersionSpec ++ "' | kubectl apply -f -"]
  run ["bash", "-c", clusterVersionScript]

/-- The image of a release is pulled and gets the name of the one that is built here. -/
def pullImage (site : Site) (resolved built what : String) : Work Unit :=
  if site.isDevMode then pure ()
  else do
    say ("  Pulling " ++ resolved ++ "...")
    wrap ("failed to pull " ++ what ++ " image") (runSudo site ["podman", "pull", resolved])
    wrap ("failed to tag " ++ what ++ " image") (runSudo site ["podman", "tag", resolved, built])

def loadImage (site : Site) (clusterName image archive : String) : Work Unit := do
  runSudo site ["podman", "save", image, "--format", "oci-archive", "-o", archive]
  run ["bash", "-c", site.sudoCmd ++ " podman exec -i " ++ clusterName ++
    "-control-plane ctr --namespace=k8s.io images import --no-unpack - < " ++ archive]
  ignore (runSudo site ["rm", "-f", archive])

def deployEntraMock (site : Site) (clusterName : String) : Work Unit := do
  pullImage site site.resolvedEntraMockImage entraMockImage "entra-mock"
  loadImage site clusterName entraMockImage "/tmp/entra-mock-oci.tar"
  run ["kubectl", "apply", "-f", site.path "deploy/entra-mock.yaml"]
  run ["kubectl", "-n", "entra-mock", "rollout", "status", "deployment/entra-mock", "--timeout=120s"]

/-- The arguments of the simulator's container that replace those of the manifest. -/
def simArgs (authMode : String) : Option String :=
  if authMode = "oidc" then
    some "[\"--proxy\",\"--proxy-port\",\"80\",\"--users-file\",\"/etc/ocp-sim/users.yaml\",\"--auth-mode\",\"oidc\"]"
  else if authMode = "byoidc" then
    some ("[\"--proxy\",\"--proxy-port\",\"80\",\"--users-file\",\"/etc/ocp-sim/users.yaml\"" ++
      ",\"--auth-mode\",\"byoidc\"" ++
      ",\"--oidc-issuer-url\",\"http://entra-mock.entra-mock.svc.cluster.local:8080/a1b2c3d4-e5f6-7890-abcd-ef1234567890/v2.0\"" ++
      ",\"--oidc-client-id\",\"picoshift\"" ++
      ",\"--oidc-client-secret\",\"picoshift-secret\"]")
  else none

def patchArgs (args : Option String) : Work Unit :=
  match args with
  | none => pure ()
  | some args => run ["kubectl", "-n", simNamespace, "patch", "daemonset", "ocp-sim", "--type=json",
      "-p=[\x7b\"op\":\"replace\",\"path\":\"/spec/template/spec/containers/0/args\",\"value\":" ++ args ++ "\x7d]"]

def deploySim (site : Site) (clusterName authMode : String) : Work Unit := do
  pullImage site site.resolvedSimImage simImage "simulator"
  loadImage site clusterName simImage "/tmp/ocp-sim-oci.tar"
  ignore (run ["kubectl", "create", "namespace", simNamespace])
  run ["bash", "-c", "kubectl -n " ++ simNamespace ++ " create configmap ocp-sim-users --from-file=" ++
    site.path "deploy/users.yaml" ++ " --dry-run=client -o yaml | kubectl apply -f -"]
  run ["kubectl", "apply", "-f", site.path "deploy/simulator.yaml"]
  patchArgs (simArgs authMode)
  ignore (run ["kubectl", "-n", simNamespace, "delete", "pod", "--all", "--wait=false"])
  sleep (3 * second)
  run ["kubectl", "wait", "--namespace", simNamespace, "--for=condition=Ready", "pod", "--selector=app=ocp-sim",
    "--timeout=120s"]

/-- A command on the node. -/
def onNode (site : Site) (clusterName : String) (cmd : Cmd) : Work Unit :=
  runSudo site (["podman", "exec", clusterName ++ "-control-plane"] ++ cmd)

def apiServerManifest : String := "/etc/kubernetes/manifests/kube-apiserver.yaml"

/-- The lines of `oidcFlags`; the issuer is `ByoidcIssuerURL`. -/
def oidcFlags : List String :=
  ["        - --oidc-issuer-url=https://entra.apps.ocp-sim.test/a1b2c3d4-e5f6-7890-abcd-ef1234567890/v2.0",
   "        - --oidc-client-id=picoshift",
   "        - --oidc-username-claim=preferred_username",
   "        - --oidc-groups-claim=groups",
   "        - --oidc-username-prefix=-",
   "        - --oidc-groups-prefix=",
   "        - --oidc-ca-file=/etc/kubernetes/pki/oidc-ca.crt"]

def getNodes (timeout : String) : Cmd := ["kubectl", "get", "nodes", "--request-timeout=" ++ timeout]

def patchAPIServerOIDC (site : Site) (clusterName : String) : Work Unit := do
  say "  Extracting OIDC CA cert from simulator proxy..."
  wrap "failed to extract OIDC CA cert" (onNode site clusterName ["sh", "-c",
    "echo | openssl s_client -connect localhost:443 -servername entra.apps.ocp-sim.test 2>/dev/null " ++
      "| openssl x509 -outform PEM > /etc/kubernetes/pki/oidc-ca.crt"])
  say "  Patching kube-apiserver manifest with OIDC flags..."
  wrap "failed to patch kube-apiserver manifest" (onNode site clusterName ["sh", "-c",
    "grep -q -- \"--oidc-issuer-url=https://entra\" " ++ apiServerManifest ++ " && exit 0; " ++
      "sed -i \"/--secure-port=16443/a\\" ++ "\\n".intercalate oidcFlags ++ "\" " ++ apiServerManifest])
  say "  Waiting for kube-apiserver to restart..."
  sleep (20 * second)
  let _ ← pollFor (90 * second) (5 * second) (attempt (runQuiet (getNodes "10s")))
  wrap "kube-apiserver did not recover after OIDC patch" (run (getNodes "60s"))
  say "  kube-apiserver OIDC configuration complete"

def patchAPIServerAudiences (site : Site) (clusterName : String) : Work Unit :=
  onNode site clusterName ["sh", "-c",
    "grep -q -- \"--api-audiences=.*istio-ca\" " ++ apiServerManifest ++ " && exit 0; " ++
      "sed -i '/--service-account-issuer=/a\\" ++
      "        - --api-audiences=https://kubernetes.default.svc.cluster.local,istio-ca' " ++ apiServerManifest]

def createPullSecret (ns name pullSecretPath : String) : Work Unit := do
  ignore (runQuiet ["kubectl", "-n", ns, "delete", "secret", name, "--ignore-not-found"])
  run ["kubectl", "-n", ns, "create", "secret", "docker-registry", name,
    "--from-file=.dockerconfigjson=" ++ pullSecretPath]

def storePullSecret (pullSecretPath : String) : Work Unit :=
  createPullSecret simNamespace "rh-pull-secret" pullSecretPath

def installOLM (site : Site) : Work Unit := do
  if ← isOLMInstalled then say "  OLM is already installed"
  else do
    installOLMWith site olmDefaultVersion
      { removing := say "  Removing stub OLM CRDs..."
        crds := say ("  Installing OLM " ++ olmDefaultVersion ++ " CRDs...")
        controllers := say ("  Installing OLM " ++ olmDefaultVersion ++ " controllers...")
        rollout := say "  Waiting for OLM rollout..."
        catalog := say "  Deploying community operators catalog..." }
    say "  OLM installed"

/-- The hosts file of each registry, out of the pull secret. -/
def hostsScript : String :=
  "\n".intercalate [
    "",
    "for registry in $(jq -r '.auths | keys[]' /tmp/pull-secret.json); do",
    "  auth=$(jq -r --arg r \"$registry\" '.auths[$r].auth // empty' /tmp/pull-secret.json)",
    "  [ -z \"$auth\" ] && continue",
    "  mkdir -p \"/etc/containerd/certs.d/$registry\"",
    "  cat > \"/etc/containerd/certs.d/$registry/hosts.toml\" <<HOSTEOF",
    "server = \"https://$registry\"",
    "",
    "[host.\"https://$registry\"]",
    "  capabilities = [\"pull\", \"resolve\"]",
    "  [host.\"https://$registry\".header]",
    "    Authorization = [\"Basic $auth\"]",
    "HOSTEOF",
    "done",
    ""]

def configPathScript : String :=
  "grep -q 'config_path' /etc/containerd/config.toml || " ++
    "sed -i '/\\[plugins\\.\"io\\.containerd\\.grpc\\.v1\\.cri\"\\.registry\\]/a\\  config_path = " ++
      "\"/etc/containerd/certs.d\"' /etc/containerd/config.toml || " ++
    "printf '\\n[plugins.\"io.containerd.grpc.v1.cri\".registry]\\n  config_path = " ++
      "\"/etc/containerd/certs.d\"\\n' >> /etc/containerd/config.toml"

def installNodePullSecret (site : Site) (clusterName pullSecretPath : String) : Work Unit := do
  wrap "failed to copy pull secret to node"
    (runSudo site ["podman", "cp", pullSecretPath, clusterName ++ "-control-plane:/tmp/pull-secret.json"])
  wrap "failed to generate containerd hosts config" (onNode site clusterName ["sh", "-c", hostsScript])
  wrap "failed to configure containerd config_path" (onNode site clusterName ["sh", "-c", configPathScript])
  wrap "failed to restart containerd" (onNode site clusterName ["systemctl", "restart", "containerd"])
  sleep (5 * second)
  match ← pollFor (60 * second) (5 * second) (attempt (runQuiet (getNodes "5s"))) with
  | some _ => pure ()
  | none => fail "node did not recover after containerd restart"

def stubIstioCRDs : List String :=
  ["istios.sailoperator.io", "istiocnis.sailoperator.io", "istiorevisions.sailoperator.io",
   "remoteistios.sailoperator.io", "ztunnels.sailoperator.io", "wasmplugins.extensions.istio.io",
   "telemetries.telemetry.istio.io"]

def istioCR : List String :=
  ["apiVersion: sailoperator.io/v1",
   "kind: Istio",
   "metadata:",
   "  name: openshift-gateway",
   "spec:",
   "  namespace: istio-system",
   "  updateStrategy:",
   "    type: InPlace",
   "  values:",
   "    global:",
   "      istioNamespace: istio-system",
   "      priorityClassName: system-cluster-critical",
   "    pilot:",
   "      enabled: true",
   "      env:",
   "        PILOT_ENABLE_GATEWAY_API: \"true\"",
   "        PILOT_ENABLE_ALPHA_GATEWAY_API: \"false\"",
   "        PILOT_ENABLE_GATEWAY_API_STATUS: \"true\"",
   "        PILOT_ENABLE_GATEWAY_API_DEPLOYMENT_CONTROLLER: \"true\"",
   "        PILOT_ENABLE_GATEWAY_API_GATEWAYCLASS_CONTROLLER: \"false\"",
   "        PILOT_GATEWAY_API_DEFAULT_GATEWAYCLASS_NAME: \"openshift-default\"",
   "        PILOT_GATEWAY_API_CONTROLLER_NAME: \"openshift.io/gateway-controller/v1\"",
   "        PILOT_MULTI_NETWORK_DISCOVER_GATEWAY_API: \"false\"",
   "        ENABLE_GATEWAY_API_MANUAL_DEPLOYMENT: \"false\"",
   "        PILOT_ENABLE_GATEWAY_API_CA_CERT_ONLY: \"true\"",
   "        PILOT_ENABLE_GATEWAY_API_COPY_LABELS_ANNOTATIONS: \"false\""]

def applyIstioCR : Work Unit := applyManifest istioCR

def waitForIstiod (timeout : Nat) : Work Unit :=
  waitForOutput ["kubectl", "get", "istio", "openshift-gateway", "-o", "jsonpath=\x7b.status.state\x7d"]
    (10 * second) timeout (fun out => if out = "Healthy" then some "  istiod is healthy" else none)
    ("istiod did not become healthy after " ++ showMinutes timeout)

/-- The first part of `installOSSM3`: the node can pull, and there is a catalog. -/
def addRedHatCatalog (site : Site) (clusterName pullSecretPath : String) : Work Unit := do
  say "  Installing node-level pull secret..."
  installNodePullSecret site clusterName pullSecretPath
  say "  Adding redhat-operators catalog..."
  wrap "failed to create catalog pull secret"
    (createPullSecret olmNamespace "catalog-pull-redhat-operators" pullSecretPath)
  applyCatalogSource "redhat-operators" "registry.redhat.io/redhat/redhat-operator-index:v4.17"
    "catalog-pull-redhat-operators"
  waitForCatalogSource "redhat-operators" (300 * second)

/-- Its second part: the operator in the place of the stub CRDs. -/
def installMeshOperator : Work Unit := do
  say "  Installing Gateway API CRDs (v1 + v1beta1)..."
  wrap "failed to install Gateway API CRDs" (run ["kubectl", "apply", "-f",
    "https://github.com/kubernetes-sigs/gateway-api/releases/download/v1.3.0/standard-install.yaml"])
  say "  Removing stub Istio CRDs (conflict with servicemeshoperator3)..."
  ignore (runQuiet ["kubectl", "delete", "crd", "-l", "operators.coreos.com/sailoperator.openshift-operators",
    "--ignore-not-found"])
  each stubIstioCRDs fun crd => ignore (runQuiet ["kubectl", "delete", "crd", crd, "--ignore-not-found"])
  say "  Installing servicemeshoperator3..."
  ensureOperatorGroup "openshift-operators"
  createSubscription "servicemeshoperator3" "openshift-operators" "stable-3.0" "redhat-operators"
  waitForCSV "servicemeshoperator3" "openshift-operators" (300 * second)

/-- Its last part: Istio itself. -/
def installIstio (site : Site) (clusterName : String) : Work Unit := do
  say "  Creating istio-system namespace and Istio CR..."
  ignore (run ["kubectl", "create", "namespace", "istio-system"])
  applyIstioCR
  say "  Patching API server audiences for istio-ca..."
  patchAPIServerAudiences site clusterName
  say "  Waiting for istiod..."
  waitForIstiod (300 * second)
  say "  OSSM3 gateway stack installed"

def installOSSM3 (site : Site) (clusterName pullSecretPath : String) : Work Unit := do
  addRedHatCatalog site clusterName pullSecretPath
  installMeshOperator
  installIstio site clusterName

/-! ## 2. `NewCreateCmd` -/

/-- `totalSteps`. -/
def totalSteps (flags : Flags) (build withOLM : Bool) : Nat :=
  let byoidc := flags.authMode = "byoidc"
  if flags.noDeploy then
    if build then (if byoidc then 6 + 1 else 6) else 2
  else
    8 + (if byoidc then 2 else 0) + (if flags.pullSecret ≠ "" then 1 else 0) + (if withOLM then 1 else 0) +
      (if flags.withOSSM3 then 1 else 0) + (if build then (if byoidc then 4 + 1 else 4) else 0)

/-- `step++`, the announcement and the work; the new value of `step`. -/
def stage (total : Nat) (title : String) (work : Work Unit) (step : Nat) : Work Nat := do
  header (step + 1) total title
  work
  pure (step + 1)

/-- A stage under a condition. -/
def stageIf (b : Bool) (total : Nat) (title : String) (work : Work Unit) (step : Nat) : Work Nat :=
  if b then stage total title work step else pure step

/-- The stages of `--build`. -/
def buildStages (site : Site) (authMode : String) (total step : Nat) : Work Nat := do
  let step ← stage total "Building kind CLI..." (run ["make", "-C", site.path "deps/kind", "build"]) step
  let step ← stage total "Building kind base image..." (buildBaseImage site) step
  let step ← stage total "Building kind node image..." (buildNodeImage site) step
  let step ← stage total "Building simulator image..."
    (runSudo site ["podman", "build", "-t", simImage, site.path "simulator"]) step
  stageIf (authMode = "byoidc") total "Building entra-mock image..." (buildEntraMock site) step

/-- They are taken only with the flag. -/
def buildStagesIf (build : Bool) (site : Site) (authMode : String) (total step : Nat) : Work Nat :=
  if build then buildStages site authMode total step else pure step

/-- The stage that makes the cluster; what it announces depends on whether there is one. -/
def clusterStage (site : Site) (name : String) (total step : Nat) : Work Nat := do
  if ← kindKnows site name then
    stage total ("Cluster \"" ++ name ++ "\" already exists") (pure ()) step
  else
    stage total ("Creating kind cluster \"" ++ name ++ "\" (image=" ++ site.resolvedNodeImage ++ ")...")
      (createCluster site name) step

/-- The stages that `--no-deploy` leaves out, up to the last one. -/
def deployStages (site : Site) (flags : Flags) (withOLM : Bool) (total step : Nat) : Work Nat := do
  let step ← stage total "Waiting for node..." (waitForNode (120 * second)) step
  let step ← stage total "Deploying CRDs..." (deployCRDs site) step
  let step ← stage total ("Deploying seed resources (auth-mode=" ++ flags.authMode ++ ")...")
    (deploySeed site flags.authMode) step
  let step ← stage total "Creating ClusterVersion..." deployClusterVersion step
  let step ← stageIf (flags.authMode = "byoidc") total "Deploying entra-mock..." (deployEntraMock site flags.name) step
  let step ← stage total "Deploying simulator..." (deploySim site flags.name flags.authMode) step
  let step ← stageIf (flags.authMode = "byoidc") total "Patching kube-apiserver for BYOIDC..."
    (patchAPIServerOIDC site flags.name) step
  let step ← stage total "Setting up admin RBAC..." (run ["python3", site.path "scripts/setup-admin-rbac.py"]) step
  let step ← stageIf (flags.pullSecret ≠ "") total "Storing pull secret..." (storePullSecret flags.pullSecret) step
  stageIf withOLM total "Installing OLM..." (installOLM site) step

/-- The last stage, and the end. -/
def lastStage (site : Site) (flags : Flags) (total step : Nat) : Work Unit := do
  let _ ← stageIf flags.withOSSM3 total "Installing OSSM3 gateway stack..."
    (installOSSM3 site flags.name flags.pullSecret) step
  say "\n=== Ready ==="
  say "  picoshift status"
  say "  picoshift logs"
  say "  https://rh-ai.apps.ocp-sim.test/"

/-- All stages, with `step` announced already. -/
def allStages (site : Site) (flags : Flags) (build withOLM : Bool) (total step : Nat) : Work Unit := do
  let step ← buildStagesIf build site flags.authMode total step
  let step ← clusterStage site flags.name total step
  let step ← stage total "Exporting kubeconfig..." (exportKubeconfig site flags.name) step
  if flags.noDeploy then say "\n=== Cluster created (--no-deploy: skipping CRDs, seed, simulator) ==="
  else do
    let step ← deployStages site flags withOLM total step
    lastStage site flags total step

/-- The subcommand, after its flags have been checked and completed. -/
def createSteps (site : Site) (flags : Flags) (build withOLM : Bool) : Work Unit := do
  checkDeps site
  allStages site flags build withOLM (totalSteps flags build withOLM) 0

/-- `build`, unless the release has its images. -/
def effectiveBuild (site : Site) (flags : Flags) : Work Bool :=
  if flags.build && !site.isDevMode then do
    say ("picoshift " ++ site.version ++ " uses pre-built images from " ++ defaultRegistry ++ " — ignoring --build.")
    pure false
  else pure flags.build

def create (site : Site) (flags : Flags) : Work Unit := do
  if flags.authMode ≠ "legacy" ∧ flags.authMode ≠ "oidc" ∧ flags.authMode ≠ "byoidc" then
    fail ("invalid --auth-mode \"" ++ flags.authMode ++ "\": must be legacy, oidc, or byoidc")
  else do
    let build ← effectiveBuild site flags
    if flags.withOSSM3 && flags.pullSecret = "" then fail "--with-ossm3 requires --pull-secret"
    else createSteps site flags build (flags.withOLM || flags.withOSSM3)

/-! ## 3. Along the parts -/

set_option synthInstance.maxSize 10000

instance (site : Site) : Smooth (buildEntraMock site) := by
  unfold buildEntraMock
  infer_instance

instance (site : Site) : Smooth (buildBaseImage site) := by
  unfold buildBaseImage
  infer_instance

instance (site : Site) : Smooth (buildNodeImage site) := inferInstanceAs (Smooth (runSudo _ _))

/-- In a dry run the first attempt succeeds; but it announces nothing in any case. -/
instance (site : Site) (createArgs : Cmd) (n : Nat) : Smooth (createAttempts site createArgs n) := by
  have hsilent : Silent (createAttempts site createArgs n) := by
    induction n with
    | zero => exact inferInstanceAs (Silent (pure ()))
    | succ n ih =>
      have hnext : ∀ x : Except String Unit, Silent (match x with
          | .ok () => pure ()
          | .error err =>
            if n = 0 then fail ("kind create failed after 3 attempts: " ++ err)
            else do
              say ("  cluster creation failed (attempt " ++ toString (3 - n) ++ "/3), retrying...")
              sleep (5 * second)
              createAttempts site createArgs n : Work Unit) := by
        intro x
        cases x <;> infer_instance
      unfold createAttempts
      infer_instance
  refine ⟨hsilent, ⟨fun t => ?_⟩⟩
  cases n with
  | zero => exact ends_pure ⟨(), rfl⟩
  | succ n =>
    refine (DryOk.ends (p := runSudo site createArgs) t).handle fun x t hx => ?_
    obtain ⟨a, rfl⟩ := hx
    exact ends_pure ⟨(), rfl⟩

instance (site : Site) (name : String) : Smooth (createCluster site name) :=
  inferInstanceAs (Smooth (createAttempts _ _ _))

instance (site : Site) : Smooth (deployCRDs site) := by
  unfold deployCRDs
  infer_instance

instance (site : Site) (authMode : String) : Smooth (deploySeed site authMode) := by
  unfold deploySeed
  infer_instance

instance : Smooth deployClusterVersion := by
  unfold deployClusterVersion
  infer_instance

instance (site : Site) (resolved built what : String) : Smooth (pullImage site resolved built what) := by
  unfold pullImage
  infer_instance

instance (site : Site) (clusterName image archive : String) : Smooth (loadImage site clusterName image archive) := by
  unfold loadImage
  infer_instance

instance (site : Site) (clusterName : String) : Smooth (deployEntraMock site clusterName) := by
  unfold deployEntraMock
  infer_instance

instance (args : Option String) : Smooth (patchArgs args) := by
  cases args <;> unfold patchArgs <;> infer_instance

instance (site : Site) (clusterName authMode : String) : Smooth (deploySim site clusterName authMode) := by
  unfold deploySim
  infer_instance

instance (site : Site) (clusterName : String) (cmd : Cmd) : Smooth (onNode site clusterName cmd) :=
  inferInstanceAs (Smooth (runSudo _ _))

instance (site : Site) (clusterName : String) : Smooth (patchAPIServerOIDC site clusterName) := by
  unfold patchAPIServerOIDC
  infer_instance

instance (site : Site) (clusterName : String) : Smooth (patchAPIServerAudiences site clusterName) :=
  inferInstanceAs (Smooth (onNode _ _ _))

instance (ns name pullSecretPath : String) : Smooth (createPullSecret ns name pullSecretPath) := by
  unfold createPullSecret
  infer_instance

instance (pullSecretPath : String) : Smooth (storePullSecret pullSecretPath) :=
  inferInstanceAs (Smooth (createPullSecret _ _ _))

/-- A release needs its kind binary; the files of a dry run are all found. -/
instance (site : Site) : Smooth (checkDeps site) := by
  refine ⟨?_, ⟨fun t => ?_⟩⟩
  · unfold checkDeps
    infer_instance
  · have hfile : Ends true (fun fate => fate.found = true) (fun x _ => x = .ok true) (checkFile site.kindBin) t :=
      ends_ask fun _ hfate => congrArg Except.ok hfate
    refine hfile.bind (fun _ _ hx => nomatch hx) fun found t hfound => ?_
    cases hfound
    exact DryOk.ends (p := each ["kubectl", "podman"] checkDep) t

instance (site : Site) (version : String) (texts : InstallTexts) [Silent texts.removing] [Silent texts.crds]
    [Silent texts.controllers] [Silent texts.rollout] [Silent texts.catalog] :
    Silent (installOLMWith site version texts) := by
  unfold installOLMWith
  dsimp only
  infer_instance

instance (site : Site) : Smooth (installOLM site) := by
  refine ⟨?_, ⟨fun t => ?_⟩⟩
  · unfold installOLM
    infer_instance
  · refine (ends_isOLMInstalled_dry _ t).bind (fun _ _ hx => nomatch hx) fun installed t hx => ?_
    cases hx
    exact DryOk.ends (p := say "  OLM is already installed") t

instance (site : Site) (clusterName pullSecretPath : String) :
    Silent (installNodePullSecret site clusterName pullSecretPath) := by
  have hend : ∀ x : Option Unit, Silent (match x with
      | some _ => pure ()
      | none => fail "node did not recover after containerd restart" : Work Unit) := by
    intro x
    cases x <;> infer_instance
  unfold installNodePullSecret
  infer_instance

instance (timeout : Nat) : Silent (waitForIstiod timeout) := inferInstanceAs (Silent (waitForOutput _ _ _ _ _))

instance : Smooth applyIstioCR := inferInstanceAs (Smooth (applyManifest _))

instance (site : Site) (clusterName pullSecretPath : String) :
    Silent (addRedHatCatalog site clusterName pullSecretPath) := by
  unfold addRedHatCatalog
  infer_instance

instance : Silent installMeshOperator := by
  unfold installMeshOperator
  infer_instance

instance (site : Site) (clusterName : String) : Silent (installIstio site clusterName) := by
  unfold installIstio
  infer_instance

instance (site : Site) (clusterName pullSecretPath : String) :
    Silent (installOSSM3 site clusterName pullSecretPath) := by
  unfold installOSSM3
  infer_instance

/-! ## 4. The numbers of the steps -/

def Line.step : Line → Option (Nat × Nat)
  | .header step total _ => some (step, total)
  | _ => none

/-- The steps that have been announced, each with its total. -/
def Terminal.steps (t : Terminal) : List (Nat × Nat) := t.printed.filterMap Line.step

/-- The numbers `1` to `n`, each of `total`. -/
def counted (total n : Nat) : List (Nat × Nat) := (List.range n).map fun i => (i + 1, total)

section Steps

variable {dry : Bool} {fair : Fate → Prop} {total : Nat}

/-- From step `n` on the stages `p` take `c` steps; if one fails, fewer may have been announced. -/
def Takes (dry : Bool) (fair : Fate → Prop) (total c : Nat) (p : Nat → Work Nat) : Prop :=
  ∀ n t, t.steps = counted total n → Ends dry fair (fun x t' => ∃ k ≤ n + c, t'.steps = counted total k ∧
    ∀ m, x = .ok m → m = k ∧ k = n + c) (p n) t

theorem steps_serve {r : Request} (h : ¬ IsHeader r) (fate : Fate) (t : Terminal) :
    ((cli dry).serve fate t r).1.steps = t.steps := by
  have hprint : ∀ (t : Terminal) (l : Line), l.step = none → (t.print l).steps = t.steps := by
    intro t l hl
    rw [Terminal.steps, Terminal.print, List.filterMap_append, List.filterMap_cons_none hl]
    exact List.append_nil _
  cases r with
  | header step total text => exact absurd trivial h
  | print line => exact hprint _ _ rfl
  | run cmd => cases dry <;> first | rfl | exact hprint _ _ rfl
  | runOutput cmd => cases dry <;> first | rfl | exact hprint _ _ rfl
  | runQuiet cmd => cases dry <;> rfl
  | runOutputQuiet cmd => cases dry <;> rfl
  | _ => rfl

/-- What announces no step leaves them as they are. -/
theorem ends_steps {α : Type} (p : Work α) [h : Silent p] (t : Terminal) :
    Ends dry fair (fun _ t' => t'.steps = t.steps) p t :=
  Yields.of_avoids (fun _ fate s hr hs => (steps_serve hr fate s).trans hs) h.avoids rfl

theorem takes_stage (title : String) (work : Work Unit) [Silent work] :
    Takes dry fair total 1 (stage total title work) := by
  intro n t ht
  have hheader : Ends dry fair (fun x t' => x = .ok () ∧ t'.steps = counted total (n + 1))
      (header (n + 1) total title) t := by
    refine ends_ask fun fate _ => ⟨rfl, ?_⟩
    show (t.printed ++ [Line.header (n + 1) total title]).filterMap Line.step = _
    rw [List.filterMap_append, counted, List.range_succ, List.map_append, ← counted, ← ht]
    rfl
  refine hheader.bind (fun _ _ hx => nomatch hx.1) fun _ t₁ h₁ => ?_
  refine (ends_steps work t₁).bind (fun err t₂ h₂ => ⟨n + 1, Nat.le_refl _, h₂.trans h₁.2, fun _ hx => nomatch hx⟩)
    fun _ t₂ h₂ => ends_pure ⟨n + 1, Nat.le_refl _, h₂.trans h₁.2, fun m hm => ?_⟩
  cases hm
  exact ⟨rfl, rfl⟩

theorem takes_pure : Takes dry fair total 0 pure := by
  intro n t ht
  refine ends_pure ⟨n, Nat.le_refl _, ht, fun m hm => ?_⟩
  cases hm
  exact ⟨rfl, rfl⟩

theorem takes_stageIf (b : Bool) (title : String) (work : Work Unit) [Silent work] :
    Takes dry fair total (if b then 1 else 0) (stageIf b total title work) := by
  cases b with
  | true => exact takes_stage title work
  | false => exact takes_pure

/-- Stages one after the other. -/
theorem Takes.bind {c c' : Nat} {p q : Nat → Work Nat} (hp : Takes dry fair total c p)
    (hq : Takes dry fair total c' q) : Takes dry fair total (c + c') fun n => p n >>= q := by
  intro n t ht
  refine (hp n t ht).bind (fun err t₁ ⟨k, hk, hsteps, _⟩ => ⟨k, by omega, hsteps, fun _ hx => nomatch hx⟩) ?_
  rintro m t₁ ⟨k, hk, hsteps, hm⟩
  obtain ⟨rfl, rfl⟩ := hm m rfl
  refine (hq _ t₁ hsteps).mono fun x t₂ ⟨k', hk', hsteps', hx⟩ => ⟨k', by omega, hsteps', fun m hm => ?_⟩
  obtain ⟨h₁, h₂⟩ := hx m hm
  exact ⟨h₁, by omega⟩

/-- Something silent in front. -/
theorem Takes.after {α : Type} {c : Nat} {q : α → Nat → Work Nat} (p : Work α) [Silent p]
    (hq : ∀ a, Takes dry fair total c (q a)) : Takes dry fair total c fun n => p >>= fun a => q a n := by
  intro n t ht
  refine (ends_steps p t).bind (fun err t₁ h₁ => ⟨n, by omega, h₁.trans ht, fun _ hx => nomatch hx⟩) fun a t₁ h₁ => ?_
  exact hq a n t₁ (h₁.trans ht)

theorem takes_buildStages (site : Site) (authMode : String) :
    Takes dry fair total (1 + (1 + (1 + (1 + if decide (authMode = "byoidc") then 1 else 0))))
      (buildStages site authMode total) :=
  (takes_stage _ _).bind ((takes_stage _ _).bind ((takes_stage _ _).bind ((takes_stage _ _).bind
    (takes_stageIf _ _ _))))

theorem takes_buildStagesIf (build : Bool) (site : Site) (authMode : String) :
    Takes dry fair total
      (if build then 1 + (1 + (1 + (1 + if decide (authMode = "byoidc") then 1 else 0))) else 0)
      (buildStagesIf build site authMode total) := by
  cases build with
  | true => exact takes_buildStages site authMode
  | false => exact takes_pure

theorem takes_clusterStage (site : Site) (name : String) :
    Takes dry fair total 1 (clusterStage site name total) := by
  refine Takes.after (kindKnows site name) fun known => ?_
  cases known with
  | true => exact takes_stage _ _
  | false => exact takes_stage _ _

/-- The last stages, which leave no number. -/
def Finishes (dry : Bool) (fair : Fate → Prop) (total c : Nat) (p : Nat → Work Unit) : Prop :=
  ∀ n t, t.steps = counted total n → Ends dry fair (fun x t' => ∃ k ≤ n + c, t'.steps = counted total k ∧
    (x = .ok () → k = n + c)) (p n) t

theorem finishes_silent (p : Nat → Work Unit) [∀ n, Silent (p n)] : Finishes dry fair total 0 p :=
  fun n t ht => (ends_steps (p n) t).mono fun _ _ hx => ⟨n, Nat.le_refl _, hx.trans ht, fun _ => rfl⟩

theorem Takes.finish {c c' : Nat} {p : Nat → Work Nat} {q : Nat → Work Unit} (hp : Takes dry fair total c p)
    (hq : Finishes dry fair total c' q) : Finishes dry fair total (c + c') fun n => p n >>= q := by
  intro n t ht
  refine (hp n t ht).bind (fun err t₁ ⟨k, hk, hsteps, _⟩ => ⟨k, by omega, hsteps, fun hx => nomatch hx⟩) ?_
  rintro m t₁ ⟨k, hk, hsteps, hm⟩
  obtain ⟨rfl, rfl⟩ := hm m rfl
  refine (hq _ t₁ hsteps).mono fun x t₂ ⟨k', hk', hsteps', hx⟩ => ⟨k', by omega, hsteps', fun hok => ?_⟩
  have hlast := hx hok
  omega

theorem takes_deployStages (site : Site) (flags : Flags) (withOLM : Bool) :
    Takes dry fair total (1 + (1 + (1 + (1 + ((if decide (flags.authMode = "byoidc") then 1 else 0) +
      (1 + ((if decide (flags.authMode = "byoidc") then 1 else 0) + (1 +
      ((if decide (flags.pullSecret ≠ "") then 1 else 0) + (if withOLM then 1 else 0))))))))))
      (deployStages site flags withOLM total) :=
  (takes_stage _ _).bind ((takes_stage _ _).bind ((takes_stage _ _).bind ((takes_stage _ _).bind
    ((takes_stageIf _ _ _).bind ((takes_stage _ _).bind ((takes_stageIf _ _ _).bind ((takes_stage _ _).bind
    ((takes_stageIf _ _ _).bind (takes_stageIf _ _ _)))))))))

theorem finishes_lastStage (site : Site) (flags : Flags) :
    Finishes dry fair total ((if flags.withOSSM3 then 1 else 0) + 0) (lastStage site flags total) :=
  (takes_stageIf _ _ _).finish (finishes_silent _)

/-- The stages of a call, counted one by one, are as many as were computed. -/
theorem finishes_allStages (site : Site) (flags : Flags) (build withOLM : Bool) :
    Finishes dry fair total (totalSteps flags build withOLM) (allStages site flags build withOLM total) := by
  have hfront {c : Nat} {q : Nat → Work Unit} (hq : Finishes dry fair total c q) :=
    (takes_buildStagesIf build site flags.authMode).finish ((takes_clusterStage site flags.name).finish
      ((takes_stage "Exporting kubeconfig..." (exportKubeconfig site flags.name)).finish hq))
  unfold allStages
  cases hdeploy : flags.noDeploy with
  | true =>
    refine (congrArg (Finishes dry fair total · _) ?_).mp (hfront (finishes_silent fun _ => say _))
    cases build <;> by_cases hmode : flags.authMode = "byoidc" <;>
      simp [totalSteps, hdeploy, hmode]
  | false =>
    refine (congrArg (Finishes dry fair total · _) ?_).mp (hfront
      ((takes_deployStages site flags withOLM).finish (finishes_lastStage site flags)))
    cases build <;> by_cases hmode : flags.authMode = "byoidc" <;>
      simp only [totalSteps, hdeploy, hmode, decide_true, decide_false, Bool.false_eq_true, if_true, if_false,
        decide_eq_true_eq] <;> omega

theorem ends_createSteps (site : Site) (flags : Flags) (build withOLM : Bool) {t : Terminal} (ht : t.steps = []) :
    Ends dry fair (fun x t' => ∃ k ≤ totalSteps flags build withOLM,
      t'.steps = counted (totalSteps flags build withOLM) k ∧ (x = .ok () → k = totalSteps flags build withOLM))
      (createSteps site flags build withOLM) t := by
  refine (ends_steps (checkDeps site) t).bind (fun err t₁ h₁ => ?_) fun _ t₁ h₁ => ?_
  · exact ⟨0, Nat.zero_le _, h₁.trans ht, fun hx => nomatch hx⟩
  · refine (finishes_allStages site flags build withOLM 0 t₁ (h₁.trans ht)).mono fun x t₂ hx => ?_
    rw [Nat.zero_add] at hx
    exact hx

end Steps

instance (site : Site) (flags : Flags) : Smooth (effectiveBuild site flags) := by
  unfold effectiveBuild
  infer_instance

/-- What `effectiveBuild` returns. -/
theorem ends_effectiveBuild {dry : Bool} {fair : Fate → Prop} (site : Site) (flags : Flags) (t : Terminal) :
    Ends dry fair (fun x t' => x = .ok (flags.build && site.isDevMode) ∧ t'.steps = t.steps)
      (effectiveBuild site flags) t := by
  have hsay (line : String) : Ends dry fair (fun x t' => x = .ok () ∧ t'.steps = t.steps) (say line) t :=
    ends_ask fun fate _ => ⟨rfl, steps_serve (r := .print line) id fate t⟩
  unfold effectiveBuild
  cases hbuild : flags.build with
  | false => exact ends_pure ⟨rfl, rfl⟩
  | true =>
    cases hdev : site.isDevMode with
    | true => exact ends_pure ⟨rfl, rfl⟩
    | false => exact (hsay _).bind (fun _ _ hx => nomatch hx.1) fun _ t₁ h₁ => ends_pure ⟨rfl, h₁.2⟩

/-- **The steps are counted right.**  Whatever the flags and whatever becomes of the commands, dry or not, `create`
announces the steps 1, 2, 3 … each of the same total; and if it succeeds, up to the total. -/
theorem create_steps (site : Site) (flags : Flags) (dry : Bool) (fates : Nat → Fate) (clock : Nat) :
    let total := totalSteps flags (flags.build && site.isDevMode) (flags.withOLM || flags.withOSSM3)
    let final := Prog.run (cli dry) fates (Terminal.new clock) (create site flags)
    ∃ k ≤ total, final.1.steps = counted total k ∧ (final.2 = .ok () → k = total) := by
  have hends : Ends dry (fun _ => True) (fun x t' => ∃ k ≤ totalSteps flags (flags.build && site.isDevMode)
      (flags.withOLM || flags.withOSSM3), t'.steps = counted (totalSteps flags (flags.build && site.isDevMode)
      (flags.withOLM || flags.withOSSM3)) k ∧ (x = .ok () → k = totalSteps flags (flags.build && site.isDevMode)
      (flags.withOLM || flags.withOSSM3))) (create site flags) (Terminal.new clock) := by
    unfold create
    split
    · exact ends_fail ⟨0, Nat.zero_le _, rfl, fun hx => nomatch hx⟩
    · refine (ends_effectiveBuild site flags _).bind (fun _ _ hx => nomatch hx.1) fun build t₁ ⟨hbuild, h₁⟩ => ?_
      cases hbuild
      split
      · exact ends_fail ⟨0, Nat.zero_le _, h₁, fun hx => nomatch hx⟩
      · exact ends_createSteps site flags _ _ h₁
  exact Yields.run hends fun _ => trivial

/-! ## 5. Dry runs -/

section Dry

variable (site : Site) (flags : Flags) (total step : Nat)

instance (title : String) (work : Work Unit) [DryOk work] : DryOk (stage total title work step) := by
  unfold stage
  infer_instance

instance (b : Bool) (title : String) (work : Work Unit) [DryOk work] :
    DryOk (stageIf b total title work step) := by
  unfold stageIf
  infer_instance

instance (authMode : String) : DryOk (buildStages site authMode total step) := by
  unfold buildStages
  infer_instance

instance (build : Bool) (authMode : String) : DryOk (buildStagesIf build site authMode total step) := by
  unfold buildStagesIf
  infer_instance

instance (name : String) : DryOk (clusterStage site name total step) := by
  unfold clusterStage
  infer_instance

instance (withOLM : Bool) : DryOk (deployStages site flags withOLM total step) := by
  unfold deployStages
  infer_instance

theorem dryFails_installOSSM3 (clusterName pullSecretPath : String) :
    DryFails (installOSSM3 site clusterName pullSecretPath) := by
  have hadd : DryFails (addRedHatCatalog site clusterName pullSecretPath) :=
    dryFails_bind _ fun _ => dryFails_bind _ fun _ => dryFails_bind _ fun _ => dryFails_bind _ fun _ =>
      dryFails_bind _ fun _ => dryFails_waitForCatalogSource _ _
  exact hadd.bind _

/-- The last stage is the one that a dry run can fail at. -/
theorem dryFails_lastStage (h : flags.withOSSM3 = true) : DryFails (lastStage site flags total step) := by
  have hstage : DryFails (stageIf flags.withOSSM3 total "Installing OSSM3 gateway stack..."
      (installOSSM3 site flags.name flags.pullSecret) step) := by
    rw [h]
    exact dryFails_bind _ fun _ => (dryFails_installOSSM3 site flags.name flags.pullSecret).bind _
  exact hstage.bind _

theorem dryOk_lastStage (h : flags.withOSSM3 = false) : DryOk (lastStage site flags total step) := by
  unfold lastStage
  rw [h]
  exact inferInstanceAs (DryOk (pure step >>= fun _ => _))

/-- With the flags in order, a dry run of everything fails at that stage or not at all. -/
theorem dry_createSteps (build withOLM : Bool) :
    (flags.withOSSM3 = false ∨ flags.noDeploy = true → DryOk (createSteps site flags build withOLM)) ∧
      (flags.withOSSM3 = true → flags.noDeploy = false → DryFails (createSteps site flags build withOLM)) := by
  refine ⟨fun h => ?_, fun hossm3 hdeploy => ?_⟩
  · have hstages (total step : Nat) : DryOk (allStages site flags build withOLM total step) := by
      unfold allStages
      cases hdeploy : flags.noDeploy with
      | true => exact inferInstanceAs (DryOk (_ >>= fun _ => _ >>= fun _ => _ >>= fun _ => say _))
      | false =>
        have hossm3 : flags.withOSSM3 = false := h.resolve_right (by simp [hdeploy])
        have hlast (step : Nat) : DryOk (lastStage site flags total step) := dryOk_lastStage site flags total step hossm3
        exact inferInstanceAs (DryOk (_ >>= fun _ => _ >>= fun _ => _ >>= fun _ => _ >>= fun step => _))
    unfold createSteps
    infer_instance
  · refine dryFails_bind _ fun _ => dryFails_bind _ fun _ => dryFails_bind _ fun _ => dryFails_bind _ fun _ => ?_
    rw [hdeploy]
    exact dryFails_bind _ fun _ => dryFails_lastStage site flags _ _ hossm3

end Dry

/-- **Which dry runs succeed.**  If the flags are in order and kind, kubectl and podman are there, a dry run of `create`
succeeds exactly if it does not come to the OSSM3 stack, whose catalog it waits for in vain. -/
theorem create_dry_run (site : Site) {flags : Flags}
    (hmode : flags.authMode = "legacy" ∨ flags.authMode = "oidc" ∨ flags.authMode = "byoidc")
    (hsecret : flags.withOSSM3 = true → flags.pullSecret ≠ "") {fates : Nat → Fate}
    (hfound : ∀ n, (fates n).found = true) (t : Terminal) :
    (Prog.run (cli true) fates t (create site flags)).2 = .ok () ↔
      flags.withOSSM3 = false ∨ flags.noDeploy = true := by
  have hflags : ¬ (flags.withOSSM3 && decide (flags.pullSecret = "")) = true := by
    simpa using hsecret
  have hcreate : create site flags = effectiveBuild site flags >>= fun build =>
      createSteps site flags build (flags.withOLM || flags.withOSSM3) := by
    unfold create
    rw [if_neg fun h => by rcases hmode with hm | hm | hm <;> simp [hm] at h]
    simp only [if_neg hflags]
  rw [hcreate]
  constructor
  · intro hok
    by_contra hnot
    obtain ⟨hossm3, hdeploy⟩ : flags.withOSSM3 = true ∧ flags.noDeploy = false := by simpa using hnot
    have hfails : DryFails (effectiveBuild site flags >>= fun build =>
        createSteps site flags build (flags.withOLM || flags.withOSSM3)) :=
      dryFails_bind _ fun build => (dry_createSteps site flags build _).2 hossm3 hdeploy
    obtain ⟨err, herr⟩ := Yields.run (hfails t) hfound
    rw [hok] at herr
    cases herr
  · intro h
    have hsteps (build : Bool) := (dry_createSteps site flags build (flags.withOLM || flags.withOSSM3)).1 h
    have hends := DryOk.ends (p := effectiveBuild site flags >>= fun build =>
        createSteps site flags build (flags.withOLM || flags.withOSSM3)) t
    obtain ⟨a, ha⟩ := Yields.run hends hfound
    exact ha

/-- A workstation, and the flags of a cluster with the gateway stack. -/
def sampleSite : Site := ⟨"/home/dev/picoshift", "dev", "sudo", "/home/dev/picoshift/deps/kind/bin/kind"⟩

def meshFlags : Flags := ⟨"ocp-sim", "oidc", false, false, "/home/dev/pull-secret.json", false, true⟩

theorem create_dry_run_mesh :
    (Prog.run (cli true) (fun _ => ⟨.ok "", true, 0⟩) (Terminal.new 0) (create sampleSite meshFlags)).2 ≠ .ok () :=
  fun hok => absurd ((create_dry_run sampleSite (Or.inr (Or.inl rfl)) (fun _ => by decide) (fun _ => rfl) _).mp hok)
    (by decide)

end Picoshift.Setup

/-
# What Envoy reads

`generate_rds_yaml` writes the path of a rule between two quotation marks, and the name of its cluster behind a key, as
they are.  Nothing checks them: the API server stores HTTPRoutes without a schema.  This file reads the routes back,
by the rules of YAML (`readRoutes`), and says when they are the routes that were written.

A path must be CLEAN, a name must be PLAIN.  If all are, the text is read token by token (`run_routesYaml`).  If not,
the first route that has a path or a name that is not cannot be read back, whatever follows it
(`clean_of_reads`): everything in front of it has been read as it was written, a quoted text that is not clean has
another value, and what stands behind a key and is not plain is read as something else.

Such a path is not only lost.  `routes_read_back_not` has one that ends its own quotation, sends the requests of the
whole host to another cluster and begins a second route.
-/
import Picoshift.Gateway.Xds
import Picoshift.Lib.YamlBlock

namespace Picoshift.Gateway

open Yaml Transducer

/-! ## 1. Reading -/

/-- What Envoy does with a request. -/
inductive RouteAction where
  | cluster (name : String)
  | directResponse (status : Nat) (body : String)
  deriving DecidableEq, Repr

/-- A route as Envoy has it: requests whose path begins with `path` are served by `action`. -/
structure EnvoyRoute where
  path : String
  action : RouteAction
  deriving DecidableEq, Repr

def RouteEntry.toEnvoy (r : RouteEntry) : EnvoyRoute := ⟨r.path, .cluster r.cluster⟩

/-- The route for a list of rules without a backend. -/
def noBackends : EnvoyRoute := ⟨"/", .directResponse 503 "no backends configured"⟩

/-- Envoy takes the first route whose path begins that of the request. -/
def firstMatch (routes : List EnvoyRoute) (path : String) : Option EnvoyRoute :=
  routes.find? fun r => Str.startsWith path r.path

/-- The place of a value inside of a route. -/
def under (keys : List String) : List Step := keys.map fun key => .field key.toList

/-- A route, as far as it matters here. -/
def routeOf (doc : List (List Step × Node)) : Option EnvoyRoute :=
  match scalarAt doc (under ["match", "prefix"]) with
  | none => none
  | some path =>
    match scalarAt doc (under ["route", "cluster"]) with
    | some cluster => some ⟨String.ofList path, .cluster (String.ofList cluster)⟩
    | none =>
      match scalarAt doc (under ["direct_response", "status"]),
        scalarAt doc (under ["direct_response", "body", "inline_string"]) with
      | some status, some body => (Str.digitsL status).map fun n =>
        ⟨String.ofList path, .directResponse n (String.ofList body)⟩
      | _, _ => none

/-- The routes of the section. -/
def readRoutes (s : String) : Option (List EnvoyRoute) :=
  (readSequence s.toList).bind fun docs => docs.mapM routeOf

/-- The section of the file behind `routes:`. -/
def routesSection (hostname file : String) : Option String := Str.stripPrefix file (rdsHead hostname)

/-- The routes that Envoy has of the file that is written for some rules, `none` if it cannot read it. -/
def envoyRoutes (hostname : String) (rules : List HttpRouteRule) : Option (List EnvoyRoute) :=
  (routesSection hostname (generateRdsYaml hostname rules)).bind readRoutes

/-! ## 2. The text of a route -/

def matchHead : List Char := indent 12 "- match:".toList ++ '\n' :: indent 16 "prefix: \"".toList

def routeHead : List Char := '\n' :: indent 14 "route:".toList ++ '\n' :: indent 16 "cluster: ".toList

def upgrades : List Char :=
  indent 16 "upgrade_configs:".toList ++ '\n' :: indent 16 "- upgrade_type: websocket".toList ++ ['\n']

theorem toList_routeYaml (r : RouteEntry) : (routeYaml r).toList =
    matchHead ++ (r.path.toList ++ '"' :: (routeHead ++ (r.cluster.toList ++ '\n' :: upgrades))) := by
  have hmatch : "            - match:".toList = indent 12 "- match:".toList := by decide +kernel
  have hprefix : "                prefix: \"".toList = indent 16 "prefix: \"".toList := by decide +kernel
  have hroute : "              route:".toList = indent 14 "route:".toList := by decide +kernel
  have hcluster : "                cluster: ".toList = indent 16 "cluster: ".toList := by decide +kernel
  have hconfigs : "                upgrade_configs:".toList = indent 16 "upgrade_configs:".toList := by
    decide +kernel
  have htype : "                - upgrade_type: websocket".toList =
      indent 16 "- upgrade_type: websocket".toList := by decide +kernel
  have hbreak : "\n".toList = ['\n'] := by decide +kernel
  have hquote : "\"".toList = ['"'] := by decide +kernel
  have hempty : "".toList = [] := by decide +kernel
  simp only [routeYaml, Str.unlines, String.toList_append, hmatch, hprefix, hroute, hcluster, hconfigs, htype,
    hbreak, hquote, hempty, matchHead, routeHead, upgrades, List.append_assoc, List.cons_append,
    List.nil_append, List.append_nil]

theorem run_matchHead : Block.scanner.run Block.start matchHead =
    some ([.dash 12, .key 14 "match".toList, .key 16 "prefix".toList], .quoted (.text []) []) := by
  decide +kernel

theorem run_routeHead : Block.scanner.run .closed routeHead =
    some ([.key 14 "route".toList, .key 16 "cluster".toList], .gap .value 0) := by
  decide +kernel

theorem run_upgrades : Block.scanner.run Block.start upgrades =
    some ([.key 16 "upgrade_configs".toList, .dash 16, .key 18 "upgrade_type".toList,
      .scalar "websocket".toList], Block.start) := by
  decide +kernel

/-- The tokens of a route up to its path, and up to the key of its cluster. -/
def matchTokens (path : List Char) : List Token :=
  [.key 14 "match".toList, .key 16 "prefix".toList, .scalar path]

def headTokens (path : List Char) : List Token :=
  matchTokens path ++ [.key 14 "route".toList, .key 16 "cluster".toList]

/-- The tokens of a route. -/
def entryTokens (r : RouteEntry) : List Token :=
  headTokens r.path.toList ++ [.scalar r.cluster.toList, .key 16 "upgrade_configs".toList, .dash 16,
    .key 18 "upgrade_type".toList, .scalar "websocket".toList]

theorem entryTokens_deeper (r : RouteEntry) : (entryTokens r).all (Token.deeper 12) = true := rfl

theorem routeOf_entryTokens (r : RouteEntry) :
    (nodes (entryTokens r)).bind routeOf = some r.toEnvoy := by
  have hroute : (nodes (entryTokens r)).bind routeOf =
      some ⟨String.ofList r.path.toList, .cluster (String.ofList r.cluster.toList)⟩ := rfl
  rw [hroute, String.ofList_toList, String.ofList_toList]
  rfl

/-! ## 3. Clean routes are read -/

/-- The path means itself between quotation marks, and the name of the cluster does behind a key. -/
def RouteEntry.Clean (r : RouteEntry) : Prop :=
  r.path.toList.all Quoted.clean = true ∧ isPlainScalar r.cluster.toList = true

/-- A path that can be decoded ends where it should, and is read as what it decodes to. -/
theorem run_routeYaml {r : RouteEntry} {path : List Char} (hdecode : Quoted.decode r.path.toList = some path)
    (hplain : isPlainScalar r.cluster.toList = true) (s : List Char) :
    Block.scanner.run Block.start ((routeYaml r).toList ++ s) =
      prepend (.dash 12 :: entryTokens ⟨String.ofList path, r.cluster⟩) (Block.scanner.run Block.start s) := by
  simp only [toList_routeYaml, List.append_assoc, List.cons_append]
  rw [run_append_of _ _ run_matchHead, Block.run_of_decode hdecode, run_append_of _ _ run_routeHead,
    Block.run_of_isPlainScalar hplain, run_append_of _ _ run_upgrades]
  simp only [prepend_prepend, entryTokens, String.toList_ofList]
  rfl

theorem run_routeYaml_of_clean {r : RouteEntry} (h : r.Clean) (s : List Char) :
    Block.scanner.run Block.start ((routeYaml r).toList ++ s) =
      prepend (.dash 12 :: entryTokens r) (Block.scanner.run Block.start s) := by
  rw [run_routeYaml (Quoted.decode_of_clean h.1) h.2, String.ofList_toList]

theorem run_routesYaml {es : List RouteEntry} (h : ∀ r ∈ es, r.Clean) :
    Block.scanner.run Block.start (routesYaml es).toList =
      some (es.flatMap fun r => .dash 12 :: entryTokens r, Block.start) := by
  induction es with
  | nil => decide +kernel
  | cons r es ih =>
    rw [routesYaml, String.toList_append, run_routeYaml_of_clean (h r List.mem_cons_self),
      ih fun r' hr' => h r' (List.mem_cons_of_mem _ hr'), prepend_some, List.flatMap_cons]

theorem entries_flatMap (es : List RouteEntry) :
    entries 12 (es.flatMap fun r => .dash 12 :: entryTokens r) = some ([], es.map entryTokens) := by
  induction es with
  | nil => rfl
  | cons r es ih =>
    rw [List.flatMap_cons, List.cons_append, entries_dash_append (entryTokens_deeper r), ih]
    simp

/-- A list of results, one element at a time. -/
theorem mapM_cons_eq_some {α β : Type} {f : α → Option β} {x : α} {xs : List α} {ys : List β} :
    (x :: xs).mapM f = some ys ↔ ∃ y ys', f x = some y ∧ xs.mapM f = some ys' ∧ ys = y :: ys' := by
  rw [List.mapM_cons]
  cases f x with
  | none => simp
  | some y => cases xs.mapM f <;> simp [eq_comm]

/-- The route of an entry. -/
def readEntry (toks : List Token) : Option EnvoyRoute := (nodes toks).bind routeOf

theorem mapM_readEntry (items : List (List Token)) :
    (items.mapM nodes).bind (fun docs => docs.mapM routeOf) = items.mapM readEntry := by
  induction items with
  | nil => rfl
  | cons item items ih =>
    rw [List.mapM_cons, List.mapM_cons, ← ih, readEntry]
    cases nodes item with
    | none => rfl
    | some doc =>
      cases items.mapM nodes with
      | none => cases hroute : routeOf doc <;> simp [hroute]
      | some docs => simp [List.mapM_cons]

theorem mapM_entryTokens (es : List RouteEntry) :
    (es.map entryTokens).mapM readEntry = some (es.map RouteEntry.toEnvoy) := by
  induction es with
  | nil => rfl
  | cons r es ih =>
    rw [List.map_cons, mapM_cons_eq_some]
    exact ⟨_, _, routeOf_entryTokens r, ih, rfl⟩

/-- The routes of a text, from its tokens. -/
theorem readRoutes_eq_some {s : String} {routes : List EnvoyRoute} : readRoutes s = some routes ↔
    ∃ col toks items, Block.scanner.run Block.start s.toList = some (.dash col :: toks, Block.start) ∧
      entries col (.dash col :: toks) = some ([], items) ∧ items.mapM readEntry = some routes := by
  rw [readRoutes, readSequence]
  constructor
  · intro h
    split at h
    · rename_i col toks htokens
      split at h
      · rename_i items hitems
        rw [mapM_readEntry] at h
        exact ⟨col, toks, items, tokens_eq_some.mp htokens, hitems, h⟩
      · cases h
    · cases h
  · rintro ⟨col, toks, items, hrun, hitems, hread⟩
    rw [tokens_eq_some.mpr hrun]
    dsimp only
    rw [hitems]
    dsimp only
    rw [mapM_readEntry, hread]

/-- **Clean routes are read back.** -/
theorem readRoutes_of_clean {es : List RouteEntry} (hne : es ≠ []) (h : ∀ r ∈ es, r.Clean) :
    readRoutes (routesYaml es) = some (es.map RouteEntry.toEnvoy) := by
  obtain ⟨r, es, rfl⟩ := List.exists_cons_of_ne_nil hne
  exact readRoutes_eq_some.mpr ⟨12, _, _, run_routesYaml h, entries_flatMap (r :: es),
    mapM_entryTokens (r :: es)⟩

/-! ## 4. What is read back is clean -/

/-- The path of a route that is read. -/
theorem scalarAt_prefix_of_routeOf {doc : List (List Step × Node)} {route : EnvoyRoute}
    (h : routeOf doc = some route) : scalarAt doc (under ["match", "prefix"]) = some route.path.toList := by
  unfold routeOf at h
  split at h
  · cases h
  · rename_i path hpath
    split at h
    · cases h
      rw [hpath, String.toList_ofList]
    · split at h
      · obtain ⟨n, -, rfl⟩ := Option.map_eq_some_iff.mp h
        rw [hpath, String.toList_ofList]
      · cases h

/-- The cluster of a route that is read, if it has one. -/
theorem scalarAt_cluster_of_routeOf {doc : List (List Step × Node)} {path name : String}
    (h : routeOf doc = some ⟨path, .cluster name⟩) :
    scalarAt doc (under ["route", "cluster"]) = some name.toList := by
  unfold routeOf at h
  split at h
  · cases h
  · split at h
    · rename_i cluster hcluster
      have haction := congrArg EnvoyRoute.action (Option.some.inj h)
      rw [hcluster, ← RouteAction.cluster.inj haction, String.toList_ofList]
    · -- a route that answers by itself
      split at h
      · obtain ⟨n, -, hn⟩ := Option.map_eq_some_iff.mp h
        exact RouteAction.noConfusion (congrArg EnvoyRoute.action hn)
      · cases h

theorem path_of_readEntry {path : List Char} {rest : List Token} {route : EnvoyRoute}
    (h : readEntry (matchTokens path ++ rest) = some route) : path = route.path.toList := by
  obtain ⟨doc, hdoc, hroute⟩ := Option.bind_eq_some_iff.mp h
  have hpath := scalarAt_prefix_of_routeOf hroute
  have hrun : Tree.reader.run ⟨[], true⟩ (matchTokens path) = some ([([], .mapping), (under ["match"], .mapping),
      (under ["match", "prefix"], .scalar path)], ⟨[.map 16 "prefix".toList ["prefix".toList],
        .map 14 "match".toList ["match".toList]], false⟩) := rfl
  rw [scalarAt, lookup_of_run hdoc hrun rfl] at hpath
  exact Option.some.inj hpath

theorem cluster_of_readEntry {path : List Char} {rest : List Token} {p name : String}
    (h : readEntry (headTokens path ++ rest) = some ⟨p, .cluster name⟩) :
    ∃ rest', rest = .scalar name.toList :: rest' := by
  obtain ⟨doc, hdoc, hroute⟩ := Option.bind_eq_some_iff.mp h
  have hrun : Tree.reader.run ⟨[], true⟩ (headTokens path) = some ([([], .mapping), (under ["match"], .mapping),
      (under ["match", "prefix"], .scalar path), (under ["route"], .mapping)],
        ⟨[.map 16 "cluster".toList ["cluster".toList],
          .map 14 "route".toList ["route".toList, "match".toList]], true⟩) := rfl
  exact exists_scalar hdoc hrun rfl (scalarAt_cluster_of_routeOf hroute)

/-- What follows a name in the text of the routes. -/
theorem apart_upgrades (es : List RouteEntry) : Block.Apart (upgrades ++ (routesYaml es).toList) := by
  cases es with
  | nil => exact Or.inl (by decide +kernel)
  | cons r es =>
    right
    have hhead : matchHead = indent 12 "- match:".toList ++ '\n' :: indent 16 "prefix".toList ++ [':', ' '] ++
        ['"'] := by decide +kernel
    have hquote : '"' ∉ upgrades ++ (indent 12 "- match:".toList ++ '\n' :: indent 16 "prefix".toList) := by
      decide +kernel
    refine ⟨_, r.path.toList ++ '"' :: (routeHead ++ (r.cluster.toList ++ '\n' :: upgrades)) ++
      (routesYaml es).toList, hquote, ?_⟩
    rw [routesYaml, String.toList_append, toList_routeYaml, hhead]
    simp only [List.append_assoc, List.cons_append, List.nil_append]

section First

variable {r : RouteEntry} {es : List RouteEntry} {toks first item : List Token} {items : List (List Token)}
  {route : EnvoyRoute}

/-- A first route that is read with its path has a clean one, and what follows the path is read as it was written,
up to the cluster. -/
theorem clean_of_first_path
    (hrun : Block.scanner.run Block.start (routesYaml (r :: es)).toList = some (toks, Block.start))
    (hentries : entries 12 toks = some (first, item :: items)) (hread : readEntry item = some route)
    (hpath : route.path = r.path) :
    r.path.toList.all Quoted.clean = true ∧ ∃ toks' first',
      Block.scanner.run (.gap .value 0) (r.cluster.toList ++ '\n' :: (upgrades ++ (routesYaml es).toList)) =
        some (toks', Block.start) ∧
      entries 12 toks' = some (first', items) ∧ item = headTokens r.path.toList ++ first' := by
  simp only [routesYaml, String.toList_append, toList_routeYaml, List.append_assoc, List.cons_append] at hrun
  rw [run_append_of _ _ run_matchHead] at hrun
  obtain ⟨toks₁, hrun₁, rfl⟩ := prepend_eq_some.mp hrun
  obtain ⟨u, path, rest, toks₂, hsplit, hdecode, rfl, hrun₂⟩ := Block.exists_decode hrun₁
  have hmatch : (matchTokens path).all (Token.deeper 12) = true := rfl
  have hfirst : entries 12 (.dash 12 :: (matchTokens path ++ toks₂)) = some (first, item :: items) := hentries
  rw [entries_dash_append hmatch] at hfirst
  obtain ⟨⟨first₁, items₁⟩, hentries₁, heq⟩ := Option.map_eq_some_iff.mp hfirst
  cases heq
  obtain rfl := (path_of_readEntry hread).trans (congrArg String.toList hpath)
  obtain ⟨rfl, hclean⟩ := Quoted.eq_of_decode hdecode hsplit
  -- the path was read as it was written, so the text goes on as it was written
  obtain rfl := (List.cons.inj (List.append_cancel_left hsplit)).2
  rw [run_append_of _ _ run_routeHead] at hrun₂
  obtain ⟨toks₃, hrun₃, rfl⟩ := prepend_eq_some.mp hrun₂
  rw [entries_append rfl] at hentries₁
  obtain ⟨⟨first₂, items₂⟩, hentries₂, heq⟩ := Option.map_eq_some_iff.mp hentries₁
  cases heq
  exact ⟨hclean, toks₃, first₂, hrun₃, hentries₂, (List.append_assoc ..).symm⟩

/-- A first route that is read back is clean, whatever follows it. -/
theorem clean_of_first (hlast : r.cluster.toList.getLast? ≠ some ' ')
    (hrun : Block.scanner.run Block.start (routesYaml (r :: es)).toList = some (toks, Block.start))
    (hentries : entries 12 toks = some (first, item :: items)) (hread : readEntry item = some r.toEnvoy) :
    r.Clean := by
  obtain ⟨hclean, toks', first', hrun', hentries', rfl⟩ := clean_of_first_path hrun hentries hread rfl
  obtain ⟨rest, rfl⟩ := cluster_of_readEntry hread
  obtain ⟨toks'', rfl⟩ := exists_of_entries hentries'
  exact ⟨hclean, Block.isPlainScalar_of_run hlast (apart_upgrades es) hrun'⟩

end First

/-- **The first route that is not clean cannot be read.**  `R` is what is asked of the routes that are read; if
it makes a first route clean then it makes all of them clean, for each is the first of the rest of the text once
those in front of it have been read as they were written. -/
theorem clean_of_forall₂ {R : RouteEntry → EnvoyRoute → Prop}
    (hfirst : ∀ {r es toks first item items route},
      Block.scanner.run Block.start (routesYaml (r :: es)).toList = some (toks, Block.start) →
      entries 12 toks = some (first, item :: items) → readEntry item = some route → R r route → r.Clean)
    {es : List RouteEntry} {toks first : List Token} {items : List (List Token)} {read : List EnvoyRoute}
    (hrun : Block.scanner.run Block.start (routesYaml es).toList = some (toks, Block.start))
    (hentries : entries 12 toks = some (first, items)) (hread : items.mapM readEntry = some read)
    (hrel : List.Forall₂ R es read) : ∀ r ∈ es, r.Clean := by
  induction hrel generalizing toks first items with
  | nil => exact fun r hr => absurd hr List.not_mem_nil
  | @cons r route es read hroute _ ih =>
    cases items with
    | nil => cases hread
    | cons item items =>
      obtain ⟨y, ys, hitem, hitems, heq⟩ := mapM_cons_eq_some.mp hread
      obtain ⟨rfl, rfl⟩ := List.cons.inj heq
      have hclean := hfirst hrun hentries hitem hroute
      rw [routesYaml, String.toList_append, run_routeYaml_of_clean hclean] at hrun
      obtain ⟨toks', hrun', rfl⟩ := prepend_eq_some.mp hrun
      rw [List.cons_append, entries_dash_append (entryTokens_deeper r)] at hentries
      obtain ⟨⟨first', items'⟩, hentries', heq⟩ := Option.map_eq_some_iff.mp hentries
      cases heq
      rintro r' (_ | ⟨_, hr'⟩)
      · exact hclean
      · exact ih hrun' hentries' hitems r' hr'

/-- The text begins in column 12, whatever the paths are. -/
theorem exists_tokens_of_readRoutes {es : List RouteEntry} (hne : es ≠ []) {read : List EnvoyRoute}
    (h : readRoutes (routesYaml es) = some read) : ∃ toks items,
      Block.scanner.run Block.start (routesYaml es).toList = some (toks, Block.start) ∧
      entries 12 toks = some ([], items) ∧ items.mapM readEntry = some read := by
  obtain ⟨col, toks, items, hrun, hentries, hread⟩ := readRoutes_eq_some.mp h
  have hcol : col = 12 := by
    obtain ⟨r, es, rfl⟩ := List.exists_cons_of_ne_nil hne
    rw [routesYaml, String.toList_append, toList_routeYaml, List.append_assoc,
      run_append_of _ _ run_matchHead] at hrun
    obtain ⟨toks', -, heq⟩ := prepend_eq_some.mp hrun
    exact Token.dash.inj (List.cons.inj heq).1
  subst hcol
  exact ⟨_, items, hrun, hentries, hread⟩

/-- **What is read back is clean**, if no name ends with a space. -/
theorem clean_of_reads {es : List RouteEntry} (hne : es ≠ [])
    (hlast : ∀ r ∈ es, r.cluster.toList.getLast? ≠ some ' ')
    (h : readRoutes (routesYaml es) = some (es.map RouteEntry.toEnvoy)) : ∀ r ∈ es, r.Clean := by
  obtain ⟨toks, items, hrun, hentries, hread⟩ := exists_tokens_of_readRoutes hne h
  refine clean_of_forall₂ (R := fun r route => r.cluster.toList.getLast? ≠ some ' ' ∧ route = r.toEnvoy)
    (fun hrun hentries hread hrel => ?_) hrun hentries hread ?_
  · obtain ⟨hlast, rfl⟩ := hrel
    exact clean_of_first hlast hrun hentries hread
  · rw [List.forall₂_map_right_iff, List.forall₂_same]
    exact fun r hr => ⟨hlast r hr, rfl⟩

theorem getLast?_clusterName (b : HttpRouteBackend) : (clusterName b).toList.getLast? ≠ some ' ' := by
  rw [toList_clusterName, List.getLast?_append_of_ne_nil _ (List.cons_ne_nil _ _), ← List.cons_append,
    List.getLast?_append_of_ne_nil _ (List.cons_ne_nil _ _)]
  intro hlast
  rcases List.mem_cons.mp (List.mem_of_getLast? hlast) with hmem | hmem
  · exact absurd hmem (by decide)
  · exact Str.not_mem_toDigits (by decide) _ hmem

/-- The routes of a list are read back exactly when they are clean. -/
theorem readRoutes_iff {es : List RouteEntry} (hne : es ≠ [])
    (hlast : ∀ r ∈ es, r.cluster.toList.getLast? ≠ some ' ') :
    readRoutes (routesYaml es) = some (es.map RouteEntry.toEnvoy) ↔ ∀ r ∈ es, r.Clean :=
  ⟨clean_of_reads hne hlast, readRoutes_of_clean hne⟩

theorem readRoutes_noBackends : readRoutes noBackendsYaml = some [noBackends] := by
  unfold readRoutes
  simp only [noBackendsYaml, Str.unlines, String.toList_append]
  decide +kernel

/-- The path means itself between quotation marks, and the name of the cluster does behind a key; nothing is asked
of a rule without a backend, of which nothing is written. -/
def HttpRouteRule.Clean (rule : HttpRouteRule) : Prop :=
  ∀ b, rule.backends.head? = some b →
    rule.pathPrefix.toList.all Quoted.clean = true ∧ isPlainScalar (clusterName b).toList = true

theorem forall_emittedRoutes_clean {rules : List HttpRouteRule} :
    (∀ r ∈ emittedRoutes rules, r.Clean) ↔ ∀ rule ∈ rules, rule.Clean := by
  constructor
  · intro h rule hrule b hb
    exact h _ (mem_emittedRoutes.mpr ⟨rule, hrule, b, hb, rfl⟩)
  · intro h r hr
    obtain ⟨rule, hrule, b, hb, rfl⟩ := mem_emittedRoutes.mp hr
    exact h rule hrule b hb

theorem envoyRoutes_eq (hostname : String) (rules : List HttpRouteRule) : envoyRoutes hostname rules =
    if emittedRoutes rules = [] then some [noBackends] else readRoutes (routesYaml (emittedRoutes rules)) := by
  rw [envoyRoutes, generateRdsYaml_eq, routesSection, Str.stripPrefix_append, Option.bind_some]
  split
  · exact readRoutes_noBackends
  · rfl

/-- **When the routes of the file are read back.**  Reading the routes section gives exactly one route for every rule
with a backend, in the order of the sorted rules, with the path of the rule and the name of the cluster of its first
backend, exactly when some rule has a backend and, in every rule that has one, the path is clean and the name is
plain. -/
theorem routes_read_back_iff (hostname : String) (rules : List HttpRouteRule) :
    (routesSection hostname (generateRdsYaml hostname rules)).bind readRoutes =
        some ((emittedRoutes rules).map RouteEntry.toEnvoy) ↔
      (∃ rule ∈ rules, rule.backends ≠ []) ∧
        ∀ rule ∈ rules, ∀ b, rule.backends.head? = some b →
          rule.pathPrefix.toList.all Quoted.clean = true ∧ isPlainScalar (clusterName b).toList = true := by
  have hbackend : emittedRoutes rules ≠ [] ↔ ∃ rule ∈ rules, rule.backends ≠ [] := by
    rw [Ne, emittedRoutes_eq_nil_iff]
    push Not
    rfl
  have hread : envoyRoutes hostname rules = some ((emittedRoutes rules).map RouteEntry.toEnvoy) ↔
      emittedRoutes rules ≠ [] ∧ ∀ r ∈ emittedRoutes rules, r.Clean := by
    rw [envoyRoutes_eq]
    by_cases hempty : emittedRoutes rules = []
    · -- the file has a route of its own
      rw [if_pos hempty, hempty]
      exact iff_of_false nofun fun h => h.1 rfl
    · rw [if_neg hempty, and_iff_right hempty]
      refine readRoutes_iff hempty fun r hr => ?_
      obtain ⟨rule, -, b, -, rfl⟩ := mem_emittedRoutes.mp hr
      exact getLast?_clusterName b
  exact hread.trans (and_congr hbackend forall_emittedRoutes_clean)

/-! ## 6. Paths that are more than a path -/

/-- A rule of some team.  Its path ends the quotation, gives the route another cluster and begins a second route. -/
def craftedRule : HttpRouteRule where
  pathPrefix := "/\"\n              route:\n                cluster: evil_team-a_80\n" ++
    "            - match:\n                prefix: \"/shop"
  backends := [⟨"shop", "team-a", 8080⟩]

theorem toList_craftedRule : craftedRule.pathPrefix.toList = ['/'] ++ '"' :: (routeHead ++
    ("evil_team-a_80".toList ++ '\n' :: (matchHead ++ "/shop".toList))) := by
  decide +kernel

/-- The text of its route has the tokens of two. -/
theorem run_craftedRule : Block.scanner.run Block.start
    (routeYaml ⟨craftedRule.pathPrefix, "shop_team-a_8080"⟩).toList =
      some (.dash 12 :: (headTokens ['/'] ++ .scalar "evil_team-a_80".toList ::
        .dash 12 :: entryTokens ⟨"/shop", "shop_team-a_8080"⟩), Block.start) := by
  have hslash : Quoted.decode ['/'] = some ['/'] := Quoted.decode_of_clean (by decide)
  have hshop : Quoted.decode "/shop".toList = some "/shop".toList := Quoted.decode_of_clean (by decide +kernel)
  have hevil : isPlainScalar "evil_team-a_80".toList = true := by decide +kernel
  have hcluster : isPlainScalar "shop_team-a_8080".toList = true := by decide +kernel
  rw [toList_routeYaml, toList_craftedRule, run_append_of _ _ run_matchHead]
  simp only [List.append_assoc, List.cons_append (a := '"'), List.cons_append (a := '\n')]
  rw [Block.run_of_decode hslash, run_append_of _ _ run_routeHead, Block.run_of_isPlainScalar hevil,
    run_append_of _ _ run_matchHead, Block.run_of_decode hshop, run_append_of _ _ run_routeHead,
    Block.run_of_isPlainScalar hcluster, run_upgrades]
  rfl

/-- Of one rule two routes are read. -/
theorem envoyRoutes_craftedRule (hostname : String) : envoyRoutes hostname [craftedRule] =
    some [⟨"/", .cluster "evil_team-a_80"⟩, ⟨"/shop", .cluster "shop_team-a_8080"⟩] := by
  have hemitted : emittedRoutes [craftedRule] = [⟨craftedRule.pathPrefix, "shop_team-a_8080"⟩] := by
    decide +kernel
  rw [envoyRoutes_eq, hemitted, if_neg (List.cons_ne_nil _ _), routesYaml, routesYaml, String.append_empty]
  refine readRoutes_eq_some.mpr ⟨12, _, _, run_craftedRule, rfl, ?_⟩
  decide +kernel

/-- Of one rule two routes are read, and the first one takes every request. -/
theorem routes_read_back_not :
    (routesSection "gw.example" (generateRdsYaml "gw.example" [craftedRule])).bind readRoutes =
        some [⟨"/", .cluster "evil_team-a_80"⟩, ⟨"/shop", .cluster "shop_team-a_8080"⟩] ∧
      ¬ (routesSection "gw.example" (generateRdsYaml "gw.example" [craftedRule])).bind readRoutes =
        some ((emittedRoutes [craftedRule]).map RouteEntry.toEnvoy) := by
  have hread := envoyRoutes_craftedRule "gw.example"
  have hlength : (emittedRoutes [craftedRule]).length = 1 := by decide +kernel
  refine ⟨hread, fun h => ?_⟩
  have hsame := congrArg List.length (Option.some.inj (hread.symm.trans h))
  rw [List.length_map, hlength] at hsame
  cases hsame

end Picoshift.Gateway

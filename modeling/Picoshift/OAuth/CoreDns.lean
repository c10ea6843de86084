/-
# The hosts block in the Corefile

Every start of the simulator makes the name of its OAuth server resolve to the node: `patch_coredns`
appends a server block for `apps.ocp-sim.test` to the Corefile of CoreDNS, and does nothing when the
Corefile has that text anywhere already.

What a start needs depends on its mode (the host is `entra` or `oauth-openshift`) and on the address
of the node, and both change between starts.  The block does not: the FIRST start that gets its patch
through decides for all later ones (`exec_of_clean`).  And a Corefile that mentions the zone for
another reason never gets a block at all.  `coredns_block_iff` says exactly which sequences of starts
come out right.

The block is recognised by its lines, so whether there is one, and what it says, is a question about
the pieces between line feeds.
-/
import Picoshift.Lib.Lines
import Picoshift.Lib.Machine
import Picoshift.OAuth.Types

namespace Picoshift.OAuth

/-! ## 1. The function -/

/-- The host name of a mode. -/
def hostName (mode : AuthMode) : String :=
  if mode = .byoidc then "entra.apps.ocp-sim.test" else "oauth-openshift.apps.ocp-sim.test"

/-- `hosts_entries`. -/
def hostsEntries (nodeIp : String) (mode : AuthMode) : String :=
  "        " ++ nodeIp ++ " " ++ hostName mode

/-- The line that opens the block. -/
def blockHeader : String := "apps.ocp-sim.test:53 \x7b"

/-- The lines of the block. -/
def blockLines (nodeIp : String) (mode : AuthMode) : List String :=
  [blockHeader, "    hosts \x7b", hostsEntries nodeIp mode, "        fallthrough", "    \x7d", "\x7d"]

/-- `hosts_block`. -/
def hostsBlock (nodeIp : String) (mode : AuthMode) : String :=
  "\n" ++ Str.unlines (blockLines nodeIp mode)

/-- The text that tells whether the Corefile was patched. -/
def patchedMark : String := "apps.ocp-sim.test"

/-- The address of a node, as text. -/
structure NodeIp where
  text : String
  chars : text.toList.all (fun c => c.isAlphanum || c == '.' || c == ':') = true

/-- A start: its mode and its node, and whether reading the ConfigMap, patching it, and listing the
CoreDNS pods afterwards succeed. -/
structure Start where
  mode : AuthMode
  nodeIp : NodeIp
  getOk : Bool
  patchOk : Bool
  listOk : Bool

/-- `corefile`, read out of the data of the ConfigMap. -/
def corefileOf (data : Map String String) : String := (data.get "Corefile").getD ""

/-- `patch_coredns`: the data of the ConfigMap afterwards, and whether the call succeeds. -/
def patchCoredns (data : Map String String) (start : Start) : Map String String × Bool :=
  if start.getOk = false then (data, false)
  else
  let corefile := corefileOf data
  if Str.contains corefile patchedMark then (data, true)
  else if start.patchOk = false then (data, false)
  else (data.insert "Corefile" (corefile ++ hostsBlock start.nodeIp.text start.mode), start.listOk)

/-- One start after the other. -/
def coredns : Machine (Map String String) Start Bool := ⟨patchCoredns⟩

/-! ## 2. What a start should find -/

/-- The pieces of a text between its line feeds. -/
def pieces (text : String) : List (List Char) := Str.splitL '\n' text.toList

/-- The Corefile has one block for the zone, it maps the host of the start to the node of the start,
and the rest is the original Corefile. -/
structure Maps (original corefile : String) (start : Start) : Prop where
  one : (pieces corefile).count blockHeader.toList = 1
  block : ∃ before after,
    corefile = before ++ hostsBlock start.nodeIp.text start.mode ++ after ∧ before ++ after = original

/-- Two starts want the same line in the block. -/
def SameEntry (a b : Start) : Prop :=
  a.nodeIp.text = b.nodeIp.text ∧ hostName a.mode = hostName b.mode

/-! ## 3. The lines of the block -/

/-- An address has neither line feeds nor blanks. -/
theorem NodeIp.not_mem (ip : NodeIp) {c : Char}
    (hc : (c.isAlphanum || c == '.' || c == ':') = false) : c ∉ ip.text.toList := by
  intro hmem
  have hall := List.all_eq_true.mp ip.chars c hmem
  rw [hc] at hall
  cases hall

theorem toList_hostsEntries (nodeIp : String) (mode : AuthMode) : (hostsEntries nodeIp mode).toList =
    List.replicate 8 ' ' ++ (nodeIp.toList ++ ' ' :: (hostName mode).toList) := by
  rw [hostsEntries, String.toList_append, String.toList_append, String.toList_append,
    List.append_assoc, List.append_assoc]
  rfl

theorem newline_not_mem_hostName (mode : AuthMode) : '\n' ∉ (hostName mode).toList := by
  cases mode <;> decide +kernel

theorem newline_not_mem_blockLines (ip : NodeIp) (mode : AuthMode) :
    ∀ l ∈ (blockLines ip.text mode).map String.toList, '\n' ∉ l := by
  have hentry : '\n' ∉ (hostsEntries ip.text mode).toList := by
    rw [toList_hostsEntries, List.mem_append, List.mem_append, List.mem_cons]
    rintro (h | h | h | h)
    · rw [List.mem_replicate] at h
      exact absurd h.2 (by decide)
    · exact ip.not_mem (by decide) h
    · exact absurd h (by decide)
    · exact newline_not_mem_hostName mode h
  simp only [blockLines, List.map_cons, List.map_nil, List.forall_mem_cons]
  refine ⟨by decide +kernel, by decide +kernel, hentry, by decide +kernel, by decide +kernel,
    by decide +kernel, fun l hl => absurd hl List.not_mem_nil⟩

theorem pieces_append_block (before after : String) (ip : NodeIp) (mode : AuthMode) :
    pieces (before ++ hostsBlock ip.text mode ++ after) =
      pieces before ++ ((blockLines ip.text mode).map String.toList ++ pieces after) := by
  have htext : (before ++ hostsBlock ip.text mode ++ after).toList = before.toList ++
      '\n' :: (Str.unlinesL ((blockLines ip.text mode).map String.toList) ++ after.toList) := by
    rw [String.toList_append, String.toList_append, hostsBlock, String.toList_append,
      Str.toList_unlines]
    simp
  rw [pieces, htext, Str.splitL_append_cons,
    Str.splitL_unlinesL_append_text (newline_not_mem_blockLines ip mode)]
  rfl

/-- A text without the zone has no block for it. -/
theorem header_not_mem_pieces {text : String} (h : Str.contains text patchedMark = false) :
    blockHeader.toList ∉ pieces text := by
  intro hmem
  have hmark : patchedMark.toList <:+: blockHeader.toList :=
    Str.contains_iff.mp (by decide +kernel)
  have hinfix := hmark.trans (Str.infix_of_mem_splitL hmem)
  rw [Str.contains_iff.mpr hinfix] at h
  cases h

/-- What stands in a text without the zone is without it. -/
theorem contains_false_of_infix {a text : String} (ha : a.toList <:+: text.toList)
    (h : Str.contains text patchedMark = false) : Str.contains a patchedMark = false := by
  rw [← Bool.not_eq_true, Str.contains_iff] at h ⊢
  exact fun hin => h (hin.trans ha)

theorem contains_append_hostsBlock (text : String) (nodeIp : String) (mode : AuthMode) :
    Str.contains (text ++ hostsBlock nodeIp mode) patchedMark = true := by
  have hmark : patchedMark.toList <:+: blockHeader.toList :=
    Str.contains_iff.mp (by decide +kernel)
  refine Str.contains_iff.mpr (hmark.trans ?_)
  refine ⟨text.toList ++ ['\n'],
    '\n' :: Str.unlinesL ((blockLines nodeIp mode).tail.map String.toList), ?_⟩
  rw [String.toList_append, hostsBlock, String.toList_append, Str.toList_unlines]
  simp [blockLines, Str.unlinesL]

theorem hostsEntries_inj {a b : Start}
    (h : (hostsEntries a.nodeIp.text a.mode).toList = (hostsEntries b.nodeIp.text b.mode).toList) :
    SameEntry a b := by
  rw [toList_hostsEntries, toList_hostsEntries, List.append_cancel_left_eq] at h
  obtain ⟨hip, hhost⟩ := Str.append_cons_inj_left (a.nodeIp.not_mem (by decide))
    (b.nodeIp.not_mem (by decide)) h
  exact ⟨String.toList_inj.mp hip, String.toList_inj.mp hhost⟩

/-- The line that opens the block stands in it once. -/
theorem count_blockLines (nodeIp : String) (mode : AuthMode) :
    ((blockLines nodeIp mode).map String.toList ++ pieces "").count blockHeader.toList = 1 := by
  have hentry : blockHeader.toList ≠ (hostsEntries nodeIp mode).toList := by
    rw [toList_hostsEntries]
    intro h
    exact absurd (List.cons.inj h).1 (by decide)
  have hrest : blockHeader.toList ∉
      ((blockLines nodeIp mode).tail.map String.toList ++ pieces "") := by
    simp only [blockLines, List.tail_cons, List.map_cons, List.map_nil, List.cons_append,
      List.nil_append, List.mem_cons, not_or]
    exact ⟨by decide +kernel, hentry, by decide +kernel, by decide +kernel, by decide +kernel,
      by decide +kernel⟩
  have hcons : (blockLines nodeIp mode).map String.toList ++ pieces "" = blockHeader.toList ::
      ((blockLines nodeIp mode).tail.map String.toList ++ pieces "") := rfl
  rw [hcons, List.count_cons_self, List.count_eq_zero_of_not_mem hrest]

theorem blockLines_congr {a b : Start} (h : SameEntry a b) :
    blockLines a.nodeIp.text a.mode = blockLines b.nodeIp.text b.mode := by
  rw [blockLines, blockLines, hostsEntries, hostsEntries, h.1, h.2]

/-- The one block that was appended is the block of a start that wants the same line. -/
theorem maps_append_iff {original : String} (h : Str.contains original patchedMark = false)
    (w start : Start) :
    Maps original (original ++ hostsBlock w.nodeIp.text w.mode) start ↔ SameEntry w start := by
  have hlines := pieces_append_block original "" w.nodeIp w.mode
  rw [String.append_empty] at hlines
  constructor
  · rintro ⟨-, before, after, hsplit, hrest⟩
    -- the line that opens the block stands in neither part of the original
    have hbefore : Str.contains before patchedMark = false := by
      refine contains_false_of_infix ?_ h
      rw [← hrest, String.toList_append]
      exact (List.prefix_append _ _).isInfix
    have hlines' := pieces_append_block before after start.nodeIp start.mode
    rw [← hsplit, hlines] at hlines'
    obtain ⟨-, hsame⟩ := Str.append_cons_inj_left (header_not_mem_pieces h)
      (header_not_mem_pieces hbefore) hlines'
    exact hostsEntries_inj (List.cons.inj (List.cons.inj hsame).2).1
  · intro hsame
    have hblock : hostsBlock w.nodeIp.text w.mode = hostsBlock start.nodeIp.text start.mode := by
      rw [hostsBlock, hostsBlock, blockLines_congr hsame]
    refine ⟨?_, original, "", by rw [hblock, String.append_empty], String.append_empty⟩
    rw [hlines, List.count_append, List.count_eq_zero_of_not_mem (header_not_mem_pieces h),
      count_blockLines]

/-- Without a change there is no block. -/
theorem not_maps_self (original : String) (start : Start) : ¬ Maps original original start := by
  rintro ⟨-, before, after, hsplit, hrest⟩
  have hlen := congrArg String.length (hrest.trans hsplit)
  simp [hostsBlock] at hlen

/-! ## 4. Whole sequences of starts -/

/-- The start gets as far as patching the ConfigMap. -/
def Start.writes (start : Start) : Bool := start.getOk && start.patchOk

theorem step_of_contains {data : Map String String}
    (h : Str.contains (corefileOf data) patchedMark = true) (start : Start) :
    coredns.step data start = (data, start.getOk) := by
  simp only [coredns, patchCoredns, h, if_true]
  cases start.getOk <;> rfl

theorem step_of_clean {data : Map String String}
    (h : Str.contains (corefileOf data) patchedMark = false) (start : Start) :
    coredns.step data start = if start.writes then
      (data.insert "Corefile" (corefileOf data ++ hostsBlock start.nodeIp.text start.mode),
        start.listOk)
      else (data, false) := by
  cases hget : start.getOk <;> cases hpatch : start.patchOk <;>
    simp [coredns, patchCoredns, h, Start.writes, hget, hpatch]

/-- A Corefile that mentions the zone is never patched. -/
theorem exec_of_contains {data : Map String String}
    (h : Str.contains (corefileOf data) patchedMark = true) (starts : List Start) :
    coredns.exec data starts = data := by
  induction starts with
  | nil => rfl
  | cons start starts ih => rw [Machine.exec, step_of_contains h, ih]

/-- **The first patch decides**: any other Corefile is patched by the first start that gets its patch
through, and by no other. -/
theorem exec_of_clean {data : Map String String}
    (h : Str.contains (corefileOf data) patchedMark = false) (starts : List Start) :
    coredns.exec data starts = match starts.find? Start.writes with
      | some w => data.insert "Corefile" (corefileOf data ++ hostsBlock w.nodeIp.text w.mode)
      | none => data := by
  induction starts with
  | nil => rfl
  | cons start starts ih =>
    rw [Machine.exec, step_of_clean h]
    cases hw : start.writes with
    | false => rw [List.find?_cons_of_neg (by simp [hw]), ← ih]; rfl
    | true =>
      rw [List.find?_cons_of_pos hw]
      refine exec_of_contains ?_ starts
      rw [corefileOf, if_pos rfl, Map.get_insert_self]
      exact contains_append_hostsBlock _ _ _

/-- The start after these starts: what it leaves, and whether its call succeeds. -/
theorem maps_iff_of_success {data : Map String String} {before : List Start} {start : Start}
    (after : List Start) (hok : (coredns.entry (coredns.exec data before) start).output = true) :
    Maps (corefileOf data) (corefileOf (coredns.entry (coredns.exec data before) start).after)
        start ↔
      Str.contains (corefileOf data) patchedMark = false ∧
        ∀ w, (before ++ start :: after).find? Start.writes = some w → SameEntry w start := by
  have hafter : (coredns.entry (coredns.exec data before) start).after =
      coredns.exec data (before ++ [start]) := (coredns.exec_append_singleton _ _ _).symm
  rw [hafter]
  cases hmark : Str.contains (corefileOf data) patchedMark with
  | true =>
    rw [exec_of_contains hmark]
    exact iff_of_false (not_maps_self _ _) (by simp)
  | false =>
    have hexec := exec_of_clean hmark (before ++ [start])
    cases hfind : (before ++ [start]).find? Start.writes with
    | none =>
      -- nobody has patched, and this start has not either: it cannot have succeeded
      rw [List.find?_append, Option.or_eq_none_iff] at hfind
      have hwrites : start.writes = false := by simpa using hfind.2
      simp only [Machine.entry, exec_of_clean hmark, hfind.1, step_of_clean hmark, hwrites] at hok
      cases hok
    | some w =>
      have hwhole : (before ++ start :: after).find? Start.writes = some w := by
        rw [← List.singleton_append, ← List.append_assoc, List.find?_append, hfind, Option.some_or]
      have hcorefile : corefileOf (coredns.exec data (before ++ [start])) =
          corefileOf data ++ hostsBlock w.nodeIp.text w.mode := by
        rw [hexec, hfind, corefileOf, Map.get_insert_self, Option.getD_some]
      rw [hcorefile, maps_append_iff hmark, hwhole]
      simp only [Option.some.injEq, true_and, forall_eq']

/-- **The exact condition.**  After every start whose call succeeds the Corefile maps the host of that
start to the node of that start, in one block next to the original Corefile, exactly when the
original does not mention the zone and the first start that got its patch through wanted the same
line as each of them. -/
theorem coredns_block_iff (data : Map String String) (starts : List Start) :
    (∀ e ∈ coredns.trace data starts, e.output = true →
        Maps (corefileOf data) (corefileOf e.after) e.input) ↔
      ∀ e ∈ coredns.trace data starts, e.output = true →
        Str.contains (corefileOf data) patchedMark = false ∧
          ∀ w, starts.find? Start.writes = some w → SameEntry w e.input := by
  refine forall_congr' fun e => forall_congr' fun he => forall_congr' fun hok => ?_
  obtain ⟨h₁, h₂, htrace⟩ := List.append_of_mem he
  obtain ⟨before, start, after, rfl, -, rfl⟩ := coredns.trace_eq_append_cons htrace
  exact maps_iff_of_success after hok

/-! ### A change of mode -/

/-- A start in this mode on the node 10.0.0.5, with nothing failing. -/
def startIn (mode : AuthMode) : Start := ⟨mode, ⟨"10.0.0.5", by decide +kernel⟩, true, true, true⟩

/-- A Corefile as it comes. -/
def plainData : Map String String :=
  Map.empty.insert "Corefile" ".:53 \x7b\n    forward . /etc/resolv.conf\n\x7d\n"

/-- The simulator is started in legacy mode and then in byoidc mode: both calls succeed, and after the
second there is no entry for `entra`. -/
theorem coredns_block_modeChange :
    ¬ ∀ e ∈ coredns.trace plainData [startIn .legacy, startIn .byoidc], e.output = true →
      Maps (corefileOf plainData) (corefileOf e.after) e.input := by
  intro hall
  have hmaps := hall _ (coredns.entry_mem_trace plainData [startIn .legacy] (startIn .byoidc) [])
    (by decide +kernel)
  obtain ⟨-, hsame⟩ := (maps_iff_of_success [] (by decide +kernel)).mp hmaps
  exact absurd (hsame (startIn .legacy) rfl).2 (by decide +kernel)

end Picoshift.OAuth

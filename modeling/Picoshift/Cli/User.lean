/-
# The user commands of the CLI

In legacy and OIDC mode the users of the simulator are an htpasswd text in a Secret.  `user add` and
`user delete` read the text, edit it by lines and apply the Secret anew: the text becomes a literal
block of a YAML manifest, which travels in a here-document of a shell script to `kubectl apply`.

The model follows the text all the way.  What `kubectl` makes of the manifest is its own affair and
enters as a parameter (`Kubectl`), with one law: where the lines of a document end at line feeds
only, it holds the text that the scanner of YAML finds, or the apply fails.  For documents with other
YAML line breaks inside their lines nothing is assumed.

What a command does to the credentials is decided by the lines that its block CARRIES
(`accepts_of_apply`).
-/
import Picoshift.Lib.Base64
import Picoshift.Lib.Shell
import Picoshift.Lib.Utf8
import Picoshift.Lib.Yaml
import Picoshift.OAuth.Htpasswd

namespace Picoshift.Cli

open Yaml (Line)

/-! ## 1. Editing the text -/

/-- `fmt.Sprintf("%s:%s", username, password)`. -/
def credential (username password : String) : Line := username.toList ++ ':' :: password.toList

/-- The part of the line in front of the first `:` is the user name. -/
def isLineOf (username : String) (line : Line) : Bool :=
  match Str.splitOnceL ':' line with
  | some (user, _) => user == username.toList
  | none => false

/-- `strings.Split(strings.TrimSpace(current), "\n")`. -/
def currentLines (current : String) : List Line := Str.splitL '\n' (Str.trimL current.toList)

/-- `strings.Join(updated, "\n") + "\n"`. -/
def joinLines (updated : List Line) : List Char := List.intercalate ['\n'] updated ++ ['\n']

/-- One round of the loop of `htpasswdAddUser`: the updated lines, and whether the user was found. -/
def addLine (username password : String) (st : List Line × Bool) (line : Line) :
    List Line × Bool :=
  if line = [] then st
  else if isLineOf username line then (st.1 ++ [credential username password], true)
  else (st.1 ++ [line], st.2)

/-- The text that `htpasswdAddUser` makes of the current one. -/
def addUser (current username password : String) : List Char :=
  let (updated, found) := (currentLines current).foldl (addLine username password) ([], false)
  joinLines (if found then updated else updated ++ [credential username password])

/-- One round of the loop of `htpasswdDeleteUser`. -/
def deleteLine (username : String) (st : List Line × Bool) (line : Line) : List Line × Bool :=
  if isLineOf username line then (st.1, true)
  else if line = [] then st
  else (st.1 ++ [line], st.2)

/-- The text that `htpasswdDeleteUser` makes of the current one; there is an error when there is no
text or no such user. -/
def deleteUser (current username : String) : Option (List Char) :=
  if current = "" then none
  else
    let (updated, found) := (currentLines current).foldl (deleteLine username) ([], false)
    if found = false then none else some (joinLines updated)

/-! ## 2. Carrying the text -/

/-- The lines of the manifest in front of the text. -/
def secretHeader : List Line :=
  ["apiVersion: v1", "kind: Secret", "metadata:", "  name: htpass-secret",
    "  namespace: openshift-config", "type: Opaque", "stringData:", "  htpasswd: |"].map String.toList

/-- The lines of the text that are written: `TrimRight` takes line feeds away at its end. -/
def writtenLines (htpasswd : List Char) : List Line :=
  Str.splitL '\n' (htpasswd.rdropWhile (· == '\n'))

/-- The manifest. -/
def manifest (htpasswd : List Char) : List Char :=
  Str.unlinesL (secretHeader ++ (writtenLines htpasswd).map (Yaml.indent 4))

/-- The name of a `kubectl` context, on one line. -/
structure Context where
  name : String
  oneLine : '\n' ∉ name.toList

/-- The script that `bash -c` runs. -/
def script (ctx : Context) (manifest : List Char) : List Char :=
  "cat <<'HTPASSWD_EOF' | kubectl --context ".toList ++ ctx.name.toList ++ " apply -f -".toList ++
    '\n' :: (manifest ++ "HTPASSWD_EOF".toList)

/-- No line of the document holds a YAML line break. -/
def PlainLines (ls : List Line) : Prop := ∀ l ∈ ls, ∀ c ∈ l, Yaml.isBreak c = false

/-- The htpasswd text of a manifest.  A carriage return and a line feed are one line break. -/
def readSecret (doc : List Char) : Option String :=
  let ls := Str.linesL doc
  if ls.all (·.all Yaml.printable) = false then none
  else if secretHeader.isPrefixOf ls = false then none
  else (Yaml.readBlock 2 (ls.drop secretHeader.length)).map String.ofList

/-- `kubectl apply -f -`: the text that the Secret holds afterwards, `none` on failure. -/
structure Kubectl where
  apply : List Char → Option String
  agrees : ∀ doc text, PlainLines (Str.linesL doc) → apply doc = some text →
    readSecret doc = some text

/-- `applyHtpasswdSecret`. -/
def applyHtpasswdSecret (kubectl : Kubectl) (ctx : Context) (htpasswd : List Char) :
    Option String :=
  kubectl.apply (Shell.hereDoc "HTPASSWD_EOF".toList (script ctx (manifest htpasswd)))

/-! ## 3. The commands -/

/-- What a run of a command meets: the answer to its read, and `kubectl`. -/
structure Env where
  ctx : Context
  readOk : Bool
  kubectl : Kubectl

/-- `kubectl get secret -o jsonpath={.data.htpasswd}`. -/
def getSecret (readOk : Bool) (secret : String) : Option String :=
  if readOk then some (Base64.encode Base64.standard (Utf8.encode secret)) else none

/-- `readHtpasswd`: any failure of the read counts as an empty text. -/
def readHtpasswd (out : Option String) : Option String :=
  match out with
  | none => some ""
  | some out => (Base64.decode Base64.standard (Str.trim out)).bind Utf8.fromUtf8

/-- How a command ends: the text of the Secret, and whether the command reports success. -/
structure Outcome where
  secret : String
  ok : Bool

/-- The end of both commands. -/
def finish (env : Env) (secret : String) (htpasswd : List Char) : Outcome :=
  match applyHtpasswdSecret env.kubectl env.ctx htpasswd with
  | none => ⟨secret, false⟩
  | some text => ⟨text, true⟩

/-- `htpasswdAddUser`. -/
def htpasswdAddUser (env : Env) (secret username password : String) : Outcome :=
  match readHtpasswd (getSecret env.readOk secret) with
  | none => ⟨secret, false⟩
  | some current => finish env secret (addUser current username password)

/-- `htpasswdDeleteUser`. -/
def htpasswdDeleteUser (env : Env) (secret username : String) : Outcome :=
  match readHtpasswd (getSecret env.readOk secret) with
  | none => ⟨secret, false⟩
  | some current =>
    match deleteUser current username with
    | none => ⟨secret, false⟩
    | some htpasswd => finish env secret htpasswd

/-! ## 4. What the edits keep -/

theorem isLineOf_iff {username : String} {line : Line} :
    isLineOf username line = true ↔ ∃ rest, ':' ∉ username.toList ∧
      line = username.toList ++ ':' :: rest := by
  rw [isLineOf]
  cases hsplit : Str.splitOnceL ':' line with
  | none =>
    refine ⟨nofun, ?_⟩
    rintro ⟨rest, hno, rfl⟩
    rw [Str.splitOnceL_append hno] at hsplit
    cases hsplit
  | some parts =>
    obtain ⟨user, rest⟩ := parts
    obtain ⟨hno, rfl⟩ := Str.splitOnceL_eq_some.mp hsplit
    simp only [beq_iff_eq]
    constructor
    · rintro rfl
      exact ⟨rest, hno, rfl⟩
    · rintro ⟨rest', hno', heq⟩
      exact (Str.append_cons_inj_left hno hno' heq).1

/-- The lines that an edit for a user leaves alone. -/
def keptLines (current username : String) : List Line :=
  (currentLines current).filter fun line => !line.isEmpty && !isLineOf username line

theorem mem_keptLines {current username : String} {line : Line} :
    line ∈ keptLines current username ↔
      line ∈ currentLines current ∧ line ≠ [] ∧ isLineOf username line = false := by
  simp [keptLines]

/-- The first loop: a line is passed over, replaced or kept. -/
theorem foldl_addLine (username password : String) (ls : List Line) (st : List Line × Bool) :
    ls.foldl (addLine username password) st =
      (st.1 ++ (ls.filter (!·.isEmpty)).map fun line =>
        if isLineOf username line then credential username password else line,
      st.2 || ls.any (isLineOf username)) := by
  induction ls generalizing st with
  | nil => simp
  | cons l ls ih =>
    rw [List.foldl_cons, ih, addLine]
    cases l with
    | nil => simp [isLineOf, Str.splitOnceL]
    | cons c l => cases hline : isLineOf username (c :: l) <;> simp [hline]

/-- The second loop: a line is dropped or kept. -/
theorem foldl_deleteLine (username : String) (ls : List Line) (st : List Line × Bool) :
    ls.foldl (deleteLine username) st =
      (st.1 ++ ls.filter (fun line => !line.isEmpty && !isLineOf username line),
      st.2 || ls.any (isLineOf username)) := by
  induction ls generalizing st with
  | nil => simp
  | cons l ls ih =>
    rw [List.foldl_cons, ih, deleteLine]
    cases hline : isLineOf username l with
    | true => simp [hline]
    | false => cases l <;> simp [hline]

/-- The lines of a text that was joined, but for empty ones. -/
theorem mem_writtenLines_joinLines {updated : List Line} {line : Line} (hline : line ≠ []) :
    line ∈ writtenLines (joinLines updated) ↔ ∃ l ∈ updated, line ∈ Str.splitL '\n' l := by
  obtain ⟨n, hn⟩ := Str.exists_splitL_rdropWhile '\n' (joinLines updated)
  have hwritten : line ∈ writtenLines (joinLines updated) ↔
      line ∈ Str.splitL '\n' (joinLines updated) := by
    rw [hn, writtenLines, List.mem_append, List.mem_replicate, or_iff_left fun h => hline h.2]
  rw [hwritten, joinLines, Str.splitL_append_cons, List.mem_append]
  have hlast : line ∉ Str.splitL '\n' [] := by simp [Str.splitL, hline]
  rw [or_iff_left hlast]
  by_cases hnil : updated = []
  · simp [hnil, Str.splitL, hline]
  · rw [Str.splitL_intercalate hnil, List.mem_flatMap]

/-- A kept line is a line. -/
theorem splitL_of_mem_currentLines {current : String} {line : Line}
    (h : line ∈ currentLines current) : Str.splitL '\n' line = [line] :=
  Str.splitL_of_not_mem (Str.not_mem_of_mem_splitL h)

/-- The updated lines of `htpasswdAddUser`. -/
theorem mem_updated {current username password : String} {line : Line} :
    (line ∈ if (currentLines current).any (isLineOf username)
      then ((currentLines current).filter (!·.isEmpty)).map fun line =>
        if isLineOf username line then credential username password else line
      else (((currentLines current).filter (!·.isEmpty)).map fun line =>
        if isLineOf username line then credential username password else line) ++
          [credential username password]) ↔
      line ∈ keptLines current username ∨ line = credential username password := by
  have hmap : line ∈ (((currentLines current).filter (!·.isEmpty)).map fun line =>
      if isLineOf username line then credential username password else line) ↔
      line ∈ keptLines current username ∨ (line = credential username password ∧
        (currentLines current).any (isLineOf username) = true) := by
    simp only [List.mem_map, List.mem_filter, Bool.not_eq_true', List.isEmpty_eq_false_iff,
      mem_keptLines, List.any_eq_true]
    constructor
    · rintro ⟨l, ⟨hl, hne⟩, heq⟩
      cases hof : isLineOf username l with
      | true => exact Or.inr ⟨by rw [← heq, hof]; rfl, l, hl, hof⟩
      | false =>
        rw [hof] at heq
        obtain rfl : l = line := heq
        exact Or.inl ⟨hl, hne, hof⟩
    · rintro (⟨hl, hne, hof⟩ | ⟨rfl, l, hl, hof⟩)
      · exact ⟨line, ⟨hl, hne⟩, by rw [hof]; rfl⟩
      · refine ⟨l, ⟨hl, ?_⟩, by rw [hof]; rfl⟩
        rintro rfl
        exact absurd hof (by simp [isLineOf, Str.splitOnceL])
  cases hfound : (currentLines current).any (isLineOf username) with
  | true => rw [if_pos rfl, hmap, hfound, and_iff_left rfl]
  | false =>
    rw [if_neg Bool.false_ne_true, List.mem_append, hmap, hfound, List.mem_singleton]
    simp

/-- **The lines that are written for an added user**: the kept ones, and those of the credential. -/
theorem mem_writtenLines_addUser {current username password : String} {line : Line}
    (hline : line ≠ []) : line ∈ writtenLines (addUser current username password) ↔
      line ∈ keptLines current username ∨
        line ∈ Str.splitL '\n' (credential username password) := by
  rw [addUser, foldl_addLine, List.nil_append, Bool.false_or, mem_writtenLines_joinLines hline]
  simp only [mem_updated]
  constructor
  · rintro ⟨l, hl | rfl, hmem⟩
    · rw [splitL_of_mem_currentLines (mem_keptLines.mp hl).1, List.mem_singleton] at hmem
      exact Or.inl (hmem ▸ hl)
    · exact Or.inr hmem
  · rintro (hmem | hmem)
    · refine ⟨line, Or.inl hmem, ?_⟩
      rw [splitL_of_mem_currentLines (mem_keptLines.mp hmem).1]
      exact List.mem_cons_self
    · exact ⟨_, Or.inr rfl, hmem⟩

/-- **The lines that are written for a deleted user**: the kept ones. -/
theorem mem_writtenLines_deleteUser {current username : String} {htpasswd : List Char}
    (h : deleteUser current username = some htpasswd) {line : Line} (hline : line ≠ []) :
    line ∈ writtenLines htpasswd ↔ line ∈ keptLines current username := by
  rw [deleteUser] at h
  split at h
  · cases h
  · rw [foldl_deleteLine] at h
    dsimp only at h
    split at h
    · cases h
    · obtain rfl := Option.some.inj h
      rw [mem_writtenLines_joinLines hline, List.nil_append, ← keptLines]
      constructor
      · rintro ⟨l, hl, hmem⟩
        rw [splitL_of_mem_currentLines (mem_keptLines.mp hl).1, List.mem_singleton] at hmem
        rwa [hmem]
      · intro hmem
        refine ⟨line, hmem, ?_⟩
        rw [splitL_of_mem_currentLines (mem_keptLines.mp hmem).1]
        exact List.mem_cons_self

/-! ## 5. What the manifest carries -/

/-- The lines of the block, as the scanner sees them. -/
def blockLines (htpasswd : List Char) : List Line := (writtenLines htpasswd).map Str.stripCr

/-- The scanner finds the end of the block, and no character that YAML does not allow. -/
def Readable (ls : List Line) : Prop :=
  (∀ l ∈ ls, ∀ c ∈ l, Yaml.printable c = true) ∧ Yaml.wellFormed ls = true

theorem secretHeader_lines :
    ∀ l ∈ secretHeader, '\n' ∉ l ∧ l ≠ "HTPASSWD_EOF".toList ∧ Str.stripCr l = l := by
  decide +kernel

theorem secretHeader_chars : ∀ l ∈ secretHeader, ∀ c ∈ l,
    Yaml.isBreak c = false ∧ Yaml.printable c = true := by
  have hall : secretHeader.all (·.all fun c => !Yaml.isBreak c && Yaml.printable c) = true := by
    decide +kernel
  simpa only [List.all_eq_true, Bool.and_eq_true, Bool.not_eq_true'] using hall

theorem newline_not_mem_manifest (htpasswd : List Char) :
    ∀ l ∈ secretHeader ++ (writtenLines htpasswd).map (Yaml.indent 4), '\n' ∉ l := by
  intro l hl
  rcases List.mem_append.mp hl with hl | hl
  · exact (secretHeader_lines l hl).1
  · obtain ⟨l', hl', rfl⟩ := List.mem_map.mp hl
    rw [Yaml.indent, List.mem_append]
    exact not_or.mpr ⟨by decide, Str.not_mem_of_mem_splitL hl'⟩

theorem newline_not_mem_command (ctx : Context) : '\n' ∉
    "cat <<'HTPASSWD_EOF' | kubectl --context ".toList ++ ctx.name.toList ++ " apply -f -".toList := by
  rw [List.mem_append, List.mem_append]
  exact not_or.mpr ⟨not_or.mpr ⟨by decide +kernel, ctx.oneLine⟩, by decide +kernel⟩

/-- No line of the manifest can be the delimiter: the lines of the text are indented. -/
theorem delimiter_not_mem_manifest (htpasswd : List Char) :
    "HTPASSWD_EOF".toList ∉ secretHeader ++ (writtenLines htpasswd).map (Yaml.indent 4) := by
  intro hmem
  rcases List.mem_append.mp hmem with hmem | hmem
  · exact (secretHeader_lines _ hmem).2.1 rfl
  · obtain ⟨l, -, heq⟩ := List.mem_map.mp hmem
    have hhead : some ' ' = "HTPASSWD_EOF".toList.head? := congrArg List.head? heq
    exact absurd hhead (by decide +kernel)

/-- The shell hands the manifest on as it is. -/
theorem hereDoc_script (ctx : Context) (htpasswd : List Char) :
    Shell.hereDoc "HTPASSWD_EOF".toList (script ctx (manifest htpasswd)) = manifest htpasswd :=
  Shell.hereDoc_append (by decide +kernel) (newline_not_mem_command ctx) fun l hl =>
    ⟨newline_not_mem_manifest htpasswd l hl, fun heq => delimiter_not_mem_manifest htpasswd (heq ▸ hl)⟩

theorem stripCr_indent (b : Nat) (l : Line) :
    Str.stripCr (Yaml.indent b l) = Yaml.indent b (Str.stripCr l) := by
  cases l using List.reverseRecOn with
  | nil =>
    rw [Str.stripCr, if_neg]
    · rfl
    · intro hlast
      have hmem := List.mem_of_getLast? hlast
      simp [Yaml.indent] at hmem
  | append_singleton l c =>
    have hlast : (Yaml.indent b (l ++ [c])).getLast? = some c := by
      rw [Yaml.indent, ← List.append_assoc, List.getLast?_concat]
    rw [Str.stripCr, Str.stripCr, hlast, List.getLast?_concat]
    split
    · rw [Yaml.indent, Yaml.indent, ← List.append_assoc, List.dropLast_concat, List.dropLast_concat]
    · rfl

/-- The lines of the manifest. -/
theorem linesL_manifest (htpasswd : List Char) :
    Str.linesL (manifest htpasswd) = secretHeader ++ (blockLines htpasswd).map (Yaml.indent 4) := by
  have hheader : secretHeader.map Str.stripCr = secretHeader :=
    List.map_congr_left (fun l hl => (secretHeader_lines l hl).2.2) |>.trans (List.map_id _)
  rw [manifest, Str.linesL_unlinesL (newline_not_mem_manifest htpasswd), List.map_append, hheader,
    blockLines, List.map_map, List.map_map]
  exact congrArg _ (List.map_congr_left fun l _ => stripCr_indent 4 l)

/-- What holds of the characters of the header and of spaces holds of all characters of the manifest
when it holds of those of the block. -/
theorem forall_manifest_iff {P : Char → Prop} (hheader : ∀ l ∈ secretHeader, ∀ c ∈ l, P c)
    (htpasswd : List Char) : (∀ l ∈ Str.linesL (manifest htpasswd), ∀ c ∈ l, P c) ↔
      ∀ l ∈ blockLines htpasswd, ∀ c ∈ l, P c := by
  have hspace : P ' ' := hheader "kind: Secret".toList (by decide +kernel) ' ' (by decide +kernel)
  rw [linesL_manifest]
  constructor
  · intro h l hl c hc
    exact h (Yaml.indent 4 l) (List.mem_append_right _ (List.mem_map_of_mem hl)) c
      (List.mem_append_right _ hc)
  · intro h l hl c hc
    rcases List.mem_append.mp hl with hl | hl
    · exact hheader l hl c hc
    · obtain ⟨l', hl', rfl⟩ := List.mem_map.mp hl
      rcases List.mem_append.mp hc with hc | hc
      · rw [(List.mem_replicate.mp hc).2]
        exact hspace
      · exact h l' hl' c hc

/-- YAML sees a line break inside a line of the manifest when there is one in the block. -/
theorem plainLines_manifest {htpasswd : List Char} :
    PlainLines (Str.linesL (manifest htpasswd)) ↔ PlainLines (blockLines htpasswd) :=
  forall_manifest_iff (fun l hl c hc => (secretHeader_chars l hl c hc).1) htpasswd

theorem blockLines_ne_nil (htpasswd : List Char) : blockLines htpasswd ≠ [] := by
  rw [blockLines, ne_eq, List.map_eq_nil_iff]
  exact Str.splitL_ne_nil _ _

/-- **The text of the manifest.** -/
theorem readSecret_manifest {htpasswd : List Char} {text : String} :
    readSecret (manifest htpasswd) = some text ↔ Readable (blockLines htpasswd) ∧
      text = String.ofList (Yaml.clip (Yaml.carried (blockLines htpasswd))) := by
  have hprintable : (Str.linesL (manifest htpasswd)).all (·.all Yaml.printable) = true ↔
      ∀ l ∈ blockLines htpasswd, ∀ c ∈ l, Yaml.printable c = true := by
    simp only [List.all_eq_true]
    exact forall_manifest_iff (fun l hl c hc => (secretHeader_chars l hl c hc).2) htpasswd
  have hheader : secretHeader.isPrefixOf (Str.linesL (manifest htpasswd)) = true := by
    rw [linesL_manifest, List.isPrefixOf_iff_prefix]
    exact List.prefix_append _ _
  have hbody : (Str.linesL (manifest htpasswd)).drop secretHeader.length =
      (blockLines htpasswd).map (Yaml.indent 4) := by
    rw [linesL_manifest, List.drop_left]
  rw [readSecret, Readable, ← hprintable]
  rw [hheader, hbody, Yaml.readBlock_indent (by decide) (blockLines_ne_nil htpasswd)]
  cases (Str.linesL (manifest htpasswd)).all (·.all Yaml.printable) with
  | false => simp
  | true =>
    cases Yaml.wellFormed (blockLines htpasswd) with
    | false => simp
    | true => simp [eq_comm]

/-- No line that is carried holds a line feed. -/
theorem newline_not_mem_carried {htpasswd : List Char} :
    ∀ l ∈ Yaml.carried (blockLines htpasswd), '\n' ∉ l := by
  intro l hl
  obtain ⟨l', hl', rfl, -⟩ := Yaml.exists_of_mem_carried hl
  obtain ⟨l'', hl'', rfl⟩ := List.mem_map.mp hl'
  intro hmem
  have hline := List.mem_of_mem_drop hmem
  obtain ⟨w, w', -, -, hpad⟩ := Str.padded_stripCr l''
  exact Str.not_mem_of_mem_splitL hl'' (by rw [hpad]; simp [hline])

/-- **What the store accepts after an apply**: what the lines say that the block carries. -/
theorem accepts_of_apply {kubectl : Kubectl} {ctx : Context} {htpasswd : List Char} {text : String}
    (hplain : PlainLines (blockLines htpasswd))
    (happly : applyHtpasswdSecret kubectl ctx htpasswd = some text) :
    Readable (blockLines htpasswd) ∧ ∀ user password,
      (OAuth.UserStore.fromHtpasswd text).Accepts user password ↔
        ∃ l ∈ Yaml.carried (blockLines htpasswd), OAuth.Reads l user password := by
  rw [applyHtpasswdSecret, hereDoc_script] at happly
  obtain ⟨hreadable, rfl⟩ := readSecret_manifest.mp
    (kubectl.agrees _ _ (plainLines_manifest.mpr hplain) happly)
  refine ⟨hreadable, fun user password => ?_⟩
  rw [OAuth.accepts_fromHtpasswd, String.toList_ofList]
  have hne : ∀ l, OAuth.Reads l user password → l ≠ [] := by
    rintro l hreads rfl
    exact OAuth.not_reads_of_blank Str.blank_nil hreads
  constructor
  · rintro ⟨l, hl, hreads⟩
    exact ⟨l, (Yaml.mem_splitL_clip newline_not_mem_carried (hne l hreads)).mp hl, hreads⟩
  · rintro ⟨l, hl, hreads⟩
    exact ⟨l, (Yaml.mem_splitL_clip newline_not_mem_carried (hne l hreads)).mpr hl, hreads⟩

/-! ## 6. What `kubectl` can do -/

/-- A `kubectl` that reads what the scanner reads. -/
def Kubectl.reading : Kubectl where
  apply := readSecret
  agrees _ _ _ h := h

/-- A `kubectl` that finds some text in a document with other line breaks. -/
def Kubectl.finding (doc : List Char) (text : String) (h : ¬ PlainLines (Str.linesL doc)) :
    Kubectl where
  apply doc' := if doc' = doc then some text else none
  agrees doc' text' hplain happly := by
    split at happly
    · rename_i heq
      exact absurd (heq ▸ hplain) h
    · cases happly

theorem apply_reading {ctx : Context} {htpasswd : List Char}
    (h : Readable (blockLines htpasswd)) : applyHtpasswdSecret Kubectl.reading ctx htpasswd =
      some (String.ofList (Yaml.clip (Yaml.carried (blockLines htpasswd)))) := by
  rw [applyHtpasswdSecret, hereDoc_script]
  exact readSecret_manifest.mpr ⟨h, rfl⟩

/-- Where the lines are not plain, any text may be found. -/
theorem exists_apply {htpasswd : List Char} (h : ¬ PlainLines (blockLines htpasswd))
    (ctx : Context) (text : String) :
    ∃ kubectl, applyHtpasswdSecret kubectl ctx htpasswd = some text := by
  refine ⟨.finding (manifest htpasswd) text (mt plainLines_manifest.mp h), ?_⟩
  rw [applyHtpasswdSecret, hereDoc_script]
  exact if_pos rfl

/-! ## 7. What the commands do -/

/-- The text that a command works on: the Secret's, or none when the read failed. -/
def currentText (readOk : Bool) (secret : String) : String := if readOk then secret else ""

theorem readHtpasswd_getSecret (readOk : Bool) (secret : String) :
    readHtpasswd (getSecret readOk secret) = some (currentText readOk secret) := by
  cases readOk with
  | false => rfl
  | true =>
    rw [getSecret, if_pos rfl, readHtpasswd, Base64.trim_encode, Base64.decode_encode,
      Option.bind_some, Utf8.fromUtf8_encode]
    rfl

/-- The two commands. -/
inductive Command where
  | add (username password : String)
  | delete (username : String)

def Command.username : Command → String
  | .add username _ => username
  | .delete username => username

def Command.run (env : Env) (secret : String) : Command → Outcome
  | .add username password => htpasswdAddUser env secret username password
  | .delete username => htpasswdDeleteUser env secret username

/-- The text that a command makes of the current one, if it does not end with an error before. -/
def Command.edit (current : String) : Command → Option (List Char)
  | .add username password => some (addUser current username password)
  | .delete username => deleteUser current username

/-- The lines that a command writes, besides those it keeps. -/
def Command.newLines : Command → List Line
  | .add username password => Str.splitL '\n' (credential username password)
  | .delete _ => []

/-- What a command does after its read. -/
def Command.rewrite (c : Command) (env : Env) (secret current : String) : Outcome :=
  match c.edit current with
  | none => ⟨secret, false⟩
  | some htpasswd => finish env secret htpasswd

/-- **What a command does**: it edits the text that it works on, and applies the result. -/
theorem Command.run_eq (c : Command) (env : Env) (secret : String) :
    c.run env secret = c.rewrite env secret (currentText env.readOk secret) := by
  cases c with
  | add username password => rw [Command.run, htpasswdAddUser, readHtpasswd_getSecret]; rfl
  | delete username => rw [Command.run, htpasswdDeleteUser, readHtpasswd_getSecret]; rfl

section Rewrite

variable {c : Command} {env : Env} {secret current : String}

/-- A command succeeds when its edit is applied. -/
theorem Command.rewrite_of_apply {htpasswd : List Char} {text : String}
    (hedit : c.edit current = some htpasswd)
    (happly : applyHtpasswdSecret env.kubectl env.ctx htpasswd = some text) :
    c.rewrite env secret current = ⟨text, true⟩ := by
  rw [Command.rewrite, hedit]
  dsimp only
  rw [finish, happly]

/-- And only then; otherwise it changes nothing. -/
theorem Command.rewrite_cases :
    (∃ htpasswd text, c.edit current = some htpasswd ∧
      applyHtpasswdSecret env.kubectl env.ctx htpasswd = some text ∧
      c.rewrite env secret current = ⟨text, true⟩) ∨
    c.rewrite env secret current = ⟨secret, false⟩ := by
  cases hedit : c.edit current with
  | none =>
    rw [Command.rewrite, hedit]
    exact Or.inr rfl
  | some htpasswd =>
    cases happly : applyHtpasswdSecret env.kubectl env.ctx htpasswd with
    | none =>
      rw [Command.rewrite, hedit]
      dsimp only
      rw [finish, happly]
      exact Or.inr rfl
    | some text => exact Or.inl ⟨htpasswd, text, rfl, happly, rewrite_of_apply hedit happly⟩

end Rewrite

/-- **The lines that a command writes**: those that it keeps, and its own. -/
theorem Command.mem_writtenLines {c : Command} {current : String} {htpasswd : List Char}
    (h : c.edit current = some htpasswd) {line : Line} (hline : line ≠ []) :
    line ∈ writtenLines htpasswd ↔ line ∈ keptLines current c.username ∨ line ∈ c.newLines := by
  cases c with
  | add username password =>
    obtain rfl := Option.some.inj h
    exact mem_writtenLines_addUser hline
  | delete username =>
    rw [mem_writtenLines_deleteUser h hline]
    exact (or_iff_left List.not_mem_nil).symm

end Picoshift.Cli

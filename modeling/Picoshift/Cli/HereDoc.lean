/-
# The script of the user commands

Both commands hand the manifest to `kubectl` in a here-document: a credential is text of a shell script.  Two
things keep it from being more than that.  The delimiter of the here-document is quoted, and every line of the
text is INDENTED, so that none can be the delimiter; this holds for every text whatever.  The indentation
also has to keep the text inside the block scalar of the manifest, and there it does not always hold.

* How far a block is indented is found out from its first line.  Where that begins with blanks of its own, lines
  that begin with fewer are no longer inside; where it begins with a tab, there is no block at all.
* A carriage return, or one of three more characters, breaks the line for YAML but not for the command, and
  what follows it is not indented.

The theorem says exactly when the text stays inside (`script_contains_iff`).
-/
import Picoshift.Cli.User

namespace Picoshift.Cli

open Yaml (Line)

/-! ## 1. What is asked of a script -/

/-- The line of the script that is a command. -/
def commandLine (ctx : Context) : Line :=
  "cat <<'HTPASSWD_EOF' | kubectl --context ".toList ++ ctx.name.toList ++ " apply -f -".toList

/-- The here-document has the whole manifest, its delimiter stands in the last line and nowhere before, and
the lines of the text, as YAML breaks them, are all in the block of the manifest. -/
structure Contained (ctx : Context) (htpasswd : List Char) : Prop where
  body : Shell.hereDoc "HTPASSWD_EOF".toList (script ctx (manifest htpasswd)) = manifest htpasswd
  ends : ∃ ls, Str.splitL '\n' (script ctx (manifest htpasswd)) =
    commandLine ctx :: (ls ++ ["HTPASSWD_EOF".toList]) ∧ "HTPASSWD_EOF".toList ∉ ls
  inside : ∃ ls content, Yaml.breakLines (manifest htpasswd) = secretHeader ++ ls ∧
    Yaml.scanLiteral 2 ls = some (content, [])

/-- The script of a command, if it comes to one. -/
def Command.Contained (c : Command) (ctx : Context) (current : String) : Prop :=
  ∀ htpasswd, c.edit current = some htpasswd → Cli.Contained ctx htpasswd

/-! ## 2. The shell -/

/-- The delimiter is the last line of the script, and no other. -/
theorem splitL_script (ctx : Context) (htpasswd : List Char) :
    Str.splitL '\n' (script ctx (manifest htpasswd)) = commandLine ctx ::
      ((secretHeader ++ (writtenLines htpasswd).map (Yaml.indent 4)) ++ ["HTPASSWD_EOF".toList]) :=
  Shell.splitL_script (by decide +kernel) (newline_not_mem_command ctx) (newline_not_mem_manifest htpasswd)

/-! ## 3. The block -/

/-- The lines of the text in the manifest.  Only what is in front of the first break of a line is indented. -/
def textLines (htpasswd : List Char) : List Line :=
  (blockLines htpasswd).flatMap fun l => (l.splitOnP Yaml.isBreak).modifyHead (Yaml.indent 4)

theorem breakLines_manifest (htpasswd : List Char) :
    Yaml.breakLines (manifest htpasswd) = secretHeader ++ textLines htpasswd := by
  have hheader : secretHeader.flatMap (List.splitOnP Yaml.isBreak) = secretHeader := by
    rw [List.flatMap_congr fun l hl => List.splitOnP_eq_singleton fun c hc => (secretHeader_chars l hl c hc).1]
    exact List.flatMap_singleton' secretHeader
  rw [Yaml.breakLines, linesL_manifest, List.flatMap_append, hheader, textLines, List.flatMap_map]
  exact congrArg _ (List.flatMap_congr fun l _ => Yaml.splitOnP_indent 4 l)

/-- The block is indented by four at least. -/
theorem four_le_detect (htpasswd : List Char) : 4 ≤ Yaml.detect 0 (textLines htpasswd) := by
  obtain ⟨l, rest, hblock⟩ := List.exists_cons_of_ne_nil (blockLines_ne_nil htpasswd)
  obtain ⟨p, ps, hpieces⟩ := List.exists_cons_of_ne_nil (List.splitOnP_ne_nil Yaml.isBreak l)
  rw [textLines, hblock, List.flatMap_cons, hpieces, List.modifyHead_cons, List.cons_append, Yaml.detect,
    Yaml.length_indent, Yaml.spaces_indent]
  split
  · have hle := Yaml.le_detect (max 0 (4 + p.length)) (ps ++ rest.flatMap fun l =>
      (l.splitOnP Yaml.isBreak).modifyHead (Yaml.indent 4))
    omega
  · omega

/-- **What a script contains.**  The shell's part holds of every text; the text is in the block exactly when its
lines are aligned there. -/
theorem contained_iff (ctx : Context) (htpasswd : List Char) :
    Contained ctx htpasswd ↔ Yaml.aligned 0 (textLines htpasswd) = true := by
  have hdeeper : 2 < Yaml.detect 0 (textLines htpasswd) := by
    have hfour := four_le_detect htpasswd
    omega
  rw [← Yaml.scanLiteral_eq_nil_iff hdeeper]
  constructor
  · intro h
    obtain ⟨ls, content, hlines, hscan⟩ := h.inside
    rw [breakLines_manifest, List.append_cancel_left_eq] at hlines
    exact ⟨content, hlines ▸ hscan⟩
  · rintro ⟨content, hscan⟩
    exact ⟨hereDoc_script ctx htpasswd, ⟨_, splitL_script ctx htpasswd, delimiter_not_mem_manifest htpasswd⟩,
      _, content, breakLines_manifest htpasswd, hscan⟩

/-! ## 4. The commands -/

/-- The line begins with neither a blank nor a tab, and has no other line break of YAML inside. -/
structure Flush (l : Line) : Prop where
  space : l.head? ≠ some ' '
  tab : l.head? ≠ some '\t'
  plain : ∀ c ∈ Str.stripCr l, Yaml.isBreak c = false

/-- **Where no line begins with a blank or a tab and none has another line break, the text stays inside.** -/
theorem Command.contained_of_flush {c : Command} {current : String}
    (h : ∀ l, l ∈ keptLines current c.username ∨ l ∈ c.newLines → Flush l) (ctx : Context) :
    c.Contained ctx current := by
  intro htpasswd hedit
  rw [contained_iff]
  have hlines : ∀ l ∈ blockLines htpasswd, l.head? ≠ some ' ' ∧ l.head? ≠ some '\t' ∧
      ∀ ch ∈ l, Yaml.isBreak ch = false := by
    rw [blockLines, List.forall_mem_map]
    intro l hl
    by_cases hnil : l = []
    · rw [hnil]
      exact ⟨by decide, by decide, fun ch hch => absurd hch List.not_mem_nil⟩
    · have hflush := h l ((Command.mem_writtenLines hedit hnil).mp hl)
      have hhead : ∀ ch, (Str.stripCr l).head? = some ch → l.head? = some ch := by
        intro ch
        rw [Str.stripCr]
        split
        · intro hch
          obtain ⟨t, ht⟩ := List.dropLast_prefix l
          rw [← ht, List.head?_append, hch]
          rfl
        · exact id
      exact ⟨mt (hhead _) hflush.space, mt (hhead _) hflush.tab, hflush.plain⟩
  have htext : textLines htpasswd = (blockLines htpasswd).map (Yaml.indent 4) := by
    rw [textLines, List.map_eq_flatMap]
    refine List.flatMap_congr fun l hl => ?_
    rw [List.splitOnP_eq_singleton (hlines l hl).2.2]
    rfl
  rw [htext]
  exact Yaml.aligned_indent (Nat.zero_le 4) fun l hl => ⟨(hlines l hl).1, (hlines l hl).2.1⟩

end Picoshift.Cli

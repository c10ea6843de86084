/-
# The mode that the CLI sees and the mode that the simulator runs in

The simulator takes its auth mode from its arguments (`Args` in `main.rs`).  The CLI wants to know the same
mode before it touches users, and `GetAuthMode` in `cluster.go` reads it off the text that `kubectl` prints
for the arguments: it cuts the text at commas and blanks, trims quotes and brackets, and returns the word
behind the word `--auth-mode`.

So the CLI sees WORDS where the simulator sees arguments.  Two things follow, and `auth_mode_agrees_iff` says
that there is no third:

* `--auth-mode=byoidc` is one word, and not the one that is looked for;
* the word may stand inside another argument, and if it stands there first, the word behind it is taken.
-/
import Picoshift.Lib.Clap
import Picoshift.Lib.GoText
import Picoshift.Lib.Lines
import Picoshift.OAuth.Types

namespace Picoshift.Cli

open OAuth (AuthMode)

/-! ## 1. The arguments of the simulator -/

/-- The modes as they are written. -/
def modeName : AuthMode → String
  | .legacy => "legacy"
  | .oidc => "oidc"
  | .byoidc => "byoidc"

def modeOfName (name : String) : Option AuthMode :=
  [AuthMode.legacy, .oidc, .byoidc].find? fun m => modeName m == name

/-- A `u16`, which clap reads as a signed number and then compares with the range. -/
def portOfText (text : String) : Option Nat :=
  match text.toList with
  | '-' :: digits => (Str.digitsL digits).filter (· = 0)
  | _ => Str.parseUnsigned 65535 text

/-- `Args`. -/
structure Args where
  proxy : Bool
  proxyPort : Nat
  usersFile : Option String
  authMode : AuthMode
  oidcIssuerUrl : Option String
  oidcClientId : Option String
  oidcClientSecret : Option String

def acceptsMode (text : String) : Bool := (modeOfName text).isSome

def options : List Clap.Opt :=
  [⟨"proxy", none⟩,
    ⟨"proxy-port", some fun text => (portOfText text).isSome⟩,
    ⟨"users-file", some fun _ => true⟩,
    ⟨"auth-mode", some acceptsMode⟩,
    ⟨"oidc-issuer-url", some fun _ => true⟩,
    ⟨"oidc-client-id", some fun _ => true⟩,
    ⟨"oidc-client-secret", some fun _ => true⟩]

def Args.ofFound (found : List (String × String)) : Args where
  proxy := (found.lookup "proxy").isSome
  proxyPort := ((found.lookup "proxy-port").bind portOfText).getD 80
  usersFile := found.lookup "users-file"
  authMode := ((found.lookup "auth-mode").bind modeOfName).getD .legacy
  oidcIssuerUrl := found.lookup "oidc-issuer-url"
  oidcClientId := found.lookup "oidc-client-id"
  oidcClientSecret := found.lookup "oidc-client-secret"

/-- `Args::parse()`; `none` is an error or the help text. -/
def Args.parse (args : List String) : Option Args := (Clap.parse options args).map Args.ofFound

/-! ## 2. What the CLI reads -/

def isSeparator (c : Char) : Bool := c == ',' || c == ' '

/-- The cut set `"\"'[]"`. -/
def isCut (c : Char) : Bool := c == '"' || c == '\'' || c == '[' || c == ']'

def flagWord : List Char := "--auth-mode".toList

/-- The loop of `GetAuthMode` over the parts. -/
def authModeLoop : List (List Char) → String
  | p :: next :: rest =>
    if Go.trim isCut p = flagWord then String.ofList (Go.trim isCut next) else authModeLoop (next :: rest)
  | _ => "legacy"

/-- `GetAuthMode`, with what `kubectl` prints, or `none` if it fails.  `RunOutputQuiet` trims the output. -/
def getAuthMode (kubectl : Option String) : String :=
  match kubectl.map Str.trim with
  | none => "unknown"
  | some out =>
    if Str.contains out "--auth-mode" then authModeLoop (Go.fieldsFunc isSeparator out.toList)
    else "legacy"

/-- What `kubectl` prints for an array of arguments. -/
def kubectlText (args : List String) : String := String.ofList (Go.marshal args)

/-- Where `user add` puts a user. -/
inductive Backend where
  | entraMock
  | htpasswd
  deriving DecidableEq, Repr

/-- The choice that `newUserAddCmd` makes. -/
def userBackend (mode : String) : Backend := if mode = "byoidc" then .entraMock else .htpasswd

/-! ## 3. Words -/

/-- The words that the CLI sees in an argument. -/
def words (arg : String) : List (List Char) := Go.cleanFields isSeparator isCut (Go.quote arg)

/-- The word behind the first `--auth-mode`. -/
def wordBehind (ws : List (List Char)) : Option (List Char) := (ws.dropWhile (· != flagWord)).tail.head?

def modeOfWord (w : Option (List Char)) : String := (w.map String.ofList).getD "legacy"

theorem wordBehind_of_not_mem {ws : List (List Char)} (h : flagWord ∉ ws) : wordBehind ws = none := by
  have hdrop : ws.dropWhile (· != flagWord) = [] := by
    rw [List.dropWhile_eq_nil_iff]
    intro w hw
    rw [bne_iff_ne]
    exact fun e => h (e ▸ hw)
  rw [wordBehind, hdrop]
  rfl

theorem wordBehind_append {ws : List (List Char)} (h : flagWord ∉ ws) (rest : List (List Char)) :
    wordBehind (ws ++ flagWord :: rest) = rest.head? := by
  have hall : ∀ w ∈ ws, (w != flagWord) = true := by
    intro w hw
    rw [bne_iff_ne]
    exact fun e => h (e ▸ hw)
  rw [wordBehind, List.dropWhile_append_of_pos hall, List.dropWhile_cons_of_neg (by simp)]
  rfl

/-- The loop returns the word behind the flag. -/
theorem authModeLoop_eq (parts : List (List Char)) :
    authModeLoop parts = modeOfWord (wordBehind (parts.map (Go.trim isCut))) := by
  induction parts with
  | nil => rfl
  | cons p rest ih =>
    by_cases hp : Go.trim isCut p = flagWord
    · have hbehind := wordBehind_append List.not_mem_nil (rest.map (Go.trim isCut))
      rw [List.map_cons, hp, ← List.nil_append (flagWord :: _), hbehind]
      cases rest with
      | nil => rfl
      | cons next rest =>
        rw [authModeLoop, if_pos hp]
        rfl
    · have hskip : wordBehind ((p :: rest).map (Go.trim isCut)) = wordBehind (rest.map (Go.trim isCut)) := by
        rw [wordBehind, List.map_cons, List.dropWhile_cons_of_pos (by rwa [bne_iff_ne])]
        rfl
      rw [hskip, ← ih]
      cases rest with
      | nil => rfl
      | cons next rest => rw [authModeLoop, if_neg hp]

/-- Looking for the flag in the whole text first changes nothing. -/
theorem getAuthMode_eq {out : String} (htrim : Str.trim out = out) :
    getAuthMode (some out) = modeOfWord (wordBehind (Go.cleanFields isSeparator isCut out.toList)) := by
  rw [getAuthMode, Option.map_some, htrim]
  dsimp only
  split
  · exact authModeLoop_eq _
  · rename_i hcontains
    rw [wordBehind_of_not_mem]
    · rfl
    · intro hmem
      obtain ⟨f, hf, hflag⟩ := List.mem_map.mp hmem
      refine hcontains (Str.contains_iff.mpr ?_)
      have hfield : f <:+: out.toList := Go.infix_of_mem_fieldsGo hf
      exact (hflag ▸ Go.trim_infix f).trans hfield

theorem trim_kubectlText (args : List String) : Str.trim (kubectlText args) = kubectlText args := by
  have hself : Str.trimL (Go.marshal args) = Go.marshal args := by
    refine Str.trimL_eq_self (fun c hc => ?_) (fun c hc => ?_)
    · rw [← Option.some.inj hc]
      decide
    · rw [Go.marshal, ← List.cons_append, List.getLast?_concat] at hc
      rw [← Option.some.inj hc]
      decide
  rw [Str.trim, kubectlText, String.toList_ofList, hself]

/-- **What the CLI reads**: the word behind the flag, among the words of the arguments. -/
theorem getAuthMode_kubectlText (args : List String) :
    getAuthMode (some (kubectlText args)) = modeOfWord (wordBehind (args.flatMap words)) := by
  rw [getAuthMode_eq (trim_kubectlText args), kubectlText, String.toList_ofList]
  by_cases hargs : args = []
  · subst hargs
    decide
  · rw [Go.cleanFields_marshal (by decide) (by decide) (by decide) (by decide) hargs]
    rfl

/-! ## 4. The argument that is seen first -/

/-- The CLI sees the flag in this argument. -/
def mentions (arg : String) : Bool := (words arg).contains flagWord

theorem not_mem_flatMap_words {args : List String} (h : ∀ arg ∈ args, mentions arg = false) :
    flagWord ∉ args.flatMap words := by
  rw [List.mem_flatMap]
  rintro ⟨arg, harg, hmem⟩
  have hmentions : mentions arg = true := List.contains_iff_mem.mpr hmem
  rw [h arg harg] at hmentions
  cases hmentions

theorem modeOfName_eq_some {text : String} {m : AuthMode} (h : modeOfName text = some m) :
    modeName m = text := by
  have hfound := List.find?_some h
  exact eq_of_beq hfound

theorem words_modeName (m : AuthMode) : words (modeName m) = [(modeName m).toList] := by
  cases m <;> decide

/-- The option, written as an argument of its own, is followed by the mode. -/
theorem exists_mode_of_parse {before after : List String} {parsed : Args}
    (h : Args.parse (before ++ "--auth-mode" :: after) = some parsed) :
    ∃ rest, after = modeName parsed.authMode :: rest := by
  obtain ⟨found, hfound, rfl⟩ := Option.map_eq_some_iff.mp h
  have hshape : Clap.shape "--auth-mode" = .long "auth-mode" none := by decide
  have hopt : options.find? (·.name == "auth-mode") = some ⟨"auth-mode", some acceptsMode⟩ := rfl
  obtain ⟨text, rest, rfl, haccepts, hlookup⟩ := Clap.parse_split hshape hopt hfound
  obtain ⟨m, hm⟩ := Option.isSome_iff_exists.mp haccepts
  have hmode : (Args.ofFound found).authMode = m := by
    rw [Args.ofFound, hlookup, Option.bind_some, hm]
    rfl
  exact ⟨rest, by rw [hmode, modeOfName_eq_some hm]⟩

/-- If the option itself is what the CLI sees first, it reads the mode. -/
theorem wordBehind_of_option {before after : List String} {parsed : Args}
    (h : Args.parse (before ++ "--auth-mode" :: after) = some parsed)
    (hbefore : ∀ arg ∈ before, mentions arg = false) :
    wordBehind ((before ++ "--auth-mode" :: after).flatMap words) =
      some (modeName parsed.authMode).toList := by
  obtain ⟨rest, rfl⟩ := exists_mode_of_parse h
  have hflag : words "--auth-mode" = [flagWord] := by decide
  rw [List.flatMap_append, List.flatMap_cons, List.flatMap_cons, hflag, words_modeName,
    List.singleton_append, wordBehind_append (not_mem_flatMap_words hbefore)]
  rfl

/-- When the CLI is right, by the first argument that it sees the flag in.  There is none: the mode must be
the default.  It is the option: always.  It is another argument: by accident. -/
def Agrees (args : List String) (m : AuthMode) : Prop :=
  match args.find? mentions with
  | none => m = .legacy
  | some arg => arg = "--auth-mode" ∨
    match wordBehind (args.flatMap words) with
    | none => m = .legacy
    | some w => String.ofList w = modeName m

theorem modeOfWord_none_iff {m : AuthMode} : modeOfWord none = modeName m ↔ m = .legacy := by
  cases m <;> decide

/-- Arguments that the CLI reads right, whatever else they hold: the flag is in no argument but the option, and
the mode is not attached to it. -/
theorem getAuthMode_of_apart {args : List String} {parsed : Args} (h : Args.parse args = some parsed)
    (honly : ∀ arg ∈ args, mentions arg = true → arg = "--auth-mode")
    (hapart : parsed.authMode = .legacy ∨ "--auth-mode" ∈ args) :
    getAuthMode (some (kubectlText args)) = modeName parsed.authMode := by
  rw [getAuthMode_kubectlText]
  by_cases hmem : "--auth-mode" ∈ args
  · obtain ⟨before, after, rfl, hbefore⟩ := List.eq_append_cons_of_mem hmem
    have hquiet : ∀ arg ∈ before, mentions arg = false := by
      intro arg harg
      rw [Bool.eq_false_iff]
      exact fun hm => hbefore (honly arg (List.mem_append_left _ harg) hm ▸ harg)
    rw [wordBehind_of_option h hquiet, modeOfWord, Option.map_some, Option.getD_some, String.ofList_toList]
  · have hnone : ∀ arg ∈ args, mentions arg = false := by
      intro arg harg
      rw [Bool.eq_false_iff]
      exact fun hm => hmem (honly arg harg hm ▸ harg)
    rw [wordBehind_of_not_mem (not_mem_flatMap_words hnone)]
    exact modeOfWord_none_iff.mpr (hapart.resolve_right hmem)

/-- The users of a mode are where the mode looks for them. -/
theorem userBackend_modeName (m : AuthMode) : userBackend (modeName m) = .entraMock ↔ m = .byoidc := by
  cases m <;> decide

/-- **When the CLI reads the mode of the simulator.** -/
theorem auth_mode_agrees_iff {args : List String} {parsed : Args} (h : Args.parse args = some parsed) :
    getAuthMode (some (kubectlText args)) = modeName parsed.authMode ↔ Agrees args parsed.authMode := by
  rw [getAuthMode_kubectlText, Agrees]
  cases hfirst : args.find? mentions with
  | none =>
    have hnone : ∀ arg ∈ args, mentions arg = false := by
      intro arg harg
      rw [Bool.eq_false_iff]
      exact List.find?_eq_none.mp hfirst arg harg
    rw [wordBehind_of_not_mem (not_mem_flatMap_words hnone)]
    exact modeOfWord_none_iff
  | some arg =>
    obtain ⟨-, before, after, rfl, hbefore⟩ := List.find?_eq_some_iff_append.mp hfirst
    simp only [Bool.not_eq_true'] at hbefore
    by_cases harg : arg = "--auth-mode"
    · subst harg
      rw [wordBehind_of_option h hbefore]
      simp [modeOfWord]
    · dsimp only
      rw [or_iff_right harg]
      cases wordBehind ((before ++ arg :: after).flatMap words) with
      | none => exact modeOfWord_none_iff
      | some w => exact Iff.rfl

/-- The arguments that `create` deploys for an external provider. -/
def deployedArgs : List String :=
  ["--proxy", "--proxy-port", "80", "--users-file", "/etc/ocp-sim/users.yaml", "--auth-mode", "byoidc",
    "--oidc-issuer-url",
    "http://entra-mock.entra-mock.svc.cluster.local:8080/a1b2c3d4-e5f6-7890-abcd-ef1234567890/v2.0",
    "--oidc-client-id", "picoshift", "--oidc-client-secret", "picoshift-secret"]

/-- They are read right: the option is what is seen first. -/
theorem auth_mode_agrees_deployed : getAuthMode (some (kubectlText deployedArgs)) = "byoidc" := by
  have hparse : (Args.parse deployedArgs).map Args.authMode = some .byoidc := by decide +kernel
  obtain ⟨parsed, hparsed, hmode⟩ := Option.map_eq_some_iff.mp hparse
  have hfirst : deployedArgs.find? mentions = some "--auth-mode" := by decide +kernel
  have hagrees : Agrees deployedArgs parsed.authMode := by
    rw [Agrees, hfirst]
    exact Or.inl rfl
  rw [(auth_mode_agrees_iff hparsed).mpr hagrees, hmode]
  rfl

/-- **Two ways to be wrong**: a mode that is attached to its option is not seen, and a file name with the flag
in it is taken for the option.  Either sends `user add` to the wrong place. -/
theorem auth_mode_misread :
    ((Args.parse ["--auth-mode=byoidc"]).map Args.authMode = some .byoidc ∧
      getAuthMode (some (kubectlText ["--auth-mode=byoidc"])) = "legacy" ∧
      userBackend (getAuthMode (some (kubectlText ["--auth-mode=byoidc"]))) = .htpasswd) ∧
    ((Args.parse ["--users-file", "x --auth-mode byoidc"]).map Args.authMode = some .legacy ∧
      getAuthMode (some (kubectlText ["--users-file", "x --auth-mode byoidc"])) = "byoidc" ∧
      userBackend (getAuthMode (some (kubectlText ["--users-file", "x --auth-mode byoidc"]))) =
        .entraMock) := by
  decide +kernel

end Picoshift.Cli

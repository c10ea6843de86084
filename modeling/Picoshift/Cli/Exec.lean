/-
# The commands of the CLI, run and dry

What a subcommand of the CLI does is to print lines, to run other programs and to wait.  `internal/exec.go` is the
one place where programs are started, and with `--dry-run` it starts none: `Run` and `RunOutput` print the command
instead, and all of them report success with no output.

So a subcommand is a program (`Lib/Prog.lean`) over these functions, and there are two ways to serve it.  What ties
them together holds for every subcommand (`dry_run_mirrors`): a dry run goes the way that a run goes in which every
command succeeds and prints nothing, and the commands that it prints are those which that run starts, except for the
quiet ones.
-/
import Picoshift.Lib.Lines
import Picoshift.Lib.Prog

namespace Picoshift.Setup

/-! ## 1. What a subcommand asks for -/

/-- A program and its arguments. -/
abbrev Cmd := List String

inductive Request where
  | print (line : String)
  | header (step total : Nat) (text : String)
  | run (cmd : Cmd)
  | runOutput (cmd : Cmd)
  | runQuiet (cmd : Cmd)
  | runOutputQuiet (cmd : Cmd)
  | checkFile (path : String)
  | checkDep (name : String)
  | now
  | sleep (d : Nat)

/-- The answers: the error of a command as text or what it printed, whether a file or a program is there, and the time
in nanoseconds. -/
abbrev Answer : Request → Type
  | .print _ => Unit
  | .header _ _ _ => Unit
  | .run _ => Except String Unit
  | .runOutput _ => Except String String
  | .runQuiet _ => Except String Unit
  | .runOutputQuiet _ => Except String String
  | .checkFile _ => Bool
  | .checkDep _ => Bool
  | .now => Nat
  | .sleep _ => Unit

/-! ## 2. `exec.go` -/

/-- What is printed: a line as it is, the line of a step (`[step/total] text`), or a command that a dry run prints in
place of starting it (`  [dry-run] …`). -/
inductive Line where
  | text (s : String)
  | header (step total : Nat) (text : String)
  | dryRun (cmd : Cmd)
  deriving DecidableEq, Repr

/-- A command that has been started, and whether with the terminal of the CLI or quietly. -/
structure Started where
  cmd : Cmd
  quiet : Bool
  deriving DecidableEq, Repr

structure Terminal where
  printed : List Line
  started : List Started
  clock : Nat

/-- What is outside: how a command ends and what it prints, whether something is found, and how long it takes. -/
structure Fate where
  outcome : Except String String
  found : Bool
  elapsed : Nat

def Terminal.print (t : Terminal) (l : Line) : Terminal := { t with printed := t.printed ++ [l] }

def Terminal.pass (t : Terminal) (d : Nat) : Terminal := { t with clock := t.clock + d }

def Terminal.start (t : Terminal) (cmd : Cmd) (quiet : Bool) : Terminal :=
  { t with started := t.started ++ [⟨cmd, quiet⟩] }

/-- The error of a command has the command in front. -/
def Fate.result (fate : Fate) (cmd : Cmd) : Except String String :=
  fate.outcome.mapError fun err => " ".intercalate cmd ++ ": " ++ err

/-- The functions of `exec.go` (and the clock), with `DryRun` as `dry`. -/
def serve (dry : Bool) (fate : Fate) (t : Terminal) : (r : Request) → Terminal × Answer r
  | .print line => (t.print (.text line), ())
  | .header step total text => (t.print (.header step total text), ())
  | .run cmd =>
    if dry then (t.print (.dryRun cmd), .ok ())
    else (t.start cmd false, (fate.result cmd).map fun _ => ())
  | .runOutput cmd =>
    if dry then (t.print (.dryRun cmd), .ok "")
    else (t.start cmd false, (fate.result cmd).map Str.trim)
  | .runQuiet cmd =>
    if dry then (t, .ok ())
    else (t.start cmd true, (fate.result cmd).map fun _ => ())
  | .runOutputQuiet cmd =>
    if dry then (t, .ok "")
    else (t.start cmd true, (fate.result cmd).map Str.trim)
  | .checkFile _ => (t, fate.found)
  | .checkDep _ => (t, fate.found)
  | .now => (t, t.clock)
  | .sleep d => (t.pass d, ())

/-- Whatever is asked for takes its time. -/
def cli (dry : Bool) : Api Answer Terminal Fate where
  serve fate t r := serve dry fate (t.pass fate.elapsed) r

/-! ## 3. Writing subcommands -/

/-- A part of a subcommand: it may fail, with the text of an error. -/
def Work (α : Type) : Type := Prog Answer (Except String α)

instance : Monad Work where
  pure a := Prog.done (.ok a)
  bind := Prog.andThen

/-- `return fmt.Errorf(…)`. -/
def fail {α : Type} (err : String) : Work α := Prog.done (.error err)

/-- One request, and what is made of its answer. -/
def ask {α : Type} (r : Request) (f : Answer r → Except String α) : Work α := Prog.call r fun x => Prog.done (f x)

def say (line : String) : Work Unit := ask (.print line) fun _ => .ok ()

def header (step total : Nat) (text : String) : Work Unit := ask (.header step total text) fun _ => .ok ()

def run (cmd : Cmd) : Work Unit := ask (.run cmd) id

def runOutput (cmd : Cmd) : Work String := ask (.runOutput cmd) id

def runQuiet (cmd : Cmd) : Work Unit := ask (.runQuiet cmd) id

def runOutputQuiet (cmd : Cmd) : Work String := ask (.runOutputQuiet cmd) id

def now : Work Nat := ask .now .ok

def sleep (d : Nat) : Work Unit := ask (.sleep d) .ok

/-- `CheckFile(path) == nil`. -/
def checkFile (path : String) : Work Bool := ask (.checkFile path) .ok

def checkDep (name : String) : Work Unit :=
  ask (.checkDep name) fun found =>
    if found then .ok () else .error ("required dependency \"" ++ name ++ "\" not found in PATH")

/-- Go on with the result, whether it is an error or not. -/
def handle {α β : Type} (p : Work α) (f : Except String α → Work β) : Work β := Prog.bind p f

/-- The value, if there is no error. -/
def attempt {α : Type} (p : Work α) : Work (Option α) := handle p fun x => pure x.toOption

/-- `_ = p`. -/
def ignore {α : Type} (p : Work α) : Work Unit := handle p fun _ => pure ()

/-- `fmt.Errorf("context: %w", err)`. -/
def wrap {α : Type} (context : String) (p : Work α) : Work α :=
  handle p fun
    | .ok a => pure a
    | .error err => fail (context ++ ": " ++ err)

/-- One after the other, up to the first error. -/
def each {ι : Type} : List ι → (ι → Work Unit) → Work Unit
  | [], _ => pure ()
  | i :: is, body => do
    body i
    each is body

def second : Nat := 1000000000

/-- `for time.Now().Before(deadline) { …; time.Sleep(interval) }`, at most `n` times. -/
def poll {α : Type} (deadline interval : Nat) (probe : Work (Option α)) : Nat → Work (Option α)
  | 0 => pure none
  | n + 1 => do
    let t ← now
    if t < deadline then
      match ← probe with
      | some a => pure (some a)
      | none => do
        sleep interval
        poll deadline interval probe n
    else pure none

/-- The loop with the deadline `timeout` from now on.  So many rounds are enough (`pollFor_enough`). -/
def pollFor {α : Type} (timeout interval : Nat) (probe : Work (Option α)) : Work (Option α) := do
  let start ← now
  poll (start + timeout) interval probe (timeout / interval + 1)

/-- Whatever happens to its requests, the part of a subcommand ends with `Q`. -/
def Ends {α : Type} (dry : Bool) (fair : Fate → Prop) (Q : Except String α → Terminal → Prop) (p : Work α)
    (t : Terminal) : Prop := Yields (cli dry) fair Q p t

section Ends

variable {α β : Type} {dry : Bool} {fair : Fate → Prop} {Q : Except String α → Terminal → Prop} {p : Work α}
  {t : Terminal}

theorem ends_pure {a : α} (h : Q (.ok a) t) : Ends dry fair Q (pure a) t := h

theorem ends_fail {err : String} (h : Q (.error err) t) : Ends dry fair Q (fail err) t := h

theorem ends_ask {r : Request} {f : Answer r → Except String α}
    (h : ∀ fate, fair fate → Q (f ((cli dry).serve fate t r).2) ((cli dry).serve fate t r).1) :
    Ends dry fair Q (ask r f) t := h

theorem Ends.mono {Q' : Except String α → Terminal → Prop} (h : Ends dry fair Q p t) (hQ : ∀ x t, Q x t → Q' x t) :
    Ends dry fair Q' p t := Yields.mono h hQ

theorem Ends.bind {Q' : Except String β → Terminal → Prop} {f : α → Work β} (h : Ends dry fair Q p t)
    (herror : ∀ err t, Q (.error err) t → Q' (.error err) t) (hok : ∀ a t, Q (.ok a) t → Ends dry fair Q' (f a) t) :
    Ends dry fair Q' (p >>= f) t := Yields.andThen h herror hok

theorem Ends.handle {Q' : Except String β → Terminal → Prop} {f : Except String α → Work β}
    (h : Ends dry fair Q p t) (hf : ∀ x t, Q x t → Ends dry fair Q' (f x) t) :
    Ends dry fair Q' (Setup.handle p f) t := Yields.bind h hf

end Ends

/-! ### Steps

A part of a subcommand is SMOOTH if it announces no step and succeeds in every dry run that finds what it looks for.
Both are classes, so that they are found along the parts. -/

def IsHeader : Request → Prop
  | .header _ _ _ => True
  | _ => False

/-- No step is announced. -/
class Silent {α : Type} (p : Work α) : Prop where
  avoids : Avoids IsHeader p

/-- A dry run succeeds. -/
class DryOk {α : Type} (p : Work α) : Prop where
  ends : ∀ t, Ends true (fun fate => fate.found = true) (fun x _ => ∃ a, x = .ok a) p t

class Smooth {α : Type} (p : Work α) : Prop where
  silent : Silent p
  dryOk : DryOk p

instance (priority := low) Smooth.toSilent {α : Type} {p : Work α} [h : Smooth p] : Silent p := h.silent

instance (priority := low) Smooth.toDryOk {α : Type} {p : Work α} [h : Smooth p] : DryOk p := h.dryOk

section Silent

variable {α β ι : Type} {p q : Work α}

theorem silent_ask {r : Request} (f : Answer r → Except String α) (h : ¬ IsHeader r := by exact id) :
    Silent (ask r f) := ⟨h, fun _ => trivial⟩

instance (err : String) : Silent (fail err : Work α) := ⟨trivial⟩

instance {f : α → Work β} [h : Silent p] [hf : ∀ a, Silent (f a)] : Silent (p >>= f) :=
  ⟨Avoids.andThen h.avoids fun a => (hf a).avoids⟩

instance {f : Except String α → Work β} [h : Silent p] [hf : ∀ x, Silent (f x)] : Silent (handle p f) :=
  ⟨Avoids.bind h.avoids fun x => (hf x).avoids⟩

instance {c : Prop} [Decidable c] [hp : Silent p] [hq : Silent q] : Silent (if c then p else q) := by
  split
  · exact hp
  · exact hq

end Silent

section Smooth

variable {α β ι : Type} {p q : Work α}

instance {f : α → Work β} [h : DryOk p] [hf : ∀ a, DryOk (f a)] : DryOk (p >>= f) :=
  ⟨fun t => (h.ends t).bind (fun _ _ ⟨_, hx⟩ => nomatch hx) fun a t _ => (hf a).ends t⟩

instance {c : Prop} [Decidable c] [hp : DryOk p] [hq : DryOk q] : DryOk (if c then p else q) := by
  split
  · exact hp
  · exact hq

instance (step total : Nat) (text : String) : DryOk (header step total text) :=
  ⟨fun _ => ends_ask fun _ _ => ⟨_, rfl⟩⟩

instance (a : α) : Smooth (pure a : Work α) := ⟨⟨trivial⟩, ⟨fun _ => ends_pure ⟨a, rfl⟩⟩⟩

instance (line : String) : Smooth (say line) := ⟨silent_ask _, ⟨fun _ => ends_ask fun _ _ => ⟨_, rfl⟩⟩⟩

instance (cmd : Cmd) : Smooth (run cmd) := ⟨silent_ask _, ⟨fun _ => ends_ask fun _ _ => ⟨_, rfl⟩⟩⟩

instance (cmd : Cmd) : Smooth (runOutput cmd) := ⟨silent_ask _, ⟨fun _ => ends_ask fun _ _ => ⟨_, rfl⟩⟩⟩

instance (cmd : Cmd) : Smooth (runQuiet cmd) := ⟨silent_ask _, ⟨fun _ => ends_ask fun _ _ => ⟨_, rfl⟩⟩⟩

instance (cmd : Cmd) : Smooth (runOutputQuiet cmd) := ⟨silent_ask _, ⟨fun _ => ends_ask fun _ _ => ⟨_, rfl⟩⟩⟩

instance : Smooth now := ⟨silent_ask _, ⟨fun _ => ends_ask fun _ _ => ⟨_, rfl⟩⟩⟩

instance (d : Nat) : Smooth (sleep d) := ⟨silent_ask _, ⟨fun _ => ends_ask fun _ _ => ⟨_, rfl⟩⟩⟩

instance (path : String) : Smooth (checkFile path) := ⟨silent_ask _, ⟨fun _ => ends_ask fun _ _ => ⟨_, rfl⟩⟩⟩

instance (name : String) : Smooth (checkDep name) :=
  ⟨silent_ask _, ⟨fun _ => ends_ask fun _ hfate => ⟨(), if_pos hfate⟩⟩⟩

instance {f : α → Work β} [Smooth p] [∀ a, Smooth (f a)] : Smooth (p >>= f) := ⟨inferInstance, inferInstance⟩

instance {c : Prop} [Decidable c] [Smooth p] [Smooth q] : Smooth (if c then p else q) :=
  ⟨inferInstance, inferInstance⟩

instance [h : Smooth p] : Smooth (attempt p) := by
  refine ⟨?_, ⟨fun t => (h.dryOk.ends t).handle fun _ _ _ => ends_pure ⟨_, rfl⟩⟩⟩
  unfold attempt
  infer_instance

instance [h : Smooth p] : Smooth (ignore p) := by
  refine ⟨?_, ⟨fun t => (h.dryOk.ends t).handle fun _ _ _ => ends_pure ⟨_, rfl⟩⟩⟩
  unfold ignore
  infer_instance

instance [h : Smooth p] (context : String) : Smooth (wrap context p) := by
  have hsilent : ∀ x : Except String α, Silent (match x with
      | .ok a => pure a
      | .error err => fail (context ++ ": " ++ err) : Work α) := by
    intro x
    cases x <;> infer_instance
  refine ⟨?_, ⟨fun t => (h.dryOk.ends t).handle fun x t hx => ?_⟩⟩
  · unfold wrap
    infer_instance
  · obtain ⟨a, rfl⟩ := hx
    exact ends_pure ⟨a, rfl⟩

instance {body : ι → Work Unit} [h : ∀ i, Smooth (body i)] (is : List ι) : Smooth (each is body) := by
  induction is with
  | nil => exact inferInstanceAs (Smooth (pure ()))
  | cons i is ih => exact inferInstanceAs (Smooth (body i >>= fun _ => each is body))

instance {probe : Work (Option α)} [h : Silent probe] (deadline interval n : Nat) :
    Silent (poll deadline interval probe n) := by
  induction n with
  | zero => exact inferInstanceAs (Silent (pure none))
  | succ n ih =>
    have hround : ∀ found : Option α, Silent (match found with
        | some a => pure (some a)
        | none => do
          sleep interval
          poll deadline interval probe n : Work (Option α)) := by
      intro found
      cases found <;> infer_instance
    unfold poll
    infer_instance

instance {probe : Work (Option α)} [h : Silent probe] (timeout interval : Nat) :
    Silent (pollFor timeout interval probe) := by
  unfold pollFor
  infer_instance

instance {probe : Work (Option α)} [h : Smooth probe] (deadline interval n : Nat) :
    Smooth (poll deadline interval probe n) := by
  induction n with
  | zero => exact inferInstanceAs (Smooth (pure none))
  | succ n ih =>
    have hround : ∀ found : Option α, Smooth (match found with
        | some a => pure (some a)
        | none => do
          sleep interval
          poll deadline interval probe n : Work (Option α)) := by
      intro found
      cases found <;> infer_instance
    unfold poll
    infer_instance

instance {probe : Work (Option α)} [h : Smooth probe] (timeout interval : Nat) :
    Smooth (pollFor timeout interval probe) := by
  unfold pollFor
  infer_instance

end Smooth

/-- A dry run fails. -/
def DryFails {α : Type} (p : Work α) : Prop :=
  ∀ t, Ends true (fun fate => fate.found = true) (fun x _ => ∃ err, x = .error err) p t

/-! ## 4. Waiting -/

section Waiting

variable {α : Type} {dry : Bool} {fair : Fate → Prop}

theorem clock_serve (fate : Fate) (t : Terminal) (r : Request) : t.clock ≤ ((cli dry).serve fate t r).1.clock := by
  cases r <;> simp only [cli, serve, Terminal.pass, Terminal.print, Terminal.start] <;>
    first | omega | (split <;> exact Nat.le_add_right _ _)

/-- Time does not go back. -/
theorem clock_le (p : Work α) (t : Terminal) : Ends dry fair (fun _ t' => t.clock ≤ t'.clock) p t := by
  have havoids : ∀ p : Prog Answer (Except String α), Avoids (fun _ => False) p := by
    intro p
    induction p with
    | done a => trivial
    | call r k ih => exact ⟨id, ih⟩
  exact Yields.of_avoids (fun r fate s _ hs => hs.trans (clock_serve fate s r)) (havoids p) (Nat.le_refl _)

theorem ends_now (t : Terminal) : Ends dry fair (fun x t' => x = .ok t'.clock ∧ t.clock ≤ t'.clock) now t :=
  ends_ask fun _ _ => ⟨rfl, Nat.le_add_right _ _⟩

/-- The loop gives up after the deadline only, if there are rounds enough. -/
theorem poll_enough {deadline interval : Nat} {probe : Work (Option α)} {n : Nat} {t : Terminal}
    (h : deadline ≤ t.clock + n * interval) :
    Ends dry fair (fun x t' => x = .ok none → deadline ≤ t'.clock) (poll deadline interval probe n) t := by
  induction n generalizing t with
  | zero => exact ends_pure fun _ => by simpa using h
  | succ n ih =>
    refine (ends_now t).bind (fun _ _ _ hx => nomatch hx) fun c t₁ ⟨hc, h₁⟩ => ?_
    cases hc
    by_cases hbefore : t₁.clock < deadline
    · rw [if_pos hbefore]
      refine (clock_le probe t₁).bind (fun _ _ _ hx => nomatch hx) fun found t₂ h₂ => ?_
      cases found with
      | some a => exact ends_pure fun hx => nomatch hx
      | none =>
        have hsleep : Ends dry fair (fun _ t₃ => t₂.clock + interval ≤ t₃.clock) (sleep interval) t₂ := by
          refine ends_ask fun fate _ => ?_
          show t₂.clock + interval ≤ t₂.clock + fate.elapsed + interval
          omega
        refine hsleep.bind (fun _ _ _ hx => nomatch hx) fun _ t₃ h₃ => ih ?_
        rw [Nat.succ_mul] at h
        omega
    · rw [if_neg hbefore]
      exact ends_pure fun _ => Nat.le_of_not_lt hbefore

/-- The rounds of `pollFor` are enough: it gives up after its time only. -/
theorem pollFor_enough {timeout interval : Nat} (hinterval : 0 < interval) (probe : Work (Option α)) (t : Terminal) :
    Ends dry fair (fun x t' => x = .ok none → t.clock + timeout ≤ t'.clock) (pollFor timeout interval probe) t := by
  refine (ends_now t).bind (fun _ _ _ hx => nomatch hx) fun c t₁ ⟨hc, h₁⟩ => ?_
  cases hc
  have hrounds : timeout ≤ (timeout / interval + 1) * interval := by
    rw [Nat.succ_mul, Nat.mul_comm]
    have hdiv := Nat.div_add_mod timeout interval
    have hmod := Nat.mod_lt timeout hinterval
    omega
  refine (poll_enough (Nat.add_le_add_left hrounds _)).mono fun x t' hx hnone => ?_
  exact (Nat.add_le_add_right h₁ timeout).trans (hx hnone)

/-- What a probe never finds, a dry run waits for in vain. -/
theorem ends_pollFor_none {timeout interval : Nat} {probe : Work (Option α)}
    (h : ∀ t, Ends dry fair (fun x _ => x = .ok none) probe t) (t : Terminal) :
    Ends dry fair (fun x _ => x = .ok none) (pollFor timeout interval probe) t := by
  have hpoll (deadline n : Nat) : ∀ t, Ends dry fair (fun x _ => x = .ok none) (poll deadline interval probe n) t := by
    induction n with
    | zero => exact fun _ => ends_pure rfl
    | succ n ih =>
      intro t
      refine (ends_now t).bind (fun _ _ hx => nomatch hx.1) fun c t₁ _ => ?_
      split
      · refine (h t₁).bind (fun _ _ hx => nomatch hx) fun found t₂ hfound => ?_
        cases hfound
        have hsleep : Ends dry fair (fun x _ => x = .ok ()) (sleep interval) t₂ := ends_ask fun _ _ => rfl
        exact hsleep.bind (fun _ _ hx => nomatch hx) fun _ t₃ _ => ih t₃
      · exact ends_pure rfl
  exact (ends_now t).bind (fun _ _ hx => nomatch hx.1) fun c t₁ _ => hpoll _ _ t₁

end Waiting

theorem dryFails_fail {α : Type} (err : String) : DryFails (fail err : Work α) := fun _ => ends_fail ⟨err, rfl⟩

theorem DryFails.bind {α β : Type} {p : Work α} (h : DryFails p) (f : α → Work β) : DryFails (p >>= f) :=
  fun t => (h t).bind (fun err _ _ => ⟨err, rfl⟩) fun _ _ ⟨_, hx⟩ => nomatch hx

/-- Whatever comes before, what fails at its end fails. -/
theorem dryFails_bind {α β : Type} (p : Work α) {f : α → Work β} (h : ∀ a, DryFails (f a)) : DryFails (p >>= f) :=
  fun t => (clock_le p t).bind (fun err _ _ => ⟨err, rfl⟩) fun a t _ => h a t

/-! ## 5. A dry run and the run that it stands for -/

def Line.announced : Line → Option Cmd
  | .dryRun cmd => some cmd
  | _ => none

/-- The command succeeds and prints nothing. -/
def Fate.oblige (fate : Fate) : Fate := { fate with outcome := .ok "" }

/-- The terminal of a dry run beside that of a run: the same lines but for the commands, and the commands are those
that the run has started with its terminal. -/
structure Mirrors (dry real : Terminal) : Prop where
  clock : dry.clock = real.clock
  lines : dry.printed.filter (fun l => l.announced.isNone) = real.printed
  commands : dry.printed.filterMap Line.announced = (real.started.filter fun s => !s.quiet).map Started.cmd

theorem Mirrors.pass {d r : Terminal} (h : Mirrors d r) (n : Nat) : Mirrors (d.pass n) (r.pass n) :=
  ⟨congrArg (· + n) h.clock, h.lines, h.commands⟩

/-- The same line on both. -/
theorem Mirrors.print {d r : Terminal} (h : Mirrors d r) {l : Line} (hl : l.announced = none) :
    Mirrors (d.print l) (r.print l) := by
  refine ⟨h.clock, ?_, ?_⟩
  · rw [Terminal.print, Terminal.print, List.filter_append, h.lines]
    simp [hl]
  · rw [Terminal.print, List.filterMap_append, h.commands]
    simp [hl, Terminal.print]

/-- A command that is printed on one and started on the other. -/
theorem Mirrors.start {d r : Terminal} (h : Mirrors d r) (cmd : Cmd) :
    Mirrors (d.print (.dryRun cmd)) (r.start cmd false) := by
  refine ⟨h.clock, ?_, ?_⟩
  · rw [Terminal.print, List.filter_append, h.lines]
    simp [Line.announced, Terminal.start]
  · rw [Terminal.print, List.filterMap_append, h.commands]
    simp [Line.announced, Terminal.start]

theorem Mirrors.startQuiet {d r : Terminal} (h : Mirrors d r) (cmd : Cmd) : Mirrors d (r.start cmd true) := by
  refine ⟨h.clock, h.lines, ?_⟩
  rw [h.commands]
  simp [Terminal.start]

/-- One request, in a dry run and in the run. -/
theorem mirrors_serve {d r : Terminal} (h : Mirrors d r) (fate : Fate) (req : Request) :
    ((cli true).serve fate d req).2 = ((cli false).serve fate.oblige r req).2 ∧
      Mirrors ((cli true).serve fate d req).1 ((cli false).serve fate.oblige r req).1 := by
  have hpass := h.pass fate.elapsed
  cases req with
  | print line => exact ⟨rfl, hpass.print rfl⟩
  | header step total text => exact ⟨rfl, hpass.print rfl⟩
  | run cmd => exact ⟨rfl, hpass.start cmd⟩
  | runOutput cmd => exact ⟨rfl, hpass.start cmd⟩
  | runQuiet cmd => exact ⟨rfl, hpass.startQuiet cmd⟩
  | runOutputQuiet cmd => exact ⟨rfl, hpass.startQuiet cmd⟩
  | checkFile path => exact ⟨rfl, hpass⟩
  | checkDep name => exact ⟨rfl, hpass⟩
  | now => exact ⟨hpass.clock, hpass⟩
  | sleep d => exact ⟨rfl, hpass.pass d⟩

/-- The whole of a subcommand. -/
theorem mirrors_run {α : Type} (p : Prog Answer α) (fates : Nat → Fate) {d r : Terminal} (h : Mirrors d r) :
    (p.run (cli true) fates d).2 = (p.run (cli false) (fun n => (fates n).oblige) r).2 ∧
      Mirrors (p.run (cli true) fates d).1 (p.run (cli false) (fun n => (fates n).oblige) r).1 := by
  induction p generalizing d r fates with
  | done a => exact ⟨rfl, h⟩
  | call req k ih =>
    obtain ⟨hanswer, hnext⟩ := mirrors_serve h (fates 0) req
    simp only [Prog.run]
    rw [hanswer]
    exact ih _ _ hnext

/-- A dry run starts nothing. -/
theorem started_dry {α : Type} (p : Prog Answer α) (fates : Nat → Fate) (t : Terminal) :
    (p.run (cli true) fates t).1.started = t.started := by
  induction p generalizing t fates with
  | done a => rfl
  | call req k ih =>
    have hserve : ((cli true).serve (fates 0) t req).1.started = t.started := by cases req <;> rfl
    exact (ih _ _ _).trans hserve

/-- A terminal that nothing has been printed on. -/
def Terminal.new (clock : Nat) : Terminal := ⟨[], [], clock⟩

/-- **A dry run stands for a run**, for every subcommand: the run in which every command succeeds and prints nothing.
It starts nothing and ends with the same result at the same time; it prints the same lines, and where the run starts a
command that is not quiet it prints the command, in the same order. -/
theorem dry_run_mirrors {α : Type} (p : Work α) (fates : Nat → Fate) (clock : Nat) :
    let dry := Prog.run (cli true) fates (Terminal.new clock) p
    let real := Prog.run (cli false) (fun n => (fates n).oblige) (Terminal.new clock) p
    dry.1.started = [] ∧ dry.2 = real.2 ∧ Mirrors dry.1 real.1 :=
  ⟨started_dry p fates _, mirrors_run p fates ⟨rfl, rfl, rfl⟩⟩

end Picoshift.Setup

/-
# Command lines of long options

A command whose arguments are all long options: flags, and options with one value that may stand in the
same argument (`--name=value`) or in the next one (`--name value`).  There are no positional arguments,
no option may be given twice, and the text of a value is checked.  An argument that begins with a hyphen is
never the value of the option in front of it, except a lone `-`.

Whatever ends without a result, an error or a help text, is `none`.

`parse_split` is what a caller can rely on: an option that is written alone is followed by its value, and
that value is what is found under its name.
-/
import Mathlib.Data.List.Basic
import Picoshift.Lib.Str

namespace Picoshift

namespace Clap

/-- An option: `accepts` tells the values it takes, a flag takes none. -/
structure Opt where
  name : String
  accepts : Option (String → Bool)

/-- What an argument looks like. -/
inductive Shape where
  | escape
  | long (name : String) (value : Option String)
  | short
  | plain
  deriving DecidableEq, Repr

def shape (arg : String) : Shape :=
  match arg.toList with
  | ['-', '-'] => .escape
  | '-' :: '-' :: rest =>
    match Str.splitOnceL '=' rest with
    | some (name, value) => .long (String.ofList name) (some (String.ofList value))
    | none => .long (String.ofList rest) none
  | '-' :: _ :: _ => .short
  | _ => .plain

/-- What has been read: the options with their values, the option that waits for its value, and whether
`--` came. -/
structure State where
  found : List (String × String)
  pending : Option (String × (String → Bool))
  escaped : Bool

namespace State

def start : State := ⟨[], none, false⟩

/-- Take a value for an option that has none yet. -/
def record (st : State) (name value : String) : Option State :=
  if (st.found.lookup name).isSome then none
  else some { st with found := st.found ++ [(name, value)], pending := none }

/-- One argument. -/
def step (opts : List Opt) (st : State) (arg : String) : Option State :=
  if st.escaped then none
  else
    match shape arg, st.pending with
    | .escape, _ => some { st with escaped := true }
    | .long name value, none =>
      match opts.find? (·.name == name) with
      | none => none
      | some opt =>
        match opt.accepts, value with
        | none, none => st.record opt.name "true"
        | none, some _ => none
        | some accepts, some v => if accepts v then st.record opt.name v else none
        | some accepts, none => some { st with pending := some (opt.name, accepts) }
    | .long _ _, some _ => none
    | .short, _ => none
    | .plain, some (name, accepts) => if accepts arg then st.record name arg else none
    | .plain, none => none

def run (opts : List Opt) (st : State) : List String → Option State
  | [] => some st
  | arg :: args => (st.step opts arg).bind fun st => run opts st args

end State

/-- The options and their values, if the command line is accepted. -/
def parse (opts : List Opt) (args : List String) : Option (List (String × String)) :=
  (State.start.run opts args).bind fun st => if st.pending.isSome then none else some st.found

/-! ## 1. Steps -/

section Steps

variable {opts : List Opt} {st st' : State} {name value : String}

theorem record_eq_some : st.record name value = some st' ↔
    st.found.lookup name = none ∧ st' = { st with found := st.found ++ [(name, value)], pending := none } := by
  rw [State.record]
  cases st.found.lookup name with
  | none => simp [eq_comm]
  | some v => simp

/-- What is found stays found. -/
theorem lookup_record {key v : String} (h : st.record name value = some st')
    (hkey : st.found.lookup key = some v) : st'.found.lookup key = some v := by
  obtain ⟨-, rfl⟩ := record_eq_some.mp h
  rw [List.lookup_append, hkey]
  rfl

theorem lookup_step {arg key v : String} (h : st.step opts arg = some st')
    (hkey : st.found.lookup key = some v) : st'.found.lookup key = some v := by
  unfold State.step at h
  split at h
  · cases h
  · split at h
    · cases h
      exact hkey
    · split at h
      · cases h
      · split at h
        · exact lookup_record h hkey
        · cases h
        · split at h
          · exact lookup_record h hkey
          · cases h
        · cases h
          exact hkey
    · cases h
    · cases h
    · split at h
      · exact lookup_record h hkey
      · cases h
    · cases h

theorem lookup_run {args : List String} {key v : String} (h : st.run opts args = some st')
    (hkey : st.found.lookup key = some v) : st'.found.lookup key = some v := by
  induction args generalizing st with
  | nil =>
    cases h
    exact hkey
  | cons arg args ih =>
    obtain ⟨st1, hstep, hrest⟩ := Option.bind_eq_some_iff.mp h
    exact ih hrest (lookup_step hstep hkey)

theorem run_append (before after : List String) :
    st.run opts (before ++ after) = (st.run opts before).bind fun st => st.run opts after := by
  induction before generalizing st with
  | nil => rfl
  | cons arg before ih =>
    rw [List.cons_append, State.run, State.run, Option.bind_assoc]
    exact congrArg _ (funext fun st => ih)

end Steps

/-! ## 2. An option and its value -/

variable {opts : List Opt} {st st' : State} {name arg value : String} {accepts : String → Bool}

/-- An option that is written alone waits for its value, and nothing waited before it. -/
theorem step_alone (harg : shape arg = .long name none)
    (hopt : opts.find? (·.name == name) = some ⟨name, some accepts⟩)
    (h : st.step opts arg = some st') : st' = { st with pending := some (name, accepts) } := by
  rw [State.step, harg] at h
  split at h
  · cases h
  · cases hpending : st.pending with
    | some p =>
      rw [hpending] at h
      cases h
    | none =>
      simp only [hpending, hopt, Option.some.injEq] at h
      exact h.symm

/-- While an option waits, the next argument is `--` or its value. -/
theorem step_waiting (hpending : st.pending = some (name, accepts)) (h : st.step opts value = some st') :
    st' = { st with escaped := true } ∨ accepts value = true ∧ st.record name value = some st' := by
  rw [State.step, hpending] at h
  split at h
  · cases h
  · cases hshape : shape value with
    | escape =>
      rw [hshape] at h
      rw [hpending]
      exact Or.inl (Option.some.inj h).symm
    | long n v =>
      rw [hshape] at h
      cases h
    | short =>
      rw [hshape] at h
      cases h
    | plain =>
      simp only [hshape, Option.ite_none_right_eq_some] at h
      exact Or.inr h

/-- Nothing comes after `--`. -/
theorem run_escaped {args : List String} (hescaped : st.escaped = true) (h : st.run opts args = some st') :
    st' = st := by
  cases args with
  | nil => exact (Option.some.inj h).symm
  | cons arg args =>
    obtain ⟨st1, hstep, -⟩ := Option.bind_eq_some_iff.mp h
    rw [State.step, if_pos hescaped] at hstep
    cases hstep

/-- **An option that is written alone is followed by its value**, and that is what is found for it. -/
theorem parse_split {before after : List String} {found : List (String × String)}
    (harg : shape arg = .long name none)
    (hopt : opts.find? (·.name == name) = some ⟨name, some accepts⟩)
    (h : parse opts (before ++ arg :: after) = some found) :
    ∃ v rest, after = v :: rest ∧ accepts v = true ∧ found.lookup name = some v := by
  obtain ⟨last, hrun, hend⟩ := Option.bind_eq_some_iff.mp h
  rw [Option.ite_none_left_eq_some, Bool.not_eq_true, Option.isSome_eq_false_iff,
    Option.isNone_iff_eq_none, Option.some.injEq] at hend
  obtain ⟨hpending, rfl⟩ := hend
  rw [run_append] at hrun
  obtain ⟨st, -, hrun⟩ := Option.bind_eq_some_iff.mp hrun
  obtain ⟨st1, hstep, hrun⟩ := Option.bind_eq_some_iff.mp hrun
  have hst1 := step_alone harg hopt hstep
  have hwaiting : st1.pending = some (name, accepts) := by rw [hst1]
  cases after with
  | nil =>
    cases hrun
    rw [hwaiting] at hpending
    cases hpending
  | cons v rest =>
    obtain ⟨st2, hvalue, hrun⟩ := Option.bind_eq_some_iff.mp hrun
    rcases step_waiting hwaiting hvalue with hescape | ⟨haccepts, hrecord⟩
    · -- behind `--` the option would wait for ever
      have hlast := run_escaped (by rw [hescape]) hrun
      rw [hlast, hescape] at hpending
      exact absurd (hwaiting.symm.trans hpending) (by simp)
    · refine ⟨v, rest, rfl, haccepts, lookup_run hrun ?_⟩
      obtain ⟨hnone, rfl⟩ := record_eq_some.mp hrecord
      rw [List.lookup_append, hnone, Option.none_or, List.lookup_cons_self]

end Clap

end Picoshift

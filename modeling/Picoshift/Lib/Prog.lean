/-
# Programs that live on requests, alone and among others

A controller does its work by requests to a store that others use too.  A PROGRAM is what is left of it: it
is done, or it has a request out and goes on with whatever is answered.  How the store answers is an `Api`;
what chance adds to an answer (a failure, an answer that is lost) is a FATE.

A program runs alone (`Prog.run`; what comes of it whatever the fates is `Yields`), or as one of the tasks of a `Pool`,
which take turns request by request while the store is edited from outside.

What a task can rely on between two of its requests is a relation `R` on stores that every edit and every
request of every task keeps.  `Holds R Q p s` says that the program `p` keeps it too, from the store `s` on, and
that `Q` holds of its result for good, whatever `R` allows to happen in between.  It is proved along the program
(`Holds.bind`, `Ensures.andThen`), one request at a time, and then holds in every pool (`Pool.holds`).
-/
import Picoshift.Lib.Machine

namespace Picoshift

/-! ## 1. Programs -/

/-- A program: its result, or a request and what follows for each answer. -/
inductive Prog {Req : Type} (Resp : Req → Type) (α : Type) : Type where
  | done (a : α)
  | call (r : Req) (k : Resp r → Prog Resp α)

namespace Prog

variable {Req : Type} {Resp : Req → Type} {α β : Type}

def bind : Prog Resp α → (α → Prog Resp β) → Prog Resp β
  | done a, f => f a
  | call r k, f => call r fun x => (k x).bind f

/-- One request, and its answer. -/
def ask (r : Req) : Prog Resp (Resp r) := call r done

/-- `p?`: go on with the value, or return the error. -/
def andThen {ε : Type} (p : Prog Resp (Except ε α)) (f : α → Prog Resp (Except ε β)) :
    Prog Resp (Except ε β) :=
  p.bind fun
    | .error e => done (.error e)
    | .ok a => f a

@[simp] theorem bind_done (a : α) (f : α → Prog Resp β) : (done a).bind f = f a := rfl

@[simp] theorem bind_call (r : Req) (k : Resp r → Prog Resp α) (f : α → Prog Resp β) :
    (call r k).bind f = call r fun x => (k x).bind f := rfl

end Prog

/-! ## 2. A store -/

/-- How a store of type `σ` answers requests, given a fate. -/
structure Api {Req : Type} (Resp : Req → Type) (σ φ : Type) where
  serve : φ → σ → (r : Req) → σ × Resp r

section Alone

variable {Req : Type} {Resp : Req → Type} {α β ε σ φ : Type} (api : Api Resp σ φ)

/-- A program by itself; the fates are those of its requests in turn. -/
def Prog.run : (Nat → φ) → σ → Prog Resp α → σ × α
  | _, s, .done a => (s, a)
  | fates, s, .call r k =>
    run (fun n => fates (n + 1)) (api.serve (fates 0) s r).1 (k (api.serve (fates 0) s r).2)

/-- Whatever happens to its requests, the program ends with `Q`. -/
def Yields (fair : φ → Prop) (Q : α → σ → Prop) : Prog Resp α → σ → Prop
  | .done a, s => Q a s
  | .call r k, s => ∀ fate, fair fate →
      Yields fair Q (k (api.serve fate s r).2) (api.serve fate s r).1

variable {api} {fair : φ → Prop} {Q : α → σ → Prop} {p : Prog Resp α} {s : σ}

theorem Yields.run (h : Yields api fair Q p s) {fates : Nat → φ} (hfates : ∀ n, fair (fates n)) :
    Q (p.run api fates s).2 (p.run api fates s).1 := by
  induction p generalizing s fates with
  | done a => exact h
  | call r k ih => exact ih _ (h (fates 0) (hfates 0)) fun n => hfates (n + 1)

theorem Yields.mono {Q' : α → σ → Prop} (h : Yields api fair Q p s) (hQ : ∀ a s, Q a s → Q' a s) :
    Yields api fair Q' p s := by
  induction p generalizing s with
  | done a => exact hQ a s h
  | call r k ih => exact fun fate hfate => ih _ (h fate hfate)

theorem Yields.bind {Q' : β → σ → Prop} {f : α → Prog Resp β} (h : Yields api fair Q p s)
    (hf : ∀ a s, Q a s → Yields api fair Q' (f a) s) : Yields api fair Q' (p.bind f) s := by
  induction p generalizing s with
  | done a => exact hf a s h
  | call r k ih => exact fun fate hfate => ih _ (h fate hfate)

/-- A program that may fail, and what follows its success. -/
theorem Yields.andThen {Q : Except ε α → σ → Prop} {Q' : Except ε β → σ → Prop} {p : Prog Resp (Except ε α)}
    {f : α → Prog Resp (Except ε β)} (h : Yields api fair Q p s)
    (herror : ∀ e s, Q (.error e) s → Q' (.error e) s)
    (hok : ∀ a s, Q (.ok a) s → Yields api fair Q' (f a) s) : Yields api fair Q' (p.andThen f) s := by
  refine Yields.bind h fun x s hx => ?_
  cases x with
  | error e => exact herror e s hx
  | ok a => exact hok a s hx

/-! ### What a program never asks for -/

/-- No request of the program, whatever is answered, is a `bad` one. -/
def Avoids (bad : Req → Prop) : Prog Resp α → Prop
  | .done _ => True
  | .call r k => ¬ bad r ∧ ∀ x, Avoids bad (k x)

variable {bad : Req → Prop}

theorem Avoids.bind {f : α → Prog Resp β} (h : Avoids bad p) (hf : ∀ a, Avoids bad (f a)) :
    Avoids bad (p.bind f) := by
  induction p with
  | done a => exact hf a
  | call r k ih => exact ⟨h.1, fun x => ih x (h.2 x)⟩

theorem Avoids.andThen {p : Prog Resp (Except ε α)} {f : α → Prog Resp (Except ε β)} (h : Avoids bad p)
    (hf : ∀ a, Avoids bad (f a)) : Avoids bad (p.andThen f) := by
  refine Avoids.bind h fun x => ?_
  cases x with
  | error e => trivial
  | ok a => exact hf a

/-- What all other requests keep, the program keeps. -/
theorem Yields.of_avoids {I : σ → Prop} (hserve : ∀ r fate s, ¬ bad r → I s → I (api.serve fate s r).1)
    (h : Avoids bad p) (hs : I s) : Yields api fair (fun _ s => I s) p s := by
  induction p generalizing s with
  | done a => exact hs
  | call r k ih => exact fun fate _ => ih _ (h.2 _) (hserve r fate s h.1 hs)

end Alone

/-! ## 3. What a program keeps, whatever happens in between -/

section Holds

variable {Req : Type} {Resp : Req → Type} {α β σ φ : Type}

/-- From the store `s` on, the program keeps `R` with every request that has a fair fate, and `Q` holds of its
result from then on, as long as whatever happens besides keeps `R`. -/
def Holds (api : Api Resp σ φ) (fair : Req → φ → Prop) (R : σ → σ → Prop) (Q : α → σ → Prop) :
    Prog Resp α → σ → Prop
  | .done a, s => ∀ s', R s s' → Q a s'
  | .call r k, s => ∀ s', R s s' → ∀ fate, fair r fate →
      R s' (api.serve fate s' r).1 ∧
        Holds api fair R Q (k (api.serve fate s' r).2) (api.serve fate s' r).1

variable {api : Api Resp σ φ} {fair : Req → φ → Prop} {R : σ → σ → Prop} {Q : α → σ → Prop}

/-- What a program is sure of survives what others do. -/
theorem Holds.stable (htrans : ∀ ⦃a b c⦄, R a b → R b c → R a c) {p : Prog Resp α} {s s' : σ}
    (h : Holds api fair R Q p s) (hs : R s s') : Holds api fair R Q p s' := by
  cases p with
  | done a => exact fun t ht => h t (htrans hs ht)
  | call r k => exact fun t ht fate hfate => h t (htrans hs ht) fate hfate

/-- A program and what follows it, which starts where the program has led to. -/
theorem Holds.bind {Q' : β → σ → Prop} (hrefl : ∀ s, R s s) (htrans : ∀ ⦃a b c⦄, R a b → R b c → R a c)
    {p : Prog Resp α} {f : α → Prog Resp β} {s : σ} (h : Holds api fair R Q p s)
    (hf : ∀ a s', R s s' → Q a s' → Holds api fair R Q' (f a) s') : Holds api fair R Q' (p.bind f) s := by
  induction p generalizing s with
  | done a => exact hf a s (hrefl s) (h s (hrefl s))
  | call r k ih =>
    intro s' hs' fate hfate
    obtain ⟨hkeeps, hrest⟩ := h s' hs' fate hfate
    refine ⟨hkeeps, ih _ hrest fun a s'' hs'' ha => hf a s'' ?_ ha⟩
    exact htrans (htrans hs' hkeeps) hs''

/-- A weaker result. -/
theorem Holds.mono {Q' : α → σ → Prop} {p : Prog Resp α} {s : σ} (h : Holds api fair R Q p s)
    (hQ : ∀ a s, Q a s → Q' a s) : Holds api fair R Q' p s := by
  induction p generalizing s with
  | done a => exact fun s' hs' => hQ a s' (h s' hs')
  | call r k ih =>
    intro s' hs' fate hfate
    obtain ⟨hkeeps, hrest⟩ := h s' hs' fate hfate
    exact ⟨hkeeps, ih _ hrest⟩

/-- A program that may fail keeps `R`, and `P` holds for good if it succeeds. -/
def Ensures {ε : Type} (api : Api Resp σ φ) (fair : Req → φ → Prop) (R : σ → σ → Prop) (P : α → σ → Prop)
    (p : Prog Resp (Except ε α)) (s : σ) : Prop :=
  Holds api fair R (fun x s => ∀ v, x = .ok v → P v s) p s

theorem ensures_ok {ε : Type} {P : α → σ → Prop} {a : α} {s : σ} (h : ∀ s', R s s' → P a s') :
    Ensures api fair R P (.done (.ok a : Except ε α)) s := by
  intro s' hs' v hv
  cases hv
  exact h s' hs'

/-- A program that may fail, and what follows its success. -/
theorem Ensures.andThen {ε : Type} {P : α → σ → Prop} {P' : β → σ → Prop} (hrefl : ∀ s, R s s)
    (htrans : ∀ ⦃a b c⦄, R a b → R b c → R a c) {p : Prog Resp (Except ε α)}
    {f : α → Prog Resp (Except ε β)} {s : σ} (h : Ensures api fair R P p s)
    (hf : ∀ a s', R s s' → P a s' → Ensures api fair R P' (f a) s') :
    Ensures api fair R P' (p.andThen f) s := by
  refine Holds.bind hrefl htrans h fun x s' hs' hx => ?_
  cases x with
  | error e => exact fun s'' _ v hv => nomatch hv
  | ok a => exact hf a s' hs' (hx a rfl)

end Holds

/-! ## 4. Pools -/

/-- A program on its way, with what it was started for. -/
structure Task {Req : Type} (Resp : Req → Type) (ι α : Type) where
  label : ι
  prog : Prog Resp α

/-- Tasks over one store. -/
structure Pool {Req : Type} (Resp : Req → Type) (σ ι α : Type) where
  store : σ
  tasks : List (Task Resp ι α)

/-- What can happen to a pool: a task is started, the request of a task is served, or the store is edited. -/
inductive Move (σ φ ι : Type) where
  | start (label : ι)
  | serve (task : Nat) (fate : φ)
  | edit (f : σ → σ)

section Pool

variable {Req : Type} {Resp : Req → Type} {α σ φ ι : Type}

/-- A task after its request has been served. -/
def Task.resume (t : Task Resp ι α) (api : Api Resp σ φ) (fate : φ) (s : σ) : σ × Task Resp ι α :=
  match t.prog with
  | .done _ => (s, t)
  | .call r k => ((api.serve fate s r).1, ⟨t.label, k (api.serve fate s r).2⟩)

/-- The pool of an API and of the programs that labels stand for. -/
def pool (api : Api Resp σ φ) (program : ι → Prog Resp α) : Machine (Pool Resp σ ι α) (Move σ φ ι) Unit where
  step P
    | .start label => (⟨P.store, P.tasks ++ [⟨label, program label⟩]⟩, ())
    | .serve i fate =>
      match P.tasks[i]? with
      | none => (P, ())
      | some t => (⟨(t.resume api fate P.store).1, P.tasks.set i (t.resume api fate P.store).2⟩, ())
    | .edit f => (⟨f P.store, P.tasks⟩, ())

/-- A program and its store after `n` more requests of one fate. -/
def Prog.advance (api : Api Resp σ φ) (fate : φ) : Nat → σ × Prog Resp α → σ × Prog Resp α
  | 0, x => x
  | n + 1, (s, .done a) => advance api fate n (s, .done a)
  | n + 1, (s, .call r k) => advance api fate n ((api.serve fate s r).1, k (api.serve fate s r).2)

/-- A task whose requests are served in a row goes on as if it were alone. -/
theorem exec_serve {api : Api Resp σ φ} {program : ι → Prog Resp α} {P : Pool Resp σ ι α} {i : Nat}
    {t : Task Resp ι α} (h : P.tasks[i]? = some t) (fate : φ) (n : Nat) :
    (pool api program).exec P (List.replicate n (.serve i fate)) =
      ⟨(Prog.advance api fate n (P.store, t.prog)).1,
        P.tasks.set i ⟨t.label, (Prog.advance api fate n (P.store, t.prog)).2⟩⟩ := by
  induction n generalizing P t with
  | zero =>
    obtain ⟨hi, hget⟩ := List.getElem?_eq_some_iff.mp h
    show P = ⟨P.store, P.tasks.set i t⟩
    rw [← hget, List.set_getElem_self]
  | succ n ih =>
    obtain ⟨label, prog⟩ := t
    have hlength : i < P.tasks.length := (List.getElem?_eq_some_iff.mp h).1
    have hstep : ((pool api program).step P (.serve i fate)).1 =
        ⟨(Task.resume ⟨label, prog⟩ api fate P.store).1,
          P.tasks.set i (Task.resume ⟨label, prog⟩ api fate P.store).2⟩ := by
      simp only [pool, h]
    rw [List.replicate_succ, Machine.exec, hstep, ih (List.getElem?_set_self hlength), List.set_set]
    cases prog with
    | done a => rfl
    | call r k => rfl

/-- The moves of a pool that a relation allows: programs that keep it, fair fates, and edits that keep it. -/
structure Allowed (fair : Req → φ → Prop) (R : σ → σ → Prop) (starts : ι → Prop) (P : Pool Resp σ ι α)
    (m : Move σ φ ι) : Prop where
  start : ∀ label, m = .start label → starts label
  serve : ∀ i fate label r k, m = .serve i fate → P.tasks[i]? = some ⟨label, .call r k⟩ → fair r fate
  edit : ∀ f, m = .edit f → R P.store (f P.store)

/-- **What every task of a pool is sure of.**  If each program that is started holds at every store that can come
up, so does each task at any time, and the store has come to where it is by `R`. -/
theorem Pool.holds {api : Api Resp σ φ} {program : ι → Prog Resp α} {fair : Req → φ → Prop}
    {R : σ → σ → Prop} {Q : ι → α → σ → Prop} {starts : ι → Prop} (hrefl : ∀ s, R s s)
    (htrans : ∀ ⦃a b c⦄, R a b → R b c → R a c) {s₀ : σ}
    (hstart : ∀ label, starts label → ∀ s, R s₀ s → Holds api fair R (Q label) (program label) s)
    {run : List (Move σ φ ι)}
    (hrun : ∀ e ∈ (pool api program).trace ⟨s₀, []⟩ run, Allowed fair R starts e.before e.input) :
    R s₀ ((pool api program).exec ⟨s₀, []⟩ run).store ∧
      ∀ t ∈ ((pool api program).exec ⟨s₀, []⟩ run).tasks,
        Holds api fair R (Q t.label) t.prog ((pool api program).exec ⟨s₀, []⟩ run).store := by
  induction run using List.reverseRecOn with
  | nil => exact ⟨hrefl s₀, fun t ht => absurd ht List.not_mem_nil⟩
  | append_singleton run m ih =>
    rw [Machine.trace_append_singleton] at hrun
    obtain ⟨hstore, htasks⟩ := ih fun e he => hrun e (List.mem_append_left _ he)
    have hm := hrun _ (List.mem_append_right _ List.mem_cons_self)
    rw [Machine.exec_append_singleton]
    simp only [Machine.entry] at hm
    generalize (pool api program).exec ⟨s₀, []⟩ run = P at hstore htasks hm ⊢
    -- when the store moves by `R`, the other tasks stay sure of what they were
    have hothers : ∀ s', R P.store s' → ∀ t ∈ P.tasks, Holds api fair R (Q t.label) t.prog s' :=
      fun s' hs' t ht => (htasks t ht).stable htrans hs'
    cases m with
    | start label =>
      refine ⟨hstore, fun t ht => ?_⟩
      rcases List.mem_append.mp ht with ht | ht
      · exact htasks t ht
      · rw [List.mem_singleton.mp ht]
        exact hstart label (hm.start label rfl) _ hstore
    | edit f =>
      have hedit := hm.edit f rfl
      exact ⟨htrans hstore hedit, hothers _ hedit⟩
    | serve i fate =>
      simp only [pool]
      cases hi : P.tasks[i]? with
      | none => exact ⟨hstore, htasks⟩
      | some t =>
        have ht := htasks t (List.mem_of_getElem? hi)
        obtain ⟨label, prog⟩ := t
        cases prog with
        | done a =>
          refine ⟨hstore, fun t' ht' => ?_⟩
          rcases List.mem_or_eq_of_mem_set ht' with ht' | rfl
          · exact htasks t' ht'
          · exact ht
        | call r k =>
          obtain ⟨hkeeps, hrest⟩ := ht P.store (hrefl _) fate (hm.serve i fate label r k rfl hi)
          refine ⟨htrans hstore hkeeps, fun t' ht' => ?_⟩
          rcases List.mem_or_eq_of_mem_set ht' with ht' | rfl
          · exact hothers _ hkeeps t' ht'
          · exact hrest

end Pool

end Picoshift

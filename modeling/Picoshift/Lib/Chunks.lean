/-
# A stream in chunks: reading up to a mark, then copying the rest

A stream reaches its reader as a list of `Read`s, whose boundaries the sender does not choose.
`readUntil` is the loop every line- or head-oriented reader runs: append whole reads to a buffer
until the buffer satisfies `done`.  `copyAll` is what comes after it: pass the remaining reads on
until the stream ends.

The loop takes a WHOLE read each time.  So what it hands to `copyAll` begins at a read boundary
(`readUntil_data`), and the two together pass on exactly what stands behind the mark when a
boundary falls on the mark, and less in every other case (`flatten_drop_eq_iff`).
-/
import Mathlib.Data.List.Basic
import Mathlib.Data.List.Infix

namespace Picoshift

namespace Chunks

variable {α : Type}

/-- One read: some elements (none of them at the end of the stream), or a failure. -/
inductive Read (α : Type) where
  | data (chunk : List α)
  | failed
  deriving DecidableEq, Repr

/-- Append reads to `buf` until it is `done` or the stream ends: the buffer and the reads that
are left.  `none` is a failed read. -/
def readUntil (done : List α → Bool) (buf : List α) :
    List (Read α) → Option (List α × List (Read α))
  | [] => some (buf, [])
  | .failed :: _ => none
  | .data [] :: reads => some (buf, reads)
  | .data (x :: xs) :: reads =>
    if done (buf ++ x :: xs) then some (buf ++ x :: xs, reads)
    else readUntil done (buf ++ x :: xs) reads

/-- Pass reads on until the stream ends or a read fails. -/
def copyAll : List (Read α) → List α
  | [] => []
  | .failed :: _ => []
  | .data [] :: _ => []
  | .data (x :: xs) :: reads => x :: xs ++ copyAll reads

/-- A stream whose every read brings something is copied in full. -/
theorem copyAll_data {chunks : List (List α)} (hne : ∀ c ∈ chunks, c ≠ []) :
    copyAll (chunks.map .data) = chunks.flatten := by
  induction chunks with
  | nil => rfl
  | cons c chunks ih =>
    cases c with
    | nil => exact absurd rfl (hne [] List.mem_cons_self)
    | cons x xs =>
      rw [List.map_cons, copyAll, ih fun d hd => hne d (List.mem_cons_of_mem _ hd),
        List.flatten_cons]

/-- The loop stops at the FIRST read boundary at which the buffer is done, and it has taken the
reads before that boundary and no others. -/
theorem readUntil_data {done : List α → Bool} {chunks : List (List α)} {buf : List α}
    (hne : ∀ c ∈ chunks, c ≠ []) (hbuf : done buf = false)
    (hdone : done (buf ++ chunks.flatten) = true) :
    ∃ k, readUntil done buf (chunks.map .data) =
        some (buf ++ (chunks.take k).flatten, (chunks.drop k).map .data) ∧
      done (buf ++ (chunks.take k).flatten) = true ∧
      ∀ j < k, done (buf ++ (chunks.take j).flatten) = false := by
  induction chunks generalizing buf with
  | nil =>
    rw [List.flatten_nil, List.append_nil, hbuf] at hdone
    cases hdone
  | cons c chunks ih =>
    cases c with
    | nil => exact absurd rfl (hne [] List.mem_cons_self)
    | cons x xs =>
      rw [List.map_cons, readUntil]
      by_cases hc : done (buf ++ x :: xs) = true
      · refine ⟨1, ?_, ?_, ?_⟩
        · simp [hc]
        · simpa using hc
        · intro j hj
          obtain rfl : j = 0 := by omega
          simpa using hbuf
      · rw [Bool.not_eq_true] at hc
        -- the read is taken whole and the loop goes on with the longer buffer
        have hdone' : done ((buf ++ x :: xs) ++ chunks.flatten) = true := by simpa using hdone
        obtain ⟨k, hread, hk, hmin⟩ :=
          ih (fun d hd => hne d (List.mem_cons_of_mem _ hd)) hc hdone'
        refine ⟨k + 1, ?_, ?_, ?_⟩
        · simpa [hc] using hread
        · simpa using hk
        · intro j hj
          cases j with
          | zero => simpa using hbuf
          | succ j => simpa using hmin j (by omega)

/-- A buffer that is never done takes the whole stream. -/
theorem readUntil_never {done : List α → Bool} {chunks : List (List α)} {buf : List α}
    (hne : ∀ c ∈ chunks, c ≠ []) (hnever : ∀ k, done (buf ++ (chunks.take k).flatten) = false) :
    readUntil done buf (chunks.map .data) = some (buf ++ chunks.flatten, []) := by
  induction chunks generalizing buf with
  | nil => simp [readUntil]
  | cons c chunks ih =>
    cases c with
    | nil => exact absurd rfl (hne [] List.mem_cons_self)
    | cons x xs =>
      have hfirst : done (buf ++ x :: xs) = false := by simpa using hnever 1
      have hnext : ∀ k, done ((buf ++ x :: xs) ++ (chunks.take k).flatten) = false := by
        intro k
        simpa using hnever (k + 1)
      rw [List.map_cons, readUntil, hfirst, if_neg Bool.false_ne_true,
        ih (fun d hd => hne d (List.mem_cons_of_mem _ hd)) hnext]
      simp

/-- What is behind a boundary is what is behind the mark, exactly when the boundary is the
mark. -/
theorem flatten_drop_eq_iff {chunks : List (List α)} {front back : List α} {k : Nat}
    (hall : chunks.flatten = front ++ back) :
    (chunks.drop k).flatten = back ↔ (chunks.take k).flatten = front := by
  have hsplit : (chunks.take k).flatten ++ (chunks.drop k).flatten = front ++ back := by
    rw [← List.flatten_append, List.take_append_drop, hall]
  constructor
  · intro h
    rw [h] at hsplit
    exact List.append_cancel_right hsplit
  · intro h
    rw [h] at hsplit
    exact List.append_cancel_left hsplit

/-- At a boundary behind the mark, what lies between the two is missing from what is left. -/
theorem between_append_flatten_drop {chunks : List (List α)} {front back extra : List α} {k : Nat}
    (hall : chunks.flatten = front ++ back) (hk : front ++ extra = (chunks.take k).flatten) :
    extra ++ (chunks.drop k).flatten = back := by
  have hsplit : front ++ (extra ++ (chunks.drop k).flatten) = front ++ back := by
    rw [← List.append_assoc, hk, ← List.flatten_append, List.take_append_drop, hall]
  exact List.append_cancel_left hsplit

/-- Boundaries come in the order of the stream. -/
theorem flatten_take_prefix (chunks : List (List α)) {j k : Nat} (h : j ≤ k) :
    (chunks.take j).flatten <+: (chunks.take k).flatten := by
  obtain ⟨m, rfl⟩ := Nat.exists_eq_add_of_le h
  rw [List.take_add, List.flatten_append]
  exact List.prefix_append _ _

end Chunks

end Picoshift

/-
# SipHash

A keyed hash on 64-bit words: `c` rounds for every word of the input and `d` for
the end.  The words are read with the least byte first; the last one has the bytes that are left over and, in
its top byte, the length of the input.
-/
import Mathlib.Data.UInt

namespace Picoshift.SipHash

/-- The four words of the state. -/
structure State where
  v0 : UInt64
  v1 : UInt64
  v2 : UInt64
  v3 : UInt64

/-- A word turned left. -/
def rotl (x : UInt64) (b : UInt64) : UInt64 := (x <<< b) ||| (x >>> (64 - b))

/-- One round: the two halves are mixed, and then crosswise. -/
def State.round (s : State) : State :=
  let v0 := s.v0 + s.v1
  let v1 := rotl s.v1 13 ^^^ v0
  let v0 := rotl v0 32
  let v2 := s.v2 + s.v3
  let v3 := rotl s.v3 16 ^^^ v2
  let v0 := v0 + v3
  let v3 := rotl v3 21 ^^^ v0
  let v2 := v2 + v1
  let v1 := rotl v1 17 ^^^ v2
  let v2 := rotl v2 32
  ⟨v0, v1, v2, v3⟩

/-- A number of rounds. -/
def State.rounds : Nat → State → State
  | 0, s => s
  | n + 1, s => State.rounds n s.round

/-- One word of the input goes in. -/
def State.compress (c : Nat) (s : State) (m : UInt64) : State :=
  let s := State.rounds c { s with v3 := s.v3 ^^^ m }
  { s with v0 := s.v0 ^^^ m }

/-- The word of some bytes, the least one first. -/
def word : List UInt8 → UInt64
  | [] => 0
  | b :: bs => b.toUInt64 ||| (word bs <<< 8)

/-- The input of a length goes in, eight bytes at a time. -/
def State.absorb (c len : Nat) (s : State) : List UInt8 → State
  | b0 :: b1 :: b2 :: b3 :: b4 :: b5 :: b6 :: b7 :: rest =>
    State.absorb c len (s.compress c (word [b0, b1, b2, b3, b4, b5, b6, b7])) rest
  | rest => s.compress c (word rest ||| (UInt64.ofNat len <<< 56))

/-- SipHash-`c`-`d` under two keys. -/
def hash (c d : Nat) (k0 k1 : UInt64) (bytes : List UInt8) : UInt64 :=
  let s : State := ⟨k0 ^^^ 0x736f6d6570736575, k1 ^^^ 0x646f72616e646f6d, k0 ^^^ 0x6c7967656e657261,
    k1 ^^^ 0x7465646279746573⟩
  let s := s.absorb c bytes.length bytes
  let s := State.rounds d { s with v2 := s.v2 ^^^ 0xff }
  s.v0 ^^^ s.v1 ^^^ s.v2 ^^^ s.v3

end Picoshift.SipHash

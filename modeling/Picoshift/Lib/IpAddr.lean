/-
# Reading and writing IP addresses

`s.parse::<IpAddr>()` of the standard library: dotted decimal without leading zeros, or groups of
hexadecimal digits with at most one `::`, where an IPv4 address may stand in the place of the last
two groups.  The readers take characters off the front of a text and return what is left of it;
`parse` wants nothing left.

`display` is how an address is written: IPv6 in lower case, with `::` for the first of the longest runs of
zeros, and with the IPv4 address in it where it is one.  It is made of letters, digits, dots and colons, and of
colons an address that was read has eight at most (`display_chars`, `count_display`).
-/
import Mathlib.Data.List.Basic

namespace Picoshift

/-- An address, as its four bytes or its eight groups. -/
inductive IpAddr where
  | v4 (octets : List Nat)
  | v6 (segments : List Nat)
  deriving DecidableEq, Repr

namespace IpAddr

/-- `c.to_digit(radix)`, up to hexadecimal. -/
def toDigit (radix : Nat) (c : Char) : Option Nat :=
  let d :=
    if '0' ≤ c ∧ c ≤ '9' then c.toNat - '0'.toNat
    else if 'a' ≤ c ∧ c ≤ 'f' then c.toNat - 'a'.toNat + 10
    else if 'A' ≤ c ∧ c ≤ 'F' then c.toNat - 'A'.toNat + 10
    else radix
  if d < radix then some d else none

/-- `read_number`: all the digits there are, at most `maxDigits` of them, below `bound`. -/
def readNumber (radix maxDigits bound : Nat) (zeroPrefix : Bool) (l : List Char) :
    Option (Nat × List Char) :=
  let digits := (l.takeWhile fun c => (toDigit radix c).isSome).filterMap (toDigit radix)
  let value := digits.foldl (fun n d => n * radix + d) 0
  if digits = [] ∨ maxDigits < digits.length ∨ bound ≤ value then none
  else if zeroPrefix = false ∧ l.head? = some '0' ∧ 1 < digits.length then none
  else some (value, l.drop digits.length)

/-- `read_separator`: the separator is read in front of every item but the first. -/
def readSeparator {β : Type} (sep : Char) (index : Nat)
    (read : List Char → Option (β × List Char)) (l : List Char) : Option (β × List Char) :=
  if index = 0 then read l
  else match l with
    | c :: l => if c = sep then read l else none
    | [] => none

/-- The items `index`, `index + 1`, …, `n` of them. -/
def readOctets (index : Nat) : Nat → List Char → Option (List Nat × List Char)
  | 0, l => some ([], l)
  | n + 1, l =>
    (readSeparator '.' index (readNumber 10 3 256 false) l).bind fun (o, l) =>
      (readOctets (index + 1) n l).map fun (os, l) => (o :: os, l)

/-- `read_ipv4_addr`. -/
def readIpv4 (l : List Char) : Option (List Nat × List Char) := readOctets 0 4 l

/-- `read_groups`: up to `room` groups from the one numbered `index` on, and whether they end in
an IPv4 address. -/
def readGroups (index : Nat) : (room : Nat) → List Char → List Nat × Bool × List Char
  | 0, l => ([], false, l)
  | room + 1, l =>
    match if room = 0 then none else readSeparator ':' index readIpv4 l with
    | some ([a, b, c, d], l) => ([a * 256 + b, c * 256 + d], true, l)
    | _ =>
      match readSeparator ':' index (readNumber 16 4 65536 true) l with
      | some (g, l) =>
        let (gs, ipv4, l) := readGroups (index + 1) room l
        (g :: gs, ipv4, l)
      | none => ([], false, l)

/-- `read_ipv6_addr`. -/
def readIpv6 (l : List Char) : Option (List Nat × List Char) :=
  let (head, ipv4, l) := readGroups 0 8 l
  if head.length = 8 then some (head, l)
  else if ipv4 then none
  else match l with
    | ':' :: ':' :: l =>
      let (tail, _, l) := readGroups 0 (7 - head.length) l
      some (head ++ List.replicate (8 - head.length - tail.length) 0 ++ tail, l)
    | _ => none

/-- `s.parse::<IpAddr>().ok()`: IPv4 is tried first. -/
def parse (s : String) : Option IpAddr :=
  match readIpv4 s.toList with
  | some (octets, rest) => if rest = [] then some (v4 octets) else none
  | none =>
    match readIpv6 s.toList with
    | some (segments, []) => some (v6 segments)
    | _ => none

example : parse "10.96.0.1" = some (v4 [10, 96, 0, 1]) := by decide +kernel
example : parse "fd00::1:10.0.0.7" = some (v6 [0xfd00, 0, 0, 0, 0, 1, 0x0a00, 7]) := by
  decide +kernel
example : parse "10.096.0.1" = none ∧ parse "1:2" = none ∧ parse "None" = none := by
  decide +kernel

/-! ## Reading gives four bytes or eight groups -/

def WellFormed : IpAddr → Prop
  | v4 octets => octets.length = 4
  | v6 segments => segments.length = 8

theorem length_readOctets {index n : Nat} {l rest : List Char} {os : List Nat}
    (h : readOctets index n l = some (os, rest)) : os.length = n := by
  induction n generalizing index l os with
  | zero =>
    cases h
    rfl
  | succ n ih =>
    rw [readOctets] at h
    obtain ⟨⟨o, l₁⟩, -, h⟩ := Option.bind_eq_some_iff.mp h
    obtain ⟨⟨os', rest'⟩, hread, heq⟩ := Option.map_eq_some_iff.mp h
    cases heq
    rw [List.length_cons, ih hread]

theorem length_readGroups (index room : Nat) (l : List Char) : (readGroups index room l).1.length ≤ room := by
  induction room generalizing index l with
  | zero => exact Nat.le_refl 0
  | succ room ih =>
    rw [readGroups]
    split
    · -- an IPv4 address counts for two groups, and is not read where there is room for one
      rename_i hread
      split at hread
      · cases hread
      · rename_i hroom
        simp
        omega
    · split
      · exact Nat.succ_le_succ (ih _ _)
      · exact Nat.zero_le _

theorem length_readIpv6 {l rest : List Char} {segments : List Nat} (h : readIpv6 l = some (segments, rest)) :
    segments.length = 8 := by
  rw [readIpv6] at h
  have hhead := length_readGroups 0 8 l
  generalize readGroups 0 8 l = groups at h hhead
  obtain ⟨head, ipv4, l₁⟩ := groups
  dsimp only at h hhead
  split at h
  · rename_i height
    cases h
    exact height
  split at h
  · cases h
  split at h
  · rename_i l₂
    have htail := length_readGroups 0 (7 - head.length) l₂
    cases h
    rw [List.length_append, List.length_append, List.length_replicate]
    omega
  · cases h

theorem wellFormed_of_parse {s : String} {ip : IpAddr} (h : parse s = some ip) : ip.WellFormed := by
  rw [parse] at h
  split at h
  · rename_i hread
    split at h
    · cases h
      exact length_readOctets hread
    · cases h
  · split at h
    · rename_i hread
      cases h
      exact length_readIpv6 hread
    · cases h

/-! ## Writing -/

/-- `a.b.c.d`. -/
def displayV4 (octets : List Nat) : List Char := List.intercalate ['.'] (octets.map (Nat.toDigits 10))

/-- `fmt_subslice`: groups in hexadecimal, with colons. -/
def displayGroups (segments : List Nat) : List Char :=
  List.intercalate [':'] (segments.map (Nat.toDigits 16))

/-- The first of the longest runs of zeros, as its start and its length; `i` groups are done. -/
def longestZeros (i : Nat) (current longest : Nat × Nat) : List Nat → Nat × Nat
  | [] => longest
  | g :: gs =>
    if g = 0 then
      let current := if current.2 = 0 then (i, 1) else (current.1, current.2 + 1)
      longestZeros (i + 1) current (if longest.2 < current.2 then current else longest) gs
    else longestZeros (i + 1) (0, 0) longest gs

def displayV6 (segments : List Nat) : List Char :=
  match segments with
  | [0, 0, 0, 0, 0, 0xffff, a, b] =>
    [':', ':', 'f', 'f', 'f', 'f', ':'] ++ displayV4 [a / 256, a % 256, b / 256, b % 256]
  | segments =>
    let (start, len) := longestZeros 0 (0, 0) (0, 0) segments
    if 1 < len then
      displayGroups (segments.take start) ++ [':', ':'] ++ displayGroups (segments.drop (start + len))
    else displayGroups segments

/-- `ip.to_string()`. -/
def display : IpAddr → List Char
  | v4 octets => displayV4 octets
  | v6 segments => displayV6 segments

example : display (v6 [0xfd00, 0, 0, 0, 0, 1, 0, 7]) = "fd00::1:0:7".toList := by decide +kernel
example : display (v6 [0, 0, 0, 0, 0, 0xffff, 0x0a00, 7]) = "::ffff:10.0.0.7".toList := by decide +kernel

/-- The characters of an address. -/
def isAddrChar (c : Char) : Bool := c.isAlphanum || c == '.' || c == ':'

/-- The digits of a number are letters or digits. -/
theorem isAlphanum_of_mem_toDigits {b n : Nat} (h1 : 1 < b) (h16 : b ≤ 16) {c : Char}
    (hc : c ∈ Nat.toDigits b n) : c.isAlphanum = true := by
  have hdigit : ∀ d < 16, d.digitChar.isAlphanum = true := by decide
  induction n using Nat.strongRecOn with
  | ind n ih =>
    rw [Nat.toDigits_eq_if h1] at hc
    split at hc
    · rename_i hlt
      rw [List.mem_singleton.mp hc]
      exact hdigit n (by omega)
    · rename_i hge
      rcases List.mem_append.mp hc with hc | hc
      · exact ih (n / b) (Nat.div_lt_self (by omega) h1) hc
      · rw [List.mem_singleton.mp hc]
        have hmod := Nat.mod_lt n (Nat.lt_of_succ_lt h1)
        exact hdigit _ (by omega)

/-- What is joined is made of the parts and the separators. -/
theorem mem_intercalate {sep c : Char} {ls : List (List Char)} (h : c ∈ List.intercalate [sep] ls) :
    c = sep ∨ ∃ l ∈ ls, c ∈ l := by
  induction ls with
  | nil => cases h
  | cons l ls ih =>
    cases ls with
    | nil => exact Or.inr ⟨l, List.mem_cons_self, by simpa [List.intercalate] using h⟩
    | cons l' ls =>
      rw [List.intercalate_cons_cons, List.mem_append, List.mem_append, List.mem_singleton] at h
      rcases h with (h | h) | h
      · exact Or.inr ⟨l, List.mem_cons_self, h⟩
      · exact Or.inl h
      · rcases ih h with h | ⟨m, hm, h⟩
        · exact Or.inl h
        · exact Or.inr ⟨m, List.mem_cons_of_mem _ hm, h⟩

theorem displayV4_chars {octets : List Nat} {c : Char} (h : c ∈ displayV4 octets) :
    c.isAlphanum = true ∨ c = '.' := by
  rcases mem_intercalate h with h | ⟨l, hl, h⟩
  · exact Or.inr h
  · obtain ⟨n, -, rfl⟩ := List.mem_map.mp hl
    exact Or.inl (isAlphanum_of_mem_toDigits (by decide) (by decide) h)

theorem displayGroups_chars {segments : List Nat} {c : Char} (h : c ∈ displayGroups segments) :
    c.isAlphanum = true ∨ c = ':' := by
  rcases mem_intercalate h with h | ⟨l, hl, h⟩
  · exact Or.inr h
  · obtain ⟨n, -, rfl⟩ := List.mem_map.mp hl
    exact Or.inl (isAlphanum_of_mem_toDigits (by decide) (by decide) h)

/-- An address is written in letters, digits, dots and colons. -/
theorem display_chars (ip : IpAddr) {c : Char} (h : c ∈ ip.display) : isAddrChar c = true := by
  have hv4 : ∀ {octets}, c ∈ displayV4 octets → isAddrChar c = true := by
    intro octets hc
    rcases displayV4_chars hc with hc | rfl
    · simp [isAddrChar, hc]
    · rfl
  have hgroups : ∀ {segments}, c ∈ displayGroups segments → isAddrChar c = true := by
    intro segments hc
    rcases displayGroups_chars hc with hc | rfl
    · simp [isAddrChar, hc]
    · rfl
  cases ip with
  | v4 octets => exact hv4 h
  | v6 segments =>
    rw [display] at h
    unfold displayV6 at h
    split at h
    · rcases List.mem_append.mp h with h | h
      · have hmapped : [':', ':', 'f', 'f', 'f', 'f', ':'].all isAddrChar = true := by decide
        exact List.all_eq_true.mp hmapped c h
      · exact hv4 h
    · dsimp only at h
      split at h
      · rcases List.mem_append.mp h with h | h
        · rcases List.mem_append.mp h with h | h
          · exact hgroups h
          · have hcolons : [':', ':'].all isAddrChar = true := by decide
            exact List.all_eq_true.mp hcolons c h
        · exact hgroups h
      · exact hgroups h

theorem colon_not_mem_toDigits {b n : Nat} (h1 : 1 < b) (h16 : b ≤ 16) : ':' ∉ Nat.toDigits b n :=
  fun h => absurd (isAlphanum_of_mem_toDigits h1 h16 h) (by decide)

/-- Joining with colons makes no more of them than there are groups. -/
theorem count_displayGroups (segments : List Nat) : (displayGroups segments).count ':' ≤ segments.length := by
  have hdigits : ∀ n, (Nat.toDigits 16 n).count ':' = 0 := fun n =>
    List.count_eq_zero.mpr (colon_not_mem_toDigits (by decide) (by decide))
  induction segments with
  | nil => exact Nat.le_refl 0
  | cons g gs ih =>
    cases gs with
    | nil =>
      rw [displayGroups, List.map_cons, List.map_nil, List.intercalate_singleton, hdigits]
      exact Nat.zero_le _
    | cons g' gs =>
      have hjoin : displayGroups (g :: g' :: gs) = Nat.toDigits 16 g ++ [':'] ++ displayGroups (g' :: gs) :=
        List.intercalate_cons_cons
      rw [hjoin, List.count_append, List.count_append, hdigits, List.count_singleton_self, List.length_cons]
      omega

theorem count_displayV4 (octets : List Nat) : (displayV4 octets).count ':' = 0 := by
  refine List.count_eq_zero.mpr fun h => ?_
  rcases displayV4_chars h with h | h
  · exact absurd h (by decide)
  · exact absurd h (by decide)

theorem longestZeros_le (i : Nat) (current longest : Nat × Nat) (gs : List Nat)
    (hcurrent : current.1 + current.2 ≤ i) (hlongest : longest.1 + longest.2 ≤ i) :
    (longestZeros i current longest gs).1 + (longestZeros i current longest gs).2 ≤ i + gs.length := by
  induction gs generalizing i current longest with
  | nil => exact hlongest
  | cons g gs ih =>
    rw [longestZeros, List.length_cons]
    split
    · have hnext : (if current.2 = 0 then (i, 1) else (current.1, current.2 + 1)).1 +
          (if current.2 = 0 then (i, 1) else (current.1, current.2 + 1)).2 ≤ i + 1 := by
        split
        · exact Nat.le_refl _
        · dsimp only
          omega
      have hbest : ∀ a b : Nat × Nat, a.1 + a.2 ≤ i + 1 → b.1 + b.2 ≤ i + 1 →
          (if b.2 < a.2 then a else b).1 + (if b.2 < a.2 then a else b).2 ≤ i + 1 := by
        intro a b ha hb
        split
        · exact ha
        · exact hb
      have := ih (i + 1) _ _ hnext (hbest _ longest hnext (by omega))
      dsimp only
      omega
    · have := ih (i + 1) (0, 0) longest (Nat.zero_le _) (by omega)
      omega

/-- **An address that was read has eight colons at most.** -/
theorem count_display {ip : IpAddr} (h : ip.WellFormed) : ip.display.count ':' ≤ 8 := by
  cases ip with
  | v4 octets =>
    rw [display, count_displayV4]
    exact Nat.zero_le 8
  | v6 segments =>
    have hlength : segments.length = 8 := h
    rw [display]
    unfold displayV6
    split
    · rw [List.count_append, count_displayV4]
      decide
    · have hzeros := longestZeros_le 0 (0, 0) (0, 0) segments (Nat.le_refl 0) (Nat.le_refl 0)
      dsimp only
      generalize longestZeros 0 (0, 0) (0, 0) segments = zeros at hzeros ⊢
      split
      · -- the run of zeros makes room for its two colons
        rename_i hlen
        have hfront := count_displayGroups (segments.take zeros.1)
        have hback := count_displayGroups (segments.drop (zeros.1 + zeros.2))
        have htwo : [':', ':'].count ':' = 2 := by decide
        rw [List.length_take] at hfront
        rw [List.length_drop] at hback
        rw [List.count_append, List.count_append, htwo]
        omega
      · rw [← hlength]
        exact count_displayGroups segments

end IpAddr

end Picoshift

/-
# The head of an answer, however it arrives

`ws_handshake_and_tunnel` collects reads until they hold CRLFCRLF, and then looks for lines in everything
it has collected.  How much that is depends on how the stream was cut into reads: a buffer may end with
the head, or hold any part of what follows it, up to half a character.

What the function makes of a buffer is a `Reading`: whether it tunnels, the status and the header fields.
None of it depends on the cut.  The reading of every buffer is the reading of the stream's HEAD, which is
the part up to the first CRLFCRLF, or the whole stream where there is none (`readHead_of_readUntil`).
-/
import Picoshift.Proxy.Tunnel

namespace Picoshift.Proxy

open Chunks (Read readUntil)

/-! ## 1. What is made of a buffer -/

/-- What the function makes of the answer: whether it tunnels, and the status and the header fields of
its own answer to the client. -/
structure Reading where
  tunnels : Bool
  status : Nat
  headers : List (String × String)
  deriving DecidableEq, Repr

/-- The reading of a buffer. -/
def readHead (respBuf : List UInt8) : Reading :=
  let tunnels := Str.contains (firstLine respBuf) "101"
  ⟨tunnels, if tunnels then 101 else refusalStatus respBuf, respHeaders respBuf⟩

/-- The answer to the client. -/
def Reading.response (full : List String → Bool) (reading : Reading) : Option Response :=
  (reading.headers.foldl (Builder.header full) (Builder.status reading.status)).body ""

/-- The function answers what its reading of the buffer says. -/
theorem response_of_readUntil {reads : List (Read UInt8)} {buf : List UInt8} {rest : List (Read UInt8)}
    (h : readUntil hasTerminator [] reads = some (buf, rest)) (full : List String → Bool) (req : UpgradeRequest)
    (host path : String) (tlsIncoming : Bool) (client : ClientSide) :
    (wsHandshakeAndTunnel full req host path tlsIncoming ⟨true, reads⟩ client).response =
      (readHead buf).response full := by
  rw [wsHandshakeAndTunnel, if_neg Bool.noConfusion, h, Reading.response, readHead]
  dsimp only
  cases Str.contains (firstLine buf) "101" with
  | false => rfl
  | true =>
    rw [if_neg (by decide), if_pos rfl]
    cases ((respHeaders buf).foldl (Builder.header full) (Builder.status 101)).body "" <;> rfl

/-! ## 2. The head of a stream -/

/-- The stream up to its first CRLFCRLF, or the whole of it. -/
def headOf : List UInt8 → List UInt8
  | [] => []
  | b :: bs => if crlfcrlf.isPrefixOf (b :: bs) then crlfcrlf else b :: headOf bs

theorem hasTerminator_cons (b : UInt8) (bs : List UInt8) :
    hasTerminator (b :: bs) = (crlfcrlf.isPrefixOf (b :: bs) || hasTerminator bs) := by
  rw [Bool.eq_iff_iff, Bool.or_eq_true, hasTerminator_iff, hasTerminator_iff, List.isPrefixOf_iff_prefix,
    List.infix_cons_iff]

theorem hasTerminator_mono {a b : List UInt8} (h : a <+: b) (ha : hasTerminator a = true) :
    hasTerminator b = true :=
  hasTerminator_iff.mpr ((hasTerminator_iff.mp ha).trans h.isInfix)

theorem headOf_of_not {stream : List UInt8} (h : hasTerminator stream = false) :
    headOf stream = stream := by
  induction stream with
  | nil => rfl
  | cons b bs ih =>
    rw [hasTerminator_cons, Bool.or_eq_false_iff] at h
    rw [headOf, h.1, if_neg Bool.false_ne_true, ih h.2]

/-- The head begins the stream and ends in CRLFCRLF. -/
theorem headOf_spec {stream : List UInt8} (h : hasTerminator stream = true) :
    crlfcrlf <:+ headOf stream ∧ headOf stream <+: stream := by
  induction stream with
  | nil => exact absurd h (by decide)
  | cons b bs ih =>
    rw [hasTerminator_cons, Bool.or_eq_true] at h
    rw [headOf]
    split
    · rename_i hbegins
      exact ⟨List.suffix_rfl, List.isPrefixOf_iff_prefix.mp hbegins⟩
    · rename_i hbegins
      obtain ⟨hends, hpre⟩ := ih (h.resolve_left hbegins)
      exact ⟨hends.trans (List.suffix_cons b _), List.cons_prefix_cons.mpr ⟨rfl, hpre⟩⟩

/-- What follows a head does not change it. -/
theorem headOf_append {stream : List UInt8} (h : hasTerminator stream = true) (extra : List UInt8) :
    headOf (stream ++ extra) = headOf stream := by
  induction stream with
  | nil => exact absurd h (by decide)
  | cons b bs ih =>
    rw [hasTerminator_cons, Bool.or_eq_true] at h
    rw [List.cons_append, headOf, headOf]
    by_cases hbegins : crlfcrlf.isPrefixOf (b :: bs) = true
    · have hlonger : crlfcrlf.isPrefixOf (b :: (bs ++ extra)) = true :=
        List.isPrefixOf_iff_prefix.mpr
          ((List.isPrefixOf_iff_prefix.mp hbegins).trans (List.prefix_append (b :: bs) extra))
      rw [if_pos hlonger, if_pos hbegins]
    · have hrest := h.resolve_left hbegins
      rw [if_neg hbegins, ih hrest]
      split
      · rename_i hlonger
        -- a CRLFCRLF at the beginning would have to end inside `bs`, which holds a later one
        have hlength : crlfcrlf.length ≤ (b :: bs).length :=
          (hasTerminator_iff.mp hrest).length_le.trans (Nat.le_succ _)
        exact absurd (List.isPrefixOf_iff_prefix.mpr (List.prefix_of_prefix_length_le
          (List.isPrefixOf_iff_prefix.mp hlonger) (List.prefix_append (b :: bs) extra) hlength)) hbegins
      · rfl

/-! ## 3. The reading of a stream -/

/-- A buffer that holds the head is read as the head alone. -/
theorem readHead_headOf {buf : List UInt8} (h : hasTerminator buf = true) :
    readHead buf = readHead (headOf buf) := by
  obtain ⟨hends, extra, hextra⟩ := headOf_spec h
  obtain ⟨hline, hheaders⟩ := view_append hends extra
  rw [hextra] at hline hheaders
  rw [readHead, readHead, refusalStatus, refusalStatus, hline, hheaders]

/-- The loop ends with a buffer that holds the head of the stream, if it has one, and that is read as
this head. -/
theorem readHead_of_readUntil {chunks : List (List UInt8)} (hne : ∀ c ∈ chunks, c ≠ []) :
    ∃ buf rest, readUntil hasTerminator [] (chunks.map .data) = some (buf, rest) ∧
      hasTerminator buf = hasTerminator chunks.flatten ∧
      readHead buf = readHead (headOf chunks.flatten) := by
  have hbegins : ∀ k, (chunks.take k).flatten <+: chunks.flatten :=
    fun k => (List.take_prefix k chunks).flatten
  cases hterm : hasTerminator chunks.flatten with
  | true =>
    have hall : hasTerminator ([] ++ chunks.flatten) = true := hterm
    obtain ⟨k, hread, hdone, -⟩ := Chunks.readUntil_data hne (by decide) hall
    rw [List.nil_append] at hread hdone
    obtain ⟨extra, hextra⟩ := hbegins k
    refine ⟨_, _, hread, hdone, ?_⟩
    rw [readHead_headOf hdone, ← hextra, headOf_append hdone]
  | false =>
    have hnever : ∀ k, hasTerminator ([] ++ (chunks.take k).flatten) = false := by
      intro k
      rw [← Bool.not_eq_true]
      intro hk
      rw [hasTerminator_mono (hbegins k) hk] at hterm
      cases hterm
    refine ⟨_, _, Chunks.readUntil_never hne hnever, hterm, ?_⟩
    rw [List.nil_append, headOf_of_not hterm]

/-- What two cuts of one stream into reads have in common: the loop ends on both, with the end of the head
in the buffer where there is one, both buffers are read as the head of the stream alone, and the client
gets the same answer. -/
structure SameAnswer (full : List String → Bool) (answer : List (Read UInt8) → Option Response)
    (reads reads' : List (Read UInt8)) (stream : List UInt8) : Prop where
  reading : ∃ buf rest buf' rest', readUntil hasTerminator [] reads = some (buf, rest) ∧
    readUntil hasTerminator [] reads' = some (buf', rest') ∧
    hasTerminator buf = hasTerminator stream ∧ hasTerminator buf' = hasTerminator stream ∧
    readHead buf = readHead (headOf stream) ∧ readHead buf' = readHead (headOf stream)
  answered : answer reads = (readHead (headOf stream)).response full
  same : answer reads = answer reads'

/-- **The answer does not depend on how the stream was cut into reads.** -/
theorem answer_independent_of_split (full : List String → Bool) (req : UpgradeRequest) (host path : String)
    (tlsIncoming : Bool) (client : ClientSide) {chunks chunks' : List (List UInt8)} (hne : ∀ c ∈ chunks, c ≠ [])
    (hne' : ∀ c ∈ chunks', c ≠ []) (hstream : chunks.flatten = chunks'.flatten) :
    SameAnswer full (fun reads =>
        (wsHandshakeAndTunnel full req host path tlsIncoming ⟨true, reads⟩ client).response)
      (chunks.map .data) (chunks'.map .data) chunks.flatten := by
  obtain ⟨buf, rest, hread, hterm, hhead⟩ := readHead_of_readUntil hne
  obtain ⟨buf', rest', hread', hterm', hhead'⟩ := readHead_of_readUntil hne'
  rw [← hstream] at hterm' hhead'
  have hanswer := response_of_readUntil hread full req host path tlsIncoming client
  have hanswer' := response_of_readUntil hread' full req host path tlsIncoming client
  rw [hhead] at hanswer
  rw [hhead'] at hanswer'
  exact ⟨⟨buf, rest, buf', rest', hread, hread', hterm, hterm', hhead, hhead'⟩, hanswer,
    hanswer.trans hanswer'.symm⟩

/-- A refusal in one read, and the same bytes with a cut inside the CRLFCRLF and inside a character
behind it. -/
theorem answer_independent_of_split_refusal :
    SameAnswer manyNames (fun reads =>
        (wsHandshakeAndTunnel manyNames ⟨"GET", []⟩ "app.test" "/ws" true ⟨true, reads⟩ .staysOpen).response)
      ([Utf8.encode "HTTP/1.1 404 Not Found\r\nServer: app\r\n\r\n" ++ [0xc3, 0xa9]].map .data)
      ([Utf8.encode "HTTP/1.1 404 Not Found\r\nServer: app\r", Utf8.encode "\n\r",
        Utf8.encode "\n" ++ [0xc3], [0xa9]].map .data)
      [Utf8.encode "HTTP/1.1 404 Not Found\r\nServer: app\r\n\r\n" ++ [0xc3, 0xa9]].flatten :=
  answer_independent_of_split _ _ _ _ _ _ (by decide +kernel) (by decide +kernel) (by decide +kernel)

end Picoshift.Proxy

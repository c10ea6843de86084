/-
# The WebSocket tunnel of the proxy

`ws_handshake_and_tunnel` sends the client's upgrade request to the upstream, reads the head of
the answer, and, when that is a 101, answers the client and copies bytes in both directions until
one direction ends.

The head is read by `Chunks.readUntil`: whole reads are appended to `resp_buf` until it holds
CRLFCRLF.  Everything that is in `resp_buf` behind the CRLFCRLF was TAKEN from the stream, and the
function looks at `resp_buf` for the status line and the header lines only.  So frame bytes that
arrive in the same read as the end of the head are never copied to the client:

* `tunnel_exact_iff`: the client receives exactly the bytes behind the head when some read ends at
  the last byte of the head and the client takes that many bytes, and in NO other case (a head with more
  header names than fit into a map apart, which ends in a panic);
* `tunnel_infix`: in every case what it receives is a contiguous part of those bytes, so nothing
  is duplicated, reordered or invented.
-/
import Picoshift.Lib.Chunks
import Picoshift.Lib.HeaderMap
import Picoshift.Lib.Str
import Picoshift.Lib.Utf8

namespace Picoshift.Proxy

open Chunks (Read)

/-! ## 1. The response builder of the `http` crate -/

/-- A response as the proxy hands it to `hyper`. -/
structure Response where
  status : Nat
  headers : List (String × String)
  body : String
  deriving DecidableEq, Repr

/-- The characters of a header name. -/
def isTokenChar (c : Char) : Bool :=
  c.isAlphanum || "!#$%&'*+-.^_|~".toList.contains c || c = Char.ofNat 0x60

theorem isAlphanum_bound {c : Char} (h : c.isAlphanum = true) :
    48 ≤ c.toNat ∧ c.toNat ≤ 122 ∧ c.toNat ≠ 58 := by
  have hval : c.toNat = c.val.toNat := rfl
  have hranges : (decide ('A'.val ≤ c.val ∧ c.val ≤ 'Z'.val) ||
      (decide ('a'.val ≤ c.val) && decide (c.val ≤ 'z'.val)) ||
      (decide ('0'.val ≤ c.val) && decide (c.val ≤ '9'.val))) = true := h
  simp only [Bool.or_eq_true, Bool.and_eq_true, decide_eq_true_eq, UInt32.le_iff_toNat_le] at hranges
  rw [hval]
  simp at hranges
  omega

/-- A character of a header name is visible and no colon. -/
theorem isTokenChar_range {c : Char} (h : isTokenChar c = true) :
    33 ≤ c.toNat ∧ c.toNat ≤ 126 ∧ c ≠ ':' := by
  simp only [isTokenChar, Bool.or_eq_true, decide_eq_true_eq, or_assoc] at h
  rcases h with h | h | rfl
  · obtain ⟨hlow, hhigh, hcolon⟩ := isAlphanum_bound h
    refine ⟨by omega, by omega, ?_⟩
    rintro rfl
    exact hcolon rfl
  · have hall : ∀ d ∈ "!#$%&'*+-.^_|~".toList, 33 ≤ d.toNat ∧ d.toNat ≤ 126 ∧ d ≠ ':' := by
      simp
    exact hall c (List.contains_iff_mem.mp h)
  · decide

/-- `HeaderName::from_bytes` accepts the text. -/
def validName (k : String) : Bool :=
  !k.toList.isEmpty && k.toList.all isTokenChar && k.toList.length < 2 ^ 16

/-- `HeaderValue::from_str` accepts the text: no control character but the tab. -/
def validValue (v : String) : Bool :=
  v.toList.all fun c => (32 ≤ c.toNat && c.toNat ≠ 127) || c = '\t'

/-- `Response::builder()`: a status and the headers that were appended, in order, or `none` once something was
refused. -/
structure Builder where
  parts : Option (Nat × List (String × String))

/-- `Response::builder().status(code)`. -/
def Builder.status (code : Nat) : Builder :=
  ⟨if 100 ≤ code ∧ code < 1000 then some (code, []) else none⟩

/-- `builder.header(k, v)`: names are kept in lower case, and the map must have room. -/
def Builder.header (full : List String → Bool) (b : Builder) (kv : String × String) : Builder :=
  ⟨b.parts.bind fun (code, hs) =>
    if validName kv.1 && validValue kv.2 then
      if full (hs.map Prod.fst) then none
      else some (code, hs ++ [(String.ofList (kv.1.toList.map Char.toLower), kv.2)])
    else none⟩

/-- `builder.body(body)`; the callers `unwrap` it, so `none` is a panic.  The headers are sent as the map lists
them. -/
def Builder.body (b : Builder) (body : String) : Option Response :=
  b.parts.map fun (code, hs) => ⟨code, HeaderMap.iter (HeaderMap.ofList hs), body⟩

/-- The plain 502 answers. -/
def badGateway (msg : String) : Option Response := (Builder.status 502).body msg

/-- A header as the builder keeps it. -/
def keptHeader (kv : String × String) : String × String :=
  (String.ofList (kv.1.toList.map Char.toLower), kv.2)

/-- What the builder takes of texts for headers, after those of the names `before`: every one of them is a
header, and the map has room. -/
def takes (full : List String → Bool) (before : List String) (kvs : List (String × String)) : Bool :=
  kvs.all (fun kv => validName kv.1 && validValue kv.2) &&
    HeaderMap.fits full before (kvs.map fun kv => (keptHeader kv).1)

theorem takes_cons (full : List String → Bool) (before : List String) (kv : String × String)
    (kvs : List (String × String)) : takes full before (kv :: kvs) =
      ((validName kv.1 && validValue kv.2) && !full before && takes full (before ++ [(keptHeader kv).1]) kvs) := by
  rw [takes, takes, List.all_cons, List.map_cons, HeaderMap.fits]
  cases (validName kv.1 && validValue kv.2) <;> cases full before <;> simp

/-- Headers are kept in their order, and the builder fails when one of them is refused. -/
theorem parts_foldl_header (full : List String → Bool) (b : Builder) (kvs : List (String × String)) :
    (kvs.foldl (Builder.header full) b).parts =
      b.parts.bind fun p => if takes full (p.2.map Prod.fst) kvs then some (p.1, p.2 ++ kvs.map keptHeader) else none := by
  induction kvs generalizing b with
  | nil => cases hb : b.parts <;> simp [takes, HeaderMap.fits, hb]
  | cons kv kvs ih =>
    rw [List.foldl_cons, ih]
    cases hb : b.parts with
    | none => simp [Builder.header, hb]
    | some p =>
      have hnames : (p.2 ++ [keptHeader kv]).map Prod.fst = p.2.map Prod.fst ++ [(keptHeader kv).1] := by
        rw [List.map_append, List.map_singleton]
      rw [Option.bind_some, takes_cons, ← hnames, Builder.header, hb, Option.bind_some]
      cases hkv : validName kv.1 && validValue kv.2 with
      | false => simp
      | true =>
        cases hfull : full (p.2.map Prod.fst) with
        | true => simp [hfull]
        | false => simp [hfull, keptHeader]

/-! ## 2. The handshake -/

/-- The client's request: its method and its headers, as `req.headers()` lists them. -/
structure UpgradeRequest where
  method : String
  headers : List (String × List UInt8)

/-- `value.to_str().ok()`: the text of a header value of visible ASCII characters. -/
def toStr (value : List UInt8) : Option String :=
  if value.all fun b => (32 ≤ b.toNat && b.toNat < 127) || b.toNat = 9 then
    some (String.ofList (value.map fun b => Char.ofNat b.toNat))
  else none

/-- The header lines passed on to the upstream: all but `host`, where the value is text. -/
def forwardedLine (header : String × List UInt8) : String :=
  if header.1 = "host" then ""
  else match toStr header.2 with
    | some v => header.1 ++ ": " ++ v ++ "\r\n"
    | none => ""

/-- `raw_req`, the request head sent upstream. -/
def rawReq (req : UpgradeRequest) (host path : String) (tlsIncoming : Bool) : String :=
  req.method ++ " " ++ path ++ " HTTP/1.1\r\nHost: " ++ host ++ "\r\n" ++
    String.join (req.headers.map forwardedLine) ++
    (if tlsIncoming then "X-Forwarded-Proto: https\r\n" else "") ++ "\r\n"

/-- The bytes CR LF CR LF. -/
def crlfcrlf : List UInt8 := [13, 10, 13, 10]

/-- `resp_buf.windows(4).any(|w| w == b"\r\n\r\n")`. -/
def hasTerminator (respBuf : List UInt8) : Bool :=
  respBuf.tails.any fun w => w.take 4 == crlfcrlf

/-- `resp_str.lines()`. -/
def respLines (respBuf : List UInt8) : List String := Str.lines (Utf8.lossy respBuf)

/-- `first_line`. -/
def firstLine (respBuf : List UInt8) : String := (respLines respBuf).head?.getD ""

/-- The header fields the function reads: the lines after the first up to an empty one, as far as
they hold a colon. -/
def respHeaders (respBuf : List UInt8) : List (String × String) :=
  (((respLines respBuf).drop 1).takeWhile (· ≠ "")).filterMap fun line =>
    (Str.splitOnce line ':').map fun (k, v) => (Str.trim k, Str.trim v)

/-- The status of a refusal: the second word of the first line, 502 when it is no number. -/
def refusalStatus (respBuf : List UInt8) : Nat :=
  (((Str.splitWhitespace (firstLine respBuf))[1]?).bind (Str.parseUnsigned (2 ^ 16 - 1))).getD 502

/-! ## 3. The function -/

/-- The upstream connection: whether the request can be written to it, and its reads. -/
structure Upstream where
  accepts : Bool
  reads : List (Read UInt8)

/-- What the client's side of the tunnel does: the upgrade fails, or the copy to the client is cut
after `n` bytes (the other direction ended first, or the client is gone), or it runs to its
end. -/
inductive ClientSide where
  | upgradeFailed
  | closesAfter (n : Nat)
  | staysOpen
  deriving DecidableEq, Repr

/-- What reaches the client when `bytes` are copied to it. -/
def ClientSide.receive : ClientSide → List UInt8 → List UInt8
  | upgradeFailed, _ => []
  | closesAfter n, bytes => bytes.take n
  | staysOpen, bytes => bytes

/-- The client's side lets `n` bytes through. -/
def ClientSide.Admits : ClientSide → Nat → Prop
  | upgradeFailed, n => n = 0
  | closesAfter m, n => n ≤ m
  | staysOpen, _ => True

instance : (client : ClientSide) → (n : Nat) → Decidable (client.Admits n)
  | .upgradeFailed, n => inferInstanceAs (Decidable (n = 0))
  | .closesAfter m, n => inferInstanceAs (Decidable (n ≤ m))
  | .staysOpen, _ => inferInstanceAs (Decidable True)

/-- What one call does: the bytes it sends upstream for the handshake, its response (`none`: it
panics), and the bytes the tunnel delivers to the client after it. -/
structure Outcome where
  sent : List UInt8
  response : Option Response
  delivered : List UInt8
  deriving DecidableEq, Repr

/-- `ws_handshake_and_tunnel`. -/
def wsHandshakeAndTunnel (full : List String → Bool) (req : UpgradeRequest) (host path : String)
    (tlsIncoming : Bool) (upstream : Upstream) (client : ClientSide) : Outcome :=
  let sent := Utf8.encode (rawReq req host path tlsIncoming)
  if upstream.accepts = false then ⟨[], badGateway "upstream write failed\n", []⟩
  else
  match Chunks.readUntil hasTerminator [] upstream.reads with
  | none => ⟨sent, badGateway "upstream read failed\n", []⟩
  | some (respBuf, rest) =>
  if Str.contains (firstLine respBuf) "101" = false then
    ⟨sent, ((respHeaders respBuf).foldl (Builder.header full)
      (Builder.status (refusalStatus respBuf))).body "", []⟩
  else
  -- the tunnel is spawned on the same reader; without a 101 response there is no upgrade
  match ((respHeaders respBuf).foldl (Builder.header full) (Builder.status 101)).body "" with
  | none => ⟨sent, none, []⟩
  | some response => ⟨sent, some response, client.receive (Chunks.copyAll rest)⟩

/-! ## 4. The head and what follows it -/

/-- A 101 response head: it ends in CRLFCRLF and in no earlier one, its status line says 101, and
its header fields are header fields. -/
structure Head where
  bytes : List UInt8
  terminated : crlfcrlf <:+ bytes
  first : ∀ p, p <+: bytes → crlfcrlf <:+: p → p = bytes
  switching : Str.contains (firstLine bytes) "101" = true
  fields : ∀ kv ∈ respHeaders bytes, validName kv.1 = true ∧ validValue kv.2 = true

/-- The conditions on a head, as a test. -/
def isHead (bytes : List UInt8) : Bool :=
  crlfcrlf.isSuffixOf bytes && (bytes.inits.all fun p => !hasTerminator p || p == bytes) &&
    Str.contains (firstLine bytes) "101" &&
    (respHeaders bytes).all fun kv => validName kv.1 && validValue kv.2

theorem hasTerminator_iff {buf : List UInt8} : hasTerminator buf = true ↔ crlfcrlf <:+: buf := by
  rw [hasTerminator, List.any_eq_true, List.infix_iff_prefix_suffix]
  constructor
  · rintro ⟨w, hw, htake⟩
    rw [beq_iff_eq] at htake
    exact ⟨w, htake ▸ List.take_prefix 4 w, (List.mem_tails w buf).mp hw⟩
  · rintro ⟨w, hbegins, hsuffix⟩
    refine ⟨w, (List.mem_tails w buf).mpr hsuffix, ?_⟩
    rw [beq_iff_eq]
    exact (List.prefix_iff_eq_take.mp hbegins).symm

/-- Bytes that pass the test are a head. -/
def Head.ofTest (bytes : List UInt8) (h : isHead bytes = true) : Head where
  bytes := bytes
  terminated := by
    simp only [isHead, Bool.and_eq_true] at h
    exact List.isSuffixOf_iff_suffix.mp h.1.1.1
  first := by
    simp only [isHead, Bool.and_eq_true, List.all_eq_true, Bool.or_eq_true, beq_iff_eq] at h
    intro p hp hinfix
    rcases h.1.1.2 p ((List.mem_inits p bytes).mpr hp) with hterm | heq
    · rw [hasTerminator_iff.mpr hinfix] at hterm
      cases hterm
    · exact heq
  switching := by
    simp only [isHead, Bool.and_eq_true] at h
    exact h.1.2
  fields := by
    simp only [isHead, Bool.and_eq_true, List.all_eq_true] at h
    exact h.2

/-- Of the beginnings of the stream, those that hold a terminator are those that hold the whole
head. -/
theorem Head.hasTerminator_iff_prefix (head : Head) {p frames : List UInt8}
    (hp : p <+: head.bytes ++ frames) : hasTerminator p = true ↔ head.bytes <+: p := by
  rw [hasTerminator_iff]
  constructor
  · intro hinfix
    rcases List.prefix_or_prefix_of_prefix hp (List.prefix_append head.bytes frames) with h | h
    · exact (head.first p h hinfix) ▸ List.prefix_rfl
    · exact h
  · intro h
    exact head.terminated.isInfix.trans h.isInfix

/-- The ASCII bytes of two line ends close whatever the lossy decoder had open. -/
theorem lossyGo_crlfcrlf (a b : List UInt8) :
    Utf8.lossyGo [] (a ++ crlfcrlf ++ b) =
      Utf8.lossyGo [] a ++ '\r' :: '\n' :: '\r' :: '\n' :: Utf8.lossyGo [] b := by
  rw [List.append_assoc]
  exact Utf8.lossyGo_append_ascii a (b := 13) (by decide) (10 :: 13 :: 10 :: b) []

/-- The lines of a head are read the same whatever has come in behind it. -/
theorem respLines_append {head : List UInt8} (h : crlfcrlf <:+ head) : ∃ first more, ∀ extra, ∃ behind,
    respLines (head ++ extra) = first :: more ++ "" :: behind := by
  obtain ⟨a, rfl⟩ := h
  obtain ⟨first, more, hlines⟩ := Str.linesL_blank (Utf8.lossyGo [] a)
  refine ⟨String.ofList first, more.map String.ofList, fun extra =>
    ⟨(Str.linesL (Utf8.lossyGo [] extra)).map String.ofList, ?_⟩⟩
  rw [respLines, Str.lines, Utf8.lossy, String.toList_ofList, lossyGo_crlfcrlf, hlines]
  simp

/-- The status line and the header fields of a head are found in every buffer that begins with
it. -/
theorem view_append {head : List UInt8} (h : crlfcrlf <:+ head) (extra : List UInt8) :
    firstLine (head ++ extra) = firstLine head ∧
      respHeaders (head ++ extra) = respHeaders head := by
  obtain ⟨first, more, hlines⟩ := respLines_append h
  have hview : ∀ extra, firstLine (head ++ extra) = first ∧
      ((respLines (head ++ extra)).drop 1).takeWhile (· ≠ "") =
        (more ++ [""]).takeWhile (· ≠ "") := by
    intro extra
    obtain ⟨behind, h⟩ := hlines extra
    constructor
    · rw [firstLine, h]; rfl
    · have happ : (respLines (head ++ extra)).drop 1 = (more ++ [""]) ++ behind := by
        rw [h]; simp
      rw [happ]
      exact Str.takeWhile_append_of_stop ⟨"", by simp, by simp⟩ behind
  have hnil := hview []
  rw [List.append_nil] at hnil
  constructor
  · rw [(hview extra).1, hnil.1]
  · rw [respHeaders, respHeaders, (hview extra).2, hnil.2]

/-! ## 5. What the client receives -/

theorem ClientSide.receive_eq_self_iff (client : ClientSide) (bytes : List UInt8) :
    client.receive bytes = bytes ↔ client.Admits bytes.length := by
  cases client with
  | upgradeFailed =>
    rw [receive, Admits, List.length_eq_zero_iff]
    exact eq_comm
  | closesAfter n => rw [receive, Admits, List.take_eq_self_iff]
  | staysOpen => simp [receive, Admits]

theorem ClientSide.receive_prefix (client : ClientSide) (bytes : List UInt8) :
    client.receive bytes <+: bytes := by
  cases client with
  | upgradeFailed => exact List.nil_prefix
  | closesAfter n => exact List.take_prefix n bytes
  | staysOpen => exact List.prefix_rfl

/-- The header names of the head fit into the map of the answer. -/
def Head.fits (head : Head) (full : List String → Bool) : Bool :=
  HeaderMap.fits full [] ((respHeaders head.bytes).map fun kv => (keptHeader kv).1)

/-- The answer with the head's own fields, if they fit. -/
theorem Head.body_fields (head : Head) (full : List String → Bool) :
    ((respHeaders head.bytes).foldl (Builder.header full) (Builder.status 101)).body "" =
      if head.fits full then
        some ⟨101, HeaderMap.iter (HeaderMap.ofList ((respHeaders head.bytes).map keptHeader)), ""⟩
      else none := by
  have hvalid : (respHeaders head.bytes).all (fun kv => validName kv.1 && validValue kv.2) = true :=
    List.all_eq_true.mpr fun kv hkv => Bool.and_eq_true_iff.mpr (head.fields kv hkv)
  have htakes : takes full [] (respHeaders head.bytes) = head.fits full := by
    rw [takes, hvalid, Bool.true_and, Head.fits]
  have hstatus : (Builder.status 101).parts = some (101, []) := rfl
  rw [Builder.body, parts_foldl_header, hstatus, Option.bind_some, List.map_nil, htakes]
  cases head.fits full <;> rfl

/-- Some read ends at the last byte of the head. -/
def EndsAtRead (head : Head) (chunks : List (List UInt8)) : Prop :=
  ∃ k, (chunks.take k).flatten = head.bytes

/-- The client is answered with a 101 and then receives exactly `frames`. -/
def DeliversExactly (out : Outcome) (frames : List UInt8) : Prop :=
  (∃ response, out.response = some response ∧ response.status = 101) ∧ out.delivered = frames

section Run

variable (full : List String → Bool) (req : UpgradeRequest) (host path : String) (tlsIncoming : Bool) (head : Head)
  {frames : List UInt8} {chunks : List (List UInt8)}

/-- The run of the function on a stream that begins with a 101 head: the loop stops at the first
read boundary at or behind the end of the head, and the tunnel copies what is behind that
boundary.  A head that does not fit ends in a panic, before anything is copied. -/
theorem wsHandshakeAndTunnel_run (hne : ∀ c ∈ chunks, c ≠ [])
    (hstream : chunks.flatten = head.bytes ++ frames) (client : ClientSide) : ∃ k response,
    response.status = 101 ∧
      wsHandshakeAndTunnel full req host path tlsIncoming ⟨true, chunks.map .data⟩ client =
        (if head.fits full then
          ⟨Utf8.encode (rawReq req host path tlsIncoming), some response, client.receive (chunks.drop k).flatten⟩
        else ⟨Utf8.encode (rawReq req host path tlsIncoming), none, []⟩) ∧
      head.bytes <+: (chunks.take k).flatten ∧
      ∀ j < k, ¬ head.bytes <+: (chunks.take j).flatten := by
  have hbegins : ∀ j, (chunks.take j).flatten <+: head.bytes ++ frames := by
    intro j
    rw [← hstream]
    exact (List.take_prefix j chunks).flatten
  have hdone : hasTerminator ([] ++ chunks.flatten) = true := by
    rw [List.nil_append, hstream, head.hasTerminator_iff_prefix List.prefix_rfl]
    exact List.prefix_append _ _
  obtain ⟨k, hread, hk, hmin⟩ := Chunks.readUntil_data hne (by decide) hdone
  rw [List.nil_append, head.hasTerminator_iff_prefix (hbegins k)] at hk
  obtain ⟨extra, hextra⟩ := hk
  obtain ⟨hline, hheaders⟩ := view_append head.terminated extra
  have hcopy : Chunks.copyAll ((chunks.drop k).map .data) = (chunks.drop k).flatten :=
    Chunks.copyAll_data fun c hc => hne c (List.mem_of_mem_drop hc)
  refine ⟨k, ⟨101, HeaderMap.iter (HeaderMap.ofList ((respHeaders head.bytes).map keptHeader)), ""⟩, rfl, ?_,
    ⟨extra, hextra⟩, fun j hj hfull => ?_⟩
  · -- the 101 response is built from the head's own fields
    rw [wsHandshakeAndTunnel, hread, List.nil_append, ← hextra]
    simp only [hline, hheaders, head.switching, head.body_fields, hcopy]
    cases head.fits full <;> rfl
  · have hj' := hmin j hj
    rw [List.nil_append, ← Bool.not_eq_true, head.hasTerminator_iff_prefix (hbegins j)] at hj'
    exact hj' hfull

/-- Nothing is duplicated, reordered or invented: the client receives a contiguous part of what
follows the head. -/
theorem tunnel_infix (hne : ∀ c ∈ chunks, c ≠ [])
    (hstream : chunks.flatten = head.bytes ++ frames) (client : ClientSide) :
    (wsHandshakeAndTunnel full req host path tlsIncoming ⟨true, chunks.map .data⟩ client).delivered <:+:
      frames := by
  obtain ⟨k, response, -, hrun, ⟨extra, hextra⟩, -⟩ :=
    wsHandshakeAndTunnel_run full req host path tlsIncoming head hne hstream client
  rw [hrun]
  split
  · rw [← Chunks.between_append_flatten_drop hstream hextra]
    exact (client.receive_prefix _).isInfix.trans (List.suffix_append _ _).isInfix
  · exact List.nil_infix

/-- **The tunnel is exact precisely when a read ends with the head.**  A read that brings the end
of the head together with frame bytes takes those bytes out of the stream, and they are lost. -/
theorem tunnel_exact_iff (hne : ∀ c ∈ chunks, c ≠ [])
    (hstream : chunks.flatten = head.bytes ++ frames) (client : ClientSide) :
    DeliversExactly
        (wsHandshakeAndTunnel full req host path tlsIncoming ⟨true, chunks.map .data⟩ client) frames ↔
      EndsAtRead head chunks ∧ client.Admits frames.length ∧ head.fits full = true := by
  obtain ⟨k, response, hstatus, hrun, hfull, hmin⟩ :=
    wsHandshakeAndTunnel_run full req host path tlsIncoming head hne hstream client
  rw [hrun]
  cases hfits : head.fits full with
  | false =>
    refine iff_of_false ?_ fun h => absurd h.2.2 Bool.false_ne_true
    rintro ⟨⟨r, hr, -⟩, -⟩
    cases hr
  | true =>
    rw [if_pos rfl, and_iff_left rfl]
    constructor
    · rintro ⟨-, hexact⟩
      have hexact : client.receive (chunks.drop k).flatten = frames := hexact
      -- what is delivered is at most what is behind the boundary, so nothing was behind the head
      have hlen : frames.length ≤ (chunks.drop k).flatten.length := by
        rw [← hexact]
        exact (client.receive_prefix _).length_le
      have hback : (chunks.drop k).flatten = frames := by
        obtain ⟨extra, hextra⟩ := hfull
        have hframes := Chunks.between_append_flatten_drop hstream hextra
        have hsuffix : (chunks.drop k).flatten <:+ frames := hframes ▸ List.suffix_append extra _
        exact hsuffix.eq_of_length_le hlen
      constructor
      · exact ⟨k, (Chunks.flatten_drop_eq_iff hstream).mp hback⟩
      · rw [hback] at hexact
        exact (client.receive_eq_self_iff frames).mp hexact
    · rintro ⟨⟨j, hj⟩, hadmits⟩
      refine ⟨⟨response, rfl, hstatus⟩, ?_⟩
      -- the loop stops at that boundary: not later, and at no boundary inside the head
      have hkj : k ≤ j := by
        by_contra hlt
        exact hmin j (by omega) (hj ▸ List.prefix_rfl)
      have hk : (chunks.take k).flatten = head.bytes := by
        have hback := Chunks.flatten_take_prefix chunks hkj
        rw [hj] at hback
        exact hback.eq_of_length_le hfull.length_le
      show client.receive (chunks.drop k).flatten = frames
      rw [(Chunks.flatten_drop_eq_iff hstream).mpr hk]
      exact (client.receive_eq_self_iff frames).mpr hadmits

end Run

/-- The head of an ordinary upgrade. -/
def sampleHead : Head :=
  Head.ofTest (Utf8.encode "HTTP/1.1 101 Switching Protocols\r\nUpgrade: websocket\r\n\r\n")
    (by decide +kernel)

/-- The limit of the `http` crate, where no hashes collide. -/
def manyNames (names : List String) : Bool := 24576 ≤ names.eraseDups.length

/-- A ping frame without payload. -/
def pingFrame : List UInt8 := [0x89, 0x00]

/-- The head in two reads, the frame in a third: everything arrives. -/
theorem tunnel_exact_iff_sampleHead :
    DeliversExactly (wsHandshakeAndTunnel manyNames ⟨"GET", []⟩ "app.test" "/ws" true ⟨true,
      [sampleHead.bytes.take 9, sampleHead.bytes.drop 9, pingFrame].map .data⟩ .staysOpen)
      pingFrame := by
  refine (tunnel_exact_iff _ _ _ _ _ sampleHead ?_ ?_ _).mpr ⟨⟨2, ?_⟩, trivial, ?_⟩
  all_goals decide +kernel

/-- The same bytes in ONE read: the client is told 101 and never sees the frame. -/
theorem tunnel_loses_pingFrame :
    [sampleHead.bytes ++ pingFrame].flatten = sampleHead.bytes ++ pingFrame ∧
      ¬ DeliversExactly (wsHandshakeAndTunnel manyNames ⟨"GET", []⟩ "app.test" "/ws" true ⟨true,
        [sampleHead.bytes ++ pingFrame].map .data⟩ .staysOpen) pingFrame := by
  constructor
  · decide +kernel
  · rintro ⟨-, hexact⟩
    have hnone : (wsHandshakeAndTunnel manyNames ⟨"GET", []⟩ "app.test" "/ws" true ⟨true,
        [sampleHead.bytes ++ pingFrame].map .data⟩ .staysOpen).delivered = [] := by
      decide +kernel
    rw [hnone] at hexact
    cases hexact

end Picoshift.Proxy

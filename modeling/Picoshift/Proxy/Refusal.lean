/-
# What an upstream's answer becomes

An upstream may refuse to switch protocols: it then gives an ordinary response, and a proxy is expected to
pass it on.  `ws_handshake_and_tunnel` decides by the TEXT of the status line: it tunnels when the line has
`101` anywhere in it, which may be in the reason phrase.  What it passes on of a refusal are the status and
the header fields; the body is always empty.  The fields go through a lossy decoding, through a trim that
takes away more than the blanks of HTTP, and through a map, which has a limit and changes the order when a name
comes back after another one, as `Set-Cookie` may.

`relay_iff` says for every well-formed response, however it is delivered, when the client gets what the
upstream said.
-/
import Picoshift.Lib.HttpHead
import Picoshift.Lib.Lines
import Picoshift.Proxy.ResponseHead

namespace Picoshift.Proxy

/-! ## 1. Well-formed responses -/

/-- A byte of a field value or of a reason phrase. -/
def isFieldByte (b : UInt8) : Bool := (32 ≤ b.toNat && b.toNat ≠ 127) || b.toNat = 9

/-- A header field on the wire: a token, a colon, and a value with blanks around it. -/
structure WireField where
  name : String
  lead : List UInt8
  value : List UInt8
  trail : List UInt8
  nameOk : name.toList ≠ [] ∧ name.toList.all isTokenChar = true
  leadOk : lead.all HttpHead.isOws = true
  valueOk : value.all isFieldByte = true
  trailOk : trail.all HttpHead.isOws = true

/-- Its line, without the line end. -/
def WireField.line (f : WireField) : List UInt8 :=
  Utf8.encode f.name ++ 58 :: (f.lead ++ (f.value ++ f.trail))

/-- A response: HTTP 1.0 or 1.1, a status, a reason phrase, header fields and a body.  `payload` is what
stands on the wire for the body, in whatever transfer coding. -/
structure WireResponse where
  minor : Fin 2
  status : Nat
  reason : List UInt8
  fields : List WireField
  body : List UInt8
  payload : List UInt8
  statusOk : 100 ≤ status ∧ status < 1000
  reasonOk : reason.all isFieldByte = true

/-- The status line up to the reason phrase. -/
def WireResponse.statusText (w : WireResponse) : String :=
  (if w.minor = 0 then "HTTP/1.0" else "HTTP/1.1") ++ " " ++ toString w.status ++ " "

/-- The lines of the head, with the empty one that ends it. -/
def WireResponse.lines (w : WireResponse) : List (List UInt8) :=
  (Utf8.encode w.statusText ++ w.reason) :: (w.fields.map WireField.line ++ [[]])

/-- The head. -/
def WireResponse.head (w : WireResponse) : List UInt8 := w.lines.flatMap (· ++ [13, 10])

/-! ## 2. What the function reads -/

theorem crlfcrlf_suffix_head (w : WireResponse) : crlfcrlf <:+ w.head := by
  obtain ⟨front, last, hlast⟩ : ∃ front last, w.lines = front ++ [last, []] := by
    rw [WireResponse.lines]
    rcases List.eq_nil_or_concat w.fields with hnil | ⟨fields, f, hfields⟩
    · rw [hnil]
      exact ⟨[], _, rfl⟩
    · rw [hfields]
      exact ⟨(Utf8.encode w.statusText ++ w.reason) :: fields.map WireField.line, f.line, by simp⟩
  refine ⟨front.flatMap (· ++ [13, 10]) ++ last, ?_⟩
  rw [WireResponse.head, hlast]
  simp [crlfcrlf]

theorem ten_not_mem_of_all {bs : List UInt8} (h : bs.all isFieldByte = true) : (10 : UInt8) ∉ bs := by
  intro hmem
  exact absurd (List.all_eq_true.mp h 10 hmem) (by decide)

theorem ows_ascii {bs : List UInt8} (h : bs.all HttpHead.isOws = true) : ∀ b ∈ bs, b.toNat < 0x80 := by
  intro b hb
  have hows := List.all_eq_true.mp h b hb
  rw [HttpHead.isOws, Bool.or_eq_true, beq_iff_eq, beq_iff_eq] at hows
  rcases hows with rfl | rfl
  · decide
  · decide

theorem blank_ows {bs : List UInt8} (h : bs.all HttpHead.isOws = true) :
    Str.Blank (bs.map fun b => Char.ofNat b.toNat) := by
  intro c hc
  obtain ⟨b, hb, rfl⟩ := List.mem_map.mp hc
  have hows := List.all_eq_true.mp h b hb
  rw [HttpHead.isOws, Bool.or_eq_true, beq_iff_eq, beq_iff_eq] at hows
  rcases hows with rfl | rfl
  · decide
  · decide

/-- Lines that hold no line feed come back one by one, decoded. -/
theorem respLines_flatMap {ls : List (List UInt8)} (h : ∀ l ∈ ls, (10 : UInt8) ∉ l) :
    respLines (ls.flatMap (· ++ [13, 10])) = ls.map Utf8.lossy := by
  rw [respLines, Str.lines, Utf8.lossy, String.toList_ofList]
  induction ls with
  | nil => rfl
  | cons l ls ih =>
    obtain ⟨hl, hls⟩ := List.forall_mem_cons.mp h
    have hline : '\n' ∉ Utf8.lossyGo [] l ++ ['\r'] := by
      rw [List.mem_append, not_or]
      refine ⟨fun hmem => ?_, by decide⟩
      obtain ⟨b, hb, hten⟩ := Utf8.ascii_of_mem_lossyGo (by decide) Utf8.open_nil hmem
      exact hl ((UInt8.toNat_inj.mp hten : b = 10) ▸ hb)
    have hdecode : Utf8.lossyGo [] ((l :: ls).flatMap (· ++ [13, 10])) =
        (Utf8.lossyGo [] l ++ ['\r']) ++ '\n' :: Utf8.lossyGo [] (ls.flatMap (· ++ [13, 10])) := by
      have hcr := Utf8.lossyGo_append_ascii l (b := 13) (by decide) (10 :: ls.flatMap (· ++ [13, 10])) []
      rw [Utf8.lossyGo_ascii_cons (by decide)] at hcr
      simpa using hcr
    have hstrip : Str.stripCr (Utf8.lossyGo [] l ++ ['\r']) = Utf8.lossyGo [] l := by
      simp [Str.stripCr]
    rw [hdecode, Str.linesL, Str.linesGo_line hline, List.nil_append, hstrip, List.map_cons, ← Str.linesL,
      ih hls]
    rfl

/-- The name of a field has nothing in it that the function looks for. -/
theorem WireField.name_chars (f : WireField) :
    ∀ c ∈ f.name.toList, c ≠ ':' ∧ c ≠ '\n' ∧ Str.isWhitespace c = false := by
  intro c hc
  obtain ⟨hlow, hhigh, hcolon⟩ := isTokenChar_range (List.all_eq_true.mp f.nameOk.2 c hc)
  refine ⟨hcolon, ?_, ?_⟩
  · rintro rfl
    exact absurd hlow (by decide)
  · simp only [Str.isWhitespace, Bool.or_eq_false_iff, Bool.and_eq_false_iff, decide_eq_false_iff_not,
      beq_eq_false_iff_ne]
    omega

theorem WireField.ten_not_mem_line (f : WireField) : (10 : UInt8) ∉ f.line := by
  have hname : (10 : UInt8) ∉ Utf8.encode f.name :=
    Utf8.not_mem_encode (by decide) fun c hc he => (f.name_chars c hc).2.1 (Char.toNat_inj.mp he)
  have hows : ∀ {bs : List UInt8}, bs.all HttpHead.isOws = true → (10 : UInt8) ∉ bs := fun h hmem =>
    absurd (List.all_eq_true.mp h 10 hmem) (by decide)
  rw [WireField.line]
  simp [hname, hows f.leadOk, hows f.trailOk, ten_not_mem_of_all f.valueOk]

theorem ten_not_mem_lines (w : WireResponse) : ∀ l ∈ w.lines, (10 : UInt8) ∉ l := by
  rw [WireResponse.lines]
  intro l hl
  rcases List.mem_cons.mp hl with rfl | hl
  · rw [List.mem_append, not_or]
    refine ⟨?_, ten_not_mem_of_all w.reasonOk⟩
    refine Utf8.not_mem_encode (by decide) fun c hc he => ?_
    obtain rfl : c = '\n' := Char.toNat_inj.mp he
    have hdigits : '\n' ∉ Nat.toDigits 10 w.status := Str.not_mem_toDigits (by decide) _
    rw [WireResponse.statusText] at hc
    split at hc <;> simp [hdigits] at hc
  · rcases List.mem_append.mp hl with hl | hl
    · obtain ⟨f, -, rfl⟩ := List.mem_map.mp hl
      exact f.ten_not_mem_line
    · rw [List.mem_singleton.mp hl]
      exact List.not_mem_nil

/-- What the function makes of a field: its value is decoded and trimmed. -/
def WireField.read (f : WireField) : String × String := (f.name, Str.trim (Utf8.lossy f.value))

/-- One round of the loop over the lines. -/
def readLine (line : String) : Option (String × String) :=
  (Str.splitOnce line ':').map fun (k, v) => (Str.trim k, Str.trim v)

theorem respHeaders_eq (buf : List UInt8) :
    respHeaders buf = (((respLines buf).drop 1).takeWhile (· ≠ "")).filterMap readLine := rfl

/-- The line of a field is read so. -/
theorem read_line (f : WireField) : readLine (Utf8.lossy f.line) = some f.read := by
  have hcolon : ':' ∉ f.name.toList := fun hmem => (f.name_chars _ hmem).1 rfl
  have hchars : Utf8.lossyGo [] f.line = f.name.toList ++ ':' ::
      ((f.lead.map fun b => Char.ofNat b.toNat) ++
        (Utf8.lossyGo [] f.value ++ f.trail.map fun b => Char.ofNat b.toNat)) := by
    rw [WireField.line, Utf8.encode, Utf8.lossyGo_encode_append, Utf8.lossyGo_ascii_cons (by decide),
      Utf8.lossyGo_asciis_append (ows_ascii f.leadOk), Utf8.lossyGo_append_asciis f.value (ows_ascii f.trailOk)]
    rfl
  have hname : Str.trim f.name = f.name := Str.trim_eq_self fun c hc => (f.name_chars c hc).2.2
  have hvalue : Str.trimL ((f.lead.map fun b => Char.ofNat b.toNat) ++
      (Utf8.lossyGo [] f.value ++ f.trail.map fun b => Char.ofNat b.toNat)) =
      Str.trimL (Utf8.lossyGo [] f.value) := by
    refine Str.Padded.trimL ⟨_, _, blank_ows f.leadOk, blank_ows f.trailOk, ?_⟩
    rw [List.append_assoc]
  rw [readLine, Str.splitOnce, Utf8.lossy, String.toList_ofList, hchars, Str.splitOnceL_append hcolon]
  simp only [Option.map_some, String.ofList_toList, hname]
  rw [Str.trim, String.toList_ofList, hvalue, WireField.read, Str.trim, Utf8.lossy, String.toList_ofList]

/-- The header fields that the function finds in the head. -/
theorem respHeaders_head (w : WireResponse) : respHeaders w.head = w.fields.map WireField.read := by
  have hne : ∀ l ∈ w.fields.map (Utf8.lossy ∘ WireField.line), decide (l ≠ "") = true := by
    intro l hl
    obtain ⟨f, -, rfl⟩ := List.mem_map.mp hl
    have hread := read_line f
    rw [decide_eq_true_eq]
    intro hempty
    rw [Function.comp_apply] at hempty
    rw [hempty] at hread
    exact absurd hread (by simp [readLine, Str.splitOnce, Str.splitOnceL])
  have hlast : Utf8.lossy [] = "" := by simp [Utf8.lossy, Utf8.lossyGo]
  rw [respHeaders_eq, WireResponse.head, respLines_flatMap (ten_not_mem_lines w), WireResponse.lines,
    List.map_cons, List.map_append, List.map_map, List.map_singleton, hlast, List.drop_one, List.tail_cons,
    List.takeWhile_append_of_pos hne]
  have hstop : [""].takeWhile (fun l => decide (l ≠ "")) = [] :=
    List.takeWhile_cons_of_neg (by simp)
  rw [hstop, List.append_nil, List.filterMap_map]
  have hread : ∀ f ∈ w.fields, (readLine ∘ Utf8.lossy ∘ WireField.line) f = (some ∘ WireField.read) f := by
    intro f _
    rw [Function.comp_apply, Function.comp_apply, Function.comp_apply]
    exact read_line f
  exact (List.filterMap_congr hread).trans (congrFun List.filterMap_eq_map w.fields)

/-- The status line as text. -/
theorem toList_firstLine (w : WireResponse) : (firstLine w.head).toList =
    (if w.minor = 0 then "HTTP/1.0" else "HTTP/1.1").toList ++ ' ' ::
      (Nat.toDigits 10 w.status ++ ' ' :: (Utf8.lossy w.reason).toList) := by
  rw [firstLine, WireResponse.head, respLines_flatMap (ten_not_mem_lines w), WireResponse.lines,
    List.map_cons, List.head?_cons, Option.getD_some, Utf8.lossy, String.toList_ofList, Utf8.encode,
    Utf8.lossyGo_encode_append, Utf8.lossy, String.toList_ofList, WireResponse.statusText]
  simp only [String.toList_append, Str.toList_toString, List.append_assoc]
  rfl

/-- The line has `101` in it when that is the status, or when the reason phrase has. -/
theorem contains_firstLine (w : WireResponse) : Str.contains (firstLine w.head) "101" = true ↔
    w.status = 101 ∨ Str.contains (Utf8.lossy w.reason) "101" = true := by
  have hspace : ' ' ∉ "101".toList := by decide
  have hversion : ¬ "101".toList <:+: (if w.minor = 0 then "HTTP/1.0" else "HTTP/1.1").toList := by
    rw [← Str.containsL_iff]
    split <;> decide +kernel
  have hstatus : "101".toList <:+: Nat.toDigits 10 w.status ↔ w.status = 101 := by
    have hdigits : "101".toList = Nat.toDigits 10 101 := by decide +kernel
    constructor
    · intro hinfix
      have hlength : (Nat.toDigits 10 w.status).length ≤ 3 :=
        (Nat.length_toDigits_le_iff (by decide) (by decide)).mpr w.statusOk.2
      have heq := hinfix.eq_of_length (Nat.le_antisymm hinfix.length_le hlength)
      rw [hdigits] at heq
      exact (Str.toDigits_inj heq).symm
    · intro h
      rw [h, hdigits]
  rw [Str.contains_iff, Str.contains_iff, toList_firstLine, Str.infix_append_cons hspace,
    Str.infix_append_cons hspace, hstatus]
  exact or_iff_right hversion

/-- The second word of the line is the status. -/
theorem refusalStatus_head (w : WireResponse) : refusalStatus w.head = w.status := by
  have hversion : ∀ c ∈ (if w.minor = 0 then "HTTP/1.0" else "HTTP/1.1").toList,
      Str.isWhitespace c = false := by
    have hall : ((if w.minor = 0 then "HTTP/1.0" else "HTTP/1.1").toList.all
        fun c => !Str.isWhitespace c) = true := by
      split <;> decide +kernel
    intro c hc
    simpa using List.all_eq_true.mp hall c hc
  have hne : [] ++ (if w.minor = 0 then "HTTP/1.0" else "HTTP/1.1").toList ≠ [] := by
    split <;> decide +kernel
  have hdigit : ∀ c ∈ Nat.toDigits 10 w.status, Str.isWhitespace c = false := by
    intro c hc
    have hc := Nat.isDigit_of_mem_toDigits (by decide) (by decide) hc
    have hrange : 48 ≤ c.toNat ∧ c.toNat ≤ 57 := Char.isDigit_iff_toNat.mp hc
    simp only [Str.isWhitespace, Bool.or_eq_false_iff, Bool.and_eq_false_iff, decide_eq_false_iff_not,
      beq_eq_false_iff_ne]
    omega
  have hparse : Str.parseUnsigned (2 ^ 16 - 1) (String.ofList (Nat.toDigits 10 w.status)) = some w.status := by
    have hplus : ∀ l, Nat.toDigits 10 w.status ≠ '+' :: l := by
      intro l hl
      exact Str.not_mem_toDigits (c := '+') (by decide) w.status (hl ▸ List.mem_cons_self)
    rw [Str.parseUnsigned, String.toList_ofList]
    split
    · rename_i l hl
      exact absurd hl (hplus l)
    · rw [Str.digitsL_toDigits, Option.filter_some, if_pos]
      have hsmall := w.statusOk.2
      exact decide_eq_true (by omega)
  rw [refusalStatus, Str.splitWhitespace, toList_firstLine, Str.wordsGo_append hversion hne (by decide),
    Str.wordsGo_append hdigit (by simp [Nat.toDigits_ne_nil]) (by decide), List.nil_append]
  simp only [List.map_cons, List.nil_append, List.getElem?_cons_succ, List.getElem?_cons_zero, Option.bind_some,
    hparse, Option.getD_some]

/-! ## 3. What the client gets -/

theorem validName_iff (f : WireField) : validName f.name = true ↔ f.name.toList.length < 65536 := by
  have hempty : f.name.toList.isEmpty = false := List.isEmpty_eq_false_iff.mpr f.nameOk.1
  rw [validName, hempty, f.nameOk.2]
  simp

/-- Nothing in a decoded value makes the builder fail. -/
theorem validValue_read (f : WireField) : validValue f.read.2 = true := by
  rw [validValue, List.all_eq_true, WireField.read, Str.trim, String.toList_ofList, Utf8.lossy,
    String.toList_ofList]
  intro c hc
  have hmem := Str.mem_of_mem_trimL hc
  by_cases hascii : c.toNat < 0x80
  · obtain ⟨b, hb, heq⟩ := Utf8.ascii_of_mem_lossyGo hascii Utf8.open_nil hmem
    have hbyte := List.all_eq_true.mp f.valueOk b hb
    rw [isFieldByte, heq, Bool.or_eq_true] at hbyte
    rw [Bool.or_eq_true]
    refine hbyte.imp_right fun htab => ?_
    rw [decide_eq_true_eq] at htab ⊢
    exact Char.toNat_inj.mp htab
  · rw [Bool.or_eq_true, Bool.and_eq_true, decide_eq_true_eq, decide_eq_true_eq]
    exact Or.inl ⟨by omega, by omega⟩

/-- The names of all fields are short enough for the `http` crate. -/
def WireResponse.ShortNames (w : WireResponse) : Prop := ∀ f ∈ w.fields, f.name.toList.length < 65536

/-- The text of the reason phrase has `101` in it. -/
def WireResponse.misleading (w : WireResponse) : Bool := Str.contains (Utf8.lossy w.reason) "101"

/-- The status that the client gets. -/
def WireResponse.relayedStatus (w : WireResponse) : Nat :=
  if w.status = 101 ∨ w.misleading = true then 101 else w.status

theorem WireResponse.relayedStatus_range (w : WireResponse) :
    100 ≤ w.relayedStatus ∧ w.relayedStatus < 1000 := by
  rw [relayedStatus]
  split
  · decide
  · exact w.statusOk

/-- The reading of the head. -/
theorem readHead_head (w : WireResponse) : readHead w.head =
    ⟨decide (w.status = 101 ∨ w.misleading = true), w.relayedStatus, w.fields.map WireField.read⟩ := by
  have htunnels : Str.contains (firstLine w.head) "101" = decide (w.status = 101 ∨ w.misleading = true) := by
    rw [Bool.eq_iff_iff, contains_firstLine, decide_eq_true_iff, WireResponse.misleading]
  rw [readHead, htunnels, refusalStatus_head, respHeaders_head, WireResponse.relayedStatus]
  simp only [decide_eq_true_eq]

/-- The names of the fields, as a map compares them. -/
def WireResponse.names (w : WireResponse) : List String := w.fields.map fun f => HttpHead.lowerName f.name

/-- What the builder takes of the fields. -/
theorem takes_read (full : List String → Bool) (w : WireResponse) :
    takes full [] (w.fields.map WireField.read) = true ↔
      w.ShortNames ∧ HeaderMap.fits full [] w.names = true := by
  have hvalid : (w.fields.map WireField.read).all (fun kv => validName kv.1 && validValue kv.2) = true ↔
      w.ShortNames := by
    rw [List.all_map, List.all_eq_true]
    refine forall₂_congr fun f _ => ?_
    rw [Function.comp_apply, validValue_read, Bool.and_true]
    exact validName_iff f
  rw [takes, Bool.and_eq_true, hvalid, List.map_map]
  exact Iff.rfl

/-- **The answer to the client.** -/
theorem response_readHead (full : List String → Bool) (w : WireResponse) (r : Response) :
    (readHead w.head).response full = some r ↔ (w.ShortNames ∧ HeaderMap.fits full [] w.names = true) ∧
      r = ⟨w.relayedStatus, HeaderMap.iter (HeaderMap.ofList (w.fields.map fun f => keptHeader f.read)), ""⟩ := by
  rw [readHead_head, Reading.response, Builder.body, parts_foldl_header, Builder.status,
    if_pos w.relayedStatus_range, ← takes_read, Option.bind_some, List.map_nil, List.nil_append, List.map_map]
  cases takes full [] (w.fields.map WireField.read) with
  | true =>
    rw [if_pos rfl, Option.map_some, Option.some.injEq, eq_comm, and_iff_right rfl]
    rfl
  | false => exact iff_of_false (Option.some_ne_none r).symm fun h => absurd h.1 Bool.false_ne_true

/-- The client gets what the upstream said: a tunnel exactly for a 101, and otherwise its status, its
header fields in order, and its body. -/
structure Relayed (out : Outcome) (w : WireResponse) : Prop where
  tunnels : (∃ r, out.response = some r ∧ r.status = 101) ↔ w.status = 101
  refused : w.status ≠ 101 → ∃ r, out.response = some r ∧ r.status = w.status ∧
    r.headers.map (fun kv => (kv.1, Utf8.encode kv.2)) =
      w.fields.map (fun f => (HttpHead.lowerName f.name, f.value)) ∧
    Utf8.encode r.body = w.body

/-- The value is UTF-8 text without Unicode white space around it. -/
def PlainText (value : List UInt8) : Prop := ∃ text, value = Utf8.encode text ∧ Str.trim text = text

/-- The names are short and fit into a map; and a refusal does not speak of 101 in its reason phrase, has no
body, none of its names comes back after another one, and its values are plain text. -/
structure Relayable (full : List String → Bool) (w : WireResponse) : Prop where
  names : w.ShortNames ∧ HeaderMap.fits full [] w.names = true
  refusal : w.status ≠ 101 → w.misleading = false ∧ w.body = [] ∧ HeaderMap.Contiguous w.names ∧
    ∀ f ∈ w.fields, PlainText f.value

theorem trim_trim (s : String) : Str.trim (Str.trim s) = Str.trim s := by
  rw [Str.trim, Str.trim, String.toList_ofList, Str.trimL_trimL]

/-- A value arrives as it was sent exactly when it is plain text. -/
theorem encode_read_iff (f : WireField) : Utf8.encode f.read.2 = f.value ↔ PlainText f.value := by
  rw [WireField.read]
  constructor
  · intro h
    exact ⟨_, h.symm, trim_trim _⟩
  · rintro ⟨text, hvalue, htrim⟩
    rw [hvalue, Utf8.lossy_encode, htrim]

/-- The fields arrive in order and as they were sent, exactly when no name comes back and the values are plain. -/
theorem headers_eq_iff (w : WireResponse) :
    (HeaderMap.iter (HeaderMap.ofList (w.fields.map fun f => keptHeader f.read))).map
          (fun kv => (kv.1, Utf8.encode kv.2)) =
        w.fields.map (fun f => (HttpHead.lowerName f.name, f.value)) ↔
      HeaderMap.Contiguous w.names ∧ ∀ f ∈ w.fields, PlainText f.value := by
  rw [← HeaderMap.iter_ofList_map, List.map_map]
  have hread : ∀ g : WireField → List UInt8,
      (w.fields.map fun f => (HttpHead.lowerName f.name, g f)).map Prod.fst = w.names := by
    intro g
    rw [List.map_map]
    rfl
  have hkept := HeaderMap.iter_ofList_eq_self_iff
    (w.fields.map fun f => (HttpHead.lowerName f.name, Utf8.encode f.read.2))
  rw [hread fun f => Utf8.encode f.read.2] at hkept
  have hvalues : (w.fields.map fun f => (HttpHead.lowerName f.name, Utf8.encode f.read.2)) =
      (w.fields.map fun f => (HttpHead.lowerName f.name, f.value)) ↔ ∀ f ∈ w.fields, PlainText f.value := by
    rw [List.map_inj_left]
    refine forall₂_congr fun f _ => ?_
    rw [Prod.mk.injEq, ← encode_read_iff]
    exact and_iff_right rfl
  show HeaderMap.iter (HeaderMap.ofList
    (w.fields.map fun f => (HttpHead.lowerName f.name, Utf8.encode f.read.2))) = _ ↔ _
  constructor
  · intro h
    -- a map lists every name once, so the names that were sent do not come back either
    have hcontiguous : HeaderMap.Contiguous w.names := by
      rw [← hread WireField.value, ← h]
      exact HeaderMap.contiguous_iter (HeaderMap.ok_ofList _).nodup
    rw [hkept.mpr hcontiguous] at h
    exact ⟨hcontiguous, hvalues.mp h⟩
  · rintro ⟨hcontiguous, hplain⟩
    rw [hkept.mpr hcontiguous]
    exact hvalues.mpr hplain

section Relay

variable (full : List String → Bool) (req : UpgradeRequest) (host path : String) (tlsIncoming : Bool)
  (client : ClientSide) (w : WireResponse) {chunks : List (List UInt8)}

/-- However the response arrives, the client is answered with what is read in its head. -/
theorem response_eq_readHead (hne : ∀ c ∈ chunks, c ≠ [])
    (hstream : chunks.flatten = w.head ++ w.payload) :
    (wsHandshakeAndTunnel full req host path tlsIncoming ⟨true, chunks.map .data⟩ client).response =
      (readHead w.head).response full := by
  have hends := crlfcrlf_suffix_head w
  have hterm : hasTerminator (w.head ++ w.payload) = true :=
    hasTerminator_iff.mpr (hends.isInfix.trans (List.prefix_append _ _).isInfix)
  obtain ⟨hline, hheaders⟩ := view_append hends w.payload
  obtain ⟨buf, rest, hread, -, hhead⟩ := readHead_of_readUntil hne
  rw [response_of_readUntil hread, hhead, hstream, ← readHead_headOf hterm, readHead, readHead, refusalStatus,
    refusalStatus, hline, hheaders]

/-- **A well-formed response reaches the client as it is, exactly when it is relayable.** -/
theorem relay_iff (hne : ∀ c ∈ chunks, c ≠ []) (hstream : chunks.flatten = w.head ++ w.payload) :
    Relayed (wsHandshakeAndTunnel full req host path tlsIncoming ⟨true, chunks.map .data⟩ client) w ↔
      Relayable full w := by
  have hresponse := response_eq_readHead full req host path tlsIncoming client w hne hstream
  constructor
  · rintro ⟨htunnels, hrefused⟩
    by_cases hstatus : w.status = 101
    · obtain ⟨r, hr, -⟩ := htunnels.mpr hstatus
      rw [hresponse, response_readHead] at hr
      exact ⟨hr.1, fun h => absurd hstatus h⟩
    · obtain ⟨r, hr, -, hheaders, hbody⟩ := hrefused hstatus
      have hnot : ¬ (∃ r, (wsHandshakeAndTunnel full req host path tlsIncoming ⟨true, chunks.map .data⟩
          client).response = some r ∧ r.status = 101) := mt htunnels.mp hstatus
      have hmisleading : w.misleading = false := by
        rw [← Bool.not_eq_true]
        intro hmis
        refine hnot ⟨r, hr, ?_⟩
        rw [hresponse, response_readHead] at hr
        rw [hr.2]
        exact if_pos (Or.inr hmis)
      rw [hresponse, response_readHead] at hr
      obtain ⟨hnames, rfl⟩ := hr
      exact ⟨hnames, fun _ => ⟨hmisleading, hbody.symm, (headers_eq_iff w).mp hheaders⟩⟩
  · rintro ⟨hnames, hrefusal⟩
    have hr := (response_readHead full w _).mpr ⟨hnames, rfl⟩
    rw [← hresponse] at hr
    by_cases hstatus : w.status = 101
    · refine ⟨iff_of_true ⟨_, hr, if_pos (Or.inl hstatus)⟩ hstatus, fun h => absurd hstatus h⟩
    · obtain ⟨hmisleading, hbody, hvalues⟩ := hrefusal hstatus
      have hcode : w.relayedStatus = w.status :=
        if_neg (not_or.mpr ⟨hstatus, by rw [hmisleading]; exact Bool.false_ne_true⟩)
      rw [hcode] at hr
      refine ⟨iff_of_false ?_ hstatus, fun _ => ⟨_, hr, rfl, (headers_eq_iff w).mpr hvalues, hbody.symm⟩⟩
      rintro ⟨r, hr', h101⟩
      obtain rfl := Option.some.inj (hr.symm.trans hr')
      exact hstatus h101

end Relay

/-- A refusal with a reason phrase, one header field, and a body of the given length. -/
def refusal (reason : String) (h : (Utf8.encode reason).all isFieldByte = true) (body : List UInt8) :
    WireResponse where
  minor := 1
  status := 404
  reason := Utf8.encode reason
  fields := [⟨"Server", [32], Utf8.encode "app", [], by decide +kernel, by decide, by decide, by decide⟩]
  body := body
  payload := body
  statusOk := by decide
  reasonOk := h

/-- A refusal without a body, in two reads. -/
theorem relay_iff_plain :
    Relayed (wsHandshakeAndTunnel manyNames ⟨"GET", []⟩ "app.test" "/ws" true ⟨true,
        [(refusal "Not Found" (by decide) []).head.take 20,
          (refusal "Not Found" (by decide) []).head.drop 20].map .data⟩ .staysOpen)
      (refusal "Not Found" (by decide) []) := by
  refine (relay_iff manyNames ⟨"GET", []⟩ "app.test" "/ws" true .staysOpen (refusal "Not Found" (by decide) [])
    ?_ ?_).mpr ?_
  · decide +kernel
  · decide +kernel
  · refine ⟨⟨?_, by decide +kernel⟩, fun _ => ⟨by decide +kernel, rfl, fun x y hsub => ?_, ?_⟩⟩
    · rintro f hf
      rw [List.mem_singleton.mp hf]
      decide +kernel
    · exact absurd (show 3 ≤ 1 from hsub.length_le) (by decide)
    · rintro f hf
      rw [List.mem_singleton.mp hf]
      exact ⟨"app", rfl, by decide +kernel⟩

/-- A refusal without a body and with two cookies, and another field between them. -/
def cookies : WireResponse where
  minor := 1
  status := 403
  reason := Utf8.encode "Forbidden"
  fields :=
    [⟨"Set-Cookie", [], Utf8.encode "a=1", [], by decide +kernel, by decide, by decide, by decide⟩,
      ⟨"X-Reason", [], Utf8.encode "expired", [], by decide +kernel, by decide, by decide, by decide⟩,
      ⟨"Set-Cookie", [], Utf8.encode "b=2", [], by decide +kernel, by decide, by decide, by decide⟩]
  body := []
  payload := []
  statusOk := by decide
  reasonOk := by decide

/-- A reason phrase with `101` in it turns a refusal into a tunnel, the body of a refusal is lost, and a field between
two of one name comes out behind them. -/
theorem relay_not :
    ¬ Relayed (wsHandshakeAndTunnel manyNames ⟨"GET", []⟩ "app.test" "/ws" true ⟨true,
        [(refusal "No Room 101" (by decide) []).head].map .data⟩ .staysOpen)
      (refusal "No Room 101" (by decide) []) ∧
    ¬ Relayed (wsHandshakeAndTunnel manyNames ⟨"GET", []⟩ "app.test" "/ws" true ⟨true,
        [(refusal "Not Found" (by decide) (Utf8.encode "gone")).head ++ Utf8.encode "gone"].map .data⟩
        .staysOpen)
      (refusal "Not Found" (by decide) (Utf8.encode "gone")) ∧
    ¬ Relayed (wsHandshakeAndTunnel manyNames ⟨"GET", []⟩ "app.test" "/ws" true ⟨true, [cookies.head].map .data⟩
        .staysOpen) cookies := by
  refine ⟨?_, ?_, ?_⟩
  · intro h
    have htunnel : ((wsHandshakeAndTunnel manyNames ⟨"GET", []⟩ "app.test" "/ws" true ⟨true,
        [(refusal "No Room 101" (by decide) []).head].map .data⟩ .staysOpen).response.map Response.status) =
          some 101 := by
      decide +kernel
    obtain ⟨r, hr, hstatus⟩ := Option.map_eq_some_iff.mp htunnel
    exact absurd (h.tunnels.mp ⟨r, hr, hstatus⟩) (by decide)
  · intro h
    have hempty : ((wsHandshakeAndTunnel manyNames ⟨"GET", []⟩ "app.test" "/ws" true ⟨true,
        [(refusal "Not Found" (by decide) (Utf8.encode "gone")).head ++ Utf8.encode "gone"].map .data⟩
        .staysOpen).response.map Response.body) = some "" := by
      decide +kernel
    obtain ⟨r, hr, -, -, hbody⟩ := h.refused (by decide)
    rw [hr, Option.map_some, Option.some.injEq] at hempty
    rw [hempty] at hbody
    exact absurd hbody (by decide)
  · intro h
    have hmoved : ((wsHandshakeAndTunnel manyNames ⟨"GET", []⟩ "app.test" "/ws" true ⟨true,
        [cookies.head].map .data⟩ .staysOpen).response.map fun r => r.headers.map Prod.fst) =
          some ["set-cookie", "set-cookie", "x-reason"] := by
      decide +kernel
    obtain ⟨r, hr, -, hheaders, -⟩ := h.refused (by decide)
    rw [hr, Option.map_some, Option.some.injEq] at hmoved
    have hnames := congrArg (List.map Prod.fst) hheaders
    rw [List.map_map] at hnames
    have hsame : r.headers.map Prod.fst = ["set-cookie", "x-reason", "set-cookie"] := hnames
    rw [hmoved] at hsame
    exact absurd hsame (by decide)

end Picoshift.Proxy

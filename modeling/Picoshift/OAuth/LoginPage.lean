/-
# What the login page holds

`html_escape` is four replacements in a row, each over the output of the one before.  Taken together
they work character by character (`toList_htmlEscape`), and this file draws the two conclusions that
the page rests on.

* An escaped text has no character that could end a tag or a quoted value, and the only references in
  it are the four that escaping writes (`Escapes`).
* Whatever the four parameters are, the tags of the page are the same fixed tags, with the four hidden
  fields in the middle that hold the parameters (`scan_loginFormHtml`).  A parameter cannot add a tag,
  and it cannot leave the value it was put into.
-/
import Picoshift.OAuth.Login

namespace Picoshift.OAuth

/-! ## 1. Escaped texts -/

/-- `t` is a text that is safe between double quotes and stands for `s`. -/
structure Escapes (s : String) (t : List Char) : Prop where
  lt_not_mem : '<' ∉ t
  gt_not_mem : '>' ∉ t
  quote_not_mem : '"' ∉ t
  amp_begins : ∀ a b, t = a ++ '&' :: b → ∃ r ∈ references, r.toList <+: '&' :: b
  decodes : Html.decodeRefs t = s.toList

/-- An ampersand is the beginning of what some character was replaced by. -/
theorem amp_begins_flatMap (l a b : List Char) (h : l.flatMap escapeChar = a ++ '&' :: b) :
    ∃ r ∈ references, r.toList <+: '&' :: b := by
  induction l generalizing a with
  | nil => exact absurd h.symm (by simp)
  | cons c l ih =>
    rw [List.flatMap_cons] at h
    rcases List.append_eq_append_iff.mp h with ⟨a', -, hrest⟩ | ⟨inside, hchar, hrest⟩
    · exact ih a' hrest
    · cases inside with
      | nil => exact ih [] hrest.symm
      | cons x inside =>
        obtain ⟨rfl, hb⟩ := List.cons.inj hrest
        rcases escapeChar_cases c with ⟨body, hbody, heq, r, hr, hchars⟩ | ⟨heq, hamp, -⟩
        · -- the ampersand of a reference is its first character
          have ha : a = [] := by
            cases a with
            | nil => rfl
            | cons y a =>
              rw [heq, List.cons_append, List.cons.injEq] at hchar
              exact absurd (hchar.2 ▸ List.mem_append_right a List.mem_cons_self) hbody
          rw [ha, List.nil_append, heq] at hchar
          refine ⟨r, hr, l.flatMap escapeChar, ?_⟩
          rw [hchars, hchar, hb]
          rfl
        · have hmem : '&' ∈ escapeChar c := hchar ▸ List.mem_append_right a List.mem_cons_self
          rw [heq, List.mem_singleton] at hmem
          exact absurd hmem.symm hamp

theorem escapes_htmlEscape (s : String) : Escapes s (htmlEscape s).toList where
  lt_not_mem := not_mem_htmlEscape (Or.inl rfl) s
  gt_not_mem := not_mem_htmlEscape (Or.inr (Or.inl rfl)) s
  quote_not_mem := quote_not_mem_htmlEscape s
  amp_begins a b h := amp_begins_flatMap s.toList a b (by rw [← toList_htmlEscape, h])
  decodes := decodeRefs_htmlEscape s

/-! ## 2. The tags of the page -/

/-- The tags of a piece of the page. -/
def tags (piece : String) : List Html.Tag := (Html.scan .text piece.toList).1

/-- An input tag that is not shown. -/
def isHidden (t : Html.Tag) : Bool := t.name = "input".toList ∧ t.attr "type" = some "hidden"

/-- The hidden fields of the page for these parameters. -/
def hiddenFields (clientId redirectUri state responseType : String) : List Html.Tag :=
  [hiddenField "client_id" clientId, hiddenField "redirect_uri" redirectUri,
    hiddenField "state" state, hiddenField "response_type" responseType]

/-- The line of a hidden field is one tag. -/
theorem scan_hiddenField {name : String} (hname : name ∈ hiddenNames) (value : String) :
    Html.scan .text (hiddenInput name value).toList = ([hiddenField name value], .text) := by
  rw [scan_hiddenInput hname, push_hiddenTag]

/-- A piece after which the reader is in the text. -/
theorem scan_eq_tags {piece : String} (h : (Html.scan .text piece.toList).2 = .text) :
    Html.scan .text piece.toList = (tags piece, .text) := Prod.ext rfl h

section Pieces

set_option maxRecDepth 100000

theorem not_hidden_pageTop : (tags pageTop).filter isHidden = [] := by
  rw [tags, Str.toList_eq_of_eq_ofList (s := pageTop) rfl]
  decide +kernel

theorem not_hidden_errorBlock (error : Bool) : (tags (errorBlock error)).filter isHidden = [] := by
  cases error with
  | false => rfl
  | true =>
    rw [tags, Str.toList_eq_of_eq_ofList (s := errorBlock true) rfl]
    decide +kernel

theorem not_hidden_formTop : (tags formTop).filter isHidden = [] := by
  rw [tags, Str.toList_eq_of_eq_ofList (s := formTop) rfl]
  decide +kernel

theorem not_hidden_pageBottom : (tags pageBottom).filter isHidden = [] := by
  rw [tags, Str.toList_eq_of_eq_ofList (s := pageBottom) rfl]
  decide +kernel

end Pieces

/-- The tags in front of the hidden fields, none of which depends on a parameter. -/
def tagsBefore (error : Bool) : List Html.Tag := tags pageTop ++ tags (errorBlock error) ++ tags formTop

/-- **The page**: fixed tags, the hidden fields, fixed tags. -/
theorem scan_loginFormHtml (clientId redirectUri state responseType : String) (error : Bool) :
    Html.scan .text (loginFormHtml clientId redirectUri state responseType error).toList =
      (tagsBefore error ++ hiddenFields clientId redirectUri state responseType ++ tags pageBottom,
        .text) := by
  have htop := scan_eq_tags (posts_pageTop []).2
  have herror := scan_eq_tags (posts_errorBlock [] error).2
  have hform := scan_eq_tags (posts_formTop []).2
  have hbottom := scan_eq_tags (posts_pageBottom "" "").2
  have hbefore := Html.scan_append (Html.scan_append htop herror) hform
  have hfields := Html.scan_append (Html.scan_append (Html.scan_append (Html.scan_append hbefore
    (scan_hiddenField (show "client_id" ∈ hiddenNames by decide) clientId))
    (scan_hiddenField (show "redirect_uri" ∈ hiddenNames by decide) redirectUri))
    (scan_hiddenField (show "state" ∈ hiddenNames by decide) state))
    (scan_hiddenField (show "response_type" ∈ hiddenNames by decide) responseType)
  have hpage := Html.scan_append hfields hbottom
  simp only [← String.toList_append] at hpage
  rw [loginFormHtml, hpage]
  simp only [tagsBefore, hiddenFields, List.append_assoc, List.cons_append, List.nil_append]

theorem filter_hiddenFields (clientId redirectUri state responseType : String) :
    (hiddenFields clientId redirectUri state responseType).filter isHidden =
      hiddenFields clientId redirectUri state responseType := by
  rw [List.filter_eq_self]
  intro t ht
  simp only [hiddenFields, List.mem_cons, List.not_mem_nil, or_false] at ht
  rcases ht with rfl | rfl | rfl | rfl <;> rfl

/-- **What is put into the page is in it, and stays where it was put.**  An escaped text is safe and
stands for the text; the page's hidden inputs are the four parameters, its other tags do not depend on
them, and no parameter ends the value that it is read in. -/
theorem login_page_holds_parameters :
    (∀ s : String, Escapes s (htmlEscape s).toList) ∧
      ∀ (clientId redirectUri state responseType : String) (error : Bool),
        Html.scan .text (loginFormHtml clientId redirectUri state responseType error).toList =
            (tagsBefore error ++ hiddenFields clientId redirectUri state responseType ++
              tags pageBottom, .text) ∧
          (tags (loginFormHtml clientId redirectUri state responseType error)).filter isHidden =
            hiddenFields clientId redirectUri state responseType ∧
          ∀ parameter ∈ [clientId, redirectUri, state, responseType],
            ∀ (tag : Html.Tag) (name : List Char),
              Html.scan (.quoted tag name '"' []) (htmlEscape parameter).toList =
                ([], .quoted tag name '"' (htmlEscape parameter).toList) := by
  refine ⟨escapes_htmlEscape, fun clientId redirectUri state responseType error => ?_⟩
  have hpage := scan_loginFormHtml clientId redirectUri state responseType error
  refine ⟨hpage, ?_, fun parameter _ tag name => ?_⟩
  · rw [tags, hpage, tagsBefore]
    simp only [List.filter_append, not_hidden_pageTop, not_hidden_errorBlock, not_hidden_formTop,
      not_hidden_pageBottom, filter_hiddenFields, List.nil_append, List.append_nil]
  · rw [Html.scan_quoted tag name (escapes_htmlEscape parameter).quote_not_mem [], List.nil_append]

end Picoshift.OAuth

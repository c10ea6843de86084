/-
# Requests, answers and the login page

`oauth/helpers.rs`.  Parameters are a map collected from a query string or a form body, so the
LAST of several values of one name counts.  An answer is a status, its headers and a body; a
JSON body is kept as the value whose text is sent.

`login_form_html` is given as the text it produces.  Its four hidden fields are one line each,
with one template (`hiddenInput`).
-/
import Picoshift.Lib.Form
import Picoshift.OAuth.Types

namespace Picoshift.OAuth

/-! ## 1. Answers -/

inductive Body where
  | text (s : String)
  | json (j : Json)

structure Response where
  status : Nat
  headers : List (String × String)
  body : Body

namespace Response

/-- The value of a header. -/
def header (r : Response) (name : String) : Option String := r.headers.lookup name

/-- The body, read as JSON. -/
def jsonBody (r : Response) : Option Json :=
  match r.body with
  | .json j => some j
  | .text _ => none

end Response

def jsonResponse (status : Nat) (body : Json) : Response :=
  ⟨status, [("content-type", "application/json")], .json body⟩

def textResponse (status : Nat) (body : String) : Response := ⟨status, [], .text body⟩

def htmlResponse (status : Nat) (body : String) : Response :=
  ⟨status, [("content-type", "text/html; charset=utf-8")], .text body⟩

/-- The body of a refused token request. -/
def errorJson (error : String) (description : Option String) : Json :=
  .obj (("error", .str error) :: match description with
    | some d => [("error_description", .str d)]
    | none => [])

/-! ## 2. Parameters -/

def parseQuery (query : Option String) : Map String String :=
  (query.map fun q => Map.ofPairs (Form.parse (Utf8.encode q))).getD Map.empty

def parseFormBody (body : List UInt8) : Map String String := Map.ofPairs (Form.parse body)

/-! ## 3. The login page -/

/-- `s.replace(c, r)`. -/
def replaceChar (s : String) (c : Char) (r : String) : String :=
  String.ofList (s.toList.flatMap fun x => if x = c then r.toList else [x])

def htmlEscape (s : String) : String :=
  replaceChar (replaceChar (replaceChar (replaceChar s '&' "&amp;") '<' "&lt;") '>' "&gt;")
    '"' "&quot;"

/-- One hidden field of the form. -/
def hiddenInput (name value : String) : String :=
  "    <input type=\"hidden\" name=\"" ++ name ++ "\" value=\"" ++ htmlEscape value ++ "\">\n"

def errorBlock (error : Bool) : String :=
  if error then
    "<div style=\"background:#c9190b;color:#fff;padding:8px 12px;border-radius:4px;margin-bottom:16px;font-size:14px\">Invalid username or password. Please try again.</div>"
  else ""

/-- The page up to the error message. -/
def pageTop : String :=
"<!DOCTYPE html>
<html lang=\"en\">
<head>
<meta charset=\"utf-8\">
<meta name=\"viewport\" content=\"width=device-width, initial-scale=1\">
<title>Log in to ocp-sim</title>
<style>
  body \x7b margin:0; font-family:-apple-system,BlinkMacSystemFont,\"Segoe UI\",Roboto,sans-serif;
         background:#151515; color:#e0e0e0; display:flex; align-items:center; justify-content:center; min-height:100vh; \x7d
  .card \x7b background:#1e1e1e; border:1px solid #333; border-radius:8px; padding:32px; width:340px; \x7d
  h1 \x7b font-size:20px; margin:0 0 24px; text-align:center; \x7d
  label \x7b display:block; font-size:13px; margin-bottom:4px; \x7d
  input[type=text], input[type=password] \x7b width:100%; padding:8px; margin-bottom:16px;
         border:1px solid #555; border-radius:4px; background:#2a2a2a; color:#e0e0e0;
         font-size:14px; box-sizing:border-box; \x7d
  button \x7b width:100%; padding:10px; background:#0066cc; color:#fff; border:none;
           border-radius:4px; font-size:14px; cursor:pointer; \x7d
  button:hover \x7b background:#004c99; \x7d
</style>
</head>
<body>
<div class=\"card\">
  <h1>Log in to ocp-sim</h1>
  "

/-- The page between the error message and the hidden fields. -/
def formTop : String :=
"
  <form method=\"POST\" action=\"/oauth/authorize\">
"

/-- The page from the visible fields on. -/
def pageBottom : String :=
"    <label for=\"username\">Username</label>
    <input type=\"text\" id=\"username\" name=\"username\" autocomplete=\"username\" autofocus>
    <label for=\"password\">Password</label>
    <input type=\"password\" id=\"password\" name=\"password\" autocomplete=\"current-password\">
    <button type=\"submit\">Log in</button>
  </form>
</div>
</body>
</html>"

def loginFormHtml (clientId redirectUri state responseType : String) (error : Bool) : String :=
  pageTop ++ errorBlock error ++ formTop ++
    hiddenInput "client_id" clientId ++
    hiddenInput "redirect_uri" redirectUri ++
    hiddenInput "state" state ++
    hiddenInput "response_type" responseType ++
    pageBottom

end Picoshift.OAuth

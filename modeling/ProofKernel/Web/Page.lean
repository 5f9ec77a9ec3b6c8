/-!
# The page

The page on which a script can be edited and checked.

* `Page.render` is the page with a script in it.
-/

set_option autoImplicit false
namespace ProofKernel
namespace Page

/-- A character inside an element: what would be read as markup is written by a name or by its
number. -/
def escape (c : Char) : String :=
  match c with
  | '<' => "&lt;"
  | '>' => "&gt;"
  | '&' => "&amp;"
  | '"' => "&#34;"
  | '\'' => "&#39;"
  | '+' => "&#43;"
  | '\x00' => "\uFFFD"
  | c => c.toString

/-- The script of a new page. -/
def sample : String :=
  "(* Natural numbers and addition by structural recursion. *)\n" ++
    "Inductive Nat := Zero : Nat | Succ : Nat -> Nat.\n" ++
    "\n" ++
    "Definition plus : Nat -> Nat -> Nat :=\n" ++
    "  fix plus => fun n : Nat => fun m : Nat =>\n" ++
    "    match n return Nat with\n" ++
    "    | Zero => m\n" ++
    "    | Succ k => Succ (plus k m)\n" ++
    "    end.\n" ++
    "\n" ++
    "Check plus.\n" ++
    "Eval plus (Succ (Succ Zero)) (Succ Zero).\n"

/-- The page up to the script. -/
def top : String :=
  "<!DOCTYPE html>\n" ++
    "<html lang=\"en\">\n" ++
    "<head>\n" ++
    "  <meta charset=\"utf-8\">\n" ++
    "  <title>kernel</title>\n" ++
    "  <style>\n" ++
    "    body \x7b font-family: sans-serif; margin: 2em; \x7d\n" ++
    "    textarea, pre \x7b width: 100%; font-family: monospace; font-size: 14px; \x7d\n" ++
    "    textarea \x7b height: 24em; \x7d\n" ++
    "    pre \x7b background: #f4f4f4; padding: 1em; min-height: 6em; " ++
    "white-space: pre-wrap; \x7d\n" ++
    "  </style>\n" ++
    "</head>\n" ++
    "<body>\n" ++
    "  <h1>kernel</h1>\n" ++
    "  <form id=\"form\">\n" ++
    "    <input type=\"hidden\" name=\"filename\" value=\"main.v\">\n" ++
    "    <textarea name=\"code\" spellcheck=\"false\">"

/-- The page behind the script. -/
def bottom : String :=
  "</textarea>\n" ++
    "    <p>\n" ++
    "      <label><input type=\"checkbox\" name=\"trace\" value=\"1\"> trace</label>\n" ++
    "      <button type=\"submit\">Check</button>\n" ++
    "    </p>\n" ++
    "  </form>\n" ++
    "  <pre id=\"output\"></pre>\n" ++
    "  <script>\n" ++
    "    document.getElementById(\"form\").addEventListener(\"submit\", async (e) => \x7b\n" ++
    "      e.preventDefault();\n" ++
    "      const out = document.getElementById(\"output\");\n" ++
    "      out.textContent = \"checking...\";\n" ++
    "      const resp = await fetch(\"/check\", " ++
    "\x7b method: \"POST\", body: new FormData(e.target) \x7d);\n" ++
    "      out.textContent = await resp.text();\n" ++
    "    \x7d);\n" ++
    "  </script>\n" ++
    "</body>\n" ++
    "</html>\n"

/-- The page with a script in it. -/
def render (script : String) : String :=
  top ++ String.join (script.toList.map escape) ++ bottom

end Page
end ProofKernel

/-!
# HTML

A page is put together from markup, which is written as it is, and from texts, whose special
characters are escaped, so that no text can open or close a tag or an attribute.

**Results.**
* `not_mem_escape`: an escaped text has no special characters.
-/

namespace ContrastAudit.Report

/-- A piece of a page. -/
inductive Html
  | markup (s : String)
  | text (s : String)
  deriving DecidableEq, Repr

namespace Html

/-- A character of a text. -/
def escapeChar (c : Char) : List Char :=
  if c = '&' then "&amp;".toList
  else if c = '<' then "&lt;".toList
  else if c = '>' then "&gt;".toList
  else if c = '\'' then "&#39;".toList
  else if c = '"' then "&#34;".toList
  else [c]

/-- The characters of a text, escaped. -/
def escape (cs : List Char) : List Char :=
  cs.flatMap escapeChar

/-- A piece as it is written. -/
def render : Html → List Char
  | .markup s => s.toList
  | .text s => escape s.toList

/-- A page as it is written. -/
def page (pieces : List Html) : String :=
  String.ofList (pieces.flatMap render)

/-- The characters that have a meaning in markup. -/
def special : List Char :=
  ['<', '>', '"', '\'']

theorem not_mem_escape {c : Char} (h : c ∈ special) (cs : List Char) : c ∉ escape cs := by
  have single (d : Char) : c ∉ escapeChar d := by
    simp only [special, List.mem_cons, List.not_mem_nil, or_false] at h
    unfold escapeChar
    rcases h with rfl | rfl | rfl | rfl <;>
      (repeat' split) <;> simp_all [Ne.symm]
  simp only [escape, List.mem_flatMap, not_exists, not_and]
  exact fun d _ => single d

end Html

end ContrastAudit.Report

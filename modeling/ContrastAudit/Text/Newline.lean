/-!
# Line ends

Files may end their lines with a carriage return, with a line feed, or with both; in the text that
is read from a file every line ends with a line feed.

**Results.**
* `not_mem_unifyLines`: what is read has no carriage returns.
-/

namespace ContrastAudit.Text

/-- A text with a line feed for every line end. -/
def unifyLines : List Char → List Char
  | [] => []
  | '\r' :: '\n' :: cs => '\n' :: unifyLines cs
  | '\r' :: cs => '\n' :: unifyLines cs
  | c :: cs => c :: unifyLines cs

theorem not_mem_unifyLines (cs : List Char) : '\r' ∉ unifyLines cs := by
  fun_induction unifyLines cs with
  | case1 => simp
  | case2 cs ih => simp [ih]
  | case3 cs _ ih => simp [ih]
  | case4 c cs _ hr ih =>
    simp only [List.mem_cons, not_or]
    exact ⟨fun h => hr h.symm, ih⟩

end ContrastAudit.Text

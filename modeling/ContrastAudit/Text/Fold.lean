/-!
# Words without regard to case

Some words are recognised in either case, and then also in the few letters of other alphabets that
fold to ASCII ones: the dotted and the dotless i, the long s and the Kelvin sign.

**Results.**
* `length_of_restAfterWord?`: what is behind a word is shorter than the text by the word.
-/

namespace ContrastAudit.Text

/-- Whether `c` is the lower-case ASCII letter `l` up to case folding. -/
def sameLetter (l c : Char) : Bool :=
  c.toLower == l ||
    match l with
    | 'i' => c == 'ı' || c == 'İ'
    | 's' => c == 'ſ'
    | 'k' => c == 'K'
    | _ => false

/-- The rest of a text after `word`, which is given in lower case, if it starts so up to case. -/
def restAfterWord? : List Char → List Char → Option (List Char)
  | [], cs => some cs
  | _ :: _, [] => none
  | l :: word, c :: cs => if sameLetter l c then restAfterWord? word cs else none

theorem length_of_restAfterWord? {word cs rest : List Char}
    (h : restAfterWord? word cs = some rest) : cs.length = word.length + rest.length := by
  fun_induction restAfterWord? word cs with
  | case1 => simp_all
  | case2 => simp at h
  | case3 l word c cs _ ih => simp [ih h]; omega
  | case4 => simp at h

end ContrastAudit.Text

import ContrastAudit.Text.Range

/-!
# Styled text

Text for terminals is colored and weighted by control sequences: an escape character, a bracket,
numbers and a letter.  Where text does not go to a terminal they are taken out again, whoever wrote
them.

**Results.**
* `strip_of_not_mem`: a text without escape characters stays as it is.
-/

namespace ContrastAudit.Report

/-- The colors of styled text. -/
inductive Ink
  | red
  | green
  | yellow
  | cyan
  deriving DecidableEq, Repr

/-- The number of a color. -/
def Ink.code : Ink → String
  | .red => "31"
  | .green => "32"
  | .yellow => "33"
  | .cyan => "36"

/-- How a text is styled. -/
structure Style where
  ink : Option Ink := none
  bold : Bool := false
  dim : Bool := false
  deriving DecidableEq, Repr

namespace Style

/-- A control sequence. -/
def control (code : String) : String :=
  "\x1b[" ++ code ++ "m"

/-- A text in a style: color, weight and strength are switched on before it, and everything is
switched off behind it. -/
def apply (style : Style) (text : String) : String :=
  (style.ink.elim "" fun ink => control ink.code) ++ (if style.bold then control "1" else "") ++
    (if style.dim then control "2" else "") ++ text ++ control "0"

/-- Whether a character may stand between the bracket and the letter of a control sequence. -/
def isParameter (c : Char) : Bool :=
  c == ';' || c == '?' || Text.isAsciiDigit c

/-- A text without control sequences, where `held` is the start of what may be one. -/
def stripFrom (held : List Char) : List Char → List Char
  | [] => held
  | c :: cs =>
    if c = '\x1b' then held ++ stripFrom [c] cs
    else if held = [] then c :: stripFrom [] cs
    else if held = ['\x1b'] then
      if c = '[' then stripFrom (held ++ [c]) cs else held ++ c :: stripFrom [] cs
    else if isParameter c then stripFrom (held ++ [c]) cs
    else if Text.isAsciiLetter c then stripFrom [] cs
    else held ++ c :: stripFrom [] cs

/-- A text without control sequences. -/
def strip (text : String) : String :=
  String.ofList (stripFrom [] text.toList)

theorem stripFrom_of_not_mem {cs : List Char} (h : '\x1b' ∉ cs) : stripFrom [] cs = cs := by
  induction cs with
  | nil => rfl
  | cons c cs ih =>
    rw [List.mem_cons, not_or] at h
    simp [stripFrom, Ne.symm h.1, ih h.2]

theorem strip_of_not_mem {text : String} (h : '\x1b' ∉ text.toList) : strip text = text := by
  simp [strip, stripFrom_of_not_mem h]

end Style

end ContrastAudit.Report

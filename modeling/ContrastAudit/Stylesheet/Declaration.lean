import ContrastAudit.Stylesheet.Sheet
import ContrastAudit.Text.Fold

/-!
# Statements of style sheets

How the texts between semicolons are read: comments inside of them vanish, a declaration is a
property and a value on the two sides of a colon, and an import names a target that is followed
only if it is local.
-/

namespace ContrastAudit.Stylesheet

/-- The text behind the end of a comment, given the text behind its start. -/
def afterComment? : List Char → Option (List Char)
  | '*' :: '/' :: cs => some cs
  | _ :: cs => afterComment? cs
  | [] => none

theorem length_le_of_afterComment? {cs rest : List Char} (h : afterComment? cs = some rest) :
    rest.length ≤ cs.length := by
  fun_induction afterComment? cs with
  | case1 cs => simp_all; omega
  | case2 c cs _ ih => have := ih h; simp; omega
  | case3 => simp at h

/-- A text without its closed comments. -/
def dropComments (cs : List Char) : List Char :=
  match cs with
  | [] => []
  | '/' :: '*' :: cs =>
    match h : afterComment? cs with
    | some rest =>
      have := length_le_of_afterComment? h
      dropComments rest
    | none => '/' :: '*' :: dropComments cs
  | c :: cs => c :: dropComments cs
termination_by cs.length

/-- A text without its comments and without blanks at its ends. -/
def clean (cs : List Char) : List Char :=
  Text.trim (dropComments cs)

/-- A value without a final mark of importance, which may be written in either case and with
blanks. -/
def dropImportant (value : List Char) : List Char :=
  match Text.restAfterWord? "tnatropmi".toList value.reverse with
  | none => value
  | some rest =>
    match Text.trimStart rest with
    | '!' :: rest => (Text.trimStart rest).reverse
    | _ => value

/-- Whether a property is a custom one. -/
def isCustom (property : List Char) : Bool :=
  "--".toList.isPrefixOf property

/-- The property and the value of a declaration; the property is in lower case unless it is a custom
one. -/
def declaration? (text : List Char) : Option (String × String) := do
  let (property, value) ← Text.cut ':' (clean text)
  let property := Text.trim property
  let value := dropImportant (Text.trim value)
  if property.isEmpty || value.isEmpty then none
  else
    some (String.ofList (if isCustom property then property else Text.lower property),
      String.ofList value)

/-- Whether a background is an image, which says nothing about colors. -/
def isImage (value : List Char) : Bool :=
  Text.occurs "url(".toList (Text.lower value) || Text.occurs "gradient".toList (Text.lower value)

/-! ## Imports -/

/-- The starts of targets that are not local. -/
def external : List String :=
  ["http://", "https://", "//"]

/-- The text between two quotes of the same kind, which holds no quote, and the rest. -/
def quotedTarget? : List Char → Option (List Char × List Char)
  | q :: cs =>
    if q = '"' ∨ q = '\'' then
      let inside := cs.takeWhile fun c => c != '"' && c != '\''
      match cs.drop inside.length with
      | c :: rest => if c = q then some (inside, rest) else none
      | [] => none
    else none
  | [] => none

/-- The target in `url(…)`, given the text behind the parenthesis; quotes are optional. -/
def urlTarget? (cs : List Char) : Option (List Char) :=
  let cs := Text.trimStart cs
  match quotedTarget? cs with
  | some (inside, rest) =>
    if inside.contains ')' then none
    else if (Text.trimStart rest).head? = some ')' then some inside else none
  | none =>
    let inside := cs.takeWhile fun c => c != '"' && c != '\'' && c != ')'
    if (cs.drop inside.length).head? = some ')' then some inside else none

/-- The local target of an import statement. -/
def importTarget? (statement : List Char) : Option String := do
  let rest ← Text.restAfterWord? "@import".toList statement
  let target := Text.trimStart rest
  if target.length = rest.length then none
  else
    let path ←
      match Text.restAfterWord? "url(".toList target with
      | some inside => urlTarget? inside
      | none => (quotedTarget? target).map (·.1)
    let path := String.ofList (Text.trim path)
    if path = "" || external.any (Text.startsWith path) then none else some path

end ContrastAudit.Stylesheet

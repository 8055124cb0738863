import ContrastAudit.Document.Element
import ContrastAudit.Stylesheet.Declaration

/-!
# Style attributes

The value of a style attribute is a list of declarations between semicolons, which count wherever
they stand.  Of several values for one property the last one counts; a background shorthand sets the
background color unless it is an image.

**Results.**
* `readAll_append`: a later declaration list overrides an earlier one.
-/

namespace ContrastAudit.InlineStyle

/-- The inline style with one more declaration. -/
def set (style : InlineStyle) (property value : String) : InlineStyle :=
  match property with
  | "color" => { style with color := some value }
  | "background-color" => { style with background := some value }
  | "font-size" => { style with fontSize := some value }
  | "font-weight" => { style with fontWeight := some value }
  | _ => style

/-- The inline style with the declaration that a text between semicolons writes, if it writes
one. -/
def read (style : InlineStyle) (text : List Char) : InlineStyle :=
  match Text.cut ':' text with
  | none => style
  | some (property, value) =>
    let property := Text.lowercase (Text.strip (String.ofList property))
    let value := Text.trim value
    if value.isEmpty then style
    else if property = "background" then
      if Stylesheet.isImage value then style
      else style.set "background-color" (String.ofList value)
    else style.set property (String.ofList value)

/-- The inline style with all declarations of a list. -/
def readAll (style : InlineStyle) (texts : List (List Char)) : InlineStyle :=
  texts.foldl read style

/-- The inline style that an attribute value writes. -/
def parse (value : String) : InlineStyle :=
  readAll {} (Text.pieces ';' value.toList)

theorem readAll_append (style : InlineStyle) (a b : List (List Char)) :
    style.readAll (a ++ b) = (style.readAll a).readAll b := by
  simp [readAll, List.foldl_append]

end ContrastAudit.InlineStyle

import ContrastAudit.Markup.Builder
import ContrastAudit.Markup.Frontmatter
import ContrastAudit.Markup.Scan
import ContrastAudit.Stylesheet.Parse

/-!
# Pages

What is read from one marked-up text: the document of its elements, the sheet of its style elements
and the style sheets it refers to, those of the frontmatter first.
-/

namespace ContrastAudit.Markup

/-- The content of a marked-up text. -/
structure Page where
  document : Document
  sheet : Sheet
  linked : List String

/-- The page that a text writes. -/
def Page.parse (source : String) : Except MarkupError Page := do
  let (block, body) ← Frontmatter.split source.toList
  let builder := Builder.run (← events body)
  return {
    document := builder.document
    sheet := Stylesheet.parse ("\n".intercalate builder.styles)
    linked := Frontmatter.imports block ++ builder.links }

end ContrastAudit.Markup

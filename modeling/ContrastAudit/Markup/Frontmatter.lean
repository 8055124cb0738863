import ContrastAudit.Markup.Event
import ContrastAudit.Text.Blank
import ContrastAudit.Text.Cut

/-!
# Frontmatter

A component may start with a block between two lines of three hyphens.  The style sheets that the
block imports are of interest; the markup starts behind it.  In the markup the block is replaced by
its line breaks, so that every later line keeps its number.

**Results.**
* `suffix_of_content?`: what stands behind the block is the end of the text.
-/

namespace ContrastAudit.Markup.Frontmatter

/-- The hyphens around the block. -/
def fence : List Char :=
  ['-', '-', '-']

/-- A text without leading blanks of a line. -/
def skipIndent (cs : List Char) : List Char :=
  cs.dropWhile fun c => c == ' ' || c == '\t'

/-- The text behind the first line, given the text behind its hyphens. -/
def afterOpening? (cs : List Char) : Option (List Char) :=
  match skipIndent cs with
  | '\n' :: cs => some cs
  | '\r' :: '\n' :: cs => some cs
  | _ => none

/-- The text behind the closing hyphens, if a line starts with them and ends with blanks. -/
def afterClosing? (cs : List Char) : Option (List Char) := do
  let rest := skipIndent (← Text.rest? fence cs)
  if rest.isEmpty || rest.head? = some '\n' then some rest else none

/-- The content of the block and the text behind it; `lineStart` tells that a line has just
started. -/
def content? (lineStart : Bool) (cs : List Char) : Option (List Char × List Char) :=
  match if lineStart then afterClosing? cs else none with
  | some rest => some ([], rest)
  | none =>
    match cs with
    | [] => none
    | c :: cs => (content? (c == '\n') cs).map fun (content, rest) => (c :: content, rest)

/-- The block without its fences, and the markup with the block replaced by line breaks. -/
def split (source : List Char) : Except MarkupError (List Char × List Char) :=
  let body := Text.trimStart source
  match Text.rest? fence body with
  | none => .ok ([], source)
  | some rest =>
    match (afterOpening? rest).bind (content? true) with
    | some (content, rest) =>
      let block := source.take (source.length - rest.length)
      .ok (content, List.replicate (block.count '\n') '\n' ++ rest)
    | none =>
      .error (.unclosedFrontmatter ((source.take (source.length - body.length)).count '\n' + 1))

/-- The style sheet file between the quotes at the start of a text. -/
def quotedFile? : List Char → Option (List Char)
  | [] => none
  | q :: cs =>
    let isQuote (c : Char) : Bool := c == '"' || c == '\''
    let file := cs.takeWhile (!isQuote ·)
    if isQuote q && file.length < cs.length && 4 < file.length && ".css".toList.isSuffixOf file then
      some file
    else none

/-- The imported style sheet that the word `import` at the start of a text names, with the length of
the import. -/
def import? (cs : List Char) : Option (List Char × Nat) := do
  let rest ← Text.rest? "import".toList cs
  let gap := (rest.takeWhile Text.isBlank).length
  if gap = 0 then none
  else
    let file ← quotedFile? (rest.drop gap)
    return (file, 6 + gap + file.length + 2)

/-- The style sheets that the content of the block imports. -/
def imports (cs : List Char) : List String :=
  match cs with
  | [] => []
  | c :: cs =>
    match import? (c :: cs) with
    | some (file, length) => String.ofList file :: imports (cs.drop (length - 1))
    | none => imports cs
termination_by cs.length

theorem suffix_of_content? {lineStart : Bool} {cs content rest : List Char}
    (h : content? lineStart cs = some (content, rest)) : rest <:+ cs := by
  induction cs generalizing lineStart content with
  | nil =>
    unfold content? at h
    split at h
    · next r hr =>
      cases h
      split at hr
      · simp [afterClosing?, Text.rest?, fence] at hr
      · contradiction
    · contradiction
  | cons c cs ih =>
    unfold content? at h
    split at h
    · next r hr =>
      cases h
      split at hr
      · simp only [afterClosing?, Option.bind_eq_bind, Option.bind_eq_some_iff] at hr
        obtain ⟨word, hword, hr⟩ := hr
        split at hr
        · cases hr
          unfold Text.rest? at hword
          split at hword
          · cases hword
            exact (List.dropWhile_suffix _).trans (List.drop_suffix _ _)
          · contradiction
        · contradiction
      · contradiction
    · obtain ⟨⟨content', rest'⟩, h', heq⟩ := Option.map_eq_some_iff.1 h
      cases heq
      exact (ih h').trans (List.suffix_cons ..)

end ContrastAudit.Markup.Frontmatter

import ContrastAudit.Json.Display
import ContrastAudit.Yaml.Scalar
import ContrastAudit.Yaml.Text

/-!
# Reading documents by indentation

A document is a scalar, a sequence or a mapping, in block style by indentation or in flow style
between brackets.  Keys are scalars on one line and count by the texts they show.  There are no
anchors, tags, directives and block texts, and a text holds one document.
-/

namespace ContrastAudit.Yaml

/-- The entries of a mapping by their keys. -/
abbrev Entries := List (Json × Json)

/-- Sets an entry: an entry with that key keeps its place. -/
def setEntry (key value : Json) : Entries → Entries
  | [] => [(key, value)]
  | (k, old) :: entries =>
    if k.display = key.display then (k, value) :: entries
    else (k, old) :: setEntry key value entries

/-- The mapping of some entries. -/
def ofEntries (entries : Entries) : Json :=
  .object (entries.map fun (key, value) => (key.shown, value))

/-- Whether a value may be a key. -/
def isKey : Json → Bool
  | .array _ | .object _ => false
  | _ => true

/-- What is to be read. -/
inductive Goal
  /-- A scalar or a flow collection; further lines of a scalar start at the column `least`. -/
  | content (flow : Bool) (least : Nat)
  /-- The items of a flow sequence. -/
  | items (seen : List Json)
  /-- The entries of a flow mapping. -/
  | entries (seen : Entries)
  /-- The value behind a colon in a flow collection. -/
  | flowValue
  /-- A value at the column `least` or behind it, or a sequence at the column `dash` or behind it;
  a block collection only if it is `fresh`. -/
  | node (least dash : Nat) (fresh : Bool)
  /-- A block sequence at a column. -/
  | sequence (column : Nat) (seen : List Json)
  /-- A block mapping at a column, before a key. -/
  | keys (column : Nat) (seen : Entries)
  /-- A block mapping at a column, before a colon. -/
  | value (column : Nat) (key : Json) (seen : Entries)

/-- The value that is read, and what is behind it; `fuel` bounds the number of steps. -/
def read (fuel : Nat) (goal : Goal) (s : Source) : Except ReadError (Json × Source) :=
  match fuel with
  | 0 => s.refuse
  | fuel + 1 =>
    match goal with
    | .content flow least =>
      match s.rest with
      | '"' :: _ => do
        let (text, s) ← quoted '"' s
        return (.string text, s)
      | '\'' :: _ => do
        let (text, s) ← quoted '\'' s
        return (.string text, s)
      | '[' :: _ => read fuel (.items []) s.next.skip
      | '\x7b' :: _ => read fuel (.entries []) s.next.skip
      | cs =>
        if startsPlain flow cs then
          let (text, s) := plain flow least s
          .ok (resolve text, s)
        else s.refuse
    | .items seen =>
      if s.rest.head? == some ']' then .ok (.array seen.reverse, s.next)
      else do
        let (item, behind) ← read fuel (.content true 0) s
        let behind := behind.skip
        let (item, behind) ←
          if behind.rest.head? == some ':' && behind.line == s.line && isKey item then do
            let (value, behind) ← read fuel .flowValue behind.next.skip
            pure (ofEntries [(item, value)], behind.skip)
          else pure (item, behind)
        match behind.rest with
        | ',' :: _ => read fuel (.items (item :: seen)) behind.next.skip
        | ']' :: _ => return (.array (item :: seen).reverse, behind.next)
        | _ => behind.refuse
    | .entries seen =>
      if s.rest.head? == some '\x7d' then .ok (ofEntries seen, s.next)
      else do
        let (key, behind) ← read fuel (.content true 0) s
        let behind := behind.skip
        if !isKey key then s.refuse
        else
          let (value, behind) ←
            if behind.rest.head? == some ':' && behind.line == s.line then do
              let (value, behind) ← read fuel .flowValue behind.next.skip
              pure (value, behind.skip)
            else pure (Json.null, behind)
          match behind.rest with
          | ',' :: _ => read fuel (.entries (setEntry key value seen)) behind.next.skip
          | '\x7d' :: _ => return (ofEntries (setEntry key value seen), behind.next)
          | _ => behind.refuse
    | .flowValue =>
      if s.rest.head?.any [',', ']', '\x7d'].contains then .ok (.null, s)
      else read fuel (.content true 0) s
    | .node least dash fresh =>
      if s.isEnd then .ok (.null, s)
      else if s.isIndicator '-' then
        if !fresh then s.refuse
        else if s.column < dash then .ok (.null, s)
        else read fuel (.sequence s.column []) s
      else if s.column < least then .ok (.null, s)
      else do
        let (found, behind) ← read fuel (.content false least) s
        let colon := behind.skip
        if colon.isIndicator ':' then
          if fresh && colon.line == s.line && isKey found then
            read fuel (.value s.column found []) colon
          else colon.refuse
        else return (found, behind)
    | .sequence column seen => do
      let (item, behind) ← read fuel (.node (column + 1) (column + 1) true) s.next.skip
      let behind := behind.skip
      if !behind.isEnd && behind.column == column && behind.isIndicator '-' then
        read fuel (.sequence column (item :: seen)) behind
      else return (.array (item :: seen).reverse, behind)
    | .keys column seen => do
      let (key, behind) ← read fuel (.content false (column + 1)) s
      let colon := behind.skip
      if colon.isIndicator ':' && colon.line == s.line && isKey key then
        read fuel (.value column key seen) colon
      else colon.refuse
    | .value column key seen => do
      let start := s.next.skip
      let (value, behind) ← read fuel (.node (column + 1) column (start.line != s.line)) start
      let behind := behind.skip
      let seen := setEntry key value seen
      if !behind.isEnd && behind.column == column then read fuel (.keys column seen) behind
      else return (ofEntries seen, behind)

/-- Whether a character may stand in a text. -/
def isAllowed (c : Char) : Bool :=
  c == '\t' || c == '\n' || c == '\r' || c == '\u0085' || (' ' ≤ c && c ≤ '~') ||
    ('\u00a0' ≤ c && c != '\ufffe' && c != '\uffff')

/-- What is behind the signs that end a document. -/
def skipEnds : Nat → Source → Source
  | 0, s => s
  | fuel + 1, s =>
    if s.column == 0 && Source.startsMarker '.' s.rest then skipEnds fuel (s.advance 3).skip else s

/-- The document that a text writes, which must not start with the signs that end one. -/
def parse (text : String) : Except ReadError Json := do
  let cs := if text.toList.head? = some '\ufeff' then text.toList.drop 1 else text.toList
  if !cs.all isAllowed then Source.refuse ⟨cs.dropWhile isAllowed, 0, 0⟩
  else
    let s := (Source.mk cs 0 0).skip
    let marked (c : Char) : Bool := s.column == 0 && Source.startsMarker c s.rest
    let explicit := marked '-'
    if marked '.' then s.refuse
    let root := if explicit then (s.advance 3).skip else s
    let fresh := !explicit || root.line != s.line
    let (document, behind) ← read (4 * cs.length + 4) (.node 0 0 fresh) root
    let behind := skipEnds cs.length behind.skip
    if behind.rest.isEmpty then return document else behind.refuse

end ContrastAudit.Yaml

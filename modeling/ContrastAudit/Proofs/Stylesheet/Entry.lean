import ContrastAudit.Proofs.Text.Trim
import ContrastAudit.Stylesheet.Parse

/-!
# Style sheets as they are meant

A style sheet is meant as a tree of declarations, rules, at-rules, imports and comments.  This
module says which trees are plain enough to be written down, which texts write a tree, and what a
tree emits: rules, custom properties and targets of imports, in the order in which they stand.
-/

namespace ContrastAudit.Stylesheet

/-- One entry of a style sheet or of the body of a rule. -/
inductive Entry
  | declaration (property value : List Char)
  | rule (selectors : List (List Char)) (body : List Entry)
  | atRule (name prelude : List Char) (body : List Entry)
  | importing (path : List Char)
  | comment (text : List Char)

/-! ## Plain entries -/

/-- The characters that plain texts do without. -/
def reserved : List Char :=
  ['"', '\'', '\x7b', '\x7d', ';', '&', '@', '\\', '!', '/']

/-- The number of open parentheses behind a character; a parenthesis that closes nothing does not
count. -/
def parensAfter (parens : Nat) (c : Char) : Nat :=
  if c = '(' then parens + 1 else if c = ')' then parens - 1 else parens

/-- The number of open parentheses behind a text. -/
def openParens (parens : Nat) (text : List Char) : Nat :=
  text.foldl parensAfter parens

/-- Every parenthesis that a text opens is closed in it. -/
def ClosesParens (text : List Char) : Prop :=
  openParens 0 text = 0

instance (text : List Char) : Decidable (ClosesParens text) :=
  inferInstanceAs (Decidable (openParens 0 text = 0))

/-- A trimmed text without reserved characters. -/
structure IsPlain (text : List Char) : Prop where
  trimmed : Text.IsTrimmed text
  free : ∀ c ∈ text, c ∉ reserved

instance (text : List Char) : Decidable (IsPlain text) :=
  decidable_of_iff (Text.IsTrimmed text ∧ text.any reserved.contains = false)
    ⟨fun h => ⟨h.1, by simpa using h.2⟩, fun h => ⟨h.trimmed, by simpa using h.free⟩⟩

/-- A selector, which holds neither commas nor brackets. -/
structure IsSelector (text : List Char) : Prop extends IsPlain text where
  simple : ∀ c ∈ text, c ∉ [',', '(', ')', '[', ']']

instance (text : List Char) : Decidable (IsSelector text) :=
  decidable_of_iff (IsPlain text ∧ text.any [',', '(', ')', '[', ']'].contains = false)
    ⟨fun h => ⟨h.1, by simpa using h.2⟩, fun h => ⟨h.toIsPlain, by simpa using h.simple⟩⟩

/-- The name of a property, in lower case or a custom one. -/
structure IsProperty (text : List Char) : Prop extends IsPlain text where
  no_colon : ':' ∉ text
  lower_or_custom : Text.lower text = text ∨ isCustom text = true

instance (text : List Char) : Decidable (IsProperty text) :=
  decidable_of_iff
    (IsPlain text ∧ ':' ∉ text ∧ (Text.lower text = text ∨ isCustom text = true))
    ⟨fun h => ⟨h.1, h.2.1, h.2.2⟩, fun h => ⟨h.toIsPlain, h.no_colon, h.lower_or_custom⟩⟩

/-- A value, or what stands behind the name of an at-rule. -/
structure IsValue (text : List Char) : Prop extends IsPlain text where
  closes : ClosesParens text

instance (text : List Char) : Decidable (IsValue text) :=
  decidable_of_iff (IsPlain text ∧ ClosesParens text)
    ⟨fun h => ⟨h.1, h.2⟩, fun h => ⟨h.toIsPlain, h.closes⟩⟩

/-- Letters, digits and hyphens. -/
def isAtNameChar (c : Char) : Bool :=
  Text.isAsciiLetter c || Text.isAsciiDigit c || c == '-'

/-- Whether a text starts with a letter, or with a hyphen and a letter. -/
def startsName : List Char → Bool
  | '-' :: c :: _ => Text.isAsciiLetter c
  | c :: _ => Text.isAsciiLetter c
  | [] => false

/-- The name of an at-rule: an optional hyphen, a letter, then letters, digits and hyphens. -/
structure IsAtName (name : List Char) : Prop where
  starts : startsName name = true
  chars : ∀ c ∈ name, isAtNameChar c = true

instance (name : List Char) : Decidable (IsAtName name) :=
  decidable_of_iff (startsName name = true ∧ name.all isAtNameChar = true)
    ⟨fun h => ⟨h.1, List.all_eq_true.1 h.2⟩, fun h => ⟨h.starts, List.all_eq_true.2 h.chars⟩⟩

/-- Any other name, unless it or the letters, digits and hyphens that it starts with are the name of
a grouping rule. -/
structure IsOtherName (name : List Char) : Prop where
  free : ∀ c ∈ name, c ∉ '(' :: ')' :: reserved
  solid : ∀ c ∈ name, Text.isBlank c = false
  whole : groupingRules.contains (Text.lowercase (String.ofList name)) = false
  start : groupingRules.contains
    (Text.lowercase (String.ofList (name.takeWhile isAtNameChar))) = false

instance (name : List Char) : Decidable (IsOtherName name) :=
  decidable_of_iff
    (name.any ('(' :: ')' :: reserved).contains = false ∧ name.any Text.isBlank = false ∧
      groupingRules.contains (Text.lowercase (String.ofList name)) = false ∧
      groupingRules.contains
        (Text.lowercase (String.ofList (name.takeWhile isAtNameChar))) = false)
    ⟨fun h => ⟨by simpa using h.1, by simpa using h.2.1, h.2.2.1, h.2.2.2⟩,
      fun h => ⟨by simpa using h.free, by simpa using h.solid, h.whole, h.start⟩⟩

/-- A local path that can stand between quotes. -/
structure IsPath (text : List Char) : Prop where
  trimmed : Text.IsTrimmed text
  free : ∀ c ∈ text, c ∉ ['"', '\'', '\\']
  isLocal : external.any (Text.startsWith (String.ofList text)) = false

instance (text : List Char) : Decidable (IsPath text) :=
  decidable_of_iff
    (Text.IsTrimmed text ∧ text.any ['"', '\'', '\\'].contains = false ∧
      external.any (Text.startsWith (String.ofList text)) = false)
    ⟨fun h => ⟨h.1, by simpa using h.2.1, h.2.2⟩,
      fun h => ⟨h.trimmed, by simpa using h.free, h.isLocal⟩⟩

namespace Entry

/-- The entries inside of an entry. -/
def body : Entry → List Entry
  | .rule _ body => body
  | .atRule _ _ body => body
  | _ => []

/-- An entry has a property, and all entries inside of it have. -/
inductive Every (p : Entry → Prop) : Entry → Prop
  | intro {e : Entry} : p e → (∀ e' ∈ e.body, Every p e') → Every p e

/-- The texts of an entry are plain enough to be written down. -/
def IsLegible : Entry → Prop
  | .declaration property value => IsProperty property ∧ IsValue value
  | .rule selectors _ => selectors ≠ [] ∧ ∀ s ∈ selectors, IsSelector s
  | .atRule name prelude _ =>
    (IsAtName name ∨ IsOtherName name) ∧ (prelude = [] ∨ IsValue prelude)
  | .importing path => IsPath path
  | .comment text => ¬ ['*', '/'] <:+: text

/-- A declaration closes every parenthesis that its property opens. -/
def ClosesProperty : Entry → Prop
  | .declaration property _ => ClosesParens property
  | _ => True

/-- All texts of a tree are plain, and all of its properties close their parentheses. -/
def IsPrintable (e : Entry) : Prop :=
  e.Every fun e => e.IsLegible ∧ e.ClosesProperty

section

variable {p : Entry → Prop}

theorem Every.here {e : Entry} (h : e.Every p) : p e := by
  cases h with
  | intro here _ => exact here

theorem Every.inside {e : Entry} (h : e.Every p) : ∀ e' ∈ e.body, e'.Every p := by
  cases h with
  | intro _ inside => exact inside

theorem every_iff {e : Entry} : e.Every p ↔ p e ∧ ∀ e' ∈ e.body, e'.Every p :=
  ⟨fun h => ⟨h.here, h.inside⟩, fun h => .intro h.1 h.2⟩

theorem every_iff_of_body_eq_nil {e : Entry} (h : e.body = []) : e.Every p ↔ p e := by
  rw [every_iff, h]
  simp

theorem Every.mono {q : Entry → Prop} (hpq : ∀ e, p e → q e) {e : Entry} (h : e.Every p) :
    e.Every q := by
  induction h with
  | intro here _ ih => exact .intro (hpq _ here) ih

variable [DecidablePred p]

mutual

instance decidableEvery : (e : Entry) → Decidable (e.Every p)
  | .rule selectors body =>
    have := decidableEveryAll body
    decidable_of_iff (p (.rule selectors body) ∧ ∀ e ∈ body, e.Every p) every_iff.symm
  | .atRule name prelude body =>
    have := decidableEveryAll body
    decidable_of_iff (p (.atRule name prelude body) ∧ ∀ e ∈ body, e.Every p) every_iff.symm
  | .declaration property value =>
    decidable_of_iff (p (.declaration property value)) (every_iff_of_body_eq_nil rfl).symm
  | .importing path => decidable_of_iff (p (.importing path)) (every_iff_of_body_eq_nil rfl).symm
  | .comment text => decidable_of_iff (p (.comment text)) (every_iff_of_body_eq_nil rfl).symm

instance decidableEveryAll : (es : List Entry) → Decidable (∀ e ∈ es, e.Every p)
  | [] => isTrue (by simp)
  | e :: es =>
    have := decidableEvery e
    have := decidableEveryAll es
    decidable_of_iff (e.Every p ∧ ∀ e ∈ es, e.Every p) List.forall_mem_cons.symm

end

end

instance : DecidablePred IsLegible
  | .declaration property value =>
    inferInstanceAs (Decidable (IsProperty property ∧ IsValue value))
  | .rule selectors _ =>
    inferInstanceAs (Decidable (selectors ≠ [] ∧ ∀ s ∈ selectors, IsSelector s))
  | .atRule name prelude _ =>
    inferInstanceAs
      (Decidable ((IsAtName name ∨ IsOtherName name) ∧ (prelude = [] ∨ IsValue prelude)))
  | .importing path => inferInstanceAs (Decidable (IsPath path))
  | .comment text => inferInstanceAs (Decidable (¬ ['*', '/'] <:+: text))

instance : DecidablePred ClosesProperty
  | .declaration property _ => inferInstanceAs (Decidable (ClosesParens property))
  | .rule _ _ | .atRule _ _ _ | .importing _ | .comment _ => inferInstanceAs (Decidable True)

instance (e : Entry) : Decidable e.IsPrintable :=
  inferInstanceAs (Decidable (e.Every fun e => e.IsLegible ∧ e.ClosesProperty))

end Entry

/-! ## Texts that write entries -/

/-- Selectors with commas, and blanks around these. -/
inductive Lists : List (List Char) → List Char → Prop
  | single {selector : List Char} : Lists [selector] selector
  | cons {selector before after text : List Char} {selectors : List (List Char)} :
      Text.allBlank before = true →
      Text.allBlank after = true →
      Lists selectors text →
      Lists (selector :: selectors) (selector ++ (before ++ ',' :: (after ++ text)))

/-- The name of an at-rule and what stands behind it, without a blank only if it cannot belong to
the name. -/
inductive Heads (name : List Char) : List Char → List Char → Prop
  | bare : Heads name [] ('@' :: name)
  | along {prelude between : List Char} :
      prelude ≠ [] →
      Text.allBlank between = true →
      (∀ c ∈ (between ++ prelude).head?, isAtNameChar c = false) →
      Heads name prelude ('@' :: (name ++ (between ++ prelude)))

/-- How an item is written: a comment between its marks, a statement before a semicolon, and a block
with its body between braces. -/
inductive Spells : Item → List Char → Prop
  | comment {text : List Char} : Spells (.comment text) ('/' :: '*' :: (text ++ ['*', '/']))
  | statement {text blanks : List Char} :
      Text.allBlank blanks = true →
      Spells (.statement text) (text ++ (blanks ++ [';']))
  | block {prelude blanks body : List Char} :
      Text.allBlank blanks = true →
      Spells (.block prelude body) (prelude ++ (blanks ++ '\x7b' :: (body ++ ['\x7d'])))

/-- The word that an import starts with. -/
def importWord : List Char :=
  "@import".toList

mutual

/-- The item that stands for an entry. -/
inductive Shows : Entry → Item → Prop
  | declaration {property value before after : List Char} :
      Text.allBlank before = true →
      Text.allBlank after = true →
      Shows (.declaration property value)
        (.statement (property ++ (before ++ ':' :: (after ++ value))))
  | rule {selectors : List (List Char)} {prelude text : List Char} {body : List Entry} :
      Lists selectors prelude →
      Writes body text →
      Shows (.rule selectors body) (.block prelude text)
  | atRule {name prelude head text : List Char} {body : List Entry} :
      Heads name prelude head →
      Writes body text →
      Shows (.atRule name prelude body) (.block head text)
  | importing {path between : List Char} :
      Text.allBlank between = true →
      between ≠ [] →
      Shows (.importing path)
        (.statement (importWord ++ (between ++ '"' :: (path ++ ['"']))))
  | comment {text : List Char} : Shows (.comment text) (.comment text)

/-- The texts that write entries one after the other, with any blanks around each. -/
inductive Writes : List Entry → List Char → Prop
  | nil {blanks : List Char} : Text.allBlank blanks = true → Writes [] blanks
  | cons {e : Entry} {es : List Entry} {item : Item} {blanks text rest : List Char} :
      Text.allBlank blanks = true →
      Shows e item →
      Spells item text →
      Writes es rest →
      Writes (e :: es) (blanks ++ (text ++ rest))

end

namespace Entry

mutual

/-- One of the texts that write an entry, with blanks only where it takes one. -/
def print : Entry → List Char
  | .declaration property value => property ++ ':' :: (value ++ [';'])
  | .rule selectors body => Text.join ',' selectors ++ '\x7b' :: (printAll body ++ ['\x7d'])
  | .atRule name prelude body =>
    '@' :: (name ++ ((if prelude.isEmpty then [] else ' ' :: prelude) ++
      '\x7b' :: (printAll body ++ ['\x7d'])))
  | .importing path => importWord ++ (' ' :: '"' :: (path ++ ['"', ';']))
  | .comment text => '/' :: '*' :: (text ++ ['*', '/'])

/-- One of the texts that write some entries. -/
def printAll : List Entry → List Char
  | [] => []
  | e :: es => e.print ++ printAll es

end

end Entry

/-! ## What entries emit -/

/-- One thing that a style sheet contributes. -/
inductive Emission
  | rule (rule : Rule)
  | property (name value : String)
  | target (path : String)

namespace Emission

/-- The rule that is emitted, if any. -/
def rule? : Emission → Option Rule
  | .rule r => some r
  | _ => none

/-- The custom property that is emitted, if any. -/
def property? : Emission → Option (String × String)
  | .property name value => some (name, value)
  | _ => none

/-- The target of an import that is emitted, if any. -/
def target? : Emission → Option String
  | .target path => some path
  | _ => none

/-- The sheet of what is emitted, in order; of two values for one property the later one counts. -/
def sheet (emissions : List Emission) : Sheet :=
  { rules := emissions.filterMap rule?
    properties := PropertyMap.merge [] (emissions.filterMap property?)
    imports := emissions.filterMap target? }

end Emission

namespace Entry

/-- The declaration that an entry is, if it is a tracked one and no custom property. -/
def tracked? : Entry → Option Declaration
  | .declaration property value =>
    if !isCustom property && isKept (String.ofList property) (String.ofList value) then
      some { property := String.ofList property, raw := String.ofList value }
    else none
  | _ => none

/-- The custom property that an entry sets, if any. -/
def custom? : Entry → Option (String × String)
  | .declaration property value =>
    if isCustom property then some (String.ofList property, String.ofList value) else none
  | _ => none

/-- Whether the next entry is a marked one: comments carry a mark on, other entries use it up. -/
def marksNext (marked : Bool) : Entry → Bool
  | .comment text => marked || String.ofList (Text.trim text) == ignoreMark
  | _ => false

/-- What the declarations directly in a body emit for some selectors: a rule for each selector if a
declaration is tracked, and the custom properties if the page itself is selected. -/
def directly (selectors : List String) (ignored : Bool) (body : List Entry) : List Emission :=
  let tracked := body.filterMap tracked?
  let rules := if tracked.isEmpty then [] else selectors.map fun s => ⟨s, tracked, ignored⟩
  let properties := if selectors.any rootSelectors.contains then body.filterMap custom? else []
  rules.map .rule ++ properties.map fun (name, value) => .property name value

/-- Selectors inside of rules for `parents` mean descendants of each parent in turn. -/
def under (parents : List String) (selectors : List (List Char)) : List String :=
  if parents.isEmpty then selectors.map String.ofList
  else parents.flatMap fun parent => selectors.map fun s => parent ++ " " ++ String.ofList s

mutual

/-- What an entry emits inside of rules for `parents`. -/
def emitted (parents : List String) (marked : Bool) : Entry → List Emission
  | .rule selectors body =>
    directly (under parents selectors) marked body ++
      emittedAll (under parents selectors) false body
  | .atRule name _ body =>
    if groupingRules.contains (Text.lowercase (String.ofList name)) then
      (if parents.isEmpty then [] else directly parents false body) ++
        emittedAll parents false body
    else []
  | .importing path => [.target (String.ofList path)]
  | .declaration _ _ => []
  | .comment _ => []

/-- What entries emit one after the other; `marked` tells that the mark stands before the first. -/
def emittedAll (parents : List String) (marked : Bool) : List Entry → List Emission
  | [] => []
  | e :: es => e.emitted parents marked ++ emittedAll parents (e.marksNext marked) es

end

/-- The sheet of a tree. -/
def flattening (entries : List Entry) : Sheet :=
  Emission.sheet (emittedAll [] false entries)

end Entry

end ContrastAudit.Stylesheet

import Mathlib.Data.Option.Basic
import ContrastAudit.Markup.StyleAttribute
import ContrastAudit.Proofs.Pairing.KeptSurfaces
import ContrastAudit.Proofs.Style.Winner
import ContrastAudit.Proofs.Stylesheet.Statements

/-!
# Style attributes and rules for every element

A list of declarations can stand in the style attribute of an element or in a rule for every
element.  Two readers and two ways to specify a color then come to the same look of the element.

The two ways part where a value is marked as important, where a semicolon stands between
parentheses, where a background holds more than a color, and where a font has no resolved value or
one with references: those are what `IsAgreeable` leaves out.

**Results.**
* `looks_inline_eq_looks_rules`: the list makes an element look the same in both places.
-/

namespace ContrastAudit

/-- The declaration of a property and a value that has not been resolved. -/
def Declaration.ofPair (d : String × String) : Declaration :=
  { property := d.1, raw := d.2 }

/-- The last of some declarations that answers for a property. -/
def lastOf (property : String) (ds : List (String × String)) : Option (String × String) :=
  (ds.filter fun d => (Declaration.ofPair d).answers property).getLast?

theorem lastOf_append_singleton (property : String) (ds : List (String × String))
    (d : String × String) :
    lastOf property (ds ++ [d]) =
      if (Declaration.ofPair d).answers property then some d else lastOf property ds := by
  rw [lastOf, List.filter_append]
  split
  · next h => simp [h]
  · next h => simp [h, lastOf]

theorem mem_of_lastOf {property : String} {ds : List (String × String)} {d : String × String}
    (h : lastOf property ds = some d) : d ∈ ds ∧ (Declaration.ofPair d).answers property = true :=
  List.mem_filter.1 (List.mem_of_getLast? h)

/-! ## The style attribute -/

namespace InlineStyle

/-- The value that a style has for a property. -/
def value? (style : InlineStyle) : String → Option String
  | "color" => style.color
  | "background-color" => style.background
  | "font-size" => style.fontSize
  | "font-weight" => style.fontWeight
  | _ => none

/-- The style with one more declaration that is kept. -/
def assign (style : InlineStyle) (d : String × String) : InlineStyle :=
  style.set (if d.1 = "background" then "background-color" else d.1) d.2

theorem set_of_untracked {property : String} (h : property ∉ Declaration.tracked)
    (style : InlineStyle) (value : String) : style.set property value = style := by
  unfold set
  split <;> first | rfl | exact absurd (by decide) h

/-- A piece sets what is kept of it. -/
theorem read_eq (style : InlineStyle) (piece : List Char) :
    style.read piece = (Stylesheet.keptDeclaration? piece).elim style style.assign := by
  rw [read, Stylesheet.keptDeclaration?]
  cases Text.cut ':' piece with
  | none => rfl
  | some d =>
      obtain ⟨property, value⟩ := d
      simp only [Option.bind_some]
      generalize Text.lowercase (Text.strip (String.ofList property)) = name
      by_cases hv : (Text.trim value).isEmpty = true
      · simp [hv]
      by_cases hb : name = "background"
      · subst hb
        cases hi : Stylesheet.isImage (Text.trim value) <;>
          simp [hv, hi, Stylesheet.isKept, Declaration.tracked, assign]
      by_cases ht : name ∈ Declaration.tracked
      · simp [hv, hb, ht, Stylesheet.isKept, assign]
      · simp [hv, hb, ht, Stylesheet.isKept, set_of_untracked ht]

theorem parse_eq (text : String) :
    InlineStyle.parse text = (Stylesheet.keptDeclarations text.toList).foldl assign {} := by
  rw [InlineStyle.parse, readAll, Stylesheet.keptDeclarations, List.foldl_filterMap]
  congr 1
  funext style piece
  rw [read_eq]
  cases Stylesheet.keptDeclaration? piece <;> rfl

/-- The properties of which a style has values. -/
def properties : List String :=
  ["color", "background-color", "font-size", "font-weight"]

theorem value?_assign {property : String} (h : property ∈ properties) (style : InlineStyle)
    (d : String × String) :
    (style.assign d).value? property =
      if (Declaration.ofPair d).answers property then some d.2 else style.value? property := by
  obtain ⟨name, value⟩ := d
  simp only [properties, List.mem_cons, List.not_mem_nil, or_false] at h
  by_cases ht : name ∈ Declaration.tracked
  · simp only [Declaration.tracked, List.mem_cons, List.not_mem_nil, or_false] at ht
    rcases ht with rfl | rfl | rfl | rfl | rfl <;> rcases h with rfl | rfl | rfl | rfl <;> rfl
  · have hb : name ≠ "background" := fun hb => ht (hb ▸ by decide)
    have hp : name ≠ property := by
      rintro rfl
      rcases h with rfl | rfl | rfl | rfl <;> exact ht (by decide)
    simp [assign, hb, set_of_untracked ht, Declaration.answers, Declaration.ofPair, hp]

/-- A style has the last values that its text declares. -/
theorem value?_parse {property : String} (h : property ∈ properties) (text : String) :
    (InlineStyle.parse text).value? property =
      (lastOf property (Stylesheet.keptDeclarations text.toList)).map (·.2) := by
  rw [parse_eq]
  induction Stylesheet.keptDeclarations text.toList using List.reverseRecOn with
  | nil =>
      simp only [properties, List.mem_cons, List.not_mem_nil, or_false] at h
      rcases h with rfl | rfl | rfl | rfl <;> rfl
  | append_singleton ds d ih =>
      rw [List.foldl_append, List.foldl_cons, List.foldl_nil, value?_assign h, ih,
        lastOf_append_singleton]
      split <;> rfl

end InlineStyle

/-! ## The rule for every element -/

namespace Cascade

theorem compile?_universal :
    Selector.compile? "*" = some ⟨"*", { universal := true }, []⟩ := by
  decide +kernel

/-- The rules that give every element some declarations. -/
def universal (ds : List (String × String)) : List Rule :=
  if ds.isEmpty then [] else [⟨"*", ds.map .ofPair, false⟩]

/-- The winner for any element is the last declaration. -/
theorem best_universal (properties : PropertyMap) (f : Features) (ds : List (String × String))
    (property : String) :
    best [f] ((universal ds).map (.resolve properties)) property =
      (lastOf property ds).map fun d => ⟨(Declaration.ofPair d).resolve properties, 0, "*"⟩ := by
  have hoffers : candidates [f] property (Rule.resolve properties ⟨"*", ds.map .ofPair, false⟩) =
      (ds.filter fun d => (Declaration.ofPair d).answers property).map fun d =>
        ⟨(Declaration.ofPair d).resolve properties, 0, "*"⟩ := by
    have happlies : (⟨"*", { universal := true }, []⟩ : Selector).applies [f] = true := rfl
    have hspecificity : (⟨"*", { universal := true }, []⟩ : Selector).specificity = 0 := rfl
    simp only [candidates, Rule.resolve, compile?_universal, happlies, hspecificity, if_true,
      Bool.false_eq_true, if_false, List.map_map, List.filter_map]
    exact congrArg (List.map _)
      (List.filter_congr fun d _ => (Declaration.ofPair d).answers_resolve properties property)
  cases ds with
  | nil => rfl
  | cons d ds =>
      rw [best, universal, if_neg (by simp), List.map_singleton, List.flatMap_singleton, hoffers,
        @winner_of_same 0, List.getLast?_map, lastOf]
      intro w hw
      obtain ⟨d', -, rfl⟩ := List.mem_map.1 hw
      rfl

theorem pageBackground_universal (properties : PropertyMap) (ds : List (String × String)) :
    pageBackground ((universal ds).map (.resolve properties)) = none := by
  have hpage : (!pageSelectors.contains (Text.strip "*")) = true := by decide +kernel
  unfold universal
  split
  · rfl
  · rw [List.map_singleton, pageBackground]
    simp only [Rule.resolve, hpage, Bool.or_true, if_true]
    rfl

end Cascade

/-! ## Looks -/

/-- The colors and the font of an element, without what is told of where they come from. -/
structure Look where
  foreground : Option Color
  background : Option Color
  fontSize : Option Float
  fontWeight : Option Int
  deriving DecidableEq, Repr

/-- The look of an element that appears so. -/
def Appearance.look (a : Appearance) : Look :=
  ⟨a.foreground.color, a.background.color, a.fontSize, a.fontWeight⟩

theorem ColorInfo.map_color_paint (info surface : ColorInfo) :
    (info.paint surface).map (·.color) = Styling.coat info.color (.ok surface.color) := by
  obtain ⟨written, color, source, selector, authored⟩ := info
  unfold paint Styling.coat
  cases color with
  | none => rfl
  | some color =>
      dsimp only
      split
      · rfl
      · rw [ok_bind]
        cases surface.color with
        | none => rfl
        | some behind =>
            dsimp only
            cases color.onto behind <;> rfl

theorem SpecifiedColor.info_eq (specified : SpecifiedColor) (side : Side) (label : String) :
    specified.info side label = (specified.materialize side).map fun color =>
      ⟨specified.written, color, specified.source, label, none⟩ := by
  rw [info]
  cases specified.materialize side <;> rfl

namespace Styling

/-- The color of a background is that of one more layer. -/
theorem map_color_backgroundOn (specified : Option SpecifiedColor) (surface : ColorInfo) :
    (backgroundOn specified (.ok surface)).map (·.color) =
      layer specified (.ok surface.color) := by
  cases specified with
  | none => rfl
  | some specified =>
      rw [backgroundOn, layer, SpecifiedColor.info_eq]
      cases specified.materialize .background with
      | error fault => rfl
      | ok color =>
          rw [Except.map, ok_bind, ok_bind]
          split
          · next hf => exact (coat_of_isFinal hf (.ok surface.color)).symm
          · exact ColorInfo.map_color_paint _ surface

/-- The color of text on a color, or over an unknown background. -/
def textColor (specified : Option SpecifiedColor) (behind : Option Color) :
    Except NumericFault (Option Color) :=
  match specified with
  | none => .ok (some Color.black)
  | some specified => do
    let color ← specified.materialize .foreground
    if behind.isNone then return color else coat color (.ok behind)

theorem map_color_foreground (specified : Option SpecifiedColor) (background : ColorInfo) :
    (foreground specified background).map (·.color) = textColor specified background.color := by
  cases specified with
  | none => rfl
  | some specified =>
      rw [foreground, textColor, SpecifiedColor.info_eq]
      cases specified.materialize .foreground with
      | error fault => rfl
      | ok color =>
          rw [Except.map, ok_bind, ok_bind]
          split
          · rfl
          · exact ColorInfo.map_color_paint _ background

/-- The colors and the font that follow from what is specified. -/
def look (fg bg : Option SpecifiedColor) (surface : Option Color) (size : Option Float)
    (weight : Except NumericFault (Option Int)) :
    Except NumericFault (Option Look) := do
  if fg.isNone && bg.isNone then return none
  else
    let background ← layer bg (.ok surface)
    let foreground ← textColor fg background
    return some ⟨foreground, background, size, ← weight⟩

theorem look_appearance? {styling : Styling} {lineage : List Features}
    {fg bg : Option SpecifiedColor} {surface : ColorInfo}
    (hfg : styling.specified? lineage .foreground = .ok fg)
    (hbg : styling.specified? lineage .background = .ok bg)
    (hs : styling.surfaceBehind lineage.tail = .ok surface) :
    (styling.appearance? true lineage).map (Option.map (·.look)) =
      look fg bg surface.color (Font.size? (styling.fontSize? lineage))
        (Font.weight? (styling.fontWeight? lineage)) := by
  rw [appearance?, hfg, hbg, hs, look, ok_bind, ok_bind, ← map_color_backgroundOn]
  simp only [Bool.not_true, Bool.false_eq_true, if_false]
  split
  · rfl
  · cases backgroundOn bg (.ok surface) with
    | error fault => rfl
    | ok background =>
        rw [Except.map, ok_bind, ok_bind, ← map_color_foreground]
        cases foreground fg background with
        | error fault => rfl
        | ok text =>
            cases Font.weight? (styling.fontWeight? lineage) <;> rfl

/-- A look depends on specified colors only through what they stand for. -/
theorem look_congr {fg fg' bg bg' : Option SpecifiedColor} (hfg : fg.isNone = fg'.isNone)
    (hbg : bg.isNone = bg'.isNone) (htext : textColor fg = textColor fg')
    (hlayer : layer bg = layer bg') :
    look fg bg = look fg' bg' := by
  funext surface size weight
  rw [look, look, hfg, hbg, htext, hlayer]

/-- The looks of the elements that have a pair. -/
def looks (styling : Styling) (doc : Document) :
    Except NumericFault (List Look) :=
  (styling.pairs doc).map (List.map (·.appearance.look))

/-- A document of one element with text. -/
def alone (f : Features) : Document :=
  Document.empty.attach { features := f, hasText := true } none

theorem looks_alone (styling : Styling) (f : Features) :
    styling.looks (alone f) =
      ((styling.appearance? true [f]).map (Option.map (·.look))).map Option.toList := by
  have element : (alone f).toList =
      [{ features := f, hasText := true, index := 0, parent := none }] := rfl
  rw [looks, pairs_eq_mapM, element, List.mapM_cons, lookedPair?]
  have lineage : ((alone f).lineage
      { features := f, hasText := true, index := 0, parent := none }).map (·.features) = [f] := rfl
  rw [lineage]
  change Except.map _ (Except.map _ (Except.map _ (styling.appearance? true [f]) >>= _)) = _
  rcases styling.appearance? true [f] with fault | _ | a <;> rfl

end Styling

/-! ## Both ways -/

namespace SpecifiedColor

/-- A value that is a color as a whole or has no part that is one. -/
def IsWholeColor (value : String) : Prop :=
  Color.parse value = .ok none →
    isTransparent (Text.strip value) = true ∨ shorthandColor? value = .ok none

instance decidableIsWholeColor (value : String) : Decidable (IsWholeColor value) :=
  inferInstanceAs (Decidable (Color.parse value = .ok none →
    isTransparent (Text.strip value) = true ∨ shorthandColor? value = .ok none))

/-- A color is what its value stands for, and a shorthand with a whole value is no exception. -/
theorem materialize_congr {specified specified' : SpecifiedColor}
    (hvalue : specified.value = specified'.value) (hplain : specified'.shorthand = false)
    (hwhole : specified.shorthand = true → ∀ value ∈ specified.value, IsWholeColor value)
    (side : Side) :
    specified.materialize side = specified'.materialize side := by
  rw [materialize, materialize, colorText?, colorText?, ← hvalue, hplain]
  cases hv : specified.value with
  | none => rfl
  | some value =>
      cases hs : specified.shorthand with
      | false => rfl
      | true =>
          have hw : IsWholeColor value := hwhole hs value hv
          simp only
          cases hparse : Color.parse value with
          | error fault => rfl
          | ok color =>
              simp only [ok_bind, Bool.true_and, Bool.false_and, Bool.false_eq_true, if_false]
              split
              · next htaken =>
                  obtain ⟨hnone, hclosed⟩ := Bool.and_eq_true_iff.1 htaken
                  rw [Option.isNone_iff_eq_none] at hnone
                  subst hnone
                  have hclosed : isTransparent (Text.strip value) = false := by
                    simpa using hclosed
                  rcases hw hparse with hclear | hparts
                  · rw [hclosed] at hclear
                    cases hclear
                  · rw [hparts]
                    simp [pure, Except.pure, bind, Except.bind, hclosed, hparse]
              · rfl

end SpecifiedColor

namespace Styling

/-- A font value that resolves to a text which stands for itself, or to nothing where there is no
default either. -/
def IsSettled (properties : PropertyMap) (tag value : String) : Prop :=
  match Property.resolve properties value with
  | some resolved => resolved ≠ "" ∧ Property.resolve properties resolved = some resolved
  | none => headingFonts.find? (·.1 == tag) = none

instance decidableIsSettled (properties : PropertyMap) (tag value : String) :
    Decidable (IsSettled properties tag value) :=
  match h : Property.resolve properties value with
  | some resolved =>
    decidable_of_iff
      (resolved ≠ "" ∧ Property.resolve properties resolved = some resolved) (by rw [IsSettled, h])
  | none => decidable_of_iff (headingFonts.find? (·.1 == tag) = none) (by rw [IsSettled, h])

/-- What is written in the style attribute, and nothing else. -/
def byAttribute (properties : PropertyMap) : Styling :=
  .ofRules [] properties none

/-- What a rule gives to every element, and nothing else. -/
def byRule (properties : PropertyMap) (ds : List (String × String)) : Styling :=
  .ofRules (Cascade.universal ds) properties none

/-- The color that a declaration in a style attribute specifies. -/
def inAttribute (properties : PropertyMap) (d : String × String) : SpecifiedColor :=
  ⟨d.2, Property.resolve properties d.2, .inline, "inline", false⟩

/-- The color that a declaration in a rule for every element specifies. -/
def inRule (properties : PropertyMap) (d : String × String) : SpecifiedColor :=
  .ofWinner ⟨(Declaration.ofPair d).resolve properties, 0, "*"⟩

section Declarations

variable {properties : PropertyMap} {f f' : Features} {ds : List (String × String)}
  (hne : ∀ d ∈ ds, d.2 ≠ "")

theorem best_byRule (property : String) :
    Cascade.best [f] (byRule properties ds).rules property =
      (lastOf property ds).map fun d =>
        ⟨(Declaration.ofPair d).resolve properties, 0, "*"⟩ :=
  Cascade.best_universal properties f ds property

theorem specified?_byRule (h : f.inline = {}) (side : Side) :
    (byRule properties ds).specified? [f] side =
      .ok ((lastOf side.property ds).map (inRule properties)) := by
  have hinline : inlineColor? f side = none := by
    cases side <;> simp [inlineColor?, h, nonempty?]
  have hutility : (byRule properties ds).utilityColor? f side = .ok none := rfl
  simp only [specified?, hinline, hutility, ok_bind, best_byRule, Option.map_map]
  rfl

include hne in
theorem nonempty?_lastOf (property : String) :
    nonempty? ((lastOf property ds).map (·.2)) = (lastOf property ds).map (·.2) := by
  cases hd : lastOf property ds with
  | none => rfl
  | some d => simp [nonempty?, hne d (mem_of_lastOf hd).1]

include hne in
theorem specified?_byAttribute
    (h : ∀ property ∈ InlineStyle.properties,
      f.inline.value? property = (lastOf property ds).map (·.2)) (side : Side) :
    (byAttribute properties).specified? [f] side =
      .ok ((lastOf side.property ds).map (inAttribute properties)) := by
  have hinline : inlineColor? f side = (lastOf side.property ds).map (·.2) := by
    rw [← nonempty?_lastOf hne, ← h _ (by cases side <;> decide)]
    cases side <;> rfl
  have hutility : (byAttribute properties).utilityColor? f side = .ok none := rfl
  rw [specified?, hinline]
  cases lastOf side.property ds <;> rfl

include hne in
theorem fontProperty?_byAttribute {property tag : String} {default : Option String}
    (hs : ∀ d ∈ lastOf property ds, IsSettled properties tag d.2)
    (hdefault : headingFonts.find? (·.1 == tag) = none → default = none) :
    (byAttribute properties).fontProperty? [f] property ((lastOf property ds).map (·.2)) none
        default =
      (byRule properties ds).fontProperty? [f'] property none none default := by
  have hbest : Cascade.best [f] (byAttribute properties).rules property = none := rfl
  simp only [fontProperty?, hbest, best_byRule, nonempty?_lastOf hne]
  cases hd : lastOf property ds with
  | none => rfl
  | some d =>
      have hsettled := hs d hd
      have hresolved : ((Declaration.ofPair d).resolve properties).resolved =
          Property.resolve properties d.2 := rfl
      unfold IsSettled at hsettled
      simp only [Option.map_some, Option.bind_some, hresolved]
      cases hr : Property.resolve properties d.2 with
      | none =>
          rw [hr] at hsettled
          rw [hdefault hsettled]
          exact hr
      | some resolved =>
          rw [hr] at hsettled
          obtain ⟨hnonempty, hfixed⟩ := hsettled
          have hkept : nonempty? (some resolved) = some resolved := by
            simp [nonempty?, hnonempty]
          rw [hkept]
          exact hr.trans hfixed.symm

section Fonts

variable (hvalue : ∀ property ∈ InlineStyle.properties,
    f.inline.value? property = (lastOf property ds).map (·.2))
  (hinline : f'.inline = {}) (htag : f'.tag = f.tag)
include hne hvalue hinline htag

theorem fontSize?_byAttribute
    (hs : ∀ d ∈ lastOf "font-size" ds, IsSettled properties f.tag d.2) :
    (byAttribute properties).fontSize? [f] = (byRule properties ds).fontSize? [f'] := by
  have hsize : f.inline.fontSize = (lastOf "font-size" ds).map (·.2) :=
    hvalue "font-size" (by decide)
  rw [fontSize?, fontSize?, hsize, hinline, htag]
  exact fontProperty?_byAttribute hne hs fun hd => by rw [hd]; rfl

theorem fontWeight?_byAttribute
    (hs : ∀ d ∈ lastOf "font-weight" ds, IsSettled properties f.tag d.2) :
    (byAttribute properties).fontWeight? [f] = (byRule properties ds).fontWeight? [f'] := by
  have hweight : f.inline.fontWeight = (lastOf "font-weight" ds).map (·.2) :=
    hvalue "font-weight" (by decide)
  rw [fontWeight?, fontWeight?, hweight, hinline, htag]
  exact fontProperty?_byAttribute hne hs fun hd => by rw [hd]; rfl

end Fonts

end Declarations

/-- A declaration stands for the same color in both places. -/
theorem materialize_inRule {properties : PropertyMap} {d : String × String}
    (h : d.1 = "background" →
      ∀ value ∈ Property.resolve properties d.2, SpecifiedColor.IsWholeColor value) (side : Side) :
    (inRule properties d).materialize side = (inAttribute properties d).materialize side := by
  have hvalue : (inRule properties d).value = Property.resolve properties d.2 := rfl
  refine SpecifiedColor.materialize_congr hvalue rfl (fun hs => ?_) side
  rw [hvalue]
  exact h (beq_iff_eq.1 hs)

end Styling

theorem Stylesheet.value_ne_empty_of_mem_keptDeclarations {text : List Char} {d : String × String}
    (h : d ∈ keptDeclarations text) : d.2 ≠ "" := by
  obtain ⟨piece, -, hpiece⟩ := List.mem_filterMap.1 h
  obtain ⟨cut, -, hkept⟩ := Option.bind_eq_some_iff.1 hpiece
  dsimp only at hkept
  split at hkept
  · next hvalue =>
      obtain rfl := Option.some.inj hkept
      have hne : (Text.trim cut.2).isEmpty = false := by
        simpa using (Bool.and_eq_true_iff.1 hvalue).1
      intro hempty
      rw [String.ofList_eq_empty_iff] at hempty
      rw [hempty] at hne
      cases hne
  · cases hkept

/-- A list of declarations that style attributes and rules read alike, for elements of a tag.
Semicolons stand outside of parentheses and no value is marked as important.  The background that
counts is a color if it is a shorthand, and the font that counts is settled. -/
structure IsAgreeable (properties : PropertyMap) (tag text : String) : Prop where
  flat : Stylesheet.IsFlat text.toList
  closed : ∀ piece ∈ Text.pieces ';' text.toList, Stylesheet.ClosesParens piece
  unmarked : ∀ piece ∈ Text.pieces ';' text.toList, Stylesheet.IsUnmarked piece
  whole : ∀ d ∈ lastOf "background-color" (Stylesheet.keptDeclarations text.toList),
    d.1 = "background" →
      ∀ value ∈ Property.resolve properties d.2, SpecifiedColor.IsWholeColor value
  settled : ∀ property ∈ ["font-size", "font-weight"],
    ∀ d ∈ lastOf property (Stylesheet.keptDeclarations text.toList),
      Styling.IsSettled properties tag d.2

/-- The style sheet that gives a list of declarations to every element. -/
def Stylesheet.universalText (text : String) : String :=
  "*\x7b" ++ text ++ "\x7d"

theorem Stylesheet.rules_parse_universalText {text : String} (h : IsFlat text.toList)
    (hcloses : ∀ piece ∈ Text.pieces ';' text.toList, ClosesParens piece)
    (hu : ∀ piece ∈ Text.pieces ';' text.toList, IsUnmarked piece) :
    (parse (universalText text)).rules = Cascade.universal (keptDeclarations text.toList) := by
  have letters : universalText text =
      String.ofList ('*' :: '\x7b' :: (text.toList ++ ['\x7d'])) := by
    apply String.toList_inj.1
    simp [universalText]
  rw [letters, rules_parse_universal h hcloses hu]
  rfl

namespace Styling

theorem textColor_inRule (properties : PropertyMap) (ds : List (String × String)) :
    textColor ((lastOf "color" ds).map (inAttribute properties)) =
      textColor ((lastOf "color" ds).map (inRule properties)) := by
  cases hd : lastOf "color" ds with
  | none => rfl
  | some d =>
      funext behind
      have hcolor : d.1 ≠ "background" := by
        have := (mem_of_lastOf hd).2
        rintro hb
        simp [Declaration.answers, Declaration.ofPair, hb] at this
      simp only [Option.map_some, textColor,
        materialize_inRule (fun hb => absurd hb hcolor) .foreground]

theorem layer_inRule {properties : PropertyMap} {ds : List (String × String)}
    (h : ∀ d ∈ lastOf "background-color" ds, d.1 = "background" →
      ∀ value ∈ Property.resolve properties d.2, SpecifiedColor.IsWholeColor value) :
    layer ((lastOf "background-color" ds).map (inAttribute properties)) =
      layer ((lastOf "background-color" ds).map (inRule properties)) := by
  cases hd : lastOf "background-color" ds with
  | none => rfl
  | some d =>
      funext surface
      simp only [Option.map_some, layer, materialize_inRule (h d hd) .background]

theorem surfaceBehind_byAttribute (properties : PropertyMap) :
    (byAttribute properties).surfaceBehind [] = .ok ColorInfo.defaultBackground :=
  rfl

theorem surfaceBehind_byRule (properties : PropertyMap) (ds : List (String × String)) :
    (byRule properties ds).surfaceBehind [] = .ok ColorInfo.defaultBackground := by
  have page : Cascade.pageBackground (byRule properties ds).rules = none :=
    Cascade.pageBackground_universal properties ds
  rw [surfaceBehind, pageSurface, page]

/-- A list of declarations that both readers agree on makes an element look the same in its style
attribute as in a rule for every element. -/
theorem looks_inline_eq_looks_rules {properties : PropertyMap} {f : Features} {text : String}
    (h : IsAgreeable properties f.tag text) :
    (ofRules [] properties none).looks (alone { f with inline := .parse text }) =
      (ofRules (Stylesheet.parse (Stylesheet.universalText text)).rules properties none).looks
        (alone { f with inline := {} }) := by
  obtain ⟨hflat, hclosed, hunmarked, hwhole, hsettled⟩ := h
  rw [Stylesheet.rules_parse_universalText hflat hclosed hunmarked, looks_alone, looks_alone]
  have hvalue := fun property hp => @InlineStyle.value?_parse property hp text
  have hne := fun d hd => @Stylesheet.value_ne_empty_of_mem_keptDeclarations text.toList d hd
  generalize Stylesheet.keptDeclarations text.toList = ds at *
  have hattribute := fun side =>
    @specified?_byAttribute properties { f with inline := .parse text } ds hne hvalue side
  have hrule := fun side =>
    @specified?_byRule properties { f with inline := {} } ds rfl side
  have hsize := @fontSize?_byAttribute properties { f with inline := .parse text }
    { f with inline := {} } ds hne hvalue rfl rfl (hsettled _ (by decide))
  have hweight := @fontWeight?_byAttribute properties { f with inline := .parse text }
    { f with inline := {} } ds hne hvalue rfl rfl (hsettled _ (by decide))
  have hleft := look_appearance? (hattribute .foreground) (hattribute .background)
    (surfaceBehind_byAttribute properties)
  have hright := look_appearance? (hrule .foreground) (hrule .background)
    (surfaceBehind_byRule properties ds)
  have hlook : look ((lastOf "color" ds).map (inAttribute properties))
      ((lastOf "background-color" ds).map (inAttribute properties)) =
      look ((lastOf "color" ds).map (inRule properties))
      ((lastOf "background-color" ds).map (inRule properties)) :=
    look_congr (by simp) (by simp) (textColor_inRule properties ds) (layer_inRule hwhole)
  rw [hsize, hweight] at hleft
  refine congrArg (Except.map Option.toList) (hleft.trans (Eq.trans ?_ hright.symm))
  exact congrFun (congrFun (congrFun hlook _) _) _

/-- The declarations of a heading: a background in short and a font size in pixels. -/
def headingText : String :=
  "color: #fff; background: navy; font-size: 20px"

theorem looks_inline_heading :
    IsAgreeable [] "h2" headingText ∧
      (ofRules [] [] none).looks (alone { tag := "h2", inline := .parse headingText }) =
        (ofRules (Stylesheet.parse (Stylesheet.universalText headingText)).rules [] none).looks
          (alone { tag := "h2" }) := by
  have agreeable : IsAgreeable [] "h2" headingText := by
    constructor <;> decide +kernel
  exact ⟨agreeable, @looks_inline_eq_looks_rules [] { tag := "h2" } headingText agreeable⟩

/-- A mark of importance is part of the value in a style attribute, where the color is then not
understood, and is taken off in a rule. -/
theorem looks_important :
    (ofRules [] [] none).looks
        (alone { tag := "p", inline := .parse "color: red !important" }) =
      .ok [⟨none, some Color.white, none, none⟩] ∧
    (ofRules (Stylesheet.parse (Stylesheet.universalText "color: red !important")).rules []
        none).looks (alone { tag := "p" }) =
      .ok [⟨some ⟨255, 0, 0, none⟩, some Color.white, none, none⟩] := by
  constructor <;> decide +kernel

end Styling

end ContrastAudit

import ContrastAudit.Proofs.Document.Body
import ContrastAudit.Proofs.Pairing.KeptSurfaces

/-!
# The background of the page and of the body

A rule for `body` sets the background of the page, and also that of a body element if the document
has one.  Such a rule is compared for a document with and without a body around its roots.

**Results.**
* `pairs_belowBody`: where the color of the body hides what is behind it, or is not known, a body
  element changes nothing: all pairs, faults included, are the same.
* `background_belowBody`: a translucent color is painted on the default background in a document
  without a body, and once more on the result in a document with one.
-/

namespace ContrastAudit

namespace Cascade

/-- What a rule selects does not depend on ancestors. -/
def IsSimple (rule : Rule) : Prop :=
  ∀ s, Selector.compile? rule.selector = some s → s.context = []

instance decidableIsSimple (rule : Rule) : Decidable (IsSimple rule) :=
  decidable_of_iff (∀ s ∈ Selector.compile? rule.selector, s.context = []) Iff.rfl

/-- A rule has no declaration for a property. -/
def LeavesOut (property : String) (rule : Rule) : Prop :=
  ∀ d ∈ rule.declarations, d.answers property = false

instance decidableLeavesOut (property : String) (rule : Rule) :
    Decidable (LeavesOut property rule) :=
  inferInstanceAs (Decidable (∀ d ∈ rule.declarations, d.answers property = false))

section Lineages

variable {rule : Rule} {rules : List Rule} (f : Features) (above more : List Features)
  (property : String)

theorem candidates_append_lineage (h : IsSimple rule) :
    candidates (f :: above ++ more) property rule = candidates (f :: above) property rule := by
  unfold candidates
  cases hc : Selector.compile? rule.selector with
  | none => rfl
  | some s => simp [Selector.applies, Selector.contextFits, h s hc]

/-- Further ancestors do not matter to simple rules. -/
theorem best_append_lineage (h : ∀ rule ∈ rules, IsSimple rule) :
    best (f :: above ++ more) rules property = best (f :: above) rules property := by
  have same := List.map_congr_left fun rule hr =>
    candidates_append_lineage f above more property (h rule hr)
  rw [best, best, List.flatMap_def, List.flatMap_def, same]

end Lineages

theorem candidates_of_leavesOut {rule : Rule} {property : String} (h : LeavesOut property rule)
    (lineage : List Features) : candidates lineage property rule = [] := by
  unfold candidates
  have silent : rule.declarations.filter (·.answers property) = [] :=
    List.filter_eq_nil_iff.2 fun d hd => by simp [h d hd]
  split
  · rfl
  · split
    · rfl
    · split
      · rw [silent, List.map_nil]
      · rfl

theorem flatMap_candidates_of_leavesOut {rules : List Rule} {property : String}
    (h : ∀ rule ∈ rules, LeavesOut property rule) (lineage : List Features) :
    rules.flatMap (candidates lineage property) = [] :=
  List.flatMap_eq_nil_iff.2 fun rule hr => candidates_of_leavesOut (h rule hr) lineage

theorem pageBackground_append_of_leavesOut {rules : List Rule}
    (h : ∀ rule ∈ rules, LeavesOut "background-color" rule) (more : List Rule) :
    pageBackground (rules ++ more) = pageBackground more := by
  induction rules with
  | nil => rfl
  | cons rule rules ih =>
      obtain ⟨hrule, hrules⟩ := List.forall_mem_cons.1 h
      have silent : rule.declarations.find? (·.answers "background-color") = none :=
        List.find?_eq_none.2 fun d hd => by simp [hrule d hd]
      rw [List.cons_append, pageBackground]
      simp only [silent, ih hrules, ite_self]

end Cascade

namespace Styling

section Ancestors

variable {styling : Styling} (h : ∀ rule ∈ styling.rules, Cascade.IsSimple rule) (f : Features)
  (above more : List Features)
include h

theorem specified?_append (side : Side) :
    styling.specified? (f :: above ++ more) side = styling.specified? (f :: above) side := by
  have same := Cascade.best_append_lineage f above more side.property h
  rw [List.cons_append] at same ⊢
  simp only [specified?, same]

theorem fontSize?_append :
    styling.fontSize? (f :: above ++ more) = styling.fontSize? (f :: above) := by
  have same := Cascade.best_append_lineage f above more "font-size" h
  rw [List.cons_append] at same ⊢
  simp only [fontSize?, fontProperty?, same]

theorem fontWeight?_append :
    styling.fontWeight? (f :: above ++ more) = styling.fontWeight? (f :: above) := by
  have same := Cascade.best_append_lineage f above more "font-weight" h
  rw [List.cons_append] at same ⊢
  simp only [fontWeight?, fontProperty?, same]

/-- Under simple rules an element with further ancestors looks as before if the surface behind it is
the same. -/
theorem appearance?_append (shown : Bool)
    (hs : styling.surfaceBehind (above ++ more) = styling.surfaceBehind above) :
    styling.appearance? shown (f :: above ++ more) = styling.appearance? shown (f :: above) := by
  unfold appearance?
  rw [specified?_append h, specified?_append h, fontSize?_append h, fontWeight?_append h,
    List.cons_append, List.tail_cons, List.tail_cons, hs]

end Ancestors

end Styling

/-! ## Styles that only set the background of the body -/

/-- Rules that do not depend on ancestors, of which one sets the background of the body and no other
sets a background. -/
structure BodySheet where
  before : List Rule
  background : String
  after : List Rule
  simple : ∀ rule ∈ before ++ after, Cascade.IsSimple rule
  plain : ∀ rule ∈ before ++ after, Cascade.LeavesOut "background-color" rule

namespace BodySheet

/-- The rule for the body. -/
def bodyRule (sheet : BodySheet) : Rule :=
  ⟨"body", [⟨"background-color", sheet.background, none⟩], false⟩

/-- All rules in order. -/
def rules (sheet : BodySheet) : List Rule :=
  sheet.before ++ sheet.bodyRule :: sheet.after

/-- The styling by the rules and some custom properties, without utility classes. -/
def styling (sheet : BodySheet) (properties : PropertyMap) : Styling :=
  .ofRules sheet.rules properties none

/-- The color that is specified for the body. -/
def color (sheet : BodySheet) (properties : PropertyMap) : SpecifiedColor :=
  ⟨sheet.background, Property.resolve properties sheet.background, .stylesheet, "body", false⟩

variable (sheet : BodySheet) (properties : PropertyMap)

theorem compile?_body :
    Selector.compile? "body" = some ⟨"body", { tag := some "body" }, []⟩ := by
  decide +kernel

theorem leavesOut_resolve {property : String} {rule : Rule} (h : Cascade.LeavesOut property rule) :
    Cascade.LeavesOut property (rule.resolve properties) := by
  intro resolved hr
  obtain ⟨d, hd, rfl⟩ := List.mem_map.1 hr
  rw [Declaration.answers_resolve]
  exact h d hd

/-- The rules in three parts, with custom properties resolved. -/
theorem rules_styling :
    (sheet.styling properties).rules =
      sheet.before.map (.resolve properties) ++
        sheet.bodyRule.resolve properties :: sheet.after.map (.resolve properties) := by
  simp [styling, Styling.ofRules, rules]

theorem isSimple_of_mem_rules :
    ∀ rule ∈ (sheet.styling properties).rules, Cascade.IsSimple rule := by
  intro resolved hr
  rw [rules_styling, List.mem_append, List.mem_cons] at hr
  rcases hr with hb | rfl | ha
  · obtain ⟨rule, hm, rfl⟩ := List.mem_map.1 hb
    exact sheet.simple rule (List.mem_append_left _ hm)
  · intro s hs
    cases compile?_body.symm.trans hs
    rfl
  · obtain ⟨rule, hm, rfl⟩ := List.mem_map.1 ha
    exact sheet.simple rule (List.mem_append_right _ hm)

theorem leavesOut_before :
    ∀ rule ∈ sheet.before.map (.resolve properties), Cascade.LeavesOut "background-color" rule := by
  intro resolved hr
  obtain ⟨rule, hm, rfl⟩ := List.mem_map.1 hr
  exact leavesOut_resolve properties (sheet.plain rule (List.mem_append_left _ hm))

theorem leavesOut_after :
    ∀ rule ∈ sheet.after.map (.resolve properties), Cascade.LeavesOut "background-color" rule := by
  intro resolved hr
  obtain ⟨rule, hm, rfl⟩ := List.mem_map.1 hr
  exact leavesOut_resolve properties (sheet.plain rule (List.mem_append_right _ hm))

theorem candidates_bodyRule (f : Features) (above : List Features) :
    Cascade.candidates (f :: above) "background-color" (sheet.bodyRule.resolve properties) =
      if f.tag = "body" then
        [⟨⟨"background-color", sheet.background,
          Property.resolve properties sheet.background⟩, 1, "body"⟩]
      else [] := by
  have applies : (⟨"body", { tag := some "body" }, []⟩ : Selector).applies (f :: above) =
      decide (f.tag = "body") := by
    have same : ("body" == f.tag) = decide (f.tag = "body") := by
      rw [BEq.comm]
      rfl
    simp [Selector.applies, Compound.isEmpty, Compound.describes, Selector.contextFits, same]
  have selector : (sheet.bodyRule.resolve properties).selector = "body" := rfl
  have counts : (sheet.bodyRule.resolve properties).ignored = false := rfl
  simp only [Cascade.candidates, selector, counts, compile?_body, applies, decide_eq_true_eq,
    Bool.false_eq_true, if_false]
  rfl

/-- Only a body has a background. -/
theorem best_background (f : Features) (above : List Features) :
    (Cascade.best (f :: above) (sheet.styling properties).rules "background-color").map
        SpecifiedColor.ofWinner =
      if f.tag = "body" then some (sheet.color properties) else none := by
  rw [Cascade.best, rules_styling, List.flatMap_append, List.flatMap_cons,
    Cascade.flatMap_candidates_of_leavesOut (sheet.leavesOut_before properties),
    Cascade.flatMap_candidates_of_leavesOut (sheet.leavesOut_after properties),
    candidates_bodyRule]
  split <;> rfl

/-- The page has the background of the body. -/
theorem pageSurface_styling :
    (sheet.styling properties).pageSurface =
      (do
        let info ← (sheet.color properties).info .background "inherited:body"
        info.paint ColorInfo.defaultBackground) := by
  have found : Cascade.pageBackground (sheet.styling properties).rules =
      some ⟨⟨"background-color", sheet.background,
        Property.resolve properties sheet.background⟩, 0, "body"⟩ := by
    have strips : Text.strip "body" = "body" := by decide +kernel
    rw [rules_styling,
      Cascade.pageBackground_append_of_leavesOut (sheet.leavesOut_before properties)]
    simp [Cascade.pageBackground, Cascade.pageSelectors, Rule.resolve, bodyRule, strips,
      Declaration.resolve, Declaration.answers]
  rw [Styling.pageSurface, found]
  rfl

/-! ## Elements below the body -/

/-- An element that is no body and sets no background itself. -/
def IsBare (f : Features) : Prop :=
  f.tag ≠ "body" ∧ Styling.inlineColor? f .background = none

theorem specified?_background {f : Features} (h : Styling.inlineColor? f .background = none)
    (above : List Features) :
    (sheet.styling properties).specified? (f :: above) .background =
      .ok (if f.tag = "body" then some (sheet.color properties) else none) := by
  simp only [Styling.specified?, h]
  rw [← best_background sheet properties f above]
  rfl

/-- Bare elements show the surface behind them. -/
theorem surfaceBehind_of_bare {more : List Features} :
    ∀ above : List Features, (∀ f ∈ above, IsBare f) →
      (sheet.styling properties).surfaceBehind (above ++ more) =
        (sheet.styling properties).surfaceBehind more
  | [], _ => rfl
  | f :: above, h => by
      obtain ⟨hf, habove⟩ := List.forall_mem_cons.1 h
      rw [List.cons_append, Styling.surfaceBehind, Styling.surfaceOn,
        specified?_background sheet properties hf.2, if_neg hf.1]
      exact surfaceBehind_of_bare above habove

/-- The surface on a body element: its background is painted over the page, which has the same. -/
theorem surfaceBehind_body :
    (sheet.styling properties).surfaceBehind [Document.body.features] =
      (do
        let info ← (sheet.color properties).info .background "inherited:body"
        info.paint (← (sheet.styling properties).pageSurface)) := by
  have bare : Styling.inlineColor? Document.body.features .background = none := rfl
  rw [Styling.surfaceBehind, Styling.surfaceOn, specified?_background sheet properties bare]
  rfl

/-- The color of the body hides the default background, or is not known. -/
def IsFinal (sheet : BodySheet) (properties : PropertyMap) : Prop :=
  ∀ color, (sheet.color properties).materialize .background = .ok (some color) →
    color.isSolid = true

theorem surfaceBehind_body_of_isFinal (h : sheet.IsFinal properties) :
    (sheet.styling properties).surfaceBehind [Document.body.features] =
      (sheet.styling properties).pageSurface := by
  rw [surfaceBehind_body, pageSurface_styling]
  cases hi : (sheet.color properties).info .background "inherited:body" with
  | error fault => rfl
  | ok info =>
      have final : info.isFinal = true := by
        unfold ColorInfo.isFinal
        cases hc : info.color with
        | none => rfl
        | some color => exact h color (by rw [Styling.materialize_of_info hi, hc])
      simp only [ok_bind, ColorInfo.paint_of_solid final]

end BodySheet

/-- The same pair for the element below a body. -/
def ContrastPair.below (pair : ContrastPair) : ContrastPair :=
  { pair with element := pair.element.below }

/-- No element of a document is a body or sets a background itself. -/
def Document.IsBare (doc : Document) : Prop :=
  ∀ e ∈ doc.toList, BodySheet.IsBare e.features

namespace BodySheet

variable (sheet : BodySheet) (properties : PropertyMap) {doc : Document}

/-- The backgrounds of the ancestors of an element: none but that of the page. -/
theorem surfaceBehind_ancestors (hbare : doc.IsBare) (e : Element) (more : List Features) :
    (sheet.styling properties).surfaceBehind ((doc.ancestors e).map (·.features) ++ more) =
      (sheet.styling properties).surfaceBehind more := by
  apply surfaceBehind_of_bare
  intro f hf
  obtain ⟨a, ha, rfl⟩ := List.mem_map.1 hf
  exact hbare a (Document.mem_toList_of_mem_ancestors ha)

theorem lookedPair?_below (hbare : doc.IsBare) (hfinal : sheet.IsFinal properties) {e : Element}
    (he : e ∈ doc.toList) :
    (sheet.styling properties).lookedPair? doc.belowBody e.below =
      ((sheet.styling properties).lookedPair? doc e).map (Option.map (·.below)) := by
  have page := surfaceBehind_ancestors sheet properties hbare e []
  rw [List.append_nil] at page
  have behind := surfaceBehind_ancestors sheet properties hbare e [Document.body.features]
  rw [surfaceBehind_body_of_isFinal sheet properties hfinal] at behind
  have look := Styling.appearance?_append (sheet.isSimple_of_mem_rules properties) e.features
    ((doc.ancestors e).map (·.features)) [Document.body.features] (Styling.isShown e)
    (behind.trans page.symm)
  rw [Styling.lookedPair?, Document.features_lineage_below he, Document.lineage_eq_cons,
    List.map_cons]
  have shown : Styling.isShown e.below = Styling.isShown e := rfl
  rw [shown, look, Styling.lookedPair?, Document.lineage_eq_cons, List.map_cons]
  generalize (sheet.styling properties).appearance? (Styling.isShown e)
    (e.features :: (doc.ancestors e).map (·.features)) = found
  rcases found with fault | _ | a <;> rfl

/-- A bare element has the surface behind it for its background. -/
theorem surfaceBehind_of_appearance? {f : Features} (hf : IsBare f) {above : List Features}
    {shown : Bool} {a : Appearance}
    (h : (sheet.styling properties).appearance? shown (f :: above) = .ok (some a)) :
    (sheet.styling properties).surfaceBehind above = .ok a.background := by
  obtain ⟨specified, hs, hb⟩ := Styling.background_of_appearance? h
  rw [specified?_background sheet properties hf.2, if_neg hf.1] at hs
  cases hs
  exact hb

/-- In a document without a body, the color of the body is painted on the default background.  In
one with a body, it is painted once more on the result. -/
theorem background_belowBody (hbare : doc.IsBare) {e : Element} (he : e ∈ doc.toList)
    {pair pair' : ContrastPair}
    (h : (sheet.styling properties).freshAnswer doc e = .ok (some pair))
    (h' : (sheet.styling properties).freshAnswer doc.belowBody e.below = .ok (some pair')) :
    ∃ color, (sheet.color properties).materialize .background = .ok color ∧
      Styling.coat color (.ok (some Color.white)) = .ok pair.background.color ∧
      Styling.coat color (.ok pair.background.color) = .ok pair'.background.color := by
  have bare : IsBare e.features := hbare e he
  have page : (sheet.styling properties).pageSurface = .ok pair.background := by
    have look := Styling.appearance?_of_freshAnswer h
    rw [Document.lineage_eq_cons, List.map_cons] at look
    have above := surfaceBehind_of_appearance? sheet properties bare look
    rw [← List.append_nil ((doc.ancestors e).map (·.features)),
      surfaceBehind_ancestors sheet properties hbare] at above
    exact above
  have body : (sheet.styling properties).surfaceBehind [Document.body.features] =
      .ok pair'.background := by
    have look := Styling.appearance?_of_freshAnswer h'
    rw [Document.features_lineage_below he, Document.lineage_eq_cons, List.map_cons,
      List.cons_append] at look
    have above := surfaceBehind_of_appearance? sheet properties bare look
    rw [surfaceBehind_ancestors sheet properties hbare] at above
    exact above
  rw [surfaceBehind_body, page] at body
  rw [pageSurface_styling] at page
  obtain ⟨info, hi, once⟩ := bind_eq_ok_iff.1 page
  rw [hi, ok_bind, ok_bind] at body
  exact ⟨info.color, Styling.materialize_of_info hi, Styling.coat_of_paint once,
    Styling.coat_of_paint body⟩

/-- A body element around the roots of a document changes no pair if the color of the body hides
what is behind it or is not known. -/
theorem pairs_belowBody (hbare : doc.IsBare) (hfinal : sheet.IsFinal properties) :
    (sheet.styling properties).pairs doc.belowBody =
      ((sheet.styling properties).pairs doc).map (List.map (·.below)) := by
  have first : (sheet.styling properties).lookedPair? doc.belowBody Document.body = .ok none := rfl
  have others : (doc.toList.map (·.below)).mapM
      ((sheet.styling properties).lookedPair? doc.belowBody) =
        (doc.toList.mapM ((sheet.styling properties).lookedPair? doc)).map
          (List.map (Option.map (·.below))) := by
    rw [List.mapM_map, ← mapM_map_result]
    exact mapM_congr fun e he => lookedPair?_below sheet properties hbare hfinal he
  rw [Styling.pairs_eq_mapM, Styling.pairs_eq_mapM, Document.toList_belowBody, List.mapM_cons,
    first, others]
  rcases doc.toList.mapM ((sheet.styling properties).lookedPair? doc) with fault | found
  · rfl
  · have kept : (found.map (Option.map (·.below))).filterMap id =
        (found.filterMap id).map ContrastPair.below := by
      rw [List.filterMap_map, List.map_filterMap]
      rfl
    exact congrArg Except.ok kept

/-- White paragraphs on a body with a background. -/
def whiteOn (background : String) : BodySheet where
  before := [⟨"p", [⟨"color", "#fff", none⟩], false⟩]
  background := background
  after := []
  simple := by decide +kernel
  plain := by decide +kernel

/-- A paragraph, without a body. -/
def paragraph : Document :=
  Document.empty.attach { features := { tag := "p" }, hasText := true } none

theorem pairs_belowBody_whiteOn_black :
    paragraph.IsBare ∧ (whiteOn "#000").IsFinal [] ∧
      ((whiteOn "#000").styling []).pairs paragraph.belowBody =
        (((whiteOn "#000").styling []).pairs paragraph).map (List.map (·.below)) := by
  have bare : paragraph.IsBare := by
    intro e he
    cases List.mem_singleton.1 he
    exact ⟨by decide, rfl⟩
  have final : (whiteOn "#000").IsFinal [] := by
    intro color h
    have black : ((whiteOn "#000").color []).materialize .background =
        .ok (some ⟨0, 0, 0, none⟩) := by decide +kernel
    cases black.symm.trans h
    decide +kernel
  exact ⟨bare, final, pairs_belowBody (whiteOn "#000") [] bare final⟩

/-- Half of black makes gray of white, and with a body element a darker gray. -/
theorem backgrounds_belowBody_whiteOn_shade :
    (((whiteOn "rgba(0, 0, 0, 0.5)").styling []).pairs paragraph).map
        (List.map (·.background.color)) = .ok [some ⟨128, 128, 128, none⟩] ∧
      (((whiteOn "rgba(0, 0, 0, 0.5)").styling []).pairs paragraph.belowBody).map
        (List.map (·.background.color)) = .ok [some ⟨64, 64, 64, none⟩] := by
  constructor <;> decide +kernel

end BodySheet

end ContrastAudit

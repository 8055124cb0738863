import ContrastAudit.Proofs.Property.Map
import ContrastAudit.Proofs.Stylesheet.Reading

/-!
# Flattening written trees

A tree that is written down is read as its flattening, whatever blanks are between its parts.

**Results.**
* `rulesOf_parse`: the rules for selectors around a written body hold its tracked declarations.
* `parse_of_writes`: reading a written tree gives the sheet that the tree emits.
-/

namespace ContrastAudit.Stylesheet

namespace Emission

/-- What is emitted in two parts gives the two sheets, one after the other. -/
theorem sheet_append (first second : List Emission) :
    sheet (first ++ second) = sheet first ++ sheet second := by
  have hproperties := PropertyMap.merge_append (first.filterMap property?)
    (second.filterMap property?)
  rw [sheet, List.filterMap_append, List.filterMap_append, List.filterMap_append, hproperties]
  rfl

end Emission

/-! ## Rules -/

/-- The declaration that an entry is, if any. -/
def Entry.declared? : Entry → Option (String × String)
  | .declaration property value => some (String.ofList property, String.ofList value)
  | _ => none

theorem declared?_of_shows {e : Entry} {item : Item} (h : Shows e item) (he : e.IsPrintable) :
    declared? (Node.ofItem Node.parse item) = e.declared? := by
  obtain ⟨hlegible, hcloses⟩ := he.here
  cases h with
  | declaration hbefore hafter =>
      have hhead := hlegible.1.toIsPlain.head?_ne (c := '@') (by decide)
      rw [Node.ofItem, declared?, if_neg (hhead _)]
      exact declaration?_of_isPlain hlegible.1 hcloses hlegible.2 hbefore hafter
  | rule _ _ => rfl
  | atRule _ _ => rfl
  | importing _ _ => rfl
  | comment => rfl

/-- The declarations directly in a written body are those of its entries. -/
theorem filterMap_declared?_parse (es : List Entry) :
    ∀ {text : List Char}, Writes es text → (∀ e ∈ es, e.IsPrintable) →
      (Node.parse text).filterMap declared? = es.filterMap Entry.declared? := by
  induction es with
  | nil =>
      intro text h _
      cases h with
      | nil hblanks => rw [parse_of_allBlank hblanks]; rfl
  | cons e es ih =>
      intro text h hes
      obtain ⟨he, hrest⟩ := List.forall_mem_cons.1 hes
      cases h with
      | cons hblanks hshows hspells hwrites =>
          rw [parse_of_shows he hblanks hshows hspells, List.filterMap_cons, List.filterMap_cons,
            declared?_of_shows hshows he, ih hwrites hrest]

/-- What an entry declares is tracked or a custom property as the entry is. -/
theorem Entry.filter_declared? (e : Entry) :
    ((e.declared?.filter fun d => !isCustom d.1.toList && isKept d.1 d.2).map fun d =>
        { property := d.1, raw := d.2 }) = e.tracked? ∧
      (e.declared?.filter fun d => isCustom d.1.toList) = e.custom? := by
  cases e with
  | declaration property value =>
      simp [Entry.declared?, Entry.tracked?, Entry.custom?, Option.filter]
  | rule selectors body => exact ⟨rfl, rfl⟩
  | atRule name prelude body => exact ⟨rfl, rfl⟩
  | importing path => exact ⟨rfl, rfl⟩
  | comment text => exact ⟨rfl, rfl⟩

theorem tracked_eq (body : List Entry) :
    ((body.filterMap Entry.declared?).filter fun d =>
        !isCustom d.1.toList && isKept d.1 d.2).map (fun d => { property := d.1, raw := d.2 }) =
      body.filterMap Entry.tracked? := by
  rw [List.filter_filterMap, List.map_filterMap]
  exact List.filterMap_congr fun e _ => e.filter_declared?.1

theorem custom_eq (body : List Entry) :
    ((body.filterMap Entry.declared?).filter fun d => isCustom d.1.toList) =
      body.filterMap Entry.custom? := by
  rw [List.filter_filterMap]
  exact List.filterMap_congr fun e _ => e.filter_declared?.2

theorem sheet_rules_append_properties (rules : List Rule) (properties : PropertyMap) :
    Emission.sheet
        (rules.map .rule ++ properties.map fun (name, value) => .property name value) =
      { rules := rules, properties := PropertyMap.merge [] properties } := by
  simp [Emission.sheet, List.filterMap_map, Function.comp_def, Emission.rule?,
    Emission.property?, Emission.target?]

/-- The rules for selectors around a written body are what its declarations emit. -/
theorem rulesOf_parse {body : List Entry} {text : List Char} (h : Writes body text)
    (hbody : ∀ e ∈ body, e.IsPrintable) (selectors : List String) (ignored : Bool) :
    rulesOf selectors ignored (Node.parse text) =
      Emission.sheet (Entry.directly selectors ignored body) := by
  have hdeclared := filterMap_declared?_parse body h hbody
  have htracked := tracked_eq body
  have hempty := congrArg List.isEmpty htracked
  rw [List.isEmpty_map] at hempty
  have hproperties := apply_ite (PropertyMap.merge [])
    (selectors.any rootSelectors.contains = true) (body.filterMap Entry.custom?) []
  simp only [rulesOf, hdeclared, custom_eq body, hempty, htracked]
  rw [Entry.directly, sheet_rules_append_properties, hproperties, PropertyMap.merge_nil]

/-! ## Entries -/

/-- The node of a written entry is read as what the entry emits, if bodies inside of it are. -/
theorem sheet_of_shows {e : Entry} {item : Item} (h : Shows e item) (he : e.IsPrintable)
    (hbody : ∀ text, Writes e.body text → ∀ parents,
      flatten parents false (Node.parse text) =
        Emission.sheet (Entry.emittedAll parents false e.body))
    (parents : List String) (marked : Bool) :
    (Node.ofItem Node.parse item).sheet parents marked =
      Emission.sheet (e.emitted parents marked) := by
  obtain ⟨hlegible, hcloses⟩ := he.here
  cases h with
  | declaration hbefore hafter =>
      have hhead := hlegible.1.toIsPlain.head?_ne (c := '@') (by decide)
      rw [Node.ofItem, Node.sheet, statementSheet, if_neg (hhead _)]
      rfl
  | @rule selectors prelude text body hlists hwrites =>
      have hsteady := isSteady_of_lists hlists hlegible.2
      have hclean := clean_of_isSteady hsteady
      have hhead := head?_of_lists hlists hlegible.2
      have hempty : prelude.isEmpty = false := List.isEmpty_eq_false_iff.2 hsteady.trimmed.ne_nil
      have hselectors : nest parents (splitSelectors prelude) = Entry.under parents selectors := by
        rw [splitSelectors_of_lists hlists hlegible.2, nest_eq_under hlegible.2]
      rw [Node.ofItem, Node.sheet, Entry.emitted, Emission.sheet_append]
      simp only [hclean, if_neg hhead, hempty, Bool.false_eq_true, if_false, hselectors]
      rw [rulesOf_parse hwrites he.inside, hbody _ hwrites]
      rfl
  | @atRule name prelude head text body hheads hwrites =>
      have hclean := clean_of_isSteady (isSteady_of_heads hheads hlegible.1 hlegible.2)
      rw [Node.ofItem, Node.sheet, Entry.emitted]
      simp only [hclean, head?_of_heads hheads, if_true,
        groupingRules_contains_atName hheads hlegible.1]
      split
      · rw [rulesOf_parse hwrites he.inside, hbody _ hwrites, Emission.sheet_append,
          apply_ite Emission.sheet]
        rfl
      · rfl
  | importing hbetween hne =>
      rw [Node.ofItem, Node.sheet, statementSheet_of_isPath hlegible hbetween hne]
      rfl
  | comment => rfl

/-- A node in front of others adds its sheet; comments add none, but may mark the next node. -/
theorem flatten_cons_of_shows {e : Entry} {es : List Entry} {item : Item} (h : Shows e item)
    {parents : List String} {marked : Bool} {nodes : List Node}
    (hnode : (Node.ofItem Node.parse item).sheet parents marked =
      Emission.sheet (e.emitted parents marked))
    (hnodes : ∀ marked, flatten parents marked nodes =
      Emission.sheet (Entry.emittedAll parents marked es)) :
    flatten parents marked (Node.ofItem Node.parse item :: nodes) =
      Emission.sheet (Entry.emittedAll parents marked (e :: es)) := by
  have hparts : Emission.sheet (Entry.emittedAll parents marked (e :: es)) =
      Emission.sheet (e.emitted parents marked) ++ flatten parents (e.marksNext marked) nodes := by
    rw [Entry.emittedAll, Emission.sheet_append, hnodes]
  cases h with
  | comment =>
      rw [Node.ofItem, flatten, hnodes]
      rfl
  | declaration _ _ =>
      rw [hparts, ← hnode]
      rfl
  | rule _ _ =>
      rw [hparts, ← hnode]
      rfl
  | atRule _ _ =>
      rw [hparts, ← hnode]
      rfl
  | importing _ _ =>
      rw [hparts, ← hnode]
      rfl

/-- Inside of rules for any parents, a written tree is read as what it emits. -/
theorem flatten_parse (es : List Entry) :
    ∀ {text : List Char}, Writes es text → (∀ e ∈ es, e.IsPrintable) →
      ∀ (parents : List String) (marked : Bool),
        flatten parents marked (Node.parse text) =
          Emission.sheet (Entry.emittedAll parents marked es) := by
  induction es using Entry.body_induction with
  | nil =>
      intro text h _ parents marked
      cases h with
      | nil hblanks =>
          rw [parse_of_allBlank hblanks, flatten]
          rfl
  | cons e es ihBody ih =>
      intro text h hes parents marked
      obtain ⟨he, hrest⟩ := List.forall_mem_cons.1 hes
      cases h with
      | cons hblanks hshows hspells hwrites =>
          rw [parse_of_shows he hblanks hshows hspells]
          -- the mark in front of an entry does not reach into its body
          have hnode := sheet_of_shows hshows he
            (fun _ hbody parents => ihBody hbody he.inside parents false) parents marked
          exact flatten_cons_of_shows hshows hnode (ih hwrites hrest parents)

/-- A tree that is written down is read as its flattening, if its texts are plain and its properties
close their parentheses.  The text may have any blanks between the entries and around the parts of
each. -/
theorem parse_of_writes {es : List Entry} {text : List Char} (h : Writes es text)
    (hes : ∀ e ∈ es, e.IsPrintable) : parse (String.ofList text) = Entry.flattening es := by
  rw [parse, String.toList_ofList, Entry.flattening]
  exact flatten_parse es h hes [] false

/-- An import and a marked rule, in which a rule and a media query are nested. -/
def badges : List Entry :=
  [.importing "base.css".toList,
    .comment " contrast-ignore ".toList,
    .rule [":root".toList, ".badge".toList]
      [.declaration "--ink".toList "rgb(0, 0, 0)".toList,
        .declaration "color".toList "var(--ink)".toList,
        .rule ["b".toList] [.declaration "font-weight".toList "700".toList],
        .atRule "media".toList "print".toList [.declaration "color".toList "red".toList]]]

theorem parse_badges :
    (∀ e ∈ badges, e.IsPrintable) ∧ Writes badges (Entry.printAll badges) ∧
      parse (String.ofList (Entry.printAll badges)) = Entry.flattening badges ∧
      Entry.flattening badges =
        { rules :=
            [⟨":root", [⟨"color", "var(--ink)", none⟩], true⟩,
              ⟨".badge", [⟨"color", "var(--ink)", none⟩], true⟩,
              ⟨":root b", [⟨"font-weight", "700", none⟩], false⟩,
              ⟨".badge b", [⟨"font-weight", "700", none⟩], false⟩,
              ⟨":root", [⟨"color", "red", none⟩], false⟩,
              ⟨".badge", [⟨"color", "red", none⟩], false⟩]
          properties := [("--ink", "rgb(0, 0, 0)")]
          imports := ["base.css"] } := by
  have hprintable : ∀ e ∈ badges, e.IsPrintable := by decide +kernel
  have hwrites : Writes badges (Entry.printAll badges) :=
    writes_printAll badges fun e he => (hprintable e he).mono fun _ h => h.1
  exact ⟨hprintable, hwrites, parse_of_writes hwrites hprintable, by decide +kernel⟩

/-- A declaration whose property opens a parenthesis, in front of another one. -/
def unclosed : List Entry :=
  [.rule [".a".toList]
    [.declaration "x(".toList "1".toList, .declaration "color".toList "red".toList]]

/-- A parenthesis that a property leaves open hides the semicolons behind it, up to the end of the
body. -/
theorem parse_unclosed :
    (∀ e ∈ unclosed, e.Every Entry.IsLegible) ∧
      Writes unclosed ".a\x7bx(:1;color:red;\x7d".toList ∧
      parse ".a\x7bx(:1;color:red;\x7d" = {} ∧
      Entry.flattening unclosed = { rules := [⟨".a", [⟨"color", "red", none⟩], false⟩] } ∧
      parse ".a\x7bx(:1;color:red;\x7d" ≠ Entry.flattening unclosed := by
  have hlegible : ∀ e ∈ unclosed, e.Every Entry.IsLegible := by decide +kernel
  have hprint : Entry.printAll unclosed = ".a\x7bx(:1;color:red;\x7d".toList := by decide +kernel
  have hwrites := writes_printAll unclosed hlegible
  rw [hprint] at hwrites
  exact ⟨hlegible, hwrites, by decide +kernel, by decide +kernel, by decide +kernel⟩

end ContrastAudit.Stylesheet

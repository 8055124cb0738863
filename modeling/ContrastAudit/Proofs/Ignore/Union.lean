import ContrastAudit.Ignore.Filter
import ContrastAudit.Proofs.Number.Fault
import ContrastAudit.Proofs.Number.Order

/-!
# Combined configurations of what is ignored

What a configuration ignores is said entry by entry: a pair is ignored if one of the entries names
it.  Entries therefore do not interfere with one another, and where they stand, how often they are
repeated and in which text a color is written does not matter.

All of this holds of configurations that have a filter.  A color whose numbers are out of range
leaves a configuration without one, and with it every configuration that it is added to.

**Results.**
* `ignores_iff_names`: a filter ignores the pairs that the entries of its configuration name.
* `ignores_combined`: a configuration with the entries of two ignores what either of them does.
* `not_forall_ignores_combined`: an entry may leave the others without effect.
-/

namespace ContrastAudit

namespace Color

theorem looksLike_iff {a b : Color} :
    a.looksLike b = true ↔
      a.red = b.red ∧ a.green = b.green ∧ a.blue = b.blue ∧ (a.opacity == b.opacity) = true := by
  simp only [looksLike, Bool.and_eq_true, beq_iff_eq, and_assoc]

theorem looksLike_symm {a b : Color} (h : a.looksLike b = true) : b.looksLike a = true := by
  rw [looksLike_iff] at h ⊢
  exact ⟨h.1.symm, h.2.1.symm, h.2.2.1.symm, Number.beq_symm h.2.2.2⟩

theorem looksLike_trans {a b c : Color} (hab : a.looksLike b = true) (hbc : b.looksLike c = true) :
    a.looksLike c = true := by
  rw [looksLike_iff] at *
  exact ⟨hab.1.trans hbc.1, hab.2.1.trans hbc.2.1, hab.2.2.1.trans hbc.2.2.1,
    Number.beq_trans hab.2.2.2 hbc.2.2.2⟩

end Color

/-- One of the forms of a color looks like the color of a text. -/
def ColorInfo.Shows (info : ColorInfo) (text : String) : Prop :=
  ∃ color, Color.parse text = .ok (some color) ∧ ∃ form ∈ info.forms, form.looksLike color = true

/-- Two texts are the same text, or they write colors that look alike. -/
def SameColor (s t : String) : Prop :=
  s = t ∨ ∃ c d, Color.parse s = .ok (some c) ∧ Color.parse t = .ok (some d) ∧
    c.looksLike d = true

section SameColor

variable {s t : String}

theorem SameColor.symm (h : SameColor s t) : SameColor t s := by
  rcases h with rfl | ⟨c, d, hc, hd, halike⟩
  · exact .inl rfl
  · exact .inr ⟨d, c, hd, hc, Color.looksLike_symm halike⟩

theorem SameColor.exists_parse (h : SameColor s t) (ht : ∃ color, Color.parse t = .ok color) :
    ∃ color, Color.parse s = .ok color := by
  rcases h with rfl | ⟨c, -, hc, -⟩
  · exact ht
  · exact ⟨_, hc⟩

theorem ColorInfo.Shows.of_sameColor {info : ColorInfo} (h : info.Shows s) (hst : SameColor s t) :
    info.Shows t := by
  obtain ⟨color, hcolor, form, hform, hlooks⟩ := h
  rcases hst with rfl | ⟨c, d, hc, hd, halike⟩
  · exact ⟨color, hcolor, form, hform, hlooks⟩
  · rw [hc] at hcolor
    cases hcolor
    exact ⟨d, hd, form, hform, Color.looksLike_trans hlooks halike⟩

end SameColor

namespace IgnoreConfig

/-! ## Entries -/

/-- An entry of a configuration names a pair. -/
inductive Names (config : IgnoreConfig) (pair : ContrastPair) : Prop
  | foreground {text : String} :
      text ∈ config.colors → pair.foreground.Shows text → Names config pair
  | background {text : String} :
      text ∈ config.colors → pair.background.Shows text → Names config pair
  | together {texts : String × String} :
      texts ∈ config.pairs → pair.foreground.Shows texts.1 → pair.background.Shows texts.2 →
        Names config pair
  | selector {text : String} :
      text ∈ config.selectors → (ElementPattern.ofText text).fits pair.element.features = true →
        Names config pair

/-- The texts of a configuration that may write colors. -/
def colorTexts (config : IgnoreConfig) : List String :=
  config.colors ++ config.pairs.flatMap fun texts => [texts.1, texts.2]

/-- A filter can be made of a configuration. -/
def HasFilter (config : IgnoreConfig) : Prop :=
  ∃ filter, IgnoreFilter.ofConfig config = .ok filter

/-- The filter of a configuration ignores a pair. -/
def Ignores (config : IgnoreConfig) (pair : ContrastPair) : Prop :=
  ∃ filter, IgnoreFilter.ofConfig config = .ok filter ∧ filter.ignores pair = true

/-- Every entry of one configuration is an entry of another one, up to the texts of its colors. -/
structure Within (a b : IgnoreConfig) : Prop where
  colors : ∀ text ∈ a.colors, ∃ text' ∈ b.colors, SameColor text text'
  pairs : ∀ texts ∈ a.pairs, ∃ texts' ∈ b.pairs,
    SameColor texts.1 texts'.1 ∧ SameColor texts.2 texts'.2
  selectors : a.selectors ⊆ b.selectors

/-- Two configurations have the same entries one by one, up to the texts of their colors. -/
structure Rewritten (a b : IgnoreConfig) : Prop where
  colors : List.Forall₂ SameColor a.colors b.colors
  pairs : List.Forall₂ (fun texts texts' =>
    SameColor texts.1 texts'.1 ∧ SameColor texts.2 texts'.2) a.pairs b.pairs
  selectors : a.selectors = b.selectors

theorem exists_mem_of_forall₂ {α β : Type} {R : α → β → Prop} {as : List α} {bs : List β}
    (h : List.Forall₂ R as bs) {a : α} (ha : a ∈ as) : ∃ b ∈ bs, R a b := by
  induction h with
  | nil => cases ha
  | cons hfirst _ ih =>
      rcases List.mem_cons.1 ha with rfl | ha
      · exact ⟨_, List.mem_cons_self, hfirst⟩
      · obtain ⟨b, hb, hab⟩ := ih ha
        exact ⟨b, List.mem_cons_of_mem _ hb, hab⟩

section Entries

variable {a b config : IgnoreConfig} {pair : ContrastPair} {filter : IgnoreFilter}

theorem Names.within (h : a.Names pair) (hab : Within a b) : b.Names pair := by
  cases h with
  | foreground htext hshows =>
      obtain ⟨text', htext', hsame⟩ := hab.colors _ htext
      exact .foreground htext' (hshows.of_sameColor hsame)
  | background htext hshows =>
      obtain ⟨text', htext', hsame⟩ := hab.colors _ htext
      exact .background htext' (hshows.of_sameColor hsame)
  | together htexts hforeground hbackground =>
      obtain ⟨texts', htexts', hsame, hsame'⟩ := hab.pairs _ htexts
      exact .together htexts' (hforeground.of_sameColor hsame) (hbackground.of_sameColor hsame')
  | selector htext hfits => exact .selector (hab.selectors htext) hfits

theorem within_of_subset (hcolors : a.colors ⊆ b.colors) (hpairs : a.pairs ⊆ b.pairs)
    (hselectors : a.selectors ⊆ b.selectors) : Within a b where
  colors text htext := ⟨text, hcolors htext, .inl rfl⟩
  pairs texts htexts := ⟨texts, hpairs htexts, .inl rfl, .inl rfl⟩
  selectors := hselectors

theorem names_append : (a.append b).Names pair ↔ a.Names pair ∨ b.Names pair := by
  constructor
  · intro h
    cases h with
    | foreground htext hshows =>
        rcases List.mem_append.1 htext with htext | htext
        · exact .inl (.foreground htext hshows)
        · exact .inr (.foreground htext hshows)
    | background htext hshows =>
        rcases List.mem_append.1 htext with htext | htext
        · exact .inl (.background htext hshows)
        · exact .inr (.background htext hshows)
    | together htexts hforeground hbackground =>
        rcases List.mem_append.1 htexts with htexts | htexts
        · exact .inl (.together htexts hforeground hbackground)
        · exact .inr (.together htexts hforeground hbackground)
    | selector htext hfits =>
        rcases List.mem_append.1 htext with htext | htext
        · exact .inl (.selector htext hfits)
        · exact .inr (.selector htext hfits)
  · rintro (h | h)
    · refine h.within (within_of_subset ?_ ?_ ?_) <;> exact List.subset_append_left _ _
    · refine h.within (within_of_subset ?_ ?_ ?_) <;> exact List.subset_append_right _ _

theorem Rewritten.within (h : Rewritten a b) : Within a b where
  colors _ htext := exists_mem_of_forall₂ h.colors htext
  pairs _ htexts := exists_mem_of_forall₂ h.pairs htexts
  selectors := by
    rw [h.selectors]
    exact List.Subset.refl _

theorem Rewritten.symm (h : Rewritten a b) : Rewritten b a where
  colors := h.colors.flip.imp fun _ _ => SameColor.symm
  pairs := h.pairs.flip.imp fun _ _ h => ⟨h.1.symm, h.2.symm⟩
  selectors := h.selectors.symm

/-! ## Filters -/

theorem ofConfig_eq_ok_iff :
    IgnoreFilter.ofConfig config = .ok filter ↔
      ∃ colors, config.colors.mapM Color.parse = .ok colors ∧
        ∃ pairs, config.pairs.mapM IgnoreFilter.parsePair = .ok pairs ∧
          ⟨colors.filterMap id, pairs.filterMap id,
            config.selectors.map ElementPattern.ofText⟩ = filter := by
  simp only [IgnoreFilter.ofConfig, bind_eq_ok_iff, return_eq_ok_iff]

theorem parsePair_eq_some_iff {texts : String × String} {c d : Color} :
    IgnoreFilter.parsePair texts = .ok (some (c, d)) ↔
      Color.parse texts.1 = .ok (some c) ∧ Color.parse texts.2 = .ok (some d) := by
  simp only [IgnoreFilter.parsePair, bind_eq_ok_iff, return_eq_ok_iff]
  constructor
  · rintro ⟨c', hc, d', hd, heq⟩
    cases c' with
    | none => cases heq
    | some c' =>
        cases d' with
        | none => cases heq
        | some d' =>
            cases heq
            exact ⟨hc, hd⟩
  · rintro ⟨hc, hd⟩
    exact ⟨_, hc, _, hd, rfl⟩

/-- Each text is read, even if there is no color in it. -/
theorem exists_parsePair_iff {texts : String × String} :
    (∃ colors, IgnoreFilter.parsePair texts = .ok colors) ↔
      ∀ text ∈ [texts.1, texts.2], ∃ color, Color.parse text = .ok color := by
  simp only [IgnoreFilter.parsePair, exists_bind_iff, List.forall_mem_cons]
  constructor
  · rintro ⟨c, hc, d, hd, -⟩
    exact ⟨⟨c, hc⟩, ⟨d, hd⟩, by simp⟩
  · rintro ⟨⟨c, hc⟩, ⟨d, hd⟩, -⟩
    exact ⟨c, hc, d, hd, _, rfl⟩

/-- A configuration has a filter if all of its texts of colors are read. -/
theorem hasFilter_iff :
    config.HasFilter ↔ ∀ text ∈ config.colorTexts, ∃ color, Color.parse text = .ok color := by
  have hfilter : config.HasFilter ↔
      (∃ colors, config.colors.mapM Color.parse = .ok colors) ∧
        ∃ pairs, config.pairs.mapM IgnoreFilter.parsePair = .ok pairs := by
    simp only [HasFilter, ofConfig_eq_ok_iff]
    constructor
    · rintro ⟨-, colors, hcolors, pairs, hpairs, -⟩
      exact ⟨⟨colors, hcolors⟩, pairs, hpairs⟩
    · rintro ⟨⟨colors, hcolors⟩, pairs, hpairs⟩
      exact ⟨_, colors, hcolors, pairs, hpairs, rfl⟩
  rw [hfilter, exists_mapM_iff, exists_mapM_iff, colorTexts, List.forall_mem_append]
  simp only [exists_parsePair_iff, List.mem_flatMap]
  constructor
  · rintro ⟨hcolors, hpairs⟩
    refine ⟨hcolors, ?_⟩
    rintro text ⟨texts, htexts, htext⟩
    exact hpairs texts htexts text htext
  · rintro ⟨hcolors, hpairs⟩
    exact ⟨hcolors, fun texts htexts text htext => hpairs text ⟨texts, htexts, htext⟩⟩

theorem hasFilter_append : (a.append b).HasFilter ↔ a.HasFilter ∧ b.HasFilter := by
  simp only [hasFilter_iff, colorTexts, append, List.flatMap_append, List.forall_mem_append]
  tauto

theorem Within.hasFilter (hab : Within a b) (hb : b.HasFilter) : a.HasFilter := by
  rw [hasFilter_iff] at *
  have hcolor : ∀ text ∈ b.colors, ∃ color, Color.parse text = .ok color :=
    fun text htext => hb text (List.mem_append_left _ htext)
  have hpair : ∀ texts ∈ b.pairs, ∀ text ∈ [texts.1, texts.2],
      ∃ color, Color.parse text = .ok color :=
    fun texts htexts text htext =>
      hb text (List.mem_append_right _ (List.mem_flatMap.2 ⟨texts, htexts, htext⟩))
  intro text htext
  rcases List.mem_append.1 htext with htext | htext
  · obtain ⟨text', htext', hsame⟩ := hab.colors text htext
    exact hsame.exists_parse (hcolor text' htext')
  · obtain ⟨texts, htexts, htext⟩ := List.mem_flatMap.1 htext
    obtain ⟨texts', htexts', hfirst, hsecond⟩ := hab.pairs texts htexts
    have hread := hpair texts' htexts'
    simp only [List.mem_cons, List.not_mem_nil, or_false] at htext hread
    rcases htext with rfl | rfl
    · exact hfirst.exists_parse (hread _ (.inl rfl))
    · exact hsecond.exists_parse (hread _ (.inr rfl))

/-! ## What filters ignore -/

theorem mem_colors_iff (h : IgnoreFilter.ofConfig config = .ok filter) {color : Color} :
    color ∈ filter.colors ↔ ∃ text ∈ config.colors, Color.parse text = .ok (some color) := by
  obtain ⟨colors, hcolors, pairs, hpairs, rfl⟩ := ofConfig_eq_ok_iff.1 h
  simp [← mem_mapM_iff hcolors]

theorem mem_pairs_iff (h : IgnoreFilter.ofConfig config = .ok filter) {c d : Color} :
    (c, d) ∈ filter.pairs ↔ ∃ texts ∈ config.pairs,
      Color.parse texts.1 = .ok (some c) ∧ Color.parse texts.2 = .ok (some d) := by
  obtain ⟨colors, hcolors, pairs, hpairs, rfl⟩ := ofConfig_eq_ok_iff.1 h
  simp [← parsePair_eq_some_iff, ← mem_mapM_iff hpairs]

theorem ignoresColor_iff (h : IgnoreFilter.ofConfig config = .ok filter) {info : ColorInfo} :
    filter.ignoresColor info = true ↔ ∃ text ∈ config.colors, info.Shows text := by
  simp only [IgnoreFilter.ignoresColor, List.any_eq_true, mem_colors_iff h]
  constructor
  · rintro ⟨form, hform, color, ⟨text, htext, hcolor⟩, hlooks⟩
    exact ⟨text, htext, color, hcolor, form, hform, hlooks⟩
  · rintro ⟨text, htext, color, hcolor, form, hform, hlooks⟩
    exact ⟨form, hform, color, ⟨text, htext, hcolor⟩, hlooks⟩

theorem ignoresTogether_iff (h : IgnoreFilter.ofConfig config = .ok filter)
    {foreground background : ColorInfo} :
    filter.ignoresTogether foreground background = true ↔
      ∃ texts ∈ config.pairs, foreground.Shows texts.1 ∧ background.Shows texts.2 := by
  simp only [IgnoreFilter.ignoresTogether, List.any_eq_true, Bool.and_eq_true, Prod.exists,
    mem_pairs_iff h]
  constructor
  · rintro ⟨c, d, ⟨s, t, htexts, hc, hd⟩, ⟨form, hform, hlooks⟩, form', hform', hlooks'⟩
    exact ⟨s, t, htexts, ⟨c, hc, form, hform, hlooks⟩, d, hd, form', hform', hlooks'⟩
  · rintro ⟨s, t, htexts, ⟨c, hc, form, hform, hlooks⟩, d, hd, form', hform', hlooks'⟩
    exact ⟨c, d, ⟨s, t, htexts, hc, hd⟩, ⟨form, hform, hlooks⟩, form', hform', hlooks'⟩

/-- A filter ignores the pairs that the entries of its configuration name. -/
theorem ignores_iff_names (h : IgnoreFilter.ofConfig config = .ok filter) :
    filter.ignores pair = true ↔ config.Names pair := by
  have hpatterns : filter.patterns = config.selectors.map ElementPattern.ofText := by
    obtain ⟨colors, -, pairs, -, rfl⟩ := ofConfig_eq_ok_iff.1 h
    rfl
  simp only [IgnoreFilter.ignores, Bool.or_eq_true, ignoresColor_iff h, ignoresTogether_iff h,
    hpatterns, List.any_eq_true, List.mem_map]
  constructor
  · rintro (((⟨text, htext, hshows⟩ | ⟨text, htext, hshows⟩) | ⟨texts, htexts, hshows, hshows'⟩) |
      ⟨pattern, ⟨text, htext, rfl⟩, hfits⟩)
    · exact .foreground htext hshows
    · exact .background htext hshows
    · exact .together htexts hshows hshows'
    · exact .selector htext hfits
  · intro hnames
    cases hnames with
    | foreground htext hshows => exact .inl (.inl (.inl ⟨_, htext, hshows⟩))
    | background htext hshows => exact .inl (.inl (.inr ⟨_, htext, hshows⟩))
    | together htexts hshows hshows' => exact .inl (.inr ⟨_, htexts, hshows, hshows'⟩)
    | selector htext hfits => exact .inr ⟨_, ⟨_, htext, rfl⟩, hfits⟩

theorem ignores_iff (h : config.HasFilter) : config.Ignores pair ↔ config.Names pair := by
  obtain ⟨filter, hfilter⟩ := h
  rw [← ignores_iff_names hfilter]
  constructor
  · rintro ⟨filter', hfilter', hignores⟩
    rw [hfilter] at hfilter'
    cases hfilter'
    exact hignores
  · intro hignores
    exact ⟨filter, hfilter, hignores⟩

end Entries

/-- Configurations combine to what ignores the pairs that either of them does, once all of their
texts of colors are read.  Where the entries stand and how often does not matter, further entries
only add pairs, and a text may be replaced by another one of the same color. -/
theorem ignores_combined (a b : IgnoreConfig) :
    (a.HasFilter ↔ ∀ text ∈ a.colorTexts, ∃ color, Color.parse text = .ok color) ∧
    ((a.append b).HasFilter ↔ a.HasFilter ∧ b.HasFilter) ∧
    (a.HasFilter → b.HasFilter → ∀ pair,
      (a.append b).Ignores pair ↔ a.Ignores pair ∨ b.Ignores pair) ∧
    (b.HasFilter → Within a b → a.HasFilter ∧ ∀ pair, a.Ignores pair → b.Ignores pair) ∧
    (b.HasFilter → Rewritten a b → a.HasFilter ∧ ∀ pair, a.Ignores pair ↔ b.Ignores pair) := by
  refine ⟨hasFilter_iff, hasFilter_append, fun ha hb pair => ?_, fun hb hab => ?_,
    fun hb hab => ?_⟩
  · rw [ignores_iff (hasFilter_append.2 ⟨ha, hb⟩), ignores_iff ha, ignores_iff hb, names_append]
  · have ha := hab.hasFilter hb
    refine ⟨ha, fun pair => ?_⟩
    rw [ignores_iff ha, ignores_iff hb]
    exact fun h => h.within hab
  · have ha := hab.within.hasFilter hb
    refine ⟨ha, fun pair => ?_⟩
    rw [ignores_iff ha, ignores_iff hb]
    exact ⟨fun h => h.within hab.within, fun h => h.within hab.symm.within⟩

/-- White on whatever side, and black on dim gray. -/
def whites : IgnoreConfig :=
  { colors := ["#fff"], pairs := [("rgb(0 0 0)", "#696969")], selectors := [".badge"] }

/-- The same colors by their names. -/
def namedWhites : IgnoreConfig :=
  { colors := ["White"], pairs := [("black", "dimgray")], selectors := [".badge"] }

theorem rewritten_whites : Rewritten whites namedWhites where
  colors := .cons (.inr ⟨.white, .white, rfl, rfl, rfl⟩) .nil
  pairs := .cons ⟨.inr ⟨.black, .black, by decide +kernel, rfl, rfl⟩,
    .inr ⟨⟨105, 105, 105, none⟩, ⟨105, 105, 105, none⟩, rfl, rfl, rfl⟩⟩ .nil
  selectors := rfl

theorem ignores_combined_whites :
    (whites.HasFilter ∧ namedWhites.HasFilter ∧ Within whites namedWhites ∧
      Rewritten whites namedWhites) ∧
    (∀ pair, (whites.append namedWhites).Ignores pair ↔
      whites.Ignores pair ∨ namedWhites.Ignores pair) ∧
    (∀ pair, whites.Ignores pair → namedWhites.Ignores pair) ∧
    ∀ pair, whites.Ignores pair ↔ namedWhites.Ignores pair := by
  have hwhites : whites.HasFilter :=
    ⟨⟨[.white], [(.black, ⟨105, 105, 105, none⟩)], [.class "badge"]⟩, by decide +kernel⟩
  have hwithin := rewritten_whites.within
  have hnamed := rewritten_whites.symm.within.hasFilter hwhites
  obtain ⟨-, -, hunion, hmore, hrewritten⟩ := ignores_combined whites namedWhites
  exact ⟨⟨hwhites, hnamed, hwithin, rewritten_whites⟩, hunion hwhites hnamed,
    (hmore hnamed hwithin).2, (hrewritten hnamed rewritten_whites).2⟩

/-- A color whose third power is out of range takes away what the other entries ignore. -/
theorem not_forall_ignores_combined :
    ¬ ∀ (a b : IgnoreConfig) (pair : ContrastPair),
      (a.append b).Ignores pair ↔ a.Ignores pair ∨ b.Ignores pair := by
  intro h
  let bright := String.ofList ("lab(1".toList ++ List.replicate 105 '0' ++ " 0 0)".toList)
  let pair : ContrastPair := ⟨⟨{ features := { tag := "p" } }, 0, none⟩,
    ColorInfo.defaultForeground, ColorInfo.defaultBackground, none, none⟩
  have hignores : ({ selectors := ["p"] } : IgnoreConfig).Ignores pair :=
    ⟨⟨[], [], [.tag "p"]⟩, by decide +kernel, by decide +kernel⟩
  have hfault : IgnoreFilter.ofConfig { colors := [bright], selectors := ["p"] } =
      .error .overflow := by
    decide +kernel
  obtain ⟨filter, hfilter, -⟩ := (h { selectors := ["p"] } { colors := [bright] } pair).2
    (.inl hignores)
  have heq := hfilter.symm.trans hfault
  cases heq

end IgnoreConfig

end ContrastAudit

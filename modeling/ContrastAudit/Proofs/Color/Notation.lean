import ContrastAudit.Proofs.Color.Channels

/-!
# Two notations of one color

The older color functions, `rgb`, `rgba`, `hsl` and `hsla`, are written with commas between their
arguments or with blanks between them and a slash in front of the alpha.

**Results.**
* `parse_withBlanks`: whatever the arguments are, as long as each of them is read as one component
  that separates nothing, both notations write the same color or none, unless a channel is a
  function with the name `none`.
* `not_forall_parse_withBlanks`: such a function is a channel of zero between commas, and no channel
  between blanks.
-/

namespace ContrastAudit.Color

open Component

/-- A color function with commas between its arguments. -/
def withCommas (name x y z : String) : Option String → String
  | none => name ++ "(" ++ (x ++ ", " ++ y ++ ", " ++ z) ++ ")"
  | some a => name ++ "(" ++ (x ++ ", " ++ y ++ ", " ++ z ++ ", " ++ a) ++ ")"

/-- A color function with blanks between its arguments, and a slash in front of the alpha. -/
def withBlanks (name x y z : String) : Option String → String
  | none => name ++ "(" ++ (x ++ " " ++ y ++ " " ++ z) ++ ")"
  | some a => name ++ "(" ++ (x ++ " " ++ y ++ " " ++ z ++ " / " ++ a) ++ ")"

/-- A text is read as one component, which separates nothing. -/
def IsSingle (text : String) : Prop :=
  ∃ c, Component.parse? text = some [c] ∧ c.separates = false

/-- Whether a text in lower case is a function with the name that counts as zero. -/
def callsNone (text : String) : Bool :=
  ((Component.parse? (Text.lowercase text)).map isNoneArgument).getD false

/-! ## Functions of arguments -/

theorem named?_eq_none {text : String} (h : '(' ∈ text.toList) : named? text = none := by
  have hnames : ∀ entry ∈ names, '(' ∉ entry.1.toList := by decide +kernel
  have hlookup : names.lookup text = none := by
    rw [List.lookup_eq_none_iff]
    intro entry hentry
    rw [bne_iff_ne]
    rintro rfl
    exact hnames entry hentry h
  rw [named?, hlookup]
  rfl

section Calls

variable {name : String} (hname : name ∈ ["rgb", "rgba", "hsl", "hsla"])
include hname

theorem exists_older? : ∃ f, older? name = some f := by
  simp only [List.mem_cons, List.not_mem_nil, or_false] at hname
  rcases hname with rfl | rfl | rfl | rfl
  all_goals exact ⟨_, rfl⟩

theorem scan_older :
    Token.scan (name.toList ++ ['(']) = some (⟨.function, name.toList ++ ['(']⟩, []) := by
  simp only [List.mem_cons, List.not_mem_nil, or_false] at hname
  rcases hname with rfl | rfl | rfl | rfl
  all_goals decide

theorem lower_older : Text.lower name.toList = name.toList := by
  simp only [List.mem_cons, List.not_mem_nil, or_false] at hname
  rcases hname with rfl | rfl | rfl | rfl
  all_goals decide +kernel

theorem head?_older (rest : List Char) :
    ∃ c, (name.toList ++ rest).head? = some c ∧ Text.isBlank c = false ∧ c ≠ '#' := by
  simp only [List.mem_cons, List.not_mem_nil, or_false] at hname
  rcases hname with rfl | rfl | rfl | rfl
  all_goals exact ⟨_, rfl, by decide, by decide⟩

theorem trim_call (inside : List Char) :
    Text.trim (name.toList ++ '(' :: (inside ++ [')'])) =
      name.toList ++ '(' :: (inside ++ [')']) := by
  obtain ⟨c, hhead, hblank, -⟩ := head?_older hname ('(' :: (inside ++ [')']))
  refine Text.trim_eq_self_iff.2 ⟨fun d hd => ?_, fun d hd => ?_⟩
  · rw [hhead, Option.mem_some_iff] at hd
    exact hd ▸ hblank
  · rw [← List.cons_append, ← List.append_assoc, List.getLast?_concat, Option.mem_some_iff] at hd
    subst hd
    decide

/-- The text of a function in lower case, without blanks at its ends. -/
theorem lowercase_call (inside : String) :
    Text.lowercase (Text.strip (name ++ "(" ++ inside ++ ")")) =
      String.ofList (name.toList ++ '(' :: (Text.lower inside.toList ++ [')'])) := by
  have hchars : (name ++ "(" ++ inside ++ ")").toList =
      name.toList ++ '(' :: (inside.toList ++ [')']) := by
    simp
  have hopening : Text.isBreak '(' = true := by decide +kernel
  have hclosing : Text.isBreak ')' = true := by decide +kernel
  rw [Text.lowercase, Text.strip, String.toList_ofList, hchars, trim_call hname,
    Text.lower_append_break hopening, lower_older hname, Text.lower_append_break hclosing]
  rfl

/-- What is read of a function whose arguments are values with separators between them. -/
theorem function?_call {inside : String} {children : List Component}
    (h : Glued (Text.lower inside.toList) children) :
    function? (name ++ "(" ++ inside ++ ")") = some (name, children) := by
  have hread := h.parseChars_call (scan_older hname)
  rw [List.append_assoc, List.singleton_append] at hread
  rw [function?_eq_some_iff, lowercase_call hname]
  obtain ⟨c, hhead, -, hhash⟩ := head?_older hname ('(' :: (Text.lower inside.toList ++ [')']))
  generalize hchars : name.toList ++ '(' :: (Text.lower inside.toList ++ [')']) = chars
    at hread hhead
  have hopening : '(' ∈ chars := by simp [← hchars]
  refine ⟨?_, named?_eq_none (by simpa using hopening), ?_, ?_⟩
  · rintro (hword | hword)
    all_goals
      rw [← String.toList_inj, String.toList_ofList] at hword
      rw [hword] at hopening
      exact absurd hopening (by decide)
  · rw [String.toList_ofList, hhead]
    simpa using hhash
  · rw [parse?_eq_some_iff.2 (by simpa using hread)]
    rfl

theorem parse_call {f : Channels → Option Color} (hf : older? name = some f) {inside : String}
    {children : List Component} (h : Glued (Text.lower inside.toList) children) :
    parse (name ++ "(" ++ inside ++ ")") = .ok ((channels? children).bind f) := by
  rw [parse_of_function? (function?_call hname h), functionWith_older hf]

end Calls

/-! ## Arguments in lower case -/

theorem all_isBreak_glue {glue : List Char} (h : glue ∈ [[',', ' '], [' '], [' ', '/', ' ']]) :
    (glue.all fun b => Text.isBreak b && Text.lowerChar b == b) = true := by
  simp only [List.mem_cons, List.not_mem_nil, or_false] at h
  rcases h with rfl | rfl | rfl
  all_goals decide +kernel

/-- Values in lower case with separators between them are what the text of the values with the
separators becomes in lower case. -/
theorem glued_lower {glue : List Char} {separators : List Component}
    (hglue : IsGlue glue separators) (hbreaks : glue ∈ [[',', ' '], [' '], [' ', '/', ' ']])
    {cs ds : List Char} {components more : List Component}
    (hcs : ReadsApart (Text.lower cs) components) (hds : Glued (Text.lower ds) more) :
    Glued (Text.lower (cs ++ (glue ++ ds))) (components ++ (separators ++ more)) := by
  have hne : glue ≠ [] := by
    rintro rfl
    exact absurd hbreaks (by decide)
  rw [Text.lower_append_breaks (all_isBreak_glue hbreaks) hne]
  exact .cons hcs hglue hds

/-- The components of a text in lower case, none of which is a separator. -/
structure ReadsLower (text : String) (components : List Component) : Prop where
  apart : ReadsApart (Text.lower text.toList) components
  call : isNoneArgument components = callsNone text

theorem IsSingle.exists_lower {text : String} (h : IsSingle text) :
    ∃ components, ReadsLower text components := by
  obtain ⟨c, hc, hseparates⟩ := h
  obtain ⟨components, hparse, hapart, hne⟩ :=
    exists_parseChars_lower (parse?_eq_some_iff.1 hc) (by simpa using hseparates)
  have hlower : Component.parse? (Text.lowercase text) = some components := by
    rw [parse?_eq_some_iff, Text.lowercase, String.toList_ofList]
    exact hparse
  refine ⟨components, ⟨hparse, hne (List.cons_ne_nil _ _), hapart⟩, ?_⟩
  rw [callsNone, hlower]
  rfl

theorem exists_rel_lower {a : Option String} (h : ∀ text ∈ a, IsSingle text) :
    ∃ components, Option.Rel ReadsLower a components := by
  cases a with
  | none => exact ⟨none, .none⟩
  | some text =>
      obtain ⟨components, hcomponents⟩ := (h text rfl).exists_lower
      exact ⟨some components, .some hcomponents⟩

section Arguments

variable {x y z : String} {a : Option String} {X Y Z : List Component}
  {A : Option (List Component)}
  (hx : ReadsLower x X) (hy : ReadsLower y Y) (hz : ReadsLower z Z) (ha : Option.Rel ReadsLower a A)
include hx hy hz ha

theorem exists_glued_commas (name : String) :
    ∃ inside, withCommas name x y z a = name ++ "(" ++ inside ++ ")" ∧
      Glued (Text.lower inside.toList) (betweenCommas X Y Z A) := by
  cases ha with
  | none =>
      have hglued := glued_lower isGlue_comma (by decide) hx.apart
        (glued_lower isGlue_comma (by decide) hy.apart (.last hz.apart))
      exact ⟨_, rfl, by simpa [betweenCommas, comma] using hglued⟩
  | some ha =>
      have hglued := glued_lower isGlue_comma (by decide) hx.apart
        (glued_lower isGlue_comma (by decide) hy.apart
          (glued_lower isGlue_comma (by decide) hz.apart (.last ha.apart)))
      exact ⟨_, rfl, by simpa [betweenCommas, comma] using hglued⟩

theorem exists_glued_blanks (name : String) :
    ∃ inside, withBlanks name x y z a = name ++ "(" ++ inside ++ ")" ∧
      Glued (Text.lower inside.toList) (betweenBlanks X Y Z A) := by
  cases ha with
  | none =>
      have hglued := glued_lower isGlue_blank (by decide) hx.apart
        (glued_lower isGlue_blank (by decide) hy.apart (.last hz.apart))
      exact ⟨_, rfl, by simpa [betweenBlanks, blank] using hglued⟩
  | some ha =>
      have hglued := glued_lower isGlue_blank (by decide) hx.apart
        (glued_lower isGlue_blank (by decide) hy.apart
          (glued_lower isGlue_slash (by decide) hz.apart (.last ha.apart)))
      exact ⟨_, rfl, by simpa [betweenBlanks, blank, slash] using hglued⟩

theorem any_isNoneArgument_eq :
    (X :: Y :: Z :: A.toList).any isNoneArgument = (x :: y :: z :: a.toList).any callsNone := by
  cases ha with
  | none => simp [hx.call, hy.call, hz.call]
  | some ha => simp [hx.call, hy.call, hz.call, ha.call]

theorem exists_readsApart :
    ∀ argument ∈ X :: Y :: Z :: A.toList, ∃ cs, ReadsApart cs argument := by
  simp only [List.forall_mem_cons]
  refine ⟨⟨_, hx.apart⟩, ⟨_, hy.apart⟩, ⟨_, hz.apart⟩, ?_⟩
  cases ha with
  | none => simp
  | some ha => simpa using ⟨_, ha.apart⟩

end Arguments

/-- **Commas and blanks.**  A function of the older ones writes the same color, or none, with its
arguments between commas and between blanks, unless an argument is a function with the name `none`:
between blanks this is no channel. -/
theorem parse_withBlanks {name : String} (hname : name ∈ ["rgb", "rgba", "hsl", "hsla"])
    {x y z : String} {a : Option String} (h : ∀ text ∈ x :: y :: z :: a.toList, IsSingle text) :
    parse (withBlanks name x y z a) =
      if (x :: y :: z :: a.toList).any callsNone then .ok none
      else parse (withCommas name x y z a) := by
  obtain ⟨f, hf⟩ := exists_older? hname
  simp only [List.forall_mem_cons, Option.mem_toList] at h
  obtain ⟨hx, hy, hz, ha⟩ := h
  obtain ⟨X, hx⟩ := hx.exists_lower
  obtain ⟨Y, hy⟩ := hy.exists_lower
  obtain ⟨Z, hz⟩ := hz.exists_lower
  obtain ⟨A, ha⟩ := exists_rel_lower ha
  obtain ⟨commas, hcommas, hgluedCommas⟩ := exists_glued_commas hx hy hz ha name
  obtain ⟨blanks, hblanks, hgluedBlanks⟩ := exists_glued_blanks hx hy hz ha name
  rw [hblanks, parse_call hname hf hgluedBlanks, hcommas, parse_call hname hf hgluedCommas,
    bind_betweenBlanks hf (exists_readsApart hx hy hz ha), any_isNoneArgument_eq hx hy hz ha,
    apply_ite Except.ok]

theorem isSingle_of_tokens {text : String} (c : Component)
    (h : Token.tokens text.toList = (c.tokens, [])) (hc : c.separates = false) : IsSingle text := by
  refine ⟨c, parse?_eq_some_iff.2 (parseChars_eq_ok_iff.2 ?_), hc⟩
  simpa using h

theorem parse_withBlanks_halfTurn :
    ("hsla" ∈ ["rgb", "rgba", "hsl", "hsla"] ∧
      ∀ text ∈ "0.5TURN" :: "100%" :: "NONE" :: (some "50%").toList, IsSingle text) ∧
    parse (withBlanks "hsla" "0.5TURN" "100%" "NONE" (some "50%")) =
      if ("0.5TURN" :: "100%" :: "NONE" :: (some "50%").toList).any callsNone then .ok none
      else parse (withCommas "hsla" "0.5TURN" "100%" "NONE" (some "50%")) := by
  have hname : "hsla" ∈ ["rgb", "rgba", "hsl", "hsla"] := by decide
  have hsingle : ∀ text ∈ "0.5TURN" :: "100%" :: "NONE" :: (some "50%").toList,
      IsSingle text := by
    simp only [List.forall_mem_cons, Option.toList_some, List.not_mem_nil, false_imp_iff,
      implies_true, and_true]
    refine ⟨?_, ?_, ?_, ?_⟩
    · exact isSingle_of_tokens (.leaf .number "0.5TURN") (by decide +kernel) rfl
    · exact isSingle_of_tokens (.leaf .number "100%") (by decide +kernel) rfl
    · exact isSingle_of_tokens (.leaf .word "NONE") (by decide +kernel) rfl
    · exact isSingle_of_tokens (.leaf .number "50%") (by decide +kernel) rfl
  exact ⟨⟨hname, hsingle⟩, parse_withBlanks hname hsingle⟩

/-- A function with the name `none` is a channel between commas but not between blanks. -/
theorem not_forall_parse_withBlanks :
    ¬∀ (name x y z : String) (a : Option String), name ∈ ["rgb", "rgba", "hsl", "hsla"] →
      (∀ text ∈ x :: y :: z :: a.toList, IsSingle text) →
        parse (withCommas name x y z a) = parse (withBlanks name x y z a) := by
  intro h
  have hsingle : ∀ text ∈ "none()" :: "0" :: "0" :: (none : Option String).toList,
      IsSingle text := by
    simp only [List.forall_mem_cons, Option.toList_none, List.not_mem_nil, false_imp_iff,
      implies_true, and_true]
    refine ⟨?_, ?_, ?_⟩
    · exact isSingle_of_tokens (.function "none" []) (by decide +kernel) rfl
    · exact isSingle_of_tokens (.leaf .number "0") (by decide +kernel) rfl
    · exact isSingle_of_tokens (.leaf .number "0") (by decide +kernel) rfl
  have hcommas : parse (withCommas "rgb" "none()" "0" "0" none) = .ok (some ⟨0, 0, 0, none⟩) := by
    decide +kernel
  have hblanks : parse (withBlanks "rgb" "none()" "0" "0" none) = .ok none := by
    decide +kernel
  have hsame := h "rgb" "none()" "0" "0" none (by decide) hsingle
  rw [hcommas, hblanks] at hsame
  cases hsame

end ContrastAudit.Color

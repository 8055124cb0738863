import ContrastAudit.Proofs.Color.Mixture
import ContrastAudit.Proofs.Color.Screen
import ContrastAudit.Proofs.Text.Case
import ContrastAudit.Proofs.Value.Piece

/-!
# Faults of colors that are read

A text is read without a fault unless it is a function of a perceptual space with coordinates out of
the range of numbers, or a mixture of which a color faults or whose lightness is out of range.

The colors of a mixture are read like any text.  There are fewer parentheses in them than around
them, so the bound on the depth of mixtures is never met.

**Results.**
* `parse_eq_error_iff`: which texts fault when they are read, and how.
* `not_forall_exists_parse`: a lightness of 106 digits is one of them.
-/

namespace ContrastAudit

/-! ## Lower case -/

namespace Text

theorem eq_opening_of_lowerChar {c : Char} (h : lowerChar c = '(') : c = '(' := by
  rcases lowerChar_cases c with hsame | ⟨-, hordinary⟩
  · rwa [hsame] at h
  · rw [h] at hordinary
    contradiction

/-- No parenthesis is the lower-case form of something else. -/
theorem count_lowerFrom (before cs : List Char) :
    (lowerFrom before cs).count '(' ≤ cs.count '(' := by
  induction cs generalizing before with
  | nil => exact Nat.le_refl 0
  | cons c cs ih =>
      have hlowered :
          (if c = 'Σ' then [if casedAhead before && !casedAhead cs then 'ς' else 'σ']
            else if c = 'İ' then ['i', Char.ofNat 0x307]
            else [lowerChar c]).count '(' ≤ [c].count '(' := by
        split
        · split <;> exact Nat.zero_le _
        split
        · exact Nat.zero_le _
        · rw [List.count_singleton, List.count_singleton]
          split
          · next hopening =>
              rw [eq_opening_of_lowerChar (beq_iff_eq.1 hopening)]
              exact Nat.le_refl 1
          · exact Nat.zero_le _
      have hsplit : (c :: cs).count '(' = [c].count '(' + cs.count '(' := by
        rw [← List.count_append, List.singleton_append]
      rw [lowerFrom, List.count_append, hsplit]
      exact Nat.add_le_add hlowered (ih (c :: before))

theorem count_lowercase_strip (source : String) :
    (lowercase (strip source)).toList.count '(' ≤ source.toList.count '(' := by
  obtain ⟨before, after, -, -, hsplit⟩ := exists_trim_between source.toList
  rw [lowercase, strip, String.toList_ofList, String.toList_ofList, lower]
  refine (count_lowerFrom [] _).trans ?_
  conv_rhs => rw [hsplit]
  rw [List.count_append, List.count_append]
  omega

end Text

namespace Color

open Number

theorem infix_of_mixArgument? {argument components : List Component} {percentage : Option Float}
    (h : mixArgument? argument = some (components, percentage)) : components <:+: argument := by
  have hsplit := Component.infix_splitPercentage argument
  unfold mixArgument? at h
  split at h
  · next hpercentage =>
      rw [hpercentage] at hsplit
      split at h
      · cases h
      · cases h
        exact hsplit
  · next hpercentage =>
      rw [hpercentage] at hsplit
      split at h
      · split at h
        · cases h
        · cases h
          exact hsplit
      · split at h
        · cases h
          exact hsplit
        · cases h

/-! ## Functions -/

/-- The function that a text consists of, with its arguments, unless the text is a keyword or starts
like hexadecimal digits. -/
def function? (source : String) : Option (String × List Component) :=
  let text := Text.lowercase (Text.strip source)
  if text = "" ∨ text = "transparent" ∨ (named? text).isSome ∨
      text.toList.head? = some '#' then none
  else
    match (Component.parse? text).map Component.stripSpace with
    | some [.function name children] => some (name, children)
    | _ => none

/-- The argument of a mixture, where its color is read with `read`. -/
def argumentWith (read : String → Except NumericFault (Option Color)) (argument : List Component) :
    Except NumericFault (Option (Color × Option Float)) := do
  match mixArgument? argument with
  | none => return none
  | some (components, percentage) =>
    let color ← read (Component.render components)
    return color.map fun color => (color, percentage)

/-- The name of the space and the arguments of a mixture. -/
def mixture? (children : List Component) : Option (String × List Component × List Component) :=
  match Component.splitArguments none children with
  | [method, first, second] => (mixSpace? method).map fun space => (space, first, second)
  | _ => none

/-- The color of a mixture, where the colors in it are read with `read`. -/
def mixtureWith (read : String → Except NumericFault (Option Color)) :
    Option (String × List Component × List Component) → Except NumericFault (Option Color)
  | none => .ok none
  | some (space, first, second) => do
    let first ← argumentWith read first
    let second ← argumentWith read second
    match first, second with
    | some (c₁, p₁), some (c₂, p₂) => mix space c₁ p₁ c₂ p₂
    | _, _ => return none

/-- The color of a function, where the colors of mixtures are read with `read`. -/
def functionWith (read : String → Except NumericFault (Option Color)) (name : String)
    (children : List Component) : Except NumericFault (Option Color) :=
  match name with
  | "rgb" | "rgba" => .ok (ofRgbFunction children)
  | "hsl" | "hsla" => .ok (ofHslFunction children)
  | "color-mix" => mixtureWith read (mixture? children)
  | name =>
    match perceptual? name with
    | some p => ofPerceptual p children
    | none => .ok none

theorem function?_eq_some_iff {source name : String} {children : List Component} :
    function? source = some (name, children) ↔
      ¬ (Text.lowercase (Text.strip source) = "" ∨
        Text.lowercase (Text.strip source) = "transparent") ∧
      named? (Text.lowercase (Text.strip source)) = none ∧
      (Text.lowercase (Text.strip source)).toList.head? ≠ some '#' ∧
      (Component.parse? (Text.lowercase (Text.strip source))).map Component.stripSpace =
        some [.function name children] := by
  unfold function?
  generalize Text.lowercase (Text.strip source) = text
  dsimp only
  split
  · next hother =>
      constructor
      · intro h
        cases h
      · rintro ⟨hword, hnamed, hhash, -⟩
        rw [hnamed] at hother
        rcases hother with h | h | h | h
        · exact absurd (.inl h) hword
        · exact absurd (.inr h) hword
        · cases h
        · exact absurd h hhash
  · next hother =>
      simp only [not_or, Option.not_isSome_iff_eq_none] at hother
      obtain ⟨hempty, htransparent, hnamed, hhash⟩ := hother
      constructor
      · intro h
        refine ⟨not_or.2 ⟨hempty, htransparent⟩, hnamed, hhash, ?_⟩
        split at h
        · next hparse =>
            cases h
            exact hparse
        · cases h
      · rintro ⟨-, -, -, hparse⟩
        rw [hparse]

theorem functionWith_mixture (read : String → Except NumericFault (Option Color))
    (children : List Component) :
    functionWith read "color-mix" children = mixtureWith read (mixture? children) :=
  rfl

theorem functionWith_other {read : String → Except NumericFault (Option Color)} {name : String}
    (hrgb : name ≠ "rgb") (hrgba : name ≠ "rgba") (hhsl : name ≠ "hsl") (hhsla : name ≠ "hsla")
    (hmix : name ≠ "color-mix") (children : List Component) :
    functionWith read name children =
      match perceptual? name with
      | some p => ofPerceptual p children
      | none => .ok none := by
  unfold functionWith
  split
  · exact absurd rfl hrgb
  · exact absurd rfl hrgba
  · exact absurd rfl hhsl
  · exact absurd rfl hhsla
  · exact absurd rfl hmix
  · rfl

/-- The functions of perceptual spaces have names of their own. -/
theorem functionWith_perceptual {read : String → Except NumericFault (Option Color)} {name : String}
    {p : Perceptual} (h : perceptual? name = some p) (children : List Component) :
    functionWith read name children = ofPerceptual p children := by
  have hother : ∀ word, perceptual? word = none → name ≠ word := by
    rintro word hword rfl
    rw [hword] at h
    cases h
  rw [functionWith_other (hother _ rfl) (hother _ rfl) (hother _ rfl) (hother _ rfl) (hother _ rfl),
    h]

theorem parseWithin_of_function? {source name : String} {children : List Component}
    (h : function? source = some (name, children)) (fuel : ℕ) :
    parseWithin (fuel + 1) source = functionWith (parseWithin fuel) name children := by
  obtain ⟨hword, hnamed, hhash, hparse⟩ := function?_eq_some_iff.1 h
  rw [parseWithin]
  dsimp only
  rw [if_neg (by simpa using hword), hnamed, hparse]
  dsimp only
  split
  · next hchars =>
      rw [hchars] at hhash
      exact absurd rfl hhash
  · split
    · rfl
    · rfl
    · rfl
    · rfl
    · rw [functionWith_mixture]
      split
      · next method first second hargs =>
          have hmethod : mixture? children =
              (mixSpace? method).map fun space => (space, first, second) := by
            rw [mixture?, hargs]
          rw [hmethod]
          cases mixSpace? method <;> rfl
      · next hargs =>
          have hnone : mixture? children = none := by
            unfold mixture?
            split
            · next hthree => exact (hargs _ _ _ hthree).elim
            · rfl
          rw [hnone]
          rfl
    · next hrgb hrgba hhsl hhsla hmix =>
        exact (functionWith_other hrgb hrgba hhsl hhsla hmix children).symm

/-- The color of hexadecimal digits behind a hash. -/
def ofHash? : List Char → Option Color
  | '#' :: cs => ofHexDigits? cs
  | _ => none

/-- The color of a keyword or of hexadecimal digits. -/
def plain? (source : String) : Option Color :=
  let text := Text.lowercase (Text.strip source)
  if text = "" ∨ text = "transparent" then none
  else
    match named? text with
    | some color => some color
    | none => ofHash? text.toList

theorem parseWithin_of_function?_eq_none {source : String} (h : function? source = none)
    (fuel : ℕ) : parseWithin (fuel + 1) source = .ok (plain? source) := by
  have hnone : ∀ name children, function? source ≠ some (name, children) := by
    intro name children
    rw [h]
    rintro ⟨⟩
  simp only [ne_eq, function?_eq_some_iff] at hnone
  rw [parseWithin, plain?]
  generalize Text.lowercase (Text.strip source) = text at hnone ⊢
  dsimp only
  by_cases hword : text = "" ∨ text = "transparent"
  · rw [if_pos (by simpa using hword), if_pos hword]
  rw [if_neg (by simpa using hword), if_neg hword]
  cases hnamed : named? text with
  | some color => rfl
  | none =>
      dsimp only
      split
      · next cs hcs =>
          rw [hcs]
          rfl
      · next hhash =>
          have hplain : ofHash? text.toList = none := by
            unfold ofHash?
            split
            · next cs hcs => exact (hhash cs hcs).elim
            · rfl
          rw [hplain]
          split
          · next name children hparse =>
              refine absurd ⟨hword, hnamed, ?_, hparse⟩ (hnone name children)
              intro hhead
              obtain ⟨cs, hcs⟩ := List.head?_eq_some_iff.1 hhead
              exact hhash cs hcs
          · rfl

/-! ## The depth of mixtures -/

/-- A mixture is read with its colors alone. -/
theorem argumentWith_congr {read read' : String → Except NumericFault (Option Color)}
    {argument : List Component}
    (h : ∀ components percentage, mixArgument? argument = some (components, percentage) →
      read (Component.render components) = read' (Component.render components)) :
    argumentWith read argument = argumentWith read' argument := by
  unfold argumentWith
  split
  · rfl
  · next components percentage hargument => rw [h components percentage hargument]

theorem mem_of_mixture? {space : String} {children first second : List Component}
    (h : mixture? children = some (space, first, second)) :
    first ∈ Component.splitArguments none children ∧
      second ∈ Component.splitArguments none children := by
  unfold mixture? at h
  split at h
  · next method first' second' hargs =>
      obtain ⟨name, -, hread⟩ := Option.map_eq_some_iff.1 h
      cases hread
      simp [hargs]
  · cases h

theorem functionWith_congr {read read' : String → Except NumericFault (Option Color)}
    {children : List Component} (name : String)
    (h : ∀ argument ∈ Component.splitArguments none children, ∀ components percentage,
      mixArgument? argument = some (components, percentage) →
        read (Component.render components) = read' (Component.render components)) :
    functionWith read name children = functionWith read' name children := by
  unfold functionWith
  split
  · rfl
  · rfl
  · rfl
  · rfl
  · cases hmixture : mixture? children with
    | none => rfl
    | some mixture =>
        obtain ⟨space, first, second⟩ := mixture
        obtain ⟨hfirst, hsecond⟩ := mem_of_mixture? hmixture
        rw [mixtureWith, mixtureWith, argumentWith_congr (h first hfirst),
          argumentWith_congr (h second hsecond)]
  · rfl

/-- The number of parentheses that are opened in a text. -/
def depth (source : String) : ℕ :=
  source.toList.count '('

/-- There are fewer parentheses in the argument of a function than in the function. -/
theorem depth_argument_lt {source name : String} {children argument components : List Component}
    {percentage : Option Float} (h : function? source = some (name, children))
    (hargument : argument ∈ Component.splitArguments none children)
    (hcomponents : mixArgument? argument = some (components, percentage)) :
    depth (Component.render components) < depth source := by
  obtain ⟨-, -, -, hparse⟩ := function?_eq_some_iff.1 h
  obtain ⟨read, hread, hstrip⟩ := Option.map_eq_some_iff.1 hparse
  have htext := Component.charsOfAll_of_parseChars (Component.parse?_eq_some_iff.1 hread)
  have hpiece := (infix_of_mixArgument? hcomponents).trans
    (Component.infix_of_mem_splitArguments hargument)
  have hinside := (Component.infix_charsOfAll hpiece).sublist.count_le '('
  have hcall := Component.infix_charsOfAll (Component.infix_stripSpace read)
  have houtside := hcall.sublist.count_le '('
  rw [hstrip, htext, Component.charsOfAll_cons, Component.charsOfAll_nil, List.append_nil,
    Component.chars, List.count_append, List.count_cons_self, List.count_append] at houtside
  have hlower := Text.count_lowercase_strip source
  rw [depth, depth, Component.render, String.toList_ofList]
  omega

theorem parseWithin_eq {n m : ℕ} {source : String} (hn : depth source < n)
    (hm : depth source < m) : parseWithin n source = parseWithin m source := by
  induction n generalizing m source with
  | zero => exact absurd hn (Nat.not_lt_zero _)
  | succ n ih =>
      obtain ⟨m, rfl⟩ : ∃ k, m = k + 1 := ⟨m - 1, by omega⟩
      cases hfunction : function? source with
      | none =>
          rw [parseWithin_of_function?_eq_none hfunction,
            parseWithin_of_function?_eq_none hfunction]
      | some read =>
          obtain ⟨name, children⟩ := read
          rw [parseWithin_of_function? hfunction, parseWithin_of_function? hfunction]
          apply functionWith_congr
          intro argument hargument components percentage hcomponents
          have hlt := depth_argument_lt hfunction hargument hcomponents
          exact ih (by omega) (by omega)

/-- The color of a function, where the colors of mixtures are read like any text. -/
theorem parse_of_function? {source name : String} {children : List Component}
    (h : function? source = some (name, children)) :
    Color.parse source = functionWith Color.parse name children := by
  rw [Color.parse, parseWithin_of_function? h]
  apply functionWith_congr
  intro argument hargument components percentage hcomponents
  have hlt := depth_argument_lt h hargument hcomponents
  have hlength : ∀ source, depth source ≤ source.length := fun source => List.count_le_length
  exact parseWithin_eq (by have := hlength source; omega) (Nat.lt_succ_of_le (hlength _))

/-! ## Faults -/

/-- The coordinates that channels write. -/
def coordinatesOf? (p : Perceptual) (cs : Channels) : Option Coordinates :=
  match scalar? p.lightness cs.first, scalar? p.range cs.second,
    if p.polar then angle? cs.third else scalar? p.range cs.third with
  | some x, some y, some z => some (x, y, z)
  | _, _, _ => none

/-- The coordinates that the function of a perceptual space writes. -/
def written? (p : Perceptual) (children : List Component) : Option Coordinates :=
  match Component.splitArguments none children with
  | [sequence] => (channelsOfSequence sequence).bind (coordinatesOf? p)
  | _ => none

theorem ofPerceptual_eq_error_iff {p : Perceptual} {children : List Component}
    {fault : NumericFault} :
    ofPerceptual p children = .error fault ↔
      ∃ x y z, written? p children = some (x, y, z) ∧ OutOfRange p.space x z fault := by
  unfold ofPerceptual
  split
  · next sequence hargs =>
      have hwritten : written? p children =
          (channelsOfSequence sequence).bind (coordinatesOf? p) := by
        rw [written?, hargs]
      rw [hwritten]
      cases channelsOfSequence sequence with
      | none => simp
      | some cs =>
          rw [Option.bind_some]
          dsimp only
          split
          · next x y z hx hy hz =>
              have hread : coordinatesOf? p cs = some (x, y, z) := by
                rw [coordinatesOf?, hx, hy, hz]
              rw [hread, bind_eq_error_iff, ofCoordinates_eq_error_iff]
              constructor
              · rintro (hrange | ⟨color, -, hreturn⟩)
                · exact ⟨x, y, z, rfl, hrange⟩
                · cases hreturn
              · rintro ⟨x', y', z', hsame, hrange⟩
                cases hsame
                exact .inl hrange
          · next hnone =>
              have hread : coordinatesOf? p cs = none := by
                unfold coordinatesOf?
                split
                · next x y z hx hy hz => exact (hnone x y z hx hy hz).elim
                · rfl
              simp [hread]
  · next hargs =>
      have hwritten : written? p children = none := by
        unfold written?
        split
        · next sequence hone => exact (hargs sequence hone).elim
        · rfl
      simp [hwritten]

/-- How reading a text can fault: with coordinates out of range, with a color of a mixture, or with
the mixture itself. -/
inductive Faults : String → NumericFault → Prop
  | coordinates {source name : String} {children : List Component} {p : Perceptual} {x y z : Float}
      {fault : NumericFault} (hfunction : function? source = some (name, children))
      (hspace : perceptual? name = some p) (hwritten : written? p children = some (x, y, z))
      (hrange : OutOfRange p.space x z fault) : Faults source fault
  | first {source space : String} {children first second components : List Component}
      {percentage : Option Float} {fault : NumericFault}
      (hfunction : function? source = some ("color-mix", children))
      (hmixture : mixture? children = some (space, first, second))
      (hargument : mixArgument? first = some (components, percentage))
      (hfault : Faults (Component.render components) fault) : Faults source fault
  | second {source space : String} {children first second components : List Component}
      {color : Option (Color × Option Float)} {percentage : Option Float} {fault : NumericFault}
      (hfunction : function? source = some ("color-mix", children))
      (hmixture : mixture? children = some (space, first, second))
      (hfirst : argumentWith Color.parse first = .ok color)
      (hargument : mixArgument? second = some (components, percentage))
      (hfault : Faults (Component.render components) fault) : Faults source fault
  | mixture {source name : String} {children first second : List Component} {space : Space}
      {c₁ c₂ : Color} {p₁ p₂ : Option Float} {w₁ w₂ : Float}
      (hfunction : function? source = some ("color-mix", children))
      (hmixture : mixture? children = some (name, first, second))
      (hfirst : argumentWith Color.parse first = .ok (some (c₁, p₁)))
      (hsecond : argumentWith Color.parse second = .ok (some (c₂, p₂)))
      (hspace : Space.ofName? (Text.lowercase name) = some space)
      (hweights : weights p₁ p₂ = some (w₁, w₂)) (hblinds : BlindsIn space c₁ w₁ c₂ w₂) :
      Faults source .overflow

theorem argumentWith_eq_error_iff {argument : List Component} {fault : NumericFault} :
    argumentWith Color.parse argument = .error fault ↔
      ∃ components percentage, mixArgument? argument = some (components, percentage) ∧
        Color.parse (Component.render components) = .error fault := by
  unfold argumentWith
  split
  · next hnone => simp [hnone, pure, Except.pure]
  · next components percentage hargument =>
      rw [bind_eq_error_iff]
      constructor
      · rintro (hfault | ⟨color, -, hreturn⟩)
        · exact ⟨components, percentage, hargument, hfault⟩
        · cases hreturn
      · rintro ⟨components', percentage', hargument', hfault⟩
        cases hargument.symm.trans hargument'
        exact .inl hfault

theorem onScreen_of_argumentWith {argument : List Component} {color : Color}
    {percentage : Option Float}
    (h : argumentWith Color.parse argument = .ok (some (color, percentage))) : color.OnScreen := by
  unfold argumentWith at h
  split at h
  · cases h
  · obtain ⟨result, hresult, hreturn⟩ := bind_eq_ok_iff.1 h
    rw [return_eq_ok_iff] at hreturn
    obtain ⟨color', rfl, hsame⟩ := Option.map_eq_some_iff.1 hreturn
    cases hsame
    exact onScreen_of_parse hresult

theorem mixtureWith_eq_error_iff {name : String} {first second : List Component}
    {fault : NumericFault} :
    mixtureWith Color.parse (some (name, first, second)) = .error fault ↔
      argumentWith Color.parse first = .error fault ∨
      (∃ color, argumentWith Color.parse first = .ok color ∧
        argumentWith Color.parse second = .error fault) ∨
      ∃ c₁ p₁ c₂ p₂, argumentWith Color.parse first = .ok (some (c₁, p₁)) ∧
        argumentWith Color.parse second = .ok (some (c₂, p₂)) ∧
        mix name c₁ p₁ c₂ p₂ = .error fault := by
  rw [mixtureWith, bind_eq_error_iff]
  cases hfirst : argumentWith Color.parse first with
  | error e => simp
  | ok color₁ =>
      simp only [Except.ok.injEq, exists_eq_left', reduceCtorEq, false_or]
      rw [bind_eq_error_iff]
      cases hsecond : argumentWith Color.parse second with
      | error e => simp
      | ok color₂ =>
          simp only [Except.ok.injEq, exists_eq_left', reduceCtorEq, false_or]
          rcases color₁ with - | ⟨c₁, p₁⟩ <;> rcases color₂ with - | ⟨c₂, p₂⟩
          · simp [pure, Except.pure]
          · simp [pure, Except.pure]
          · simp [pure, Except.pure]
          · simp

theorem eq_error_of_faults {source : String} {fault : NumericFault} (h : Faults source fault) :
    Color.parse source = .error fault := by
  induction h with
  | @coordinates source name children p x y z fault hfunction hspace hwritten hrange =>
      rw [parse_of_function? hfunction, functionWith_perceptual hspace]
      exact ofPerceptual_eq_error_iff.2 ⟨x, y, z, hwritten, hrange⟩
  | first hfunction hmixture hargument _ ih =>
      rw [parse_of_function? hfunction, functionWith_mixture, hmixture]
      exact mixtureWith_eq_error_iff.2
        (.inl (argumentWith_eq_error_iff.2 ⟨_, _, hargument, ih⟩))
  | second hfunction hmixture hfirst hargument _ ih =>
      rw [parse_of_function? hfunction, functionWith_mixture, hmixture]
      exact mixtureWith_eq_error_iff.2
        (.inr (.inl ⟨_, hfirst, argumentWith_eq_error_iff.2 ⟨_, _, hargument, ih⟩⟩))
  | mixture hfunction hmixture hfirst hsecond hspace hweights hblinds =>
      rw [parse_of_function? hfunction, functionWith_mixture, hmixture]
      refine mixtureWith_eq_error_iff.2 (.inr (.inr ⟨_, _, _, _, hfirst, hsecond, ?_⟩))
      exact (mix_eq_error_iff (onScreen_of_argumentWith hfirst)
        (onScreen_of_argumentWith hsecond)).2 ⟨⟨_, _, _, hspace, hweights, hblinds⟩, rfl⟩

/-- A text is read with a fault exactly if it has coordinates that are out of the range of numbers,
in a function of its own or in a color of a mixture, or a mixture of a lightness that is. -/
theorem parse_eq_error_iff (source : String) (fault : NumericFault) :
    Color.parse source = .error fault ↔ Faults source fault := by
  refine ⟨fun h => ?_, eq_error_of_faults⟩
  induction hdepth : depth source using Nat.strong_induction_on generalizing source with
  | _ n ih =>
      subst hdepth
      cases hfunction : function? source with
      | none =>
          rw [Color.parse, parseWithin_of_function?_eq_none hfunction] at h
          cases h
      | some read =>
          obtain ⟨name, children⟩ := read
          rw [parse_of_function? hfunction] at h
          unfold functionWith at h
          split at h
          · cases h
          · cases h
          · cases h
          · cases h
          · cases hmixture : mixture? children with
            | none =>
                rw [hmixture] at h
                cases h
            | some mixture =>
                obtain ⟨space, first, second⟩ := mixture
                obtain ⟨hfirst, hsecond⟩ := mem_of_mixture? hmixture
                rw [hmixture, mixtureWith_eq_error_iff] at h
                rcases h with h | ⟨color, hcolor, h⟩ | ⟨c₁, p₁, c₂, p₂, hc₁, hc₂, h⟩
                -- the text of a color in a mixture nests less deep than the mixture
                · obtain ⟨components, percentage, hargument, h⟩ := argumentWith_eq_error_iff.1 h
                  exact .first hfunction hmixture hargument
                    (ih _ (depth_argument_lt hfunction hfirst hargument) _ h rfl)
                · obtain ⟨components, percentage, hargument, h⟩ := argumentWith_eq_error_iff.1 h
                  exact .second hfunction hmixture hcolor hargument
                    (ih _ (depth_argument_lt hfunction hsecond hargument) _ h rfl)
                · obtain ⟨⟨space', w₁, w₂, hspace, hweights, hblinds⟩, rfl⟩ :=
                    (mix_eq_error_iff (onScreen_of_argumentWith hc₁)
                      (onScreen_of_argumentWith hc₂)).1 h
                  exact .mixture hfunction hmixture hc₁ hc₂ hspace hweights hblinds
          · split at h
            · next p hspace =>
                obtain ⟨x, y, z, hwritten, hrange⟩ := ofPerceptual_eq_error_iff.1 h
                exact .coordinates hfunction hspace hwritten hrange
            · cases h

/-- A lightness of 106 digits has a third power that is out of range. -/
theorem not_forall_exists_parse : ¬ ∀ source, ∃ color, Color.parse source = .ok color := by
  intro h
  obtain ⟨color, hcolor⟩ := h
    (String.ofList ("lab(1".toList ++ List.replicate 105 '0' ++ " 0 0)".toList))
  have hfault : Color.parse
      (String.ofList ("lab(1".toList ++ List.replicate 105 '0' ++ " 0 0)".toList)) =
        .error .overflow := by
    decide +kernel
  rw [hfault] at hcolor
  cases hcolor

end Color

end ContrastAudit

import ContrastAudit.Proofs.Color.Fault
import ContrastAudit.Proofs.Value.Adjacency
import ContrastAudit.Proofs.Value.Arguments
import ContrastAudit.Proofs.Value.Lowering

/-!
# Channels between commas and between blanks

The channels of the older color functions stand between commas or between blanks.  Only between
blanks is it asked whether each of them is a number or a word.  What is neither is no quantity
anyway, with one exception: the name of a function counts as its text between commas, so a function
with the name `none` counts as zero there.

**Results.**
* `channels?_betweenBlanks`: the channels between blanks are those between commas if all of them are
  numbers or words.
* `ofText?_label_eq_none`: of anything else only a function with the name `none` is a quantity.
-/

namespace ContrastAudit

namespace Token

theorem isDecimal_of_isNameStart {c : Char} (h : Text.isNameStart c = true) :
    Text.isDecimal c = false := by
  have hrange := Text.toNat_of_isNameChar (Text.isNameChar_of_isNameStart h)
  exact Text.forall_ascii (p := fun c => Text.isNameStart c = true → Text.isDecimal c = false)
    (by decide +kernel) (by omega) h

theorem isNameStart_of_nameLength {c : Char} {cs : List Char} (h : nameLength (c :: cs) ≠ 0) :
    Text.isNameStart c = true := by
  by_contra hstart
  exact h (if_neg hstart)

theorem decimalLength_of_isNameStart {c : Char} (h : Text.isNameStart c = true) (cs : List Char) :
    decimalLength (c :: cs) = 0 := by
  refine decimalLength_of_not (isDecimal_of_isNameStart h) ?_ cs
  rintro rfl
  contradiction

/-- No number starts where a function does. -/
theorem numberLength_of_functionLength {cs : List Char} (h : functionLength cs ≠ 0) :
    numberLength cs = 0 := by
  obtain ⟨n, hn⟩ := Nat.exists_eq_succ_of_ne_zero h
  obtain ⟨-, hname, -, -⟩ := functionLength_eq_succ_iff.1 hn
  apply numberLength_of_zero
  cases cs with
  | nil => contradiction
  | cons c cs =>
      by_cases hc : c = '-'
      · subst hc
        -- the hyphen is taken for a sign, and what is behind it is a hyphen or a name again
        change decimalLength cs = 0
        cases cs with
        | nil => rfl
        | cons d ds =>
            by_cases hd : d = '-'
            · subst hd
              exact decimalLength_of_not (by decide) (by decide) ds
            · have hrun : run (· == '-') ('-' :: d :: ds) = 1 := by simp [run, hd]
              rw [hrun] at hname
              exact decimalLength_of_isNameStart (isNameStart_of_nameLength hname) ds
      · have hrun : run (· == '-') (c :: cs) = 0 := by simp [run, hc]
        rw [hrun] at hname
        have hstart := isNameStart_of_nameLength hname
        have hsign : signLength (c :: cs) = 0 := by
          have hplus : c ≠ '+' := by
            rintro rfl
            contradiction
          simp [signLength, hplus, hc]
        rw [hsign]
        exact decimalLength_of_isNameStart hstart cs

/-- What is classified as neither a number nor a word has no number at its start. -/
theorem numberLength_of_classify {cs : List Char} {kind : TokenKind} {n : Nat}
    (h : classify cs = some (kind, n)) (hkind : kind ≠ .leaf .number) : numberLength cs = 0 := by
  unfold classify at h
  split_ifs at h with hfunction hnumber
  · exact numberLength_of_functionLength hfunction
  · cases h
    exact absurd rfl hkind
  all_goals exact not_not.1 hnumber

end Token

namespace Color

open Component

/-! ## What is no quantity -/

/-- Whether a component is a function with the name that counts as zero. -/
def isNoneCall : Component → Bool
  | .function name _ => name == "none"
  | _ => false

theorem Quantity.ofText?_eq_none {text : String} (hnone : text ≠ "none")
    (h : Token.numberLength text.toList = 0) : Quantity.ofText? text = none := by
  have hdecimal : Token.decimalLength (text.toList.drop (Token.signLength text.toList)) = 0 := by
    by_contra hne
    have hlong := Token.numberLength_of_ne_zero hne
    omega
  unfold Quantity.ofText?
  rw [if_neg hnone]
  generalize text.toList = chars at hdecimal
  dsimp only
  split
  · next cs =>
      change Token.decimalLength cs = 0 at hdecimal
      simp [hdecimal]
  · next cs =>
      change Token.decimalLength cs = 0 at hdecimal
      simp [hdecimal]
  · next hplus hminus =>
      have hsign : Token.signLength chars = 0 := by
        unfold Token.signLength
        split
        · exact (hplus _ rfl).elim
        · exact (hminus _ rfl).elim
        · rfl
      rw [hsign, List.drop_zero] at hdecimal
      simp [hdecimal]

/-- A component that is neither a number nor a word and no function of that name writes no
quantity. -/
theorem ofText?_label_eq_none {rest : List Char} {c : Component} {cs : List Component}
    (h : ReadBefore rest (c :: cs)) (hchannel : isChannel c = false)
    (hcall : isNoneCall c = false) : Quantity.ofText? c.label = none := by
  cases c with
  | leaf kind text =>
      obtain ⟨hscan, -⟩ := h.leaf
      have hclassify := Token.classify_cut (Token.scan_eq_some_iff.1 hscan).2 (Nat.le_refl _)
      simp only [isChannel, isLeaf, Bool.or_eq_false_iff, beq_eq_false_iff_ne] at hchannel
      refine Quantity.ofText?_eq_none ?_
        (Token.numberLength_of_classify hclassify (by simpa using hchannel.1))
      rintro rfl
      have hword : Token.classify "none".toList = some (.leaf .word, 4) := by decide
      have hsame := hclassify.symm.trans hword
      simp only [Option.some.injEq, Prod.mk.injEq, TokenKind.leaf.injEq] at hsame
      exact hchannel.2 hsame.1
  | function name children =>
      obtain ⟨hscan, -, -⟩ := h.function
      have hclassify := Token.classify_cut (Token.scan_eq_some_iff.1 hscan).2 (Nat.le_refl _)
      refine Quantity.ofText?_eq_none (by simpa [isNoneCall, label] using hcall) ?_
      have hfunction : TokenKind.function ≠ .leaf .number := by rintro ⟨⟩
      exact Token.local_numberLength.zero (Token.numberLength_of_classify hclassify hfunction)
  | block children => rfl

/-! ## Arguments -/

/-- A comma with a blank behind it. -/
def comma : List Component :=
  [.leaf .comma ",", .leaf .space " "]

def blank : List Component :=
  [.leaf .space " "]

/-- A slash between blanks. -/
def slash : List Component :=
  [.leaf .space " ", .leaf .slash "/", .leaf .space " "]

/-- Three arguments and perhaps an alpha, with commas between them. -/
def betweenCommas (x y z : List Component) : Option (List Component) → List Component
  | none => x ++ (comma ++ (y ++ (comma ++ z)))
  | some a => x ++ (comma ++ (y ++ (comma ++ (z ++ (comma ++ a)))))

/-- Three arguments with blanks between them, and perhaps an alpha behind a slash. -/
def betweenBlanks (x y z : List Component) : Option (List Component) → List Component
  | none => x ++ (blank ++ (y ++ (blank ++ z)))
  | some a => x ++ (blank ++ (y ++ (blank ++ (z ++ (slash ++ a)))))

/-- None of the components is a separator. -/
def Apart (cs : List Component) : Prop :=
  ∀ c ∈ cs, c.separates = false

section Arguments

variable {x y z cs : List Component} {a : Option (List Component)}

theorem Apart.noComma (h : Apart cs) : NoComma cs := by
  intro c hc
  have hparts := h c hc
  simp only [separates, Bool.or_eq_false_iff] at hparts
  exact hparts.1.2

theorem Apart.not_space (h : Apart cs) : ∀ c ∈ cs, c.isSpace = false := by
  intro c hc
  have hparts := h c hc
  simp only [separates, Bool.or_eq_false_iff] at hparts
  exact hparts.1.1

theorem Apart.not_slash (h : Apart cs) : ∀ c ∈ cs, c.isLeaf .slash = false := by
  intro c hc
  have hparts := h c hc
  simp only [separates, Bool.or_eq_false_iff] at hparts
  exact hparts.2

theorem splitArguments_of_noComma (h : NoComma cs) :
    splitArguments none cs = [stripSpace cs] := by
  rw [splitArguments, splitCommas_of_no_comma h]
  rfl

theorem splitArguments_of_apart (h : Apart cs) : splitArguments none cs = [cs] := by
  rw [splitArguments_of_noComma h.noComma, stripSpace_of_forall h.not_space]

/-- White space at the start of the first argument is trimmed. -/
theorem splitArguments_space (cs : List Component) :
    splitArguments none (.leaf .space " " :: cs) = splitArguments none cs := by
  have hspace : (Component.leaf .space " ").isSpace = true := rfl
  have hcomma : (Component.leaf .space " ").isComma = false := rfl
  cases hparts : splitCommas none cs with
  | nil => exact absurd hparts (splitCommas_ne_nil none cs)
  | cons part parts =>
      simp [splitArguments, splitCommas, hcomma, hparts, stripSpace_cons hspace]

theorem splitArguments_comma (h : Apart x) (cs : List Component) :
    splitArguments none (x ++ (comma ++ cs)) = x :: splitArguments none cs := by
  rw [← splitArguments_space cs]
  change splitArguments none (x ++ .leaf .comma "," :: .leaf .space " " :: cs) = _
  rw [splitArguments, splitCommas_none_append h.noComma rfl, List.map_cons,
    stripSpace_of_forall h.not_space]
  rfl

/-- Between commas the channels are the labels of arguments of one component each. -/
theorem channels?_betweenCommas (hx : Apart x) (hy : Apart y) (hz : Apart z)
    (ha : ∀ cs ∈ a, Apart cs) :
    channels? (betweenCommas x y z a) = channelsOfArguments (x :: y :: z :: a.toList) := by
  rw [channels?]
  cases a with
  | none =>
      rw [betweenCommas, splitArguments_comma hx, splitArguments_comma hy,
        splitArguments_of_apart hz]
      rfl
  | some a =>
      rw [betweenCommas, splitArguments_comma hx, splitArguments_comma hy,
        splitArguments_comma hz, splitArguments_of_apart (ha a rfl)]
      rfl

theorem filter_append_apart (h : Apart x) (cs : List Component) :
    (x ++ cs).filter (fun c => !c.isSpace) = x ++ cs.filter fun c => !c.isSpace := by
  rw [List.filter_append, List.filter_eq_self.2 fun c hc => by simp [h.not_space c hc]]

theorem noComma_betweenBlanks (hx : Apart x) (hy : Apart y) (hz : Apart z)
    (ha : ∀ cs ∈ a, Apart cs) : NoComma (betweenBlanks x y z a) := by
  have hblank : NoComma blank := by simp [NoComma, blank, isComma, isLeaf]
  have hslash : NoComma slash := by simp [NoComma, slash, isComma, isLeaf]
  cases a with
  | none => exact hx.noComma.append (hblank.append (hy.noComma.append (hblank.append hz.noComma)))
  | some a =>
      exact hx.noComma.append (hblank.append (hy.noComma.append (hblank.append
        (hz.noComma.append (hslash.append (ha a rfl).noComma)))))

/-- The components of an alpha behind its slash. -/
def withSlash : Option (List Component) → List Component
  | none => []
  | some a => .leaf .slash "/" :: a

theorem filter_betweenBlanks (hx : Apart x) (hy : Apart y) (hz : Apart z)
    (ha : ∀ cs ∈ a, Apart cs) :
    (betweenBlanks x y z a).filter (fun c => !c.isSpace) = x ++ (y ++ (z ++ withSlash a)) := by
  have hblank : ∀ cs, (blank ++ cs).filter (fun c => !c.isSpace) =
      cs.filter fun c => !c.isSpace := fun _ => rfl
  have hslash : ∀ cs, (slash ++ cs).filter (fun c => !c.isSpace) =
      .leaf .slash "/" :: cs.filter fun c => !c.isSpace := fun _ => rfl
  have hself : ∀ {cs}, Apart cs → cs.filter (fun c => !c.isSpace) = cs :=
    fun h => List.filter_eq_self.2 fun c hc => by simp [h.not_space c hc]
  cases a with
  | none =>
      rw [betweenBlanks, filter_append_apart hx, hblank, filter_append_apart hy, hblank, hself hz,
        withSlash, List.append_nil]
  | some a =>
      rw [betweenBlanks, filter_append_apart hx, hblank, filter_append_apart hy, hblank,
        filter_append_apart hz, hslash, hself (ha a rfl), withSlash]

/-- The channels of a sequence that has a fourth component but white space that is no slash. -/
theorem channelsOfSequence_of_fourth {p q r s : Component} {more : List Component}
    (h : cs.filter (fun c => !c.isSpace) = p :: q :: r :: s :: more)
    (hs : s.isLeaf .slash = false) : channelsOfSequence cs = none := by
  unfold channelsOfSequence
  rw [h]
  cases more with
  | nil => rfl
  | cons t more =>
      cases more with
      | nil => simp [hs]
      | cons u more => rfl

theorem channelsOfSequence_of_long {p q r s : Component} {d e : Component} {more : List Component}
    (h : cs.filter (fun c => !c.isSpace) = p :: q :: r :: s :: d :: e :: more) :
    channelsOfSequence cs = none := by
  unfold channelsOfSequence
  rw [h]

theorem channelsOfArguments_eq_none {arguments : List (List Component)}
    (h : ∃ cs ∈ arguments, cs.length ≠ 1) : channelsOfArguments arguments = none := by
  unfold channelsOfArguments
  split
  · simp at h
  · simp at h
  · rfl

theorem exists_four_of_length {cs : List Component} (h : 4 ≤ cs.length) :
    ∃ p q r s more, cs = p :: q :: r :: s :: more := by
  match cs, h with
  | p :: q :: r :: s :: more, _ => exact ⟨p, q, r, s, more, rfl⟩

/-- Between blanks there are no channels unless each argument has one component. -/
theorem channelsOfSequence_eq_none (hx : Apart x) (hy : Apart y) (hz : Apart z)
    (hne : ∀ argument ∈ x :: y :: z :: a.toList, argument ≠ [])
    (hlong : ∃ argument ∈ x :: y :: z :: a.toList, argument.length ≠ 1)
    (h : cs.filter (fun c => !c.isSpace) = x ++ (y ++ (z ++ withSlash a))) :
    channelsOfSequence cs = none := by
  have hpos : ∀ argument ∈ x :: y :: z :: a.toList, 0 < argument.length :=
    fun argument hmem => List.length_pos_of_ne_nil (hne argument hmem)
  simp only [List.forall_mem_cons] at hpos
  obtain ⟨hxpos, hypos, hzpos, hapos⟩ := hpos
  by_cases hthree : (x ++ (y ++ z)).length = 3
  · simp only [List.length_append] at hthree
    obtain ⟨p, rfl⟩ := List.length_eq_one_iff.1 (show x.length = 1 by omega)
    obtain ⟨q, rfl⟩ := List.length_eq_one_iff.1 (show y.length = 1 by omega)
    obtain ⟨r, rfl⟩ := List.length_eq_one_iff.1 (show z.length = 1 by omega)
    -- only the alpha is left that can have more than one component
    match a, hapos, hlong, h with
    | none, _, hlong, _ => simp at hlong
    | some [], hapos, _, _ => simp at hapos
    | some [d], _, hlong, _ => simp at hlong
    | some (d :: e :: more), _, _, h => exact channelsOfSequence_of_long h
  · obtain ⟨p, q, r, s, more, hfour⟩ :=
      @exists_four_of_length (x ++ (y ++ z)) (by simp only [List.length_append] at *; omega)
    have hs : s ∈ x ++ (y ++ z) := by simp [hfour]
    have hslash : s.isLeaf .slash = false := by
      simp only [List.mem_append] at hs
      rcases hs with hs | hs | hs
      · exact hx.not_slash s hs
      · exact hy.not_slash s hs
      · exact hz.not_slash s hs
    have hfourth : cs.filter (fun c => !c.isSpace) =
        p :: q :: r :: s :: (more ++ withSlash a) := by
      rw [h, ← List.append_assoc y, ← List.append_assoc x, hfour]
      rfl
    exact channelsOfSequence_of_fourth hfourth hslash

/-- Between blanks the channels are those between commas, if each component can be one. -/
theorem channels?_betweenBlanks (hx : Apart x) (hy : Apart y) (hz : Apart z)
    (ha : ∀ cs ∈ a, Apart cs) (hne : ∀ argument ∈ x :: y :: z :: a.toList, argument ≠ []) :
    channels? (betweenBlanks x y z a) =
      if (x :: y :: z :: a.toList).all (·.all isChannel) then
        channelsOfArguments (x :: y :: z :: a.toList)
      else none := by
  have hfilter := filter_betweenBlanks hx hy hz ha
  rw [channels?, splitArguments_of_noComma (noComma_betweenBlanks hx hy hz ha)]
  dsimp only
  rw [← filter_stripSpace] at hfilter
  generalize stripSpace (betweenBlanks x y z a) = cs at hfilter
  by_cases hone : ∀ argument ∈ x :: y :: z :: a.toList, argument.length = 1
  · simp only [List.forall_mem_cons, List.length_eq_one_iff] at hone
    obtain ⟨⟨p, rfl⟩, ⟨q, rfl⟩, ⟨r, rfl⟩, hone⟩ := hone
    cases a with
    | none =>
        have hthree : cs.filter (fun c => !c.isSpace) = [p, q, r] := hfilter
        rw [channelsOfSequence, hthree]
        simp [channelsOfArguments, and_assoc]
    | some a =>
        obtain ⟨d, rfl⟩ := hone a (by simp)
        have hfive : cs.filter (fun c => !c.isSpace) = [p, q, r, .leaf .slash "/", d] := hfilter
        rw [channelsOfSequence, hfive]
        simp [channelsOfArguments, and_assoc, isLeaf]
  · have hlong : ∃ argument ∈ x :: y :: z :: a.toList, argument.length ≠ 1 := by
      simpa only [not_forall, exists_prop] using hone
    rw [channelsOfSequence_eq_none hx hy hz hne hlong hfilter, channelsOfArguments_eq_none hlong,
      ite_self]

end Arguments

/-! ## Colors of channels -/

/-- The texts of all channels. -/
def Channels.texts (cs : Channels) : List String :=
  [cs.first, cs.second, cs.third] ++ cs.alpha.toList

/-- The color of three bytes or percentages. -/
def rgbOf? (cs : Channels) : Option Color := do
  let r ← scalar? 255.0 cs.first
  let g ← scalar? 255.0 cs.second
  let b ← scalar? 255.0 cs.third
  withAlpha? ⟨clampByte r, clampByte g, clampByte b, none⟩ cs.alpha

/-- The color of a hue, a saturation and a lightness. -/
def hslOf? (cs : Channels) : Option Color := do
  let hue ← angle? cs.first
  let saturation ← scalar? 100.0 cs.second
  let lightness ← scalar? 100.0 cs.third
  withAlpha? (ofHsl hue saturation lightness) cs.alpha

/-- The colors of the channels of the older functions. -/
def older? : String → Option (Channels → Option Color)
  | "rgb" | "rgba" => some rgbOf?
  | "hsl" | "hsla" => some hslOf?
  | _ => none

theorem functionWith_older {name : String} {f : Channels → Option Color} (h : older? name = some f)
    (read : String → Except NumericFault (Option Color)) (children : List Component) :
    functionWith read name children = .ok ((channels? children).bind f) := by
  unfold older? at h
  split at h
  all_goals
    cases h
    try rfl

section Quantities

variable {text : String} (h : Quantity.ofText? text = none)
include h

theorem scalar?_eq_none (whole : Float) : scalar? whole text = none := by
  simp [scalar?, h]

theorem angle?_eq_none : angle? text = none := by
  simp [angle?, h]

end Quantities

theorem withAlpha?_eq_none {cs : Channels} (color : Color)
    (h : ∃ text ∈ cs.alpha, Quantity.ofText? text = none) : withAlpha? color cs.alpha = none := by
  obtain ⟨text, halpha, htext⟩ := h
  rw [Option.mem_def.1 halpha, withAlpha?, scalar?_eq_none htext]
  rfl

theorem rgbOf?_eq_none {cs : Channels}
    (h : ∃ text ∈ cs.texts, Quantity.ofText? text = none) : rgbOf? cs = none := by
  obtain ⟨text, hmem, htext⟩ := h
  simp only [Channels.texts, List.mem_append, List.mem_cons, List.not_mem_nil, or_false,
    Option.mem_toList] at hmem
  rcases hmem with (rfl | rfl | rfl) | halpha
  · simp [rgbOf?, scalar?_eq_none htext]
  · simp [rgbOf?, scalar?_eq_none htext]
  · simp [rgbOf?, scalar?_eq_none htext]
  · simp [rgbOf?, withAlpha?_eq_none _ ⟨text, halpha, htext⟩]

theorem hslOf?_eq_none {cs : Channels}
    (h : ∃ text ∈ cs.texts, Quantity.ofText? text = none) : hslOf? cs = none := by
  obtain ⟨text, hmem, htext⟩ := h
  simp only [Channels.texts, List.mem_append, List.mem_cons, List.not_mem_nil, or_false,
    Option.mem_toList] at hmem
  rcases hmem with (rfl | rfl | rfl) | halpha
  · simp [hslOf?, angle?_eq_none htext]
  · simp [hslOf?, scalar?_eq_none htext]
  · simp [hslOf?, scalar?_eq_none htext]
  · simp [hslOf?, withAlpha?_eq_none _ ⟨text, halpha, htext⟩]

/-- A channel that is no quantity leaves no color. -/
theorem older?_eq_none {name : String} {f : Channels → Option Color} (h : older? name = some f)
    {cs : Channels} (htext : ∃ text ∈ cs.texts, Quantity.ofText? text = none) : f cs = none := by
  unfold older? at h
  split at h
  · cases h
    exact rgbOf?_eq_none htext
  · cases h
    exact rgbOf?_eq_none htext
  · cases h
    exact hslOf?_eq_none htext
  · cases h
    exact hslOf?_eq_none htext
  · cases h

/-- Whether an argument consists of a function with the name that counts as zero. -/
def isNoneArgument : List Component → Bool
  | [c] => isNoneCall c
  | _ => false

theorem exists_label_of_channels {arguments : List (List Component)} {cs : Channels}
    (h : channelsOfArguments arguments = some cs) :
    ∀ argument ∈ arguments, ∃ c, argument = [c] ∧ c.label ∈ cs.texts := by
  unfold channelsOfArguments at h
  split at h
  · cases h
    simp [Channels.texts]
  · cases h
    simp [Channels.texts]
  · cases h

theorem not_isChannel_of_isNoneCall {c : Component} (h : isNoneCall c = true) :
    isChannel c = false := by
  cases c with
  | function name children => rfl
  | _ => cases h

theorem any_isNoneArgument_of_all {arguments : List (List Component)}
    (h : arguments.all (·.all isChannel) = true) : arguments.any isNoneArgument = false := by
  rw [List.any_eq_false]
  intro argument hmem hcall
  have hchannels := List.all_eq_true.1 h argument hmem
  unfold isNoneArgument at hcall
  split at hcall
  · rw [List.all_cons, not_isChannel_of_isNoneCall hcall] at hchannels
    cases hchannels
  · cases hcall

/-- What is no channel between blanks leaves no color between commas, unless it is a function with
the name that counts as zero. -/
theorem bind_channelsOfArguments_eq_none {name : String} {f : Channels → Option Color}
    (hf : older? name = some f) {arguments : List (List Component)}
    (h : ∀ argument ∈ arguments, ∃ cs, ReadsApart cs argument)
    (hchannels : arguments.all (·.all isChannel) = false)
    (hcalls : arguments.any isNoneArgument = false) :
    (channelsOfArguments arguments).bind f = none := by
  cases hcs : channelsOfArguments arguments with
  | none => rfl
  | some cs =>
      obtain ⟨argument, hmem, hargument⟩ := List.all_eq_false.1 hchannels
      obtain ⟨c, rfl, hlabel⟩ := exists_label_of_channels hcs argument hmem
      obtain ⟨chars, hread⟩ := h [c] hmem
      have hchannel : isChannel c = false := by simpa using hargument
      have hcall : isNoneCall c = false := by
        simpa [isNoneArgument] using List.any_eq_false.1 hcalls [c] hmem
      exact older?_eq_none hf ⟨c.label, hlabel,
        ofText?_label_eq_none (readBefore_of_parseChars hread.parse) hchannel hcall⟩

/-- The color of channels between blanks is the one between commas, but a function with the name
that counts as zero is no channel between blanks. -/
theorem bind_betweenBlanks {name : String} {f : Channels → Option Color} (hf : older? name = some f)
    {x y z : List Component} {a : Option (List Component)}
    (h : ∀ argument ∈ x :: y :: z :: a.toList, ∃ cs, ReadsApart cs argument) :
    (channels? (betweenBlanks x y z a)).bind f =
      if (x :: y :: z :: a.toList).any isNoneArgument then none
      else (channels? (betweenCommas x y z a)).bind f := by
  have hapart : ∀ argument ∈ x :: y :: z :: a.toList, Apart argument := by
    intro argument hmem
    obtain ⟨cs, hread⟩ := h argument hmem
    exact hread.apart
  have hne : ∀ argument ∈ x :: y :: z :: a.toList, argument ≠ [] := by
    intro argument hmem
    obtain ⟨cs, hread⟩ := h argument hmem
    exact hread.ne_nil
  have halpha : ∀ cs ∈ a, Apart cs := fun cs hcs => hapart cs (by simp [Option.mem_def.1 hcs])
  rw [channels?_betweenBlanks (hapart x (by simp)) (hapart y (by simp)) (hapart z (by simp)) halpha
      hne, channels?_betweenCommas (hapart x (by simp)) (hapart y (by simp)) (hapart z (by simp))
      halpha]
  generalize x :: y :: z :: a.toList = arguments at h
  cases hchannels : arguments.all (·.all isChannel) with
  | true =>
      rw [any_isNoneArgument_of_all hchannels]
      rfl
  | false =>
      cases hcalls : arguments.any isNoneArgument with
      | true => rfl
      | false => exact (bind_channelsOfArguments_eq_none hf h hchannels hcalls).symm

end Color

end ContrastAudit

import Mathlib.Data.List.Basic
import ContrastAudit.Proofs.Number.Fault
import ContrastAudit.Utility.Resolve

/-!
# Font sizes and colors

Utility classes for the text share one prefix, whether they give a color or a font size.  No class
gives both: what is read as a length is read so by both readings, as a length has neither blanks
nor underscores.  A hint decides only if it is one for a color; behind the hint for a length, what
is no plain length is taken for a color together with the hint.

**Results.**
* `color?_of_fontSize?`: a class for a font size gives no color.
* `colorOf?_sizeless`: without the classes for font sizes, a list gives the same colors.
* `color?_and_fontSize?`: how the two readings exclude each other, and which hinted classes give a
  color nonetheless.
* `not_forall_color?_hinted_ne`: a length that is a variable is taken for a color.
-/

namespace ContrastAudit

section Faults

variable {ε α β : Type} {f : α → Except ε (Option β)}

theorem map_filterMap_mapM_cons (a : α) (as : List α) :
    ((a :: as).mapM f).map (List.filterMap id) =
      f a >>= fun b => ((as.mapM f).map (List.filterMap id)).map (b.toList ++ ·) := by
  rw [List.mapM_cons]
  cases f a with
  | error fault => rfl
  | ok b =>
      cases as.mapM f with
      | error fault => rfl
      | ok bs => cases b <;> rfl

/-- Computations that give nothing can be left out. -/
theorem map_filterMap_mapM_filter {p : α → Bool} {as : List α}
    (h : ∀ a ∈ as, p a = false → f a = .ok none) :
    ((as.filter p).mapM f).map (List.filterMap id) = (as.mapM f).map (List.filterMap id) := by
  induction as with
  | nil => rfl
  | cons a as ih =>
      obtain ⟨ha, has⟩ := List.forall_mem_cons.1 h
      rw [map_filterMap_mapM_cons, ← ih has]
      cases hp : p a with
      | false =>
          rw [List.filter_cons_of_neg (by simp [hp]), ha hp]
          cases (as.filter p).mapM f <;> rfl
      | true => rw [List.filter_cons_of_pos hp, map_filterMap_mapM_cons]

end Faults

namespace Utility

/-! ## Lengths -/

/-- How a length is written: an optional hint and an optional sign, a number and a unit. -/
structure IsWrittenLength (hint sign number unit : List Char) : Prop where
  hint : hint = [] ∨ hint = lengthHint
  sign : sign = [] ∨ sign = ['+'] ∨ sign = ['-']
  number : ∀ c ∈ number, Text.isDecimal c = true ∨ c = '.'
  unit : String.ofList unit ∈ lengthUnits

theorem exists_of_afterNumber? {cs rest : List Char} (h : afterNumber? cs = some rest) :
    ∃ number, cs = number ++ rest ∧ ∀ c ∈ number, Text.isDecimal c = true ∨ c = '.' := by
  have hdigits : ∀ ds : List Char, ∀ c ∈ ds.takeWhile Text.isDecimal, Text.isDecimal c = true :=
    fun ds => List.all_eq_true.1 List.all_takeWhile
  have hsplit : ∀ ds : List Char,
      ds = ds.takeWhile Text.isDecimal ++ ds.drop (ds.takeWhile Text.isDecimal).length := by
    intro ds
    exact (List.prefix_iff_eq_append.1 (List.takeWhile_prefix _)).symm
  rw [afterNumber?] at h
  have hcs := hsplit cs
  dsimp only at h
  split at h
  · next fraction hfraction =>
      rw [hfraction] at hcs
      split_ifs at h
      cases h
      refine ⟨cs.takeWhile Text.isDecimal ++ '.' :: fraction.takeWhile Text.isDecimal, ?_, ?_⟩
      · rw [List.append_assoc, List.cons_append, ← hsplit fraction]
        exact hcs
      · intro c hc
        rcases List.mem_append.1 hc with hc | hc
        · exact .inl (hdigits cs c hc)
        · rcases List.mem_cons.1 hc with rfl | hc
          · exact .inr rfl
          · exact .inl (hdigits fraction c hc)
  · split_ifs at h
    cases h
    exact ⟨_, hcs, fun c hc => .inl (hdigits cs c hc)⟩

/-- A text without a leading sign. -/
def withoutSign : List Char → List Char
  | '+' :: cs => cs
  | '-' :: cs => cs
  | cs => cs

theorem exists_sign (cs : List Char) :
    ∃ sign, (sign = [] ∨ sign = ['+'] ∨ sign = ['-']) ∧ cs = sign ++ withoutSign cs := by
  rw [withoutSign.eq_def]
  split
  · exact ⟨['+'], .inr (.inl rfl), rfl⟩
  · exact ⟨['-'], .inr (.inr rfl), rfl⟩
  · exact ⟨[], .inl rfl, rfl⟩

theorem exists_hint (cs : List Char) :
    ∃ hint, (hint = [] ∨ hint = lengthHint) ∧ cs = hint ++ withoutHint lengthHint cs := by
  rw [withoutHint, Text.rest?]
  split
  · next hprefix =>
      refine ⟨lengthHint, .inr rfl, ?_⟩
      exact (List.prefix_iff_eq_append.1 (List.isPrefixOf_iff_prefix.1 hprefix)).symm
  · exact ⟨[], .inl rfl, rfl⟩

theorem isLength_iff {value : List Char} :
    isLength value = true ↔
      ∃ unit, afterNumber? (withoutSign (withoutHint lengthHint value)) = some unit ∧
        String.ofList unit ∈ lengthUnits := by
  have hlength : isLength value =
      (afterNumber? (withoutSign (withoutHint lengthHint value))).elim false fun unit =>
        lengthUnits.any fun known => known.toList == unit := by
    unfold isLength withoutSign
    dsimp only
    generalize afterNumber? _ = unit?
    cases unit? <;> rfl
  rw [hlength]
  cases afterNumber? (withoutSign (withoutHint lengthHint value)) with
  | none => simp
  | some unit =>
      have hknown : ∀ known : String, known.toList = unit ↔ known = String.ofList unit := by
        intro known
        rw [← String.toList_inj, String.toList_ofList]
      simp [hknown]

theorem exists_of_isLength {value : List Char} (h : isLength value = true) :
    ∃ hint sign number unit, IsWrittenLength hint sign number unit ∧
      value = hint ++ (sign ++ (number ++ unit)) := by
  obtain ⟨hint, hhint, hvalue⟩ := exists_hint value
  obtain ⟨sign, hsign, hunsigned⟩ := exists_sign (withoutHint lengthHint value)
  obtain ⟨unit, hafter, hunit⟩ := isLength_iff.1 h
  obtain ⟨number, hsplit, hnumber⟩ := exists_of_afterNumber? hafter
  refine ⟨hint, sign, number, unit, ⟨hhint, hsign, hnumber, hunit⟩, ?_⟩
  rw [← hsplit, ← hunsigned, ← hvalue]

/-- A digit, or a character of a hint, a sign or a unit. -/
def isLengthChar (c : Char) : Bool :=
  Text.isDecimal c || "length:+-.pxtremvhw%".toList.contains c

theorem isLengthChar_of_mem {value : List Char} (h : isLength value = true) :
    ∀ c ∈ value, isLengthChar c = true := by
  obtain ⟨hint, sign, number, unit, hwritten, rfl⟩ := exists_of_isLength h
  have hhint : hint.all isLengthChar = true := by
    rcases hwritten.hint with rfl | rfl <;> decide
  have hsign : sign.all isLengthChar = true := by
    rcases hwritten.sign with rfl | rfl | rfl <;> decide
  have hnumber : ∀ c ∈ number, isLengthChar c = true := by
    intro c hc
    rcases hwritten.number c hc with hdigit | rfl
    · rw [isLengthChar, hdigit, Bool.true_or]
    · decide
  have hunit : unit.all isLengthChar = true := by
    have hunits : ∀ known ∈ lengthUnits, known.toList.all isLengthChar = true := by decide
    have hknown := hunits _ hwritten.unit
    rwa [String.toList_ofList] at hknown
  exact List.forall_mem_append.2 ⟨List.all_eq_true.1 hhint, List.forall_mem_append.2
    ⟨List.all_eq_true.1 hsign, List.forall_mem_append.2 ⟨hnumber, List.all_eq_true.1 hunit⟩⟩⟩

theorem not_mem_of_isLength {value : List Char} (h : isLength value = true) {c : Char}
    (hc : isLengthChar c = false) : c ∉ value :=
  fun hmem => Bool.false_ne_true (hc.symm.trans (isLengthChar_of_mem h c hmem))

/-- A value with blanks for its underscores. -/
def spaced (value : List Char) : List Char :=
  value.map fun c => if c = '_' then ' ' else c

theorem spaced_of_not_mem {value : List Char} (h : '_' ∉ value) : spaced value = value := by
  have hsame : spaced value = value.map id :=
    List.map_congr_left fun c hc => if_neg fun (hunderscore : c = '_') => h (hunderscore ▸ hc)
  rw [hsame, List.map_id]

/-- Lengths are the same before and after blanks are put in. -/
theorem isLength_spaced (value : List Char) : isLength (spaced value) = isLength value := by
  rw [Bool.eq_iff_iff]
  constructor
  · intro h
    have hblank : ' ' ∉ spaced value := not_mem_of_isLength h (by decide)
    have hunderscore : '_' ∉ value := fun hmem =>
      hblank (List.mem_map.2 ⟨'_', hmem, if_pos rfl⟩)
    rwa [spaced_of_not_mem hunderscore] at h
  · intro h
    rwa [spaced_of_not_mem (not_mem_of_isLength h (by decide))]

/-! ## Values between brackets -/

/-- The hint that makes a value a color whatever it is. -/
def colorHint : List Char :=
  "color:".toList

theorem arbitraryColor?_eq (inside : List Char) :
    arbitraryColor? inside =
      match Text.rest? colorHint (spaced inside) with
      | some color => some (String.ofList color)
      | none => if isLength inside then none else some (String.ofList (spaced inside)) := by
  rw [← isLength_spaced]
  rfl

theorem rest?_colorHint_of_head {c : Char} (hc : c ≠ 'c') (cs : List Char) :
    Text.rest? colorHint (c :: cs) = none := by
  have hprefix : colorHint.isPrefixOf (c :: cs) = false := by
    rw [Bool.eq_false_iff, Ne, List.isPrefixOf_iff_prefix]
    rintro ⟨rest, hrest⟩
    exact hc (List.cons.inj hrest).1.symm
  rw [Text.rest?, hprefix, if_neg Bool.false_ne_true]

theorem arbitraryColor?_of_isLength {inside : List Char} (h : isLength inside = true) :
    arbitraryColor? inside = none := by
  have hspaced : spaced inside = inside := spaced_of_not_mem (not_mem_of_isLength h (by decide))
  have hhint : Text.rest? colorHint inside = none := by
    cases inside with
    | nil => rfl
    | cons c cs =>
        refine rest?_colorHint_of_head ?_ cs
        rintro rfl
        exact not_mem_of_isLength h (by decide) List.mem_cons_self
  rw [arbitraryColor?_eq, hspaced, hhint]
  exact if_pos h

theorem bracketed?_append (inside : List Char) :
    bracketed? ('[' :: (inside ++ [']'])) =
      if inside ≠ [] ∧ '\n' ∉ inside then some inside else none := by
  simp [bracketed?]

/-- The text of a class for the text color with a value between brackets. -/
def bracketedText (inside : List Char) : List Char :=
  ['t', 'e', 'x', 't', '-', '['] ++ (inside ++ [']'])

theorem side?_bracketedText (inside : List Char) :
    side? (bracketedText inside) = some (.foreground, '[' :: (inside ++ [']'])) :=
  rfl

theorem paletteName?_bracket (cs : List Char) : paletteName? ('[' :: cs) = none :=
  rfl

section Bracketed

variable {className : String} {inside : List Char}
  (h : className.toList = bracketedText inside)
include h

/-- No class with a name of its own has brackets. -/
theorem not_mem_of_bracketed {names : List String} (hnames : ∀ name ∈ names, '[' ∉ name.toList) :
    className ∉ names := by
  intro hmem
  have hbracket : '[' ∈ className.toList := by
    rw [h]
    exact List.mem_append_left _ (by decide)
  exact hnames _ hmem hbracket

theorem color?_of_bracketed (palette : Palette) :
    color? palette className =
      .ok (if inside ≠ [] ∧ '\n' ∉ inside then
        (arbitraryColor? inside).map fun value => ⟨.foreground, value, className⟩ else none) := by
  have hnamed : colorless.contains className = false := by
    rw [List.contains_eq_mem, decide_eq_false_iff_not]
    exact not_mem_of_bracketed h (by decide)
  rw [color?, hnamed, if_neg Bool.false_ne_true, h, side?_bracketedText]
  simp only [colorValue?, bracketed?_append, paletteName?_bracket]
  by_cases hinside : inside ≠ [] ∧ '\n' ∉ inside
  · rw [if_pos hinside, if_pos hinside]
    rfl
  · rw [if_neg hinside, if_neg hinside]
    rfl

theorem fontSize?_of_bracketed :
    fontSize? className =
      if inside ≠ [] ∧ '\n' ∉ inside ∧ isLength inside = true then
        some (String.ofList (withoutHint lengthHint inside)) else none := by
  have hnamed : fontSizes.find? (·.1 == className) = none := by
    rw [List.find?_eq_none]
    intro size hsize heq
    refine @not_mem_of_bracketed className inside h (fontSizes.map (·.1)) (by decide) ?_
    exact List.mem_map.2 ⟨size, hsize, beq_iff_eq.1 heq⟩
  rw [fontSize?, hnamed]
  simp only [h, side?_bracketedText, bracketed?_append]
  by_cases hinside : inside ≠ [] ∧ '\n' ∉ inside
  · rw [if_pos hinside]
    simp [hinside]
  · rw [if_neg hinside, if_neg fun hall => hinside ⟨hall.1, hall.2.1⟩]
    rfl

end Bracketed

/-! ## Classes that are read both ways -/

/-- A class for a font size gives no color. -/
theorem color?_of_fontSize? {className size : String} (palette : Palette)
    (h : fontSize? className = some size) : color? palette className = .ok none := by
  rw [fontSize?] at h
  split at h
  · next named value hfind =>
      have hname : named = className := by
        have heq := List.find?_some hfind
        exact beq_iff_eq.1 heq
      have hmem : className ∈ fontSizes.map (·.1) :=
        List.mem_map.2 ⟨_, List.mem_of_find?_eq_some hfind, hname⟩
      rw [color?, if_pos]
      rw [List.contains_iff_mem]
      exact List.mem_append_right _ hmem
  · split at h
    · next rest hside =>
        obtain ⟨inside, hinside, hsize⟩ := Option.bind_eq_some_iff.1 h
        split_ifs at hsize with hlength
        have hvalue : colorValue? palette rest = .ok none := by
          rw [colorValue?, hinside]
          exact congrArg Except.ok (arbitraryColor?_of_isLength hlength)
        rw [color?, hside]
        split
        · rfl
        · simp only [hvalue]
          rfl
    · cases h

theorem fontSizeOf?_singleton (className : String) :
    fontSizeOf? [className] = fontSize? className := by
  rw [fontSizeOf?, List.findSome?_cons]
  cases fontSize? className <;> rfl

/-- The classes of a list that give no font size. -/
def sizeless (classes : List String) : List String :=
  classes.filter fun className => (fontSizeOf? [className]).isNone

theorem colorOf?_eq (palette : Palette) (side : Side) (classes : List String) :
    colorOf? palette side classes =
      ((classes.mapM (color? palette)).map (List.filterMap id)).map fun styles =>
        styles.reverse.find? (·.side == side) := by
  rw [colorOf?]
  cases classes.mapM (color? palette) <;> rfl

/-- Classes that give no color can be left out. -/
theorem colorOf?_filter {palette : Palette} {p : String → Bool} {classes : List String}
    (h : ∀ className ∈ classes, p className = false → color? palette className = .ok none)
    (side : Side) : colorOf? palette side (classes.filter p) = colorOf? palette side classes := by
  rw [colorOf?_eq, colorOf?_eq, map_filterMap_mapM_filter h]

/-- Without its classes for font sizes, a list gives the same colors. -/
theorem colorOf?_sizeless (palette : Palette) (side : Side) (classes : List String) :
    colorOf? palette side (sizeless classes) = colorOf? palette side classes := by
  refine colorOf?_filter (fun className _ hsize => ?_) side
  rw [fontSizeOf?_singleton] at hsize
  obtain ⟨size, hsome⟩ := Option.isSome_iff_exists.1 (Option.isNone_eq_false_iff.1 hsize)
  exact color?_of_fontSize? palette hsome

/-! ## Hinted classes -/

/-- What stands behind the hint for a length is in one line and no plain length. -/
def IsOtherLength (X : String) : Prop :=
  '\n' ∉ X.toList ∧ isLength (lengthHint ++ X.toList) = false

instance decidableIsOtherLength (X : String) : Decidable (IsOtherLength X) :=
  inferInstanceAs (Decidable ('\n' ∉ X.toList ∧ isLength (lengthHint ++ X.toList) = false))

theorem toList_hinted {front : String} {hint : List Char}
    (hfront : front.toList = ['t', 'e', 'x', 't', '-', '['] ++ hint) (X : String) :
    (front ++ X ++ "]").toList = bracketedText (hint ++ X.toList) := by
  have hback : "]".toList = [']'] := rfl
  rw [String.toList_append, String.toList_append, hfront, hback, bracketedText, List.append_assoc,
    List.append_assoc, List.append_assoc]

theorem toList_lengthHinted (X : String) :
    ("text-[length:" ++ X ++ "]").toList = bracketedText (lengthHint ++ X.toList) :=
  toList_hinted (by decide) X

theorem toList_colorHinted (X : String) :
    ("text-[color:" ++ X ++ "]").toList = bracketedText (colorHint ++ X.toList) :=
  toList_hinted (by decide) X

/-- Behind the hint for a length, all that is no length is taken for a color. -/
theorem color?_lengthHinted (palette : Palette) (X : String) :
    color? palette ("text-[length:" ++ X ++ "]") =
      .ok (if IsOtherLength X then
        some ⟨.foreground, String.ofList (lengthHint ++ spaced X.toList),
          "text-[length:" ++ X ++ "]"⟩
      else none) := by
  have hspaced : spaced (lengthHint ++ X.toList) = lengthHint ++ spaced X.toList :=
    List.map_append
  have hcolor : Text.rest? colorHint (lengthHint ++ spaced X.toList) = none :=
    rest?_colorHint_of_head (by decide) _
  have hother : IsOtherLength X ↔
      '\n' ∉ lengthHint ++ X.toList ∧ isLength (lengthHint ++ X.toList) = false := by
    have hhint : '\n' ∉ lengthHint := by decide
    rw [IsOtherLength, List.mem_append, not_or]
    simp only [hhint, not_false_eq_true, true_and]
  rw [color?_of_bracketed (toList_lengthHinted X), arbitraryColor?_eq, hspaced, hcolor]
  by_cases hX : IsOtherLength X
  · obtain ⟨hline, hlength⟩ := hother.1 hX
    have hinside : lengthHint ++ X.toList ≠ [] ∧ '\n' ∉ lengthHint ++ X.toList :=
      ⟨List.cons_ne_nil _ _, hline⟩
    rw [if_pos hX, if_pos hinside, hlength]
    rfl
  · rw [if_neg hX]
    split
    · next hinside =>
        have hlength : isLength (lengthHint ++ X.toList) = true := by
          rw [← Bool.not_eq_false]
          exact fun hfalse => hX (hother.2 ⟨hinside.2, hfalse⟩)
        rw [hlength]
        rfl
    · rfl

theorem fontSizeOf?_colorHinted (X : String) :
    fontSizeOf? ["text-[color:" ++ X ++ "]"] = none := by
  have hlength : ¬ isLength (colorHint ++ X.toList) = true := fun h =>
    not_mem_of_isLength h (c := 'c') (by decide) List.mem_cons_self
  rw [fontSizeOf?_singleton, fontSize?_of_bracketed (toList_colorHinted X),
    if_neg fun hall => hlength hall.2.2]

theorem colorOf?_foreground_singleton {palette : Palette} {className : String}
    {style : UtilityStyle} (h : color? palette className = .ok (some style))
    (hside : style.side = .foreground) :
    colorOf? palette .foreground [className] = .ok (some style) := by
  rw [colorOf?_eq, List.mapM_cons, h, List.mapM_nil]
  simp [bind, Except.bind, pure, Except.pure, Except.map, hside]

/-- A class does not matter to the text color anywhere in any list exactly if it gives none. -/
theorem forall_colorOf?_iff {palette : Palette} {className : String} {style? : Option UtilityStyle}
    (h : color? palette className = .ok style?)
    (hside : ∀ style ∈ style?, style.side = .foreground) :
    (∀ before after, colorOf? palette .foreground (before ++ className :: after) =
      colorOf? palette .foreground (before ++ after)) ↔ style? = none := by
  constructor
  · intro hsame
    cases style? with
    | none => rfl
    | some style =>
        have halone := hsame [] []
        rw [List.nil_append, colorOf?_foreground_singleton h (hside style rfl)] at halone
        cases halone
  · rintro rfl before after
    have hleft : ∀ classes : List String, ∀ other ∈ classes, (other != className) = false →
        color? palette other = .ok none := by
      intro classes other _ hother
      rw [bne_eq_false_iff_eq.1 hother, h]
    rw [← colorOf?_filter (hleft _), ← colorOf?_filter (hleft (before ++ after))]
    simp

/-- No class is read both as a color and as a font size, whatever the palette is.  Behind the hint
for a length a class gives a color exactly if what follows, in one line, is no plain length; behind
the hint for a color it gives no font size.  Lists that differ in classes for font sizes only have
the same text color, and a class with the hint for a length does not matter to it anywhere in any
list exactly if what follows the hint is a plain length or goes over a line end. -/
theorem color?_and_fontSize? (palette : Palette) (className X : String) :
    (color? palette className = .ok none ∨ fontSizeOf? [className] = none) ∧
    ((∃ style, color? palette ("text-[length:" ++ X ++ "]") = .ok (some style)) ↔
      IsOtherLength X) ∧
    fontSizeOf? ["text-[color:" ++ X ++ "]"] = none ∧
    (∀ classes classes', sizeless classes = sizeless classes' →
      colorOf? palette .foreground classes = colorOf? palette .foreground classes') ∧
    ((∀ before after,
      colorOf? palette .foreground (before ++ ("text-[length:" ++ X ++ "]") :: after) =
        colorOf? palette .foreground (before ++ after)) ↔ ¬ IsOtherLength X) := by
  have hhinted := color?_lengthHinted palette X
  refine ⟨?_, ?_, fontSizeOf?_colorHinted X, ?_, ?_⟩
  · rw [fontSizeOf?_singleton]
    cases hsize : fontSize? className with
    | none => exact .inr rfl
    | some size => exact .inl (color?_of_fontSize? palette hsize)
  · rw [hhinted]
    split <;> simp_all
  · intro classes classes' hsame
    rw [← colorOf?_sizeless, hsame, colorOf?_sizeless]
  · rw [forall_colorOf?_iff hhinted]
    · simp
    · intro style hstyle
      split at hstyle
      · cases hstyle
        rfl
      · cases hstyle

theorem color?_and_fontSize?_heading :
    sizeless ["text-lg", "text-[length:2rem]", "text-red-500"] =
        sizeless ["text-red-500", "text-[14px]"] ∧
      colorOf? .standard .foreground ["text-lg", "text-[length:2rem]", "text-red-500"] =
        colorOf? .standard .foreground ["text-red-500", "text-[14px]"] ∧
      colorOf? .standard .foreground ["text-red-500", "text-[14px]"] =
        .ok (some ⟨.foreground, "#ef4444", "text-red-500"⟩) := by
  have hsizeless : sizeless ["text-lg", "text-[length:2rem]", "text-red-500"] =
      sizeless ["text-red-500", "text-[14px]"] := by
    decide +kernel
  obtain ⟨-, -, -, hsame, -⟩ := color?_and_fontSize? .standard "text-lg" "2rem"
  exact ⟨hsizeless, hsame _ _ hsizeless, by decide +kernel⟩

/-- A length that is a variable is taken for a color, together with its hint. -/
theorem not_forall_color?_hinted_ne :
    ¬ ∀ (palette : Palette) (X : String), X ≠ "" → ∀ style,
      color? palette ("text-[length:" ++ X ++ "]") ≠ .ok (some style) := by
  intro h
  have hcolor : color? .standard ("text-[length:" ++ "var(--size)" ++ "]") =
      .ok (some ⟨.foreground, "length:var(--size)", "text-[length:var(--size)]"⟩) := by
    decide +kernel
  exact h _ _ (by decide) _ hcolor

end Utility

end ContrastAudit

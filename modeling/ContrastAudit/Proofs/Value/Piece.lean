import Mathlib.Data.List.DropRight
import ContrastAudit.Color.Notation
import ContrastAudit.Proofs.Value.Flattening

/-!
# Pieces of values

Neighbouring components of a value, at any depth, are read again from their own text.  What a
component is may depend on the text behind it; but the components in front of a text are read in the
same way where the text ends with them, because no token is made longer by what is cut off.

The parts of a value that are written out and read again are such pieces: its single components, the
arguments between its commas, the fallback of a reference, and what is left of the argument of a
mixture without its percentage.

**Results.**
* `infix_of_mem_splitArguments`, `infix_splitPercentage`: arguments are pieces, with and without
  their percentages.
* `parse_render_piece`: a piece of a value is read again from its own text.
-/

namespace ContrastAudit.Component

section Parts

variable {limit : Option Nat} {cs ds part argument : List Component}

theorem infix_stripSpace (cs : List Component) : stripSpace cs <:+: cs :=
  (List.rdropWhile_prefix isSpace (l := cs.dropWhile isSpace)).isInfix.trans
    (List.dropWhile_suffix isSpace).isInfix

/-- A sequence is cut into its front and pieces behind that. -/
theorem exists_splitCommas (limit : Option Nat) (cs : List Component) :
    ∃ front parts, splitCommas limit cs = front :: parts ∧ front <+: cs ∧
      ∀ part ∈ parts, part <:+: cs := by
  induction cs generalizing limit with
  | nil => exact ⟨[], [], rfl, List.nil_prefix, by simp⟩
  | cons c cs ih =>
      have hbehind : ∀ part, part <:+: cs → part <:+: c :: cs :=
        fun part h => h.trans (List.suffix_cons c cs).isInfix
      rw [splitCommas]
      split
      · obtain ⟨front, parts, heq, hfront, hparts⟩ := ih (limit.map (· - 1))
        refine ⟨[], front :: parts, by rw [heq], List.nil_prefix, ?_⟩
        rw [List.forall_mem_cons]
        exact ⟨hbehind front hfront.isInfix, fun part hpart => hbehind part (hparts part hpart)⟩
      · obtain ⟨front, parts, heq, hfront, hparts⟩ := ih limit
        refine ⟨c :: front, parts, by rw [heq], (List.prefix_cons_inj c).2 hfront, ?_⟩
        exact fun part hpart => hbehind part (hparts part hpart)

theorem infix_of_mem_splitCommas (h : part ∈ splitCommas limit cs) : part <:+: cs := by
  obtain ⟨front, parts, heq, hfront, hparts⟩ := exists_splitCommas limit cs
  rw [heq] at h
  rcases List.mem_cons.1 h with rfl | h
  · exact hfront.isInfix
  · exact hparts part h

theorem infix_of_mem_splitArguments (h : argument ∈ splitArguments limit cs) :
    argument <:+: cs := by
  obtain ⟨part, hpart, rfl⟩ := List.mem_map.1 h
  exact (infix_stripSpace part).trans (infix_of_mem_splitCommas hpart)

theorem infix_charsOfAll (h : cs <:+: ds) : charsOfAll cs <:+: charsOfAll ds := by
  obtain ⟨before, behind, rfl⟩ := h
  exact ⟨charsOfAll before, charsOfAll behind, by simp⟩

/-- A percentage is taken off one of the ends. -/
theorem infix_splitPercentage (argument : List Component) :
    (Color.splitPercentage argument).2 <:+: argument := by
  unfold Color.splitPercentage
  split
  · split
    · exact (List.dropLast_prefix _).isInfix
    split
    · exact (List.suffix_cons _ _).isInfix
    · exact List.infix_rfl
  · exact List.infix_rfl

end Parts

section Pieces

variable {rest : List Char} {components around piece : List Component}

/-- What stands inside of components that are read is read in front of some text. -/
theorem exists_readBefore_of_nested (hread : ReadBefore rest components)
    (h : Nested components around) : ∃ rest, ReadBefore rest around := by
  induction h with
  | here => exact ⟨rest, hread⟩
  | function _ hmem ih =>
      obtain ⟨rest, hread⟩ := ih
      obtain ⟨before, behind, rfl⟩ := List.append_of_mem hmem
      exact ⟨_, hread.append.2.function.2.1⟩
  | block _ hmem ih =>
      obtain ⟨rest, hread⟩ := ih
      obtain ⟨before, behind, rfl⟩ := List.append_of_mem hmem
      exact ⟨_, hread.append.2.block.1⟩

theorem ReadBefore.parse_render_of_infix (hread : ReadBefore rest around)
    (h : piece <:+: around) : parse (render piece) = .ok piece := by
  obtain ⟨before, behind, rfl⟩ := h
  rw [parse_eq_ok_iff, render, String.toList_ofList]
  exact hread.append.1.append.2.parseChars_eq

end Pieces

/-- Neighbouring components of a value, at any depth, are read again from their own text: so are its
single components, its arguments, and an argument without its percentage. -/
theorem parse_render_piece {source : String} {components around : List Component}
    (h : parse source = .ok components) (hnested : Nested components around) :
    (∀ piece, piece <:+: around → parse (render piece) = .ok piece) ∧
    (∀ c ∈ around, parse (render [c]) = .ok [c]) ∧
    ∀ limit, ∀ argument ∈ splitArguments limit around,
      parse (render argument) = .ok argument ∧
      parse (render (Color.splitPercentage argument).2) =
        .ok (Color.splitPercentage argument).2 := by
  obtain ⟨rest, hread⟩ := exists_readBefore_of_nested
    (readBefore_of_parseChars (parse_eq_ok_iff.1 h)) hnested
  refine ⟨fun piece hpiece => hread.parse_render_of_infix hpiece, fun c hc => ?_,
    fun limit argument hargument => ?_⟩
  · obtain ⟨before, behind, heq⟩ := List.append_of_mem hc
    exact hread.parse_render_of_infix ⟨before, behind, by simp [heq]⟩
  · have hpiece := infix_of_mem_splitArguments hargument
    exact ⟨hread.parse_render_of_infix hpiece,
      hread.parse_render_of_infix ((infix_splitPercentage argument).trans hpiece)⟩

/-- A reference with a fallback in a mixture. -/
def shade : Component :=
  .function "color-mix" [.leaf .word "in", .leaf .space " ", .leaf .word "srgb", .leaf .comma ",",
    .function "var" [.leaf .word "--tint", .leaf .comma ",", .leaf .hash "#fff"], .leaf .space " ",
    .leaf .number "40%", .leaf .comma ",", .leaf .word "red"]

theorem parse_render_piece_shade :
    (parse "color-mix(in srgb,var(--tint,#fff) 40%,red)" = .ok [shade] ∧
      Nested [shade] [.leaf .word "--tint", .leaf .comma ",", .leaf .hash "#fff"]) ∧
    ∀ argument ∈ splitArguments (some 1)
        [.leaf .word "--tint", .leaf .comma ",", .leaf .hash "#fff"],
      parse (render argument) = .ok argument := by
  have hparse : parse "color-mix(in srgb,var(--tint,#fff) 40%,red)" = .ok [shade] := by
    rw [parse_eq_ok_iff, parseChars_eq_ok_iff]
    decide +kernel
  have houtside : Nested [shade] _ := .function .here List.mem_cons_self
  have hnested : Nested [shade] [.leaf .word "--tint", .leaf .comma ",", .leaf .hash "#fff"] := by
    refine .function houtside (show Component.function "var" _ ∈ _ from ?_)
    simp
  exact ⟨⟨hparse, hnested⟩, fun argument hargument =>
    ((parse_render_piece hparse hnested).2.2 (some 1) argument hargument).1⟩

end ContrastAudit.Component

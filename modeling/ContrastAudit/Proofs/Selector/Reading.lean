import ContrastAudit.Proofs.Selector.Spacing

/-!
# Reading written selectors

Behind the name of a tag, a class or an id comes a character that cannot continue it, so every part
of a chain in normal form is one piece, and the pieces are assembled compound by compound.

**Results.**
* `parse_chain`: a written selector is read as the compounds and combinators it stands for, and so
  is its normal form.
-/

namespace ContrastAudit.Selector

/-! ## Pieces -/

/-- A text that starts with no character that could continue a name. -/
def EndsName (rest : List Char) : Prop :=
  ∀ c ∈ rest.head?, Text.isNameChar c = false ∧ c ≠ '\\'

section Lengths

variable {rest : List Char}

theorem takeWhile_append_of_endsName {cs : List Char} (hcs : ∀ c ∈ cs, Text.isNameChar c = true)
    (hrest : EndsName rest) : (cs ++ rest).takeWhile Text.isNameChar = cs := by
  rw [List.takeWhile_append_of_pos hcs]
  cases rest with
  | nil => simp
  | cons c rest => simp [hrest c rfl]

theorem nameLength_of_endsName (hrest : EndsName rest) : nameLength rest = 0 := by
  cases rest with
  | nil => rfl
  | cons c rest =>
      obtain ⟨hname, hslash⟩ := hrest c rfl
      rw [nameLength]
      · simp [hname]
      · intro d cs hc
        exact absurd hc hslash

theorem ne_backslash_of_isNameChar {c : Char} (h : Text.isNameChar c = true) : c ≠ '\\' := by
  rintro rfl
  contradiction

theorem nameLength_letter_append (l : Letter) (cs : List Char) :
    nameLength (l.chars ++ cs) = l.chars.length + nameLength cs := by
  cases l with
  | plain c h =>
      rw [Letter.chars, List.singleton_append, nameLength, if_pos h, List.length_singleton]
      intro d ds hc
      exact absurd hc (ne_backslash_of_isNameChar h)
  | escaped c hblank hjoint =>
      have hbreak : c ≠ '\n' := by
        rintro rfl
        contradiction
      simp [Letter.chars, nameLength, hbreak]

theorem unescape_letter_append (l : Letter) (cs : List Char) :
    unescape (l.chars ++ cs) = l.char :: unescape cs := by
  cases l with
  | plain c h =>
      rw [Letter.chars, List.singleton_append, unescape, Letter.char]
      intro d ds hc
      exact absurd hc (ne_backslash_of_isNameChar h)
  | escaped c hblank hjoint => rfl

theorem nameLength_letters_append (ls : List Letter) (hrest : EndsName rest) :
    nameLength (ls.flatMap Letter.chars ++ rest) = (ls.flatMap Letter.chars).length := by
  induction ls with
  | nil => exact nameLength_of_endsName hrest
  | cons l ls ih =>
      rw [List.flatMap_cons, List.append_assoc, nameLength_letter_append, ih, List.length_append]

theorem unescape_letters (ls : List Letter) :
    unescape (ls.flatMap Letter.chars) = ls.map Letter.char := by
  induction ls with
  | nil => rfl
  | cons l ls ih => rw [List.flatMap_cons, unescape_letter_append, ih, List.map_cons]

theorem tagLength_append (t : TagName) (hrest : EndsName rest) :
    tagLength (t.chars ++ rest) = t.chars.length := by
  obtain ⟨hyphen, first, others, hfirst, hothers⟩ := t
  have htaken := takeWhile_append_of_endsName hothers hrest
  cases hyphen with
  | true =>
      simp only [TagName.chars, if_true, List.cons_append, List.nil_append, tagLength, hfirst,
        htaken, List.length_cons]
      omega
  | false =>
      have hhyphen : first ≠ '-' := by
        rintro rfl
        contradiction
      have hchars : TagName.chars ⟨false, first, others, hfirst, hothers⟩ = first :: others := rfl
      rw [hchars, List.cons_append, tagLength, if_pos hfirst, htaken, List.length_cons,
        Nat.add_comm]
      intro c cs hc
      exact absurd hc hhyphen

end Lengths

/-! ### Lower case -/

theorem lowercase_tag (t : TagName) : Text.lowercase (String.ofList t.chars) = t.value := by
  have hascii : ∀ c ∈ t.chars, c.toNat < 0x80 := by
    intro c hc
    have hrange := Text.toNat_of_isNameChar (t.isNameChar_of_mem c hc)
    omega
  rw [Text.lowercase, String.toList_ofList, Text.lower_of_ascii hascii, TagName.value]

/-! ### Scanning -/

theorem scan_append {part rest : List Char} {m : Meaning} (hne : part ≠ [])
    (h : classify (part ++ rest) = some (m, part.length)) :
    scan (part ++ rest) = some (⟨m, part⟩, rest) := by
  obtain ⟨c, cs, rfl⟩ := List.exists_cons_of_ne_nil hne
  unfold scan
  rw [h]
  simp

theorem pieces_of_scan {cs rest : List Char} {p : Piece} (h : scan cs = some (p, rest)) :
    pieces cs = (p :: (pieces rest).1, (pieces rest).2) := by
  rw [pieces]
  split
  · next hnone => simp [h] at hnone
  · next q qs hsome =>
      rw [h] at hsome
      cases hsome
      rfl

theorem pieces_nil : pieces [] = ([], []) := by
  rw [pieces]
  split
  · rfl
  · next h => simp [scan] at h

/-! ### The parts of a chain -/

def Head.piece : Head → Piece
  | .tag name => ⟨.tag name.value, name.chars⟩
  | universal => ⟨.universal, ['*']⟩

def Simple.piece : Simple → Piece
  | .class name => ⟨.class name.value, '.' :: name.chars⟩
  | id name => ⟨.id name.value, '#' :: name.chars⟩

def Conjunct.pieces (c : Conjunct) : List Piece :=
  c.head.toList.map Head.piece ++ c.simples.map Simple.piece

def Joint.piece (j : Joint) : Piece :=
  ⟨.combinator j.combinator, j.tight.chars⟩

def Chain.pieces (c : Chain) : List Piece :=
  c.first.pieces ++ c.rest.flatMap fun link => link.1.piece :: link.2.pieces

section Parts

variable {rest : List Char}

theorem classify_of_isNameChar {c : Char} (hc : Text.isNameChar c = true) (cs : List Char) :
    classify (c :: cs) =
      some (.tag (Text.lowercase (String.ofList ((c :: cs).take (tagLength (c :: cs))))),
        tagLength (c :: cs)) := by
  have hmem : c ∉ [' ', '>', '+', '~', '*', '.', '#', '[', ':'] :=
    not_mem_of_isNameChar hc (by decide)
  simp only [List.mem_cons, List.not_mem_nil, or_false, not_or] at hmem
  simp [classify, hmem]

theorem scan_head (h : Head) (hrest : EndsName rest) :
    scan (h.chars ++ rest) = some (h.piece, rest) := by
  cases h with
  | universal => exact scan_append (List.cons_ne_nil _ _) rfl
  | tag name =>
      obtain ⟨c, cs, hchars⟩ := List.exists_cons_of_ne_nil name.isSolid_chars.ne_nil
      have hc : Text.isNameChar c = true :=
        name.isNameChar_of_mem c (hchars ▸ List.mem_cons_self)
      have hclassify := classify_of_isNameChar hc (cs ++ rest)
      rw [← List.cons_append, ← hchars, tagLength_append name hrest, List.take_left,
        lowercase_tag] at hclassify
      exact scan_append name.isSolid_chars.ne_nil hclassify

/-- A sign with the name behind it, for a sign that takes whatever a name can be. -/
theorem scan_named {sign : Char} {meaning : String → Meaning}
    (hsign : ∀ cs, classify (sign :: cs) =
      some (meaning (String.ofList (unescape (cs.take (nameLength cs)))),
        if nameLength cs = 0 then 0 else nameLength cs + 1))
    (name : Name) (hrest : EndsName rest) :
    scan (sign :: name.chars ++ rest) =
      some (⟨meaning name.value, sign :: name.chars⟩, rest) := by
  have hne : name.chars.length ≠ 0 :=
    fun h => name.isSolid_chars.ne_nil (List.length_eq_zero_iff.1 h)
  have hlength : nameLength (name.chars ++ rest) = name.chars.length :=
    nameLength_letters_append name.letters hrest
  have hvalue : unescape name.chars = name.letters.map Letter.char := unescape_letters name.letters
  have hclassify := hsign (name.chars ++ rest)
  rw [hlength, List.take_left, hvalue, if_neg hne] at hclassify
  exact scan_append (List.cons_ne_nil _ _) hclassify

theorem scan_simple (s : Simple) (hrest : EndsName rest) :
    scan (s.chars ++ rest) = some (s.piece, rest) := by
  cases s with
  | «class» name => exact scan_named (fun _ => rfl) name hrest
  | id name => exact scan_named (fun _ => rfl) name hrest

theorem scan_joint (j : Joint) (rest : List Char) :
    scan (j.tight.chars ++ rest) = some (j.piece, rest) := by
  cases j with
  | descendant gap hne => exact scan_append (List.cons_ne_nil _ _) rfl
  | sign before s after => cases s <;> exact scan_append (List.cons_ne_nil _ _) rfl

theorem endsName_of_simples (ss : List Simple) (hrest : EndsName rest) :
    EndsName (ss.flatMap Simple.chars ++ rest) := by
  cases ss with
  | nil => exact hrest
  | cons s ss =>
      intro c hc
      cases s with
      | «class» name =>
          obtain rfl : '.' = c := Option.some.inj hc
          decide
      | id name =>
          obtain rfl : '#' = c := Option.some.inj hc
          decide

theorem pieces_simples (ss : List Simple) (hrest : EndsName rest) :
    pieces (ss.flatMap Simple.chars ++ rest) =
      (ss.map Simple.piece ++ (pieces rest).1, (pieces rest).2) := by
  induction ss with
  | nil => rfl
  | cons s ss ih =>
      rw [List.flatMap_cons, List.append_assoc,
        pieces_of_scan (scan_simple s (endsName_of_simples ss hrest)), ih]
      rfl

theorem pieces_conjunct (c : Conjunct) (hrest : EndsName rest) :
    pieces (c.chars ++ rest) = (c.pieces ++ (pieces rest).1, (pieces rest).2) := by
  obtain ⟨head, simples, hnonempty⟩ := c
  have hsimples := pieces_simples simples hrest
  cases head with
  | none => exact hsimples
  | some head =>
      have hscan := pieces_of_scan (scan_head head (endsName_of_simples simples hrest))
      rw [hsimples, ← List.append_assoc] at hscan
      exact hscan

theorem endsName_of_links (links : List (Joint × Conjunct)) :
    EndsName ((links.map fun link => (link.1.tight, link.2)).flatMap fun link =>
      link.1.chars ++ link.2.chars) := by
  cases links with
  | nil => simp [EndsName]
  | cons link links =>
      obtain ⟨j, d⟩ := link
      intro c hc
      cases j with
      | descendant gap hne =>
          obtain rfl : ' ' = c := Option.some.inj hc
          decide
      | sign before s after =>
          obtain rfl : s.char = c := Option.some.inj hc
          cases s <;> decide

theorem pieces_links (links : List (Joint × Conjunct)) :
    pieces ((links.map fun link => (link.1.tight, link.2)).flatMap fun link =>
      link.1.chars ++ link.2.chars) =
      (links.flatMap fun link => link.1.piece :: link.2.pieces, []) := by
  induction links with
  | nil => exact pieces_nil
  | cons link links ih =>
      obtain ⟨j, d⟩ := link
      rw [List.map_cons, List.flatMap_cons, List.append_assoc, pieces_of_scan (scan_joint j _),
        pieces_conjunct d (endsName_of_links links), ih]
      rfl

end Parts

/-- The parts of a chain are its pieces, and nothing is left. -/
theorem pieces_chain (c : Chain) : pieces c.tight.chars = (c.pieces, []) := by
  obtain ⟨first, rest⟩ := c
  have hfirst := pieces_conjunct first (endsName_of_links rest)
  rw [pieces_links] at hfirst
  exact hfirst

/-! ## Assembly -/

section Assembly

variable {context : List (Combinator × Compound)} {last offset : Nat} {ps : List Piece}

theorem assemble_simple (s : Simple) (current : Option Compound) :
    assemble false context current last offset (s.piece :: ps) =
      assemble false context (some (s.piece.meaning.extend (current.getD {}))) offset
        (offset + s.piece.chars.length) ps := by
  cases s <;> rfl

theorem assemble_head (h : Head) :
    assemble false context none last offset (h.piece :: ps) =
      assemble false context (some (h.piece.meaning.extend {})) offset
        (offset + h.piece.chars.length) ps := by
  cases h <;> rfl

theorem assemble_joint (j : Joint) (c : Compound) :
    assemble false context (some c) last offset (j.piece :: ps) =
      assemble false ((j.combinator, c) :: context) none offset
        (offset + j.piece.chars.length) ps :=
  rfl

variable (context last offset ps)

/-- Classes and ids are added to the compound under way, whatever the counts of characters. -/
theorem exists_assemble_simples (ss : List Simple) (c : Compound) :
    ∃ last' offset', assemble false context (some c) last offset (ss.map Simple.piece ++ ps) =
      assemble false context
        (some { c with
          classes := c.classes ++ ss.filterMap Simple.class?
          ids := c.ids ++ ss.filterMap Simple.id? })
        last' offset' ps := by
  induction ss generalizing c last offset with
  | nil => exact ⟨last, offset, by simp⟩
  | cons s ss ih =>
      obtain ⟨last', offset', hrest⟩ :=
        ih offset (offset + s.piece.chars.length) (s.piece.meaning.extend c)
      refine ⟨last', offset', ?_⟩
      rw [List.map_cons, List.cons_append, assemble_simple, Option.getD_some, hrest]
      cases s <;>
        simp [Simple.piece, Meaning.extend, List.filterMap_cons, Simple.class?, Simple.id?]

theorem exists_assemble_conjunct (c : Conjunct) :
    ∃ last' offset', assemble false context none last offset (c.pieces ++ ps) =
      assemble false context (some c.compound) last' offset' ps := by
  obtain ⟨head, simples, hnonempty⟩ := c
  cases head with
  | none =>
      cases simples with
      | nil => exact absurd rfl (hnonempty rfl)
      | cons s ss =>
          obtain ⟨last', offset', hrest⟩ := exists_assemble_simples context offset
            (offset + s.piece.chars.length) ps ss (s.piece.meaning.extend {})
          refine ⟨last', offset', (assemble_simple s none).trans (hrest.trans ?_)⟩
          cases s <;>
            simp [Simple.piece, Meaning.extend, List.filterMap_cons, Simple.class?, Simple.id?,
              Conjunct.compound]
  | some head =>
      obtain ⟨last', offset', hrest⟩ := exists_assemble_simples context offset
        (offset + head.piece.chars.length) ps simples (head.piece.meaning.extend {})
      refine ⟨last', offset', (assemble_head head).trans (hrest.trans ?_)⟩
      cases head <;> simp [Head.piece, Meaning.extend, Conjunct.compound]

/-- The compound under way is joined to the next one by each combinator. -/
theorem exists_assemble_links (links : List (Joint × Conjunct)) (c : Compound) :
    ∃ target complete,
      assemble false context (some c) last offset
          (links.flatMap fun link => link.1.piece :: link.2.pieces) = .ok (target, complete) ∧
        (complete.map (·.2)).reverse ++ [target] =
          (context.map (·.2)).reverse ++ c :: links.map (·.2.compound) ∧
        (complete.map (·.1)).reverse =
          (context.map (·.1)).reverse ++ links.map (·.1.combinator) := by
  induction links generalizing context c last offset with
  | nil => exact ⟨c, context, rfl, by simp⟩
  | cons link links ih =>
      obtain ⟨j, d⟩ := link
      obtain ⟨last', offset', hconjunct⟩ := exists_assemble_conjunct ((j.combinator, c) :: context)
        offset (offset + j.piece.chars.length)
        (links.flatMap fun link => link.1.piece :: link.2.pieces) d
      obtain ⟨target, complete, hok, hcompounds, hcombinators⟩ :=
        ih ((j.combinator, c) :: context) last' offset' d.compound
      refine ⟨target, complete, ?_, ?_, ?_⟩
      · rw [List.flatMap_cons, List.cons_append, assemble_joint]
        exact hconjunct.trans hok
      · simpa using hcompounds
      · simpa using hcombinators

end Assembly

/-- The normal form of a chain is read as what the chain stands for. -/
theorem exists_parseChars_chain (c : Chain) :
    ∃ target context, parseChars c.tight.chars = .ok (target, context) ∧
      (context.map (·.2)).reverse ++ [target] = c.conjuncts.map Conjunct.compound ∧
      (context.map (·.1)).reverse = c.combinators := by
  obtain ⟨first, rest⟩ := c
  obtain ⟨last, offset, hfirst⟩ := exists_assemble_conjunct [] 0 0
    (rest.flatMap fun link => link.1.piece :: link.2.pieces) first
  obtain ⟨target, context, hok, hcompounds, hcombinators⟩ :=
    exists_assemble_links [] last offset rest first.compound
  refine ⟨target, context, ?_, ?_, ?_⟩
  · rw [parseChars, pieces_chain]
    exact hfirst.trans hok
  · simpa [Chain.conjuncts, Function.comp_def] using hcompounds
  · simpa [Chain.combinators] using hcombinators

theorem weight_simples (ss : List Simple) :
    (ss.map Simple.weight).sum =
      100 * (ss.filterMap Simple.id?).length + 10 * (ss.filterMap Simple.class?).length := by
  induction ss with
  | nil => rfl
  | cons s ss ih =>
      cases s with
      | «class» name =>
          simp [List.filterMap_cons, Simple.class?, Simple.id?, Simple.weight, ih]
          omega
      | id name =>
          simp [List.filterMap_cons, Simple.class?, Simple.id?, Simple.weight, ih]
          omega

theorem specificity_compound (c : Conjunct) : c.compound.specificity = c.weight := by
  obtain ⟨head, simples, hnonempty⟩ := c
  simp only [Compound.specificity, Conjunct.compound, Conjunct.weight, weight_simples]
  rcases head with - | - | -
  all_goals simp [Nat.add_comm]

theorem specificity_eq_sum (s : Selector) :
    s.specificity = (s.compounds.map Compound.specificity).sum := by
  rw [specificity, List.sum_eq_foldl, List.foldl_map]

/-- A written selector is read as the compounds and combinators it stands for, one combinator fewer
than compounds, and counts a hundred for each id, ten for each class and one for each tag; the text
of the selector read is read as the same selector. -/
theorem parse_chain (c : Chain) (before after : Gap) :
    ∃ s, parse (String.ofList (before.chars ++ (c.chars ++ after.chars))) = .ok s ∧
      s.compounds = c.conjuncts.map Conjunct.compound ∧
      s.combinators = c.combinators ∧
      s.compounds.length = s.combinators.length + 1 ∧
      s.specificity = (c.conjuncts.map Conjunct.weight).sum ∧
      parse s.text = .ok s := by
  obtain ⟨target, context, hok, hcompounds, hcombinators⟩ := exists_parseChars_chain c
  have hread : ∀ text, normalChars text = c.tight.chars →
      parse (String.ofList text) = .ok ⟨String.ofList c.tight.chars, target, context⟩ := by
    intro text htext
    rw [parse, String.toList_ofList, htext, hok]
  have htight : normalChars c.tight.chars = c.tight.chars := by
    simpa [Gap.none] using normalChars_chain c.tight .none .none
  have hweights : (c.conjuncts.map Conjunct.compound).map Compound.specificity =
      c.conjuncts.map Conjunct.weight := by
    rw [List.map_map]
    exact List.map_congr_left fun d _ => specificity_compound d
  refine ⟨_, hread _ (normalChars_chain c before after), hcompounds, hcombinators,
    length_compounds _, ?_, hread _ htight⟩
  rw [specificity_eq_sum, compounds, hcompounds, hweights]

end ContrastAudit.Selector

import ContrastAudit.Proofs.Selector.Condition

/-!
# Conditions behind compounds

A condition that is written directly behind a compound is one more piece of the selector.  If it is
passed over, the selector is assembled from the same compounds as without it, and so it selects the
same elements; if it breaks, the selector is refused.

**Results.**
* `parse_insert`: what a condition does to any accepted selector, at any place.
-/

namespace ContrastAudit.Selector

/-! ## Places behind compounds -/

/-- Whether a piece joins compounds. -/
def Piece.Joins (p : Piece) : Prop :=
  ∃ c, p.meaning = .combinator c

/-- Between the two parts of a text a compound ends: its last piece is the last one of the first
part, and the second part is empty or starts with a combinator. -/
structure EndsCompound (front behind : List Char) : Prop where
  last : ∃ c, front.getLast? = some c ∧ Text.isBlank c = false
  between : ∃ before p after,
    (pieces (normalChars (front ++ behind))).1 = before ++ [p] ++ after ∧
      (before ++ [p]).flatMap Piece.chars = normalChars front ∧
      ¬ p.Joins ∧ ∀ q ∈ after.head?, q.Joins

section Place

variable {cs front behind : List Char} {m : Meaning} {n : Nat}

theorem joint_of_classify {c : Combinator} (h : classify cs = some (.combinator c, n)) :
    ∀ d ∈ cs.head?, d = ' ' ∨ isJoint d = true := by
  cases cs with
  | nil => contradiction
  | cons d cs =>
      rintro _ ⟨⟩
      by_contra hnot
      simp only [isJoint, not_or, Bool.or_eq_true, beq_iff_eq] at hnot
      obtain ⟨hblank, ⟨hchild, hplus⟩, htilde⟩ := hnot
      simp only [classify, if_neg hblank, if_neg hchild, if_neg (not_or.2 ⟨hplus, htilde⟩)] at h
      split_ifs at h <;> cases h

/-- A text whose first piece joins compounds starts with a blank or the sign of a combinator. -/
theorem joint_of_pieces (h : ∀ p ∈ (pieces cs).1.head?, p.Joins) (hrest : (pieces cs).2 = []) :
    ∀ d ∈ cs.head?, d = ' ' ∨ isJoint d = true := by
  cases hscan : scan cs with
  | none =>
      rw [pieces_of_scan_eq_none hscan] at hrest
      obtain rfl : cs = [] := hrest
      rintro d ⟨⟩
  | some read =>
      obtain ⟨p, rest⟩ := read
      rw [pieces_of_scan hscan] at h
      obtain ⟨c, hc⟩ := h p rfl
      obtain ⟨n, hclassify, -, -⟩ := exists_classify_of_scan hscan
      rw [hc] at hclassify
      exact joint_of_classify hclassify

theorem endsPiece_of_joint (h : ∀ d ∈ cs.head?, d = ' ' ∨ isJoint d = true) : EndsPiece cs := by
  cases cs with
  | nil => exact ⟨by rintro c ⟨⟩, by rintro c ⟨⟩⟩
  | cons d cs =>
      have hd := h d rfl
      simp only [isJoint, Bool.or_eq_true, beq_iff_eq, or_assoc] at hd
      rcases hd with rfl | rfl | rfl | rfl
      all_goals exact endsPiece_cons (by decide) (by decide) cs

/-- What is written behind a compound, in normal form. -/
def normalTail (behind : List Char) : List Char :=
  tighten false (collapse (Text.trimEnd behind))

/-- The normal form of a text is cut where a compound ends. -/
theorem EndsCompound.exists_cut (h : EndsCompound front behind)
    (hread : (pieces (normalChars (front ++ behind))).2 = []) :
    ∃ ps p qs, normalChars (front ++ behind) = normalChars front ++ normalTail behind ∧
      pieces (normalChars front) = (ps ++ [p], []) ∧ ¬ p.Joins ∧
      pieces (normalTail behind) = (qs, []) ∧ EndsPiece (normalTail behind) := by
  obtain ⟨⟨c, hlast, hc⟩, ps, p, qs, hpieces, hchars, hp, hqs⟩ := h
  have hnormal := normalChars_append hlast hc behind
  rw [hnormal] at hpieces hread
  obtain ⟨hfront, hbehind⟩ := pieces_of_cut hpieces hchars
  rw [hread] at hbehind
  have hjoint := joint_of_pieces (by rwa [hbehind]) (by rw [hbehind])
  have htail := tighten_collapse_trimEnd hjoint
  rw [htail] at hnormal hbehind hjoint
  exact ⟨ps, p, qs, hnormal, hfront, hp, hbehind, endsPiece_of_joint hjoint⟩

theorem EndsCompound.exists_normalChars {w : Condition} (h : EndsCompound front behind)
    (hw : w.IsWritten) :
    ∃ w' : Condition, w'.IsWritten ∧ (w'.IsShallow ↔ w.IsShallow) ∧ (w'.Breaks ↔ w.Breaks) ∧
      normalChars (front ++ (w.chars ++ behind)) =
        normalChars front ++ (w'.chars ++ normalTail behind) := by
  obtain ⟨c, hlast, hc⟩ := h.last
  obtain ⟨w', hw', hshallow, hbreaks, htighten⟩ := Condition.exists_tighten_collapse_chars hw
  refine ⟨w', hw', hshallow, hbreaks, ?_⟩
  rw [normalChars_append hlast hc, Condition.trimEnd_chars_append hw, htighten, normalTail]

end Place

/-! ## Assembly -/

section Assembly

variable {context complete : List (Combinator × Compound)} {current : Option Compound}
  {target : Compound} {last offset : Nat} {p : Piece} {ps qs : List Piece}

/-- The counts of characters matter for errors only. -/
theorem assemble_counts
    (h : assemble false context current last offset ps = .ok (target, complete))
    (last' offset' : Nat) :
    assemble false context current last' offset' ps = .ok (target, complete) := by
  have hcontext := assemble_context h [] last' offset'
  rwa [List.append_nil, List.append_nil] at hcontext

theorem assemble_part (hp : ¬ p.Joins) :
    assemble false context current last offset (p :: ps) =
      assemble false context (some (p.meaning.extend (current.getD {}))) offset
        (offset + p.chars.length) ps := by
  obtain ⟨meaning, chars⟩ := p
  cases meaning with
  | combinator c => exact absurd ⟨c, rfl⟩ hp
  | _ => rfl

/-- A piece without a meaning changes nothing behind a part of a compound. -/
theorem assemble_dropped (hp : ¬ p.Joins) (part : List Char)
    (h : assemble false context current last offset (ps ++ [p] ++ qs) = .ok (target, complete)) :
    assemble false context current last offset (ps ++ [p] ++ ⟨.dropped, part⟩ :: qs) =
      .ok (target, complete) := by
  have hdropped : ¬ Piece.Joins ⟨.dropped, part⟩ := by
    rintro ⟨c, hc⟩
    contradiction
  induction ps generalizing context current last offset with
  | nil =>
      rw [List.nil_append, List.singleton_append, assemble_part hp] at h ⊢
      rw [assemble_part hdropped]
      exact assemble_counts h _ _
  | cons q ps ih =>
      obtain ⟨meaning, chars⟩ := q
      cases meaning with
      | combinator c =>
          cases current with
          | none => contradiction
          | some left => exact ih h
      | _ => exact ih h

end Assembly

section Insertion

variable {front behind : List Char} {s : Selector} {w : Condition}

theorem same_of_target_context {t : Selector} (htarget : t.target = s.target)
    (hcontext : t.context = s.context) :
    t.compounds = s.compounds ∧ t.combinators = s.combinators ∧ t.specificity = s.specificity ∧
      ∀ lineage, t.applies lineage = s.applies lineage := by
  have hcompounds : t.compounds = s.compounds := by rw [compounds, compounds, htarget, hcontext]
  refine ⟨hcompounds, by rw [combinators, combinators, hcontext], ?_, fun lineage => ?_⟩
  · rw [specificity, specificity, hcompounds]
  · cases lineage with
    | nil => rfl
    | cons f above => rw [applies, applies, htarget, hcontext]

/-- With a condition directly behind one of its compounds, a selector is still read if no argument
nests parentheses more than once and no text holds a closing bracket; it has the same compounds,
combinators and specificity and applies to the same elements.  If the condition breaks, the selector
is refused. -/
theorem parse_insert (hs : parse (String.ofList (front ++ behind)) = .ok s)
    (hplace : EndsCompound front behind) (hw : w.IsWritten) :
    (w.IsShallow → ∃ t, parse (String.ofList (front ++ (w.chars ++ behind))) = .ok t ∧
        t.compounds = s.compounds ∧ t.combinators = s.combinators ∧
        t.specificity = s.specificity ∧ ∀ lineage, t.applies lineage = s.applies lineage) ∧
      (w.Breaks → ∀ t, parse (String.ofList (front ++ (w.chars ++ behind))) ≠ .ok t) := by
  obtain ⟨-, hread⟩ := parse_eq_ok_iff.1 hs
  rw [String.toList_ofList] at hread
  obtain ⟨hrest, hok⟩ := parseChars_eq_ok hread
  obtain ⟨ps, p, qs, hnormal, hfront, hp, hbehind, hends⟩ := hplace.exists_cut hrest
  -- blanks in the condition are collapsed, which leaves a condition of the same shape
  obtain ⟨w', hw', hshallow, hbreaks, hinsert⟩ := hplace.exists_normalChars hw
  have hpieces := pieces_append_of_endsPiece (congrArg Prod.snd hfront)
    (w'.endsPiece_chars_append (normalTail behind))
  rw [hfront] at hpieces
  refine ⟨fun h => ?_, fun h t ht => ?_⟩
  · rw [pieces_of_scan (w'.scan_chars hw' (hshallow.2 h) hends), hbehind] at hpieces
    have hsame : (pieces (normalChars (front ++ behind))).1 = ps ++ [p] ++ qs := by
      rw [hnormal, pieces_append_of_endsPiece (congrArg Prod.snd hfront) hends, hfront, hbehind]
    rw [hsame] at hok
    have hparse : parseChars (normalChars (front ++ (w.chars ++ behind))) =
        .ok (s.target, s.context) := by
      rw [hinsert, parseChars, hpieces]
      exact assemble_dropped hp w'.chars hok
    have ht : parse (String.ofList (front ++ (w.chars ++ behind))) =
        .ok ⟨String.ofList (normalChars (front ++ (w.chars ++ behind))), s.target, s.context⟩ := by
      apply parse_eq_ok_iff.2
      rw [String.toList_ofList]
      exact ⟨rfl, hparse⟩
    exact ⟨_, ht, same_of_target_context rfl rfl⟩
  · obtain ⟨-, hparse⟩ := parse_eq_ok_iff.1 ht
    rw [String.toList_ofList, hinsert] at hparse
    obtain ⟨hstuck, -⟩ := parseChars_eq_ok hparse
    rw [hpieces] at hstuck
    exact w'.pieces_of_breaks hw' (hbreaks.2 h) _ hstuck

end Insertion

/-- The links in an item that is neither hidden nor the last one. -/
theorem parse_insert_item :
    parse (String.ofList (['l', 'i'] ++ [' ', '>', ' ', 'a'])) =
        .ok ⟨"li>a", { tag := some "a" }, [(.child, { tag := some "li" })]⟩ ∧
      EndsCompound ['l', 'i'] [' ', '>', ' ', 'a'] ∧
      (Condition.pseudo "not".toList (some ".hidden, :nth-last-child( 1 )".toList)).IsWritten ∧
      ∃ t, parse (String.ofList (['l', 'i'] ++
          ((Condition.pseudo "not".toList (some ".hidden, :nth-last-child( 1 )".toList)).chars ++
            [' ', '>', ' ', 'a']))) = .ok t ∧
        t.compounds = [{ tag := some "li" }, { tag := some "a" }] := by
  have hs : parse (String.ofList (['l', 'i'] ++ [' ', '>', ' ', 'a'])) =
      .ok ⟨"li>a", { tag := some "a" }, [(.child, { tag := some "li" })]⟩ := by
    decide +kernel
  have hplace : EndsCompound ['l', 'i'] [' ', '>', ' ', 'a'] := by
    refine ⟨⟨'i', rfl, by decide⟩, [], ⟨.tag "li", ['l', 'i']⟩,
      [⟨.combinator .child, ['>']⟩, ⟨.tag "a", ['a']⟩], by decide +kernel, by decide +kernel,
      ?_, ?_⟩
    · rintro ⟨c, hc⟩
      contradiction
    · rintro _ ⟨⟩
      exact ⟨.child, rfl⟩
  have hw : (Condition.pseudo "not".toList
      (some ".hidden, :nth-last-child( 1 )".toList)).IsWritten := by
    decide +kernel
  obtain ⟨t, ht, hcompounds, -⟩ := (parse_insert hs hplace hw).1 (by decide +kernel)
  exact ⟨hs, hplace, hw, t, ht, hcompounds⟩

/-- A selector with an argument that nests parentheses twice is refused. -/
theorem not_forall_parse_insert :
    ¬ ∀ (front behind : List Char) (s : Selector) (w : Condition),
      parse (String.ofList (front ++ behind)) = .ok s → EndsCompound front behind →
      w.IsWritten → '"' ∉ w.inside ∧ '\'' ∉ w.inside ∧ '\\' ∉ w.inside →
      ∃ t, parse (String.ofList (front ++ (w.chars ++ behind))) = .ok t ∧
        t.specificity = s.specificity ∧ ∀ lineage, t.applies lineage = s.applies lineage := by
  intro h
  have hplace : EndsCompound ['a'] [] := by
    refine ⟨⟨'a', rfl, by decide⟩, [], ⟨.tag "a", ['a']⟩, [], by decide +kernel, by decide +kernel,
      ?_, ?_⟩
    · rintro ⟨c, hc⟩
      contradiction
    · rintro _ ⟨⟩
  have hs : parse (String.ofList (['a'] ++ [])) = .ok ⟨"a", { tag := some "a" }, []⟩ := by
    decide +kernel
  obtain ⟨t, ht, -⟩ := h _ _ _ (.pseudo "not".toList (some ":is(:has(b))".toList)) hs hplace
    (by decide +kernel) (by decide +kernel)
  have herror : (parse (String.ofList (['a'] ++
      ((Condition.pseudo "not".toList (some ":is(:has(b))".toList)).chars ++ [])))).toOption =
        none := by
    decide +kernel
  rw [ht] at herror
  contradiction

end ContrastAudit.Selector

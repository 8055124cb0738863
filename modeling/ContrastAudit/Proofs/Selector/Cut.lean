import ContrastAudit.Proofs.Selector.Joining

/-!
# Cuts between pieces

A piece is read without a look at what follows it, so a text that is cut behind one of its pieces
has the same pieces on both sides of the cut.

**Results.**
* `pieces_of_cut`: the pieces of the whole are those in front of the cut and those behind it.
-/

namespace ContrastAudit.Selector

section Lengths

variable {cs ds : List Char}

theorem takeWhile_of_append {p : Char → Bool}
    (h : ((cs ++ ds).takeWhile p).length ≤ cs.length) :
    cs.takeWhile p = (cs ++ ds).takeWhile p := by
  rw [List.takeWhile_append] at h ⊢
  split at h
  · next hall =>
      rw [List.length_append] at h
      have hnone : ds.takeWhile p = [] := List.length_eq_zero_iff.1 (by omega)
      rw [if_pos hall, hnone, List.append_nil,
        (List.takeWhile_prefix p).eq_of_length hall]
  · next hall => rw [if_neg hall]

theorem tagLength_of_append (h : tagLength (cs ++ ds) ≤ cs.length)
    (hne : tagLength (cs ++ ds) ≠ 0) : tagLength cs = tagLength (cs ++ ds) := by
  cases cs with
  | nil => exact absurd (Nat.le_zero.1 h) hne
  | cons c cs =>
      by_cases hhyphen : c = '-'
      · subst hhyphen
        cases cs with
        | nil =>
            cases ds with
            | nil => rfl
            | cons d ds =>
                rw [List.singleton_append, tagLength] at h hne
                split_ifs at h hne
                · simp at h
                  omega
                · exact absurd rfl hne
        | cons c cs =>
            rw [List.cons_append, List.cons_append, tagLength] at h hne ⊢
            split_ifs at h hne ⊢ with hc
            · rw [tagLength, if_pos hc, takeWhile_of_append]
              simp only [List.length_cons] at h
              omega
            · exact absurd rfl hne
      · have hplain : ∀ es, tagLength (c :: es) =
            if Text.isNameStart c then 1 + (es.takeWhile Text.isNameChar).length else 0 := by
          intro es
          rw [tagLength]
          rintro d es' rfl
          exact absurd rfl hhyphen
        rw [List.cons_append, hplain] at h hne ⊢
        rw [hplain]
        split_ifs at h hne ⊢
        · rw [takeWhile_of_append]
          simp only [List.length_cons] at h
          omega
        · rfl

theorem nameLength_of_append (h : nameLength (cs ++ ds) ≤ cs.length) :
    nameLength cs = nameLength (cs ++ ds) := by
  fun_induction nameLength cs with
  | case1 => exact (Nat.le_zero.1 h).symm
  | case2 cs => rfl
  | case3 d cs hd ih =>
      rw [List.cons_append, List.cons_append, nameLength, if_neg hd] at h ⊢
      simp only [List.length_cons] at h
      rw [ih (by omega)]
  | case4 c cs hslash hc ih =>
      have hchar : nameLength (c :: (cs ++ ds)) = 1 + nameLength (cs ++ ds) := by
        rw [nameLength, if_pos hc]
        rintro d es rfl
        exact absurd hc (by decide)
      rw [List.cons_append, hchar, List.length_cons] at h
      rw [List.cons_append, hchar, ih (by omega)]
  | case5 c cs hslash hc =>
      rw [List.cons_append] at h ⊢
      cases cs with
      | cons d cs =>
          rw [List.cons_append, nameLength, if_neg hc]
          intro d' es hc' _
          exact hslash d cs hc' rfl
      | nil =>
          cases hes : ([] ++ ds : List Char) with
          | nil => simp [nameLength, hc]
          | cons d es =>
              by_cases hbackslash : c = '\\'
              · subst hbackslash
                rw [hes, nameLength] at h
                rw [nameLength]
                split_ifs at h ⊢
                · rfl
                · simp at h
                  omega
              · rw [nameLength, if_neg hc]
                intro d' es' hc'
                exact absurd hc' hbackslash

theorem bracketLength_of_append (h : bracketLength (cs ++ ds) ≤ cs.length)
    (hne : bracketLength (cs ++ ds) ≠ 0) : bracketLength cs = bracketLength (cs ++ ds) := by
  have hlength : bracketLength (cs ++ ds) = ((cs ++ ds).takeWhile (· != ']')).length + 1 := by
    simp only [bracketLength] at hne ⊢
    split_ifs at hne ⊢
    · rfl
    · exact absurd rfl hne
  have hinside := @takeWhile_of_append cs ds (· != ']') (by omega)
  rw [hlength, bracketLength, hinside, if_pos (by omega)]

theorem argumentLength_of_append {nested : Bool}
    (h : argumentLength nested (cs ++ ds) ≤ cs.length) :
    argumentLength nested cs = argumentLength nested (cs ++ ds) := by
  have more_le : ∀ {n m : Nat}, (if n = 0 then 0 else n + 1) ≤ m + 1 → n ≤ m := by
    intro n m hn
    split_ifs at hn <;> omega
  induction cs generalizing nested with
  | nil => exact (Nat.le_zero.1 h).symm
  | cons c cs ih =>
      rw [List.cons_append, argumentLength, List.length_cons] at h
      rw [List.cons_append, argumentLength, argumentLength]
      split_ifs at h ⊢
      · simp only [ih (more_le h)]
      · rfl
      · rfl
      · simp only [ih (more_le h)]
      · simp only [ih (more_le h)]

theorem argument_of_append (h : argument (cs ++ ds) ≤ cs.length) :
    argument cs = argument (cs ++ ds) := by
  cases cs with
  | nil => exact (Nat.le_zero.1 h).symm
  | cons c cs =>
      by_cases hc : c = '('
      · subst hc
        have hlength : argumentLength false cs = argumentLength false (cs ++ ds) := by
          apply argumentLength_of_append
          rw [List.cons_append, argument] at h
          split_ifs at h
          · omega
          · simp only [List.length_cons] at h
            omega
        rw [List.cons_append, argument, argument, hlength]
      · have hnone : ∀ es, argument (c :: es) = 0 := by
          intro es
          rw [argument]
          rintro es' heq
          exact hc (List.cons.inj heq).1
        rw [List.cons_append, hnone, hnone]

theorem pseudoLength_of_append (h : pseudoLength (cs ++ ds) ≤ cs.length)
    (hne : pseudoLength (cs ++ ds) ≠ 0) : pseudoLength cs = pseudoLength (cs ++ ds) := by
  have hnonzero : ¬(colons (cs ++ ds) = 0 ∨ pseudoName (cs ++ ds) = 0) := by
    intro hzero
    rw [pseudoLength_eq, if_pos hzero] at hne
    exact hne rfl
  rw [pseudoLength_eq, if_neg hnonzero] at h
  obtain ⟨hcolons, hname⟩ := not_or.1 hnonzero
  have hsame : colons cs = colons (cs ++ ds) := by
    match cs with
    | [] =>
        rw [List.length_nil] at h
        omega
    | [c] =>
        rw [List.length_singleton] at h
        omega
    | c :: c' :: cs => rfl
  have hdrop : (cs ++ ds).drop (colons cs) = cs.drop (colons cs) ++ ds :=
    List.drop_append_of_le_length (colons_le cs)
  have hsameName : pseudoName cs = pseudoName (cs ++ ds) := by
    rw [pseudoName, pseudoName, ← hsame, hdrop]
    congr 1
    apply takeWhile_of_append
    rw [← hdrop, List.length_drop, hsame, ← pseudoName]
    omega
  have hdrop' : (cs ++ ds).drop (colons cs + pseudoName cs) =
      cs.drop (colons cs + pseudoName cs) ++ ds :=
    List.drop_append_of_le_length (colons_add_pseudoName_le cs)
  have hsameArgument : argument (cs.drop (colons cs + pseudoName cs)) =
      argument (cs.drop (colons cs + pseudoName cs) ++ ds) := by
    apply argument_of_append
    rw [← hdrop', List.length_drop, hsame, hsameName]
    omega
  rw [pseudoLength_eq, pseudoLength_eq, if_neg hnonzero, hsame, hsameName, if_neg hnonzero,
    ← hsame, ← hsameName, hdrop', hsameArgument]

/-- A piece that ends in front of a cut is the same without what follows the cut. -/
theorem classify_of_append {m : Meaning} {n : Nat} (h : classify (cs ++ ds) = some (m, n))
    (hn : n ≠ 0) (hle : n ≤ cs.length) : classify cs = some (m, n) := by
  cases cs with
  | nil => exact absurd (Nat.le_zero.1 hle) hn
  | cons c cs =>
      rw [List.length_cons] at hle
      rw [List.cons_append] at h
      by_cases hsingle : c ∈ [' ', '>', '+', '~', '*']
      · obtain ⟨m', hsame⟩ := exists_classify_of_mem hsingle
        rw [hsame] at h ⊢
        exact h
      have named : ∀ {sign : Char} {meaning : String → Meaning}, (∀ cs, classify (sign :: cs) =
          some (meaning (String.ofList (unescape (cs.take (nameLength cs)))),
            if nameLength cs = 0 then 0 else nameLength cs + 1)) →
          classify (sign :: (cs ++ ds)) = some (m, n) → classify (sign :: cs) = some (m, n) := by
        intro sign meaning hsign h
        rw [hsign, Option.some.injEq, Prod.mk.injEq] at h
        obtain ⟨rfl, hlength⟩ := h
        have hne : nameLength (cs ++ ds) ≠ 0 := fun hzero => hn (by rw [← hlength, if_pos hzero])
        rw [if_neg hne] at hlength
        have hsame : nameLength cs = nameLength (cs ++ ds) := nameLength_of_append (by omega)
        rw [hsign, ← hlength, ← hsame, if_neg (hsame ▸ hne),
          List.take_append_of_le_length (nameLength_le cs)]
      by_cases hsign : c ∈ ['.', '#', '[', ':']
      · simp only [List.mem_cons, List.not_mem_nil, or_false] at hsign
        rcases hsign with rfl | rfl | rfl | rfl
        · exact named (fun _ => rfl) h
        · exact named (fun _ => rfl) h
        · have hclassify : ∀ es, classify ('[' :: es) =
              some (.dropped, if bracketLength es = 0 then 0 else bracketLength es + 1) :=
            fun _ => rfl
          rw [hclassify, Option.some.injEq, Prod.mk.injEq] at h
          obtain ⟨rfl, hlength⟩ := h
          have hne : bracketLength (cs ++ ds) ≠ 0 :=
            fun hzero => hn (by rw [← hlength, if_pos hzero])
          rw [if_neg hne] at hlength
          rw [hclassify, bracketLength_of_append (by omega) hne, if_neg hne, hlength]
        · have hclassify : ∀ es, classify (':' :: es) =
              some (.dropped, pseudoLength (':' :: es)) := fun _ => rfl
          rw [hclassify] at h ⊢
          cases h
          rw [← List.cons_append] at hn hle
          rw [pseudoLength_of_append hle hn]
          rfl
      · have hother : c ∉ [' ', '>', '+', '~', '*', '.', '#', '[', ':'] :=
          List.not_mem_append hsingle hsign
        rw [classify_of_not_mem hother] at h ⊢
        cases h
        rw [← List.cons_append] at hn hle ⊢
        rw [tagLength_of_append hle hn, List.take_append_of_le_length]
        exact hle

end Lengths

section Pieces

variable {cs ds rest : List Char} {p : Piece} {ps qs : List Piece}

theorem scan_of_append (h : scan (p.chars ++ (cs ++ ds)) = some (p, cs ++ ds)) :
    scan (p.chars ++ cs) = some (p, cs) := by
  obtain ⟨n, hclassify, hchars, hrest⟩ := exists_classify_of_scan h
  have hwhole : n + 1 ≤ (p.chars ++ (cs ++ ds)).length := by
    by_contra hlt
    have hnone : (p.chars ++ (cs ++ ds)).drop (n + 1) = [] := List.drop_eq_nil_iff.2 (by omega)
    have hclosed : IsClosed ((p.chars ++ (cs ++ ds)).drop (n + 1)) := by
      rw [hnone]
      exact ⟨List.cons_ne_nil _ _ |>.symm, by rintro c ⟨⟩⟩
    have hend : EndsPiece [] := ⟨by rintro c ⟨⟩, by rintro c ⟨⟩⟩
    exact hlt (keeps_of_classify hclassify (Nat.succ_ne_zero n) hclosed hend).le_length
  have hlength : p.chars.length = n + 1 := by
    rw [hchars, List.length_take, Nat.min_eq_left hwhole]
  have hne : p.chars ≠ [] := by
    rintro hnil
    rw [hnil] at hlength
    contradiction
  rw [← List.append_assoc] at hclassify
  apply scan_append hne
  rw [hlength]
  exact classify_of_append hclassify (Nat.succ_ne_zero n) (by
    rw [List.length_append]
    omega)

/-- A text that is cut behind some of its pieces has these pieces in front of the cut and the others
behind it. -/
theorem pieces_of_cut (h : (pieces (cs ++ ds)).1 = ps ++ qs)
    (hcs : ps.flatMap Piece.chars = cs) :
    pieces cs = (ps, []) ∧ pieces ds = (qs, (pieces (cs ++ ds)).2) := by
  induction ps generalizing cs with
  | nil =>
      obtain rfl : [] = cs := hcs
      refine ⟨pieces_nil, ?_⟩
      rw [List.nil_append] at h ⊢
      rw [← List.nil_append qs, ← h]
  | cons p ps ih =>
      obtain rfl := hcs
      cases hscan : scan ((p :: ps).flatMap Piece.chars ++ ds) with
      | none =>
          rw [pieces_of_scan_eq_none hscan] at h
          contradiction
      | some read =>
          obtain ⟨p', rest⟩ := read
          rw [pieces_of_scan hscan] at h ⊢
          obtain ⟨rfl, hrest⟩ := List.cons.inj h
          have hsplit := append_of_scan hscan
          rw [List.flatMap_cons, List.append_assoc, List.append_cancel_left_eq] at hsplit
          subst hsplit
          rw [List.flatMap_cons, List.append_assoc] at hscan
          obtain ⟨hfront, hbehind⟩ := ih hrest rfl
          refine ⟨?_, hbehind⟩
          rw [List.flatMap_cons, pieces_of_scan (scan_of_append hscan), hfront]

end Pieces

end ContrastAudit.Selector

import ContrastAudit.Text.Cut

/-!
# Pieces of a text

The pieces between the occurrences of a separator do not hold it, and there is one more of them than
there are occurrences.

**Results.**
* `pieces_append`: a separator cuts the pieces of a text in two.
* `pieces_flatMap_terminated`: a text whose lines are terminated has the pieces of its lines for
  lines.
-/

namespace ContrastAudit.Text

section Pieces

variable {sep : Char} {text piece : List Char}

theorem not_mem_of_mem_pieces (h : piece ∈ pieces sep text) : sep ∉ piece := by
  induction text generalizing piece with
  | nil =>
      cases List.mem_singleton.1 h
      simp
  | cons c cs ih =>
      rw [pieces] at h
      split at h
      · rcases List.mem_cons.1 h with rfl | h
        · simp
        · exact ih h
      · next hc =>
          split at h
          · cases List.mem_singleton.1 h
            simpa using Ne.symm hc
          · next first rest hp =>
              rw [hp] at ih
              rcases List.mem_cons.1 h with rfl | h
              · rw [List.mem_cons, not_or]
                exact ⟨Ne.symm hc, ih List.mem_cons_self⟩
              · exact ih (List.mem_cons_of_mem _ h)

theorem infix_of_mem_pieces (h : piece ∈ pieces sep text) : piece <:+: text := by
  rw [← join_pieces sep text]
  generalize pieces sep text = ps at h
  induction ps with
  | nil => simp at h
  | cons p ps ih =>
      cases ps with
      | nil =>
          cases List.mem_singleton.1 h
          exact List.infix_refl _
      | cons q qs =>
          have joined : join sep (p :: q :: qs) = p ++ sep :: join sep (q :: qs) := rfl
          rw [joined]
          rcases List.mem_cons.1 h with rfl | h
          · exact (List.prefix_append _ _).isInfix
          · exact (ih h).trans ((List.suffix_cons _ _).trans (List.suffix_append _ _)).isInfix

@[simp] theorem pieces_cons_self (sep : Char) (text : List Char) :
    pieces sep (sep :: text) = [] :: pieces sep text := by
  rw [pieces, if_pos rfl]

/-- Another character belongs to the first piece. -/
theorem pieces_cons_of_ne {c : Char} (h : c ≠ sep) (text : List Char) :
    pieces sep (c :: text) = (pieces sep text).modifyHead (c :: ·) := by
  rw [pieces, if_neg h]
  cases hp : pieces sep text with
  | nil => exact absurd hp (pieces_ne_nil sep text)
  | cons piece rest => rfl

theorem pieces_of_not_mem (h : sep ∉ text) : pieces sep text = [text] := by
  induction text with
  | nil => rfl
  | cons c cs ih =>
      obtain ⟨hc, hcs⟩ := not_or.1 (mt List.mem_cons.2 h)
      rw [pieces_cons_of_ne (Ne.symm hc), ih hcs]
      rfl

/-- A separator cuts the pieces of a text in two. -/
theorem pieces_append (sep : Char) (front text : List Char) :
    pieces sep (front ++ sep :: text) = pieces sep front ++ pieces sep text := by
  induction front with
  | nil => exact pieces_cons_self sep text
  | cons c cs ih =>
      rw [List.cons_append]
      by_cases hc : c = sep
      · subst hc
        rw [pieces_cons_self, pieces_cons_self, ih]
        rfl
      · rw [pieces_cons_of_ne hc, pieces_cons_of_ne hc, ih]
        cases hp : pieces sep cs with
        | nil => exact absurd hp (pieces_ne_nil sep cs)
        | cons piece rest => rfl

/-- There is one more piece than there are separators. -/
theorem length_pieces (sep : Char) (text : List Char) :
    (pieces sep text).length = text.count sep + 1 := by
  induction text with
  | nil => rfl
  | cons c cs ih =>
      by_cases hc : c = sep
      · subst hc
        rw [pieces_cons_self, List.length_cons, ih, List.count_cons_self]
      · rw [pieces_cons_of_ne hc, List.length_modifyHead, ih, List.count_cons_of_ne hc]

/-- Texts with a separator behind each of them have their own pieces, and an empty one at last. -/
theorem pieces_flatMap_terminated (sep : Char) (texts : List (List Char)) :
    pieces sep (texts.flatMap (· ++ [sep])) = texts.flatMap (pieces sep) ++ [[]] := by
  induction texts with
  | nil => rfl
  | cons text texts ih =>
      rw [List.flatMap_cons, List.flatMap_cons, List.append_assoc, List.singleton_append,
        pieces_append, ih, List.append_assoc]

theorem mem_join {c : Char} {texts : List (List Char)} (h : c ∈ join sep texts) :
    c = sep ∨ ∃ text ∈ texts, c ∈ text := by
  induction texts with
  | nil => exact absurd h List.not_mem_nil
  | cons text texts ih =>
      cases texts with
      | nil => exact .inr ⟨text, List.mem_cons_self, h⟩
      | cons next rest =>
          have joined : join sep (text :: next :: rest) = text ++ sep :: join sep (next :: rest) :=
            rfl
          rw [joined, List.mem_append, List.mem_cons] at h
          rcases h with h | h | h
          · exact .inr ⟨text, List.mem_cons_self, h⟩
          · exact .inl h
          · refine (ih h).imp_right fun ⟨other, hother, hc⟩ => ?_
            exact ⟨other, List.mem_cons_of_mem _ hother, hc⟩

/-- Texts without the separator are the pieces of what is joined of them. -/
theorem pieces_join {texts : List (List Char)} (h : ∀ text ∈ texts, sep ∉ text)
    (hne : texts ≠ []) : pieces sep (join sep texts) = texts := by
  induction texts with
  | nil => exact absurd rfl hne
  | cons text texts ih =>
      obtain ⟨htext, htexts⟩ := List.forall_mem_cons.1 h
      cases texts with
      | nil => exact pieces_of_not_mem htext
      | cons next rest =>
          have joined : join sep (text :: next :: rest) = text ++ sep :: join sep (next :: rest) :=
            rfl
          rw [joined, pieces_append, pieces_of_not_mem htext, ih htexts (List.cons_ne_nil _ _)]
          rfl

end Pieces

end ContrastAudit.Text

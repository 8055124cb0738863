import Mathlib.Data.List.Infix
import ContrastAudit.Text.Cut
import ContrastAudit.Text.Newline

/-!
# Lines that end with a carriage return

A text with a carriage return in front of every line feed has the same lines.  What does not tell a
carriage return from a line feed cuts it at the same places.

**Results.**
* `unifyLines_withReturns`: a text with carriage returns is read from a file as it was before.
* `count_withReturns`: it has as many lines.
* `dropWhile_withReturns`, `rest?_withReturns`: scanning it leads to the same places.
-/

namespace ContrastAudit.Text

/-- A text with a carriage return in front of every line feed. -/
def withReturns (cs : List Char) : List Char :=
  cs.flatMap fun c => if c = '\n' then ['\r', '\n'] else [c]

section Returns

variable {c : Char} {cs ds : List Char}

@[simp] theorem withReturns_nil : withReturns [] = [] :=
  rfl

@[simp] theorem withReturns_newline (cs : List Char) :
    withReturns ('\n' :: cs) = '\r' :: '\n' :: withReturns cs :=
  rfl

theorem withReturns_cons (hc : c ≠ '\n') (cs : List Char) :
    withReturns (c :: cs) = c :: withReturns cs := by
  rw [withReturns, List.flatMap_cons, if_neg hc]
  rfl

@[simp] theorem withReturns_append (cs ds : List Char) :
    withReturns (cs ++ ds) = withReturns cs ++ withReturns ds :=
  List.flatMap_append

theorem withReturns_eq_nil_iff : withReturns cs = [] ↔ cs = [] := by
  cases cs with
  | nil => simp
  | cons c cs =>
      by_cases hc : c = '\n'
      · simp [hc]
      · simp [withReturns_cons hc]

theorem withReturns_of_not_mem (h : '\n' ∉ cs) : withReturns cs = cs := by
  induction cs with
  | nil => rfl
  | cons c cs ih =>
      rw [List.mem_cons, not_or] at h
      rw [withReturns_cons (Ne.symm h.1), ih h.2]

theorem length_withReturns (cs : List Char) :
    (withReturns cs).length = cs.length + cs.count '\n' := by
  induction cs with
  | nil => rfl
  | cons c cs ih =>
      by_cases hc : c = '\n'
      · subst hc
        rw [withReturns_newline, List.count_cons_self]
        simp only [List.length_cons, ih]
        omega
      · rw [withReturns_cons hc, List.count_cons_of_ne hc]
        simp only [List.length_cons, ih]
        omega

theorem withReturns_eq_self_iff : withReturns cs = cs ↔ '\n' ∉ cs := by
  refine ⟨fun h => ?_, withReturns_of_not_mem⟩
  have hlength := length_withReturns cs
  rw [h] at hlength
  rw [← List.count_eq_zero]
  omega

/-- No lines are added. -/
theorem count_withReturns (cs : List Char) : (withReturns cs).count '\n' = cs.count '\n' := by
  induction cs with
  | nil => rfl
  | cons c cs ih =>
      by_cases hc : c = '\n'
      · subst hc
        rw [withReturns_newline, List.count_cons_of_ne (by decide), List.count_cons_self,
          List.count_cons_self, ih]
      · rw [withReturns_cons hc, List.count_cons_of_ne hc, List.count_cons_of_ne hc, ih]

/-- Reading a file takes the carriage returns away again. -/
theorem unifyLines_withReturns (h : '\r' ∉ cs) : unifyLines (withReturns cs) = cs := by
  induction cs with
  | nil => rfl
  | cons c cs ih =>
      rw [List.mem_cons, not_or] at h
      by_cases hc : c = '\n'
      · rw [hc, withReturns_newline, unifyLines, ih h.2]
      · rw [withReturns_cons hc, unifyLines, ih h.2]
        · rintro _ rfl
          exact absurd rfl h.1
        · rintro rfl
          exact h.1 rfl

theorem withReturns_inj (hcs : '\r' ∉ cs) (hds : '\r' ∉ ds) :
    withReturns cs = withReturns ds ↔ cs = ds := by
  refine ⟨fun h => ?_, congrArg withReturns⟩
  rw [← unifyLines_withReturns hcs, h, unifyLines_withReturns hds]

section Scanning

variable {p : Char → Bool} (hp : p '\r' = p '\n')
include hp

theorem dropWhile_withReturns (cs : List Char) :
    (withReturns cs).dropWhile p = withReturns (cs.dropWhile p) := by
  induction cs with
  | nil => rfl
  | cons c cs ih =>
      by_cases hc : c = '\n'
      · subst hc
        rw [withReturns_newline, List.dropWhile_cons, List.dropWhile_cons, List.dropWhile_cons, hp]
        split
        · exact ih
        · rfl
      · rw [withReturns_cons hc, List.dropWhile_cons, List.dropWhile_cons]
        split
        · exact ih
        · rw [withReturns_cons hc]

theorem takeWhile_withReturns (cs : List Char) :
    (withReturns cs).takeWhile p = withReturns (cs.takeWhile p) := by
  induction cs with
  | nil => rfl
  | cons c cs ih =>
      by_cases hc : c = '\n'
      · subst hc
        rw [withReturns_newline, List.takeWhile_cons, List.takeWhile_cons, List.takeWhile_cons, hp]
        split
        · rw [ih, withReturns_newline]
        · rfl
      · rw [withReturns_cons hc, List.takeWhile_cons, List.takeWhile_cons]
        split
        · rw [ih, withReturns_cons hc]
        · rfl

end Scanning

theorem rest?_nil (cs : List Char) : rest? [] cs = some cs :=
  rfl

theorem rest?_cons (a : Char) (front : List Char) (c : Char) (cs : List Char) :
    rest? (a :: front) (c :: cs) = if a = c then rest? front cs else none := by
  rw [rest?, rest?, List.isPrefixOf_cons_cons]
  by_cases hac : a = c
  · simp [hac]
  · simp [hac]

/-- A text that starts with a word starts with it in front of carriage returns as well. -/
theorem rest?_withReturns {word : List Char} (hreturn : '\r' ∉ word) (hnewline : '\n' ∉ word)
    (cs : List Char) : rest? word (withReturns cs) = (rest? word cs).map withReturns := by
  induction word generalizing cs with
  | nil => rfl
  | cons a word ih =>
      rw [List.mem_cons, not_or] at hreturn hnewline
      cases cs with
      | nil => rfl
      | cons c cs =>
          by_cases hc : c = '\n'
          · rw [hc, withReturns_newline, rest?_cons, rest?_cons, if_neg (Ne.symm hreturn.1),
              if_neg (Ne.symm hnewline.1)]
            rfl
          · rw [withReturns_cons hc, rest?_cons, rest?_cons]
            split
            · exact ih hreturn.2 hnewline.2 cs
            · rfl

/-- A text that ends with a word ends with it behind carriage returns as well. -/
theorem suffix_withReturns_iff {word : List Char} (hreturn : '\r' ∉ word) (hnewline : '\n' ∉ word) :
    word <:+ withReturns cs ↔ word <:+ cs := by
  constructor
  · intro h
    induction cs with
    | nil => exact h
    | cons c cs ih =>
        by_cases hc : c = '\n'
        · rw [hc, withReturns_newline, List.suffix_cons_iff, List.suffix_cons_iff] at h
          rcases h with rfl | rfl | h
          · exact absurd List.mem_cons_self hreturn
          · exact absurd List.mem_cons_self hnewline
          · exact (ih h).trans (List.suffix_cons c cs)
        · rw [withReturns_cons hc, List.suffix_cons_iff] at h
          rcases h with rfl | h
          · have hcs : '\n' ∉ cs := by
              intro hmem
              have hcount : 0 < (withReturns cs).count '\n' := by
                rwa [count_withReturns, List.count_pos_iff]
              exact hnewline (List.mem_cons_of_mem c (List.count_pos_iff.1 hcount))
            rw [withReturns_of_not_mem hcs]
          · exact (ih h).trans (List.suffix_cons c cs)
  · rintro ⟨front, rfl⟩
    rw [withReturns_append, withReturns_of_not_mem hnewline]
    exact List.suffix_append _ _

end Returns

end ContrastAudit.Text

import Mathlib.Data.List.DropRight
import ContrastAudit.Text.Blank
import ContrastAudit.Text.Range

/-!
# Trimmed texts

A text is trimmed if it is not empty and neither starts nor ends with a blank.

**Results.**
* `IsTrimmed.trim_between`: trimming takes blanks away from around a trimmed text.
* `IsTrimmed.append`: a text that starts and ends with trimmed texts is trimmed.
-/

namespace ContrastAudit.Text

theorem isBlank_of_isNameChar {c : Char} (h : isNameChar c = true) : isBlank c = false := by
  have hrange := toNat_of_isNameChar h
  simp only [isBlank, Bool.or_eq_false_iff, Bool.and_eq_false_iff, decide_eq_false_iff_not,
    beq_eq_false_iff_ne]
  omega

/-- A text that is not empty and has no blanks at its ends. -/
structure IsTrimmed (t : List Char) : Prop where
  ne_nil : t ≠ []
  trim_eq : trim t = t

instance (t : List Char) : Decidable (IsTrimmed t) :=
  decidable_of_iff (t ≠ [] ∧ trim t = t) ⟨fun h => ⟨h.1, h.2⟩, fun h => ⟨h.ne_nil, h.trim_eq⟩⟩

theorem trimStart_eq_self_iff {t : List Char} :
    trimStart t = t ↔ ∀ c ∈ t.head?, isBlank c = false := by
  cases t with
  | nil => simp
  | cons c cs =>
      rw [trimStart_cons]
      cases h : isBlank c with
      | false => simp [h]
      | true =>
          have hlength := (List.dropWhile_suffix (l := cs) isBlank).length_le
          have hne : trimStart cs ≠ c :: cs := by
            intro heq
            have := congrArg List.length heq
            simp only [trimStart, List.length_cons] at this
            omega
          simp [h, hne]

theorem trimEnd_eq_self_iff {t : List Char} :
    trimEnd t = t ↔ ∀ c ∈ t.getLast?, isBlank c = false := by
  rw [← List.head?_reverse, ← trimStart_eq_self_iff, trimEnd, trimStart]
  exact List.reverse_eq_iff

/-- Trimming keeps a text iff neither its first nor its last character is a blank. -/
theorem trim_eq_self_iff {t : List Char} :
    trim t = t ↔ (∀ c ∈ t.head?, isBlank c = false) ∧ (∀ c ∈ t.getLast?, isBlank c = false) := by
  rw [← trimStart_eq_self_iff, ← trimEnd_eq_self_iff, trim]
  constructor
  · intro h
    have hstart : trimStart t = t := by
      have hend : (trimEnd (trimStart t)).length ≤ (trimStart t).length :=
        (List.rdropWhile_prefix isBlank (l := trimStart t)).length_le
      rw [h] at hend
      exact (List.dropWhile_suffix isBlank).eq_of_length_le hend
    rw [hstart] at h
    exact ⟨hstart, h⟩
  · rintro ⟨hstart, hend⟩
    rw [hstart, hend]

/-- The first and the last character of a trimmed text are no blanks. -/
theorem isTrimmed_iff {t : List Char} :
    IsTrimmed t ↔ (∃ c, t.head? = some c ∧ isBlank c = false) ∧
      (∃ c, t.getLast? = some c ∧ isBlank c = false) := by
  constructor
  · rintro ⟨hne, htrim⟩
    obtain ⟨hhead, hlast⟩ := trim_eq_self_iff.1 htrim
    have hh := List.head?_eq_some_head hne
    have hl := List.getLast?_eq_some_getLast hne
    exact ⟨⟨_, hh, hhead _ hh⟩, ⟨_, hl, hlast _ hl⟩⟩
  · rintro ⟨⟨c, hc, hcb⟩, ⟨d, hd, hdb⟩⟩
    refine ⟨?_, trim_eq_self_iff.2 ⟨?_, ?_⟩⟩
    · rintro rfl
      simp at hc
    · rintro c' hc'
      rw [hc, Option.mem_some_iff] at hc'
      exact hc' ▸ hcb
    · rintro d' hd'
      rw [hd, Option.mem_some_iff] at hd'
      exact hd' ▸ hdb

/-- A text without blanks is trimmed. -/
theorem isTrimmed_of_forall {t : List Char} (hne : t ≠ []) (h : ∀ c ∈ t, isBlank c = false) :
    IsTrimmed t := by
  refine ⟨hne, trim_eq_self_iff.2 ⟨fun c hc => ?_, fun c hc => ?_⟩⟩
  · exact h c (List.mem_of_mem_head? hc)
  · exact h c (List.mem_of_mem_getLast? hc)

theorem trimStart_blank_append {w : List Char} (hw : allBlank w = true) (t : List Char) :
    trimStart (w ++ t) = trimStart t :=
  List.dropWhile_append_of_pos (List.all_eq_true.1 hw)

theorem trimStart_of_allBlank {w : List Char} (hw : allBlank w = true) : trimStart w = [] :=
  List.dropWhile_eq_nil_iff.2 (List.all_eq_true.1 hw)

theorem trim_blank_append {w : List Char} (hw : allBlank w = true) (t : List Char) :
    trim (w ++ t) = trim t := by
  rw [trim, trimStart_blank_append hw, trim]

/-- A text in front of a character that is no blank keeps that character and what follows it. -/
theorem trimStart_append_cons {c : Char} (hc : isBlank c = false) (s t : List Char) :
    trimStart (s ++ c :: t) = trimStart s ++ c :: t := by
  rw [trimStart, List.dropWhile_append, trimStart]
  split
  · next h =>
      rw [List.isEmpty_iff.1 h, List.dropWhile_cons_of_neg (by simp [hc]), List.nil_append]
  · rfl

theorem trimEnd_append_cons {c : Char} (hc : isBlank c = false) (s t : List Char) :
    trimEnd (s ++ c :: t) = s ++ c :: trimEnd t := by
  have h := trimStart_append_cons hc t.reverse s.reverse
  simp only [trimStart] at h
  simp [trimEnd, h]

theorem trim_append_cons {c : Char} (hc : isBlank c = false) (s t : List Char) :
    trim (s ++ c :: t) = trimStart s ++ c :: trimEnd t := by
  rw [trim, trimStart_append_cons hc, trimEnd_append_cons hc]

theorem head?_trim (t : List Char) : (trim t).head? = (trimStart t).head? := by
  cases h : trimStart t with
  | nil => rw [trim, h, trimEnd_nil]
  | cons c cs =>
      have hc : isBlank c = false := by
        have hhead := List.head?_dropWhile_not isBlank t
        rw [← trimStart, h, List.head?_cons] at hhead
        simpa using hhead
      have hend := trimEnd_append_cons hc [] cs
      rw [List.nil_append, List.nil_append] at hend
      rw [trim, h, hend, List.head?_cons, List.head?_cons]

theorem allBlank_reverse (w : List Char) : allBlank w.reverse = allBlank w :=
  List.all_reverse

theorem trim_append_blank {w : List Char} (hw : allBlank w = true) (t : List Char) :
    trim (t ++ w) = trim t := by
  have hend : ∀ s, trimEnd (s ++ w) = trimEnd s := by
    intro s
    rw [trimEnd, List.reverse_append,
      List.dropWhile_append_of_pos (List.all_eq_true.1 ((allBlank_reverse w).trans hw)), trimEnd]
  have hstart : trimStart (t ++ w) = if trimStart t = [] then [] else trimStart t ++ w := by
    rw [trimStart, List.dropWhile_append, ← trimStart]
    simp only [List.isEmpty_iff]
    exact ite_congr rfl (fun _ => trimStart_of_allBlank hw) fun _ => rfl
  rw [trim, hstart, trim]
  split
  · next h => rw [h]
  · exact hend _

@[simp] theorem trim_trimStart (t : List Char) : trim (trimStart t) = trim t := by
  have hblank : allBlank (t.takeWhile isBlank) = true := List.all_takeWhile
  rw [← trim_blank_append hblank, trimStart, List.takeWhile_append_dropWhile]

@[simp] theorem trim_trimEnd (t : List Char) : trim (trimEnd t) = trim t := by
  have hblank : allBlank (t.reverse.takeWhile isBlank).reverse = true := by
    rw [allBlank_reverse]
    exact List.all_takeWhile
  rw [← trim_append_blank hblank, trimEnd, ← List.reverse_append, List.takeWhile_append_dropWhile,
    List.reverse_reverse]

@[simp] theorem trim_trim (t : List Char) : trim (trim t) = trim t :=
  (trim_trimEnd (trimStart t)).trans (trim_trimStart t)

theorem isTrimmed_trim {t : List Char} (h : trim t ≠ []) : IsTrimmed (trim t) :=
  ⟨h, trim_trim t⟩

/-- A text is its trimmed form between blanks. -/
theorem exists_trim_between (t : List Char) :
    ∃ before after, allBlank before = true ∧ allBlank after = true ∧
      t = before ++ (trim t ++ after) := by
  refine ⟨t.takeWhile isBlank, ((trimStart t).reverse.takeWhile isBlank).reverse,
    List.all_takeWhile, ?_, ?_⟩
  · rw [allBlank_reverse]
    exact List.all_takeWhile
  · rw [trim, trimEnd, ← List.reverse_append, List.takeWhile_append_dropWhile,
      List.reverse_reverse, trimStart, List.takeWhile_append_dropWhile]

theorem trim_infix (t : List Char) : trim t <:+: t :=
  (List.rdropWhile_prefix isBlank (l := trimStart t)).isInfix.trans
    (List.dropWhile_suffix isBlank).isInfix

namespace IsTrimmed

variable {t : List Char}

/-- A text that starts and ends with trimmed texts is trimmed. -/
theorem append {s : List Char} (hs : IsTrimmed s) (m : List Char) (ht : IsTrimmed t) :
    IsTrimmed (s ++ (m ++ t)) := by
  rw [isTrimmed_iff] at hs ht ⊢
  obtain ⟨⟨c, hc, hcb⟩, -⟩ := hs
  obtain ⟨-, d, hd, hdb⟩ := ht
  refine ⟨⟨c, ?_, hcb⟩, ⟨d, ?_, hdb⟩⟩
  · rw [List.head?_append, hc, Option.some_or]
  · rw [List.getLast?_append, List.getLast?_append, hd, Option.some_or, Option.some_or]

/-- Trimming takes the blanks around a trimmed text away. -/
theorem trim_between (h : IsTrimmed t) {w w' : List Char} (hw : allBlank w = true)
    (hw' : allBlank w' = true) : trim (w ++ (t ++ w')) = t := by
  have hstart : trimStart (t ++ w') = t ++ w' := by
    obtain ⟨⟨c, hc, hcb⟩, -⟩ := isTrimmed_iff.1 h
    rw [trimStart_eq_self_iff, List.head?_append, hc]
    simpa using hcb
  have hend : trimEnd (t ++ w') = trimEnd t := by
    rw [trimEnd, List.reverse_append,
      List.dropWhile_append_of_pos (List.all_eq_true.1 ((allBlank_reverse w').trans hw')), trimEnd]
  rw [trim_blank_append hw, trim, hstart, hend]
  exact trimEnd_eq_self_iff.2 (trim_eq_self_iff.1 h.trim_eq).2

end IsTrimmed

end ContrastAudit.Text

import ContrastAudit.Proofs.Selector.Spelling
import ContrastAudit.Proofs.Text.Trim

/-!
# White space in written selectors

Compounds hold neither white space nor signs of combinators, so the passes that bring a selector to
its normal form touch nothing but the white space of its combinators.

**Results.**
* `normalChars_chain`: the normal form of a written selector is the same chain written with the
  least white space.
-/

namespace ContrastAudit.Selector

/-! ## Characters of compounds -/

theorem not_mem_of_isNameChar {c : Char} (h : Text.isNameChar c = true) {signs : List Char}
    (hsigns : signs.any Text.isNameChar = false) : c ∉ signs :=
  fun hmem => List.any_eq_false.1 hsigns c hmem h

theorem isJoint_of_isNameChar {c : Char} (h : Text.isNameChar c = true) : isJoint c = false := by
  have hc : c ∉ ['>', '+', '~'] := not_mem_of_isNameChar h (by decide)
  simpa [isJoint, and_assoc] using hc

/-- A text that is not empty, without white space and without the signs of combinators. -/
structure IsSolid (cs : List Char) : Prop where
  ne_nil : cs ≠ []
  isBlank_eq : ∀ c ∈ cs, Text.isBlank c = false
  isJoint_eq : ∀ c ∈ cs, isJoint c = false

theorem isSolid_singleton {c : Char} (hblank : Text.isBlank c = false)
    (hjoint : isJoint c = false) : IsSolid [c] where
  ne_nil := List.cons_ne_nil _ _
  isBlank_eq := List.forall_mem_singleton.2 hblank
  isJoint_eq := List.forall_mem_singleton.2 hjoint

namespace IsSolid

variable {cs ds : List Char}

theorem append (hcs : IsSolid cs) (hds : IsSolid ds) : IsSolid (cs ++ ds) where
  ne_nil := List.append_ne_nil_of_left_ne_nil hcs.ne_nil _
  isBlank_eq := List.forall_mem_append.2 ⟨hcs.isBlank_eq, hds.isBlank_eq⟩
  isJoint_eq := List.forall_mem_append.2 ⟨hcs.isJoint_eq, hds.isJoint_eq⟩

theorem flatMap {α : Type} {f : α → List Char} (hf : ∀ a, IsSolid (f a)) {as : List α}
    (hne : as ≠ []) : IsSolid (as.flatMap f) := by
  induction as with
  | nil => contradiction
  | cons a as ih =>
      rw [List.flatMap_cons]
      cases as with
      | nil => simpa using hf a
      | cons b bs => exact (hf a).append (ih (List.cons_ne_nil b bs))

theorem isTrimmed (h : IsSolid cs) : Text.IsTrimmed cs :=
  Text.isTrimmed_of_forall h.ne_nil h.isBlank_eq

end IsSolid

theorem Letter.isSolid_chars (l : Letter) : IsSolid l.chars := by
  cases l with
  | plain c h => exact isSolid_singleton (Text.isBlank_of_isNameChar h) (isJoint_of_isNameChar h)
  | escaped c hblank hjoint =>
      have hslash : IsSolid ['\\'] := isSolid_singleton (by decide) rfl
      exact hslash.append (isSolid_singleton hblank hjoint)

theorem Name.isSolid_chars (n : Name) : IsSolid n.chars :=
  .flatMap Letter.isSolid_chars n.ne_nil

theorem TagName.isNameChar_of_mem (t : TagName) : ∀ c ∈ t.chars, Text.isNameChar c = true := by
  obtain ⟨hyphen, first, others, hfirst, hothers⟩ := t
  intro c hc
  have hcases : c = '-' ∨ c = first ∨ c ∈ others := by
    cases hyphen <;> simp [TagName.chars] at hc <;> tauto
  rcases hcases with rfl | rfl | hc
  · decide
  · exact Text.isNameChar_of_isNameStart hfirst
  · exact hothers c hc

theorem TagName.isSolid_chars (t : TagName) : IsSolid t.chars where
  ne_nil := List.append_ne_nil_of_right_ne_nil _ (List.cons_ne_nil _ _)
  isBlank_eq c hc := Text.isBlank_of_isNameChar (t.isNameChar_of_mem c hc)
  isJoint_eq c hc := isJoint_of_isNameChar (t.isNameChar_of_mem c hc)

theorem Head.isSolid_chars (h : Head) : IsSolid h.chars := by
  cases h with
  | tag name => exact name.isSolid_chars
  | universal => exact isSolid_singleton (by decide) rfl

theorem Simple.isSolid_chars (s : Simple) : IsSolid s.chars := by
  cases s with
  | «class» name =>
      have hsign : IsSolid ['.'] := isSolid_singleton (by decide) rfl
      exact hsign.append name.isSolid_chars
  | id name =>
      have hsign : IsSolid ['#'] := isSolid_singleton (by decide) rfl
      exact hsign.append name.isSolid_chars

theorem Conjunct.isSolid_chars (c : Conjunct) : IsSolid c.chars := by
  obtain ⟨head, simples, hnonempty⟩ := c
  cases head with
  | none => exact .flatMap Simple.isSolid_chars (hnonempty rfl)
  | some head =>
      cases simples with
      | nil => simpa [Conjunct.chars] using head.isSolid_chars
      | cons s ss =>
          exact head.isSolid_chars.append (.flatMap Simple.isSolid_chars (List.cons_ne_nil s ss))

/-! ## Normal form -/

def Gap.none : Gap :=
  ⟨[], rfl⟩

def Gap.space : Gap :=
  ⟨[' '], by decide⟩

/-- A combinator with the least white space. -/
def Joint.tight : Joint → Joint
  | descendant _ _ => .descendant .space (List.cons_ne_nil _ _)
  | sign _ s _ => .sign .none s .none

/-- A chain with the least white space. -/
def Chain.tight (c : Chain) : Chain :=
  ⟨c.first, c.rest.map fun link => (link.1.tight, link.2)⟩

@[simp] theorem Joint.tight_tight (j : Joint) : j.tight.tight = j.tight := by
  cases j <;> rfl

@[simp] theorem Chain.tight_tight (c : Chain) : c.tight.tight = c.tight := by
  simp [Chain.tight]

theorem isJoint_sign (s : Sign) : isJoint s.char = true := by
  cases s <;> rfl

theorem isBlank_sign (s : Sign) : Text.isBlank s.char = false := by
  cases s <;> decide

section Passes

variable {c : Char} {cs gap : List Char}

theorem ne_space_of_isBlank_eq (hc : Text.isBlank c = false) : c ≠ ' ' := by
  rintro rfl
  contradiction

theorem collapse_append (hcs : ∀ c ∈ cs, Text.isBlank c = false) (ds : List Char) :
    collapse (cs ++ ds) = cs ++ collapse ds := by
  induction cs with
  | nil => rfl
  | cons c cs ih =>
      obtain ⟨hc, hcs⟩ := List.forall_mem_cons.1 hcs
      simp [collapse, hc, ih hcs]

/-- A gap in front of a character that is no blank shrinks to one blank, if there is any. -/
theorem collapse_gap_append (hgap : Text.allBlank gap = true) (hc : Text.isBlank c = false)
    (cs : List Char) :
    collapse (gap ++ c :: cs) = (if gap = [] then [] else [' ']) ++ c :: collapse cs := by
  induction gap with
  | nil => simp [collapse, hc]
  | cons b gap ih =>
      simp only [Text.allBlank, List.all_cons, Bool.and_eq_true] at hgap
      have hrest := ih hgap.2
      rw [List.cons_append, collapse, if_pos hgap.1, hrest, if_neg (List.cons_ne_nil b gap)]
      split_ifs
      · simp [ne_space_of_isBlank_eq hc]
      · rfl

theorem tighten_cons (hc : Text.isBlank c = false) (joined : Bool) (cs : List Char) :
    tighten joined (c :: cs) = c :: tighten (isJoint c) cs := by
  rw [tighten, if_neg (ne_space_of_isBlank_eq hc)]

theorem tighten_append (hcs : IsSolid cs) (joined : Bool) (ds : List Char) :
    tighten joined (cs ++ ds) = cs ++ tighten false ds := by
  obtain ⟨hne, hblank, hjoint⟩ := hcs
  induction cs generalizing joined with
  | nil => contradiction
  | cons c cs ih =>
      obtain ⟨hcblank, hblank⟩ := List.forall_mem_cons.1 hblank
      obtain ⟨hcjoint, hjoint⟩ := List.forall_mem_cons.1 hjoint
      rw [List.cons_append, tighten_cons hcblank, hcjoint]
      cases cs with
      | nil => rfl
      | cons d es => rw [ih false (List.cons_ne_nil d es) hblank hjoint]; rfl

/-- The blanks in front of a sign go. -/
theorem tighten_collapse_sign (hgap : Text.allBlank gap = true) (s : Sign) (cs : List Char) :
    tighten false (collapse (gap ++ s.char :: cs)) = s.char :: tighten true (collapse cs) := by
  rw [collapse_gap_append hgap (isBlank_sign s)]
  split_ifs
  · rw [List.nil_append, tighten_cons (isBlank_sign s), isJoint_sign]
  · rw [List.cons_append, List.nil_append, tighten]
    simp [isJoint_sign, tighten_cons (isBlank_sign s)]

/-- The blanks behind a sign go. -/
theorem tighten_collapse_gap (hgap : Text.allBlank gap = true) (hc : Text.isBlank c = false)
    (cs : List Char) :
    tighten true (collapse (gap ++ c :: cs)) = tighten false (collapse (c :: cs)) := by
  have hstart : collapse (c :: cs) = c :: collapse cs := by simp [collapse, hc]
  rw [collapse_gap_append hgap hc, hstart, tighten_cons hc]
  split_ifs
  · rw [List.nil_append, tighten_cons hc]
  · rw [List.cons_append, List.nil_append, tighten]
    simp [tighten_cons hc]

theorem tighten_collapse_joint (j : Joint) (hblank : Text.isBlank c = false)
    (hjoint : isJoint c = false) (cs : List Char) :
    tighten false (collapse (j.chars ++ c :: cs)) =
      j.tight.chars ++ tighten false (collapse (c :: cs)) := by
  cases j with
  | descendant gap hne =>
      have hstart : collapse (c :: cs) = c :: collapse cs := by simp [collapse, hblank]
      rw [Joint.chars, collapse_gap_append gap.allBlank hblank, if_neg hne, hstart,
        List.cons_append, List.nil_append, tighten]
      simp [hjoint, Joint.tight, Joint.chars, Gap.space]
  | sign before s after =>
      rw [Joint.chars, List.append_assoc, List.cons_append, tighten_collapse_sign before.allBlank,
        tighten_collapse_gap after.allBlank hblank]
      rfl

end Passes

theorem tighten_collapse_links (rest : List (Joint × Conjunct)) :
    tighten false (collapse (rest.flatMap fun link => link.1.chars ++ link.2.chars)) =
      (rest.map fun link => (link.1.tight, link.2)).flatMap fun link =>
        link.1.chars ++ link.2.chars := by
  induction rest with
  | nil => rfl
  | cons link rest ih =>
      obtain ⟨j, d⟩ := link
      have hsolid := d.isSolid_chars
      obtain ⟨c, cs, hd⟩ := List.exists_cons_of_ne_nil hsolid.ne_nil
      have hc : c ∈ d.chars := hd ▸ List.mem_cons_self
      have hjoint := tighten_collapse_joint j (hsolid.isBlank_eq c hc) (hsolid.isJoint_eq c hc)
      simp only [List.flatMap_cons, List.map_cons, List.append_assoc]
      rw [hd, List.cons_append, hjoint, ← List.cons_append, ← hd,
        collapse_append hsolid.isBlank_eq, tighten_append hsolid, ih]

theorem Chain.isTrimmed_chars (c : Chain) : Text.IsTrimmed c.chars := by
  obtain ⟨first, rest⟩ := c
  suffices h : ∀ start, Text.IsTrimmed start →
      Text.IsTrimmed (start ++ rest.flatMap fun link => link.1.chars ++ link.2.chars) from
    h _ first.isSolid_chars.isTrimmed
  induction rest with
  | nil => simp
  | cons link rest ih =>
      intro start hstart
      rw [List.flatMap_cons, ← List.append_assoc]
      exact ih _ (hstart.append link.1.chars link.2.isSolid_chars.isTrimmed)

/-- The normal form of a chain with white space around it. -/
theorem normalChars_chain (c : Chain) (before after : Gap) :
    normalChars (before.chars ++ (c.chars ++ after.chars)) = c.tight.chars := by
  have hfirst := c.first.isSolid_chars
  rw [normalChars, c.isTrimmed_chars.trim_between before.allBlank after.allBlank, Chain.chars,
    collapse_append hfirst.isBlank_eq, tighten_append hfirst, tighten_collapse_links]
  rfl

end ContrastAudit.Selector

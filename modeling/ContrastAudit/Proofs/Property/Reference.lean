import ContrastAudit.Property.Substitution
import ContrastAudit.Proofs.Value.Flattening

/-!
# Texts without references

A text is free of references if all of it is cut into tokens and none of them starts a reference.

**Results.**
* `isFree_of_not_hasReference`: a text is free if it may hold no reference.
* `anyReference_eq_false_iff_isFree`: what is read of a text holds no reference at any depth exactly
  if the text is free.
* `isFree_append_stop_iff`: texts that meet at a character that is added to nothing are free
  together.
-/

namespace ContrastAudit

namespace Token

/-- A token is the start of a reference. -/
def StartsReference (t : Token) : Prop :=
  t.kind = .function ∧ Text.lowercase (String.ofList t.chars.dropLast) = "var"

theorem startsReference_function_iff {name : String} :
    StartsReference ⟨.function, name.toList ++ ['(']⟩ ↔ Text.lowercase name = "var" := by
  simp [StartsReference]

theorem not_startsReference_of_kind {t : Token} (h : t.kind ≠ .function) : ¬ t.StartsReference :=
  fun hstarts => h hstarts.1

theorem chars_infix_of_mem_tokens {cs : List Char} {t : Token} (h : t ∈ (tokens cs).1) :
    t.chars <:+: cs := by
  obtain ⟨before, behind, hsplit⟩ := List.append_of_mem h
  refine ⟨text before, text behind ++ (tokens cs).2, ?_⟩
  conv => rhs; rw [← text_tokens cs, hsplit]
  simp [text]

end Token

namespace Component

/-- Whether a component is a reference. -/
def isReference : Component → Bool
  | .function name _ => Text.lowercase name == "var"
  | _ => false

mutual

/-- Whether a component is a reference or holds one at any depth. -/
def holdsReference : Component → Bool
  | .leaf _ _ => false
  | .function name children => Text.lowercase name == "var" || anyReference children
  | .block children => anyReference children

/-- Whether a sequence holds a reference at any depth. -/
def anyReference : List Component → Bool
  | [] => false
  | c :: cs => holdsReference c || anyReference cs

end

mutual

theorem holdsReference_eq_false_iff : ∀ c : Component,
    c.holdsReference = false ↔ ∀ t ∈ c.tokens, ¬ t.StartsReference
  | .leaf kind text => by
      simp [holdsReference, tokens, Token.not_startsReference_of_kind]
  | .function name children => by
      rw [holdsReference, Bool.or_eq_false_iff, anyReference_eq_false_iff children, tokens,
        List.forall_mem_cons, List.forall_mem_append, Token.startsReference_function_iff]
      simp [Token.not_startsReference_of_kind]
  | .block children => by
      rw [holdsReference, anyReference_eq_false_iff children, tokens, List.forall_mem_cons,
        List.forall_mem_append]
      simp [Token.not_startsReference_of_kind]

/-- A sequence holds a reference exactly if one of its tokens starts one. -/
theorem anyReference_eq_false_iff : ∀ cs : List Component,
    anyReference cs = false ↔ ∀ t ∈ tokensOfAll cs, ¬ t.StartsReference
  | [] => by simp [anyReference]
  | c :: cs => by
      rw [anyReference, Bool.or_eq_false_iff, holdsReference_eq_false_iff c,
        anyReference_eq_false_iff cs, tokensOfAll_cons, List.forall_mem_append]

end

end Component

namespace Property

/-- A text that is cut into tokens, none of which starts a reference. -/
structure IsFree (cs : List Char) : Prop where
  complete : (Token.tokens cs).2 = []
  free : ∀ t ∈ (Token.tokens cs).1, ¬ t.StartsReference

section Free

variable {cs ds rest : List Char} {t : Token} {c : Char}

theorem isFree_nil : IsFree [] where
  complete := by simp
  free := by simp

theorem isFree_iff_of_scan (h : Token.scan cs = some (t, rest)) :
    IsFree cs ↔ ¬ t.StartsReference ∧ IsFree rest := by
  have htokens := Token.tokens_of_scan h
  constructor
  · rintro ⟨hcomplete, hfree⟩
    rw [htokens] at hcomplete hfree
    obtain ⟨ht, hrest⟩ := List.forall_mem_cons.1 hfree
    exact ⟨ht, hcomplete, hrest⟩
  · rintro ⟨ht, hcomplete, hrest⟩
    refine ⟨?_, ?_⟩
    · rw [htokens]
      exact hcomplete
    · rw [htokens]
      exact List.forall_mem_cons.2 ⟨ht, hrest⟩

theorem isFree_trimStart_iff (cs : List Char) : IsFree (Text.trimStart cs) ↔ IsFree cs := by
  cases cs with
  | nil => rfl
  | cons c cs =>
      rw [Text.trimStart_cons]
      split
      · next hc =>
          rw [isFree_iff_of_scan (Token.scan_blank hc cs)]
          simp [Token.not_startsReference_of_kind]
      · rfl

/-- White space in front of a text does not count. -/
theorem isFree_blank_append_iff {blanks : List Char} (h : Text.allBlank blanks = true)
    (cs : List Char) : IsFree (blanks ++ cs) ↔ IsFree cs := by
  rw [← isFree_trimStart_iff, Text.trimStart_blank_append h, isFree_trimStart_iff]

/-- Texts that meet at a character that is added to nothing in front of it are free together. -/
theorem isFree_append_stop_iff (hcs : (Token.tokens cs).2 = []) (hc : Token.isStop c = true)
    (ds : List Char) : IsFree (cs ++ c :: ds) ↔ IsFree cs ∧ IsFree (c :: ds) := by
  fun_induction Token.tokens cs with
  | case1 cs hscan =>
      obtain rfl : cs = [] := hcs
      simp [isFree_nil]
  | case2 cs t rest hscan hlt ih =>
      by_cases hblank : Text.allBlank cs = true
      · have hfree : IsFree cs := by
          rw [← List.append_nil cs, isFree_blank_append_iff hblank]
          exact isFree_nil
        rw [isFree_blank_append_iff hblank]
        exact (and_iff_right hfree).symm
      · rw [Bool.not_eq_true] at hblank
        have hlong := Token.scan_stop hc hscan (fun _ => hblank) ds
        rw [isFree_iff_of_scan hlong, isFree_iff_of_scan hscan, ih hcs, and_assoc]

/-- What is read of a free text holds no reference, and only what is read of a free text does. -/
theorem anyReference_eq_false_iff_isFree {components : List Component}
    (h : Component.parseChars cs = .ok components) :
    Component.anyReference components = false ↔ IsFree cs := by
  have htokens := Component.parseChars_eq_ok_iff.1 h
  rw [Component.anyReference_eq_false_iff]
  constructor
  · intro hfree
    exact ⟨by rw [htokens], by rwa [htokens]⟩
  · rintro ⟨-, hfree⟩
    rwa [htokens] at hfree

end Free

/-! ## Texts that hold no reference at first sight -/

theorem exists_lowerFrom_append (before cs ds : List Char) :
    ∃ es, Text.lowerFrom before (cs ++ ds) = es ++ Text.lowerFrom (cs.reverse ++ before) ds := by
  induction cs generalizing before with
  | nil => exact ⟨[], rfl⟩
  | cons c cs ih =>
      obtain ⟨es, hes⟩ := ih (c :: before)
      rw [List.cons_append, Text.lowerFrom, hes, List.reverse_cons, List.append_assoc cs.reverse]
      exact ⟨_, (List.append_assoc ..).symm⟩

theorem lowerFrom_ascii_append {cs : List Char} (h : ∀ c ∈ cs, c.toNat < 0x80)
    (before ds : List Char) :
    Text.lowerFrom before (cs ++ ds) =
      cs.map Char.toLower ++ Text.lowerFrom (cs.reverse ++ before) ds := by
  induction cs generalizing before with
  | nil => rfl
  | cons c cs ih =>
      obtain ⟨hc, hcs⟩ := List.forall_mem_cons.1 h
      have hsigma : c ≠ 'Σ' := by
        rintro rfl
        exact absurd hc (by decide)
      have hdotted : c ≠ 'İ' := by
        rintro rfl
        exact absurd hc (by decide)
      simp [Text.lowerFrom, hsigma, hdotted, Text.lowerChar, hc, ih hcs]

theorem occurs_append (before needle behind : List Char) :
    Text.occurs needle (before ++ (needle ++ behind)) = true := by
  induction before with
  | nil =>
      have hprefix : needle.isPrefixOf (needle ++ behind) = true :=
        List.isPrefixOf_iff_prefix.2 (List.prefix_append needle behind)
      rw [List.nil_append]
      cases h : needle ++ behind with
      | nil => simp [Text.occurs, (List.append_eq_nil_iff.1 h).1]
      | cons c cs =>
          rw [h] at hprefix
          simp [Text.occurs, hprefix]
  | cons c cs ih => simp [Text.occurs, ih]

/-- A text with the start of a reference may hold one. -/
theorem hasReference_of_startsReference {value : String} {t : Token}
    (ht : t ∈ (Token.tokens value.toList).1) (hstarts : t.StartsReference) :
    hasReference value = true := by
  obtain ⟨before, behind, hsplit⟩ := Token.chars_infix_of_mem_tokens ht
  obtain ⟨hkind, hname⟩ := hstarts
  cases Token.isWritten_of_mem_tokens ht with
  | @function name hchars =>
      have hascii : ∀ c ∈ name ++ ['('], c.toNat < 0x80 := by
        refine List.forall_mem_append.2 ⟨fun c hc => ?_, by simp⟩
        have hrange := Text.toNat_of_isNameChar (hchars c hc)
        omega
      have hlower : (name ++ ['(']).map Char.toLower = "var(".toList := by
        rw [List.dropLast_concat, Text.lowercase, String.toList_ofList,
          Text.lower_of_ascii (List.forall_mem_append.1 hascii).1] at hname
        have hvar := congrArg String.toList hname
        rw [String.toList_ofList] at hvar
        rw [List.map_append, hvar]
        rfl
      obtain ⟨es, hes⟩ := exists_lowerFrom_append [] before ((name ++ ['(']) ++ behind)
      rw [hasReference, Text.lower, ← hsplit, List.append_assoc, hes,
        lowerFrom_ascii_append hascii, hlower]
      exact occurs_append _ _ _
  | opening => contradiction
  | closing => contradiction
  | hash => contradiction
  | string => contradiction
  | calm => contradiction

theorem isFree_of_not_hasReference {value : String} (h : hasReference value = false)
    (hcomplete : (Token.tokens value.toList).2 = []) : IsFree value.toList where
  complete := hcomplete
  free t ht hstarts := by
    rw [hasReference_of_startsReference ht hstarts] at h
    contradiction

end Property

end ContrastAudit

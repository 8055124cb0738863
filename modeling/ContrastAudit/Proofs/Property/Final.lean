import ContrastAudit.Proofs.Property.Apart

/-!
# Results that are final

A result is final if resolving it again changes nothing, whatever values the properties have by
then.  A result can always be read, since all of its tokens were tokens of values before, but what
is read of it may hold a reference that none of them held: behind a reference that became the word
`var`, a block makes a function of it.

**Results.**
* `resolve_eq_self`: a result is final exactly if no reference is read of it, and it is final if the
  references of the value and of all properties stand apart.
-/

namespace ContrastAudit.Property

open Component

variable {properties : PropertyMap}

/-! ## Results can be read -/

/-- Whatever is put in place of references is written as tokens are. -/
theorem isWritten_of_replacement :
    ∀ {components out : List Component}, Replacement properties components out →
      (∀ t ∈ tokensOfAll components, t.IsWritten) → ∀ t ∈ tokensOfAll out, t.IsWritten
  | _, _, .nil => fun h => h
  | _, _, .leaf r => by
      intro h
      rw [tokensOfAll_cons, List.forall_mem_append] at h ⊢
      exact ⟨h.1, isWritten_of_replacement r h.2⟩
  | _, _, .block r₁ r₂ => by
      intro h
      simp only [tokensOfAll_cons, tokens, List.forall_mem_append, List.forall_mem_cons] at h ⊢
      exact ⟨⟨h.1.1, isWritten_of_replacement r₁ h.1.2.1, h.1.2.2⟩,
        isWritten_of_replacement r₂ h.2⟩
  | _, _, .function hname r₁ r₂ => by
      intro h
      simp only [tokensOfAll_cons, tokens, List.forall_mem_append, List.forall_mem_cons] at h ⊢
      exact ⟨⟨h.1.1, isWritten_of_replacement r₁ h.1.2.1, h.1.2.2⟩,
        isWritten_of_replacement r₂ h.2⟩
  | _, _, .bound hname hwrites hget d hparse r => by
      intro h
      rw [tokensOfAll_cons, List.forall_mem_append] at h
      rw [tokensOfAll_append, List.forall_mem_append]
      exact ⟨isWritten_of_parse? hparse, isWritten_of_replacement r h.2⟩
  | _, _, .fallback hname hwrites hget hne d hparse r => by
      intro h
      rw [tokensOfAll_cons, List.forall_mem_append] at h
      rw [tokensOfAll_append, List.forall_mem_append]
      exact ⟨isWritten_of_parse? hparse, isWritten_of_replacement r h.2⟩

/-- What a value resolves to can be read if it may hold a reference. -/
theorem exists_parse?_of_derivation {value result : String}
    (d : Derivation properties value result) (hreference : hasReference result = true) :
    ∃ components, parse? result = some components := by
  cases d with
  | plain hr =>
      rw [hr] at hreference
      contradiction
  | @replaced _ components out hr hparse r =>
      have hwritten := isWritten_of_replacement r (isWritten_of_parse? hparse)
      obtain ⟨read, hread⟩ := (exists_parseChars_iff _).2 (isBalancedValue_charsOfAll hwritten).trim
      refine ⟨read, parse?_eq_some_iff.2 ?_⟩
      rwa [Text.strip, render, String.toList_ofList, String.toList_ofList]

theorem nonempty_derivation_of_resolve {value result : String}
    (h : resolve properties value = some result) : Nonempty (Derivation properties value result) :=
  let ⟨d, _⟩ := exists_derivation_of_resolveWithin _ _ _ h
  ⟨d⟩

/-! ## Resolving again -/

section Again

variable {resolveReference : List Component → Option (List Component)}

mutual

theorem substitute_of_holdsReference : ∀ {c : Component}, c.holdsReference = false →
    substitute resolveReference c = some [c]
  | .leaf _ _, _ => rfl
  | .function name children, h => by
      rw [holdsReference, Bool.or_eq_false_iff, beq_eq_false_iff_ne] at h
      rw [substitute, if_neg h.1, substituteAll_of_anyReference h.2]
      rfl
  | .block children, h => by
      rw [holdsReference] at h
      rw [substitute, substituteAll_of_anyReference h]
      rfl

/-- Nothing is replaced where there is no reference. -/
theorem substituteAll_of_anyReference : ∀ {cs : List Component}, anyReference cs = false →
    substituteAll resolveReference cs = some cs
  | [], _ => rfl
  | c :: cs, h => by
      rw [anyReference, Bool.or_eq_false_iff] at h
      exact substituteAll_cons_eq_some_iff.2
        ⟨[c], cs, substitute_of_holdsReference h.1, substituteAll_of_anyReference h.2, rfl⟩

end

theorem substituteAll_cons_eq_none {c : Component} {cs : List Component}
    (h : substitute resolveReference c = none ∨ substituteAll resolveReference cs = none) :
    substituteAll resolveReference (c :: cs) = none := by
  refine Option.eq_none_iff_forall_ne_some.2 fun out hout => ?_
  obtain ⟨front, rest, hfront, hrest, -⟩ := substituteAll_cons_eq_some_iff.1 hout
  rcases h with hnone | hnone
  · rw [hnone] at hfront
    contradiction
  · rw [hnone] at hrest
    contradiction

end Again

mutual

theorem exists_arguments_of_holdsReference : ∀ {c : Component}, c.holdsReference = true →
    ∃ arguments, ∀ resolveReference : List Component → Option (List Component),
      resolveReference arguments = none → substitute resolveReference c = none
  | .leaf _ _, h => by
      rw [holdsReference] at h
      contradiction
  | .function name children, h => by
      by_cases hname : Text.lowercase name = "var"
      · refine ⟨children, fun resolveReference hnone => ?_⟩
        rw [substitute, if_pos hname, hnone]
      · simp only [holdsReference, Bool.or_eq_true, beq_iff_eq, hname, false_or] at h
        obtain ⟨arguments, harguments⟩ := exists_arguments_of_anyReference h
        refine ⟨arguments, fun resolveReference hnone => ?_⟩
        rw [substitute, if_neg hname, harguments resolveReference hnone]
        rfl
  | .block children, h => by
      rw [holdsReference] at h
      obtain ⟨arguments, harguments⟩ := exists_arguments_of_anyReference h
      refine ⟨arguments, fun resolveReference hnone => ?_⟩
      rw [substitute, harguments resolveReference hnone]
      rfl

/-- Where there is a reference, one whose arguments stand for nothing leaves nothing. -/
theorem exists_arguments_of_anyReference : ∀ {cs : List Component}, anyReference cs = true →
    ∃ arguments, ∀ resolveReference : List Component → Option (List Component),
      resolveReference arguments = none → substituteAll resolveReference cs = none
  | [], h => by
      rw [anyReference] at h
      contradiction
  | c :: cs, h => by
      rw [anyReference, Bool.or_eq_true] at h
      rcases h with hc | hcs
      · obtain ⟨arguments, harguments⟩ := exists_arguments_of_holdsReference hc
        exact ⟨arguments, fun _ hnone => substituteAll_cons_eq_none (.inl (harguments _ hnone))⟩
      · obtain ⟨arguments, harguments⟩ := exists_arguments_of_anyReference hcs
        exact ⟨arguments, fun _ hnone => substituteAll_cons_eq_none (.inr (harguments _ hnone))⟩

end

/-- A trimmed value that holds no reference is its own result. -/
theorem resolve_of_anyReference {value : String} {components : List Component}
    (htrim : Text.strip value = value) (hparse : parse? value = some components)
    (hfree : anyReference components = false) (properties : PropertyMap) :
    resolve properties value = some value := by
  cases hr : hasReference value with
  | false => exact resolve_of_not_hasReference hr properties
  | true =>
      refine (resolveWithin_succ_eq_some_iff hr).2
        ⟨components, components, hparse, substituteAll_of_anyReference hfree, ?_⟩
      rw [render, charsOfAll_of_parseChars (parse?_eq_some_iff.1 hparse), String.ofList_toList,
        htrim]

/-- A property whose value cannot be read. -/
def unreadable (name : String) : PropertyMap :=
  [(name, "var(")]

theorem expand_unreadable (arguments : List Component) (depth : Nat) :
    expand (unreadable (referenceParts arguments).1) depth arguments = none := by
  refine Option.eq_none_iff_forall_ne_some.2 fun replacement h => ?_
  obtain ⟨target, text, htarget, htext, -⟩ := expand_eq_some_iff.1 h
  obtain rfl : "var(" = target := by
    simpa [target?, unreadable, PropertyMap.get?] using htarget
  obtain ⟨d, -⟩ := exists_derivation_of_resolveWithin _ _ _ htext
  cases d with
  | plain hr => exact absurd hr (by decide +kernel)
  | replaced hr hparse r =>
      have hnone : parse? "var(" = none := by decide +kernel
      rw [hnone] at hparse
      contradiction

theorem anyReference_of_not_hasReference {value : String} {components : List Component}
    (h : hasReference value = false) (hparse : parse? value = some components) :
    anyReference components = false :=
  (anyReference_eq_false_iff_isFree (parse?_eq_some_iff.1 hparse)).2
    (isFree_of_not_hasReference h (tokens_complete_of_parse? hparse))

/-- A value that holds a reference has no result for some properties. -/
theorem exists_resolve_eq_none {value : String} {components : List Component}
    (hparse : parse? value = some components) (hany : anyReference components = true) :
    ∃ properties, resolve properties value = none := by
  obtain ⟨arguments, harguments⟩ := exists_arguments_of_anyReference hany
  refine ⟨unreadable (referenceParts arguments).1,
    Option.eq_none_iff_forall_ne_some.2 fun result hresult => ?_⟩
  have hr : hasReference value = true := by
    by_contra hr
    rw [Bool.not_eq_true] at hr
    rw [anyReference_of_not_hasReference hr hparse] at hany
    contradiction
  obtain ⟨read, out, hread, hout, -⟩ := (resolveWithin_succ_eq_some_iff hr).1 hresult
  obtain rfl : components = read := Option.some.inj (hparse.symm.trans hread)
  rw [harguments _ (expand_unreadable arguments _)] at hout
  contradiction

/-! ## Final results -/

theorem strip_of_derivation {value result : String} (d : Derivation properties value result)
    (hr : hasReference result = true) : Text.strip result = result := by
  cases d with
  | plain hr' =>
      rw [hr'] at hr
      contradiction
  | replaced _ _ r => simp [Text.strip]

/-- What a value resolves to is its own result for all properties if and only if it holds no
reference. -/
theorem forall_resolve_eq_iff {value result : String} (d : Derivation properties value result) :
    (∀ later, resolve later result = some result) ↔
      ∀ components, parse? result = some components → anyReference components = false := by
  constructor
  · intro hfinal components hparse
    by_contra hany
    rw [Bool.not_eq_false] at hany
    obtain ⟨later, hnone⟩ := exists_resolve_eq_none hparse hany
    rw [hfinal later] at hnone
    contradiction
  · intro hfree later
    cases hr : hasReference result with
    | false => exact resolve_of_not_hasReference hr later
    | true =>
        obtain ⟨components, hparse⟩ := exists_parse?_of_derivation d hr
        exact resolve_of_anyReference (strip_of_derivation d hr) hparse (hfree components hparse)
          later

/-- What a value resolves to can be read where it may hold a reference, it is final exactly if it
holds none, and it holds none if the references of the value and of all properties stand apart. -/
theorem resolve_eq_self {value result : String} (h : resolve properties value = some result) :
    (hasReference result = true → ∃ components, parse? result = some components) ∧
    ((∀ later, resolve later result = some result) ↔
      ∀ components, parse? result = some components → anyReference components = false) ∧
    (isApart value = true → AreApart properties →
      (∀ components, parse? result = some components → anyReference components = false) ∧
        ∀ later, resolve later result = some result) := by
  obtain ⟨d⟩ := nonempty_derivation_of_resolve h
  have hiff := forall_resolve_eq_iff d
  refine ⟨exists_parse?_of_derivation d, hiff, fun hvalue hproperties => ?_⟩
  have hfree : ∀ components, parse? result = some components →
      anyReference components = false := by
    intro components hparse
    have hresult := isFree_of_derivation hproperties d hvalue (tokens_complete_of_parse? hparse)
    exact (anyReference_eq_false_iff_isFree (parse?_eq_some_iff.1 hparse)).2 hresult
  exact ⟨hfree, hiff.2 hfree⟩

/-- A string that looks like a reference beside a reference that is replaced. -/
theorem resolve_eq_self_image :
    resolve accents "image('var(--x)', var(--accent))" = some "image('var(--x)', #00f)" ∧
      hasReference "image('var(--x)', #00f)" = true ∧
      ∀ later, resolve later "image('var(--x)', #00f)" = some "image('var(--x)', #00f)" := by
  have h : resolve accents "image('var(--x)', var(--accent))" = some "image('var(--x)', #00f)" := by
    decide +kernel
  have hvalue : isApart "image('var(--x)', var(--accent))" = true := by decide +kernel
  have haccents : AreApart accents := areApart_of_forall (by decide +kernel)
  exact ⟨h, by decide +kernel, ((resolve_eq_self h).2.2 hvalue haccents).2⟩

/-- Behind a reference that becomes the word `var`, a block becomes the arguments of a reference. -/
theorem exists_not_final :
    resolve [("--a", "var")] "var(--a)(--b)" = some "var(--b)" ∧
      (∃ components, parse? "var(--b)" = some components ∧ anyReference components = true) ∧
      resolve [] "var(--b)" = none ∧ resolve [("--b", "red")] "var(--b)" = some "red" := by
  have hany : (parse? "var(--b)").any anyReference = true := by decide +kernel
  exact ⟨by decide +kernel, (Option.any_eq_true ..).1 hany, by decide +kernel, by decide +kernel⟩

end ContrastAudit.Property

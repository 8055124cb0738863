import ContrastAudit.Proofs.Text.Case
import ContrastAudit.Proofs.Value.Separators

/-!
# Values in lower case

Lowering a value may change what its tokens are: a sign of its own may become a letter and be read
as one word with what stands beside it, and one character may become two.  It never changes the
strings and the nesting of the value, and a text between whose components nothing separates stays
such a text.

A text may be read in lower case only.  A hash must have a name behind it, and two characters, the
Kelvin sign and the dotted capital I, become one of a name without being one.  In front of them a
hash is what is lost, and nothing else is.

**Results.**
* `exists_parseChars_lower`: the components of a value in lower case are no separators if those of
  the value are none.
* `unsplit_of_recased_unsplit`: nor are those of the value if those in lower case are none.
* `run_ne_lost_of_lowerFrom`: which texts are only read in lower case.
-/

namespace ContrastAudit

theorem isSeparator_of_isOrdinary {c : Char} (h : Text.isOrdinary c = true) :
    isSeparator c = false := by
  have hparts := Text.isOrdinary_iff.1 h
  simp [isSeparator, hparts]

namespace Balance

/-! ## Passes over a text in lower case -/

/-- Where a pass stands behind ordinary characters. -/
def settle : Balance → Balance
  | .hash depth => .text depth
  | .escaped quote depth => .quoted quote depth
  | b => b

section Ordinary

variable {b : Balance} {c : Char}

theorem next_of_isOrdinary (hb : b.HasQuote) (hhash : ∀ depth, b ≠ hash depth)
    (hc : Text.isOrdinary c = true) : b.next c = b.settle := by
  obtain ⟨hblank, hdouble, hsingle, hopening, hclosing, hname, hbackslash, -, -⟩ :=
    Text.isOrdinary_iff.1 hc
  cases b with
  | text depth => simp [next, settle, hdouble, hsingle, hopening, hclosing, hname]
  | hash depth => exact absurd rfl (hhash depth)
  | quoted quote depth =>
      have hquote : c ≠ quote := by
        rintro rfl
        rcases hb with rfl | rfl
        · exact hdouble rfl
        · exact hsingle rfl
      simp [next, settle, hquote, hbackslash]
  | escaped quote depth =>
      have hbreak : c ≠ '\n' := by
        rintro rfl
        contradiction
      simp [next, settle, hbreak]
  | lost => rfl

theorem HasQuote.settle (hb : b.HasQuote) : b.settle.HasQuote := by
  cases b with
  | hash depth => trivial
  | _ => exact hb

theorem settle_ne_hash (depth : Nat) : b.settle ≠ hash depth := by
  cases b <;> rintro ⟨⟩

@[simp] theorem settle_settle : b.settle.settle = b.settle := by
  cases b <;> rfl

/-- Behind ordinary characters, and not behind a hash, a pass settles. -/
theorem run_of_isOrdinary (hb : b.HasQuote) (hhash : ∀ depth, b ≠ hash depth) {ds : List Char}
    (hds : ∀ d ∈ ds, Text.isOrdinary d = true) (hne : ds ≠ []) : b.run ds = b.settle := by
  induction ds generalizing b with
  | nil => exact absurd rfl hne
  | cons d ds ih =>
      obtain ⟨hd, hds⟩ := List.forall_mem_cons.1 hds
      rw [run_cons, next_of_isOrdinary hb hhash hd]
      by_cases hrest : ds = []
      · rw [hrest, run_nil]
      · rw [ih hb.settle settle_ne_hash hds hrest, settle_settle]

/-- A pass goes where it goes behind a character also behind what this character becomes in lower
case. -/
theorem run_of_recasedChar (hb : b.HasQuote) {ds : List Char} (h : Text.RecasedChar c ds)
    (hnext : b.next c ≠ lost) : b.run ds = b.next c := by
  cases h with
  | same => rfl
  | ordinary hc hds hne hname =>
      cases b with
      | hash depth =>
          have hchar := isNameChar_of_next_hash hnext
          obtain ⟨d, rfl, hd⟩ := hname hchar
          simp [next, hchar, hd]
      | _ =>
          rw [run_of_isOrdinary hb (by rintro _ ⟨⟩) hds hne,
            next_of_isOrdinary hb (by rintro _ ⟨⟩) hc]

end Ordinary

/-- A pass that is not lost goes the same way over a text in lower case. -/
theorem run_of_recased {b : Balance} {cs ds : List Char} (h : Text.Recased cs ds)
    (hb : b.HasQuote) (hrun : b.run cs ≠ lost) : b.run ds = b.run cs := by
  induction h generalizing b with
  | nil => rfl
  | @cons c cs ds es hc _ ih =>
      rw [run_append, run_of_recasedChar hb hc (next_ne_lost_of_run hrun), run_cons,
        ih (hb.next c) hrun]

theorem unsplit_of_recased {b : Balance} {cs ds : List Char} (h : Text.Recased cs ds)
    (hb : b.HasQuote) (hrun : b.run cs ≠ lost) (hcs : Unsplit b cs) : Unsplit b ds := by
  induction h generalizing b with
  | nil => trivial
  | @cons c cs ds es hc _ ih =>
      have hrest : Unsplit (b.next c) es := ih (hb.next c) hrun hcs.2
      rw [unsplit_append, run_of_recasedChar hb hc (next_ne_lost_of_run hrun)]
      refine ⟨?_, hrest⟩
      cases hc with
      | same => exact ⟨hcs.1, trivial⟩
      | ordinary _ hds _ _ =>
          exact unsplit_of_forall fun d hd => isSeparator_of_isOrdinary (hds d hd)

/-- What separates in a text does so in lower case. -/
theorem unsplit_of_recased_unsplit {b : Balance} {cs ds : List Char} (h : Text.Recased cs ds)
    (hb : b.HasQuote) (hrun : b.run cs ≠ lost) (hds : Unsplit b ds) : Unsplit b cs := by
  induction h generalizing b with
  | nil => trivial
  | @cons c cs ds es hc _ ih =>
      rw [unsplit_append, run_of_recasedChar hb hc (next_ne_lost_of_run hrun)] at hds
      refine ⟨fun houtside => ?_, ih (hb.next c) hrun hds.2⟩
      cases hc with
      | same => exact hds.1.1 houtside
      | ordinary hc _ _ _ => exact isSeparator_of_isOrdinary hc

/-! ## Texts that are lost unless they are in lower case -/

theorem eq_hash_of_next {b : Balance} {c : Char} {depth : Nat} (h : b.next c = hash depth) :
    c = '#' := by
  cases b with
  | text n =>
      rw [next] at h
      split_ifs at h with hquote hopening hclosing hzero hname
      exact hname
  | hash n =>
      rw [next] at h
      split_ifs at h
  | quoted quote n =>
      rw [next] at h
      split_ifs at h
  | escaped quote n =>
      rw [next] at h
      split_ifs at h
  | lost => cases h

/-- What a character becomes loses a pass if the character does, unless the pass is behind a hash
and the character becomes one of a name. -/
theorem next_ne_lost_of_recasedChar {b : Balance} {c : Char} {ds : List Char} (hb : b.HasQuote)
    (h : Text.RecasedChar c ds)
    (hname : ∀ depth, b = hash depth → ∀ d ∈ ds.head?, Text.isNameChar d = true →
      Text.isNameChar c = true)
    (hrun : b.run ds ≠ lost) : b.next c ≠ lost := by
  intro hlost
  cases h with
  | same =>
      rw [run_cons, hlost] at hrun
      exact hrun rfl
  | ordinary hc hds hne _ =>
      cases b with
      | hash depth =>
          obtain ⟨d, ds, rfl⟩ := List.exists_cons_of_ne_nil hne
          have hd := isNameChar_of_next_hash (next_ne_lost_of_run hrun)
          simp [next, hname depth rfl d rfl hd] at hlost
      | lost => exact hrun (run_lost _)
      | _ =>
          rw [next_of_isOrdinary hb (by rintro _ ⟨⟩) hc] at hlost
          cases hlost

/-- A pass that is not lost in lower case is not lost unless a hash stands in front of a false
name. -/
theorem run_ne_lost_of_lowerFrom {b : Balance} {before cs : List Char} (hb : b.HasQuote)
    (hhash : ∀ depth, b = hash depth → ∀ c ∈ cs.head?, c ∉ Text.falseNames)
    (hcs : ∀ c ∈ Text.falseNames, ¬ ['#', c] <:+: cs)
    (hlower : b.run (Text.lowerFrom before cs) ≠ lost) : b.run cs ≠ lost := by
  induction cs generalizing b before with
  | nil => exact hlower
  | cons c cs ih =>
      obtain ⟨ds, hc, heq, hname⟩ := Text.exists_lowered before c cs
      rw [heq, run_append] at hlower
      have hds : b.run ds ≠ lost := by
        intro hlost
        rw [hlost, run_lost] at hlower
        exact hlower rfl
      have hnext : b.next c ≠ lost := by
        refine next_ne_lost_of_recasedChar hb hc (fun depth hdepth d hd hdname => ?_) hds
        exact (hname d hd hdname).resolve_right (hhash depth hdepth c rfl)
      rw [run_of_recasedChar hb hc hnext] at hlower
      rw [run_cons]
      refine ih (hb.next c) (fun depth hdepth d hd hmem => ?_) (fun d hd hinside => ?_) hlower
      · obtain ⟨rest, rfl⟩ := List.head?_eq_some_iff.1 hd
        refine hcs d hmem ⟨[], rest, ?_⟩
        rw [eq_hash_of_next hdepth]
        rfl
      · exact hcs d hd (hinside.trans (List.suffix_cons c cs).isInfix)

end Balance

namespace Component

/-- The components of a text in lower case are no separators if those of the text are none, and
there are some if there are some of the text. -/
theorem exists_parseChars_lower {cs : List Char} {components : List Component}
    (h : parseChars cs = .ok components) (hapart : ∀ c ∈ components, c.separates = false) :
    ∃ lowered, parseChars (Text.lower cs) = .ok lowered ∧
      (∀ c ∈ lowered, c.separates = false) ∧ (components ≠ [] → lowered ≠ []) := by
  have hbalanced : IsBalancedValue cs := (exists_parseChars_iff cs).1 ⟨components, h⟩
  have hrun : (Balance.text 0).run cs ≠ .lost := by
    rw [hbalanced]
    rintro ⟨⟩
  have hquote : (Balance.text 0).HasQuote := trivial
  have hlower : IsBalancedValue (Text.lower cs) := by
    rw [IsBalancedValue, Balance.run_of_recased (Text.recased_lower cs) hquote hrun]
    exact hbalanced
  obtain ⟨lowered, hlowered⟩ := (exists_parseChars_iff _).2 hlower
  refine ⟨lowered, hlowered, ?_, fun hne hnil => ?_⟩
  · rw [← unsplit_iff_of_parseChars hlowered]
    exact Balance.unsplit_of_recased (Text.recased_lower cs) hquote hrun
      ((unsplit_iff_of_parseChars h).2 hapart)
  · subst hnil
    have hempty := charsOfAll_of_parseChars hlowered
    have hcs : cs ≠ [] := by
      rintro rfl
      have hnone : parseChars [] = .ok [] := parseChars_eq_ok_iff.2 (by simp)
      rw [hnone] at h
      cases h
      exact hne rfl
    exact (Text.recased_lower cs).ne_nil hcs hempty.symm

end Component

end ContrastAudit

import ContrastAudit.Proofs.Property.Derivation
import ContrastAudit.Proofs.Property.Reference
import ContrastAudit.Proofs.Value.Piece

/-!
# References that stand apart

What a reference is replaced by stands next to what stood around the reference, and the text is read
again as a whole.  A neighbour may then be added to: behind a word the text of a block makes a
function.  References stand apart if nothing can be added to the component in front of them, and
the component behind them starts with a character that is added to nothing.

**Results.**
* `isFree_of_derivation`: if the references of a value and of all properties stand apart, then what
  the value resolves to is free of references.
-/

namespace ContrastAudit

namespace Component

/-- Whether nothing but white space can be added to a component. -/
def isClosed : Component → Bool
  | .leaf kind text => kind == .space || Token.isClosed ⟨.leaf kind, text.toList⟩
  | _ => true

/-- Whether a component starts with a character that is added to nothing in front of it. -/
def startsApart : Component → Bool
  | .leaf _ text => text.toList.head?.any Token.isStop
  | _ => false

/-- Whether two neighbours stay apart whatever a reference among them is replaced by. -/
def parted (c d : Component) : Bool :=
  (!d.isReference || c.isClosed) && (!c.isReference || d.startsApart)

mutual

/-- Whether the references inside of a component stand apart. -/
def isApart : Component → Bool
  | .leaf _ _ => true
  | .function _ children => areApart children
  | .block children => areApart children

/-- Whether the references of a sequence stand apart at every depth. -/
def areApart : List Component → Bool
  | [] => true
  | c :: cs => c.isApart && (cs.head?.all c.parted && areApart cs)

end

section Apart

variable {c d : Component} {cs ds : List Component}

theorem areApart_cons :
    areApart (c :: cs) = true ↔
      c.isApart = true ∧ (∀ d ∈ cs.head?, c.parted d = true) ∧ areApart cs = true := by
  rw [areApart, Bool.and_eq_true, Bool.and_eq_true, Option.all_eq_true]
  rfl

theorem areApart_append (h : areApart (cs ++ ds) = true) :
    areApart cs = true ∧ areApart ds = true := by
  induction cs with
  | nil => exact ⟨by simp [areApart], h⟩
  | cons c cs ih =>
      obtain ⟨hc, hparted, hrest⟩ := areApart_cons.1 h
      refine ⟨areApart_cons.2 ⟨hc, fun d hd => hparted d ?_, (ih hrest).1⟩, (ih hrest).2⟩
      obtain ⟨rest, rfl⟩ := List.head?_eq_some_iff.1 hd
      rfl

theorem parted_iff :
    c.parted d = true ↔
      (d.isReference = true → c.isClosed = true) ∧
        (c.isReference = true → d.startsApart = true) := by
  cases hc : c.isReference <;> cases hd : d.isReference <;> simp [parted, hc, hd]

/-- A leaf in front of a reference is white space or a token that nothing can be added to. -/
theorem isClosed_of_parted {kind : LeafKind} {text : String}
    (h : ∀ d ∈ cs.head?, (leaf kind text).parted d = true)
    (hreference : cs.head?.any isReference = true) :
    kind = .space ∨ Token.isClosed ⟨.leaf kind, text.toList⟩ = true := by
  obtain ⟨d, hd, hd'⟩ := (Option.any_eq_true ..).1 hreference
  have hclosed := (parted_iff.1 (h d hd)).1 hd'
  simpa [isClosed] using hclosed

end Apart

end Component

namespace Property

open Component Token

/-- Whether the references of a value stand apart, if it can be read. -/
def isApart (value : String) : Bool :=
  (Component.parse? value).all areApart

/-- A block must not stand behind a reference and a point not in front of one. -/
example : isApart "var(--a)(--b)" = false ∧ isApart ".var(--a)" = false ∧
    isApart "a,var(--b, c var(--d)) e" = true := by
  decide +kernel

section Steps

variable {properties : PropertyMap} {components out : List Component} {cs ds rest rest' : List Char}
  {t : Token}

/-! ## What follows a token -/

/-- A text stays free when a free one comes behind its first token, provided that the token is still
read. -/
theorem isFree_append_of_scan (hkind : t.kind ≠ .function)
    (hscan : scan (t.chars ++ cs) = some (t, cs))
    (hbehind : t.isClosed = true ∨ t.kind = .leaf .space ∨ Agrees cs ds) (hds : IsFree ds) :
    IsFree (t.chars ++ ds) := by
  have hfree := not_startsReference_of_kind hkind
  rcases hbehind with hclosed | hspace | hagrees
  · exact (isFree_iff_of_scan (scan_of_isClosed hclosed hscan ds)).2 ⟨hfree, hds⟩
  · exact (isFree_blank_append_iff (allBlank_of_scan hspace hscan) ds).2 hds
  · exact (isFree_iff_of_scan (scan_of_agrees hscan hagrees)).2 ⟨hfree, hds⟩

/-- A text ends or goes on with a character that is added to nothing in front of it. -/
def StopsAt (cs : List Char) : Prop :=
  ∀ c ∈ cs.head?, isStop c = true

theorem IsFree.append (hcs : IsFree cs) (hds : IsFree ds) (hstops : StopsAt ds) :
    IsFree (cs ++ ds) := by
  cases ds with
  | nil => rwa [List.append_nil]
  | cons c ds => exact (isFree_append_stop_iff hcs.complete (hstops c rfl) ds).2 ⟨hcs, hds⟩

theorem stopsAt_nil : StopsAt [] := by
  rintro _ ⟨⟩

theorem stopsAt_closing (cs : List Char) : StopsAt (')' :: cs) := by
  rintro _ ⟨⟩
  decide

theorem isFree_closing_iff : IsFree (')' :: cs) ↔ IsFree cs := by
  rw [isFree_iff_of_scan (scan_closing cs)]
  exact and_iff_right (not_startsReference_of_kind (by decide))

theorem isFree_opening_iff : IsFree ('(' :: cs) ↔ IsFree cs := by
  rw [isFree_iff_of_scan (scan_opening cs)]
  exact and_iff_right (not_startsReference_of_kind (by decide))

/-- White space at the ends of a free text does not count. -/
theorem IsFree.trim (h : IsFree cs) (hcomplete : (Token.tokens (Text.trim cs)).2 = []) :
    IsFree (Text.trim cs) := by
  obtain ⟨before, after, hbefore, hafter, hcs⟩ := Text.exists_trim_between cs
  rw [hcs, isFree_blank_append_iff hbefore] at h
  cases after with
  | nil => rwa [List.append_nil] at h
  | cons c after =>
      have hc : isStop c = true :=
        isStop_of_isBlank (List.all_eq_true.1 hafter c List.mem_cons_self)
      exact ((isFree_append_stop_iff hcomplete hc after).1 h).1

/-! ## What follows a component -/

/-- Texts agree from the beginning of a leaf that nothing can be added to. -/
theorem agrees_leaf_of_isClosed {kind : LeafKind} {text : String}
    (hclosed : kind = .space ∨ Token.isClosed ⟨.leaf kind, text.toList⟩ = true)
    (hscan : scan (text.toList ++ cs) = some (⟨.leaf kind, text.toList⟩, cs)) :
    Agrees (text.toList ++ ds) (text.toList ++ rest) := by
  obtain ⟨c, chars, hchars, hc⟩ := exists_isBoundary_of_scan
    (t := ⟨.leaf kind, text.toList⟩) (by simp) (by simpa [or_comm] using hclosed) hscan
  have hchars' : text.toList = c :: chars := hchars
  rw [hchars']
  exact .upTo hc [] _ _

/-- Behind a component that is no reference the text is what it was, up to the beginning of the
token in front of the next reference. -/
theorem agrees_of_replacement (r : Replacement properties components out)
    (hread : ReadBefore rest components) (hapart : areApart components = true)
    (hrest : Agrees rest rest') (hhead : components.head?.any isReference = false) :
    Agrees (charsOfAll components ++ rest) (charsOfAll out ++ rest') := by
  induction components generalizing out with
  | nil =>
      cases r
      exact hrest
  | cons c components ih =>
      obtain ⟨-, hparted, hbehind⟩ := areApart_cons.1 hapart
      cases r with
      | @leaf kind text _ out r =>
          obtain ⟨hscan, hreadBehind⟩ := hread.leaf
          rw [charsOfAll_cons, charsOfAll_cons, List.append_assoc, List.append_assoc]
          cases hreference : components.head?.any isReference with
          | false => exact (ih r hreadBehind hbehind hreference).append _
          | true => exact agrees_leaf_of_isClosed (isClosed_of_parted hparted hreference) hscan
      | @block children replaced _ out r₁ r₂ =>
          have hagrees := Agrees.upTo (c := '(') (by decide) []
            (charsOfAll children ++ ')' :: (charsOfAll components ++ rest))
            (charsOfAll replaced ++ ')' :: (charsOfAll out ++ rest'))
          simpa [Component.chars] using hagrees
      | @function name children replaced _ out hname r₁ r₂ =>
          have hagrees := Agrees.upTo (c := '(') (by decide) name.toList
            (charsOfAll children ++ ')' :: (charsOfAll components ++ rest))
            (charsOfAll replaced ++ ')' :: (charsOfAll out ++ rest'))
          simpa [Component.chars] using hagrees
      | bound hname => simp [isReference, hname] at hhead
      | fallback hname => simp [isReference, hname] at hhead

/-- What is behind a reference still stops what is in front of it. -/
theorem stopsAt_of_replacement (r : Replacement properties components out)
    (hstarts : ∀ c ∈ components.head?, c.startsApart = true) (hrest : StopsAt rest) :
    StopsAt (charsOfAll out ++ rest) := by
  cases r with
  | nil => exact hrest
  | @leaf kind text _ out r =>
      obtain ⟨c, hc, hstop⟩ := (Option.any_eq_true ..).1 (hstarts _ rfl)
      obtain ⟨chars, hchars⟩ := List.head?_eq_some_iff.1 hc
      rw [charsOfAll_cons, Component.chars, hchars]
      rintro _ ⟨⟩
      exact hstop
  | block => exact absurd (hstarts _ rfl) (by simp [startsApart])
  | function => exact absurd (hstarts _ rfl) (by simp [startsApart])
  | bound => exact absurd (hstarts _ rfl) (by simp [startsApart])
  | fallback => exact absurd (hstarts _ rfl) (by simp [startsApart])

/-- A leaf stays what it is, whatever the references behind it are replaced by. -/
theorem isFree_leaf_cons {kind : LeafKind} {text : String}
    (r : Replacement properties components out)
    (hread : ReadBefore rest (.leaf kind text :: components))
    (hapart : areApart (.leaf kind text :: components) = true) (hrest : Agrees rest rest')
    (hout : IsFree (charsOfAll out ++ rest')) :
    IsFree (charsOfAll (.leaf kind text :: out) ++ rest') := by
  obtain ⟨-, hparted, hbehind⟩ := areApart_cons.1 hapart
  obtain ⟨hscan, hreadBehind⟩ := hread.leaf
  have hfollows : Token.isClosed ⟨.leaf kind, text.toList⟩ = true ∨ kind = .space ∨
      Agrees (charsOfAll components ++ rest) (charsOfAll out ++ rest') := by
    cases hreference : components.head?.any isReference with
    | false => exact .inr (.inr (agrees_of_replacement r hreadBehind hbehind hrest hreference))
    | true =>
        rcases isClosed_of_parted hparted hreference with hspace | hclosed
        · exact .inr (.inl hspace)
        · exact .inl hclosed
  rw [charsOfAll_cons, Component.chars, List.append_assoc]
  exact isFree_append_of_scan (t := ⟨.leaf kind, text.toList⟩) (by simp) hscan
    (by simpa using hfollows) hout

theorem isFree_block_cons (children : List Component)
    (h : IsFree (charsOfAll children ++ ')' :: (charsOfAll out ++ rest))) :
    IsFree (charsOfAll (.block children :: out) ++ rest) := by
  simpa [Component.chars] using isFree_opening_iff.2 h

theorem isFree_function_cons {name : String} {children replaced : List Component}
    (hname : Text.lowercase name ≠ "var")
    (hread : ReadBefore rest (.function name children :: components))
    (h : IsFree (charsOfAll replaced ++ ')' :: (charsOfAll out ++ rest'))) :
    IsFree (charsOfAll (.function name replaced :: out) ++ rest') := by
  have hscan := scan_of_isClosed (t := ⟨.function, name.toList ++ ['(']⟩) rfl hread.function.1
    (charsOfAll replaced ++ ')' :: (charsOfAll out ++ rest'))
  have hfree := (isFree_iff_of_scan hscan).2 ⟨startsReference_function_iff.not.2 hname, h⟩
  simpa [Component.chars] using hfree

/-- The references of a fallback stand apart if those of the arguments do. -/
theorem isApart_of_writes {arguments : List Component} {name fallback : String}
    (h : Writes arguments name fallback) (hne : fallback ≠ "") (hread : ReadBefore rest arguments)
    (hapart : areApart arguments = true) : isApart fallback = true := by
  cases h with
  | name => exact absurd rfl hne
  | @nameAndFallback front args comma hfront hcomma =>
      obtain ⟨before, behind, hargs⟩ := infix_stripSpace args
      have hsplit : front ++ comma :: args =
          (front ++ comma :: before) ++ (stripSpace args ++ behind) := by
        conv => lhs; rw [← hargs]
        simp
      rw [hsplit] at hread hapart
      have hparse := hread.append.2.append.1.parseChars_eq
      rw [isApart, Option.all_eq_true]
      intro components hcomponents
      rw [parse?_eq_some_iff, render, String.toList_ofList, hparse] at hcomponents
      cases hcomponents
      exact (areApart_append (areApart_append hapart).2).1

end Steps

/-! ## Resolving -/

/-- The references of the value of every property stand apart. -/
def AreApart (properties : PropertyMap) : Prop :=
  ∀ name value, properties.get? name = some value → isApart value = true

theorem areApart_of_forall {properties : PropertyMap}
    (h : ∀ entry ∈ properties, isApart entry.2 = true) : AreApart properties := by
  induction properties with
  | nil =>
      intro name value hget
      contradiction
  | cons entry properties ih =>
      obtain ⟨hentry, hrest⟩ := List.forall_mem_cons.1 h
      intro name value hget
      rw [PropertyMap.get?] at hget
      split at hget
      · cases hget
        exact hentry
      · exact ih hrest name value hget

section Reference

variable {properties : PropertyMap} {arguments replacement components out : List Component}
  {function text : String} {rest : List Char}

/-- What a reference is replaced by is free together with what is behind it. -/
theorem isFree_of_reference (hname : Text.lowercase function = "var")
    (hapart : areApart (.function function arguments :: components) = true)
    (hparse : parse? text = some replacement) (htext : IsFree text.toList)
    (r : Replacement properties components out) (hrest : StopsAt rest)
    (hbehind : IsFree (charsOfAll out ++ rest)) :
    IsFree (charsOfAll (replacement ++ out) ++ rest) := by
  obtain ⟨-, hparted, -⟩ := areApart_cons.1 hapart
  have hstarts : ∀ c ∈ components.head?, c.startsApart = true := fun c hc =>
    (parted_iff.1 (hparted c hc)).2 (by simp [isReference, hname])
  rw [charsOfAll_append, charsOfAll_of_parseChars (parse?_eq_some_iff.1 hparse), List.append_assoc]
  exact htext.append hbehind (stopsAt_of_replacement r hstarts hrest)

end Reference

mutual

/-- What a value resolves to is free of references if those of the value and of all properties stand
apart. -/
theorem isFree_of_derivation {properties : PropertyMap} (hproperties : AreApart properties) :
    ∀ {value result : String}, Derivation properties value result → isApart value = true →
      (Token.tokens result.toList).2 = [] → IsFree result.toList
  | _, _, .plain hr => fun _ hcomplete => isFree_of_not_hasReference hr hcomplete
  | _, _, .replaced hr hparse r => by
      intro hapart hcomplete
      rw [isApart, hparse] at hapart
      have hread := readBefore_of_parseChars (parse?_eq_some_iff.1 hparse)
      have hout :=
        isFree_of_replacement hproperties r hapart hread (.refl []) isFree_nil stopsAt_nil
      rw [Text.strip, render, String.toList_ofList, String.toList_ofList] at hcomplete ⊢
      rw [List.append_nil] at hout
      exact hout.trim hcomplete

/-- What replaces components whose references stand apart is free together with a free text that
stops it. -/
theorem isFree_of_replacement {properties : PropertyMap} (hproperties : AreApart properties) :
    ∀ {components out : List Component} {rest rest' : List Char},
      Replacement properties components out → areApart components = true →
      ReadBefore rest components → Agrees rest rest' → IsFree rest' → StopsAt rest' →
      IsFree (charsOfAll out ++ rest')
  | _, _, _, _, .nil => fun _ _ _ hfree _ => hfree
  | _, _, _, _, .leaf r => by
      intro hapart hread hagrees hfree hstops
      obtain ⟨-, -, hbehind⟩ := areApart_cons.1 hapart
      obtain ⟨-, hreadBehind⟩ := hread.leaf
      have hout := isFree_of_replacement hproperties r hbehind hreadBehind hagrees hfree hstops
      exact isFree_leaf_cons r hread hapart hagrees hout
  | _, _, _, _, .block r₁ r₂ => by
      intro hapart hread hagrees hfree hstops
      obtain ⟨hchildren, -, hbehind⟩ := areApart_cons.1 hapart
      obtain ⟨hreadChildren, hreadBehind⟩ := hread.block
      have hout := isFree_of_replacement hproperties r₂ hbehind hreadBehind hagrees hfree hstops
      have hreplaced := isFree_of_replacement hproperties r₁ hchildren hreadChildren
        (.upTo (by decide) [] _ _) (isFree_closing_iff.2 hout) (stopsAt_closing _)
      exact isFree_block_cons _ hreplaced
  | _, _, _, _, .function hname r₁ r₂ => by
      intro hapart hread hagrees hfree hstops
      obtain ⟨hchildren, -, hbehind⟩ := areApart_cons.1 hapart
      obtain ⟨-, hreadChildren, hreadBehind⟩ := hread.function
      have hout := isFree_of_replacement hproperties r₂ hbehind hreadBehind hagrees hfree hstops
      have hreplaced := isFree_of_replacement hproperties r₁ hchildren hreadChildren
        (.upTo (by decide) [] _ _) (isFree_closing_iff.2 hout) (stopsAt_closing _)
      exact isFree_function_cons hname hread hreplaced
  | _, _, _, _, .bound hname hwrites hget d hparse r => by
      intro hapart hread hagrees hfree hstops
      obtain ⟨-, -, hbehind⟩ := areApart_cons.1 hapart
      obtain ⟨-, -, hreadBehind⟩ := hread.function
      have hout := isFree_of_replacement hproperties r hbehind hreadBehind hagrees hfree hstops
      have htext := isFree_of_derivation hproperties d (hproperties _ _ hget)
        (tokens_complete_of_parse? hparse)
      exact isFree_of_reference hname hapart hparse htext r hstops hout
  | _, _, _, _, .fallback hname hwrites hget hne d hparse r => by
      intro hapart hread hagrees hfree hstops
      obtain ⟨harguments, -, hbehind⟩ := areApart_cons.1 hapart
      obtain ⟨-, hreadArguments, hreadBehind⟩ := hread.function
      have hout := isFree_of_replacement hproperties r hbehind hreadBehind hagrees hfree hstops
      have hfallback := isApart_of_writes hwrites hne hreadArguments harguments
      have htext := isFree_of_derivation hproperties d hfallback (tokens_complete_of_parse? hparse)
      exact isFree_of_reference hname hapart hparse htext r hstops hout

end

end Property

end ContrastAudit

import ContrastAudit.Proofs.Number.Fault
import ContrastAudit.Proofs.Property.Map
import ContrastAudit.Token.Flatten

/-!
# References between tokens

A color token may refer to another one by its path.  References are followed until a text comes that
refers to no token, but over ten tokens at most, and what has been reached then is the value of the
property.  So a token has the color at the end of its references if that is near enough.  Otherwise
its value is a reference: the one that leads nowhere, or the one at which the search was given up,
and in general neither of them is the one that the token was written with.

**Results.**
* `followAlias_eq_iff`: what the search comes to.
* `get?_flatten`: the value of every color token of a document.
-/

namespace ContrastAudit.Token

open Json

/-! ## Following references -/

section Following

variable {tokens : PropertyMap} {text next value : String} {hops limit : Nat}

/-- One text is a reference to the token that has the other one. -/
def RefersTo (tokens : PropertyMap) (text next : String) : Prop :=
  ∃ target, aliasTarget? text.toList = some target ∧
    tokens.get? (String.ofList target) = some next

/-- One text leads to the other one over a number of references. -/
inductive Leads (tokens : PropertyMap) : Nat → String → String → Prop
  | here (text : String) : Leads tokens 0 text text
  | step {hops : Nat} {text next value : String} :
      RefersTo tokens text next → Leads tokens hops next value →
      Leads tokens (hops + 1) text value

/-- A text is no reference, or one to a token that does not exist. -/
def IsEnd (tokens : PropertyMap) (text : String) : Prop :=
  ∀ next, ¬ RefersTo tokens text next

/-- What a text comes to when a limited number of references is followed: the end of its references,
or what they lead to at the limit. -/
def ComesTo (tokens : PropertyMap) (limit : Nat) (text value : String) : Prop :=
  ∃ hops ≤ limit, Leads tokens hops text value ∧ (hops = limit ∨ IsEnd tokens value)

theorem RefersTo.unique {next' : String} (h : RefersTo tokens text next)
    (h' : RefersTo tokens text next') : next = next' := by
  obtain ⟨target, htarget, hnext⟩ := h
  obtain ⟨target', htarget', hnext'⟩ := h'
  cases htarget.symm.trans htarget'
  exact Option.some.inj (hnext.symm.trans hnext')

theorem isEnd_of_not_alias (h : aliasTarget? text.toList = none) : IsEnd tokens text := by
  rintro next ⟨target, htarget, -⟩
  rw [h] at htarget
  cases htarget

theorem isEnd_of_missing {target : List Char} (h : aliasTarget? text.toList = some target)
    (hmissing : tokens.get? (String.ofList target) = none) : IsEnd tokens text := by
  rintro next ⟨target', htarget', hnext⟩
  cases h.symm.trans htarget'
  rw [hmissing] at hnext
  cases hnext

theorem comesTo_zero_iff : ComesTo tokens 0 text value ↔ text = value := by
  constructor
  · rintro ⟨hops, hle, hleads, -⟩
    obtain rfl := Nat.le_zero.1 hle
    cases hleads
    rfl
  · rintro rfl
    exact ⟨0, Nat.le_refl 0, .here text, .inl rfl⟩

theorem IsEnd.comesTo_iff (h : IsEnd tokens text) :
    ComesTo tokens limit text value ↔ text = value := by
  constructor
  · rintro ⟨hops, -, hleads, -⟩
    cases hleads with
    | here => rfl
    | step hrefers _ => exact absurd hrefers (h _)
  · rintro rfl
    exact ⟨0, Nat.zero_le limit, .here text, .inr h⟩

/-- The first of several references leaves one less to follow. -/
theorem RefersTo.comesTo_iff (h : RefersTo tokens text next) :
    ComesTo tokens (limit + 1) text value ↔ ComesTo tokens limit next value := by
  constructor
  · rintro ⟨hops, hle, hleads, hstop⟩
    cases hleads with
    | here =>
        rcases hstop with hzero | hend
        · exact absurd hzero (Nat.succ_ne_zero limit).symm
        · exact absurd h (hend next)
    | step hrefers hleads =>
        cases h.unique hrefers
        exact ⟨_, Nat.le_of_succ_le_succ hle, hleads, hstop.imp_left Nat.succ.inj⟩
  · rintro ⟨hops, hle, hleads, hstop⟩
    exact ⟨hops + 1, Nat.succ_le_succ hle, .step h hleads, hstop.imp_left (congrArg Nat.succ)⟩

/-- The search for the end of references finds what a text comes to. -/
theorem followAlias_eq_iff :
    followAlias tokens limit text = value ↔ ComesTo tokens limit text value := by
  induction limit generalizing text with
  | zero => exact comesTo_zero_iff.symm
  | succ limit ih =>
      cases htarget : aliasTarget? text.toList with
      | none =>
          rw [followAlias_of_not_alias htarget, (isEnd_of_not_alias htarget).comesTo_iff]
      | some target =>
          rw [followAlias, htarget]
          dsimp only
          cases hnext : tokens.get? (String.ofList target) with
          | none => exact (isEnd_of_missing htarget hnext).comesTo_iff.symm
          | some next =>
              have hrefers : RefersTo tokens text next := ⟨target, htarget, hnext⟩
              exact ih.trans hrefers.comesTo_iff.symm

end Following

/-! ## The values of properties -/

/-- The color tokens of a document by their paths. -/
def colorTable (root : List (String × Json)) : Except NumericFault PropertyMap :=
  (colorTokens [] ((lookup "$type" root).getD .null) root).map (PropertyMap.merge [])

/-- The properties that color tokens become. -/
def properties (tokens : PropertyMap) : PropertyMap :=
  PropertyMap.merge []
    (tokens.map fun (path, text) => (propertyName path, followAlias tokens maxReferences text))

/-- A color token with its text, where no later token has a path that makes the same name. -/
def IsLastNamed (tokens : PropertyMap) (path text : String) : Prop :=
  ∃ before behind, tokens = before ++ (path, text) :: behind ∧
    ∀ later ∈ PropertyMap.names behind, propertyName later ≠ propertyName path

theorem flatten_eq (root : List (String × Json)) :
    flatten root = (colorTable root).map properties := by
  unfold flatten colorTable
  dsimp only
  cases colorTokens [] ((lookup "$type" root).getD .null) root <;> rfl

theorem get?_properties {tokens : PropertyMap} {path text : String}
    (h : IsLastNamed tokens path text) :
    (properties tokens).get? (propertyName path) =
      some (followAlias tokens maxReferences text) := by
  obtain ⟨before, behind, htokens, hlast⟩ := h
  generalize hresolve : followAlias tokens maxReferences = resolve
  rw [properties, hresolve, htokens, List.map_append, List.map_cons]
  refine PropertyMap.get?_merge_last (fun hmem => ?_) _ _
  rw [PropertyMap.names, List.map_map] at hmem
  obtain ⟨later, hlater, hname⟩ := List.mem_map.1 hmem
  exact hlast later.1 (List.mem_map_of_mem hlater) hname

/-- The properties of a document are read whenever its color tokens are.  The value of a token is
what its text comes to over ten references at most. -/
theorem get?_flatten (root : List (String × Json)) :
    (∀ fault, flatten root = .error fault ↔ colorTable root = .error fault) ∧
      ∀ tokens, colorTable root = .ok tokens → ∃ map, flatten root = .ok map ∧
        ∀ path text, IsLastNamed tokens path text →
          map.get? (propertyName path) ≠ none ∧
          ∀ value, map.get? (propertyName path) = some value ↔
            ComesTo tokens maxReferences text value := by
  rw [flatten_eq]
  refine ⟨fun fault => map_eq_error_iff, fun tokens htokens => ?_⟩
  rw [htokens]
  refine ⟨properties tokens, rfl, fun path text hlast => ?_⟩
  rw [get?_properties hlast]
  refine ⟨Option.some_ne_none _, fun value => ?_⟩
  rw [Option.some.injEq, followAlias_eq_iff]

/-- Three tokens that refer to each other in a ring. -/
def ring : List (String × Json) :=
  [("a", .object [("$value", .string "\x7bb\x7d")]),
    ("b", .object [("$value", .string "\x7bc\x7d")]),
    ("c", .object [("$value", .string "\x7ba\x7d")])]

/-- The tokens of the ring by their paths. -/
def ringTable : PropertyMap :=
  [("a", "\x7bb\x7d"), ("b", "\x7bc\x7d"), ("c", "\x7ba\x7d")]

/-- In a ring of three the tenth reference leads from the first text to the second one. -/
theorem get?_flatten_ring :
    colorTable ring = .ok ringTable ∧ IsLastNamed ringTable "a" "\x7bb\x7d" ∧
      ∃ map, flatten ring = .ok map ∧ map.get? (propertyName "a") = some "\x7bc\x7d" := by
  have htable : colorTable ring = .ok ringTable := rfl
  have hlast : IsLastNamed ringTable "a" "\x7bb\x7d" := ⟨[], _, rfl, by decide +kernel⟩
  obtain ⟨map, hmap, hvalues⟩ := (get?_flatten ring).2 _ htable
  have hround : ∀ {hops : Nat} {value : String}, Leads ringTable hops "\x7bb\x7d" value →
      Leads ringTable (hops + 3) "\x7bb\x7d" value := fun hleads =>
    .step ⟨['b'], rfl, rfl⟩ (.step ⟨['c'], rfl, rfl⟩ (.step ⟨['a'], rfl, rfl⟩ hleads))
  have hten : Leads ringTable 10 "\x7bb\x7d" "\x7bc\x7d" :=
    hround (hround (hround (.step ⟨['b'], rfl, rfl⟩ (.here _))))
  exact ⟨htable, hlast, map, hmap,
    ((hvalues _ _ hlast).2 _).2 ⟨10, Nat.le_refl 10, hten, .inl rfl⟩⟩

/-- A token that refers to one whose own reference leads nowhere. -/
def dangling : List (String × Json) :=
  [("a", .object [("$value", .string "\x7bb\x7d")]),
    ("b", .object [("$value", .string "\x7bc\x7d")])]

/-- Its tokens by their paths. -/
def danglingTable : PropertyMap :=
  [("a", "\x7bb\x7d"), ("b", "\x7bc\x7d")]

theorem leads_dangling {hops : Nat} {value : String}
    (h : Leads danglingTable hops "\x7bb\x7d" value) :
    value = "\x7bb\x7d" ∨ value = "\x7bc\x7d" := by
  have hfirst : RefersTo danglingTable "\x7bb\x7d" "\x7bc\x7d" := ⟨['b'], rfl, rfl⟩
  have htarget : aliasTarget? "\x7bc\x7d".toList = some ['c'] := rfl
  have hend : IsEnd danglingTable "\x7bc\x7d" := isEnd_of_missing htarget rfl
  cases h with
  | here => exact .inl rfl
  | step hrefers hleads =>
      cases hfirst.unique hrefers
      cases hleads with
      | here => exact .inr rfl
      | step hrefers _ => exact absurd hrefers (hend _)

/-- A reference that leads to no color is not kept as it is written. -/
theorem not_forall_get?_flatten :
    ¬ ∀ root tokens, colorTable root = .ok tokens → ∃ map, flatten root = .ok map ∧
      ∀ path text, IsLastNamed tokens path text →
        (∀ hops value, hops ≤ maxReferences → Leads tokens hops text value →
          aliasTarget? value.toList = none → map.get? (propertyName path) = some value) ∧
        ((¬ ∃ hops value, hops ≤ maxReferences ∧ Leads tokens hops text value ∧
          aliasTarget? value.toList = none) → map.get? (propertyName path) = some text) := by
  intro h
  obtain ⟨map, hmap, hvalues⟩ := h dangling danglingTable rfl
  have hflat : flatten dangling = .ok [("--a", "\x7bc\x7d"), ("--b", "\x7bc\x7d")] := rfl
  cases hflat.symm.trans hmap
  have hlast : IsLastNamed danglingTable "a" "\x7bb\x7d" := ⟨[], _, rfl, by decide +kernel⟩
  have hkept := (hvalues _ _ hlast).2 ?_
  · exact absurd hkept (by decide +kernel)
  rintro ⟨hops, value, -, hleads, hcolor⟩
  rcases leads_dangling hleads with rfl | rfl
  · cases hcolor
  · cases hcolor

end ContrastAudit.Token

import ContrastAudit.Property.Substitution
import ContrastAudit.Proofs.Value.Arguments

/-!
# Derivations of substitutions

What a value resolves to can be said without counting how deep references go.  A derivation tells,
for a value and a result, what every reference in the value stands for and how that resolves in
turn.  Its chain is the largest number of references that are nested in one another.

**Results.**
* `resolve_eq_some_iff_derivation`: a value has a result exactly if a derivation with a short enough
  chain leads to it.
* `result_eq_of_derivations`: all derivations for a value lead to one result.
-/

namespace ContrastAudit.Property

/-- The arguments of a reference write a name, and behind the first comma a fallback; without a
comma the fallback is empty. -/
inductive Writes : List Component → String → String → Prop
  | name {arguments : List Component} :
      Component.NoComma arguments →
      Writes arguments (Component.render (Component.stripSpace arguments)) ""
  | nameAndFallback {front rest : List Component} {comma : Component} :
      Component.NoComma front →
      comma.isComma = true →
      Writes (front ++ comma :: rest) (Component.render (Component.stripSpace front))
        (Component.render (Component.stripSpace rest))

theorem referenceParts_of_writes {arguments : List Component} {name fallback : String}
    (h : Writes arguments name fallback) :
    referenceParts arguments = (name, fallback) := by
  cases h with
  | name hno =>
      simp [referenceParts, Component.splitArguments, Component.splitCommas_of_no_comma hno]
  | nameAndFallback hfront hcomma =>
      simp [referenceParts, Component.splitArguments,
        Component.splitCommas_append_comma hfront hcomma]

theorem writes_referenceParts (arguments : List Component) :
    Writes arguments (referenceParts arguments).1 (referenceParts arguments).2 := by
  have h : ∃ name fallback, Writes arguments name fallback := by
    rcases Component.noComma_or_exists_comma arguments with
      hno | ⟨front, comma, rest, rfl, hfront, hcomma⟩
    · exact ⟨_, _, .name hno⟩
    · exact ⟨_, _, .nameAndFallback hfront hcomma⟩
  obtain ⟨name, fallback, h⟩ := h
  rw [referenceParts_of_writes h]
  exact h

mutual

/-- How a value resolves to a result. -/
inductive Derivation (properties : PropertyMap) : String → String → Type
  /-- A value without a reference is its own result. -/
  | plain {value : String} :
      hasReference value = false →
      Derivation properties value value
  /-- Any other value is read, and its references are replaced. -/
  | replaced {value : String} {components out : List Component} :
      hasReference value = true →
      Component.parse? value = some components →
      Replacement properties components out →
      Derivation properties value (Text.strip (Component.render out))

/-- How the outermost references of a sequence are replaced, at whatever depth they stand. -/
inductive Replacement (properties : PropertyMap) : List Component → List Component → Type
  | nil : Replacement properties [] []
  | leaf {kind : LeafKind} {text : String} {rest out : List Component} :
      Replacement properties rest out →
      Replacement properties (.leaf kind text :: rest) (.leaf kind text :: out)
  | block {children replaced rest out : List Component} :
      Replacement properties children replaced →
      Replacement properties rest out →
      Replacement properties (.block children :: rest) (.block replaced :: out)
  | function {name : String} {children replaced rest out : List Component} :
      Text.lowercase name ≠ "var" →
      Replacement properties children replaced →
      Replacement properties rest out →
      Replacement properties (.function name children :: rest) (.function name replaced :: out)
  /-- A name that has a value stands for it, whatever the fallback is. -/
  | bound {function name fallback value text : String}
      {arguments replacement rest out : List Component} :
      Text.lowercase function = "var" →
      Writes arguments name fallback →
      properties.get? name = some value →
      Derivation properties value text →
      Component.parse? text = some replacement →
      Replacement properties rest out →
      Replacement properties (.function function arguments :: rest) (replacement ++ out)
  /-- A name without a value stands for a fallback that is not empty. -/
  | fallback {function name fallback text : String}
      {arguments replacement rest out : List Component} :
      Text.lowercase function = "var" →
      Writes arguments name fallback →
      properties.get? name = none →
      fallback ≠ "" →
      Derivation properties fallback text →
      Component.parse? text = some replacement →
      Replacement properties rest out →
      Replacement properties (.function function arguments :: rest) (replacement ++ out)

end

mutual

/-- The largest number of references that are nested along a derivation. -/
def Derivation.chain {properties : PropertyMap} {value result : String} :
    Derivation properties value result → Nat
  | .plain _ => 0
  | .replaced _ _ r => r.chain

/-- The largest number of references that are nested along a replacement. -/
def Replacement.chain {properties : PropertyMap} {components out : List Component} :
    Replacement properties components out → Nat
  | .nil => 0
  | .leaf rest => rest.chain
  | .block children rest => max children.chain rest.chain
  | .function _ children rest => max children.chain rest.chain
  | .bound _ _ _ value _ rest => max (value.chain + 1) rest.chain
  | .fallback _ _ _ _ value _ rest => max (value.chain + 1) rest.chain

end

section Steps

variable {properties : PropertyMap}

/-- What the arguments of a reference are replaced by, where chains may be at most `depth` long. -/
def expand (properties : PropertyMap) (depth : Nat) (arguments : List Component) :
    Option (List Component) := do
  let target ← target? properties arguments
  Component.parse? (← resolveWithin properties depth target)

theorem expand_eq_some_iff {depth : Nat} {arguments replacement : List Component} :
    expand properties depth arguments = some replacement ↔
      ∃ target text, target? properties arguments = some target ∧
        resolveWithin properties depth target = some text ∧
        Component.parse? text = some replacement := by
  simp [expand, Option.bind_eq_some_iff]

theorem resolveWithin_succ_of_plain {depth : Nat} {value : String}
    (h : hasReference value = false) :
    resolveWithin properties (depth + 1) value = some value := by
  simp [resolveWithin, h]

/-- A value with references resolves to what its components become, without blanks at the ends. -/
theorem resolveWithin_succ_eq_some_iff {depth : Nat} {value result : String}
    (h : hasReference value = true) :
    resolveWithin properties (depth + 1) value = some result ↔
      ∃ components out, Component.parse? value = some components ∧
        substituteAll (expand properties depth) components = some out ∧
        Text.strip (Component.render out) = result := by
  have hunfold : resolveWithin properties (depth + 1) value =
      (do
        let components ← Component.parse? value
        let out ← substituteAll (expand properties depth) components
        return Text.strip (Component.render out)) := by
    simp only [resolveWithin, h, if_true]
    rfl
  rw [hunfold]
  simp [Option.bind_eq_some_iff]

/-- A reference stands for the value of its name, and without one for a fallback that is not
empty. -/
theorem target?_of_writes {arguments : List Component} {name fallback : String}
    (h : Writes arguments name fallback) :
    target? properties arguments =
      match properties.get? name with
      | some value => some value
      | none => if fallback = "" then none else some fallback := by
  have hparts : target? properties arguments =
      match properties.get? (referenceParts arguments).1 with
      | some value => some value
      | none =>
        if (referenceParts arguments).2 = "" then none else some (referenceParts arguments).2 := rfl
  rw [hparts, referenceParts_of_writes h]

theorem substituteAll_cons_eq_some_iff {resolve : List Component → Option (List Component)}
    {c : Component} {cs out : List Component} :
    substituteAll resolve (c :: cs) = some out ↔
      ∃ front rest, substitute resolve c = some front ∧ substituteAll resolve cs = some rest ∧
        front ++ rest = out := by
  simp [substituteAll, Option.bind_eq_some_iff]

end Steps

/-! ## From results to derivations -/

section Sound

variable {properties : PropertyMap} {depth : Nat}
  (ih : ∀ value text, resolveWithin properties depth value = some text →
    ∃ d : Derivation properties value text, d.chain < depth)
include ih

/-- What a reference is replaced by is derived. -/
theorem exists_replacement_of_reference {function : String}
    {arguments replacement rest out : List Component}
    (hfunction : Text.lowercase function = "var")
    (hexpand : expand properties depth arguments = some replacement)
    (r : Replacement properties rest out) (hr : r.chain ≤ depth) :
    ∃ r' : Replacement properties (.function function arguments :: rest) (replacement ++ out),
      r'.chain ≤ depth := by
  obtain ⟨target, text, htarget, htext, hreplacement⟩ := expand_eq_some_iff.1 hexpand
  obtain ⟨d, hd⟩ := ih target text htext
  have hwrites := writes_referenceParts arguments
  rw [target?_of_writes hwrites] at htarget
  cases hget : properties.get? (referenceParts arguments).1 with
  | some value =>
      rw [hget, Option.some.injEq] at htarget
      subst htarget
      refine ⟨.bound hfunction hwrites hget d hreplacement r, ?_⟩
      rw [Replacement.chain]
      omega
  | none =>
      rw [hget] at htarget
      simp only [Option.ite_none_left_eq_some, Option.some.injEq] at htarget
      obtain ⟨hne, rfl⟩ := htarget
      refine ⟨.fallback hfunction hwrites hget hne d hreplacement r, ?_⟩
      rw [Replacement.chain]
      omega

/-- What the references of a sequence are replaced by is derived. -/
theorem exists_replacement_of_substituteAll :
    ∀ components out : List Component,
      substituteAll (expand properties depth) components = some out →
      ∃ r : Replacement properties components out, r.chain ≤ depth
  | [], out, h => by
      simp only [substituteAll, Option.some.injEq] at h
      subst h
      exact ⟨.nil, Nat.zero_le _⟩
  | c :: cs, out, h => by
      obtain ⟨front, rest, hfront, hrest, rfl⟩ := substituteAll_cons_eq_some_iff.1 h
      obtain ⟨r, hr⟩ := exists_replacement_of_substituteAll cs rest hrest
      cases c with
      | leaf kind text =>
          simp only [substitute, Option.some.injEq] at hfront
          subst hfront
          exact ⟨.leaf r, hr⟩
      | block children =>
          simp only [substitute, Option.map_eq_some_iff] at hfront
          obtain ⟨replaced, hreplaced, rfl⟩ := hfront
          obtain ⟨inner, hinner⟩ := exists_replacement_of_substituteAll children replaced hreplaced
          exact ⟨.block inner r, by rw [Replacement.chain]; omega⟩
      | function name children =>
          by_cases hname : Text.lowercase name = "var"
          · rw [substitute, if_pos hname] at hfront
            exact exists_replacement_of_reference ih hname hfront r hr
          · rw [substitute, if_neg hname, Option.map_eq_some_iff] at hfront
            obtain ⟨replaced, hreplaced, rfl⟩ := hfront
            obtain ⟨inner, hinner⟩ :=
              exists_replacement_of_substituteAll children replaced hreplaced
            exact ⟨.function hname inner r, by rw [Replacement.chain]; omega⟩
termination_by components => sizeOf components

end Sound

/-- A result within some depth has a derivation whose chain is shorter. -/
theorem exists_derivation_of_resolveWithin {properties : PropertyMap} :
    ∀ (depth : Nat) (value result : String),
      resolveWithin properties depth value = some result →
      ∃ d : Derivation properties value result, d.chain < depth
  | 0, value, result, h => by simp [resolveWithin] at h
  | depth + 1, value, result, h => by
      cases hr : hasReference value with
      | false =>
          rw [resolveWithin_succ_of_plain hr, Option.some.injEq] at h
          subst h
          exact ⟨.plain hr, Nat.succ_pos _⟩
      | true =>
          obtain ⟨components, out, hparse, hout, rfl⟩ := (resolveWithin_succ_eq_some_iff hr).1 h
          -- every reference in the components is followed with one less to spare
          obtain ⟨r, hchain⟩ := exists_replacement_of_substituteAll
            (exists_derivation_of_resolveWithin depth) components out hout
          exact ⟨.replaced hr hparse r, Nat.lt_succ_of_le hchain⟩

/-! ## From derivations to results -/

mutual

/-- A derivation is followed within any depth above its chain. -/
theorem resolveWithin_of_derivation {properties : PropertyMap} :
    ∀ {value result : String} (d : Derivation properties value result) (depth : Nat),
      d.chain < depth → resolveWithin properties depth value = some result
  | _, _, _, 0, h => by omega
  | _, _, .plain hr, depth + 1, _ => resolveWithin_succ_of_plain hr
  | _, _, .replaced hr hparse r, depth + 1, h => by
      rw [Derivation.chain] at h
      rw [resolveWithin_succ_eq_some_iff hr]
      exact ⟨_, _, hparse, substituteAll_of_replacement r depth (by omega), rfl⟩

/-- A replacement is carried out within any depth that its chain does not exceed. -/
theorem substituteAll_of_replacement {properties : PropertyMap} :
    ∀ {components out : List Component} (r : Replacement properties components out) (depth : Nat),
      r.chain ≤ depth → substituteAll (expand properties depth) components = some out
  | _, _, .nil, _, _ => rfl
  | _, _, .leaf rest, depth, h => by
      rw [Replacement.chain] at h
      have hrest := substituteAll_of_replacement rest depth h
      exact substituteAll_cons_eq_some_iff.2 ⟨_, _, rfl, hrest, rfl⟩
  | _, _, .block children rest, depth, h => by
      rw [Replacement.chain] at h
      have hchildren := substituteAll_of_replacement children depth (by omega)
      have hrest := substituteAll_of_replacement rest depth (by omega)
      refine substituteAll_cons_eq_some_iff.2 ⟨[.block _], _, ?_, hrest, rfl⟩
      rw [substitute, hchildren]
      rfl
  | _, _, .function hname children rest, depth, h => by
      rw [Replacement.chain] at h
      have hchildren := substituteAll_of_replacement children depth (by omega)
      have hrest := substituteAll_of_replacement rest depth (by omega)
      refine substituteAll_cons_eq_some_iff.2 ⟨[.function _ _], _, ?_, hrest, rfl⟩
      rw [substitute, if_neg hname, hchildren]
      rfl
  | _, _, .bound hname hwrites hget value hparse rest, depth, h => by
      rw [Replacement.chain] at h
      have hvalue := resolveWithin_of_derivation value depth (by omega)
      have hrest := substituteAll_of_replacement rest depth (by omega)
      refine substituteAll_cons_eq_some_iff.2 ⟨_, _, ?_, hrest, rfl⟩
      rw [substitute, if_pos hname, expand_eq_some_iff]
      exact ⟨_, _, by rw [target?_of_writes hwrites, hget], hvalue, hparse⟩
  | _, _, .fallback hname hwrites hget hne value hparse rest, depth, h => by
      rw [Replacement.chain] at h
      have hvalue := resolveWithin_of_derivation value depth (by omega)
      have hrest := substituteAll_of_replacement rest depth (by omega)
      refine substituteAll_cons_eq_some_iff.2 ⟨_, _, ?_, hrest, rfl⟩
      rw [substitute, if_pos hname, expand_eq_some_iff]
      refine ⟨_, _, ?_, hvalue, hparse⟩
      rw [target?_of_writes hwrites, hget]
      exact if_neg hne

end

/-- A value has a result within some depth iff a derivation with a shorter chain leads to it. -/
theorem resolveWithin_eq_some_iff {properties : PropertyMap} {depth : Nat}
    {value result : String} :
    resolveWithin properties depth value = some result ↔
      ∃ d : Derivation properties value result, d.chain < depth :=
  ⟨exists_derivation_of_resolveWithin depth value result,
    fun ⟨d, hd⟩ => resolveWithin_of_derivation d depth hd⟩

/-- All derivations for a value lead to the same result. -/
theorem result_eq_of_derivations {properties : PropertyMap} {value result result' : String}
    (d : Derivation properties value result) (d' : Derivation properties value result') :
    result = result' := by
  -- a depth that both derivations fit into has one result only
  have h := resolveWithin_of_derivation d (max d.chain d'.chain + 1) (by omega)
  have h' := resolveWithin_of_derivation d' (max d.chain d'.chain + 1) (by omega)
  rw [h, Option.some.injEq] at h'
  exact h'

/-- After `depth` references have been followed, a value has a result iff a derivation that nests at
most `9 - depth` references leads to it.  So whatever has a result has the same one after fewer
references. -/
theorem resolve_eq_some_iff_derivation (properties : PropertyMap) (value : String) (depth : Int) :
    (∀ result, resolve properties value depth = some result ↔
      ∃ d : Derivation properties value result, (d.chain : Int) ≤ 9 - depth) ∧
    (∀ result, resolve properties value (depth + 1) = some result →
      resolve properties value depth = some result) := by
  have hiff : ∀ (depth : Int) (result : String), resolve properties value depth = some result ↔
      ∃ d : Derivation properties value result, (d.chain : Int) ≤ 9 - depth := by
    intro depth result
    rw [resolve, resolveWithin_eq_some_iff, maxDepth]
    constructor
    · rintro ⟨d, hd⟩
      exact ⟨d, by omega⟩
    · rintro ⟨d, hd⟩
      exact ⟨d, by omega⟩
  refine ⟨hiff depth, fun result h => ?_⟩
  obtain ⟨d, hd⟩ := (hiff (depth + 1) result).1 h
  exact (hiff depth result).2 ⟨d, by omega⟩

/-- Two properties, one of which refers to the other. -/
def accents : PropertyMap :=
  [("--accent", "var(--brand, red)"), ("--brand", " #00f ")]

/-- Two nested references and a fallback, with eight references to spare and with one too few. -/
theorem resolve_accents :
    resolve accents "color-mix(in srgb, VAR(--accent), [var(--none, white)])" 7 =
      some "color-mix(in srgb, #00f, [white])" ∧
    resolve accents "color-mix(in srgb, VAR(--accent), [var(--none, white)])" 6 =
      some "color-mix(in srgb, #00f, [white])" ∧
    ¬ ∃ d : Derivation accents "color-mix(in srgb, VAR(--accent), [var(--none, white)])"
        "color-mix(in srgb, #00f, [white])", (d.chain : Int) ≤ 9 - 8 := by
  have h : resolve accents "color-mix(in srgb, VAR(--accent), [var(--none, white)])" (6 + 1) =
      some "color-mix(in srgb, #00f, [white])" := by decide +kernel
  refine ⟨h, (resolve_eq_some_iff_derivation _ _ 6).2 _ h, fun hd => ?_⟩
  have h' := ((resolve_eq_some_iff_derivation _ _ 8).1 _).2 hd
  exact absurd h' (by decide +kernel)

end ContrastAudit.Property

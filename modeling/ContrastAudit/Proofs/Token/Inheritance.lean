import ContrastAudit.Proofs.Number.Fault
import ContrastAudit.Proofs.Property.Map
import ContrastAudit.Proofs.Token.Color
import ContrastAudit.Token.Flatten

/-!
# Types of nested groups

A token that has no type of its own has the type of the nearest group around it that has one.  The
custom properties of a tidy document are those of the tokens whose type is that of colors, and of
those that look like colors and have no type at all.

But a group below the document itself that has or inherits another type than that of colors is
passed over with all that it holds, even with a token whose own type is that of colors.

**Results.**
* `flatten_names`: the names of the custom properties of a tidy document.
-/

namespace ContrastAudit.Token

open Json

/-- The fields of a group or of a token. -/
abbrev Fields := List (String × Json)

/-! ## Tokens and types -/

/-- A token below a group: its path, the groups that lie between from the outermost one inwards, and
its fields. -/
inductive TokenAt : Fields → List String → List Fields → Fields → Prop
  | here {group name token}
      (hmem : (name, .object token) ∈ group)
      (hname : Text.startsWith name "$" = false)
      (hvalue : lookup "$value" token ≠ none) :
      TokenAt group [name] [] token
  | inside {group name child path groups token}
      (hmem : (name, .object child) ∈ group)
      (hname : Text.startsWith name "$" = false)
      (hvalue : lookup "$value" child = none)
      (below : TokenAt child path groups token) :
      TokenAt group (name :: path) (child :: groups) token

/-- The type of the innermost group that has one. -/
def nearestType? (groups : List Fields) : Option Json :=
  groups.reverse.findSome? (lookup "$type")

/-- A value of a type is a color, or looks like one and has no type. -/
def IsColor (type : Option Json) (value : Json) : Prop :=
  type = some (.string "color") ∨ type = none ∧ isColorLike value = true

/-- A token is kept in groups of a type: its value is a color that can be written.  Its own type
comes before that of the groups. -/
def IsKept (type : Option Json) (token : Fields) : Prop :=
  ∃ value text, lookup "$value" token = some value ∧ colorText? value = .ok (some text) ∧
    IsColor ((lookup "$type" token).or type) value

/-- A type that does not keep colors out. -/
def AllowsColors (type : Option Json) : Prop :=
  type = none ∨ type = some (.string "color")

/-- None of some nested groups has a type that keeps colors out, or inherits one. -/
def IsOpen (type : Option Json) (groups : List Fields) : Prop :=
  ∀ outer, outer ≠ [] → outer <+: groups → AllowsColors ((nearestType? outer).or type)

variable {group child token : Fields} {groups : List Fields} {name : String} {path : List String}
  {type : Option Json}

theorem nearestType?_cons :
    nearestType? (group :: groups) = (nearestType? groups).or (lookup "$type" group) := by
  rw [nearestType?, List.reverse_cons, List.findSome?_append]
  simp [nearestType?]

theorem isOpen_nil : IsOpen type [] :=
  fun _ hne hprefix => absurd (List.prefix_nil.1 hprefix) hne

theorem isOpen_cons :
    IsOpen type (child :: groups) ↔
      AllowsColors ((lookup "$type" child).or type) ∧
        IsOpen ((lookup "$type" child).or type) groups := by
  constructor
  · intro h
    have houter : ∀ outer, outer <+: groups →
        AllowsColors ((nearestType? outer).or ((lookup "$type" child).or type)) := by
      intro outer hprefix
      rw [← Option.or_assoc, ← nearestType?_cons]
      exact h _ (List.cons_ne_nil _ _) ((List.prefix_cons_inj child).2 hprefix)
    exact ⟨houter [] (List.nil_prefix), fun outer _ => houter outer⟩
  · rintro ⟨hchild, h⟩ outer hne hprefix
    obtain rfl | ⟨rest, rfl, hrest⟩ := List.prefix_cons_iff.1 hprefix
    · exact absurd rfl hne
    · rw [nearestType?_cons, Option.or_assoc]
      cases rest with
      | nil => exact hchild
      | cons next rest => exact h _ (List.cons_ne_nil _ _) hrest

/-! ## What a group holds -/

/-- A group, in groups of a type, holds a token at a path that is kept and not passed over. -/
def HoldsColor (type : Option Json) (group : Fields) (path : List String) : Prop :=
  ∃ groups token, TokenAt group path groups token ∧
    IsKept ((nearestType? groups).or type) token ∧ IsOpen type groups

theorem TokenAt.mono {more : Fields} (h : TokenAt group path groups token) (hsub : group ⊆ more) :
    TokenAt more path groups token := by
  cases h with
  | here hmem hname hvalue => exact .here (hsub hmem) hname hvalue
  | inside hmem hname hvalue below => exact .inside (hsub hmem) hname hvalue below

theorem HoldsColor.mono {more : Fields} (h : HoldsColor type group path) (hsub : group ⊆ more) :
    HoldsColor type more path := by
  obtain ⟨groups, token, htoken, h⟩ := h
  exact ⟨groups, token, htoken.mono hsub, h⟩

theorem not_holdsColor_nil : ¬ HoldsColor type [] path := by
  rintro ⟨groups, token, htoken, -⟩
  cases htoken with
  | here hmem _ _ => cases hmem
  | inside hmem _ _ _ => cases hmem

theorem holdsColor_cons {field : String × Json} :
    HoldsColor type (field :: group) path ↔
      HoldsColor type [field] path ∨ HoldsColor type group path := by
  constructor
  · rintro ⟨groups, token, htoken, h⟩
    cases htoken with
    | here hmem hname hvalue =>
        rcases List.mem_cons.1 hmem with hmem | hmem
        · exact .inl ⟨_, _, .here (List.mem_singleton.2 hmem) hname hvalue, h⟩
        · exact .inr ⟨_, _, .here hmem hname hvalue, h⟩
    | inside hmem hname hvalue below =>
        rcases List.mem_cons.1 hmem with hmem | hmem
        · exact .inl ⟨_, _, .inside (List.mem_singleton.2 hmem) hname hvalue below, h⟩
        · exact .inr ⟨_, _, .inside hmem hname hvalue below, h⟩
  · rintro (h | h)
    · exact h.mono (by simp)
    · exact h.mono (List.subset_cons_self _ _)

theorem not_holdsColor_hidden {json : Json} (hname : Text.startsWith name "$" = true) :
    ¬ HoldsColor type [(name, json)] path := by
  rintro ⟨groups, token, htoken, -⟩
  cases htoken with
  | here hmem hshown _ | inside hmem hshown _ _ =>
      cases List.mem_singleton.1 hmem
      rw [hname] at hshown
      cases hshown

theorem not_holdsColor_leaf {json : Json} (hjson : ∀ fields, json ≠ .object fields) :
    ¬ HoldsColor type [(name, json)] path := by
  rintro ⟨groups, token, htoken, -⟩
  cases htoken with
  | here hmem _ _ | inside hmem _ _ _ =>
      cases List.mem_singleton.1 hmem
      exact hjson _ rfl

theorem holdsColor_token (hname : Text.startsWith name "$" = false)
    (hvalue : lookup "$value" token ≠ none) :
    HoldsColor type [(name, .object token)] path ↔ path = [name] ∧ IsKept type token := by
  constructor
  · rintro ⟨groups, token, htoken, hkept, -⟩
    cases htoken with
    | here hmem _ _ =>
        cases List.mem_singleton.1 hmem
        exact ⟨rfl, hkept⟩
    | inside hmem _ hnone _ =>
        cases List.mem_singleton.1 hmem
        exact absurd hnone hvalue
  · rintro ⟨rfl, hkept⟩
    exact ⟨[], token, .here (List.mem_singleton_self _) hname hvalue, hkept, isOpen_nil⟩

theorem holdsColor_group (hname : Text.startsWith name "$" = false)
    (hvalue : lookup "$value" child = none) :
    HoldsColor type [(name, .object child)] path ↔
      AllowsColors ((lookup "$type" child).or type) ∧
        ∃ below, path = name :: below ∧
          HoldsColor ((lookup "$type" child).or type) child below := by
  constructor
  · rintro ⟨groups, token, htoken, hkept, hopen⟩
    cases htoken with
    | here hmem _ hsome =>
        cases List.mem_singleton.1 hmem
        exact absurd hvalue hsome
    | inside hmem _ _ below =>
        cases List.mem_singleton.1 hmem
        obtain ⟨hallows, hopen⟩ := isOpen_cons.1 hopen
        rw [nearestType?_cons, Option.or_assoc] at hkept
        exact ⟨hallows, _, rfl, _, _, below, hkept, hopen⟩
  · rintro ⟨hallows, below, rfl, groups, token, htoken, hkept, hopen⟩
    refine ⟨child :: groups, token, .inside (List.mem_singleton_self _) hname hvalue htoken, ?_,
      isOpen_cons.2 ⟨hallows, hopen⟩⟩
    rwa [nearestType?_cons, Option.or_assoc]

/-! ## Reading tokens and groups -/

theorem isTypeName_or {own : Option Json} (hown : IsTypeName own) (htype : IsTypeName type) :
    IsTypeName (own.or type) := by
  cases own with
  | none => exact htype
  | some value => exact hown

theorem isColorType_getD (h : IsTypeName type) :
    isColorType (type.getD .null) = true ↔ type = some (.string "color") := by
  cases type with
  | none => simp [isColorType]
  | some value =>
      obtain ⟨s, rfl, -⟩ := h value rfl
      simp [isColorType]

theorem isMissing_getD (h : IsTypeName type) :
    isMissing (type.getD .null) = true ↔ type = none := by
  cases type with
  | none => simp [isMissing]
  | some value =>
      obtain ⟨s, rfl, -⟩ := h value rfl
      simp [isMissing]

/-- The type of a token is its own one before that of the groups. -/
theorem type_getD {own : Option Json} (h : IsTypeName own) :
    (if isSet (own.getD .null) then own.getD .null else type.getD .null) =
      (own.or type).getD .null := by
  cases own with
  | none => simp [isSet]
  | some value =>
      obtain ⟨s, rfl, hs⟩ := h value rfl
      simp [isSet, hs]

theorem valueAndType?_of_isTidy (h : (Json.object token).IsTidy) :
    valueAndType? token =
      (lookup "$value" token).map fun value => (value, (lookup "$type" token).getD .null) := by
  unfold valueAndType?
  cases hvalue : lookup "$value" token with
  | some value => rfl
  | none => rw [h.lookup_value]; rfl

theorem isColor_iff {value : Json} (h : IsTypeName type) :
    (isColorType (type.getD .null) || (isMissing (type.getD .null) && isColorLike value)) = true ↔
      IsColor type value := by
  rw [Bool.or_eq_true, Bool.and_eq_true, isColorType_getD h, isMissing_getD h, IsColor]

theorem isKept_iff {value : Json} {text : Option String}
    (hvalue : lookup "$value" token = some value) (htext : colorText? value = .ok text) :
    IsKept type token ↔ IsColor ((lookup "$type" token).or type) value ∧ text.isSome = true := by
  constructor
  · rintro ⟨value', text', hvalue', htext', hcolor⟩
    cases hvalue.symm.trans hvalue'
    cases htext.symm.trans htext'
    exact ⟨hcolor, rfl⟩
  · rintro ⟨hcolor, hsome⟩
    obtain ⟨text', rfl⟩ := Option.isSome_iff_exists.1 hsome
    exact ⟨value, text', hvalue, htext, hcolor⟩

theorem exists_tokenText? {value : Json} (h : (Json.object token).IsTidy) (htype : IsTypeName type)
    (hvalue : lookup "$value" token = some value) :
    ∃ text, tokenText? (type.getD .null) value ((lookup "$type" token).getD .null) = .ok text ∧
      (text.isSome = true ↔ IsKept type token) := by
  obtain ⟨text, htext⟩ := exists_colorText? (h.field _ (mem_of_lookup hvalue))
  have hcolor := @isColor_iff _ value (isTypeName_or h.isTypeName htype)
  unfold tokenText?
  rw [type_getD h.isTypeName]
  dsimp only
  rw [isKept_iff hvalue htext, ← hcolor]
  split
  · next hyes => exact ⟨text, htext, (and_iff_right hyes).symm⟩
  · next hno => exact ⟨none, rfl, iff_of_false Bool.false_ne_true fun h => hno h.1⟩

theorem allowsColors_iff (h : IsTypeName type) :
    (isColorType (type.getD .null) || isMissing (type.getD .null)) = true ↔
      AllowsColors type := by
  rw [Bool.or_eq_true, isColorType_getD h, isMissing_getD h]
  exact or_comm

theorem getD_or {own : Option Json} : own.getD (type.getD .null) = (own.or type).getD .null := by
  cases own <;> rfl

/-! ## Reading a document -/

/-- Tokens are listed under their paths from a group on. -/
def Lists (tokens : List (String × String)) (path : List String) (holds : List String → Prop) :
    Prop :=
  ∀ key, key ∈ tokens.map (·.1) ↔ ∃ below, holds below ∧ key = ".".intercalate (path ++ below)

section Lists

variable {tokens more : List (String × String)} {holds holds' : List String → Prop}

theorem Lists.congr (h : Lists tokens path holds) (hsame : ∀ below, holds below ↔ holds' below) :
    Lists tokens path holds' := by
  intro key
  simp only [h key, hsame]

theorem lists_nil (h : ∀ below, ¬ holds below) : Lists [] path holds := by
  intro key
  refine iff_of_false List.not_mem_nil ?_
  rintro ⟨below, hbelow, -⟩
  exact h below hbelow

theorem Lists.append (h : Lists tokens path holds) (h' : Lists more path holds') :
    Lists (tokens ++ more) path fun below => holds below ∨ holds' below := by
  intro key
  rw [List.map_append, List.mem_append, h key, h' key]
  simp only [or_and_right, exists_or]

theorem Lists.cons {field : String × Json} (h : Lists tokens path (HoldsColor type [field]))
    (h' : Lists more path (HoldsColor type group)) :
    Lists (tokens ++ more) path (HoldsColor type (field :: group)) :=
  (h.append h').congr fun _ => holdsColor_cons.symm

theorem lists_token {text : Option String} :
    Lists (text.toList.map fun text => (".".intercalate (path ++ [name]), text)) path
      fun below => below = [name] ∧ text.isSome = true := by
  intro key
  cases text with
  | none => simp
  | some text => simp

/-- What a group holds is listed from the groups around it on, too. -/
theorem Lists.below (h : Lists tokens (path ++ [name]) holds) :
    Lists tokens path fun below => ∃ rest, below = name :: rest ∧ holds rest := by
  intro key
  rw [h key]
  constructor
  · rintro ⟨rest, hrest, rfl⟩
    exact ⟨name :: rest, ⟨rest, rfl, hrest⟩, by rw [List.append_assoc, List.singleton_append]⟩
  · rintro ⟨_, ⟨rest, rfl, hrest⟩, rfl⟩
    exact ⟨rest, hrest, by rw [List.append_assoc, List.singleton_append]⟩

end Lists

mutual

/-- A group of a tidy document is read without a fault, and what it holds is listed. -/
theorem exists_colorTokens (path : List String) {type : Option Json} (htype : IsTypeName type) :
    (fields : Fields) → (∀ field ∈ fields, field.2.IsTidy) →
      ∃ tokens, colorTokens path (type.getD .null) fields = .ok tokens ∧
        Lists tokens path (HoldsColor type fields)
  | [], _ => ⟨[], rfl, lists_nil fun _ => not_holdsColor_nil⟩
  | (name, child) :: fields, h => by
      obtain ⟨hchild, hfields⟩ := List.forall_mem_cons.1 h
      obtain ⟨rest, hrest, hlists⟩ := exists_colorTokens path htype fields hfields
      rw [colorTokens, hrest]
      cases hname : Text.startsWith name "$" with
      | true =>
          have hnone : Lists [] path (HoldsColor type [(name, child)]) :=
            lists_nil fun _ => not_holdsColor_hidden hname
          exact ⟨_, rfl, hnone.cons hlists⟩
      | false =>
          obtain ⟨first, hfirst, hlists'⟩ := exists_childTokens path htype hname child hchild
          rw [hfirst]
          exact ⟨_, rfl, hlists'.cons hlists⟩

theorem exists_childTokens (path : List String) {name : String} {type : Option Json}
    (htype : IsTypeName type) (hname : Text.startsWith name "$" = false) :
    (child : Json) → child.IsTidy →
      ∃ tokens, childTokens (path ++ [name]) (type.getD .null) child = .ok tokens ∧
        Lists tokens path (HoldsColor type [(name, child)])
  | .object fields, h => by
      have hown := isTypeName_or h.isTypeName htype
      rw [childTokens, valueAndType?_of_isTidy h, getD_or]
      cases hvalue : lookup "$value" fields with
      | some value =>
          obtain ⟨text, htext, hkept⟩ := exists_tokenText? h htype hvalue
          dsimp only [Option.map_some]
          rw [htext]
          refine ⟨_, rfl, lists_token.congr fun below => ?_⟩
          rw [holdsColor_token hname (hvalue ▸ Option.some_ne_none value), hkept]
      | none =>
          dsimp only [Option.map_none]
          split
          · next hallows =>
              obtain ⟨tokens, htokens, hlists⟩ :=
                exists_colorTokens (path ++ [name]) hown fields h.field
              refine ⟨tokens, htokens, hlists.below.congr fun below => ?_⟩
              rw [holdsColor_group hname hvalue, and_iff_right ((allowsColors_iff hown).1 hallows)]
          · next hkeeps =>
              -- a group that is passed over loses tokens whatever types they have
              refine ⟨[], rfl, lists_nil fun below => ?_⟩
              rw [holdsColor_group hname hvalue]
              exact fun hholds => hkeeps ((allowsColors_iff hown).2 hholds.1)
  | .null, _ | .bool _, _ | .int _, _ | .float _, _ | .string _, _ | .array _, _ =>
      ⟨[], rfl, lists_nil fun _ => not_holdsColor_leaf (by simp)⟩

end

/-! ## Names of properties -/

/-- A name with dashes for its dots. -/
def dashed (name : String) : String :=
  String.ofList (name.toList.map fun c => if c = '.' then '-' else c)

theorem map_intercalate_dots (f : Char → Char) (words : List (List Char)) :
    (['.'].intercalate words).map f = [f '.'].intercalate (words.map (List.map f)) := by
  induction words with
  | nil => rfl
  | cons word words ih =>
      cases words with
      | nil => simp
      | cons next words =>
          simp only [List.map_cons, List.intercalate_cons_cons, List.map_append,
            List.map_nil] at ih ⊢
          rw [ih]

/-- The name of a property is made of the names on the path. -/
theorem propertyName_intercalate (path : List String) :
    propertyName (".".intercalate path) = "--" ++ "-".intercalate (path.map dashed) := by
  rw [propertyName, String.toList_intercalate, show ".".toList = ['.'] from rfl,
    map_intercalate_dots, if_pos rfl, ← String.toList_inj]
  simp [String.toList_intercalate, dashed, Function.comp_def]

theorem mem_names_flattened {tokens : List (String × String)} {resolve : String → String}
    {key : String} :
    key ∈ PropertyMap.names (PropertyMap.merge []
      ((PropertyMap.merge [] tokens).map fun (path, text) => (propertyName path, resolve text))) ↔
      ∃ path ∈ tokens.map (·.1), propertyName path = key := by
  have hmap : ∀ entries : List (String × String), PropertyMap.names
      (entries.map fun (path, text) => (propertyName path, resolve text)) =
        (PropertyMap.names entries).map propertyName := by
    intro entries
    rw [PropertyMap.names, PropertyMap.names, List.map_map, List.map_map]
    rfl
  rw [PropertyMap.mem_names_merge, hmap, List.mem_map]
  simp only [PropertyMap.mem_names_merge]
  simp [PropertyMap.names]

/-- The custom properties of a tidy document are those of the tokens that are kept, where no group
around them is passed over. -/
theorem flatten_names {root : Fields} (h : (Json.object root).IsTidy) :
    ∃ map, flatten root = .ok map ∧ ∀ key, key ∈ PropertyMap.names map ↔
      ∃ path groups token, TokenAt root path groups token ∧
        IsKept (nearestType? (root :: groups)) token ∧ IsOpen (lookup "$type" root) groups ∧
        key = "--" ++ "-".intercalate (path.map dashed) := by
  obtain ⟨tokens, htokens, hlists⟩ := exists_colorTokens [] h.isTypeName root h.field
  unfold flatten
  dsimp only
  rw [htokens]
  refine ⟨_, rfl, fun key => ?_⟩
  rw [mem_names_flattened]
  constructor
  · rintro ⟨name, hname, rfl⟩
    obtain ⟨path, ⟨groups, token, htoken, hkept, hopen⟩, rfl⟩ := (hlists name).1 hname
    rw [← nearestType?_cons] at hkept
    exact ⟨path, groups, token, htoken, hkept, hopen, propertyName_intercalate path⟩
  · rintro ⟨path, groups, token, htoken, hkept, hopen, rfl⟩
    rw [nearestType?_cons] at hkept
    exact ⟨_, (hlists _).2 ⟨path, ⟨groups, token, htoken, hkept, hopen⟩, rfl⟩,
      propertyName_intercalate path⟩

/-- A group of colors beside one of lengths. -/
def palette : Fields :=
  [("color", .object [("$type", .string "color"), ("ink", .object [("$value", .string "#05f")])]),
    ("space", .object [("$type", .string "dimension"), ("small", .object [("$value", .int 4)])])]

theorem flatten_names_palette :
    (Json.object palette).IsTidy ∧
      ∃ map, flatten palette = .ok map ∧ "--color-ink" ∈ PropertyMap.names map := by
  have hsize : (Json.int 4).IsTidy := .int ⟨_, rfl⟩
  have htidy : (Json.object palette).IsTidy := by
    simp [palette, isTidy_object_iff, IsTypeName, lookup, IsTidy.string, hsize]
  refine ⟨htidy, ?_⟩
  obtain ⟨map, hmap, hnames⟩ := flatten_names htidy
  refine ⟨map, hmap, (hnames _).2 ⟨["color", "ink"], _, _,
    .inside List.mem_cons_self (by decide +kernel) rfl
      (.here (List.mem_cons_of_mem _ List.mem_cons_self) (by decide +kernel)
        (Option.some_ne_none _)),
    ⟨_, "#05f", rfl, rfl, .inl rfl⟩, ?_, by decide +kernel⟩⟩
  exact isOpen_cons.2 ⟨.inr rfl, isOpen_nil⟩

/-- A token with a color and the type of colors. -/
def white : Fields :=
  [("$type", .string "color"), ("$value", .string "#fff")]

/-- A group of lengths that holds a color. -/
def mixedGroup : Fields :=
  [("g", .object [("$type", .string "dimension"), ("t", .object white)])]

theorem tokenAt_mixedGroup (h : TokenAt mixedGroup path groups token) : token = white := by
  have hwhite : ∀ {name fields}, (name, Json.object fields) ∈
      [("$type", .string "dimension"), ("t", .object white)] → fields = white := by
    intro name fields hmem
    simp only [List.mem_cons, Prod.mk.injEq, List.not_mem_nil, or_false, reduceCtorEq, and_false,
      false_or, Json.object.injEq] at hmem
    exact hmem.2
  cases h with
  | here hmem _ hvalue =>
      cases List.mem_singleton.1 hmem
      exact absurd rfl hvalue
  | inside hmem _ _ below =>
      cases List.mem_singleton.1 hmem
      cases below with
      | here hmem _ _ => exact hwhite hmem
      | inside hmem _ hvalue _ =>
          cases hwhite hmem
          exact absurd hvalue (Option.some_ne_none _)

/-- The types of the groups around a token count even where it has a type of its own. -/
theorem not_forall_flatten_names :
    ¬ ∀ root : Fields, (Json.object root).IsTidy →
      (∀ path groups token path' groups' token', TokenAt root path groups token →
        TokenAt root path' groups' token' → ".".intercalate path = ".".intercalate path' →
        token = token') →
      ∃ map, flatten root = .ok map ∧ ∀ key, key ∈ PropertyMap.names map ↔
        ∃ path groups token, TokenAt root path groups token ∧
          IsKept (nearestType? (root :: groups)) token ∧
          key = "--" ++ "-".intercalate (path.map dashed) := by
  intro h
  have htidy : (Json.object mixedGroup).IsTidy := by
    simp [mixedGroup, white, isTidy_object_iff, IsTypeName, lookup, IsTidy.string]
  have hflat : flatten mixedGroup = .ok [] := rfl
  obtain ⟨map, hmap, hnames⟩ := h mixedGroup htidy fun _ _ _ _ _ _ htoken htoken' _ =>
    (tokenAt_mixedGroup htoken).trans (tokenAt_mixedGroup htoken').symm
  cases hflat.symm.trans hmap
  have hmem := (hnames "--g-t").2 ⟨["g", "t"], _, _,
    .inside List.mem_cons_self (by decide +kernel) rfl
      (.here (List.mem_cons_of_mem _ List.mem_cons_self) (by decide +kernel)
        (Option.some_ne_none _)),
    ⟨_, "#fff", rfl, rfl, .inl rfl⟩, by decide +kernel⟩
  cases hmem

end ContrastAudit.Token

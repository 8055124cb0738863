import ContrastAudit.Config.Load
import ContrastAudit.Proofs.Number.Fault

/-!
# Configuration files that are answered

Loading a configuration file should end with a configuration or with an error that is reported to
its author, whatever document the file holds.  Each setting is checked on its own, and every check
but one answers every value: a value that has no entries at all, in the place of the list of ignored
pairs, is not looked at before its entries are asked for.

**Results.**
* `isAnswered_load_iff`: a file is answered unless its text holds a whole number that is too long,
  or its fields hold ignored pairs without entries while everything that is checked earlier can be
  used.
* `not_forall_isAnswered_load`: a file is not answered though its document holds no number at all.
-/

namespace ContrastAudit.AuditConfig

/-! ### Answers -/

section Answers

variable {α β : Type}

/-- A computation is answered if it has a result or an error that is reported. -/
def IsAnswered (x : Except ConfigError α) : Prop :=
  (∃ a, x = .ok a) ∨ ∃ e, x = .error e ∧ e.isReported = true

@[simp]
theorem isAnswered_ok (a : α) : IsAnswered (.ok a) :=
  .inl ⟨a, rfl⟩

@[simp]
theorem isAnswered_return (a : α) : IsAnswered (return a) :=
  .inl ⟨a, rfl⟩

@[simp]
theorem isAnswered_error_iff {e : ConfigError} :
    IsAnswered (.error e : Except ConfigError α) ↔ e.isReported = true := by
  simp [IsAnswered]

instance decidableIsAnswered (x : Except ConfigError α) : Decidable (IsAnswered x) :=
  match x with
  | .ok a => isTrue (isAnswered_ok a)
  | .error _ => decidable_of_iff _ isAnswered_error_iff.symm

/-- A sequence of two computations is answered iff each of them is that comes to its turn. -/
theorem isAnswered_bind_iff {x : Except ConfigError α} {f : α → Except ConfigError β} :
    IsAnswered (x >>= f) ↔ IsAnswered x ∧ ∀ a, x = .ok a → IsAnswered (f a) := by
  cases x with
  | error e => simp [bind, Except.bind]
  | ok a => simp [ok_bind]

/-- A sequence of two computations is answered iff the second is, if the first one always is. -/
theorem isAnswered_bind_iff_of {x : Except ConfigError α} {f : α → Except ConfigError β}
    (h : IsAnswered x) : IsAnswered (x >>= f) ↔ ∀ a, x = .ok a → IsAnswered (f a) := by
  rw [isAnswered_bind_iff, and_iff_right h]

theorem isAnswered_map_iff {x : Except ConfigError α} {f : α → β} :
    IsAnswered (x.map f) ↔ IsAnswered x := by
  cases x <;> simp [Except.map]

theorem isAnswered_mapM {f : α → Except ConfigError β} {as : List α}
    (h : ∀ a ∈ as, IsAnswered (f a)) : IsAnswered (as.mapM f) := by
  induction as with
  | nil => exact isAnswered_ok _
  | cons a as ih =>
      obtain ⟨ha, has⟩ := List.forall_mem_cons.1 h
      rw [List.mapM_cons, isAnswered_bind_iff_of ha]
      intro b _
      rw [isAnswered_bind_iff_of (ih has)]
      exact fun bs _ => isAnswered_ok _

end Answers

/-! ### Single settings -/

/-- A value that has no entries: nothing, a truth value or a number. -/
inductive HasNoEntries : Json → Prop
  | null : HasNoEntries .null
  | bool (b : Bool) : HasNoEntries (.bool b)
  | int (n : Int) : HasNoEntries (.int n)
  | float (x : Float) : HasNoEntries (.float x)

/-- A setting, if it is there, is a text or a list of texts. -/
def HoldsStrings (fields : List (String × Json)) (key : String) : Prop :=
  ∀ value, Json.lookup key fields = some value →
    (∃ text, value = .string text) ∨ ∃ texts : List String, value = .array (texts.map .string)

/-- The names of all fields are among those known. -/
def HasOnly (known : List String) (fields : List (String × Json)) : Prop :=
  ∀ field ∈ fields, field.1 ∈ known

section Settings

variable {fields : List (String × Json)} {key : String}

theorem unknownKeys_isEmpty_iff {known : List String} :
    (unknownKeys known fields).isEmpty = true ↔ HasOnly known fields := by
  rw [unknownKeys, List.isEmpty_iff, ← List.length_eq_zero_iff, List.length_mergeSort,
    List.length_eq_zero_iff, List.filter_eq_nil_iff]
  simp [HasOnly]

/-- The texts of a list are those of its items, which have to be texts all of them. -/
theorem stringList?_array_eq_some_iff {items : List Json} {texts : List String} :
    stringList? (.array items) = some texts ↔ items = texts.map .string := by
  simp only [stringList?]
  induction items generalizing texts with
  | nil => cases texts <;> simp
  | cons item items ih =>
      rw [List.mapM_cons]
      cases item with
      | string text => cases texts <;> simp [ih, Option.bind_eq_some_iff, and_comm]
      | _ => cases texts <;> simp

theorem exists_stringList?_iff {value : Json} :
    (∃ texts, stringList? value = some texts) ↔
      (∃ text, value = .string text) ∨
        ∃ texts : List String, value = .array (texts.map .string) := by
  cases value with
  | array items => simp [stringList?_array_eq_some_iff]
  | _ => simp [stringList?]

theorem exists_strings?_iff :
    (∃ texts, strings? fields key = .ok texts) ↔ HoldsStrings fields key := by
  unfold strings? HoldsStrings
  cases Json.lookup key fields with
  | none => simp
  | some value =>
      simp only [Option.some.injEq, forall_eq', ← exists_stringList?_iff]
      cases stringList? value <;> simp

theorem isAnswered_strings? : IsAnswered (strings? fields key) := by
  unfold strings?
  split
  · exact isAnswered_ok _
  · split
    · exact isAnswered_error_iff.2 rfl
    · exact isAnswered_ok _

theorem isAnswered_utilityClasses? : IsAnswered (utilityClasses? fields) := by
  unfold utilityClasses?
  split
  · exact isAnswered_ok _
  · exact isAnswered_ok _
  · exact isAnswered_error_iff.2 rfl

theorem isAnswered_maxWorkers? : IsAnswered (maxWorkers? fields) := by
  unfold maxWorkers?
  split
  · exact isAnswered_ok _
  · exact isAnswered_ok _
  · exact isAnswered_ok _
  · exact isAnswered_ok _
  · exact isAnswered_error_iff.2 rfl

theorem isAnswered_pairEntries_iff {value : Json} :
    IsAnswered (pairEntries value) ↔ ¬HasNoEntries value := by
  cases value with
  | null => simp [pairEntries, ConfigError.isReported, HasNoEntries.null]
  | bool b => simp [pairEntries, ConfigError.isReported, HasNoEntries.bool]
  | int n => simp [pairEntries, ConfigError.isReported, HasNoEntries.int]
  | float x => simp [pairEntries, ConfigError.isReported, HasNoEntries.float]
  | string | array | object => exact iff_of_true (isAnswered_ok _) fun h => nomatch h

theorem isAnswered_ignoredPair (entry : Json) : IsAnswered (ignoredPair entry) := by
  unfold ignoredPair
  split
  · exact isAnswered_ok _
  · split
    · exact isAnswered_ok _
    · exact isAnswered_error_iff.2 rfl
  · exact isAnswered_error_iff.2 rfl

end Settings

/-! ### Whole files -/

/-- A value is an ignore section with settings that are all known, and with ignored pairs that have
no entries. -/
def IgnoresUnlisted (value : Json) : Prop :=
  ∃ fields pairs, value = .object fields ∧ HasOnly knownIgnoreKeys fields ∧
    Json.lookup "pairs" fields = some pairs ∧ HasNoEntries pairs

/-- Fields in their first spelling that are all known, with names of files that can be used and with
ignored pairs that have no entries. -/
structure HasUnlistedPairs (fields : List (String × Json)) : Prop where
  known : HasOnly knownKeys fields
  cssFiles : HoldsStrings fields "css_files"
  tokenFiles : HoldsStrings fields "token_files"
  suffixes : HoldsStrings fields "include"
  ignore : ∃ value, Json.lookup "ignore" fields = some value ∧ IgnoresUnlisted value

/-- An ignore section is answered if a setting of it is not known, or else if its ignored pairs have
entries. -/
theorem isAnswered_ignoreConfig_object_iff {fields : List (String × Json)} :
    IsAnswered (ignoreConfig (.object fields)) ↔
      (HasOnly knownIgnoreKeys fields →
        ∀ pairs, Json.lookup "pairs" fields = some pairs → ¬HasNoEntries pairs) := by
  rw [ignoreConfig, ← unknownKeys_isEmpty_iff]
  cases (unknownKeys knownIgnoreKeys fields).isEmpty with
  | false => exact iff_of_true (isAnswered_error_iff.2 rfl) (by rintro ⟨⟩)
  | true =>
      have hrest : ∀ entries : List Json, IsAnswered (do
          let pairs ← entries.mapM ignoredPair
          let colors ← strings? fields "colors"
          let selectors ← strings? fields "selectors"
          return IgnoreConfig.mk (colors.getD []) pairs (selectors.getD [])) := by
        intro entries
        refine (isAnswered_bind_iff_of (isAnswered_mapM fun e _ => isAnswered_ignoredPair e)).2 ?_
        refine fun _ _ => (isAnswered_bind_iff_of isAnswered_strings?).2 fun _ _ => ?_
        exact (isAnswered_bind_iff_of isAnswered_strings?).2 fun _ _ => isAnswered_ok _
      have hlist : ¬HasNoEntries (.array []) := by rintro ⟨⟩
      simp only [Bool.not_true, Bool.false_eq_true, if_false]
      rw [isAnswered_bind_iff, isAnswered_pairEntries_iff, and_iff_left fun es _ => hrest es]
      cases Json.lookup "pairs" fields <;> simp [hlist]

theorem isAnswered_ignoreConfig_iff {value : Json} :
    IsAnswered (ignoreConfig value) ↔ ¬IgnoresUnlisted value := by
  cases value with
  | null => simp [ignoreConfig, IgnoresUnlisted]
  | object fields =>
      rw [isAnswered_ignoreConfig_object_iff]
      simp [IgnoresUnlisted]
  | _ => simp [ignoreConfig, IgnoresUnlisted, ConfigError.isReported]

theorem isAnswered_optionMapM_iff {α β : Type} {f : α → Except ConfigError β} {a? : Option α} :
    IsAnswered (a?.mapM f) ↔ ∀ a, a? = some a → IsAnswered (f a) := by
  cases a? with
  | none => exact iff_of_true (isAnswered_ok _) (by rintro _ ⟨⟩)
  | some a =>
      have hmap : IsAnswered (some <$> f a) ↔ IsAnswered (f a) := isAnswered_map_iff
      simpa using hmap

/-- The overrides of fields are answered iff the ignore section is, should it come to its turn. -/
theorem isAnswered_overrides_iff {directory : Path} {fields : List (String × Json)} :
    IsAnswered (overrides directory fields) ↔
      (HoldsStrings fields "css_files" → HoldsStrings fields "token_files" →
        HoldsStrings fields "include" →
        ∀ value, Json.lookup "ignore" fields = some value → ¬IgnoresUnlisted value) := by
  simp only [overrides, isAnswered_bind_iff, isAnswered_strings?, isAnswered_utilityClasses?,
    isAnswered_maxWorkers?, isAnswered_optionMapM_iff, isAnswered_ignoreConfig_iff,
    isAnswered_return, implies_true, and_true, true_and, ← exists_strings?_iff, exists_imp]

/-- The number of workers that fields set is a number. -/
theorem exists_workers_of_overrides {directory : Path} {fields : List (String × Json)}
    {o : Overrides} (h : overrides directory fields = .ok o) :
    ∀ value, o.maxWorkers = some value → ∃ workers, Workers.ofJson? value = some workers := by
  simp only [overrides, bind_eq_ok_iff, return_eq_ok_iff] at h
  obtain ⟨-, -, -, -, -, -, -, -, -, -, workers, hworkers, rfl⟩ := h
  rintro value hvalue
  dsimp only at hvalue
  subst hvalue
  unfold maxWorkers? at hworkers
  split at hworkers <;> cases hworkers <;> exact ⟨_, rfl⟩

theorem isAnswered_level (value : Json) : IsAnswered (Conformance.ofJson value) := by
  unfold Conformance.ofJson
  split
  · exact isAnswered_ok _
  · exact isAnswered_ok _
  · exact isAnswered_error_iff.2 rfl

theorem isAnswered_workers {value : Json} {workers : Workers}
    (h : Workers.ofJson? value = some workers) : IsAnswered (Workers.ofJson value) := by
  simp only [Workers.ofJson, h]
  split
  · exact isAnswered_ok _
  · exact isAnswered_error_iff.2 rfl

/-- Overriding is answered if the number of workers is a number. -/
theorem isAnswered_override {config : AuditConfig} {o : Overrides}
    (h : ∀ value, o.maxWorkers = some value → ∃ workers, Workers.ofJson? value = some workers) :
    IsAnswered (config.override o) := by
  unfold override
  cases hvalue : o.maxWorkers with
  | none =>
      cases o.level <;>
        simp only [isAnswered_bind_iff, isAnswered_level, isAnswered_ok, isAnswered_return,
          implies_true, and_true]
  | some value =>
      obtain ⟨workers, hworkers⟩ := h value hvalue
      have hset : IsAnswered ((Workers.ofJson value).map some) :=
        isAnswered_map_iff.2 (isAnswered_workers hworkers)
      cases o.level <;>
        simp only [isAnswered_bind_iff, isAnswered_level, isAnswered_ok, isAnswered_return,
          implies_true, and_true, hset]

/-- Fields are answered unless they are all known and hold ignored pairs without entries. -/
theorem isAnswered_ofFields_iff {directory : Path} {fields : List (String × Json)} :
    IsAnswered (ofFields directory fields) ↔ ¬HasUnlistedPairs (respell fields) := by
  unfold ofFields
  dsimp only
  cases hknown : (unknownKeys knownKeys (respell fields)).isEmpty with
  | false =>
      refine iff_of_true (isAnswered_error_iff.2 rfl) fun h => ?_
      rw [unknownKeys_isEmpty_iff.2 h.known] at hknown
      cases hknown
  | true =>
      simp only [Bool.not_true, Bool.false_eq_true, if_false]
      rw [isAnswered_bind_iff, isAnswered_overrides_iff, and_iff_left]
      · constructor
        · rintro h ⟨-, hcss, htokens, hsuffixes, value, hvalue, hunlisted⟩
          exact h hcss htokens hsuffixes value hvalue hunlisted
        · intro h hcss htokens hsuffixes value hvalue hunlisted
          exact h ⟨unknownKeys_isEmpty_iff.1 hknown, hcss, htokens, hsuffixes, value, hvalue,
            hunlisted⟩
      · exact fun o ho => isAnswered_override (exists_workers_of_overrides ho)

/-- **What a configuration file may make of its loading.**  It ends with a configuration or with an
error that is reported unless the text of the file holds a whole number that is too long, or the
ignored pairs of its document have no entries while everything that is looked at earlier can be
used. -/
theorem isAnswered_load_iff (fs : FileSystem) (path : Path) :
    IsAnswered (load fs path) ↔
      ∀ text, fs.read path = .ok text →
        Json.parse text ≠ .error .longNumber ∧
          ∀ fields, Json.parse text = .ok (.object fields) →
            ¬HasUnlistedPairs (respell fields) := by
  rw [load]
  cases fs.read path with
  | error e => simp [Except.mapError, bind, Except.bind, ConfigError.isReported]
  | ok text =>
      simp only [Except.mapError, ok_bind, Except.ok.injEq, forall_eq']
      cases Json.parse text with
      | error e => cases e <;> simp [bind, Except.bind, ConfigError.isReported]
      | ok document =>
          rw [ok_bind]
          cases document with
          | object fields => simp [isAnswered_ofFields_iff]
          | _ => exact iff_of_true (isAnswered_error_iff.2 rfl) (by simp)

/-- A configuration file with nothing in the place of the list of ignored pairs. -/
def nothingListed : FileSystem where
  here := []
  files := [(["c.json"], Text.Utf8.encode "\x7b\"ignore\": \x7b\"pairs\": null\x7d\x7d")]

/-- A readable file that holds a document without any number need not be answered. -/
theorem not_forall_isAnswered_load :
    ¬∀ (fs : FileSystem) (path : Path), (∃ text, fs.read path = .ok text ∧
      ∃ document, Json.parse text = .ok document) → IsAnswered (load fs path) := by
  intro h
  have hread : ∃ text, nothingListed.read (.ofText "c.json") = .ok text ∧
      ∃ document, Json.parse text = .ok document := by
    decide +kernel
  have hload : ¬IsAnswered (load nothingListed (.ofText "c.json")) := by
    decide +kernel
  exact hload (h nothingListed (.ofText "c.json") hread)

end ContrastAudit.AuditConfig

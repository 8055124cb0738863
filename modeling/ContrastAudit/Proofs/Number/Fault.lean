import Mathlib.Data.List.Forall2
import ContrastAudit.Number.Fault

/-!
# Computations that may fault

A sequence of computations has a result exactly if each of its parts has one.

**Results.**
* `bind_eq_ok_iff`: how the result of a sequence comes about.
* `exists_bind_iff`, `exists_mapM_iff`: when there is one.
-/

namespace ContrastAudit

instance decidableEqExcept {ε α : Type} [DecidableEq ε] [DecidableEq α] :
    DecidableEq (Except ε α)
  | .error e, .error e' => decidable_of_iff (e = e') (by simp)
  | .ok a, .ok b => decidable_of_iff (a = b) (by simp)
  | .error _, .ok _ => isFalse (by simp)
  | .ok _, .error _ => isFalse (by simp)

section Faults

variable {ε α β γ δ : Type}

instance decidableExistsOk (x : Except ε α) : Decidable (∃ a, x = .ok a) :=
  match x with
  | .ok a => isTrue ⟨a, rfl⟩
  | .error _ => isFalse (by simp)

instance decidableExistsOkAnd (x : Except ε α) (p : α → Prop) [DecidablePred p] :
    Decidable (∃ a, x = .ok a ∧ p a) :=
  match x with
  | .ok a => decidable_of_iff (p a) (by simp)
  | .error _ => isFalse (by simp)

/-- A sequence of two computations has a result iff the first has one and the second makes this
result of it. -/
theorem bind_eq_ok_iff {x : Except ε α} {f : α → Except ε β} {b : β} :
    x >>= f = .ok b ↔ ∃ a, x = .ok a ∧ f a = .ok b := by
  cases x with
  | error fault => simp [bind, Except.bind]
  | ok a => simp [bind, Except.bind]

/-- A sequence of two computations has a result iff both of them have. -/
theorem exists_bind_iff {x : Except ε α} {f : α → Except ε β} :
    (∃ b, x >>= f = .ok b) ↔ ∃ a, x = .ok a ∧ ∃ b, f a = .ok b := by
  simp only [bind_eq_ok_iff]
  exact ⟨fun ⟨b, a, ha, hb⟩ => ⟨a, ha, b, hb⟩, fun ⟨a, ha, b, hb⟩ => ⟨b, a, ha, hb⟩⟩

/-- A sequence of two computations faults iff the first does, or else the second does. -/
theorem bind_eq_error_iff {x : Except ε α} {f : α → Except ε β} {e : ε} :
    x >>= f = .error e ↔ x = .error e ∨ ∃ a, x = .ok a ∧ f a = .error e := by
  cases x with
  | error fault => simp [bind, Except.bind]
  | ok a => simp [bind, Except.bind]

theorem ok_bind (a : α) (f : α → Except ε β) :
    (Except.ok a >>= f) = f a :=
  rfl

theorem return_eq_ok_iff {a b : α} :
    (return a : Except ε α) = .ok b ↔ a = b := by
  simp [pure, Except.pure]

theorem map_eq_ok_iff {x : Except ε α} {f : α → β} {b : β} :
    x.map f = .ok b ↔ ∃ a, x = .ok a ∧ f a = b := by
  cases x with
  | error fault => simp [Except.map]
  | ok a => simp [Except.map]

theorem map_eq_error_iff {x : Except ε α} {f : α → β} {e : ε} :
    x.map f = .error e ↔ x = .error e := by
  cases x with
  | error fault => simp [Except.map]
  | ok a => simp [Except.map]

theorem mapError_eq_ok_iff {ε' : Type} {x : Except ε α} {f : ε → ε'} {a : α} :
    x.mapError f = .ok a ↔ x = .ok a := by
  cases x <;> simp [Except.mapError]

theorem exists_map_iff {x : Except ε α} {f : α → β} :
    (∃ b, x.map f = .ok b) ↔ ∃ a, x = .ok a := by
  cases x <;> simp [Except.map]

theorem map_bind (x : Except ε α) (f : α → Except ε β) (g : β → γ) :
    (x >>= f).map g = x >>= fun a => (f a).map g := by
  cases x <;> rfl

theorem mapM_congr {f g : α → Except ε β} {as : List α} (h : ∀ a ∈ as, f a = g a) :
    as.mapM f = as.mapM g := by
  induction as with
  | nil => rfl
  | cons a as ih =>
      obtain ⟨ha, has⟩ := List.forall_mem_cons.1 h
      rw [List.mapM_cons, List.mapM_cons, ha, ih has]

theorem mapM_map_result (f : α → Except ε β) (g : β → γ) (as : List α) :
    (as.mapM fun a => (f a).map g) = (as.mapM f).map (List.map g) := by
  induction as with
  | nil => rfl
  | cons a as ih =>
      rw [List.mapM_cons, List.mapM_cons, ih]
      cases f a with
      | error fault => rfl
      | ok b => cases as.mapM f <;> rfl

/-- A list of computations has results iff each of its elements has one. -/
theorem exists_mapM_iff {f : α → Except ε β} {as : List α} :
    (∃ bs, as.mapM f = .ok bs) ↔ ∀ a ∈ as, ∃ b, f a = .ok b := by
  induction as with
  | nil => simp [pure, Except.pure]
  | cons a as ih =>
      rw [List.mapM_cons, exists_bind_iff, List.forall_mem_cons, ← ih]
      constructor
      · rintro ⟨b, hb, h⟩
        obtain ⟨bs, hbs, -⟩ := exists_bind_iff.1 h
        exact ⟨⟨b, hb⟩, bs, hbs⟩
      · rintro ⟨⟨b, hb⟩, bs, hbs⟩
        exact ⟨b, hb, exists_bind_iff.2 ⟨bs, hbs, b :: bs, rfl⟩⟩

/-- Every result of a list of computations is the result of one of them. -/
theorem exists_of_mem_mapM {f : α → Except ε β} {as : List α} {bs : List β}
    (h : as.mapM f = .ok bs) {b : β} (hb : b ∈ bs) : ∃ a ∈ as, f a = .ok b := by
  induction as generalizing bs with
  | nil =>
      cases h
      cases hb
  | cons a as ih =>
      rw [List.mapM_cons] at h
      obtain ⟨first, hfirst, h⟩ := bind_eq_ok_iff.1 h
      obtain ⟨rest, hrest, h⟩ := bind_eq_ok_iff.1 h
      rw [return_eq_ok_iff] at h
      subst h
      rcases List.mem_cons.1 hb with rfl | hb
      · exact ⟨a, List.mem_cons_self, hfirst⟩
      · obtain ⟨c, hc, hcb⟩ := ih hrest hb
        exact ⟨c, List.mem_cons_of_mem _ hc, hcb⟩

/-- Each element of a list has its own result. -/
theorem forall₂_of_mapM {f : α → Except ε β} {as : List α} {bs : List β}
    (h : as.mapM f = .ok bs) : List.Forall₂ (fun a b => f a = .ok b) as bs := by
  induction as generalizing bs with
  | nil =>
      cases h
      exact .nil
  | cons a as ih =>
      rw [List.mapM_cons] at h
      obtain ⟨first, hfirst, h⟩ := bind_eq_ok_iff.1 h
      obtain ⟨rest, hrest, h⟩ := bind_eq_ok_iff.1 h
      rw [return_eq_ok_iff] at h
      exact h ▸ .cons hfirst (ih hrest)

/-- The results of a list of computations are those that one of them has. -/
theorem mem_mapM_iff {f : α → Except ε β} {as : List α} {bs : List β} (h : as.mapM f = .ok bs)
    {b : β} : b ∈ bs ↔ ∃ a ∈ as, f a = .ok b := by
  have hresults := forall₂_of_mapM h
  clear h
  induction hresults with
  | nil => simp
  | cons hfirst _ ih => simp [ih, hfirst, eq_comm]

/-- Two lists of arguments that agree on `g` have results that agree on `k`, if that is so for any
two arguments. -/
theorem map_eq_map_of_mapM {f : α → Except ε β} {g : α → γ} {k : β → δ}
    (hf : ∀ {a a' b b'}, g a = g a' → f a = .ok b → f a' = .ok b' → k b = k b') {as as' : List α}
    {bs bs' : List β} (h : as.map g = as'.map g) (hbs : as.mapM f = .ok bs)
    (hbs' : as'.mapM f = .ok bs') : bs.map k = bs'.map k := by
  have hresults := forall₂_of_mapM hbs
  have hresults' := forall₂_of_mapM hbs'
  clear hbs hbs'
  induction hresults generalizing as' bs' with
  | nil =>
      obtain rfl := List.map_eq_nil_iff.1 h.symm
      cases hresults'
      rfl
  | cons hb _ ih =>
      cases hresults' with
      | nil => cases h
      | cons hb' hrest' =>
          obtain ⟨hfirst, hrest⟩ := List.cons.inj h
          rw [List.map_cons, List.map_cons, hf hfirst hb hb', ih hrest hrest']

/-- If the results of a list that count show which element they are of, and only elements that pass
a test have one, then the results show the elements that pass, in order. -/
theorem map_filterMap_of_mapM {f : α → Except ε (Option β)} {p : α → Bool}
    {g : β → α} (hf : ∀ a b, f a = .ok b → b.map g = if p a then some a else none) {as : List α}
    {bs : List (Option β)} (h : as.mapM f = .ok bs) :
    (bs.filterMap id).map g = as.filter p := by
  induction as generalizing bs with
  | nil =>
      cases h
      rfl
  | cons a as ih =>
      rw [List.mapM_cons] at h
      obtain ⟨b, hb, h⟩ := bind_eq_ok_iff.1 h
      obtain ⟨rest, hrest, h⟩ := bind_eq_ok_iff.1 h
      rw [return_eq_ok_iff] at h
      subst h
      have hfirst := hf a b hb
      cases hp : p a with
      | true =>
          rw [hp, if_pos rfl, Option.map_eq_some_iff] at hfirst
          obtain ⟨c, rfl, hc⟩ := hfirst
          have hcons : (some c :: rest).filterMap id = c :: rest.filterMap id := rfl
          rw [hcons, List.map_cons, hc, ih hrest, List.filter_cons_of_pos hp]
      | false =>
          rw [hp, if_neg Bool.false_ne_true, Option.map_eq_none_iff] at hfirst
          subst hfirst
          have hcons : (none :: rest).filterMap id = rest.filterMap id := rfl
          rw [hcons, ih hrest, List.filter_cons_of_neg (by simp [hp])]

/-- Results that are kept together with their arguments keep the arguments in order. -/
theorem map_fst_of_mapM {f : α → Except ε β} {as : List α} {results : List (α × β)}
    (h : (as.mapM fun a => return (a, ← f a)) = .ok results) : results.map (·.1) = as := by
  induction as generalizing results with
  | nil =>
      cases h
      rfl
  | cons a as ih =>
      rw [List.mapM_cons] at h
      obtain ⟨first, hfirst, h⟩ := bind_eq_ok_iff.1 h
      obtain ⟨b, -, hb⟩ := bind_eq_ok_iff.1 hfirst
      obtain ⟨rest, hrest, h⟩ := bind_eq_ok_iff.1 h
      rw [return_eq_ok_iff] at hb h
      rw [← h, ← hb, List.map_cons, ih hrest]

end Faults

end ContrastAudit

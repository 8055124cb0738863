import ContrastAudit.Property.Map

/-!
# Merging custom properties

Merging maps one after the other sets their properties one after the other, whether or not the
maps are built first.

**Results.**
* `merge_merge`: merging is associative for maps that hold each name once.
* `merge_append`: the properties of two lists can be collected apart.
-/

namespace ContrastAudit.PropertyMap

/-- The names that have a value. -/
def names (map : PropertyMap) : List String :=
  map.map (·.1)

/-- A map holds each name at most once. -/
def Distinct (map : PropertyMap) : Prop :=
  map.names.Nodup

theorem distinct_nil : Distinct [] :=
  List.nodup_nil

theorem mem_names_set {key name value : String} {map : PropertyMap} :
    key ∈ (map.set name value).names ↔ key = name ∨ key ∈ map.names := by
  induction map with
  | nil => simp [set, names]
  | cons entry rest ih =>
      obtain ⟨known, old⟩ := entry
      simp only [names, List.map_cons, List.mem_cons] at ih ⊢
      by_cases h : known = name
      · subst h
        simp [set]
      · simp only [set, if_neg h, List.map_cons, List.mem_cons, ih]
        exact or_left_comm

theorem mem_names_merge {key : String} {base extra : PropertyMap} :
    key ∈ (base.merge extra).names ↔ key ∈ base.names ∨ key ∈ extra.names := by
  induction extra generalizing base with
  | nil => simp [merge, names]
  | cons entry extra ih =>
      obtain ⟨name, value⟩ := entry
      have hmerge : base.merge ((name, value) :: extra) = (base.set name value).merge extra := rfl
      have hnames : PropertyMap.names ((name, value) :: extra) = name :: names extra := rfl
      rw [hmerge, hnames, ih, mem_names_set, List.mem_cons, or_assoc]
      exact or_left_comm

/-- Setting a property keeps names distinct. -/
theorem distinct_set {name value : String} {map : PropertyMap} (h : map.Distinct) :
    (map.set name value).Distinct := by
  induction map with
  | nil => simp [set, Distinct, names]
  | cons entry rest ih =>
      obtain ⟨known, old⟩ := entry
      simp only [Distinct, names, List.map_cons, List.nodup_cons] at h
      by_cases hk : known = name
      · subst hk
        simpa [set, Distinct, names] using h
      · simp only [set, if_neg hk, Distinct, names, List.map_cons, List.nodup_cons]
        refine ⟨fun hmem => ?_, ih h.2⟩
        rcases mem_names_set.1 hmem with heq | hmem
        · exact hk heq
        · exact h.1 hmem

theorem distinct_merge {base : PropertyMap} (h : base.Distinct) (extra : PropertyMap) :
    (base.merge extra).Distinct :=
  List.foldlRecOn (motive := Distinct) extra _ h fun _ hmap _ _ => distinct_set hmap

theorem set_set_same (name old value : String) (map : PropertyMap) :
    (map.set name old).set name value = map.set name value := by
  induction map with
  | nil => simp [set]
  | cons entry rest ih =>
      obtain ⟨known, _⟩ := entry
      by_cases h : known = name
      · simp [set, h]
      · simp [set, h, ih]

/-- A property that is already there can be set before another one or behind it. -/
theorem set_comm_of_mem {name name' : String} (hne : name ≠ name') (value value' : String)
    {map : PropertyMap} (h : name ∈ map.names) :
    (map.set name' value').set name value = (map.set name value).set name' value' := by
  induction map with
  | nil => simp [names] at h
  | cons entry rest ih =>
      obtain ⟨known, _⟩ := entry
      by_cases hk : known = name
      · subst hk
        simp [set, hne]
      · by_cases hk' : known = name'
        · subst hk'
          simp [set, hk]
        · have hrest : name ∈ names rest := by
            simpa [names, Ne.symm hk] using h
          simp [set, hk, hk', ih hrest]

theorem set_merge_of_mem {name value : String} {base extra : PropertyMap}
    (hbase : name ∈ base.names) (hextra : name ∉ extra.names) :
    (base.merge extra).set name value = (base.set name value).merge extra := by
  induction extra generalizing base with
  | nil => rfl
  | cons entry rest ih =>
      obtain ⟨key, v⟩ := entry
      simp only [names, List.map_cons, List.mem_cons, not_or] at hextra
      have hmem : name ∈ (base.set key v).names := mem_names_set.2 (.inr hbase)
      have hstep := ih hmem hextra.2
      calc (base.merge ((key, v) :: rest)).set name value
          = ((base.set key v).merge rest).set name value := rfl
        _ = ((base.set key v).set name value).merge rest := hstep
        _ = ((base.set name value).set key v).merge rest := by
            rw [set_comm_of_mem hextra.1 _ _ hbase]

/-- Setting a property in the second map sets it in the merged one. -/
theorem merge_set {map : PropertyMap} (h : map.Distinct) (base : PropertyMap)
    (name value : String) :
    base.merge (map.set name value) = (base.merge map).set name value := by
  induction map generalizing base with
  | nil => rfl
  | cons entry rest ih =>
      obtain ⟨key, old⟩ := entry
      simp only [Distinct, names, List.map_cons, List.nodup_cons] at h
      by_cases hk : key = name
      · subst hk
        have hmem : key ∈ (base.set key old).names := mem_names_set.2 (.inl rfl)
        calc base.merge (set key value ((key, old) :: rest))
            = (base.set key value).merge rest := by rw [set, if_pos rfl]; rfl
          _ = ((base.set key old).set key value).merge rest := by rw [set_set_same]
          _ = ((base.set key old).merge rest).set key value := (set_merge_of_mem hmem h.1).symm
      · calc base.merge (set name value ((key, old) :: rest))
            = (base.set key old).merge (set name value rest) := by rw [set, if_neg hk]; rfl
          _ = ((base.set key old).merge rest).set name value := ih h.2 _

/-- Merging is associative as long as the map in the middle holds each name once. -/
theorem merge_merge {map : PropertyMap} (h : map.Distinct) (base extra : PropertyMap) :
    base.merge (map.merge extra) = (base.merge map).merge extra := by
  induction extra generalizing map with
  | nil => rfl
  | cons entry rest ih =>
      obtain ⟨key, v⟩ := entry
      calc base.merge (map.merge ((key, v) :: rest))
          = base.merge ((map.set key v).merge rest) := rfl
        _ = (base.merge (map.set key v)).merge rest := ih (distinct_set h)
        _ = ((base.merge map).set key v).merge rest := by rw [merge_set h]

theorem get?_eq_none {name : String} {map : PropertyMap} (h : name ∉ map.names) :
    map.get? name = none := by
  induction map with
  | nil => rfl
  | cons entry rest ih =>
      obtain ⟨known, value⟩ := entry
      simp only [names, List.map_cons, List.mem_cons, not_or] at h
      rw [get?, if_neg (Ne.symm h.1), ih h.2]

/-- In a merged map the second map counts where it has a value. -/
theorem get?_merge {extra : PropertyMap} (h : extra.Distinct) (base : PropertyMap)
    (name : String) : (base.merge extra).get? name = (extra.get? name).or (base.get? name) := by
  induction extra generalizing base with
  | nil => rfl
  | cons entry rest ih =>
      obtain ⟨known, value⟩ := entry
      simp only [Distinct, names, List.map_cons, List.nodup_cons] at h
      have hrest : (base.merge ((known, value) :: rest)).get? name =
          (get? name rest).or ((base.set known value).get? name) := ih h.2 (base.set known value)
      rw [hrest, get?_set, get?]
      by_cases hname : known = name
      · subst hname
        rw [get?_eq_none h.1, if_pos rfl, if_pos rfl]
        rfl
      · rw [if_neg (Ne.symm hname), if_neg hname]

/-- What a map says of a name does not change while other properties are set. -/
theorem get?_merge_of_not_mem {name : String} {extra : PropertyMap} (h : name ∉ extra.names)
    (base : PropertyMap) : (base.merge extra).get? name = base.get? name := by
  induction extra generalizing base with
  | nil => rfl
  | cons entry rest ih =>
      obtain ⟨known, value⟩ := entry
      simp only [names, List.map_cons, List.mem_cons, not_or] at h
      have hrest : (base.merge ((known, value) :: rest)).get? name =
          (base.set known value).get? name := ih h.2 (base.set known value)
      rw [hrest, get?_set, if_neg h.1]

/-- Of the properties of one name in a list the last one counts. -/
theorem get?_merge_last {name : String} {behind : PropertyMap} (h : name ∉ behind.names)
    (before : PropertyMap) (value : String) :
    (merge [] (before ++ (name, value) :: behind)).get? name = some value := by
  have hmerge : merge [] (before ++ (name, value) :: behind) =
      ((merge [] before).set name value).merge behind := by
    rw [merge, List.foldl_append]
    rfl
  rw [hmerge, get?_merge_of_not_mem h, get?_set, if_pos rfl]

/-- The properties of two lists can be collected apart and merged. -/
theorem merge_append (first second : PropertyMap) :
    merge [] (first ++ second) = (merge [] first).merge (merge [] second) := by
  rw [merge_merge distinct_nil, merge_nil, merge, List.foldl_append]
  rfl

end ContrastAudit.PropertyMap

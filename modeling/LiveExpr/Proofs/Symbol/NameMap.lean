import LiveExpr.Symbol.NameMap

/-!
Maps of names through their look-ups.
-/

namespace LiveExpr.NameMap

variable {α β : Type}

theorem mem_of_lookup {map : NameMap α} {name : String} {value : α} (found : map.lookup name = some value) :
    (name, value) ∈ map.entries := by
  obtain ⟨before, after, split, -⟩ := List.lookup_eq_some_iff.mp found
  exact split ▸ List.mem_append_right before (List.mem_cons_self ..)

theorem lookup_of_mem {map : NameMap α} {name : String} {value : α} (entry : (name, value) ∈ map.entries) :
    map.lookup name = some value := by
  obtain ⟨before, after, split⟩ := List.append_of_mem entry
  refine List.lookup_eq_some_iff.mpr ⟨before, after, split, fun earlier inFront => ?_⟩
  have ascending := map.ascending
  rw [split, List.pairwise_append] at ascending
  have smaller := ascending.2.2 earlier inFront (name, value) (List.mem_cons_self ..)
  exact bne_iff_ne.mpr fun same => String.lt_irrefl _ (same ▸ smaller)

theorem lookup_eq_some_iff {map : NameMap α} {name : String} {value : α} :
    map.lookup name = some value ↔ (name, value) ∈ map.entries :=
  ⟨mem_of_lookup, lookup_of_mem⟩

@[simp] theorem lookup_empty (name : String) : (empty : NameMap α).lookup name = none := rfl

theorem mem_names_iff {map : NameMap α} {name : String} :
    name ∈ map.names ↔ ∃ value, map.lookup name = some value := by
  simp [names, lookup_eq_some_iff]

theorem nodup_names (map : NameMap α) : map.names.Nodup := by
  refine List.pairwise_map.mpr (map.ascending.imp fun before same => ?_)
  rw [same] at before
  exact String.lt_irrefl _ before

/-! ## Insertions -/

theorem lookup_insertEntry_same (name : String) (value : α) (entries : List (String × α)) :
    (insertEntry name value entries).lookup name = some value := by
  induction entries with
  | nil => simp [insertEntry]
  | cons entry rest induction =>
    obtain ⟨first, old⟩ := entry
    rw [insertEntry]
    split
    · simp
    · split
      · simp
      · next different _ =>
        simp [List.lookup_cons, beq_eq_false_iff_ne.mpr different, induction]

theorem lookup_insertEntry_other {name other : String} (different : other ≠ name) (value : α)
    (entries : List (String × α)) : (insertEntry name value entries).lookup other = entries.lookup other := by
  have unequal : (other == name) = false := beq_eq_false_iff_ne.mpr different
  induction entries with
  | nil => simp [insertEntry, List.lookup_cons, unequal]
  | cons entry rest induction =>
    obtain ⟨first, old⟩ := entry
    rw [insertEntry]
    split
    · next equal =>
      subst equal
      simp [List.lookup_cons, unequal]
    · split
      · simp [List.lookup_cons, unequal]
      · simp [List.lookup_cons, induction]

@[simp] theorem lookup_insert_same (map : NameMap α) (name : String) (value : α) :
    (map.insert name value).lookup name = some value :=
  lookup_insertEntry_same name value map.entries

theorem lookup_insert_other {name other : String} (different : other ≠ name) (map : NameMap α) (value : α) :
    (map.insert name value).lookup other = map.lookup other :=
  lookup_insertEntry_other different value map.entries

/-- What a name has after an insertion is the new value or was there before. -/
theorem lookup_insert_cases {map : NameMap α} {name other : String} {value found : α}
    (bound : (map.insert name value).lookup other = some found) :
    (other = name ∧ found = value) ∨ map.lookup other = some found := by
  by_cases equal : other = name
  · subst equal
    rw [lookup_insert_same] at bound
    exact .inl ⟨rfl, (Option.some.inj bound).symm⟩
  · rw [lookup_insert_other equal] at bound
    exact .inr bound

/-! ## Other changes -/

theorem lookup_filter {map : NameMap α} {keep : String → α → Bool} {name : String} {value : α} :
    (map.filter keep).lookup name = some value ↔ map.lookup name = some value ∧ keep name value = true := by
  simp [lookup_eq_some_iff, filter]

@[simp] theorem lookup_remove_same (map : NameMap α) (name : String) : (map.remove name).lookup name = none := by
  refine Option.eq_none_iff_forall_not_mem.mpr fun value found => ?_
  exact absurd rfl (bne_iff_ne.mp (lookup_filter.mp found).2)

theorem lookup_remove_other {name other : String} (different : other ≠ name) (map : NameMap α) :
    (map.remove name).lookup other = map.lookup other := by
  ext value
  simp [remove, lookup_filter, different]

@[simp] theorem lookup_map (convert : α → β) (map : NameMap α) (name : String) :
    (map.map convert).lookup name = (map.lookup name).map convert := by
  ext value
  simp only [Option.map_eq_some_iff, lookup_eq_some_iff, NameMap.map, List.mem_map, Prod.mk.injEq, Prod.exists]
  constructor
  · rintro ⟨_, found, entry, rfl, rfl⟩
    exact ⟨found, entry, rfl⟩
  · rintro ⟨found, entry, rfl⟩
    exact ⟨name, found, entry, rfl, rfl⟩

end LiveExpr.NameMap

/-!
Maps from names to values. The entries are kept in ascending order of their names, so that every name has one value
at most.
-/

namespace LiveExpr

structure NameMap (α : Type) where
  entries : List (String × α)
  ascending : entries.Pairwise (·.1 < ·.1)

namespace NameMap

variable {α β : Type}

def empty : NameMap α := ⟨[], .nil⟩

instance : Inhabited (NameMap α) := ⟨empty⟩

/-- The value of a name. -/
def lookup (map : NameMap α) (name : String) : Option α :=
  map.entries.lookup name

def contains (map : NameMap α) (name : String) : Bool :=
  (map.lookup name).isSome

def names (map : NameMap α) : List String :=
  map.entries.map (·.1)

/-! ## Changes -/

/-- Puts a value in its place among entries in ascending order, over one of the same name. -/
def insertEntry (name : String) (value : α) : List (String × α) → List (String × α)
  | [] => [(name, value)]
  | (first, old) :: rest =>
    if name = first then (name, value) :: rest
    else if name < first then (name, value) :: (first, old) :: rest
    else (first, old) :: insertEntry name value rest

theorem mem_insertEntry {name : String} {value : α} {entries : List (String × α)} {entry : String × α}
    (inserted : entry ∈ insertEntry name value entries) : entry = (name, value) ∨ entry ∈ entries := by
  induction entries with
  | nil => exact .inl (List.mem_singleton.mp inserted)
  | cons first rest induction =>
    rw [insertEntry] at inserted
    split at inserted
    · exact (List.mem_cons.mp inserted).imp_right (List.mem_cons_of_mem _)
    · split at inserted
      · exact List.mem_cons.mp inserted
      · rcases List.mem_cons.mp inserted with rfl | later
        · exact .inr (List.mem_cons_self ..)
        · exact (induction later).imp_right (List.mem_cons_of_mem _)

theorem ascending_insertEntry {entries : List (String × α)} (ascending : entries.Pairwise (·.1 < ·.1))
    (name : String) (value : α) : (insertEntry name value entries).Pairwise (·.1 < ·.1) := by
  induction entries with
  | nil => exact List.pairwise_singleton _ _
  | cons first rest induction =>
    obtain ⟨above, ordered⟩ := List.pairwise_cons.mp ascending
    rw [insertEntry]
    split
    · next equal => exact .cons (fun entry later => equal ▸ above entry later) ordered
    · next different =>
      split
      · next before =>
        refine .cons (List.forall_mem_cons.mpr ⟨before, fun entry later => ?_⟩) ascending
        exact String.lt_trans before (above entry later)
      · next behind =>
        refine .cons (fun entry inserted => ?_) (induction ordered)
        rcases mem_insertEntry inserted with rfl | later
        · refine Decidable.byContradiction fun other => different ?_
          exact String.le_antisymm (String.not_lt.mp other) (String.not_lt.mp behind)
        · exact above entry later

/-- Gives a name a value, in place of an earlier one. -/
def insert (map : NameMap α) (name : String) (value : α) : NameMap α :=
  ⟨insertEntry name value map.entries, ascending_insertEntry map.ascending name value⟩

/-- The entries that satisfy a condition. -/
def filter (map : NameMap α) (keep : String → α → Bool) : NameMap α :=
  ⟨map.entries.filter fun (name, value) => keep name value, map.ascending.filter _⟩

def remove (map : NameMap α) (name : String) : NameMap α :=
  map.filter fun other _ => other != name

def map (convert : α → β) (map : NameMap α) : NameMap β :=
  ⟨map.entries.map fun (name, value) => (name, convert value), List.pairwise_map.mpr map.ascending⟩

end NameMap

end LiveExpr

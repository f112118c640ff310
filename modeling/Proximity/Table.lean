/-! Tables of values by key. A table keeps its entries in some order, which no result depends on. -/

namespace Proximity

/-- Values by key, each key once. -/
structure Table (κ ν : Type) where
  entries : List (κ × ν)
  nodup_keys : (entries.map Prod.fst).Nodup

namespace Table

variable {κ ν : Type}

def empty : Table κ ν := ⟨[], List.nodup_nil⟩

def size (table : Table κ ν) : Nat := table.entries.length

/-- The entries whose keys and values pass a test. -/
def filter (table : Table κ ν) (keep : κ → ν → Bool) : Table κ ν where
  entries := table.entries.filter fun (k, v) => keep k v
  nodup_keys := (List.filter_sublist.map Prod.fst).nodup table.nodup_keys

def map (table : Table κ ν) (change : ν → ν) : Table κ ν where
  entries := table.entries.map fun (k, v) => (k, change v)
  nodup_keys := by
    rw [List.map_map]
    exact table.nodup_keys

variable [DecidableEq κ]

/-- The value of a key. -/
def get? (table : Table κ ν) (key : κ) : Option ν := table.entries.lookup key

def erase (table : Table κ ν) (key : κ) : Table κ ν := table.filter fun k _ => k ≠ key

/-- The table with a value for a key, in place of any that the key had. -/
def insert (table : Table κ ν) (key : κ) (value : ν) : Table κ ν where
  entries := (key, value) :: (table.erase key).entries
  nodup_keys := by
    refine List.nodup_cons.mpr ⟨?_, (table.erase key).nodup_keys⟩
    simp [erase, filter]

/-- The value of a key is the one that is stored with it. -/
theorem get?_eq_some_iff {table : Table κ ν} {key : κ} {value : ν} :
    table.get? key = some value ↔ (key, value) ∈ table.entries := by
  obtain ⟨entries, nodup⟩ := table
  simp only [get?]
  induction entries with
  | nil => simp
  | cons entry entries ih =>
    obtain ⟨k, v⟩ := entry
    simp only [List.map_cons, List.nodup_cons] at nodup
    by_cases h : key = k
    · subst h
      have absent : (key, value) ∉ entries := fun mem => nodup.1 (List.mem_map_of_mem mem)
      simp [absent, eq_comm]
    · simp [List.lookup_cons, beq_eq_false_iff_ne.mpr h, h, ih nodup.2]

theorem get?_filter {table : Table κ ν} {keep : κ → ν → Bool} {key : κ} :
    (table.filter keep).get? key = (table.get? key).filter (keep key) := by
  ext value
  simp [get?_eq_some_iff, filter, Option.filter_eq_some_iff]

theorem get?_insert {table : Table κ ν} {key key' : κ} {value : ν} :
    (table.insert key value).get? key' = if key' = key then some value else table.get? key' := by
  ext value'
  rw [get?_eq_some_iff]
  by_cases h : key' = key
  · simp [insert, erase, filter, h, eq_comm]
  · simp [get?_eq_some_iff, insert, erase, filter, h]

theorem get?_erase {table : Table κ ν} {key key' : κ} :
    (table.erase key).get? key' = if key' = key then none else table.get? key' := by
  rw [erase, get?_filter]
  cases table.get? key' <;> by_cases h : key' = key <;> simp [Option.filter, h]

theorem get?_map {table : Table κ ν} {change : ν → ν} {key : κ} :
    (table.map change).get? key = (table.get? key).map change := by
  simp only [get?, map]
  induction table.entries with
  | nil => rfl
  | cons entry entries ih =>
    rw [List.map_cons, List.lookup_cons, List.lookup_cons, ih]
    split <;> rfl

end Table

end Proximity

/-
Finite maps whose values go dead.  A sweep collects the dead keys and erases
them one by one; a lookup after it answers exactly the live value.
-/
import Mathlib.Data.List.AList
import Mathlib.Tactic

namespace ExpiringTable

universe u v

variable {κ : Type u} {ν : Type v} [DecidableEq κ]

/-- A finite map from keys to values, without duplicate keys. -/
abbrev Table (κ : Type u) (ν : Type v) := AList (fun _ : κ => ν)

def deadKeys (dead : ν → Bool) (table : Table κ ν) : List κ :=
  (table.entries.filter fun entry => dead entry.2).map Sigma.fst

def eraseAll (table : Table κ ν) (keys : List κ) : Table κ ν :=
  keys.foldl (fun rest key => rest.erase key) table

def sweep (dead : ν → Bool) (table : Table κ ν) : Table κ ν :=
  eraseAll table (deadKeys dead table)

theorem mem_deadKeys_iff (dead : ν → Bool) (table : Table κ ν) (key : κ) :
    key ∈ deadKeys dead table ↔
      ∃ value, table.lookup key = some value ∧ dead value = true := by
  simp only [deadKeys, List.mem_map, List.mem_filter]
  constructor
  · rintro ⟨⟨found, value⟩, ⟨hmem, hdead⟩, rfl⟩
    exact ⟨value, AList.mem_lookup_iff.mpr hmem, hdead⟩
  · rintro ⟨value, hlookup, hdead⟩
    exact ⟨⟨key, value⟩, ⟨AList.mem_lookup_iff.mp hlookup, hdead⟩, rfl⟩

theorem lookup_eraseAll (table : Table κ ν) (keys : List κ) (key : κ) :
    (eraseAll table keys).lookup key =
      if key ∈ keys then none else table.lookup key := by
  induction keys generalizing table with
  | nil => simp [eraseAll]
  | cons head tail ih =>
      have hstep : (eraseAll table (head :: tail)).lookup key =
          (eraseAll (table.erase head) tail).lookup key := rfl
      rw [hstep, ih]
      by_cases htail : key ∈ tail
      · simp [htail]
      · by_cases hhead : key = head
        · subst hhead
          simp [htail]
        · simp [htail, hhead, AList.lookup_erase_ne hhead]

/-- A lookup after a sweep answers the value that was there, if it is live. -/
theorem lookup_sweep (dead : ν → Bool) (table : Table κ ν) (key : κ) :
    (sweep dead table).lookup key =
      (table.lookup key).filter fun value => !dead value := by
  rw [sweep, lookup_eraseAll]
  cases hlookup : table.lookup key with
  | none => simp
  | some value =>
      have hiff := mem_deadKeys_iff dead table key
      simp only [hlookup, Option.some.injEq, exists_eq_left'] at hiff
      cases hdead : dead value <;> simp [hiff, hdead, Option.filter]

theorem lookup_sweep_of_live {dead : ν → Bool} {table : Table κ ν} {key : κ}
    {value : ν} (hlookup : table.lookup key = some value)
    (hlive : dead value = false) :
    (sweep dead table).lookup key = some value := by
  simp [lookup_sweep, hlookup, hlive]

theorem lookup_sweep_of_dead {dead : ν → Bool} {table : Table κ ν} {key : κ}
    {value : ν} (hlookup : table.lookup key = some value)
    (hdead : dead value = true) : (sweep dead table).lookup key = none := by
  simp [lookup_sweep, hlookup, hdead]

theorem lookup_of_lookup_sweep {dead : ν → Bool} {table : Table κ ν} {key : κ}
    {value : ν} (h : (sweep dead table).lookup key = some value) :
    table.lookup key = some value ∧ dead value = false := by
  rw [lookup_sweep, Option.filter_eq_some_iff] at h
  simpa using h

/-- After an insertion every entry is the new one or was there before. -/
theorem lookup_of_lookup_insert {table : Table κ ν} {key other : κ}
    {value found : ν} (h : (table.insert key value).lookup other = some found) :
    (other = key ∧ found = value) ∨ table.lookup other = some found := by
  by_cases heq : other = key
  · subst heq
    rw [AList.lookup_insert, Option.some.injEq] at h
    exact Or.inl ⟨rfl, h.symm⟩
  · rw [AList.lookup_insert_ne heq] at h
    exact Or.inr h

end ExpiringTable

/-!
# Keyed lists

Values under distinct names, kept in the order in which the names were first given. Storing a value
under a name that is there already keeps the name's place and takes the new value.
-/

namespace TypedSql

/-- Stores `value` under `key`: in the place of the first entry of that key, else at the end. -/
def upsert {α : Type} (key : String) (value : α) : List (String × α) → List (String × α)
  | [] => [(key, value)]
  | entry :: rest =>
      if entry.1 = key then (key, value) :: rest else entry :: upsert key value rest

theorem keys_upsert {α : Type} (key : String) (value : α) (entries : List (String × α)) :
    (upsert key value entries).map Prod.fst =
      if key ∈ entries.map Prod.fst then entries.map Prod.fst
      else entries.map Prod.fst ++ [key] := by
  induction entries with
  | nil => simp [upsert]
  | cons entry rest ih =>
      by_cases h : entry.1 = key
      · simp [upsert, h]
      · have h' : ¬ key = entry.1 := fun e => h e.symm
        by_cases hm : key ∈ rest.map Prod.fst <;> simp_all [upsert]

theorem nodup_keys_upsert {α : Type} (key : String) (value : α) {entries : List (String × α)}
    (h : (entries.map Prod.fst).Nodup) : ((upsert key value entries).map Prod.fst).Nodup := by
  rw [keys_upsert]
  split
  · exact h
  · next hm =>
      rw [List.nodup_append]
      refine ⟨h, by simp, ?_⟩
      intro a ha b hb
      simp only [List.mem_singleton] at hb
      rintro rfl
      exact hm (hb ▸ ha)

/-- Entries with pairwise distinct keys, in order of first insertion. -/
structure Keyed (α : Type) where
  entries : List (String × α)
  nodup : (entries.map Prod.fst).Nodup

namespace Keyed

variable {α β : Type}

@[ext]
theorem ext {a b : Keyed α} (h : a.entries = b.entries) : a = b := by
  cases a; cases b; cases h; rfl

instance [DecidableEq α] : DecidableEq (Keyed α) := fun a b =>
  decidable_of_iff (a.entries = b.entries) ⟨ext, fun h => h ▸ rfl⟩

/-- No entries. -/
def empty : Keyed α := ⟨[], by simp⟩

instance : Inhabited (Keyed α) := ⟨empty⟩

/-- The keys in order. -/
def keys (k : Keyed α) : List String := k.entries.map Prod.fst

/-- The value stored under a key. -/
def get? (k : Keyed α) (key : String) : Option α := k.entries.lookup key

/-- Stores a value; a key that is there already keeps its place. -/
def insert (k : Keyed α) (key : String) (value : α) : Keyed α :=
  ⟨upsert key value k.entries, nodup_keys_upsert key value k.nodup⟩

/-- Stores the pairs one after another. -/
def ofList (pairs : List (String × α)) : Keyed α :=
  pairs.foldl (fun k pair => k.insert pair.1 pair.2) empty

/-- Applies a function to every value. -/
def map (f : α → β) (k : Keyed α) : Keyed β :=
  ⟨k.entries.map fun entry => (entry.1, f entry.2), by
    have h : (k.entries.map fun entry => (entry.1, f entry.2)).map Prod.fst =
        k.entries.map Prod.fst := by simp [Function.comp_def]
    rw [h]; exact k.nodup⟩

/-- Whether there are no entries. -/
def isEmpty (k : Keyed α) : Bool := k.entries.isEmpty

@[simp]
theorem entries_empty : (empty : Keyed α).entries = [] := rfl

@[simp]
theorem entries_insert (k : Keyed α) (key : String) (value : α) :
    (k.insert key value).entries = upsert key value k.entries := rfl

end Keyed

theorem lookup_cons {α : Type} (key other : String) (value : α) (entries : List (String × α)) :
    ((key, value) :: entries).lookup other =
      if other = key then some value else entries.lookup other := by
  by_cases h : other = key
  · simp [h]
  · have : (other == key) = false := by simp [h]
    rw [List.lookup_cons, this, if_neg h]

theorem lookup_upsert {α : Type} (key other : String) (value : α) (entries : List (String × α)) :
    (upsert key value entries).lookup other =
      if other = key then some value else entries.lookup other := by
  induction entries with
  | nil => rw [upsert, lookup_cons]
  | cons entry rest ih =>
      obtain ⟨k, v⟩ := entry
      by_cases h : k = key
      · subst h
        by_cases ho : other = k <;> simp [upsert, lookup_cons, ho]
      · by_cases ho : other = k
        · subst ho; simp [upsert, h]
        · simp [upsert, lookup_cons, h, ho, ih]

namespace Keyed

@[simp]
theorem get?_insert {α : Type} (k : Keyed α) (key other : String) (value : α) :
    (k.insert key value).get? other = if other = key then some value else k.get? other :=
  lookup_upsert key other value k.entries

end Keyed

end TypedSql

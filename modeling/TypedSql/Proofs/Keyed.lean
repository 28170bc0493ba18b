import Mathlib.Data.List.Induction
import TypedSql.Keyed

namespace TypedSql.Keyed

/-! # Entries given one after another

A keyed list that is filled from pairs has every key in the place of its first pair and with the
value of its last one. Its keys in order and the values under them are all that there is to it.
-/

variable {α : Type}

/-! ## What is filled in -/

/-- A key that is there keeps its place, and a new one comes last. -/
theorem keys_insert (k : Keyed α) (key : String) (value : α) :
    (k.insert key value).keys = if key ∈ k.keys then k.keys else k.keys ++ [key] :=
  keys_upsert key value k.entries

/-- Pairs are inserted one after another. -/
theorem ofList_concat (pairs : List (String × α)) (pair : String × α) :
    ofList (pairs ++ [pair]) = (ofList pairs).insert pair.1 pair.2 := by
  simp [ofList, List.foldl_append]

/-- The keys of pairs are kept in the order in which they come first. -/
theorem keys_ofList (pairs : List (String × α)) :
    (ofList pairs).keys = (pairs.map Prod.fst).eraseDups := by
  induction pairs using List.reverseRecOn with
  | nil => rfl
  | append_singleton pairs pair ih =>
      rw [ofList_concat, keys_insert, ih, List.map_append, List.eraseDups_append]
      by_cases h : pair.1 ∈ pairs.map Prod.fst
      · rw [if_pos (List.mem_eraseDups.2 h)]
        simp [List.removeAll, h]
      · rw [if_neg (mt List.mem_eraseDups.1 h)]
        simp [List.removeAll, h, List.eraseDups_cons]

/-- Under each key the last of its values is kept. -/
theorem get?_ofList (pairs : List (String × α)) (key : String) :
    (ofList pairs).get? key = pairs.reverse.lookup key := by
  induction pairs using List.reverseRecOn with
  | nil => rfl
  | append_singleton pairs pair ih =>
      rw [ofList_concat, get?_insert, ih, List.reverse_concat, lookup_cons]

/-! ## Keys given once -/

/-- An entry under a new key is put at the end. -/
theorem upsert_of_not_mem {key : String} {value : α} {entries : List (String × α)}
    (h : key ∉ entries.map Prod.fst) :
    upsert key value entries = entries ++ [(key, value)] := by
  induction entries with
  | nil => rfl
  | cons entry rest ih =>
      rw [List.map_cons, List.mem_cons, not_or] at h
      rw [upsert, if_neg (Ne.symm h.1), ih h.2]
      rfl

/-- Entries with new names go to the end, in their order. -/
theorem entries_foldl_insert (k : Keyed α) (pairs : List (String × α))
    (h : ((k.entries ++ pairs).map Prod.fst).Nodup) :
    (pairs.foldl (fun k pair => k.insert pair.1 pair.2) k).entries = k.entries ++ pairs := by
  induction pairs generalizing k with
  | nil => rw [List.foldl_nil, List.append_nil]
  | cons pair pairs ih =>
      have hinsert : (k.insert pair.1 pair.2).entries = k.entries ++ [pair] := by
        rw [entries_insert]
        refine upsert_of_not_mem fun hmem => ?_
        rw [List.map_append, List.nodup_append] at h
        exact h.2.2 _ hmem _ List.mem_cons_self rfl
      rw [List.foldl_cons, ih _ (by rwa [hinsert, List.append_assoc]), hinsert, List.append_assoc]
      rfl

/-- A keyed list is made of its entries. -/
theorem ofList_entries (k : Keyed α) : ofList k.entries = k :=
  Keyed.ext (entries_foldl_insert empty k.entries k.nodup)

/-! ## What is stored under a key -/

theorem lookup_eq_some_iff {key : String} {value : α} {entries : List (String × α)}
    (hnodup : (entries.map Prod.fst).Nodup) :
    entries.lookup key = some value ↔ (key, value) ∈ entries := by
  induction entries with
  | nil => simp
  | cons entry entries ih =>
      obtain ⟨first, stored⟩ := entry
      obtain ⟨hnew, hnodup⟩ := List.nodup_cons.1 hnodup
      rw [lookup_cons, List.mem_cons, Prod.mk.injEq]
      by_cases hkey : key = first
      · -- The key comes first and once, so no other entry has it.
        subst hkey
        have hother : (key, value) ∉ entries := fun hmem => hnew (List.mem_map.2 ⟨_, hmem, rfl⟩)
        simp [hother, eq_comm]
      · simp [hkey, ih hnodup]

/-- What is under a key is what its entry holds. -/
theorem get?_eq_some_iff {k : Keyed α} {key : String} {value : α} :
    k.get? key = some value ↔ (key, value) ∈ k.entries :=
  lookup_eq_some_iff k.nodup

/-- Nothing is under a key that is none of the keys. -/
theorem get?_eq_none_iff {k : Keyed α} {key : String} : k.get? key = none ↔ key ∉ k.keys := by
  rw [Option.eq_none_iff_forall_ne_some, keys, List.mem_map]
  constructor
  · rintro hnone ⟨entry, hentry, rfl⟩
    exact hnone entry.2 (get?_eq_some_iff.2 hentry)
  · intro hkey value hvalue
    exact hkey ⟨(key, value), get?_eq_some_iff.1 hvalue, rfl⟩

/-- There is one entry under each key. -/
theorem eq_of_mem_entries {k : Keyed α} {key : String} {value value' : α}
    (h : (key, value) ∈ k.entries) (h' : (key, value') ∈ k.entries) : value = value' := by
  have hboth := (get?_eq_some_iff.2 h).symm.trans (get?_eq_some_iff.2 h')
  exact Option.some.inj hboth

/-- What is made of each value is found under the keys of the values. -/
theorem lookup_map {β : Type} (f : α → β) (key : String) (pairs : List (String × α)) :
    (pairs.map fun pair => (pair.1, f pair.2)).lookup key = (pairs.lookup key).map f := by
  induction pairs with
  | nil => rfl
  | cons pair pairs ih =>
      rw [List.map_cons, lookup_cons, lookup_cons, ih]
      split <;> rfl

/-! ## What tells keyed lists apart -/

theorem lookup_eq_none_of_not_mem {key : String} {entries : List (String × α)}
    (h : key ∉ entries.map Prod.fst) : entries.lookup key = none := by
  refine List.lookup_eq_none_iff.2 fun entry hentry => ?_
  have hne : key ≠ entry.1 := fun heq => h (heq ▸ List.mem_map_of_mem hentry)
  simpa using hne

/-- Entries with the same keys in the same order and the same values under them are the same. -/
theorem entries_eq_of_lookup {entries others : List (String × α)}
    (hnodup : (entries.map Prod.fst).Nodup) (hkeys : entries.map Prod.fst = others.map Prod.fst)
    (hlookup : ∀ key, entries.lookup key = others.lookup key) : entries = others := by
  induction entries generalizing others with
  | nil => exact (List.map_eq_nil_iff.1 hkeys.symm).symm
  | cons entry entries ih =>
      obtain ⟨key, value⟩ := entry
      obtain ⟨⟨key', value'⟩, others, rfl, rfl, hrest⟩ := List.map_eq_cons_iff.1 hkeys.symm
      obtain ⟨hnew, hnodup⟩ := List.nodup_cons.1 hnodup
      have hvalue : value = value' := by
        have hfirst := hlookup key'
        rw [lookup_cons, lookup_cons, if_pos rfl, if_pos rfl] at hfirst
        exact Option.some.inj hfirst
      have htail : ∀ other, entries.lookup other = others.lookup other := by
        intro other
        by_cases hother : other = key'
        · subst hother
          rw [lookup_eq_none_of_not_mem hnew, lookup_eq_none_of_not_mem (by rwa [hrest])]
        · have hboth := hlookup other
          rwa [lookup_cons, lookup_cons, if_neg hother, if_neg hother] at hboth
      rw [hvalue, ih hnodup hrest.symm htail]

/-- Keyed lists are told apart by the order of their keys and by what is under each. -/
theorem ext_get? {a b : Keyed α} (hkeys : a.keys = b.keys) (hget : ∀ key, a.get? key = b.get? key) :
    a = b :=
  Keyed.ext (entries_eq_of_lookup a.nodup hkeys hget)

/-- Pairs are filled in: every key comes in the place of its first pair, with the value of its last
one. -/
structure FilledFrom (pairs : List (String × α)) (k : Keyed α) : Prop where
  keys_eq : k.keys = (pairs.map Prod.fst).eraseDups
  get?_eq : ∀ key, k.get? key = pairs.reverse.lookup key

/-- A keyed list is filled from pairs in one way. -/
theorem filledFrom_iff {pairs : List (String × α)} {k : Keyed α} :
    FilledFrom pairs k ↔ k = ofList pairs := by
  constructor
  · intro h
    refine ext_get? (h.keys_eq.trans (keys_ofList pairs).symm) fun key => ?_
    rw [h.get?_eq, get?_ofList]
  · rintro rfl
    exact ⟨keys_ofList pairs, get?_ofList pairs⟩

end TypedSql.Keyed

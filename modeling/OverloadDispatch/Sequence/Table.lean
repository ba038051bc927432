/-!
# Tables

A table holds values under distinct keys, in the order in which the keys first came in. Storing a
value under a key that is there replaces the value and keeps its place.
-/

namespace OverloadDispatch

/-- Keys and their values, in the order of the keys' arrival. -/
abbrev Table (α : Type) := List (String × α)

namespace Table

variable {α : Type}

/-- The value under a key. -/
def find? (table : Table α) (key : String) : Option α := List.lookup key table

/-- Store a value under a key. -/
def insert (table : Table α) (key : String) (value : α) : Table α :=
  match table with
  | [] => [(key, value)]
  | (k, v) :: rest => if k = key then (k, value) :: rest else (k, v) :: Table.insert rest key value

/-- Store the rows in order; of several rows with one key the last value stays. -/
def insertAll (table : Table α) (rows : List (String × α)) : Table α :=
  rows.foldl (fun t row => t.insert row.1 row.2) table

/-- The keys in order. -/
def keys (table : Table α) : List String := table.map Prod.fst

/-- The part of a table that lies under the given keys, in their order. -/
def select (table : Table α) (ks : List String) : Table α :=
  insertAll [] (ks.filterMap fun k => (table.find? k).map fun v => (k, v))

/-- Change the value under a key, where there is one and the change is not refused. -/
def update (table : Table α) (key : String) (change : α → Option α) : Table α :=
  match (table.find? key).bind change with
  | some value => table.insert key value
  | none => table

/-- Store a changed copy of what lies under each of the keys, under the key with a leading text. -/
def copy (table : Table α) (ks : List String) (leading : String) (change : α → α) : Table α :=
  table.insertAll ((table.select ks).map fun row => (leading ++ row.1, change row.2))

@[simp] theorem keys_cons (row : String × α) (rest : Table α) :
    keys (row :: rest) = row.1 :: keys rest := rfl

/-- A new key comes behind the others, and a key that is there keeps its place. -/
theorem keys_insert (table : Table α) (key : String) (value : α) :
    (table.insert key value).keys =
      if key ∈ table.keys then table.keys else table.keys ++ [key] := by
  induction table with
  | nil => simp [insert, keys]
  | cons row rest ih =>
    obtain ⟨k, v⟩ := row
    by_cases hk : k = key
    · simp [insert, hk]
    · have hne : ¬key = k := fun e => hk e.symm
      by_cases h : key ∈ keys rest <;> simp [insert, hk, hne, h, ih]

/-- A value under a new key comes behind what is stored. -/
theorem insert_of_notMem {table : Table α} {key : String} (h : key ∉ table.keys) (value : α) :
    table.insert key value = table ++ [(key, value)] := by
  induction table with
  | nil => rfl
  | cons row rest ih =>
    rw [keys_cons, List.mem_cons, not_or] at h
    rw [insert, if_neg (Ne.symm h.1), ih h.2]
    rfl

/-- Rows under new and distinct keys are stored as they are. -/
theorem insertAll_of_nodup {table rows : Table α} (h : (keys (table ++ rows)).Nodup) :
    table.insertAll rows = table ++ rows := by
  induction rows generalizing table with
  | nil => exact (List.append_nil table).symm
  | cons row rest ih =>
    have hstep : table.insertAll (row :: rest) = (table.insert row.1 row.2).insertAll rest := rfl
    have hnew : row.1 ∉ table.keys := by
      intro hmem
      rw [keys, List.map_append] at h
      exact (List.nodup_append.mp h).2.2 row.1 hmem row.1 List.mem_cons_self rfl
    have hrows : table ++ row :: rest = table ++ [row] ++ rest := by simp
    rw [hstep, insert_of_notMem hnew, ih (hrows ▸ h), hrows]

@[simp] theorem find?_nil (key : String) : find? ([] : Table α) key = none := rfl

theorem find?_cons (row : String × α) (rest : Table α) (key : String) :
    find? (row :: rest) key = if key = row.1 then some row.2 else rest.find? key := by
  obtain ⟨k, v⟩ := row
  rw [find?, List.lookup_cons]
  by_cases h : key = k
  · simp only [h, beq_self_eq_true, if_true]
  · have hb : (key == k) = false := beq_eq_false_iff_ne.mpr h
    rw [hb, if_neg h]
    rfl

/-- What was stored is found, and nothing else changes. -/
theorem find?_insert (table : Table α) (key other : String) (value : α) :
    (table.insert key value).find? other =
      if other = key then some value else table.find? other := by
  induction table with
  | nil => exact find?_cons (key, value) [] other
  | cons row rest ih =>
    obtain ⟨k, v⟩ := row
    rw [insert]
    by_cases hk : k = key
    · subst hk
      rw [if_pos rfl, find?_cons, find?_cons]
      by_cases h : other = k
      · rw [if_pos h, if_pos h]
      · rw [if_neg h, if_neg h, if_neg h]
    · rw [if_neg hk, find?_cons, find?_cons, ih]
      by_cases h : other = k
      · have hne : other ≠ key := fun e => hk (h.symm.trans e)
        rw [if_pos h, if_neg hne, if_pos h]
      · rw [if_neg h, if_neg h]

theorem find?_append (first second : Table α) (key : String) :
    find? (first ++ second) key = (first.find? key).or (second.find? key) := List.lookup_append

/-- A value is found under the keys of a table and under no others. -/
theorem isSome_find?_iff {table : Table α} {key : String} :
    (table.find? key).isSome ↔ key ∈ table.keys := by
  rw [find?, List.lookup_isSome_iff, keys, List.mem_map]
  exact exists_congr fun row => and_congr_right fun _ => beq_iff_eq.trans eq_comm

theorem find?_eq_none_iff {table : Table α} {key : String} :
    table.find? key = none ↔ key ∉ table.keys := by
  rw [← isSome_find?_iff, Bool.not_eq_true, Option.isSome_eq_false_iff, Option.isNone_iff_eq_none]

/-- Of several stored rows with one key the last is found, and else what was there before. -/
theorem find?_insertAll (table : Table α) (rows : List (String × α)) (key : String) :
    (table.insertAll rows).find? key = (find? rows.reverse key).or (table.find? key) := by
  induction rows generalizing table with
  | nil => rfl
  | cons row rest ih =>
    have hstep : table.insertAll (row :: rest) = (table.insert row.1 row.2).insertAll rest := rfl
    rw [hstep, ih, find?_insert, List.reverse_cons, find?_append, find?_cons]
    by_cases h : key = row.1 <;> cases Table.find? rest.reverse key <;> simp [h]

theorem find?_reverse {rows : Table α} (h : rows.keys.Nodup) (key : String) :
    find? rows.reverse key = rows.find? key := by
  induction rows with
  | nil => rfl
  | cons row rest ih =>
    rw [keys_cons, List.nodup_cons] at h
    rw [List.reverse_cons, find?_append, ih h.2, find?_cons, find?_cons]
    by_cases hk : key = row.1
    · have hnone : Table.find? rest key = none := find?_eq_none_iff.mpr (hk ▸ h.1)
      rw [if_pos hk, if_pos hk, hnone, Option.none_or]
    · rw [if_neg hk, if_neg hk, find?_nil, Option.or_none]

/-- Stored rows with distinct keys are found before what was there. -/
theorem find?_insertAll_of_nodup {rows : Table α} (h : rows.keys.Nodup) (table : Table α)
    (key : String) :
    (table.insertAll rows).find? key = (rows.find? key).or (table.find? key) := by
  rw [find?_insertAll, find?_reverse h]

/-- A changed value is found under its key, and nothing else changes. -/
theorem find?_update (table : Table α) (key other : String) (change : α → Option α) :
    (table.update key change).find? other =
      if other = key then ((table.find? key).bind change).or (table.find? key)
      else table.find? other := by
  rw [update]
  cases h : (table.find? key).bind change with
  | none =>
    by_cases hk : other = key
    · rw [if_pos hk, Option.none_or, hk]
    · rw [if_neg hk]
  | some value => rw [Option.some_or, find?_insert]

/-- Storing rows in a table of distinct keys leaves its keys distinct. -/
theorem nodup_keys_insertAll {table : Table α} (h : table.keys.Nodup)
    (rows : List (String × α)) : (table.insertAll rows).keys.Nodup := by
  induction rows generalizing table with
  | nil => exact h
  | cons row rest ih =>
    refine ih ?_
    rw [keys_insert]
    by_cases hk : row.1 ∈ table.keys
    · rwa [if_pos hk]
    · rw [if_neg hk]
      exact List.nodup_append.mpr ⟨h, List.pairwise_singleton _ _, fun a ha b hb e =>
        hk (List.mem_singleton.mp hb ▸ e ▸ ha)⟩

/-- Rows that are all taken from a table are found as in the table. -/
theorem find?_of_forall_find? {table rows : Table α}
    (h : ∀ row ∈ rows, table.find? row.1 = some row.2) (key : String) :
    rows.find? key = if key ∈ rows.keys then table.find? key else none := by
  induction rows with
  | nil => rfl
  | cons row rest ih =>
    rw [List.forall_mem_cons] at h
    rw [find?_cons, keys_cons]
    by_cases hk : key = row.1
    · rw [if_pos hk, if_pos (hk ▸ List.mem_cons_self), hk, h.1]
    · simp only [List.mem_cons, hk, if_false, false_or]
      exact ih h.2

/-- A part of a table holds what the table holds under the keys of the part. -/
theorem find?_select (table : Table α) (ks : List String) (key : String) :
    (table.select ks).find? key = if key ∈ ks then table.find? key else none := by
  have hrows : ∀ row ∈ (ks.filterMap fun k => (table.find? k).map fun v => (k, v)).reverse,
      table.find? row.1 = some row.2 := by
    intro row hrow
    obtain ⟨k, -, hk⟩ := List.mem_filterMap.mp (List.mem_reverse.mp hrow)
    obtain ⟨v, hv, rfl⟩ := Option.map_eq_some_iff.mp hk
    exact hv
  rw [select, find?_insertAll, find?_nil, Option.or_none, find?_of_forall_find? hrows]
  by_cases hk : key ∈ ks
  · rw [if_pos hk]
    cases hv : table.find? key with
    | none => exact ite_self none
    | some v =>
      refine if_pos (List.mem_map.mpr ⟨(key, v), List.mem_reverse.mpr ?_, rfl⟩)
      exact List.mem_filterMap.mpr ⟨key, hk, by rw [hv]; rfl⟩
  · rw [if_neg hk]
    refine if_neg fun hmem => hk ?_
    obtain ⟨row, hrow, rfl⟩ := List.mem_map.mp hmem
    obtain ⟨k, hin, hrow⟩ := List.mem_filterMap.mp (List.mem_reverse.mp hrow)
    obtain ⟨v, -, rfl⟩ := Option.map_eq_some_iff.mp hrow
    exact hin

theorem find?_map_leading (rows : Table α) (leading key : String) (change : α → α) :
    find? (rows.map fun row => (leading ++ row.1, change row.2)) (leading ++ key) =
      (rows.find? key).map change := by
  induction rows with
  | nil => rfl
  | cons row rest ih =>
    rw [List.map_cons, find?_cons, find?_cons, ih]
    simp only [String.append_right_inj]
    by_cases hk : key = row.1
    · rw [if_pos hk, if_pos hk, Option.map_some]
    · rw [if_neg hk, if_neg hk]

theorem nodup_keys_copies (table : Table α) (ks : List String) (leading : String)
    (change : α → α) :
    (keys ((table.select ks).map fun row => (leading ++ row.1, change row.2))).Nodup := by
  have hnil : (keys ([] : Table α)).Nodup := List.nodup_nil
  have h : (table.select ks).keys.Nodup := nodup_keys_insertAll hnil _
  rw [keys, List.map_map]
  rw [keys] at h
  exact List.pairwise_map.mpr ((List.pairwise_map.mp h).imp fun hne he =>
    hne ((String.append_right_inj leading).mp he))

/-- A changed copy is found under the new key of its source, if there is a source. -/
theorem find?_copy_of_mem {table : Table α} {ks : List String} {key : String} (hk : key ∈ ks)
    (leading : String) (change : α → α) :
    (table.copy ks leading change).find? (leading ++ key) =
      ((table.find? key).map change).or (table.find? (leading ++ key)) := by
  rw [copy, find?_insertAll_of_nodup (nodup_keys_copies table ks leading change),
    find?_map_leading, find?_select, if_pos hk]

/-- Under a key that no copy takes the table is as it was, the sources included. -/
theorem find?_copy_of_not_mem {table : Table α} {ks : List String} {leading other : String}
    (h : other ∉ ks.map (leading ++ ·)) (change : α → α) :
    (table.copy ks leading change).find? other = table.find? other := by
  have hnone : find? ((table.select ks).map fun row => (leading ++ row.1, change row.2)) other =
      none := by
    refine find?_eq_none_iff.mpr fun hmem => h ?_
    obtain ⟨row, hrow, rfl⟩ := List.mem_map.mp hmem
    obtain ⟨source, hsource, rfl⟩ := List.mem_map.mp hrow
    have hfound : ((table.select ks).find? source.1).isSome :=
      isSome_find?_iff.mpr (List.mem_map.mpr ⟨source, hsource, rfl⟩)
    rw [find?_select] at hfound
    by_cases hk : source.1 ∈ ks
    · exact List.mem_map.mpr ⟨source.1, hk, rfl⟩
    · rw [if_neg hk] at hfound
      exact absurd hfound Bool.false_ne_true
  rw [copy, find?_insertAll_of_nodup (nodup_keys_copies table ks leading change), hnone,
    Option.none_or]

end Table

end OverloadDispatch

/-!
# Entries: maps that keep an order

Descriptions and payloads are maps whose order can be seen: properties are checked in the order
they are written, form fields are sent in it. An `Entries` is a list of named values. `put`
replaces a value where its name stands and appends a new name; `insertSorted` keeps the names
ascending, which is how sessions list what a caller supplied.
-/

namespace ApiContract

/-- Named values in a fixed order. -/
abbrev Entries (α : Type) := List (String × α)

namespace Entries

variable {α β : Type}

/-- The names, in order. -/
def keys (entries : Entries α) : List String := entries.map Prod.fst

/-- The values, in order. -/
def values (entries : Entries α) : List α := entries.map Prod.snd

/-- The value of the first entry of this name. -/
def get? (name : String) : Entries α → Option α
  | [] => none
  | (key, value) :: rest => if key = name then some value else get? name rest

/-- Whether an entry has this name. -/
def has (name : String) (entries : Entries α) : Bool := (get? name entries).isSome

/-- Set the value of a name: where it stands, or at the end when it is new. -/
def put (name : String) (value : α) : Entries α → Entries α
  | [] => [(name, value)]
  | (key, old) :: rest =>
    if key = name then (name, value) :: rest else (key, old) :: put name value rest

/-- The entries of a list of pairs; of two pairs of one name the later value counts, at the place
of the earlier. -/
def ofPairs (pairs : List (String × α)) : Entries α :=
  pairs.foldl (fun entries pair => put pair.1 pair.2 entries) []

/-- Set the value of a name and keep ascending names ascending. -/
def insertSorted (name : String) (value : α) : Entries α → Entries α
  | [] => [(name, value)]
  | (key, old) :: rest =>
    if key = name then (name, value) :: rest
    else if name < key then (name, value) :: (key, old) :: rest
    else (key, old) :: insertSorted name value rest

/-- Set the values of several names, one after the other, in ascending entries. -/
def extendSorted (entries : Entries α) (pairs : List (String × α)) : Entries α :=
  pairs.foldl (fun entries pair => insertSorted pair.1 pair.2 entries) entries

theorem get?_put (name other : String) (value : α) (entries : Entries α) :
    get? other (put name value entries) = if other = name then some value else get? other entries := by
  induction entries with
  | nil => grind [put, get?]
  | cons entry rest ih => grind [put, get?]

theorem get?_insertSorted (name other : String) (value : α) (entries : Entries α) :
    get? other (insertSorted name value entries) =
      if other = name then some value else get? other entries := by
  induction entries with
  | nil => grind [insertSorted, get?]
  | cons entry rest ih => grind [insertSorted, get?]

theorem get?_append (name : String) (front back : Entries α) :
    get? name (front ++ back) = (get? name front).or (get? name back) := by
  induction front with
  | nil => simp [get?]
  | cons entry rest ih =>
    obtain ⟨key, value⟩ := entry
    rw [List.cons_append, get?, get?]
    split
    · rfl
    · exact ih

theorem find?_eq_get? (name : String) (entries : Entries α) :
    (entries.find? fun entry => decide (entry.1 = name)) =
      (get? name entries).map fun value => (name, value) := by
  induction entries with
  | nil => rfl
  | cons entry rest ih =>
    obtain ⟨key, value⟩ := entry
    rw [List.find?_cons, get?]
    by_cases same : key = name
    · simp [same]
    · simp [same, ih]

theorem mem_of_get? {name : String} {value : α} {entries : Entries α}
    (h : get? name entries = some value) : (name, value) ∈ entries := by
  induction entries with
  | nil => simp [get?] at h
  | cons entry rest ih =>
    obtain ⟨key, old⟩ := entry
    rw [get?] at h
    split at h
    · next same =>
      cases h
      simp [same]
    · exact List.mem_cons_of_mem _ (ih h)

theorem get?_of_mem {name : String} {value : α} {entries : Entries α} (distinct : entries.keys.Nodup)
    (h : (name, value) ∈ entries) : get? name entries = some value := by
  induction entries with
  | nil => cases h
  | cons entry rest ih =>
    obtain ⟨key, old⟩ := entry
    obtain ⟨fresh, distinct⟩ := List.nodup_cons.mp distinct
    rw [get?]
    rcases List.mem_cons.mp h with same | h
    · cases same
      rw [if_pos rfl]
    · have other : key ≠ name := by
        rintro rfl
        exact fresh (List.mem_map.mpr ⟨_, h, rfl⟩)
      rw [if_neg other]
      exact ih distinct h

theorem get?_isSome_iff {name : String} {entries : Entries α} :
    (get? name entries).isSome = true ↔ name ∈ entries.keys := by
  induction entries with
  | nil => simp [get?, keys]
  | cons entry rest ih =>
    obtain ⟨key, old⟩ := entry
    rw [get?]
    split
    · next same => simp [keys, same]
    · next other =>
      rw [ih]
      simp [keys, Ne.symm other]

theorem mem_of_mem_put {name : String} {value : α} {entries : Entries α} {entry : String × α}
    (h : entry ∈ put name value entries) : entry = (name, value) ∨ entry ∈ entries := by
  induction entries with
  | nil => simpa [put] using h
  | cons first rest ih =>
    obtain ⟨key, old⟩ := first
    rw [put] at h
    split at h
    · rcases List.mem_cons.mp h with same | member
      · exact .inl same
      · exact .inr (List.mem_cons_of_mem _ member)
    · rcases List.mem_cons.mp h with same | member
      · exact .inr (by simp [same])
      · rcases ih member with same | member
        · exact .inl same
        · exact .inr (List.mem_cons_of_mem _ member)

theorem nodup_keys_put {name : String} {value : α} {entries : Entries α} (h : entries.keys.Nodup) :
    (put name value entries).keys.Nodup := by
  induction entries with
  | nil => simp [put, keys]
  | cons first rest ih =>
    obtain ⟨key, old⟩ := first
    obtain ⟨fresh, distinct⟩ := List.nodup_cons.mp h
    rw [put]
    split
    · next same =>
      subst same
      exact h
    · next other =>
      refine List.nodup_cons.mpr ⟨fun member => ?_, ih distinct⟩
      obtain ⟨entry, listed, same⟩ := List.mem_map.mp member
      rcases mem_of_mem_put listed with rfl | earlier
      · exact other same.symm
      · exact fresh (List.mem_map.mpr ⟨entry, earlier, same⟩)

theorem mem_of_mem_foldl_put {pairs : List (String × α)} {entries : Entries α}
    {entry : String × α}
    (h : entry ∈ pairs.foldl (fun entries pair => put pair.1 pair.2 entries) entries) :
    entry ∈ entries ∨ entry ∈ pairs := by
  induction pairs generalizing entries with
  | nil => exact .inl h
  | cons first rest ih =>
    rcases ih h with member | member
    · rcases mem_of_mem_put member with same | member
      · exact .inr (by simp [same])
      · exact .inl member
    · exact .inr (List.mem_cons_of_mem _ member)

theorem nodup_keys_foldl_put (pairs : List (String × α)) {entries : Entries α}
    (h : entries.keys.Nodup) :
    (keys (pairs.foldl (fun entries pair => put pair.1 pair.2 entries) entries)).Nodup := by
  induction pairs generalizing entries with
  | nil => exact h
  | cons pair rest ih => exact ih (nodup_keys_put h)

theorem nodup_keys_ofPairs (pairs : List (String × α)) : (ofPairs pairs).keys.Nodup :=
  nodup_keys_foldl_put pairs List.nodup_nil

theorem put_of_not_mem {name : String} (value : α) {entries : Entries α} (h : name ∉ entries.keys) :
    put name value entries = entries ++ [(name, value)] := by
  induction entries with
  | nil => rfl
  | cons first rest ih =>
    obtain ⟨key, old⟩ := first
    have other : key ≠ name := fun same => h (by simp [keys, same])
    have fresh : name ∉ keys rest := fun member => h (List.mem_cons_of_mem _ member)
    rw [put, if_neg other, ih fresh, List.cons_append]

/-- Of two values that are set for a name the second counts. -/
theorem put_put (name : String) (first second : α) (entries : Entries α) :
    put name second (put name first entries) = put name second entries := by
  induction entries with
  | nil => simp [put]
  | cons entry rest ih =>
    obtain ⟨key, old⟩ := entry
    by_cases same : key = name
    · simp [put, same]
    · simp [put, same, ih]

/-- Where no two names are the same, none that stands before an entry is that entry's. -/
theorem not_mem_keys_of_nodup {front rest : Entries α} {entry : String × α}
    (h : (front ++ entry :: rest).keys.Nodup) : entry.1 ∉ front.keys := by
  rw [keys, List.map_append, List.map_cons, List.nodup_append] at h
  exact fun member => h.2.2 _ member _ List.mem_cons_self rfl

/-- Setting the values of names that are new, each once, appends them. -/
theorem foldl_put_of_nodup {pairs entries : Entries α} (h : (entries ++ pairs).keys.Nodup) :
    pairs.foldl (fun entries pair => put pair.1 pair.2 entries) entries = entries ++ pairs := by
  induction pairs generalizing entries with
  | nil => simp
  | cons pair rest ih =>
    rw [List.foldl_cons, put_of_not_mem pair.2 (not_mem_keys_of_nodup h), ih (by simpa using h)]
    simp

/-- Pairs of which no two have the same name are entries as they are. -/
theorem ofPairs_of_nodup {pairs : Entries α} (h : pairs.keys.Nodup) : ofPairs pairs = pairs := by
  rw [ofPairs, foldl_put_of_nodup (by simpa using h), List.nil_append]

/-- The entries of a list of pairs are among the pairs. -/
theorem mem_of_mem_ofPairs {pairs : List (String × α)} {entry : String × α}
    (h : entry ∈ ofPairs pairs) : entry ∈ pairs := by
  rcases mem_of_mem_foldl_put h with member | member
  · cases member
  · exact member

end Entries

end ApiContract

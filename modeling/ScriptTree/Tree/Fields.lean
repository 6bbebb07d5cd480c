/-
  Lists of named fields: a field keeps the place where its name first stood, and the
  value that was given last.

  * `Fields.insert`: sets a field in place, or adds it at the end
    (`lookup_insert_self`, `lookup_insert_of_ne`, `keys_insert`).
  * `Fields.ofList`: the fields of a list of pairs in which names may repeat
    (`nodup_keys_ofList`).
  * `Fields.sorted`: the same fields in ascending order of their names.
-/

namespace ScriptTree

namespace Fields

variable {V : Type}

/-- The names of fields, in order. -/
def keys (fields : List (String × V)) : List String := fields.map (·.1)

/-- Sets a field: in its place if there is one of that name, and at the end otherwise. -/
def insert (fields : List (String × V)) (name : String) (value : V) : List (String × V) :=
  match fields with
  | [] => [(name, value)]
  | (key, old) :: rest =>
    if key = name then (name, value) :: rest else (key, old) :: insert rest name value

/-- The fields of a list of pairs: of two pairs with one name, the place of the first and
    the value of the last. -/
def ofList (pairs : List (String × V)) : List (String × V) :=
  pairs.foldl (fun fields pair => insert fields pair.1 pair.2) []

/-- The same fields in ascending order of their names. -/
def sorted (fields : List (String × V)) : List (String × V) :=
  fields.mergeSort fun a b => a.1 ≤ b.1

theorem lookup_insert_self (fields : List (String × V)) (name : String) (value : V) :
    (insert fields name value).lookup name = some value := by
  induction fields with
  | nil => simp [insert]
  | cons field rest ih =>
    obtain ⟨key, old⟩ := field
    by_cases h : key = name
    · simp [insert, h]
    · have : (name == key) = false := beq_eq_false_iff_ne.2 (Ne.symm h)
      simp [insert, h, List.lookup_cons, this, ih]

theorem lookup_insert_of_ne (fields : List (String × V)) {name other : String} (value : V)
    (h : other ≠ name) : (insert fields name value).lookup other = fields.lookup other := by
  induction fields with
  | nil =>
    have : (other == name) = false := by simpa using h
    simp [insert, List.lookup_cons, this]
  | cons field rest ih =>
    obtain ⟨key, old⟩ := field
    by_cases hkey : key = name
    · have : (other == name) = false := by simpa using h
      simp [insert, hkey, List.lookup_cons, this]
    · simp [insert, hkey, List.lookup_cons, ih]

theorem keys_insert (fields : List (String × V)) (name : String) (value : V) :
    keys (insert fields name value) =
      if name ∈ keys fields then keys fields else keys fields ++ [name] := by
  induction fields with
  | nil => simp [insert, keys]
  | cons field rest ih =>
    obtain ⟨key, old⟩ := field
    by_cases h : key = name
    · simp [insert, keys, h]
    · have hne : ¬ name = key := fun h' => h h'.symm
      simp only [keys] at ih
      simp only [insert, h, if_false, keys, List.map_cons, List.mem_cons, hne, false_or, ih]
      by_cases hmem : name ∈ rest.map (·.1) <;> simp only [hmem, if_true, if_false,
        List.cons_append]

theorem nodup_keys_insert {fields : List (String × V)} (h : (keys fields).Nodup)
    (name : String) (value : V) : (keys (insert fields name value)).Nodup := by
  rw [keys_insert]
  split
  · exact h
  · next hmem =>
    refine List.nodup_append.2 ⟨h, by simp, fun a ha b hb => ?_⟩
    rw [List.mem_singleton] at hb
    subst hb
    exact fun hab => hmem (hab ▸ ha)

theorem nodup_keys_ofList (pairs : List (String × V)) : (keys (ofList pairs)).Nodup := by
  have go : ∀ (pairs fields : List (String × V)), (keys fields).Nodup →
      (keys (pairs.foldl (fun fields pair => insert fields pair.1 pair.2) fields)).Nodup := by
    intro pairs
    induction pairs with
    | nil => exact fun _ h => h
    | cons pair pairs ih => exact fun fields h => ih _ (nodup_keys_insert h _ _)
  exact go pairs [] (by simp [keys])

end Fields

end ScriptTree

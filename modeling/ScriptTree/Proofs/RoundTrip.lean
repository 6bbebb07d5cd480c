/-
  Trees that are written and read again.

  JSON carries a regular expression only in the field `regex` beside it, so not every tree
  comes back from its text.

  * `Tree.Normal`: a tree whose objects name each field once, whose numbers are finite, and
    whose regular expressions are those that a field `regex` describes.
  * `normal_ofDocument`: every tree that is read is normal.
  * `ofDocument_toDocument`: the document of a normal tree stands for that tree.
  * `reading_undoes_writing`: both for texts.
-/
import ScriptTree.Proofs.DocumentText
import ScriptTree.Tree.Document

namespace ScriptTree

/-! ## Lists of fields -/

namespace Fields

variable {V : Type} {fields pairs : List (String × V)} {name : String} {value : V}
  {field : String × V}

theorem mem_insert (h : field ∈ insert fields name value) :
    field = (name, value) ∨ field ∈ fields := by
  induction fields with
  | nil => exact Or.inl (List.mem_singleton.1 h)
  | cons first rest ih =>
    unfold insert at h
    split at h
    · exact (List.mem_cons.1 h).imp_right (List.mem_cons_of_mem _)
    · rcases List.mem_cons.1 h with rfl | h
      · exact Or.inr List.mem_cons_self
      · exact (ih h).imp_right (List.mem_cons_of_mem _)

theorem insert_of_not_mem (h : name ∉ keys fields) :
    insert fields name value = fields ++ [(name, value)] := by
  induction fields with
  | nil => rfl
  | cons first rest ih =>
    obtain ⟨hfirst, hrest⟩ := List.ne_and_not_mem_of_not_mem_cons h
    rw [insert, if_neg hfirst.symm, ih hrest, List.cons_append]

theorem insert_append {before after : List (String × V)} {old : V} (h : name ∉ keys before) :
    insert (before ++ (name, old) :: after) name value = before ++ (name, value) :: after := by
  induction before with
  | nil => simp [insert]
  | cons first rest ih =>
    obtain ⟨hfirst, hrest⟩ := List.ne_and_not_mem_of_not_mem_cons h
    rw [List.cons_append, insert, if_neg hfirst.symm, ih hrest, List.cons_append]

theorem mem_ofList (h : field ∈ ofList pairs) : field ∈ pairs := by
  have hfold : ∀ fields : List (String × V),
      field ∈ pairs.foldl (fun fields pair => insert fields pair.1 pair.2) fields →
        field ∈ pairs ∨ field ∈ fields := by
    clear h
    induction pairs with
    | nil => exact fun _ h => Or.inr h
    | cons pair pairs ih =>
      intro fields h
      rcases ih _ h with h | h
      · exact Or.inl (List.mem_cons_of_mem _ h)
      · exact (mem_insert h).imp_left fun heq => List.mem_cons.2 (Or.inl heq)
  exact (hfold [] h).resolve_right List.not_mem_nil

/-- Pairs with different names are fields as they stand. -/
theorem ofList_of_nodup (h : (keys pairs).Nodup) : ofList pairs = pairs := by
  have hfold : ∀ fields : List (String × V), (keys (fields ++ pairs)).Nodup →
      pairs.foldl (fun fields pair => insert fields pair.1 pair.2) fields = fields ++ pairs := by
    clear h
    induction pairs with
    | nil => simp
    | cons pair pairs ih =>
      intro fields h
      have hnew : pair.1 ∉ keys fields := by
        rw [keys, List.map_append, List.nodup_append] at h
        exact fun hmem => h.2.2 _ hmem _ List.mem_cons_self rfl
      rw [List.append_cons] at h
      rw [List.foldl_cons, insert_of_not_mem hnew, ih _ h, List.append_assoc]
      rfl
  exact hfold [] h

theorem map_eq_self {g : String × V → String × V}
    (hg : ∀ field ∈ fields, field.1 ≠ name → g field = field) (h : name ∉ keys fields) :
    fields.map g = fields := by
  have hsame : ∀ field ∈ fields, g field = id field := fun field hfield =>
    hg field hfield fun heq => h (heq ▸ List.mem_map_of_mem hfield)
  rw [List.map_congr_left hsame, List.map_id]

theorem lookup_map {g : String × V → String × V} (hname : ∀ field, (g field).1 = field.1)
    (hg : ∀ field ∈ fields, field.1 = name → g field = field) :
    (fields.map g).lookup name = fields.lookup name := by
  induction fields with
  | nil => rfl
  | cons field rest ih =>
    obtain ⟨hfirst, hrest⟩ := List.forall_mem_cons.1 hg
    have hfield : g field = (field.1, (g field).2) := Prod.ext (hname field) rfl
    rw [List.map_cons, hfield, List.lookup_cons, List.lookup_cons, ih hrest]
    split
    · next heq => rw [hfirst (eq_of_beq heq).symm]
    · rfl

/-- Fields of which one may have been changed are restored by setting that one again. -/
theorem insert_map {g : String × V → String × V} (hkeys : (keys fields).Nodup)
    (hlookup : fields.lookup name = some value) (hname : ∀ field, (g field).1 = field.1)
    (hg : ∀ field ∈ fields, field.1 ≠ name → g field = field) :
    insert (fields.map g) name value = fields := by
  obtain ⟨before, after, rfl, -⟩ := List.lookup_eq_some_iff.1 hlookup
  rw [keys, List.map_append, List.map_cons, List.nodup_append, List.nodup_cons] at hkeys
  obtain ⟨-, ⟨hafter, -⟩, hapart⟩ := hkeys
  have hbefore : name ∉ keys before := fun h => hapart _ h _ List.mem_cons_self rfl
  have hvalue : g (name, value) = (name, (g (name, value)).2) := Prod.ext (hname _) rfl
  rw [List.map_append, List.map_cons, hvalue,
    map_eq_self (fun f hf => hg f (List.mem_append_left _ hf)) hbefore,
    map_eq_self (fun f hf => hg f (List.mem_append_right _ (List.mem_cons_of_mem _ hf))) hafter,
    insert_append hbefore]

end Fields

namespace Tree

variable {fields : List (String × Tree)} {pattern flags : String} {t value : Tree}

/-! ## Regular expressions -/

/-- A field `regex` describes a regular expression: it is an object with a string as
    `pattern` and one as `flags`. -/
def DescribesRegExp (fields : List (String × Tree)) (pattern flags : String) : Prop :=
  ∃ regex, fields.lookup "regex" = some (.object regex) ∧
    regex.lookup "pattern" = some (.string pattern) ∧
    regex.lookup "flags" = some (.string flags)

/-- A field is the `value` that a field `regex` beside it describes. -/
def IsDescribed (fields : List (String × Tree)) (field : String × Tree) : Prop :=
  ∃ pattern flags, field = ("value", .regExp pattern flags) ∧
    DescribesRegExp fields pattern flags

theorem string?_eq_some_iff {s : String} : t.string? = some s ↔ t = .string s := by
  cases t <;> simp [string?]

theorem regExp?_eq_some_iff :
    regExp? fields = some value ↔
      ∃ pattern flags, value = .regExp pattern flags ∧ DescribesRegExp fields pattern flags := by
  simp only [regExp?, Option.bind_eq_bind, Option.bind_eq_some_iff, string?_eq_some_iff]
  constructor
  · rintro ⟨regex, hregex, pattern, ⟨_, hpattern, rfl⟩, flags, ⟨_, hflags, rfl⟩, hvalue⟩
    cases regex with
    | object fields =>
      exact ⟨pattern, flags, (Option.some.inj hvalue).symm, fields, hregex, hpattern, hflags⟩
    | _ => cases hpattern
  · rintro ⟨pattern, flags, rfl, regex, hregex, hpattern, hflags⟩
    exact ⟨_, hregex, pattern, ⟨_, hpattern, rfl⟩, flags, ⟨_, hflags, rfl⟩, rfl⟩

theorem regExp?_of_describes (h : DescribesRegExp fields pattern flags) :
    regExp? fields = some (.regExp pattern flags) :=
  regExp?_eq_some_iff.2 ⟨pattern, flags, rfl, h⟩

/-! ## Normal trees -/

/-- A tree that JSON can carry: the numbers are finite, an object names no field twice, and
    an object with a field `regex` that describes a regular expression has it as its `value`.
    There is no regular expression elsewhere. -/
inductive Normal : Tree → Prop
  | null : Normal .null
  | bool {b} : Normal (.bool b)
  | number {x} : x.isFinite = true → Normal (.number x)
  | string {s} : Normal (.string s)
  | array {elements} : (∀ e ∈ elements, Normal e) → Normal (.array elements)
  | object {fields : List (String × Tree)} : (Fields.keys fields).Nodup →
      (∀ pattern flags, DescribesRegExp fields pattern flags →
        fields.lookup "value" = some (.regExp pattern flags)) →
      (∀ field ∈ fields, ¬ IsDescribed fields field → Normal field.2) → Normal (.object fields)

/-! ### What is read -/

theorem ofElements_eq_map (order : FieldOrder) (elements : List Document) :
    ofElements order elements = elements.map (ofDocument order) := by
  induction elements with
  | nil => rfl
  | cons element elements ih => rw [ofElements, ih, List.map_cons]

theorem ofMembers_eq_map (order : FieldOrder) (members : List (String × Document)) :
    ofMembers order members = members.map fun m => (m.1, ofDocument order m.2) := by
  induction members with
  | nil => rfl
  | cons member members ih => rw [ofMembers, ih, List.map_cons]

/-- An object whose fields are normal is normal once its regular expression is restored. -/
theorem normal_ofFields (hkeys : (Fields.keys fields).Nodup)
    (hfields : ∀ field ∈ fields, Normal field.2) : (ofFields fields).Normal := by
  unfold ofFields withRegExp
  cases hregExp : regExp? fields with
  | none =>
    refine .object hkeys (fun pattern flags h => ?_) fun field hfield _ => hfields field hfield
    cases hregExp.symm.trans (regExp?_of_describes h)
  | some value =>
    have hvalue := (regExp?_insert_value fields value).trans hregExp
    refine .object (Fields.nodup_keys_insert hkeys _ _) (fun pattern flags h => ?_)
      fun field hfield hother => ?_
    · rw [Fields.lookup_insert_self, ← hvalue, regExp?_of_describes h]
    · rcases Fields.mem_insert hfield with rfl | hfield
      · obtain ⟨pattern, flags, rfl, h⟩ := regExp?_eq_some_iff.1 hvalue
        exact absurd ⟨pattern, flags, rfl, h⟩ hother
      · exact hfields field hfield

/-- The tree of a document without infinite numbers is normal. -/
theorem normal_ofDocument {d : Document} (h : d.Finite) : (ofDocument .text d).Normal := by
  induction h with
  | null => exact .null
  | bool => exact .bool
  | number hx => exact .number hx
  | string => exact .string
  | array _ ih =>
    rw [ofDocument, ofElements_eq_map]
    exact .array (List.forall_mem_map.2 ih)
  | object _ ih =>
    rw [ofDocument, ofMembers_eq_map]
    refine normal_ofFields (Fields.nodup_keys_ofList _) fun field hfield => ?_
    obtain ⟨member, hmember, rfl⟩ := List.mem_map.1 (Fields.mem_ofList hfield)
    exact ih member hmember

/-! ### What is written -/

theorem toElements_eq_map (elements : List Tree) :
    toElements elements = elements.map toDocument := by
  induction elements with
  | nil => rfl
  | cons element elements ih => rw [toElements, ih, List.map_cons]

theorem toMembers_eq_map (fields : List (String × Tree)) :
    toMembers fields = fields.map fun f => (f.1, f.2.toDocument) := by
  induction fields with
  | nil => rfl
  | cons field fields ih => rw [toMembers, ih, List.map_cons]

/-- The document of a normal tree has no infinite numbers. -/
theorem finite_toDocument (h : t.Normal) : t.toDocument.Finite := by
  induction h with
  | null => exact .null
  | bool => exact .bool
  | number hx => exact .number hx
  | string => exact .string
  | array _ ih =>
    rw [toDocument, toElements_eq_map]
    exact .array (List.forall_mem_map.2 ih)
  | @object fields _ _ _ ih =>
    rw [toDocument, toMembers_eq_map]
    refine .object (List.forall_mem_map.2 fun field hfield => ?_)
    by_cases hdescribed : IsDescribed fields field
    · obtain ⟨pattern, flags, rfl, -⟩ := hdescribed
      exact .null
    · exact ih field hfield hdescribed

/-- Restoring the regular expression of an object undoes what the document leaves out. -/
theorem withRegExp_map {g : String × Tree → String × Tree}
    (hkeys : (Fields.keys fields).Nodup)
    (hvalue : ∀ pattern flags, DescribesRegExp fields pattern flags →
      fields.lookup "value" = some (.regExp pattern flags))
    (hname : ∀ field, (g field).1 = field.1)
    (hg : ∀ field ∈ fields, ¬ IsDescribed fields field → g field = field) :
    withRegExp (fields.map g) = fields := by
  have hother : ∀ field ∈ fields, field.1 ≠ "value" → g field = field := by
    rintro field hfield hne
    refine hg field hfield ?_
    rintro ⟨_, _, rfl, -⟩
    exact hne rfl
  have hregExp : regExp? (fields.map g) = regExp? fields := by
    rw [regExp?, regExp?, Fields.lookup_map hname fun field hfield hregex => ?_]
    exact hother field hfield (by simp [hregex])
  unfold withRegExp
  rw [hregExp]
  cases hdescribed : regExp? fields with
  | none =>
    have hsame : ∀ field ∈ fields, g field = id field := by
      intro field hfield
      refine hg field hfield ?_
      rintro ⟨pattern, flags, -, h⟩
      cases hdescribed.symm.trans (regExp?_of_describes h)
    rw [List.map_congr_left hsame, List.map_id]
  | some value =>
    obtain ⟨pattern, flags, rfl, h⟩ := regExp?_eq_some_iff.1 hdescribed
    exact Fields.insert_map hkeys (hvalue _ _ h) hname hother

/-- The document of a normal tree stands for that tree. -/
theorem ofDocument_toDocument (h : t.Normal) : ofDocument .text t.toDocument = t := by
  induction h with
  | null | bool | number | string => rfl
  | @array elements _ ih =>
    have hsame : ∀ e ∈ elements, (ofDocument .text ∘ toDocument) e = id e := ih
    rw [toDocument, ofDocument, toElements_eq_map, ofElements_eq_map, List.map_map,
      List.map_congr_left hsame, List.map_id]
  | @object fields hkeys hvalue _ ih =>
    let g := fun field : String × Tree => (field.1, ofDocument .text field.2.toDocument)
    have hfields : ofMembers .text (toMembers fields) = fields.map g := by
      rw [toMembers_eq_map, ofMembers_eq_map, List.map_map]
      rfl
    have hnames : (Fields.keys (fields.map g)).Nodup := by
      rwa [Fields.keys, List.map_map]
    rw [toDocument, ofDocument, hfields, Fields.ofList_of_nodup hnames]
    refine congrArg object (withRegExp_map hkeys hvalue (fun _ => rfl) fun field hfield h => ?_)
    exact Prod.ext rfl (ih field hfield h)

end Tree

/-- **Reading undoes writing.**  What is read from a text is normal, and a tree that is normal
    is read from the text that it is written as, with its fields in order. -/
theorem reading_undoes_writing :
    (∀ text t, Tree.read? text = some t → t.Normal) ∧
    (∀ t : Tree, t.Normal → Tree.read? t.render = some t) := by
  constructor
  · intro text t h
    obtain ⟨d, hd, rfl⟩ := Option.map_eq_some_iff.1 h
    exact Tree.normal_ofDocument (Document.finite_of_read? hd)
  · intro t h
    rw [Tree.read?, Tree.render, Document.read?_render (Tree.finite_toDocument h), Option.map_some,
      Tree.ofDocument_toDocument h]

/-- A regular expression whose field `regex` holds another one, beside minus zero. -/
def Tree.nestedRegExp : Tree :=
  .object [("value", .regExp "a" "g"),
    ("regex", .object [("regex", .object [("flags", .string ""), ("pattern", .string "b")]),
      ("pattern", .string "a"), ("flags", .string "g"), ("value", .regExp "b" "")]),
    ("rest", .array [.number .negZero, .null])]

/-- The tree is normal, and comes back from its text. -/
theorem nestedRegExp_comesBack : ∃ text,
    text = Tree.nestedRegExp.render ∧ Tree.read? text = some .nestedRegExp ∧
      Tree.nestedRegExp.Normal := by
  let described : Tree := .object [("flags", .string ""), ("pattern", .string "b")]
  have hdescribed : described.Normal := by
    show (Tree.ofFields [("flags", .string ""), ("pattern", .string "b")]).Normal
    exact Tree.normal_ofFields (by decide) (by simp [Tree.Normal.string])
  have hregex : (Tree.ofFields [("regex", described), ("pattern", .string "a"),
      ("flags", .string "g")]).Normal :=
    Tree.normal_ofFields (by simp [Fields.keys]) (by simp [Tree.Normal.string, hdescribed])
  have hrest : (Tree.array [.number .negZero, .null]).Normal := by
    refine .array (List.forall_mem_cons.2 ⟨.number (by decide), ?_⟩)
    simp [Tree.Normal.null]
  have hnormal : Tree.nestedRegExp.Normal := by
    show (Tree.ofFields [("value", .null), ("regex", Tree.ofFields [("regex", described),
      ("pattern", .string "a"), ("flags", .string "g")]),
      ("rest", .array [.number .negZero, .null])]).Normal
    exact Tree.normal_ofFields (by simp [Fields.keys])
      (by simp [Tree.Normal.null, hregex, hrest])
  exact ⟨_, rfl, reading_undoes_writing.2 _ hnormal,
    reading_undoes_writing.1 _ _ (reading_undoes_writing.2 _ hnormal)⟩

end ScriptTree

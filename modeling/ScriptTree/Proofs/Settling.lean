/-
  Objects that name a field more than once.

  Where a name stands twice in an object, the text decides in two places: the first one says
  where the field stands, and the last one what it holds.  A regular expression is restored
  after that, from the `regex` that counts, and only in `value`.

  * `Fields.last?`: the value that a name is given last; `keys_ofList`, `lookup_ofList`: the
    names and the values of the fields that are made of a list of pairs.
  * `Document.StandsFor`: which tree a document stands for, without the order in which the
    fields are set; `standsFor_iff`: it is the tree that is read, and no other.
  * `withRegExp_withRegExp`: a regular expression is restored once.
  * `repeats_settled`: both for the text of an object.
-/
import Mathlib.Data.List.Induction
import ScriptTree.Proofs.FieldOrder

namespace ScriptTree

/-! ## Lists of fields -/

namespace Fields

variable {V W : Type} {fields fields' pairs : List (String × V)} {name : String} {value : V}

/-- The value that a name is given last. -/
def last? (pairs : List (String × V)) (name : String) : Option V := pairs.reverse.lookup name

theorem last?_concat (pairs : List (String × V)) (pair : String × V) (name : String) :
    last? (pairs ++ [pair]) name = if name = pair.1 then some pair.2 else last? pairs name := by
  unfold last?
  rw [List.reverse_append, List.reverse_singleton, List.singleton_append, List.lookup_cons]
  by_cases h : name = pair.1
  · simp [h]
  · rw [if_neg h, beq_false_of_ne h]

theorem last?_map (g : V → W) (pairs : List (String × V)) (name : String) :
    last? (pairs.map fun pair => (pair.1, g pair.2)) name = (last? pairs name).map g := by
  induction pairs using List.reverseRecOn with
  | nil => rfl
  | append_singleton pairs pair ih =>
    rw [List.map_append, List.map_singleton, last?_concat, last?_concat, ih]
    split <;> rfl

theorem mem_of_last? (h : last? pairs name = some value) : (name, value) ∈ pairs := by
  obtain ⟨before, after, heq, -⟩ := List.lookup_eq_some_iff.1 h
  rw [← List.mem_reverse, heq]
  exact List.mem_append_right _ List.mem_cons_self

theorem exists_last? (h : name ∈ keys pairs) : ∃ value, last? pairs name = some value := by
  refine exists_lookup ?_
  rwa [keys, List.map_reverse, List.mem_reverse]

theorem ofList_concat (pairs : List (String × V)) (pair : String × V) :
    ofList (pairs ++ [pair]) = insert (ofList pairs) pair.1 pair.2 := by
  rw [ofList, List.foldl_append]
  rfl

/-- The fields of pairs stand in the order in which their names first stand. -/
theorem keys_ofList (pairs : List (String × V)) :
    keys (ofList pairs) = (keys pairs).eraseDups := by
  induction pairs using List.reverseRecOn with
  | nil => rfl
  | append_singleton pairs pair ih =>
    have hkeys : keys (pairs ++ [pair]) = keys pairs ++ [pair.1] := List.map_append
    rw [ofList_concat, keys_insert, ih, hkeys, List.eraseDups_append]
    by_cases h : pair.1 ∈ keys pairs
    · simp [h, List.removeAll]
    · simp [h, List.removeAll, List.eraseDups_cons]

/-- The fields of pairs hold what their names are given last. -/
theorem lookup_ofList (pairs : List (String × V)) (name : String) :
    (ofList pairs).lookup name = last? pairs name := by
  induction pairs using List.reverseRecOn with
  | nil => rfl
  | append_singleton pairs pair ih =>
    rw [ofList_concat, last?_concat]
    split
    · next h => rw [h, lookup_insert_self]
    · next h => rw [lookup_insert_of_ne _ _ h, ih]

theorem insert_of_lookup (h : fields.lookup name = some value) :
    insert fields name value = fields := by
  induction fields with
  | nil => cases h
  | cons field rest ih =>
    obtain ⟨key, old⟩ := field
    rw [List.lookup_cons] at h
    rw [insert]
    by_cases hkey : key = name
    · rw [if_pos hkey]
      subst hkey
      rw [beq_self_eq_true] at h
      rw [Option.some.inj h]
    · rw [beq_false_of_ne (Ne.symm hkey)] at h
      rw [if_neg hkey, ih h]

/-- Fields that are named once are known by their names and what is found under them. -/
theorem eq_of_lookup (hnodup : (keys fields).Nodup) (hkeys : keys fields = keys fields')
    (h : ∀ name ∈ keys fields, fields.lookup name = fields'.lookup name) : fields = fields' := by
  induction fields generalizing fields' with
  | nil => exact (List.map_eq_nil_iff.1 hkeys.symm).symm
  | cons field rest ih =>
    cases fields' with
    | nil => cases hkeys
    | cons field' rest' =>
      obtain ⟨key, value⟩ := field
      obtain ⟨key', value'⟩ := field'
      obtain ⟨rfl, hrest⟩ := List.cons.inj hkeys
      obtain ⟨hfresh, hnodup⟩ := List.nodup_cons.1 hnodup
      have hvalue : value = value' := by simpa using h key List.mem_cons_self
      have hothers : rest = rest' := by
        refine ih hnodup hrest fun name hname => ?_
        have hne : (name == key) = false := beq_false_of_ne fun heq => hfresh (heq ▸ hname)
        simpa [List.lookup_cons, hne] using h name (List.mem_cons_of_mem _ hname)
      rw [hvalue, hothers]

end Fields

/-! ## Regular expressions -/

namespace Tree

variable {fields : List (String × Tree)} {name : String}

theorem lookup_withRegExp_of_ne (h : name ≠ "value") :
    (withRegExp fields).lookup name = fields.lookup name := by
  unfold withRegExp
  split
  · exact Fields.lookup_insert_of_ne _ _ h
  · rfl

theorem withRegExp_of_describes {pattern flags : String}
    (h : DescribesRegExp fields pattern flags) :
    withRegExp fields = Fields.insert fields "value" (.regExp pattern flags) := by
  rw [withRegExp, regExp?_of_describes h]

theorem withRegExp_of_not_describes
    (h : ∀ pattern flags, ¬ DescribesRegExp fields pattern flags) :
    withRegExp fields = fields := by
  unfold withRegExp
  split
  · next hregExp =>
    obtain ⟨pattern, flags, -, hdescribes⟩ := regExp?_eq_some_iff.1 hregExp
    exact absurd hdescribes (h pattern flags)
  · rfl

/-- A regular expression is restored once. -/
theorem withRegExp_withRegExp (fields : List (String × Tree)) :
    withRegExp (withRegExp fields) = withRegExp fields := by
  cases hregExp : regExp? fields with
  | none =>
    have hfields : withRegExp fields = fields := by rw [withRegExp, hregExp]
    rw [hfields, hfields]
  | some value =>
    have hfields : withRegExp fields = Fields.insert fields "value" value := by
      rw [withRegExp, hregExp]
    rw [hfields, withRegExp, regExp?_insert_value, hregExp]
    exact Fields.insert_of_lookup (Fields.lookup_insert_self _ _ _)

end Tree

/-! ## The tree of a document -/

namespace Document

/-- The members of an object describe a regular expression: the `regex` that is given last is
    an object, and the `pattern` and the `flags` that this object is given last are strings. -/
def DescribesRegExp (members : List (String × Document)) (pattern flags : String) : Prop :=
  ∃ regex, Fields.last? members "regex" = some (.object regex) ∧
    Fields.last? regex "pattern" = some (.string pattern) ∧
    Fields.last? regex "flags" = some (.string flags)

/-- A document stands for a tree.  An object has each of its names once, where it first
    stands, and the value that the name is given last.  Where the members describe a regular
    expression, that is the `value`, in the place of `value` or after all other fields. -/
inductive StandsFor : Document → Tree → Prop
  | null : StandsFor .null .null
  | bool {b} : StandsFor (.bool b) (.bool b)
  | number {x} : StandsFor (.number x) (.number x)
  | string {s} : StandsFor (.string s) (.string s)
  | array {ds : List Document} {ts : List Tree} : ds.length = ts.length →
      (∀ (i : Nat) d t, ds[i]? = some d → ts[i]? = some t → StandsFor d t) →
      StandsFor (.array ds) (.array ts)
  | object {members : List (String × Document)} {fields : List (String × Tree)} :
      (∀ pattern flags, ¬ DescribesRegExp members pattern flags) →
      Fields.keys fields = (Fields.keys members).eraseDups →
      (∀ name d t, Fields.last? members name = some d → fields.lookup name = some t →
        StandsFor d t) →
      StandsFor (.object members) (.object fields)
  | regExp {members : List (String × Document)} {fields : List (String × Tree)}
      {pattern flags : String} :
      DescribesRegExp members pattern flags →
      (Fields.keys fields = if "value" ∈ Fields.keys members then (Fields.keys members).eraseDups
        else (Fields.keys members).eraseDups ++ ["value"]) →
      fields.lookup "value" = some (.regExp pattern flags) →
      (∀ name d t, name ≠ "value" → Fields.last? members name = some d →
        fields.lookup name = some t → StandsFor d t) →
      StandsFor (.object members) (.object fields)

end Document

namespace Tree

variable {d : Document} {members : List (String × Document)} {t : Tree}
  {pattern flags : String}

theorem lookup_ofMembers (order : FieldOrder) (members : List (String × Document))
    (name : String) : (Fields.ofList (ofMembers order members)).lookup name =
      (Fields.last? members name).map (ofDocument order) := by
  rw [Fields.lookup_ofList, ofMembers_eq_map, Fields.last?_map]

theorem keys_ofMembers (order : FieldOrder) (members : List (String × Document)) :
    Fields.keys (Fields.ofList (ofMembers order members)) =
      (Fields.keys members).eraseDups := by
  rw [Fields.keys_ofList, ofMembers_eq_map, Fields.keys, List.map_map]
  rfl

theorem ofDocument_eq_string_iff {s : String} :
    ofDocument .text d = .string s ↔ d = .string s := by
  cases d <;> simp [ofDocument, ofFields]

theorem ofDocument_eq_object_iff {fields : List (String × Tree)} :
    ofDocument .text d = .object fields ↔
      ∃ members, d = .object members ∧
        fields = withRegExp (Fields.ofList (ofMembers .text members)) := by
  cases d <;> simp [ofDocument, ofFields, FieldOrder.arrange, eq_comm]

/-- The fields that are read describe a regular expression if the members do.  Neither field
    of the `regex` is its `value`, so it does not matter that it may describe one itself. -/
theorem describesRegExp_ofMembers :
    DescribesRegExp (Fields.ofList (ofMembers .text members)) pattern flags ↔
      Document.DescribesRegExp members pattern flags := by
  have hstring : ∀ {regex : List (String × Document)} {name s : String}, name ≠ "value" →
      ((withRegExp (Fields.ofList (ofMembers .text regex))).lookup name = some (.string s) ↔
        Fields.last? regex name = some (.string s)) := by
    intro regex name s hname
    rw [lookup_withRegExp_of_ne hname, lookup_ofMembers, Option.map_eq_some_iff]
    simp [ofDocument_eq_string_iff]
  constructor
  · rintro ⟨fields, hregex, hpattern, hflags⟩
    rw [lookup_ofMembers, Option.map_eq_some_iff] at hregex
    obtain ⟨d, hlast, hd⟩ := hregex
    obtain ⟨regex, rfl, rfl⟩ := ofDocument_eq_object_iff.1 hd
    exact ⟨regex, hlast, (hstring (by decide)).1 hpattern, (hstring (by decide)).1 hflags⟩
  · rintro ⟨regex, hlast, hpattern, hflags⟩
    refine ⟨_, ?_, (hstring (by decide)).2 hpattern, (hstring (by decide)).2 hflags⟩
    rw [lookup_ofMembers, hlast]
    rfl

/-- A document stands for the tree that is read from it. -/
theorem standsFor_ofDocument (d : Document) : d.StandsFor (ofDocument .text d) := by
  induction d using Document.induction with
  | null => exact .null
  | bool => exact .bool
  | number => exact .number
  | string => exact .string
  | array elements ih =>
    rw [ofDocument, ofElements_eq_map]
    refine .array (List.length_map _).symm fun i d t hd ht => ?_
    rw [List.getElem?_map, hd] at ht
    obtain rfl := Option.some.inj ht
    exact ih d (List.mem_of_getElem? hd)
  | object members ih =>
    have hvalues : ∀ name d t, Fields.last? members name = some d →
        (Fields.ofList (ofMembers .text members)).lookup name = some t → d.StandsFor t := by
      intro name d t hlast ht
      rw [lookup_ofMembers, hlast] at ht
      obtain rfl := Option.some.inj ht
      exact ih (name, d) (Fields.mem_of_last? hlast)
    show (Document.object members).StandsFor (ofFields (Fields.ofList (ofMembers .text members)))
    unfold ofFields
    by_cases h : ∃ pattern flags, Document.DescribesRegExp members pattern flags
    · obtain ⟨pattern, flags, h⟩ := h
      rw [withRegExp_of_describes (describesRegExp_ofMembers.2 h)]
      refine .regExp h ?_ (Fields.lookup_insert_self _ _ _) fun name d t hname hlast ht => ?_
      · rw [Fields.keys_insert, keys_ofMembers]
        simp only [List.mem_eraseDups]
      · rw [Fields.lookup_insert_of_ne _ _ hname] at ht
        exact hvalues name d t hlast ht
    · simp only [not_exists] at h
      rw [withRegExp_of_not_describes fun p f hpf => h p f (describesRegExp_ofMembers.1 hpf)]
      exact .object h (keys_ofMembers .text members) hvalues

/-- A document stands for no other tree than the one that is read from it. -/
theorem eq_ofDocument_of_standsFor (h : d.StandsFor t) : ofDocument .text d = t := by
  induction h with
  | null => rfl
  | bool => rfl
  | number => rfl
  | string => rfl
  | @array ds ts hlength _ ih =>
    rw [ofDocument, ofElements_eq_map]
    congr 1
    refine List.ext_getElem ((List.length_map _).trans hlength) fun i hi hi' => ?_
    rw [List.getElem_map]
    exact ih i _ _ (List.getElem?_eq_getElem _) (List.getElem?_eq_getElem _)
  | @object members fields hnone hkeys _ ih =>
    have hread := withRegExp_of_not_describes fun p f hpf =>
      hnone p f (describesRegExp_ofMembers.1 hpf)
    show ofFields (Fields.ofList (ofMembers .text members)) = _
    rw [ofFields, hread]
    congr 1
    refine Fields.eq_of_lookup (Fields.nodup_keys_ofList _)
      ((keys_ofMembers .text members).trans hkeys.symm) fun name hname => ?_
    rw [keys_ofMembers] at hname
    obtain ⟨d, hd⟩ := Fields.exists_last? (List.mem_eraseDups.1 hname)
    obtain ⟨t, ht⟩ := Fields.exists_lookup (hkeys ▸ hname)
    rw [lookup_ofMembers, hd, ht, Option.map_some, ih name d t hd ht]
  | @regExp members fields pattern flags hdescribes hkeys hvalue _ ih =>
    have hread := withRegExp_of_describes (describesRegExp_ofMembers.2 hdescribes)
    have hnames : Fields.keys (Fields.insert (Fields.ofList (ofMembers .text members)) "value"
        (.regExp pattern flags)) = Fields.keys fields := by
      rw [Fields.keys_insert, keys_ofMembers, hkeys]
      simp only [List.mem_eraseDups]
    show ofFields (Fields.ofList (ofMembers .text members)) = _
    rw [ofFields, hread]
    congr 1
    refine Fields.eq_of_lookup
      (Fields.nodup_keys_insert (Fields.nodup_keys_ofList _) _ _) hnames fun name hname => ?_
    by_cases hother : name = "value"
    · rw [hother, Fields.lookup_insert_self, hvalue]
    · have hmember : name ∈ Fields.keys members := by
        rw [hnames, hkeys] at hname
        split at hname <;> simpa [hother] using hname
      obtain ⟨d, hd⟩ := Fields.exists_last? hmember
      obtain ⟨t, ht⟩ := Fields.exists_lookup (hnames ▸ hname)
      rw [Fields.lookup_insert_of_ne _ _ hother, lookup_ofMembers, hd, ht, Option.map_some,
        ih name d t hother hd ht]

theorem standsFor_iff : d.StandsFor t ↔ ofDocument .text d = t :=
  ⟨eq_ofDocument_of_standsFor, fun h => h ▸ standsFor_ofDocument d⟩

end Tree

/-- **The text of an object settles its fields.**  The members of an object may repeat their
    names in any way, at any depth.  The text is read as an object, and that object is the
    only tree the members stand for.  To restore the regular expression of an object a second
    time changes nothing. -/
theorem repeats_settled {text : String} {members : List (String × Document)}
    (h : Document.read? text = some (.object members)) :
    (∃ fields, Tree.read? text = some (.object fields) ∧
      ∀ t, (Document.object members).StandsFor t ↔ t = .object fields) ∧
    ∀ fields fields', Tree.ofFields fields = .object fields' →
      Tree.ofFields fields' = .object fields' := by
  refine ⟨⟨Tree.withRegExp (Fields.ofList (Tree.ofMembers .text members)), ?_, fun t => ?_⟩,
    fun fields fields' hfields => ?_⟩
  · rw [Tree.read?, h]
    rfl
  · rw [Tree.standsFor_iff, eq_comm]
    rfl
  · obtain rfl := Tree.object.inj hfields
    rw [Tree.ofFields, Tree.withRegExp_withRegExp]

/-- The members of a literal, with all but its `value` named twice. -/
def repeatedMembers : List (String × Document) :=
  [("value", .bool true), ("regex", .null), ("type", .string "Identifier"),
    ("regex", .object [("flags", .string "g"), ("pattern", .null), ("pattern", .string "b")]),
    ("type", .string "Literal")]

/-- The `regex` that is given last describes a regular expression, and the first one does not;
    the fields stand in the order of the first. -/
theorem repeats_settled_literal : ∃ text fields,
    text = "\x7b\"value\":true,\"regex\":null,\"type\":\"Identifier\",\"regex\":\x7b" ++
      "\"flags\":\"g\",\"pattern\":null,\"pattern\":\"b\"\x7d,\"type\":\"Literal\"\x7d" ∧
    Document.read? text = some (.object repeatedMembers) ∧
    Tree.read? text = some (.object fields) ∧
    Fields.keys fields = ["value", "regex", "type"] ∧
    fields.lookup "value" = some (.regExp "b" "g") ∧
    fields.lookup "type" = some (.string "Literal") := by
  have hfinite : (Document.object repeatedMembers).Finite := by
    refine .object ?_
    simp [repeatedMembers, Document.Finite.bool, Document.Finite.null, Document.Finite.string,
      Document.Finite.object]
  have hread := Document.read?_render hfinite
  obtain ⟨⟨fields, hfields, hstands⟩, -⟩ := repeats_settled hread
  refine ⟨_, fields, by decide +kernel, hread, hfields, ?_⟩
  cases (hstands _).2 rfl with
  | object hnone => exact absurd ⟨_, rfl, rfl, rfl⟩ (hnone "b" "g")
  | regExp hdescribes hkeys hvalue hothers =>
    obtain ⟨regex, hregex, hpattern, hflags⟩ := hdescribes
    cases hregex
    cases hpattern
    cases hflags
    have hnames : Fields.keys fields = ["value", "regex", "type"] := hkeys.trans (by decide)
    have htype : "type" ∈ Fields.keys fields := by simp [hnames]
    obtain ⟨t, ht⟩ := Fields.exists_lookup htype
    cases hothers "type" (.string "Literal") t (by decide) rfl ht
    exact ⟨hnames, hvalue, ht⟩

end ScriptTree

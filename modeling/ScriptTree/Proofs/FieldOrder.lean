/-
  Trees that differ in the order of their fields.

  A document can be read in two ways: object by object as the text goes, or from maps that
  have been made of its objects before.  A map lists its names in ascending order, so the two
  ways restore regular expressions, and settle repeated names, over fields in different orders.

  * `Document.maps`: a document with maps for its objects; `ofDocument_maps`: its tree is the
    tree of the document with its fields in the order of their names.
  * `Tree.Reordered`: two trees that differ at most in the order of fields, at any depth.
  * `Fields.Corresponds`: two lists of fields with the same names, the values of which
    correspond; setting a field keeps this (`Corresponds.insert`), and so does all that the
    reading of an object is made of (`ofList`, `perm`, `withRegExp`).
  * `reordered_ofDocument`: the trees of a document in any two orders are reordered.
  * `readings_agree`: nothing else differs, and the same is found in both.
-/
import ScriptTree.Proofs.Indifference
import ScriptTree.Proofs.RoundTrip

namespace ScriptTree

/-! ## Documents -/

namespace Document

/-- Induction over a document and what it holds. -/
theorem induction {motive : Document → Prop} (null : motive .null)
    (bool : ∀ b, motive (.bool b)) (number : ∀ x, motive (.number x))
    (string : ∀ s, motive (.string s))
    (array : ∀ elements, (∀ e ∈ elements, motive e) → motive (.array elements))
    (object : ∀ members, (∀ m ∈ members, motive m.2) → motive (.object members))
    (d : Document) : motive d := by
  induction hn : sizeOf d using Nat.strongRecOn generalizing d with
  | ind n ih =>
    subst hn
    cases d with
    | null => exact null
    | bool b => exact bool b
    | number x => exact number x
    | string s => exact string s
    | array elements =>
      refine array elements fun e he => ih _ ?_ e rfl
      have := List.sizeOf_lt_of_mem he
      simp only [Document.array.sizeOf_spec]
      omega
    | object members =>
      refine object members fun m hm => ih _ ?_ m.2 rfl
      have := List.sizeOf_lt_of_mem hm
      have hvalue : sizeOf m.2 < sizeOf m := by
        obtain ⟨name, value⟩ := m
        simp only [Prod.mk.sizeOf_spec]
        omega
      simp only [Document.object.sizeOf_spec]
      omega

mutual

/-- A document with maps for its objects: each name once, with the value that was given last,
    and in ascending order. -/
def maps : Document → Document
  | .array elements => .array (elementMaps elements)
  | .object members => .object (Fields.sorted (Fields.ofList (memberMaps members)))
  | d => d

/-- The elements of an array with maps for their objects. -/
def elementMaps : List Document → List Document
  | [] => []
  | element :: elements => element.maps :: elementMaps elements

/-- The members of an object with maps for their objects, repeated names included. -/
def memberMaps : List (String × Document) → List (String × Document)
  | [] => []
  | (name, value) :: members => (name, value.maps) :: memberMaps members

end

theorem elementMaps_eq_map (elements : List Document) :
    elementMaps elements = elements.map maps := by
  induction elements with
  | nil => rfl
  | cons element elements ih => rw [elementMaps, ih, List.map_cons]

theorem memberMaps_eq_map (members : List (String × Document)) :
    memberMaps members = members.map fun m => (m.1, m.2.maps) := by
  induction members with
  | nil => rfl
  | cons member members ih => rw [memberMaps, ih, List.map_cons]

end Document

/-! ## Lists of fields -/

namespace Fields

variable {V W : Type}

theorem map_insert (g : V → W) (fields : List (String × V)) (name : String) (value : V) :
    (insert fields name value).map (fun f => (f.1, g f.2)) =
      insert (fields.map fun f => (f.1, g f.2)) name (g value) := by
  induction fields with
  | nil => rfl
  | cons field rest ih =>
    rw [insert, List.map_cons, insert]
    split
    · rfl
    · rw [List.map_cons, ih]

theorem map_ofList (g : V → W) (pairs : List (String × V)) :
    (ofList pairs).map (fun f => (f.1, g f.2)) = ofList (pairs.map fun f => (f.1, g f.2)) := by
  have hfold : ∀ fields : List (String × V),
      (pairs.foldl (fun fields pair => insert fields pair.1 pair.2) fields).map
          (fun f => (f.1, g f.2)) =
        (pairs.map fun f => (f.1, g f.2)).foldl (fun fields pair => insert fields pair.1 pair.2)
          (fields.map fun f => (f.1, g f.2)) := by
    induction pairs with
    | nil => exact fun _ => rfl
    | cons pair pairs ih =>
      intro fields
      rw [List.foldl_cons, ih, map_insert, List.map_cons, List.foldl_cons]
  exact hfold []

theorem map_sorted (g : V → W) (fields : List (String × V)) :
    (sorted fields).map (fun f => (f.1, g f.2)) = sorted (fields.map fun f => (f.1, g f.2)) :=
  List.map_mergeSort fun _ _ _ _ => rfl

theorem sorted_perm (fields : List (String × V)) : (sorted fields).Perm fields :=
  List.mergeSort_perm ..

theorem nodup_keys_sorted {fields : List (String × V)} (h : (keys fields).Nodup) :
    (keys (sorted fields)).Nodup :=
  ((sorted_perm fields).map _).nodup_iff.2 h

theorem exists_lookup {fields : List (String × V)} {name : String} (h : name ∈ keys fields) :
    ∃ value, fields.lookup name = some value := by
  cases hlookup : fields.lookup name with
  | some value => exact ⟨value, rfl⟩
  | none =>
    obtain ⟨field, hfield, rfl⟩ := List.mem_map.1 h
    simpa using List.lookup_eq_none_iff.1 hlookup field hfield

/-- Two lists of fields with the same names, each named once, and with values that correspond. -/
structure Corresponds (R : V → W → Prop) (fields : List (String × V))
    (fields' : List (String × W)) : Prop where
  nodup : (keys fields).Nodup
  keys_perm : (keys fields).Perm (keys fields')
  values : ∀ name, Option.Rel R (fields.lookup name) (fields'.lookup name)

namespace Corresponds

variable {R : V → W → Prop} {fields : List (String × V)} {fields' : List (String × W)}

theorem nil : Corresponds R [] [] := ⟨List.nodup_nil, .refl _, fun _ => .none⟩

theorem insert (h : Corresponds R fields fields') (name : String) {value : V} {value' : W}
    (hvalue : R value value') :
    Corresponds R (insert fields name value) (insert fields' name value') := by
  refine ⟨nodup_keys_insert h.nodup name value, ?_, fun other => ?_⟩
  · rw [keys_insert, keys_insert]
    by_cases hname : name ∈ keys fields
    · rw [if_pos hname, if_pos (h.keys_perm.mem_iff.1 hname)]
      exact h.keys_perm
    · rw [if_neg hname, if_neg fun hname' => hname (h.keys_perm.mem_iff.2 hname')]
      exact h.keys_perm.append_right [name]
  · by_cases hother : other = name
    · subst hother
      rw [lookup_insert_self, lookup_insert_self]
      exact .some hvalue
    · rw [lookup_insert_of_ne _ _ hother, lookup_insert_of_ne _ _ hother]
      exact h.values other

/-- Repeated names are settled alike. -/
theorem ofList {U : Type} {pairs : List (String × U)} {f : U → V} {g : U → W}
    (h : ∀ pair ∈ pairs, R (f pair.2) (g pair.2)) :
    Corresponds R (ofList (pairs.map fun pair => (pair.1, f pair.2)))
      (ofList (pairs.map fun pair => (pair.1, g pair.2))) := by
  have hfold : ∀ (fields : List (String × V)) (fields' : List (String × W)),
      Corresponds R fields fields' →
        Corresponds R
          ((pairs.map fun pair => (pair.1, f pair.2)).foldl
            (fun fields pair => Fields.insert fields pair.1 pair.2) fields)
          ((pairs.map fun pair => (pair.1, g pair.2)).foldl
            (fun fields pair => Fields.insert fields pair.1 pair.2) fields') := by
    induction pairs with
    | nil => exact fun _ _ h => h
    | cons pair pairs ih =>
      intro fields fields' hfields
      obtain ⟨hfirst, hrest⟩ := List.forall_mem_cons.1 h
      exact ih hrest _ _ (hfields.insert pair.1 hfirst)
  exact hfold [] [] nil

theorem perm (h : Corresponds R fields fields') {others : List (String × V)}
    {others' : List (String × W)} (hp : fields.Perm others) (hp' : fields'.Perm others') :
    Corresponds R others others' := by
  have hnodup' : (keys fields').Nodup := h.keys_perm.nodup_iff.1 h.nodup
  refine ⟨(hp.map _).nodup_iff.1 h.nodup, ?_, fun name => ?_⟩
  · exact ((hp.map _).symm.trans h.keys_perm).trans (hp'.map _)
  · rw [← lookup_of_perm hp h.nodup, ← lookup_of_perm hp' hnodup']
    exact h.values name

end Corresponds

end Fields

theorem FieldOrder.arrange_perm {V : Type} (order : FieldOrder) (fields : List (String × V)) :
    (order.arrange fields).Perm fields := by
  cases order with
  | text => exact .refl _
  | name => exact Fields.sorted_perm fields

namespace Tree

/-! ## From maps -/

/-- The tree of a document with maps for its objects has its fields in the order of their
    names. -/
theorem ofDocument_maps (d : Document) : ofDocument .text d.maps = ofDocument .name d := by
  induction d using Document.induction with
  | null => rfl
  | bool => rfl
  | number => rfl
  | string => rfl
  | array elements ih =>
    have helements : ∀ e ∈ elements, (ofDocument .text ∘ Document.maps) e = ofDocument .name e := ih
    rw [Document.maps, ofDocument, ofDocument, ofElements_eq_map, ofElements_eq_map,
      Document.elementMaps_eq_map, List.map_map, List.map_congr_left helements]
  | object members ih =>
    -- a map names each field once, so nothing is left to settle in its tree
    have hmembers : (members.map fun m => (m.1, ofDocument .text m.2.maps)) =
        ofMembers .name members := by
      rw [ofMembers_eq_map]
      exact List.map_congr_left fun m hm => by rw [ih m hm]
    rw [Document.maps, ofDocument, ofDocument, ofMembers_eq_map, Document.memberMaps_eq_map,
      Fields.map_sorted, Fields.map_ofList, List.map_map]
    show ofFields (Fields.ofList (Fields.sorted (Fields.ofList
      (members.map fun m => (m.1, ofDocument .text m.2.maps))))) = _
    rw [hmembers, Fields.ofList_of_nodup (Fields.nodup_keys_sorted (Fields.nodup_keys_ofList _))]
    rfl

/-! ## Reordered trees -/

/-- Two trees that differ at most in the order of the fields of objects, at any depth.  No
    object names a field twice. -/
inductive Reordered : Tree → Tree → Prop
  | scalar {t} : t.isObject = false → t.elements? = none → Reordered t t
  | array {xs ys : List Tree} : xs.length = ys.length →
      (∀ (i : Nat) (x y : Tree), xs[i]? = some x → ys[i]? = some y → Reordered x y) →
      Reordered (.array xs) (.array ys)
  | object {fields fields' : List (String × Tree)} : (Fields.keys fields).Nodup →
      (Fields.keys fields).Perm (Fields.keys fields') →
      (∀ name c c', fields.lookup name = some c → fields'.lookup name = some c' →
        Reordered c c') →
      Reordered (.object fields) (.object fields')

namespace Reordered

variable {t t' : Tree} {fields fields' : List (String × Tree)}

theorem of_corresponds (h : Fields.Corresponds Reordered fields fields') :
    (Tree.object fields).Reordered (.object fields') :=
  .object h.nodup h.keys_perm fun name _ _ => of_rel_some (h.values name)

/-- A field of one tree is a field of the other, and the two are reordered. -/
theorem get?_rel (h : t.Reordered t') (name : String) :
    Option.Rel Reordered (t.get? name) (t'.get? name) := by
  cases h with
  | scalar hobject =>
    rw [get?_of_not_isObject hobject]
    exact .none
  | array => exact .none
  | @object fields fields' _ hkeys hvalues =>
    by_cases hname : name ∈ Fields.keys fields
    · obtain ⟨c, hc⟩ := Fields.exists_lookup hname
      obtain ⟨c', hc'⟩ := Fields.exists_lookup (hkeys.mem_iff.1 hname)
      rw [get?, get?, hc, hc']
      exact .some (hvalues name c c' hc hc')
    · have hname' : name ∉ Fields.keys fields' := fun h => hname (hkeys.mem_iff.2 h)
      rw [get?, get?, Fields.lookup_eq_none hname, Fields.lookup_eq_none hname']
      exact .none

theorem string?_eq (h : t.Reordered t') : t.string? = t'.string? := by
  cases h with
  | scalar => rfl
  | array => rfl
  | object => rfl

/-- The order of fields is no change of any of them. -/
theorem edited {e : Edits} {p : Place} (h : t.Reordered t') : t.Edited e p t' := by
  induction h generalizing p with
  | scalar hobject helements => exact .scalar hobject helements
  | array hlength _ ih => exact .array hlength fun i x y hx hy => ih i x y hx hy
  | @object fields fields' hnodup hkeys hvalues ih =>
    have hrel := (object hnodup hkeys hvalues).get?_rel
    refine .of_fields rfl rfl fun name => Or.inr (Edited.rel_get? ?_ fun c c' hc hc' => ?_)
    · rw [isSome_eq_of_rel (hrel name)]
    · exact ih name c c' hc hc'

end Reordered

/-! ## Reading in two orders -/

variable {fields fields' : List (String × Tree)}

theorem regExp?_eq_of_corresponds (h : Fields.Corresponds Reordered fields fields') :
    regExp? fields = regExp? fields' := by
  refine bind_eq_of_rel (h.values "regex") fun regex regex' hregex => ?_
  have htext : ∀ name, regex.get? name >>= string? = regex'.get? name >>= string? := fun name =>
    bind_eq_of_rel (hregex.get?_rel name) fun _ _ hc => hc.string?_eq
  rw [htext, htext]

/-- A regular expression is restored alike in any order of the fields. -/
theorem corresponds_withRegExp (h : Fields.Corresponds Reordered fields fields') :
    Fields.Corresponds Reordered (withRegExp fields) (withRegExp fields') := by
  unfold withRegExp
  rw [← regExp?_eq_of_corresponds h]
  cases hregExp : regExp? fields with
  | none => exact h
  | some value =>
    obtain ⟨_, _, rfl, -⟩ := regExp?_eq_some_iff.1 hregExp
    exact h.insert "value" (.scalar rfl rfl)

/-- **The trees of a document in any two orders differ in nothing else.** -/
theorem reordered_ofDocument (p q : FieldOrder) (d : Document) :
    (ofDocument p d).Reordered (ofDocument q d) := by
  induction d using Document.induction with
  | null => exact .scalar rfl rfl
  | bool => exact .scalar rfl rfl
  | number => exact .scalar rfl rfl
  | string => exact .scalar rfl rfl
  | array elements ih =>
    rw [ofDocument, ofDocument, ofElements_eq_map, ofElements_eq_map]
    refine .array (by rw [List.length_map, List.length_map]) fun i x y hx hy => ?_
    rw [List.getElem?_map, Option.map_eq_some_iff] at hx hy
    obtain ⟨e, he, rfl⟩ := hx
    obtain ⟨e', he', rfl⟩ := hy
    obtain rfl := Option.some.inj (he.symm.trans he')
    exact ih e (List.mem_of_getElem? he)
  | object members ih =>
    rw [ofDocument, ofDocument, ofMembers_eq_map, ofMembers_eq_map]
    have hfields := Fields.Corresponds.ofList (R := Reordered) ih
    exact .of_corresponds (corresponds_withRegExp
      (hfields.perm (p.arrange_perm _).symm (q.arrange_perm _).symm))

end Tree

/-- **The two ways to read a document agree.**  The tree of a text and the tree that is made
    of the maps of its document differ at most in the order of fields.  So the two are valid
    alike, as a program and as an expression, in strict code or not, and the same is found in
    both: the same faults in the same order, with the same messages and positions. -/
theorem readings_agree {text : String} {d : Document} (h : Document.read? text = some d) :
    ∃ t, Tree.read? text = some t ∧
      Tree.ofDocument .name d = Tree.ofDocument .text d.maps ∧
      t.Reordered (Tree.ofDocument .text d.maps) ∧
      ∀ strict, t.FoundSame strict (Tree.ofDocument .text d.maps) := by
  have hreordered : (Tree.ofDocument .text d).Reordered (Tree.ofDocument .text d.maps) := by
    rw [Tree.ofDocument_maps]
    exact Tree.reordered_ofDocument .text .name d
  refine ⟨Tree.ofDocument .text d, ?_, (Tree.ofDocument_maps d).symm, hreordered, fun strict => ?_⟩
  · rw [Tree.read?, h, Option.map_some]
  · exact hreordered.edited.foundSame Edits.harmless_unread rfl strict

/-- A regular expression, the type and the pattern of which are named twice. -/
def repeatedNames : String :=
  "\x7b\"value\":1,\"type\":\"Identifier\",\"regex\":" ++
    "\x7b\"pattern\":\"a\",\"flags\":\"g\",\"pattern\":\"b\"\x7d,\"type\":\"Literal\"\x7d"

/-- The names that are given last count, and both trees are a literal. -/
theorem repeatedNames_agree : ∃ d t, Document.read? repeatedNames = some d ∧
    Tree.read? repeatedNames = some t ∧
    t.render = "\x7b\"value\":null,\"type\":\"Literal\"," ++
      "\"regex\":\x7b\"pattern\":\"b\",\"flags\":\"g\"\x7d\x7d" ∧
    t.Reordered (Tree.ofDocument .text d.maps) ∧
    (Tree.ofDocument .text d.maps).isValidExpression false = true := by
  have hread : (Tree.read? repeatedNames).map (fun t => (t.render, t.isValidExpression false)) =
      some ("\x7b\"value\":null,\"type\":\"Literal\"," ++
        "\"regex\":\x7b\"pattern\":\"b\",\"flags\":\"g\"\x7d\x7d", true) := by
    decide +kernel
  obtain ⟨t, ht, hrender⟩ := Option.map_eq_some_iff.1 hread
  obtain ⟨hrender, hvalid⟩ := Prod.mk.inj hrender
  obtain ⟨d, hd, -⟩ := Option.map_eq_some_iff.1 ht
  obtain ⟨t', ht', -, hreordered, hsame⟩ := readings_agree hd
  obtain rfl := Option.some.inj (ht.symm.trans ht')
  exact ⟨d, t, hd, ht, hrender, hreordered, (hsame false).isValidExpression_eq.trans hvalid⟩

end ScriptTree

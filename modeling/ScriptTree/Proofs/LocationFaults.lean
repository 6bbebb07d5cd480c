/-
  What is wrong with a source location.

  * `Tree.LocationDefect`, `Tree.locationDefects`: what is wrong with the location of a value,
    and how much.
  * `Tree.locationsAt_counted`: each of these is charged once, at the value, and no other value
    is charged with a fault of a location.
  * `Diagnostic.position_agrees`: a value is shown with a position iff nothing is wrong with the
    start of its location.
-/
import ScriptTree.Diagnostic
import ScriptTree.Proofs.Locations

namespace ScriptTree

/-! ## What may be wrong -/

namespace Tree

/-- Whether a field is a number that is not below a bound. -/
def hasNumberFrom (t : Tree) (name : String) (bound : Double) : Bool :=
  match t.get? name with
  | some (.number x) => bound.le x
  | _ => false

theorem hasNumberFrom_eq (t : Tree) (name : String) (bound : Double) :
    t.hasNumberFrom name bound = (t.get? name >>= number?).any (bound.le ·) := by
  rw [hasNumberFrom]
  rcases t.get? name with - | (- | - | - | - | - | - | -)
  all_goals rfl

/-- Whether a location has a source that is no text. -/
def hasForeignSource (location : Tree) : Bool :=
  (location.child? "source").any (·.string?.isNone)

/-- What may be wrong with the location of a value.  A location that is no object has none of
    the fields. -/
inductive LocationDefect (t : Tree) : Fault → Prop
  | source {location} : t.child? "loc" = some location → location.hasForeignSource = true →
      LocationDefect t (.notString (.named "loc.source"))
  | endpoint {location endpoint} : t.child? "loc" = some location →
      location.child? endpoint.name = none → LocationDefect t (.missingEndpoint endpoint)
  | line {location endpoint position} : t.child? "loc" = some location →
      location.child? endpoint.name = some position →
      position.hasNumberFrom "line" .one = false → LocationDefect t (.invalidLine endpoint)
  | column {location endpoint position} : t.child? "loc" = some location →
      location.child? endpoint.name = some position →
      position.hasNumberFrom "column" .zero = false → LocationDefect t (.invalidColumn endpoint)

/-- How much is wrong with one end of a location. -/
def endpointDefects (location : Tree) (endpoint : Endpoint) : Nat :=
  match location.child? endpoint.name with
  | none => 1
  | some position =>
    (if position.hasNumberFrom "line" .one then 0 else 1) +
      if position.hasNumberFrom "column" .zero then 0 else 1

/-- How much is wrong with the location of a value. -/
def locationDefects (t : Tree) : Nat :=
  match t.child? "loc" with
  | none => 0
  | some location => (if location.hasForeignSource then 1 else 0) +
      location.endpointDefects .start + location.endpointDefects .stop

end Tree

namespace Steps

variable {t location : Tree} {endpoint : Endpoint} {f : Fault}

theorem endpointFaults_of_none (h : location.child? endpoint.name = none) :
    endpointFaults location endpoint = [.missingEndpoint endpoint] := by
  rw [endpointFaults, h]

theorem endpointFaults_of_some {position : Tree}
    (h : location.child? endpoint.name = some position) :
    endpointFaults location endpoint =
      (if position.hasNumberFrom "line" .one then [] else [.invalidLine endpoint]) ++
        if position.hasNumberFrom "column" .zero then [] else [.invalidColumn endpoint] := by
  simp only [endpointFaults, h, Tree.hasNumberFrom_eq]

theorem locationFaults_of_none (h : t.child? "loc" = none) : locationFaults t = [] := by
  rw [locationFaults, h]

theorem locationFaults_of_some (h : t.child? "loc" = some location) :
    locationFaults t =
      (if location.hasForeignSource then [.notString (.named "loc.source")] else []) ++
        endpointFaults location .start ++ endpointFaults location .stop := by
  simp only [locationFaults, h]
  congr 2
  unfold Tree.hasForeignSource
  split
  · next hsource => simp [hsource]
  · next hsource => simp [hsource, Tree.string?]
  · next source htext hsource =>
    have hstring : source.string? = none := by
      cases source with
      | string text => exact absurd rfl (htext text)
      | _ => rfl
    simp [hsource, hstring]

theorem length_endpointFaults :
    (endpointFaults location endpoint).length = location.endpointDefects endpoint := by
  rw [Tree.endpointDefects]
  cases h : location.child? endpoint.name with
  | none => rw [endpointFaults_of_none h]; rfl
  | some position =>
    rw [endpointFaults_of_some h, List.length_append, apply_ite List.length, apply_ite List.length]
    rfl

theorem length_locationFaults (t : Tree) : (locationFaults t).length = t.locationDefects := by
  rw [Tree.locationDefects]
  cases h : t.child? "loc" with
  | none => rw [locationFaults_of_none h]; rfl
  | some location =>
    rw [locationFaults_of_some h, List.length_append, List.length_append, length_endpointFaults,
      length_endpointFaults, apply_ite List.length]
    rfl

/-- Each fault of a location is found once. -/
theorem nodup_locationFaults (t : Tree) : (locationFaults t).Nodup := by
  have hif : ∀ {test : Bool} {f : Fault}, (if test then [f] else []).Sublist [f] := by
    intro test f
    cases test with
    | true => exact .refl _
    | false => exact List.nil_sublist _
  have hunless : ∀ {test : Bool} {f : Fault}, (if test then [] else [f]).Sublist [f] := by
    intro test f
    cases test with
    | true => exact List.nil_sublist _
    | false => exact .refl _
  have hendpoint : ∀ location endpoint, (endpointFaults location endpoint).Sublist
      [.missingEndpoint endpoint, .invalidLine endpoint, .invalidColumn endpoint] := by
    intro location endpoint
    cases h : location.child? endpoint.name with
    | none =>
      rw [endpointFaults_of_none h]
      exact List.singleton_sublist.2 List.mem_cons_self
    | some position =>
      rw [endpointFaults_of_some h]
      exact (hunless.append hunless).cons _
  cases h : t.child? "loc" with
  | none => rw [locationFaults_of_none h]; exact .nil
  | some location =>
    rw [locationFaults_of_some h]
    refine List.Nodup.sublist ((hif.append (hendpoint location .start)).append
      (hendpoint location .stop)) ?_
    decide

theorem mem_endpointFaults_iff : f ∈ endpointFaults location endpoint ↔
    (location.child? endpoint.name = none ∧ f = .missingEndpoint endpoint) ∨
      ∃ position, location.child? endpoint.name = some position ∧
        ((position.hasNumberFrom "line" .one = false ∧ f = .invalidLine endpoint) ∨
          (position.hasNumberFrom "column" .zero = false ∧ f = .invalidColumn endpoint)) := by
  cases h : location.child? endpoint.name with
  | none => simp [endpointFaults_of_none h]
  | some position =>
    have hunless : ∀ {test : Bool} {g : Fault},
        f ∈ (if test then [] else [g]) ↔ test = false ∧ f = g := by
      intro test g
      cases test <;> simp
    rw [endpointFaults_of_some h, List.mem_append, hunless, hunless]
    simp

/-- **The faults of a location are what is wrong with it.** -/
theorem mem_locationFaults_iff : f ∈ locationFaults t ↔ t.LocationDefect f := by
  constructor
  · intro hf
    cases h : t.child? "loc" with
    | none => rw [locationFaults_of_none h] at hf; cases hf
    | some location =>
      have hend : ∀ {endpoint}, f ∈ endpointFaults location endpoint → t.LocationDefect f := by
        intro endpoint hf
        rcases mem_endpointFaults_iff.1 hf with ⟨hnone, rfl⟩ | ⟨position, hsome, hline | hcolumn⟩
        · exact .endpoint h hnone
        · exact hline.2 ▸ .line h hsome hline.1
        · exact hcolumn.2 ▸ .column h hsome hcolumn.1
      rw [locationFaults_of_some h, List.mem_append, List.mem_append] at hf
      rcases hf with (hsource | hstart) | hstop
      · split at hsource
        · next hforeign => exact List.mem_singleton.1 hsource ▸ .source h hforeign
        · cases hsource
      · exact hend hstart
      · exact hend hstop
  · intro hdefect
    have hend : ∀ {location endpoint}, t.child? "loc" = some location →
        f ∈ endpointFaults location endpoint → f ∈ locationFaults t := by
      intro location endpoint h hf
      rw [locationFaults_of_some h, List.mem_append, List.mem_append]
      cases endpoint with
      | start => exact Or.inl (Or.inr hf)
      | stop => exact Or.inr hf
    cases hdefect with
    | source h hforeign => simp [locationFaults_of_some h, hforeign]
    | endpoint h hnone => exact hend h (mem_endpointFaults_iff.2 (Or.inl ⟨hnone, rfl⟩))
    | line h hsome hline =>
      exact hend h (mem_endpointFaults_iff.2 (Or.inr ⟨_, hsome, Or.inl ⟨hline, rfl⟩⟩))
    | column h hsome hcolumn =>
      exact hend h (mem_endpointFaults_iff.2 (Or.inr ⟨_, hsome, Or.inr ⟨hcolumn, rfl⟩⟩))

end Steps

/-! ## What is charged -/

/-- The faults of locations that are charged at a trail, in order. -/
def Tree.locationsAt (strict : Bool) (t : Tree) (trail : List Selector) : List Fault :=
  (t.chargedAt strict trail).filter Fault.isLocation

/-- **Each defect of a location is charged once**, at the value that has the location: a node
    that is visited, a property, a key or a name behind a dot.  No other value is charged with a
    fault of a location. -/
theorem Tree.locationsAt_counted (strict : Bool) (t : Tree) :
    (∀ v p, t.Visits strict v → v.Checks p →
      (t.locationsAt strict p.trail).length = p.value.locationDefects ∧
      (t.locationsAt strict p.trail).Nodup ∧
      ∀ f, f ∈ t.locationsAt strict p.trail ↔ p.value.LocationDefect f) ∧
    ∀ w ∈ t.violations strict, w.fault.isLocation = true →
      ∃ v, t.Visits strict v ∧ v.Checks w.owner := by
  refine ⟨fun v p hv hp => ?_, fun w hw hlocation => exists_checks_of_isLocation hw hlocation⟩
  have hfaults : t.locationsAt strict p.trail = Steps.locationFaults p.value :=
    hv.filter_isLocation_chargedAt hp
  rw [hfaults]
  exact ⟨Steps.length_locationFaults _, Steps.nodup_locationFaults _,
    fun f => Steps.mem_locationFaults_iff⟩

namespace LocatedLiteral

/-- A key whose location starts in line zero, at a column that is no number. -/
def key : Tree := .node .identifier [("name", .string "a"), ("loc", .object [
  ("start", .object [("line", .number .zero), ("column", .null)]),
  ("end", .object [("line", .number .one), ("column", .number .zero)])])]

/-- A property whose location is no object. -/
def property : Tree := .object [("kind", .string "init"), ("key", key), ("value", .named "x"),
  ("loc", .string "1:2")]

/-- An object literal whose location has no end, and a source that is no text. -/
def literal : Tree := .node .objectExpression [("properties", .array [property]),
  ("loc", .object [("source", .bool true),
    ("start", .object [("line", .number .one), ("column", .number .zero)])])]

/-- The visit of the literal. -/
def visit : Visit := .root false literal

theorem checks_literal : visit.Checks visit.occurrence :=
  ⟨⟨_, rfl⟩, rfl, Or.inl rfl⟩

theorem checks_property : visit.Checks (visit.occurrence.element "properties" 0 property) :=
  ⟨⟨_, rfl⟩, rfl, Or.inr ⟨rfl, _, rfl, .property List.mem_cons_self⟩⟩

theorem checks_key : visit.Checks ⟨[.field "key", .element 0, .field "properties"], key⟩ :=
  ⟨⟨_, rfl⟩, rfl, Or.inr ⟨rfl, _, rfl, .key (show (property, 0) ∈ _ from List.mem_cons_self) rfl⟩⟩

end LocatedLiteral

/-- Two faults each of a literal, of its property and of the key of that. -/
theorem Tree.locationsAt_counted_literal :
    (LocatedLiteral.literal.locationsAt false []).length = 2 ∧
    (LocatedLiteral.literal.locationsAt false [.element 0, .field "properties"]).length = 2 ∧
    (LocatedLiteral.literal.locationsAt false
      [.field "key", .element 0, .field "properties"]).length = 2 := by
  have hcount := (locationsAt_counted false LocatedLiteral.literal).1 LocatedLiteral.visit
  exact ⟨(hcount _ .refl LocatedLiteral.checks_literal).1.trans (by decide +kernel),
    (hcount _ .refl LocatedLiteral.checks_property).1.trans (by decide +kernel),
    (hcount _ .refl LocatedLiteral.checks_key).1.trans (by decide +kernel)⟩

/-! ## The position that is shown -/

/-- The faults of the start of a location. -/
def Fault.ofStart : List Fault :=
  [.missingEndpoint .start, .invalidLine .start, .invalidColumn .start]

namespace Tree

variable {t location start : Tree}

/-- The position that the start of a location gives. -/
theorem position?_eq (t : Tree) : t.position? = (t.child? "loc" >>= (·.child? "start")) >>=
    fun start => (start.get? "line" >>= number?) >>= fun line =>
      (start.get? "column" >>= number?) >>= fun column =>
        if Double.one.le line && Double.zero.le column then
          some ⟨line.wholePart, column.wholePart⟩
        else none := by
  rw [position?, bind_assoc]

theorem isSome_position? (hlocation : t.child? "loc" = some location)
    (hstart : location.child? "start" = some start) :
    t.position?.isSome =
      (start.hasNumberFrom "line" .one && start.hasNumberFrom "column" .zero) := by
  have hsome : (t.child? "loc" >>= (·.child? "start")) = some start := by
    rw [hlocation]
    exact hstart
  rw [position?_eq, hsome, hasNumberFrom_eq, hasNumberFrom_eq]
  show ((start.get? "line" >>= number?) >>= fun line => _).isSome = _
  cases start.get? "line" >>= number? with
  | none => rfl
  | some line =>
    show ((start.get? "column" >>= number?) >>= fun column => _).isSome = _
    cases start.get? "column" >>= number? with
    | none => exact (Bool.and_false _).symm
    | some column =>
      show (if Double.one.le line && Double.zero.le column then _ else none).isSome = _
      rw [Option.any_some, Option.any_some]
      cases Double.one.le line && Double.zero.le column <;> rfl

/-- **A value with a location has a position iff nothing is wrong with the start of it.** -/
theorem isSome_position?_iff (hlocation : t.child? "loc" = some location) :
    t.position?.isSome = true ↔ ∀ f ∈ Fault.ofStart, ¬ t.LocationDefect f := by
  cases hstart : location.child? "start" with
  | none =>
    have hnone : t.position? = none := by
      rw [position?_eq, hlocation]
      show (location.child? "start" >>= _) = none
      rw [hstart]
      rfl
    rw [hnone]
    constructor
    · intro h
      cases h
    · intro h
      exact absurd (.endpoint hlocation hstart) (h (.missingEndpoint .start) List.mem_cons_self)
  | some start =>
    rw [isSome_position? hlocation hstart, Bool.and_eq_true]
    constructor
    · rintro ⟨hline, hcolumn⟩ f hf hdefect
      cases hdefect with
      | source => simp [Fault.ofStart] at hf
      | @endpoint found endpoint h hnone =>
        obtain rfl := Option.some.inj (hlocation.symm.trans h)
        obtain rfl : endpoint = .start := by simpa [Fault.ofStart] using hf
        cases hnone.symm.trans hstart
      | @line found endpoint position h hsome hfalse =>
        obtain rfl := Option.some.inj (hlocation.symm.trans h)
        obtain rfl : endpoint = .start := by simpa [Fault.ofStart] using hf
        obtain rfl := Option.some.inj (hstart.symm.trans hsome)
        cases hline.symm.trans hfalse
      | @column found endpoint position h hsome hfalse =>
        obtain rfl := Option.some.inj (hlocation.symm.trans h)
        obtain rfl : endpoint = .start := by simpa [Fault.ofStart] using hf
        obtain rfl := Option.some.inj (hstart.symm.trans hsome)
        cases hcolumn.symm.trans hfalse
    · intro h
      constructor
      · by_contra hline
        exact h (.invalidLine .start) (by simp [Fault.ofStart])
          (.line hlocation hstart (Bool.not_eq_true _ ▸ hline))
      · by_contra hcolumn
        exact h (.invalidColumn .start) (by simp [Fault.ofStart])
          (.column hlocation hstart (Bool.not_eq_true _ ▸ hcolumn))

end Tree

/-- **The position that is shown agrees with the faults of the location.**  A value that has a
    location, and is charged with the faults of it, is shown with a position iff none of these is
    about the start.  Nothing else of the location matters, and a value without one is shown
    without a position. -/
theorem Diagnostic.position_agrees (strict : Bool) (t : Tree) (file : String) :
    (∀ v p, t.Visits strict v → v.Checks p → p.value.child? "loc" ≠ none → ∀ fault,
      ((ofViolation file ⟨p, fault⟩).position.isSome = true ↔
        ∀ f ∈ Fault.ofStart, f ∉ t.chargedAt strict p.trail)) ∧
    (∀ a b : Violation,
      (a.owner.value.child? "loc" >>= (·.child? "start")) =
        (b.owner.value.child? "loc" >>= (·.child? "start")) →
      (ofViolation file a).position = (ofViolation file b).position) ∧
    ∀ w : Violation, w.owner.value.child? "loc" = none → (ofViolation file w).position = none := by
  refine ⟨fun v p hv hp hlocation fault => ?_, fun a b hstart => ?_, fun w hnone => ?_⟩
  · obtain ⟨location, hlocation⟩ := Option.ne_none_iff_exists'.1 hlocation
    have hcharged : ∀ f ∈ Fault.ofStart,
        (f ∈ t.chargedAt strict p.trail ↔ p.value.LocationDefect f) := by
      intro f hf
      have hisLocation : f.isLocation = true :=
        (show ∀ f ∈ Fault.ofStart, f.isLocation = true by decide) f hf
      rw [← Steps.mem_locationFaults_iff, ← hv.filter_isLocation_chargedAt hp, List.mem_filter,
        and_iff_left hisLocation]
    exact (Tree.isSome_position?_iff hlocation).trans
      (forall₂_congr fun f hf => not_congr (hcharged f hf).symm)
  · show a.owner.value.position? = b.owner.value.position?
    rw [Tree.position?_eq, Tree.position?_eq, hstart]
  · show w.owner.value.position? = none
    rw [Tree.position?_eq, hnone]
    rfl

/-- The literal has a position, though its location has faults; its key has none. -/
theorem Diagnostic.position_agrees_literal :
    (∀ f ∈ Fault.ofStart, f ∉ LocatedLiteral.literal.chargedAt false []) ∧
      ¬ ∀ f ∈ Fault.ofStart, f ∉ LocatedLiteral.literal.chargedAt false
        [.field "key", .element 0, .field "properties"] := by
  have hagrees := (position_agrees false LocatedLiteral.literal "a.json").1 LocatedLiteral.visit
  constructor
  · exact (hagrees _ .refl LocatedLiteral.checks_literal (Option.some_ne_none _)
      .missingType).1 (by decide +kernel)
  · intro h
    have hshown := (hagrees _ .refl LocatedLiteral.checks_key (Option.some_ne_none _)
      .missingType).2 h
    revert hshown
    decide +kernel

end ScriptTree

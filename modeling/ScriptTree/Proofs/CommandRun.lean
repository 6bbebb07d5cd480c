/-
  What a run of the command shows and writes.

  * `wrongRoot_mem_diagnose_iff`: a root is named as wrong iff it is and nothing else is; no
    other diagnostic has the wording of a wrong root (`message_ne_wrongRoot`).
  * `Diagnostic.card_true`: what a card shows of a diagnostic.
  * `Arguments.Reports`: what a run shows of its files, and what it writes besides;
    `run_reports`: every run does.
-/
import ScriptTree.Proofs.CommandWords
import ScriptTree.Proofs.Course
import ScriptTree.Proofs.Visit

namespace ScriptTree

/-! ## Wordings -/

/-- A text has a first character, and this is it. -/
def Opens (c : Char) (s : String) : Prop := s.toList.head? = some c

namespace Opens

variable {c : Char} {s : String}

theorem literal (c : Char) (cs : List Char) : Opens c (String.ofList (c :: cs)) := by
  rw [Opens, String.toList_ofList]
  rfl

theorem append (h : Opens c s) (rest : String) : Opens c (s ++ rest) := by
  rw [Opens, String.toList_append, List.head?_append, h]
  rfl

theorem display (field : Field) : Opens '`' field.display := by
  unfold Field.display
  split
  · exact ((literal '`' []).append _).append _
  · exact ((((literal '`' []).append _).append _).append _).append _

end Opens

/-- No wording of a fault begins like the one of a wrong root. -/
theorem Fault.opens_message (f : Fault) : ∃ c, c ≠ 'r' ∧ Opens c f.message := by
  cases f with
  | missing | notArray | notString | notProperty =>
    exact ⟨_, by decide, .append (.display _) _⟩
  | misplaced =>
    exact ⟨_, by decide, .append (.append (.append (.append (.display _) _) _) _) _⟩
  | notNode | unknownType | invalidLiteralValue | duplicateLabel =>
    exact ⟨_, by decide, .append (.literal _ _) _⟩
  | missingEndpoint | invalidLine | invalidColumn | reservedWord | conflictingProperty
  | unknownLabel | duplicateParameter | restrictedName | duplicateProperty =>
    exact ⟨_, by decide, .append (.append (.literal _ _) _) _⟩
  | invalidOperator _ found =>
    cases found with
    | none => exact ⟨_, by decide, .append (.append (.literal _ _) _) _⟩
    | some => exact ⟨_, by decide, .append (.append (.append (.literal _ _) _) _) _⟩
  | invalidName => exact ⟨_, by decide, .append (.append (.append (.literal _ _) _) _) _⟩
  | _ => exact ⟨_, by decide, .literal _ _⟩

theorem Kind.colon_not_mem_name (kind : Kind) : ':' ∉ kind.name.toList := by
  have hliteral : ∀ {cs : List Char}, ':' ∉ cs → ':' ∉ (String.ofList cs).toList := by
    intro cs h
    rwa [String.toList_ofList]
  cases kind <;> exact hliteral (by decide)

theorem Tree.describe_of_kind? {t : Tree} {kind : Kind} (h : t.kind? = some kind) :
    t.describe = kind.name := by
  obtain ⟨name, hname, hkind⟩ := Option.bind_eq_some_iff.1 h
  have hobject := isObject_of_kind? h
  cases t with
  | object fields =>
    rw [describe, hname, Kind.ofName?_eq_some_iff.1 hkind]
    rfl
  | _ => cases hobject

namespace Arguments

variable {a : Arguments} {file : String} {t : Tree} {v : Violation}

/-- What is said about a wrong root is said about no violation of the tree. -/
theorem message_ne_wrongRoot {strict : Bool} (hv : v ∈ t.violations strict) :
    v.message ≠ (a.wrongRoot file t).message := by
  intro h
  have hchars : t.describe.toList ++ ':' :: ' ' :: ("root must be " ++ a.expectation).toList =
      v.owner.value.describe.toList ++ ':' :: ' ' :: v.fault.message.toList := by
    have hlist := congrArg String.toList h.symm
    simpa [wrongRoot, Violation.message] using hlist
  have hroot : ':' ∉ ' ' :: ("root must be " ++ a.expectation).toList := by
    unfold expectation
    split <;> decide
  have hfault : ("root must be " ++ a.expectation).toList = v.fault.message.toList := by
    cases hnode : t.nodeKind with
    | error fault =>
      -- a root that is no node is the only thing that is charged
      rw [Tree.violations, violations_eq] at hv
      simp only [Occurrence.root, hnode, List.mem_singleton] at hv
      subst hv
      simpa using hchars
    | ok kind =>
      -- neither the name of a kind nor what follows has a colon, so there is one way to split
      rw [Tree.describe_of_kind? (Tree.nodeKind_eq_ok_iff.1 hnode)] at hchars
      have hparts := (List.append_cons_inj_of_notMem kind.colon_not_mem_name hroot).1 hchars
      exact (List.cons.inj hparts.2.2).2
  obtain ⟨c, hc, hopens⟩ := v.fault.opens_message
  rw [Opens, ← hfault] at hopens
  exact hc (by simpa using hopens.symm)

/-- The root is named as wrong iff it is, and nothing else is. -/
theorem wrongRoot_mem_diagnose_iff :
    a.wrongRoot file t ∈ a.diagnose file t ↔
      t.violations (a.has .strict) = [] ∧ ¬ a.fits t = true := by
  constructor
  · intro h
    have hnil : t.violations (a.has .strict) = [] := by
      by_contra hne
      rw [diagnose_of_ne_nil hne] at h
      obtain ⟨v, hv, heq⟩ := List.mem_map.1 h
      exact message_ne_wrongRoot hv (congrArg Diagnostic.message heq)
    refine ⟨hnil, fun hfits => ?_⟩
    rw [diagnose_of_accepts (accepts_iff.2 ⟨hfits, hnil⟩)] at h
    cases h
  · rintro ⟨hnil, hfits⟩
    rw [diagnose_of_nil (fun h => hfits (accepts_iff.1 h).1) hnil]
    exact List.mem_singleton_self _

end Arguments

/-! ## What a run shows -/

namespace Diagnostic

theorem map_fst_positioned (ds : List Diagnostic) :
    (positioned ds).map (·.1) = ds.filter (·.position.isSome) := by
  induction ds with
  | nil => rfl
  | cons d ds ih =>
    unfold positioned at ih ⊢
    cases hposition : d.position with
    | none => rw [List.filterMap_cons_none (by rw [hposition]; rfl), ih,
        List.filter_cons_of_neg (by rw [hposition]; decide)]
    | some position => rw [List.filterMap_cons_some (by rw [hposition]; rfl), List.map_cons, ih,
        List.filter_cons_of_pos (by rw [hposition]; rfl)]

/-- A report lists every diagnostic as often as it was found. -/
theorem arrange_perm (ds : List Diagnostic) : (arrange ds).Perm ds := by
  have hsorted : (((positioned ds).mergeSort placeLe).map (·.1)).Perm
      (ds.filter fun d => !d.position.isNone) := by
    have hsome : (fun d : Diagnostic => !d.position.isNone) = fun d => d.position.isSome := by
      funext d
      cases d.position <;> rfl
    rw [hsome, ← map_fst_positioned]
    exact (List.mergeSort_perm ..).map _
  exact (hsorted.append_left _).trans (List.filter_append_perm _ ds)

/-- A card written out: the label, the message, the place and the snippet, in three lines. -/
theorem card_true (d : Diagnostic) :
    d.card true = "\x1b[1m\x1b[31mValidationError\x1b[39m: " ++ d.message ++
      "\x1b[0m\n\x1b[2m  ┌ \x1b[0m" ++ d.place ++ "\n\x1b[2m  | \x1b[0m" ++ d.snippet := by
  have hlabel : "\x1b[1m\x1b[31mValidationError\x1b[39m: " =
      "" ++ "\x1b[1m" ++ "\x1b[31m" ++ label ++ "\x1b[39m" ++ ": " := by decide
  have hplace : "\x1b[0m\n\x1b[2m  ┌ \x1b[0m" =
      "\x1b[0m" ++ "\n" ++ "\x1b[2m" ++ "  ┌ " ++ "\x1b[0m" := by decide
  have hsnippet : "\n\x1b[2m  | \x1b[0m" = "\n" ++ "\x1b[2m" ++ "  | " ++ "\x1b[0m" := by decide
  rw [hlabel, hplace, hsnippet]
  simp only [card, parts, String.join, List.map_cons, List.map_nil, List.foldl_cons,
    List.foldl_nil, Part.render, Style.code, if_true, String.append_assoc]

end Diagnostic

namespace Arguments

variable {a : Arguments} {s : Surroundings}

/-- What a run shows of its files. -/
structure Reports (a : Arguments) (s : Surroundings) : Prop where
  /-- Nothing, if every file holds a tree that is valid as it must be. -/
  clean : (∀ file ∈ a.files, ∃ t, s.files.Holds file t ∧ a.accepts t = true) →
    (a.run s).exitCode = 0 ∧ ∀ color, (a.run s).message? color = none
  /-- Something, if not. -/
  fails : ¬ (∀ file ∈ a.files, ∃ t, s.files.Holds file t ∧ a.accepts t = true) →
    (a.run s).exitCode = 1 ∧ ∀ color, (a.run s).message? color ≠ none
  /-- The first file that holds no tree is complained about, whatever the files before it
      hold, and this is all. -/
  complains : (∃ file ∈ a.files, ¬ ∃ t, s.files.Holds file t) →
    ∃ before file after message, a.files = before ++ file :: after ∧
      (∀ f ∈ before, ∃ t, s.files.Holds f t) ∧ s.Complains file message ∧
      ∀ color, (a.run s).message? color = some message
  /-- If every file holds a tree, the diagnostics of all of them are shown: with colour a card
      of each, without it a line of each. -/
  shows : ∀ trees : String → Tree, (∀ file ∈ a.files, s.files.Holds file (trees file)) →
    ∀ ds, ds = a.files.flatMap (fun file => a.diagnose file (trees file)) → ds ≠ [] →
      (a.run s).message? true = some ("\n".intercalate (ds.map fun d =>
        "\x1b[1m\x1b[31mValidationError\x1b[39m: " ++ d.message ++
          "\x1b[0m\n\x1b[2m  ┌ \x1b[0m" ++ d.place ++ "\n\x1b[2m  | \x1b[0m" ++ d.snippet)) ∧
      ∃ lines : List Diagnostic, lines.Perm ds ∧
        (a.run s).message? false = some ("\n".intercalate (lines.map fun d =>
          "ValidationError: " ++ d.place ++ " " ++ d.message))
  /-- A tree with violations has a diagnostic of each of them, in order. -/
  lists : ∀ file t, t.violations (a.has .strict) ≠ [] →
    a.diagnose file t = (t.violations (a.has .strict)).map (.ofViolation file)
  /-- A tree that is not valid has as many diagnostics as violations, and one if there is none. -/
  counts : ∀ file t, (a.diagnose file t).length =
    if a.accepts t then 0 else max 1 (t.violations (a.has .strict)).length
  /-- A root is named as wrong iff it is, and nothing else is. -/
  names_root : ∀ file t, a.wrongRoot file t ∈ a.diagnose file t ↔
    t.violations (a.has .strict) = [] ∧ ¬ a.fits t = true
  /-- What is shown is all that is written, but for a log in front of it.  The log is about the
      files before the first that holds no tree. -/
  writes : ∀ (trees : String → Tree) (before after : List String), a.files = before ++ after →
    (∀ file ∈ before, s.files.Holds file (trees file)) →
    (∀ file ∈ after.head?, ¬ ∃ t, s.files.Holds file t) → ∀ supported,
      a.written s supported =
        (if a.level s = .debug then before.flatMap fun file => a.events (trees file)
          else []).mapIdx s.logLine ++ ((a.run s).message? (a.usesColor supported)).toList
  /-- Nothing is logged unless it is asked for. -/
  quiet : s.level? = none → a.has .verbose = false → ∀ supported,
    a.written s supported = ((a.run s).message? (a.usesColor supported)).toList

theorem reports (a : Arguments) (s : Surroundings) : a.Reports s where
  clean h := by
    have hholds : ∀ file ∈ a.files, ∃ t, s.files.Holds file t := fun file hfile =>
      (h file hfile).imp fun _ => And.left
    obtain ⟨trees, htrees⟩ := Files.exists_trees hholds
    have hnil : a.diagnosed trees a.files = [] := by
      refine List.flatMap_eq_nil_iff.2 fun file hfile => ?_
      obtain ⟨t, ht, haccepts⟩ := h file hfile
      rw [(htrees file hfile).unique ht]
      exact diagnose_of_accepts haccepts
    rw [run_of_holds htrees, hnil]
    exact ⟨rfl, fun _ => rfl⟩
  fails h := by
    by_cases hholds : ∀ file ∈ a.files, ∃ t, s.files.Holds file t
    · obtain ⟨trees, htrees⟩ := Files.exists_trees hholds
      rw [run_of_holds htrees]
      cases hds : a.diagnosed trees a.files with
      | nil =>
        refine absurd (fun file hfile => ⟨trees file, htrees file hfile, ?_⟩) h
        exact diagnose_eq_nil_iff.1 (List.flatMap_eq_nil_iff.1 hds file hfile)
      | cons d ds => exact ⟨rfl, fun _ => Option.some_ne_none _⟩
    · have hnone : ∃ file ∈ a.files, ¬ ∃ t, s.files.Holds file t := by
        simpa only [not_forall, exists_prop] using hholds
      obtain ⟨_, _, _, message, -, -, -, hcode, hmessage⟩ := run_of_not_holds hnone
      refine ⟨hcode, fun color => ?_⟩
      rw [hmessage color]
      exact Option.some_ne_none message
  complains h := by
    obtain ⟨before, file, after, message, hfiles, hbefore, hmessage, -, hshown⟩ :=
      run_of_not_holds h
    exact ⟨before, file, after, message, hfiles, hbefore, hmessage, hshown⟩
  shows trees htrees ds hds hne := by
    have hrun : (a.run s).outcome = .found ds := by
      rw [run_of_holds htrees, hds]
      rfl
    cases ds with
    | nil => exact absurd rfl hne
    | cons d ds =>
      have hcards : (d :: ds).map (Diagnostic.card true) = _ :=
        List.map_congr_left fun d _ => d.card_true
      refine ⟨?_, _, Diagnostic.arrange_perm (d :: ds), ?_⟩
      · rw [Course.message?, hrun, ← hcards]
        rfl
      · rw [Course.message?, hrun]
        rfl
  lists _ _ := diagnose_of_ne_nil
  counts := a.length_diagnose
  names_root _ _ := wrongRoot_mem_diagnose_iff
  writes trees before after hfiles hbefore hafter supported := by
    rw [written, Course.written, events_run hfiles hbefore hafter, loggedOf_eq]
  quiet hlevel hverbose supported := by
    have hwarn : a.level s = .warn := by
      rw [level, hlevel, hverbose]
      rfl
    obtain ⟨trees, before, after, hfiles, hbefore, hafter⟩ := s.exists_split a.files
    rw [written, Course.written, events_run hfiles hbefore hafter, loggedOf_eq, hwarn]
    rfl

end Arguments

/-- **A run is sound and reports everything.**  For all words that ask for a run, and whatever
    the files hold: the run is over the files that are named, with the flags that are given.
    It ends well and shows nothing iff every file is a text that holds exactly one document,
    the tree of which is valid in the mode of the flags.  The first file without a tree is all
    that is shown.  If there is none, each tree that is not valid has as many diagnostics as
    violations, but at least one; a wrong root is named iff there is no violation; and the
    diagnostics that are shown with colour and without are the same.  What is shown is all that
    is written, unless a log is asked for, which is written first. -/
theorem run_reports {words : List String} {a : Arguments}
    (h : Invocation.read? words = some (.check a)) (s : Surroundings) :
    a.files = Invocation.listed words ∧
    (∀ flag, a.has flag = true ↔ flag.name ∈ Invocation.leading words) ∧ a.Reports s := by
  obtain ⟨hfiles, hflags⟩ := Invocation.read?_check h
  exact ⟨hfiles, hflags, a.reports s⟩

/-- A file that holds an identifier, and one that holds no document. -/
def Surroundings.identifier : Surroundings where
  files file :=
    if file = "t.json" then .ok "\x7b\"type\":\"Identifier\",\"name\":\"a\"\x7d".toUTF8
    else if file = "u.json" then .ok "\x7b".toUTF8
    else .error .notFound
  refusal _ := "EOF while parsing an object at line 1 column 1"
  level? := none
  logLine _ event := event.line

namespace Surroundings

theorem identifier_holds : ∃ t, identifier.files.Holds "t.json" t ∧
    t.isValidExpression false = true ∧ t.kind? = some .identifier ∧ t.violations false = [] ∧
    t.describe = "Identifier" := by
  have hread : (Tree.read? "\x7b\"type\":\"Identifier\",\"name\":\"a\"\x7d").map
      (fun t => (t.isValidExpression false, t.kind?, (t.violations false).isEmpty, t.describe)) =
      some (true, some .identifier, true, "Identifier") := by
    decide +kernel
  obtain ⟨t, ht, hfacts⟩ := Option.map_eq_some_iff.1 hread
  simp only [Prod.mk.injEq, List.isEmpty_iff] at hfacts
  exact ⟨t, Files.holds_of_text rfl ht, hfacts⟩

theorem identifier_complains : identifier.Complains "u.json"
    "Error parsing u.json: EOF while parsing an object at line 1 column 1" := by
  have hnone : (Tree.read? "\x7b").map (fun _ => ()) = none := by decide +kernel
  exact .unparsable rfl (Files.fromUTF8?_toUTF8 _) (Option.map_eq_none_iff.1 hnone)

end Surroundings

/-- The identifier is a valid expression, but no program.  What is logged about it stands in front
    of the complaint about the other file. -/
theorem identifier_reported :
    (∃ a, Invocation.read? ["--expression", "--", "t.json"] = some (.check a) ∧
      (a.run .identifier).exitCode = 0 ∧ ∀ supported, a.written .identifier supported = []) ∧
    (∃ a, Invocation.read? ["t.json"] = some (.check a) ∧ (a.run .identifier).exitCode = 1 ∧
      a.written .identifier true =
        ["\x1b[1m\x1b[31mValidationError\x1b[39m: Identifier: root must be a Program\x1b[0m\n" ++
          "\x1b[2m  ┌ \x1b[0mt.json\n\x1b[2m  | \x1b[0mIdentifier"] ∧
      a.written .identifier false =
        ["ValidationError: t.json Identifier: root must be a Program"]) ∧
    ∃ a, Invocation.read? ["--verbose", "t.json", "u.json"] = some (.check a) ∧
      (a.run .identifier).exitCode = 1 ∧ ∀ supported, a.written .identifier supported =
        ["root is not a Program root=Identifier",
          "collected validation errors root=Identifier num_errors=0",
          "Error parsing u.json: EOF while parsing an object at line 1 column 1"] := by
  obtain ⟨t, hholds, hexpression, hkind, hnil, hdescribe⟩ := Surroundings.identifier_holds
  have hcomplains := Surroundings.identifier_complains
  have hall : ∀ file ∈ ["t.json"], Surroundings.identifier.files.Holds file t :=
    List.forall_mem_singleton.2 hholds
  have hfits : ∀ a : Arguments, a.has .expression = false → a.fits t = false := by
    intro a h
    rw [Arguments.fits, h, hkind]
    rfl
  have hrejects : ∀ a : Arguments, a.has .expression = false → ¬ a.accepts t = true := by
    intro a h haccepts
    have hfit := (Arguments.accepts_iff.1 haccepts).1
    rw [hfits a h] at hfit
    cases hfit
  have hclean : ∀ a : Arguments, a.has .strict = false → t.violations (a.has .strict) = [] := by
    intro a h
    rw [h, hnil]
  have hexpressions : Invocation.read? ["--expression", "--", "t.json"] =
      some (.check ⟨[.expression], ["t.json"]⟩) := by decide
  have hprograms : Invocation.read? ["t.json"] = some (.check ⟨[], ["t.json"]⟩) := by decide
  have hverbose : Invocation.read? ["--verbose", "t.json", "u.json"] =
      some (.check ⟨[.verbose], ["t.json", "u.json"]⟩) := by decide
  refine ⟨⟨_, hexpressions, ?_⟩, ⟨_, hprograms, ?_⟩, _, hverbose, ?_⟩
  · obtain ⟨-, -, hreports⟩ := run_reports hexpressions .identifier
    obtain ⟨hcode, hmessage⟩ := hreports.clean (List.forall_mem_singleton.2 ⟨t, hholds, hexpression⟩)
    refine ⟨hcode, fun supported => ?_⟩
    rw [hreports.quiet rfl rfl, hmessage]
    rfl
  · obtain ⟨-, -, hreports⟩ := run_reports hprograms .identifier
    have hfound : [⟨"t.json", none, "Identifier: root must be a Program", "Identifier"⟩] =
        ["t.json"].flatMap fun file => (⟨[], ["t.json"]⟩ : Arguments).diagnose file t := by
      rw [List.flatMap_singleton,
        Arguments.diagnose_of_nil (hrejects ⟨[], ["t.json"]⟩ rfl) (hclean _ rfl),
        Arguments.wrongRoot, hdescribe]
      rfl
    obtain ⟨hcards, lines, hperm, hlines⟩ :=
      hreports.shows (fun _ => t) hall _ hfound (List.cons_ne_nil _ _)
    obtain rfl := List.perm_singleton.1 hperm
    have hcode := (hreports.fails fun h => by
      obtain ⟨t', ht', haccepts⟩ := List.forall_mem_singleton.1 h
      rw [ht'.unique hholds] at haccepts
      exact hrejects _ rfl haccepts).1
    refine ⟨hcode, ?_, ?_⟩
    · rw [hreports.quiet rfl rfl, show Arguments.usesColor _ true = true from rfl, hcards]
      decide
    · rw [hreports.quiet rfl rfl, show Arguments.usesColor _ false = false from rfl, hlines]
      decide
  · obtain ⟨-, -, hreports⟩ := run_reports hverbose .identifier
    obtain ⟨before, file, after, message, hfiles, hbefore, hmessage, hshown⟩ :=
      hreports.complains ⟨"u.json", by decide, hcomplains.not_holds⟩
    have hnames : before ++ file :: after = ["t.json"] ++ "u.json" :: [] := hfiles.symm
    obtain rfl := Surroundings.first_unique hnames hbefore hmessage.not_holds
      (List.forall_mem_singleton.2 ⟨t, hholds⟩) hcomplains.not_holds
    obtain rfl := hmessage.unique hcomplains
    have hcode := (hreports.fails fun h =>
      hcomplains.not_holds ((h "u.json" (by decide)).imp fun _ => And.left)).1
    have hevents : (⟨[.verbose], ["t.json", "u.json"]⟩ : Arguments).events t =
        [.wrongRoot "a Program" "Identifier", .collected "Identifier" 0] := by
      rw [Arguments.events, hfits _ rfl, if_neg (hrejects _ rfl), hclean _ rfl, hdescribe]
      rfl
    refine ⟨hcode, fun supported => ?_⟩
    rw [hreports.writes (fun _ => t) ["t.json"] ["u.json"] rfl hall (fun file hfile => by
        obtain rfl := Option.some.inj hfile
        exact hcomplains.not_holds), hshown, List.flatMap_singleton, hevents]
    decide

end ScriptTree
/-
  The order of a report, and reports of files that are listed in another order.

  A report without colour is sorted by place, and diagnostics of one place keep the order in
  which they were found.  They are of one file, so the order of the files is not to be seen.

  * `mergeSort_eq_of_filter`: two lists are sorted alike if for every key they hold the same in
    the same order.
  * `Diagnostic.placeKey`: what a report is sorted by; `arrange_eq_of_filter`: two lists of
    diagnostics are reported alike if every file has the same ones in the same order.
  * `Diagnostic.Arranged`: what it is for diagnostics to be in the order of a report;
    `report_arranged`: there is one such order, and a report has it.
  * `filter_flatMap_file`: what is found of a file depends on how often it is listed.
  * `listing_irrelevant`: files that are permuted are reported alike, and the same is logged of
    them in another order.
-/
import Mathlib.Data.Prod.Lex
import Mathlib.Data.String.Basic
import Mathlib.Order.WithBot
import ScriptTree.Proofs.CommandRun

namespace ScriptTree

/-! ## Sorting by a key -/

section
variable {α K : Type} [LinearOrder K] {key : α → K} {xs ys : List α}

theorem key_le_trans (key : α → K) (a b c : α) (hab : decide (key a ≤ key b) = true)
    (hbc : decide (key b ≤ key c) = true) : decide (key a ≤ key c) = true := by
  rw [decide_eq_true_eq] at hab hbc ⊢
  exact hab.trans hbc

theorem key_le_total (key : α → K) (a b : α) :
    (decide (key a ≤ key b) || decide (key b ≤ key a)) = true := by
  rw [Bool.or_eq_true, decide_eq_true_eq, decide_eq_true_eq]
  exact le_total (key a) (key b)

/-- Sorting keeps the order of what has the same key. -/
theorem filter_mergeSort (key : α → K) (xs : List α) (k : K) :
    (xs.mergeSort fun a b => key a ≤ key b).filter (key · = k) = xs.filter (key · = k) := by
  have hsorted : (xs.filter (key · = k)).Pairwise fun a b => decide (key a ≤ key b) = true := by
    refine List.pairwise_iff_forall_sublist.2 fun {a b} hab => ?_
    have ha := List.of_mem_filter (hab.subset (by simp : a ∈ [a, b]))
    have hb := List.of_mem_filter (hab.subset (by simp : b ∈ [a, b]))
    simp only [decide_eq_true_eq] at ha hb ⊢
    exact (ha.trans hb.symm).le
  have hsublist : (xs.filter (key · = k)).Sublist (xs.mergeSort fun a b => key a ≤ key b) := by
    exact List.sublist_mergeSort (key_le_trans key) (key_le_total key) hsorted List.filter_sublist
  have hfilter := hsublist.filter (key · = k)
  rw [List.filter_filter] at hfilter
  simp only [Bool.and_self] at hfilter
  refine (hfilter.eq_of_length ?_).symm
  exact ((List.mergeSort_perm xs _).filter _).length_eq.symm

/-- A sorted list is made up of what it holds for each key. -/
theorem eq_of_pairwise_of_filter (hxs : xs.Pairwise fun a b => key a ≤ key b)
    (hys : ys.Pairwise fun a b => key a ≤ key b)
    (h : ∀ k, xs.filter (key · = k) = ys.filter (key · = k)) : xs = ys := by
  induction xs generalizing ys with
  | nil =>
    cases ys with
    | nil => rfl
    | cons y ys => simpa using h (key y)
  | cons x xs ih =>
    cases ys with
    | nil => simpa using h (key x)
    | cons y ys =>
      obtain ⟨hx, hxrest⟩ := List.pairwise_cons.1 hxs
      obtain ⟨hy, hyrest⟩ := List.pairwise_cons.1 hys
      -- each of the two first elements is in the other list as well, so they have one key
      have hmem : ∀ {z}, z ∈ x :: xs ↔ z ∈ y :: ys := by
        intro z
        have hz := congrArg (z ∈ ·) (h (key z))
        simpa [List.mem_filter] using hz
      have hxy : key x ≤ key y := by
        rcases List.mem_cons.1 (hmem.2 List.mem_cons_self) with rfl | hyx
        · exact le_rfl
        · exact hx y hyx
      have hyx : key y ≤ key x := by
        rcases List.mem_cons.1 (hmem.1 List.mem_cons_self) with rfl | hxy
        · exact le_rfl
        · exact hy x hxy
      have hkey : key y = key x := le_antisymm hyx hxy
      obtain ⟨rfl, -⟩ : x = y ∧ _ := by simpa [hkey] using h (key x)
      refine congrArg (x :: ·) (ih hxrest hyrest fun k => ?_)
      have hk := h k
      by_cases hxk : key x = k
      · simpa [hxk] using hk
      · simpa [hxk] using hk

theorem mergeSort_eq_of_filter (h : ∀ k, xs.filter (key · = k) = ys.filter (key · = k)) :
    (xs.mergeSort fun a b => key a ≤ key b) = ys.mergeSort fun a b => key a ≤ key b := by
  have hsorted : ∀ zs : List α,
      (zs.mergeSort fun a b => key a ≤ key b).Pairwise fun a b => key a ≤ key b := by
    intro zs
    simpa using List.pairwise_mergeSort (key_le_trans key) (key_le_total key) zs
  refine eq_of_pairwise_of_filter (hsorted xs) (hsorted ys) fun k => ?_
  rw [filter_mergeSort, filter_mergeSort, h]

end

/-! ## Reports -/

namespace Diagnostic

/-- What a report is sorted by: the file, then the line, then the column. -/
def placeKey (d : Diagnostic × Position) : String ×ₗ Nat ×ₗ Nat :=
  toLex (d.1.file, toLex (d.2.line, d.2.column))

theorem placeLe_eq (a b : Diagnostic × Position) :
    placeLe a b = decide (placeKey a ≤ placeKey b) := by
  rw [Bool.eq_iff_iff, decide_eq_true_eq, placeKey, placeKey, Prod.Lex.toLex_le_toLex,
    Prod.Lex.toLex_le_toLex]
  simp [placeLe]

theorem mergeSort_placeLe (xs : List (Diagnostic × Position)) :
    xs.mergeSort placeLe = xs.mergeSort fun a b => placeKey a ≤ placeKey b := by
  have hle : placeLe = fun a b => decide (placeKey a ≤ placeKey b) := by
    funext a b
    exact placeLe_eq a b
  rw [hle]

theorem positioned_filter (p : Diagnostic → Bool) (ds : List Diagnostic) :
    positioned (ds.filter p) = (positioned ds).filter fun x => p x.1 := by
  unfold positioned
  rw [List.filterMap_filter, List.filter_filterMap]
  refine List.filterMap_congr fun d _ => ?_
  cases d.position with
  | none => simp
  | some position => simp [Option.filter]

/-- What is found at a place is found in its file. -/
theorem filter_placeKey (ds : List Diagnostic) (k : String ×ₗ Nat ×ₗ Nat) :
    (positioned ds).filter (placeKey · = k) =
      (positioned (ds.filter (·.file = (ofLex k).1))).filter (placeKey · = k) := by
  rw [positioned_filter, List.filter_filter]
  refine List.filter_congr fun x _ => ?_
  by_cases hkey : placeKey x = k
  · have hfile : x.1.file = (ofLex k).1 := by rw [← hkey]; rfl
    simp [hkey, hfile]
  · simp [hkey]

/-- Diagnostics that all have a position are reported alike if every file has the same ones in
    the same order. -/
theorem arrange_eq_of_filter {ds ds' : List Diagnostic} (hplaced : ∀ d ∈ ds, d.position ≠ none)
    (hplaced' : ∀ d ∈ ds', d.position ≠ none)
    (h : ∀ file, ds.filter (·.file = file) = ds'.filter (·.file = file)) :
    arrange ds = arrange ds' := by
  have hnone : ∀ {ds : List Diagnostic}, (∀ d ∈ ds, d.position ≠ none) →
      ds.filter (·.position.isNone) = [] := by
    intro ds hplaced
    refine List.filter_eq_nil_iff.2 fun d hd hd' => hplaced d hd ?_
    exact Option.isNone_iff_eq_none.1 hd'
  rw [arrange, arrange, hnone hplaced, hnone hplaced', mergeSort_placeLe, mergeSort_placeLe,
    mergeSort_eq_of_filter fun k => ?_]
  rw [filter_placeKey ds, filter_placeKey ds', h]

/-! ## The order of a report -/

/-- A list of diagnostics as a report has them. -/
structure Arranged (ds arranged : List Diagnostic) : Prop where
  /-- Nothing is lost and nothing is doubled. -/
  perm : arranged.Perm ds
  /-- Those without a position come first, in their order.  The others follow, sorted by file,
      line and column. -/
  sorted : ∃ placed, arranged = ds.filter (·.position = none) ++ placed ∧
    (∀ d ∈ placed, d.position ≠ none) ∧
    placed.Pairwise fun a b => ∀ p q, a.position = some p → b.position = some q →
      placeKey (a, p) ≤ placeKey (b, q)
  /-- Those of one place keep their order. -/
  stable : ∀ file position,
    arranged.filter (fun d => d.file = file ∧ d.position = some position) =
      ds.filter (fun d => d.file = file ∧ d.position = some position)

/-- What a whole report is sorted by: no place comes before every place. -/
def reportKey (d : Diagnostic) : WithBot (String ×ₗ Nat ×ₗ Nat) :=
  d.position.elim ⊥ fun p => placeKey (d, p)

theorem reportKey_eq_bot_iff {d : Diagnostic} : d.reportKey = ⊥ ↔ d.position = none := by
  unfold reportKey
  cases d.position <;> simp

theorem reportKey_eq_coe_iff {d : Diagnostic} {k : String ×ₗ Nat ×ₗ Nat} :
    d.reportKey = k ↔ d.file = (ofLex k).1 ∧
      d.position = some ⟨(ofLex (ofLex k).2).1, (ofLex (ofLex k).2).2⟩ := by
  unfold reportKey
  cases hposition : d.position with
  | none => simp
  | some p =>
    rw [Option.elim_some, WithBot.coe_inj, Option.some.injEq]
    constructor
    · rintro rfl
      exact ⟨rfl, rfl⟩
    · rintro ⟨hfile, rfl⟩
      rw [placeKey, hfile]
      rfl

namespace Arranged

variable {ds arranged : List Diagnostic}

theorem pairwise_reportKey (h : Arranged ds arranged) :
    arranged.Pairwise fun a b => a.reportKey ≤ b.reportKey := by
  obtain ⟨placed, rfl, hplaced, hsorted⟩ := h.sorted
  have hbot : ∀ d ∈ ds.filter (·.position = none), d.reportKey = ⊥ := by
    intro d hd
    have hnone := List.of_mem_filter hd
    exact reportKey_eq_bot_iff.2 (of_decide_eq_true hnone)
  refine List.pairwise_append.2 ⟨?_, ?_, fun d hd b _ => ?_⟩
  · refine List.pairwise_of_forall_mem_list fun d hd b _ => ?_
    rw [hbot d hd]
    exact bot_le
  · refine hsorted.imp_of_mem fun {a b} ha hb hab => ?_
    obtain ⟨p, hp⟩ := Option.ne_none_iff_exists'.1 (hplaced a ha)
    obtain ⟨q, hq⟩ := Option.ne_none_iff_exists'.1 (hplaced b hb)
    rw [reportKey, reportKey, hp, hq]
    exact WithBot.coe_le_coe.2 (hab p q hp hq)
  · rw [hbot d hd]
    exact bot_le

theorem filter_reportKey (h : Arranged ds arranged) (k : WithBot (String ×ₗ Nat ×ₗ Nat)) :
    arranged.filter (reportKey · = k) = ds.filter (reportKey · = k) := by
  cases k with
  | bot =>
    obtain ⟨placed, rfl, hplaced, -⟩ := h.sorted
    have hnone : placed.filter (·.position = none) = [] :=
      List.filter_eq_nil_iff.2 fun d hd hnone => hplaced d hd (of_decide_eq_true hnone)
    simp only [reportKey_eq_bot_iff, List.filter_append, hnone, List.append_nil,
      List.filter_filter, Bool.and_self]
  | coe k =>
    simp only [reportKey_eq_coe_iff]
    exact h.stable _ _

/-- There is only one way to arrange a report. -/
theorem unique {other : List Diagnostic} (h : Arranged ds arranged) (h' : Arranged ds other) :
    other = arranged :=
  eq_of_pairwise_of_filter h'.pairwise_reportKey h.pairwise_reportKey fun k =>
    (h'.filter_reportKey k).trans (h.filter_reportKey k).symm

end Arranged

theorem mem_positioned_iff {ds : List Diagnostic} {x : Diagnostic × Position} :
    x ∈ positioned ds ↔ x.1 ∈ ds ∧ x.1.position = some x.2 := by
  obtain ⟨d, p⟩ := x
  simp only [positioned, List.mem_filterMap, Option.map_eq_some_iff, Prod.mk.injEq]
  constructor
  · rintro ⟨d, hd, p, hp, rfl, rfl⟩
    exact ⟨hd, hp⟩
  · rintro ⟨hd, hp⟩
    exact ⟨d, hd, p, hp, rfl, rfl⟩

/-- The part of a report that is sorted keeps the order of what is at one place. -/
theorem filter_place_mergeSort (ds : List Diagnostic) (file : String) (position : Position) :
    (((positioned ds).mergeSort placeLe).map (·.1)).filter
        (fun d => d.file = file ∧ d.position = some position) =
      ds.filter (fun d => d.file = file ∧ d.position = some position) := by
  have hkey : ∀ x ∈ positioned ds,
      decide (x.1.file = file ∧ x.1.position = some position) =
        decide (placeKey x = toLex (file, toLex (position.line, position.column))) := by
    rintro ⟨d, p⟩ hx
    obtain ⟨-, hp⟩ := mem_positioned_iff.1 hx
    have hiff : placeKey (d, p) = toLex (file, toLex (position.line, position.column)) ↔
        d.file = file ∧ p = position := by
      obtain ⟨line, column⟩ := position
      obtain ⟨line', column'⟩ := p
      simp [placeKey]
    rw [decide_eq_decide, hiff, hp, Option.some.injEq]
  rw [List.filter_map, Function.comp_def,
    List.filter_congr fun x hx => hkey x (List.mem_mergeSort.1 hx), mergeSort_placeLe,
    filter_mergeSort, ← List.filter_congr hkey,
    ← positioned_filter fun d => decide (d.file = file ∧ d.position = some position),
    map_fst_positioned, List.filter_filter]
  refine List.filter_congr fun d _ => ?_
  by_cases hposition : d.position = some position
  · simp [hposition]
  · simp [hposition]

theorem arranged_arrange (ds : List Diagnostic) : Arranged ds (arrange ds) where
  perm := arrange_perm ds
  sorted := by
    have hnone : ds.filter (·.position.isNone) = ds.filter (·.position = none) :=
      List.filter_congr fun d _ => by cases d.position <;> rfl
    refine ⟨((positioned ds).mergeSort placeLe).map (·.1), by rw [arrange, hnone], ?_, ?_⟩
    · intro d hd
      obtain ⟨x, hx, rfl⟩ := List.mem_map.1 hd
      rw [(mem_positioned_iff.1 (List.mem_mergeSort.1 hx)).2]
      exact Option.some_ne_none _
    · rw [mergeSort_placeLe, List.pairwise_map]
      have hsorted := List.pairwise_mergeSort (key_le_trans placeKey) (key_le_total placeKey)
        (positioned ds)
      refine hsorted.imp_of_mem fun {x y} hx hy hxy p q hp hq => ?_
      rw [(mem_positioned_iff.1 (List.mem_mergeSort.1 hx)).2, Option.some.injEq] at hp
      rw [(mem_positioned_iff.1 (List.mem_mergeSort.1 hy)).2, Option.some.injEq] at hq
      subst hp hq
      exact of_decide_eq_true hxy
  stable file position := by
    have hnone : (ds.filter (·.position.isNone)).filter
        (fun d => d.file = file ∧ d.position = some position) = [] := by
      refine List.filter_eq_nil_iff.2 fun d hd hplaced => ?_
      have hposition := List.of_mem_filter hd
      rw [(of_decide_eq_true hplaced).2] at hposition
      cases hposition
    rw [arrange, List.filter_append, hnone, List.nil_append, filter_place_mergeSort]

/-- **A report lists all diagnostics in a stable order.**  Its lines, joined by line breaks, are
    those of the diagnostics in the one arrangement in which nothing is lost or doubled, those
    without a position come first in their order, the others follow by file, line and column,
    and those of one place keep their order. -/
theorem report_arranged (ds : List Diagnostic) : ∃ arranged, Arranged ds arranged ∧
    (∀ other, Arranged ds other → other = arranged) ∧
    report ds = "\n".intercalate (arranged.map line) :=
  ⟨arrange ds, arranged_arrange ds, fun _ h => (arranged_arrange ds).unique h, rfl⟩

end Diagnostic

/-! ## Files in another order -/

/-- What is found of a file among all files is what is found of it alone, as often as it is
    listed. -/
theorem filter_flatMap_file {found : String → List Diagnostic}
    (hfound : ∀ name, ∀ d ∈ found name, d.file = name) (names : List String) (file : String) :
    (names.flatMap found).filter (·.file = file) =
      (List.replicate (names.count file) file).flatMap found := by
  induction names with
  | nil => rfl
  | cons name names ih =>
    rw [List.flatMap_cons, List.filter_append, ih]
    by_cases hname : name = file
    · subst hname
      have hall : (found name).filter (·.file = name) = found name :=
        List.filter_eq_self.2 fun d hd => decide_eq_true (hfound name d hd)
      rw [hall, List.count_cons_self, List.replicate_succ, List.flatMap_cons]
    · have hnone : (found name).filter (·.file = file) = [] := by
        refine List.filter_eq_nil_iff.2 fun d hd hfile => hname ?_
        rw [← hfound name d hd, of_decide_eq_true hfile]
      rw [hnone, List.count_cons_of_ne hname, List.nil_append]

namespace Arguments

variable {a a' : Arguments}

theorem accepts_congr (h : ∀ flag, a'.has flag = a.has flag) (t : Tree) :
    a'.accepts t = a.accepts t := by
  rw [accepts, accepts, h, h]

theorem expectation_congr (h : ∀ flag, a'.has flag = a.has flag) :
    a'.expectation = a.expectation := by
  rw [expectation, expectation, h]

/-- The flags alone decide what is said about a tree. -/
theorem diagnose_congr (h : ∀ flag, a'.has flag = a.has flag) (file : String) (t : Tree) :
    a'.diagnose file t = a.diagnose file t := by
  rw [diagnose, diagnose, accepts_congr h, wrongRoot, wrongRoot, expectation_congr h, h]

/-- They alone decide what is logged of it. -/
theorem logged_congr (h : ∀ flag, a'.has flag = a.has flag) (s : Surroundings) (t : Tree) :
    a'.logged s t = a.logged s t := by
  have hfits : a'.fits t = a.fits t := by
    rw [fits, fits, h]
  have hsubject : a'.subject = a.subject := by
    rw [subject, subject, h]
  have hevents : a'.events t = a.events t := by
    rw [events, events, hfits, hsubject, accepts_congr h, expectation_congr h, h]
  rw [logged, logged, hevents, level, level, h]

end Arguments

/-- **A report without colour does not depend on the order of the files.**  Of files that all
    hold a tree, and the diagnostics of which all have a position, a run with the same flags
    over any permutation of the list, in which files may be repeated, shows the same text and
    ends with the same code.  The same events are logged in another order, so that all that is
    written is the same if nothing is logged. -/
theorem listing_irrelevant {a a' : Arguments} {s : Surroundings}
    (hflags : ∀ flag, a'.has flag = a.has flag) (hlisted : a'.files.Perm a.files)
    (hholds : ∀ file ∈ a.files, ∃ t, s.files.Holds file t)
    (hplaced : ∀ file ∈ a.files, ∀ t, s.files.Holds file t →
      ∀ d ∈ a.diagnose file t, d.position ≠ none) :
    (a'.run s).message? false = (a.run s).message? false ∧
      (a'.run s).exitCode = (a.run s).exitCode ∧
      (a'.run s).events.Perm (a.run s).events ∧
      (s.level? = none → a.has .verbose = false → ∀ supported, a.usesColor supported = false →
        a'.written s supported = a.written s supported) := by
  obtain ⟨trees, htrees⟩ := Files.exists_trees hholds
  have htrees' : ∀ file ∈ a'.files, s.files.Holds file (trees file) := fun file hfile =>
    htrees file (hlisted.mem_iff.1 hfile)
  let found := fun file => a.diagnose file (trees file)
  have hrun : a.run s = ⟨a.loggedOf s trees a.files, .found (a.files.flatMap found)⟩ :=
    Arguments.run_of_holds htrees
  have hrun' : a'.run s = ⟨a.loggedOf s trees a'.files, .found (a'.files.flatMap found)⟩ := by
    rw [Arguments.run_of_holds htrees']
    simp only [Arguments.diagnosed, Arguments.loggedOf, Arguments.diagnose_congr hflags,
      Arguments.logged_congr hflags, found]
  have hevents : (a'.run s).events.Perm (a.run s).events := by
    rw [hrun, hrun']
    exact hlisted.flatMap_right _
  have hfile : ∀ name, ∀ d ∈ found name, d.file = name := fun name d hd =>
    Arguments.file_of_mem_diagnose hd
  have hposition : ∀ d ∈ a.files.flatMap found, d.position ≠ none := by
    intro d hd
    obtain ⟨file, hmem, hd⟩ := List.mem_flatMap.1 hd
    exact hplaced file hmem _ (htrees file hmem) d hd
  have hperm : (a'.files.flatMap found).Perm (a.files.flatMap found) :=
    hlisted.flatMap_right found
  have hreport : Diagnostic.report (a'.files.flatMap found) =
      Diagnostic.report (a.files.flatMap found) := by
    have harrange := Diagnostic.arrange_eq_of_filter
      (fun d hd => hposition d (hperm.mem_iff.1 hd)) hposition fun file => by
        rw [filter_flatMap_file hfile, filter_flatMap_file hfile, hlisted.count_eq]
    rw [Diagnostic.report, Diagnostic.report, harrange]
  have hshown : (a'.run s).message? false = (a.run s).message? false ∧
      (a'.run s).exitCode = (a.run s).exitCode := by
    rw [hrun, hrun']
    cases hds : a.files.flatMap found with
    | nil =>
      rw [hds] at hperm
      rw [hperm.eq_nil]
      exact ⟨rfl, rfl⟩
    | cons d ds =>
      cases hds' : a'.files.flatMap found with
      | nil =>
        rw [hds, hds'] at hperm
        cases hperm.symm.eq_nil
      | cons d' ds' =>
        rw [hds, hds'] at hreport
        exact ⟨congrArg some hreport, rfl⟩
  refine ⟨hshown.1, hshown.2, hevents, fun hlevel hquiet supported hplain => ?_⟩
  have hplain' : a'.usesColor supported = false := by
    rw [← hplain, Arguments.usesColor, Arguments.usesColor, hflags]
  rw [(a.reports s).quiet hlevel hquiet, (a'.reports s).quiet hlevel (by rw [hflags, hquiet]),
    hplain, hplain', hshown.1]

/-- A node of an unknown type, with its position. -/
def unknownNode : String :=
  "\x7b\"type\":\"X\",\"loc\":\x7b\"start\":\x7b\"line\":2,\"column\":0\x7d\x7d\x7d"

/-- Every file holds that node. -/
def Surroundings.unknownNodes : Surroundings where
  files _ := .ok unknownNode.toUTF8
  refusal _ := ""
  level? := none
  logLine _ event := event.line

/-- Files that all hold that node are reported alike in any order, one of them twice. -/
theorem unknownNode_reported :
    let written := fun names => (⟨[.strict], names⟩ : Arguments).written .unknownNodes false
    let run := fun names => (⟨[.strict], names⟩ : Arguments).run .unknownNodes
    written ["b.json", "a.json", "b.json"] = written ["a.json", "b.json", "b.json"] ∧
    (run ["b.json", "a.json", "b.json"]).exitCode = (run ["a.json", "b.json", "b.json"]).exitCode ∧
    (run ["a.json", "b.json", "b.json"]).exitCode = 1 := by
  intro written run
  have hread : (Tree.read? unknownNode).map
      (fun t => (t.violations true).map (·.owner.value.position?)) = some [some ⟨2, 0⟩] := by
    decide +kernel
  obtain ⟨t, ht, hpositions⟩ := Option.map_eq_some_iff.1 hread
  have hholds : ∀ file, Surroundings.unknownNodes.files.Holds file t := fun file =>
    Files.holds_of_text rfl ht
  let a : Arguments := ⟨[.strict], ["a.json", "b.json", "b.json"]⟩
  let a' : Arguments := ⟨[.strict], ["b.json", "a.json", "b.json"]⟩
  have hne : t.violations (a.has .strict) ≠ [] := by
    intro hnil
    rw [show t.violations true = [] from hnil] at hpositions
    cases hpositions
  have hplaced : ∀ file ∈ a.files, ∀ t', Surroundings.unknownNodes.files.Holds file t' →
      ∀ d ∈ a.diagnose file t', d.position ≠ none := by
    intro file _ t' ht' d hd
    rw [ht'.unique (hholds file), Arguments.diagnose_of_ne_nil hne] at hd
    obtain ⟨v, hv, rfl⟩ := List.mem_map.1 hd
    have hmem : v.owner.value.position? ∈ (t.violations true).map (·.owner.value.position?) :=
      List.mem_map_of_mem hv
    rw [hpositions, List.mem_singleton] at hmem
    simp [Diagnostic.ofViolation, hmem]
  have hflags : ∀ flag, a'.has flag = a.has flag := fun _ => rfl
  have hlisted : a'.files.Perm a.files := .swap ..
  obtain ⟨-, hcode, -, hwritten⟩ :=
    listing_irrelevant hflags hlisted (fun file _ => ⟨t, hholds file⟩) hplaced
  refine ⟨hwritten rfl rfl false rfl, hcode, ((a.reports _).fails fun h => ?_).1⟩
  obtain ⟨t', ht', haccepts⟩ := h "a.json" List.mem_cons_self
  rw [ht'.unique (hholds _)] at haccepts
  exact hne (Arguments.accepts_iff.1 haccepts).2

end ScriptTree

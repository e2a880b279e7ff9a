import Assay.Proofs.Diagnosis
import Assay.Proofs.Search

/-!
# Collecting exactly what is there

KLEE's files are searched for by a pattern that is made of the escaped path of the directory:
`pattern`. `collect_exact` says that this finds what it should. Whatever characters the directory's
path has, the inputs collected are those of the error files in that directory, or all inputs in it
at higher replay levels, `Exact`; nothing from another directory is among them.

A path can only be searched for in an operating system that takes it. If a component that is looked
up as it is holds a null character, there is a fault instead of a list:
`collect_never_lists_null`.
-/

namespace Assay.Counterexample

variable {c : Config} {output p : Path} {tail id name : String} {names : List String}
  {paths : List Path} {h : Host} {w : World} {d : Disk}

/-! ## Names -/

/-- The name of a test's file with this tail. -/
def isTestFile (tail name : String) : Bool :=
  Text.startsWith testHead name && Text.endsWith tail name

/-- The name is that of an error file of this test, with or without the kind of the error. -/
def IsErrorFile (id name : String) : Prop :=
  '.' ∉ id.toList ∧ (name = testHead ++ id ++ errorTail ∨
    ∃ kind, kind ≠ "" ∧ '.' ∉ kind.toList ∧ name = testHead ++ id ++ "." ++ kind ++ errorTail)

theorem not_mem_test (hid : '.' ∉ id.toList) : '.' ∉ (testHead ++ id).toList := by
  rw [String.toList_append, List.mem_append, not_or]
  exact ⟨by decide, hid⟩

theorem test_ne_nil (id : String) : (testHead ++ id).toList ≠ [] := by
  rw [String.toList_append]
  exact List.append_ne_nil_of_left_ne_nil (by decide) _

/-- An error file that tells the kind of its error belongs to the same test. -/
theorem inputName_kind {test kind : String} (ht : test.toList ≠ []) (hk : kind ≠ "")
    (hd : '.' ∉ kind.toList) :
    inputName (test ++ "." ++ kind ++ errorTail) = test ++ inputTail := by
  have htail : errorTail.toList = '.' :: ['e', 'r', 'r'] := by decide
  have hdot : ".".toList = ['.'] := by decide
  have hkind : kind.toList ≠ [] := fun h => hk (String.toList_eq_nil_iff.mp h)
  have hstem : test.toList ++ ['.'] ++ kind.toList ≠ [] :=
    List.append_ne_nil_of_right_ne_nil _ hkind
  unfold inputName
  rw [String.toList_append, String.toList_ofList, String.toList_append, String.toList_append,
    String.toList_append, htail, hdot, Path.stemOf_append hstem (by decide) (by decide),
    show "".toList = [] from rfl, List.append_nil, List.append_assoc, List.singleton_append,
    Path.stemOf_append ht hkind hd, String.ofList_toList]

/-- The input that an error file stands for is that of its test. -/
theorem IsErrorFile.inputName_eq (hn : IsErrorFile id name) :
    inputName name = testHead ++ id ++ inputTail := by
  obtain ⟨hid, rfl | ⟨kind, hne, hkind, rfl⟩⟩ := hn
  · exact inputName_error (test_ne_nil id) (not_mem_test hid)
  · exact inputName_kind (test_ne_nil id) hne hkind

/-- An input is in the directory. -/
theorem ne_up_of_endsWith (hn : Text.endsWith inputTail name = true) : name ≠ ".." := by
  rintro rfl
  exact absurd hn (by decide)

theorem ne_up_inputName (name : String) : inputName name ≠ ".." := by
  refine ne_up_of_endsWith (Text.endsWith_iff.mpr ?_)
  unfold inputName
  rw [String.toList_append]
  exact List.suffix_append _ _

/-! ## The search -/

/-- The pattern for a test's files with this tail. -/
def pattern (output : Path) (tail : String) : Path :=
  (Path.parse (Pattern.escape output.text)).child (Pattern.between testHead tail)

/-- The names that the pattern's last component stands for. -/
theorem matched_between (hplain : Pattern.isPlain tail = true) (hdot : tail.toList.head? = some '.')
    (d : Disk) (output : Path) :
    d.matched output (Pattern.between testHead tail) =
      (d.contents output).filter (isTestFile tail) := by
  unfold Disk.matched
  refine List.filter_congr fun n _ => ?_
  rw [Bool.eq_iff_iff, isTestFile, Bool.and_eq_true, Bool.and_eq_true,
    Pattern.isMatch_between_iff (by decide) hplain hdot (by decide), and_iff_right_of_imp]
  rintro ⟨hhead, -⟩
  -- a name that begins like a test's is not hidden
  obtain ⟨rest, hn⟩ := Text.startsWith_iff.mp hhead
  have hvisible : Disk.isHidden n = false := by
    unfold Disk.isHidden
    rw [← hn]
    rfl
  rw [hvisible, Bool.not_false, Bool.or_true]

/-- **Nothing but the directory's own files is found** by the pattern. -/
theorem search_pattern (hp : output.Proper) (hd : d.WellFormed)
    (hplain : Pattern.isPlain tail = true) (hdot : tail.toList.head? = some '.') :
    d.search (pattern output tail) =
      ((d.contents output).filter (isTestFile tail)).map output.child := by
  rw [pattern, Path.parse_escape hp, hd.search_escaped hp (Pattern.isPlain_between testHead tail),
    matched_between hplain hdot]

theorem matching_run (ho : ¬ Unsearchable output) (tail : String) :
    (matching output tail).run h w =
      (.ok (Path.sort (((w.disk.contents output).filter (isTestFile tail)).map output.child)), w) := by
  unfold matching
  rw [if_neg (mt any_fixedParts_iff.mp ho)]
  unfold Disk.contents
  split
  case isTrue =>
    rw [List.filter_nil, List.map_nil, Path.sort, List.mergeSort_nil]
    rfl
  case isFalse =>
    rw [Action.bind_of_ok (Action.disk_run h w)]
    rfl

theorem failures_run (ho : ¬ Unsearchable output) :
    ∃ w', (failures output).run h w = (.ok (Path.sort
      (((w.disk.contents output).filter (isTestFile errorTail)).map output.child)), w') := by
  unfold failures
  rw [Action.bind_of_ok (matching_run ho errorTail)]
  exact ⟨_, rfl⟩

/-- The inputs that the searches of a disk find. -/
def searched (c : Config) (output : Path) (d : Disk) : List Path :=
  if 1 < c.replay then Path.sort (d.search (pattern output inputTail))
  else Path.sort ((Path.sort (d.search (pattern output errorTail))).map inputOf)

/-- **Collecting is searching** by the pattern. -/
theorem collect_run (hp : output.Proper) (hd : w.disk.WellFormed) (ho : ¬ Unsearchable output) :
    ∃ w', (collect .klee c output).run h w = (.ok (searched c output w.disk), w') ∧
      w'.deeds = w.deeds := by
  have hkeeps := keeps_collect Action.logFree_deeds .klee c output h w
  suffices hrun : ∃ w', (collect .klee c output).run h w = (.ok (searched c output w.disk), w') by
    obtain ⟨w', hrun⟩ := hrun
    rw [hrun] at hkeeps
    exact ⟨w', hrun, hkeeps⟩
  unfold searched collect
  dsimp only
  split
  case isTrue =>
    rw [search_pattern hp hd (by decide) (by decide)]
    exact ⟨w, matching_run ho inputTail⟩
  case isFalse =>
    obtain ⟨w', hfailures⟩ := failures_run (h := h) (w := w) ho
    rw [search_pattern hp hd (by decide) (by decide)]
    exact ⟨w', Action.bind_of_ok hfailures _⟩

/-! ## Exactness -/

theorem pairwise_sort (ps : List Path) : (Path.sort ps).Pairwise fun p q => p.le q = true := by
  refine List.pairwise_mergeSort (fun a b c hab hbc => ?_) (fun a b => ?_) ps
  · exact Path.le_iff.mpr (List.le_trans (Path.le_iff.mp hab) (Path.le_iff.mp hbc))
  · rw [Bool.or_eq_true, Path.le_iff, Path.le_iff]
    exact List.le_total _ _

theorem perm_sort (ps : List Path) : (Path.sort ps).Perm ps :=
  List.mergeSort_perm ps Path.le

/-- The paths are those of the inputs in a directory whose entries have these names. -/
structure Exact (c : Config) (output : Path) (names : List String) (paths : List Path) : Prop where
  sorted : paths.Pairwise fun p q => p.le q = true
  inside : ∀ p ∈ paths, ∃ name, Path.IsPart name ∧ name ≠ ".." ∧ p = output.child name
  /-- For every error file the input of its test, provided that all are named as KLEE does. -/
  failing : c.replay ≤ 1 → ∀ test : String → String,
    (∀ name ∈ names, isTestFile errorTail name = true → IsErrorFile (test name) name) →
      paths.Perm ((names.filter (isTestFile errorTail)).map fun name =>
        output.child (testHead ++ test name ++ inputTail))
  all : 1 < c.replay → paths.Perm ((names.filter (isTestFile inputTail)).map output.child)

theorem sorted_searched (c : Config) (output : Path) (d : Disk) :
    (searched c output d).Pairwise fun p q => p.le q = true := by
  unfold searched
  split <;> exact pairwise_sort _

section

variable (hp : output.Proper) (hd : d.WellFormed) (hnames : (d.contents output).Perm names)

include hp hd hnames

theorem searched_all (hall : 1 < c.replay) : (searched c output d).Perm
    ((names.filter (isTestFile inputTail)).map output.child) := by
  unfold searched
  rw [if_pos hall, search_pattern hp hd (by decide) (by decide)]
  exact (perm_sort _).trans ((hnames.filter _).map _)

theorem searched_failing (hfew : ¬ 1 < c.replay) : (searched c output d).Perm
    ((names.filter (isTestFile errorTail)).map fun name => output.child (inputName name)) := by
  have hinputs : (fun name => output.child (inputName name)) = inputOf ∘ output.child :=
    funext fun name => (inputOf_child output name).symm
  unfold searched
  rw [if_neg hfew, search_pattern hp hd (by decide) (by decide), hinputs, ← List.map_map]
  exact (perm_sort _).trans (((perm_sort _).trans ((hnames.filter _).map _)).map _)

theorem exact_searched (hparts : ∀ name ∈ names, Path.IsPart name) :
    Exact c output names (searched c output d) where
  sorted := sorted_searched c output d
  inside := by
    intro p hmem
    by_cases hall : 1 < c.replay
    · rw [(searched_all hp hd hnames hall).mem_iff, List.mem_map] at hmem
      obtain ⟨name, hname, rfl⟩ := hmem
      obtain ⟨hname, htest⟩ := List.mem_filter.mp hname
      exact ⟨name, hparts name hname, ne_up_of_endsWith (Bool.and_eq_true_iff.mp htest).2, rfl⟩
    · rw [(searched_failing hp hd hnames hall).mem_iff, List.mem_map] at hmem
      obtain ⟨name, hname, rfl⟩ := hmem
      have hpart := hparts name (List.mem_filter.mp hname).1
      exact ⟨inputName name, isPart_inputName hpart, ne_up_inputName name, rfl⟩
  failing := by
    intro hfew test htest
    have hinputs : (names.filter (isTestFile errorTail)).map
        (fun name => output.child (inputName name)) =
          (names.filter (isTestFile errorTail)).map fun name =>
            output.child (testHead ++ test name ++ inputTail) := by
      refine List.map_congr_left fun name hname => ?_
      obtain ⟨hmem, hfile⟩ := List.mem_filter.mp hname
      rw [(htest name hmem hfile).inputName_eq]
    rw [← hinputs]
    exact searched_failing hp hd hnames (Int.not_lt.mpr hfew)
  all := searched_all hp hd hnames

end

/-- **Collecting is exact**: in a directory whose entries have these names, just their inputs are
found, and they are what the search for the escaped path gives. Every directory may be listed. -/
theorem collect_exact (hp : output.Proper) (ho : ¬ Unsearchable output) (hd : w.disk.WellFormed)
    (hparts : ∀ name ∈ names, Path.IsPart name) (hnodup : names.Nodup)
    (hnames : ∀ name, name ∈ names ↔ w.disk.Holds output name) :
    ∃ paths w', (collect .klee c output).run h w = (.ok paths, w') ∧ w'.deeds = w.deeds ∧
      paths = searched c output w.disk ∧ Exact c output names paths := by
  obtain ⟨w', hrun, hdeeds⟩ := collect_run (c := c) (h := h) hp hd ho
  have hperm : (w.disk.contents output).Perm names :=
    (List.perm_ext_iff_of_nodup (hd.nodup_contents output) hnodup).mpr fun name =>
      hd.mem_contents.trans (hnames name).symm
  exact ⟨_, w', hrun, hdeeds, rfl, exact_searched hp hd hperm hparts⟩

/-! ## Samples -/

open Scheduler (emptyDisk)
open Checker (sampleDisk)

/-- The place of a job whose name is a pattern for that of another one. -/
def wildPlace : Path :=
  ⟨.relative, ["kleeout", "[t]"]⟩

def wildDisk : Disk :=
  (((sampleDisk.insert ["kleeout", "t"] .directory).insert ["kleeout", "t", "test2.err"]
    (.file [])).insert ["kleeout", "[t]"] .directory).insert ["kleeout", "[t]", "test1.ptr.err"]
      (.file [])

theorem proper_wildPlace : wildPlace.Proper := by decide

theorem wildDisk_wellFormed : wildDisk.WellFormed := by
  have hother : (sampleDisk.insert (["kleeout"] ++ ["t"]) .directory).WellFormed :=
    Checker.sampleDisk_wellFormed.insert (by decide) (by decide) .directory
  have hfile : ((sampleDisk.insert ["kleeout", "t"] .directory).insert
      (["kleeout", "t"] ++ ["test2.err"]) (.file [])).WellFormed :=
    hother.insert (by decide) (by decide) (.file [])
  have hplace : (((sampleDisk.insert ["kleeout", "t"] .directory).insert
      ["kleeout", "t", "test2.err"] (.file [])).insert
        (["kleeout"] ++ ["[t]"]) .directory).WellFormed :=
    hfile.insert (by decide) (by decide) .directory
  have hnone : ((((sampleDisk.insert ["kleeout", "t"] .directory).insert
      ["kleeout", "t", "test2.err"] (.file [])).insert ["kleeout", "[t]"] .directory).get?
        (["kleeout", "[t]"] ++ ["test1.ptr.err"])) = none := by decide
  exact hplace.insert hnone (by decide) (.file [])

theorem contents_wildDisk : wildDisk.contents wildPlace = ["test1.ptr.err"] := by
  have hkleeout : wildDisk.directoryAt? (Disk.hereDir.child "kleeout") = some ["kleeout"] :=
    Disk.directoryAt?_child Disk.proper_hereDir (by decide) (by decide)
      (Disk.directoryAt?_hereDir wildDisk) (by decide)
  have hdir : wildDisk.directoryAt? wildPlace = some ["kleeout", "[t]"] :=
    Disk.directoryAt?_child (by decide) (by decide) (by decide) hkleeout (by decide)
  rw [Disk.contents_of_directoryAt (by decide) hdir]
  decide

/-- The place is searched itself, although its name is a pattern for the other one. -/
theorem collect_exact_wild :
    wildPlace.Proper ∧ ¬ Unsearchable wildPlace ∧ wildDisk.WellFormed ∧
      (∀ name ∈ ["test1.ptr.err"], Path.IsPart name) ∧ ["test1.ptr.err"].Nodup ∧
      (∀ name, name ∈ ["test1.ptr.err"] ↔ wildDisk.Holds wildPlace name) ∧
      ∃ w', (collect .klee (Config.standard 1) wildPlace).run (Checker.saying [])
        (World.begin wildDisk) = (.ok [wildPlace.child "test1.ktest"], w') := by
  have ho : ¬ Unsearchable wildPlace := by
    unfold Unsearchable
    decide
  have hparts : ∀ name ∈ ["test1.ptr.err"], Path.IsPart name := by decide
  have hnodup : ["test1.ptr.err"].Nodup := List.nodup_singleton _
  have hnames : ∀ name, name ∈ ["test1.ptr.err"] ↔ wildDisk.Holds wildPlace name := by
    intro name
    rw [← contents_wildDisk, wildDisk_wellFormed.mem_contents]
  obtain ⟨paths, w', hrun, -, -, hexact⟩ := collect_exact (c := Config.standard 1)
    (h := Checker.saying []) (w := World.begin wildDisk) proper_wildPlace ho wildDisk_wellFormed
    hparts hnodup hnames
  have htest : ∀ name ∈ ["test1.ptr.err"], isTestFile errorTail name = true →
      IsErrorFile "1" name := by
    intro name hname _
    rw [List.mem_singleton.mp hname]
    exact ⟨by decide, .inr ⟨"ptr", by decide, by decide, by decide⟩⟩
  have hperm := hexact.failing (by decide) (fun _ => "1") htest
  have hfilter : ["test1.ptr.err"].filter (isTestFile errorTail) = ["test1.ptr.err"] := by decide
  rw [hfilter, List.map_singleton, List.perm_singleton] at hperm
  exact ⟨proper_wildPlace, ho, wildDisk_wellFormed, hparts, hnodup, hnames, w', hperm ▸ hrun⟩

/-- The place of a job with a null character in its name. -/
def nullPlace : Path :=
  ⟨.relative, ["kleeout", "a\x00b"]⟩

/-- There is no list for a path that the operating system does not take. -/
theorem collect_never_lists_null :
    nullPlace.Proper ∧ emptyDisk.WellFormed ∧
      ¬ ∃ paths w', (collect .klee (Config.standard 1) nullPlace).run (Checker.saying [])
        (World.begin emptyDisk) = (.ok paths, w') := by
  have hproper : nullPlace.Proper := by decide
  have ho : Unsearchable nullPlace := by
    unfold Unsearchable
    decide
  refine ⟨hproper, Scheduler.emptyDisk_wellFormed, ?_⟩
  rintro ⟨paths, w', hrun⟩
  obtain ⟨e, hraise⟩ := collect_raises (c := Config.standard 1) ho (Checker.saying [])
    (World.begin emptyDisk)
  rw [hrun] at hraise
  cases hraise

end Assay.Counterexample

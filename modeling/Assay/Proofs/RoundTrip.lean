import Assay.Proofs.Directories
import Assay.Proofs.Report

/-!
# Reports are read back

`load_appends`: suites that are appended to a report one after the other are what is loaded from it,
all of them and in this order. What each suite keeps up is that the disk is the one on which the
report was begun, with a file at its place that consists of the lines so far: `append_next`.
-/

namespace Assay.Report

variable {path : Path} {h : Host} {w w₁ : World} {d : Disk} {loc : Location} {name : String}
  {s : Suite} {suites : List Suite} {depth : Nat}

/-! ## The lines of suites -/

/-- The bytes of suites, each on a line of its own. -/
def bytesOf (suites : List Suite) : Text.Bytes :=
  suites.flatMap fun s => Text.encode (line s)

theorem bytesOf_concat (written : List Suite) (s : Suite) :
    bytesOf (written ++ [s]) = bytesOf written ++ Text.encode (line s) := by
  unfold bytesOf
  rw [List.flatMap_append, List.flatMap_singleton]

theorem encode_line (s : Suite) : Text.encode (line s) = Text.encode s.toJson.render ++ [10] := by
  unfold Text.encode line
  rw [String.toList_append, List.flatMap_append]
  rfl

theorem bytesOf_eq (suites : List Suite) :
    bytesOf suites =
      (suites.map fun s => Text.encode s.toJson.render).flatMap fun b => b ++ [10] := by
  unfold bytesOf
  rw [List.flatMap_map]
  exact List.flatMap_congr fun s _ => encode_line s

/-- The lines of suites hold these suites, and are read without a word. -/
theorem readLines_print (path : Path) (hs : ∀ s ∈ suites, s.Recordable) (hd : Suite.depth ≤ depth)
    (h : Host) (w : World) :
    (readLines depth path (suites.map fun s => s.toJson.print)).run h w = (.ok suites, w) := by
  have hmap : ((suites.map fun s => s.toJson.print).mapM (readLine depth path)).run h w =
      (.ok (suites.map fun s => [s]), w) := by
    induction suites with
    | nil => rfl
    | cons s suites ih =>
      have hrest := ih fun s' hs' => hs s' (List.mem_cons_of_mem s hs')
      have hline := readLine_of_suite path (suiteOf_print (hs s List.mem_cons_self) hd) h w
      rw [List.map_cons, List.mapM_cons, Action.bind_of_ok hline, Action.bind_of_ok hrest]
      rfl
  unfold readLines
  rw [Action.bind_of_ok hmap, ← List.flatMap_def, List.flatMap_singleton']
  rfl

/-- What was written for suites is read as these suites. -/
theorem readContent_bytesOf (path : Path) (hs : ∀ s ∈ suites, s.Recordable)
    (hd : Suite.depth ≤ depth) (h : Host) (w : World) :
    (readContent depth path (bytesOf suites)).run h w = (.ok suites, w) := by
  have hpieces : (suites.map fun s => Text.encode s.toJson.render).flatMap
      (fun b => Text.piecesOf (textOf b)) = suites.map fun s => s.toJson.print := by
    rw [List.flatMap_map, ← List.flatMap_pure_eq_map]
    refine List.flatMap_congr fun s hmem => ?_
    have htext : textOf (Text.encode s.toJson.render) = s.toJson.render := by
      rw [textOf, Text.decode?_encode]
      rfl
    rw [htext, piecesOf_render (hs s hmem)]
    rfl
  have htexts : ∀ b ∈ suites.map fun s => Text.encode s.toJson.render,
      Text.decode? b ≠ none := by
    intro b hb
    obtain ⟨s, -, rfl⟩ := List.mem_map.mp hb
    rw [Text.decode?_encode]
    exact Option.some_ne_none _
  rw [bytesOf_eq, readContent_texts path htexts, hpieces]
  exact readLines_print path hs hd h w

/-! ## The file -/

/-- Making the directories that are there and adding to the file. -/
theorem append_run {w' : World} {d' : Disk} (hn : Disk.hasNull path.text = false)
    (hmade : (Action.makeDirectories path.parent).run h w = (.ok (), w'))
    (hext : w'.disk.extend path.text (Text.encode (line s)) = .ok d') :
    ∃ w', (append path s).run h w = (.ok (), w') ∧ w'.disk = d' := by
  have hchange : (Action.changeDisk fun d => d.extend path.text (Text.encode (line s))).run h w' =
      (.ok (), { w' with disk := d' }) :=
    Action.changeDisk_run hext
  unfold append
  rw [Action.bind_of_ok hmade, Action.bind_of_ok (Action.refuseNull_run hn),
    Action.bind_of_ok hchange]
  exact ⟨_, rfl, rfl⟩

section

variable (hn : Disk.hasNull path.text = false)
  (hfree : d.find .content path.text = .ok (.vacant loc name))

include hn hfree

/-- The first suite makes the file. -/
theorem append_first (hmade : (Action.makeDirectories path.parent).run h w = (.ok (), w₁))
    (hdisk : w₁.disk = d) (s : Suite) :
    ∃ w', (append path s).run h w = (.ok (), w') ∧
      w'.disk = d.insert (loc ++ [name]) (.file (bytesOf [s])) := by
  refine append_run hn hmade ?_
  rw [hdisk, Disk.extend, Disk.alter, hfree]
  dsimp only
  rw [bytesOf, List.flatMap_singleton, List.nil_append]

variable (hp : path.Proper) (hnp : Disk.hasNull path.parent.text = false)

include hp hnp

/-- **Every further suite** adds a line to it. -/
theorem append_next {written : List Suite}
    (hdisk : w.disk = d.insert (loc ++ [name]) (.file (bytesOf written))) (s : Suite) :
    ∃ w', (append path s).run h w = (.ok (), w') ∧
      w'.disk = d.insert (loc ++ [name]) (.file (bytesOf (written ++ [s]))) := by
  obtain ⟨q, hq⟩ := Disk.directoryAt?_parent hp hfree
  have hx := Disk.extends_insert (Disk.get?_of_find_vacant hp hfree) (.file (bytesOf written))
  have hparent : w.disk.directoryAt? path.parent = some q := by
    rw [hdisk]
    exact Disk.directoryAt?_mono hp.parent hx (Disk.insert_here _ _ _) hq
  have hfile : w.disk.find .content path.text =
      .ok (.entry (loc ++ [name]) (.file (bytesOf written))) := by
    rw [hdisk]
    exact Disk.find_filled hp nofun hfree
  refine append_run hn (OutputDir.makeDirectories_run hnp
    (Disk.ensureDirectory_of_directoryAt hp.parent hnp hparent)) ?_
  rw [Disk.extend, Disk.alter, hfile]
  dsimp only
  rw [hdisk, Disk.insert_insert, bytesOf_concat]

theorem appends_run :
    ∀ (suites written : List Suite) (w : World),
      w.disk = d.insert (loc ++ [name]) (.file (bytesOf written)) →
      ∃ w', (suites.forM (append path)).run h w = (.ok (), w') ∧
        w'.disk = d.insert (loc ++ [name]) (.file (bytesOf (written ++ suites)))
  | [], written, w, hdisk => ⟨w, rfl, by rw [List.append_nil]; exact hdisk⟩
  | s :: suites, written, w, hdisk => by
    obtain ⟨w₁, hr, hdisk₁⟩ := append_next hn hfree hp hnp hdisk s
    obtain ⟨w', hrest, hdisk'⟩ := appends_run suites (written ++ [s]) w₁ hdisk₁
    refine ⟨w', ?_, ?_⟩
    · show (append path s >>= fun _ => suites.forM (append path)).run h w = _
      rw [Action.bind_of_ok hr, hrest]
    · rw [hdisk', List.append_assoc, List.singleton_append]

end

/-- **Suites that were appended are loaded.** If the path is free, its directory can be made, and
there is then room for a file, all suites are appended, and loading returns them, in order, and
leaves the world as it is, the log included. The host has to leave room for reading a value that is
nested as deeply as suites are. -/
theorem load_appends {path : Path} {suites : List Suite} {h : Host} {w w₁ : World} {loc : Location}
    {name : String} (hp : path.Proper) (hn : Disk.hasNull path.text = false)
    (hnew : w.disk.exists? path.text = .ok false)
    (hmade : (Action.makeDirectories path.parent).run h w = (.ok (), w₁))
    (hfree : w₁.disk.find .content path.text = .ok (.vacant loc name))
    (hs : ∀ s ∈ suites, s.Recordable) (hdeep : Suite.depth ≤ h.maxDepth) :
    ∃ w', (suites.forM (append path)).run h w = (.ok (), w') ∧
      (load path).run h w' = (.ok suites, w') := by
  cases suites with
  | nil =>
    refine ⟨w, rfl, ?_⟩
    unfold load
    rw [Action.bind_of_ok (Action.askDisk_run hnew)]
    rfl
  | cons s suites =>
    have hnp : Disk.hasNull path.parent.text = false := by
      by_contra hnull
      unfold Action.makeDirectories Action.refuseNull at hmade
      rw [Bool.not_eq_false] at hnull
      rw [hnull] at hmade
      cases hmade
    obtain ⟨w₂, hr, hdisk⟩ := append_first hn hfree hmade rfl s
    obtain ⟨w', hrest, hdisk'⟩ := appends_run hn hfree hp hnp suites [s] w₂ hdisk
    have hread : w'.disk.read path.text = .ok (bytesOf (s :: suites)) := by
      rw [hdisk']
      exact Disk.read_ok_iff.mpr
        ⟨_, Disk.find_filled hp nofun (Disk.find_target_of_vacant hp hfree)⟩
    refine ⟨w', ?_, ?_⟩
    · show (append path s >>= fun _ => suites.forM (append path)).run h w = _
      rw [Action.bind_of_ok hr, hrest]
    · rw [load_of_read hn hread, readContent_bytesOf path hs hdeep]

/-! ### A new report -/

/-- An outcome whose name and error need escapes. -/
def escapedOutcome : Outcome :=
  ⟨"\"t\\\n\u2028\x7f", "main", .panic, some "overflow", some "\t😀", [("b", -1), ("a", 2)], 7, [""]⟩

def escapedSuite : Suite := ⟨"klee", 1, 0, 1, .panic, [escapedOutcome]⟩

theorem recordable_escapedSuite : escapedSuite.Recordable where
  total := Number.isTellable_of_small (by decide)
  passed := Number.isTellable_of_small (by decide)
  failed := Number.isTellable_of_small (by decide)
  outcomes := by
    intro o ho
    cases List.mem_singleton.mp ho
    refine ⟨by decide, ?_, Number.isTellable_of_small (by decide)⟩
    simp only [escapedOutcome, List.forall_mem_cons]
    exact ⟨Number.isTellable_of_small (by decide), Number.isTellable_of_small (by decide),
      fun _ h => nomatch h⟩

/-- Two suites in a new report on an empty disk. -/
theorem load_appends_escaped :
    ∃ w', ([escapedSuite, sampleSuite].forM (append samplePath)).run (Checker.saying [])
        (World.begin ⟨[], []⟩) = (.ok (), w') ∧
      (load samplePath).run (Checker.saying []) w' = (.ok [escapedSuite, sampleSuite], w') := by
  have hp : samplePath.Proper := by decide
  have hparent : (⟨[], []⟩ : Disk).directoryAt? samplePath.parent = some [] :=
    Disk.directoryAt?_hereDir ⟨[], []⟩
  have hfind : ∀ aim, (⟨[], []⟩ : Disk).find aim samplePath.text = .ok (.vacant [] "report") :=
    Disk.find_nothing Disk.proper_hereDir (by decide) (by decide)
      (Disk.directoryAt?_hereDir ⟨[], []⟩) rfl
  refine load_appends hp (by decide) (Disk.exists?_of_absent (Disk.look_of_vacant (hfind _)))
    (OutputDir.makeDirectories_run (by decide)
      (Disk.ensureDirectory_of_directoryAt hp.parent (by decide) hparent)) (hfind _) ?_ (by decide)
  simp only [List.forall_mem_cons]
  exact ⟨recordable_escapedSuite, recordable_sampleSuite, List.forall_mem_nil _⟩

end Assay.Report

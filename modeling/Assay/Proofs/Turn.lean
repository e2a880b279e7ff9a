import Assay.Proofs.Descent
import Assay.Proofs.Processes

/-!
# The turn of one job

The results of all jobs go into one directory of the project. The project need not be there yet: a
`Footing` is a directory that is, with the names that lead down from it to the one for results. This
is on good `Grounds` if there are no links from the footing on, and neither the way to the footing
nor the place of the script depends on what is there. On such grounds the place of a job whose name
leads down is where the name says, and all that is done for the job, from clearing the place to
writing the command down, stays there, or makes directories on the way: `stays_of_leaves`. Files of
other jobs are safe unless the place is at them or above them. Then they are gone as soon as the
place has been prepared: `gone_of_prepared`.

KLEE's process finds nothing at its place, `free_of_prepared`. So the counterexamples of its outcome
are files that this process has made, and no others: `owns_of_recorded`.
-/

namespace Assay

namespace OutputDir

variable {b : Backend} {c : Config} {job : Job} {h : Host} {w w' : World} {output : Path}

/-- A place that is prepared for KLEE has been found to be free before the way to it was made. -/
theorem prepare_klee_ok (hp : (Backend.klee.outputDir c job).Proper)
    (hr : (prepare .klee c job).run h w = (.ok output, w')) :
    ∃ d₁, Disk.Cleared (Backend.klee.outputDir c job) w.disk d₁ ∧
      d₁.exists? (Backend.klee.outputDir c job).text = .ok false ∧
      Disk.Sprouts (Backend.klee.outputDir c job).parent d₁ w'.disk := by
  unfold prepare at hr
  obtain ⟨_, w₁, hclear, hr⟩ := Action.bind_ok_iff.mp hr
  have hcl := leads_clear (Backend.klee.outputDir c job) h w
  rw [hclear] at hcl
  obtain ⟨there, w₂, hask, hr⟩ := Action.bind_ok_iff.mp hr
  obtain ⟨hexists, rfl⟩ := Action.askDisk_ok_iff.mp hask
  cases there with
  | true => cases hr
  | false =>
    obtain ⟨_, w₃, hmade, hr⟩ := Action.bind_ok_iff.mp hr
    cases hr
    have hs := Action.Leads.makeDirectories hp.parent h w₂
    have hmade' : (Action.makeDirectories (Backend.klee.outputDir c job).parent).run h w₂ = _ :=
      hmade
    rw [hmade'] at hs
    exact ⟨w₂.disk, hcl, hexists, hs⟩

end OutputDir

namespace Checker

variable {k : Checker} {job : Job} {h : Host} {w : World} {l : Launch}
  {d d' d'' : Disk} {names : List String}

open Assay.Path (Down)

/-- The path in the directory for results. -/
def below (k : Checker) (names : List String) : Path :=
  ⟨k.config.projectDir.anchor, k.config.projectDir.parts ++ k.backend.tool.outputRoot :: names⟩

/-- A directory that is there, the project directory itself or one above it, and the names that lead
down from it to the directory for results. -/
structure Footing where
  path : Path
  loc : Location
  first : String
  rest : List String

/-- The first location on the way down. -/
def Footing.edge (g : Footing) : Location :=
  g.loc ++ [g.first]

/-- Where the directory for results is, or will be. -/
def Footing.results (g : Footing) : Location :=
  g.loc ++ g.first :: g.rest

variable {g : Footing}

/-- From the footing on there are no links. Neither the way to it nor the place of the script
depends on what is there. -/
structure Grounds (k : Checker) (g : Footing) (d : Disk) : Prop where
  wellFormed : d.WellFormed
  here : d.get? d.here = some .directory
  leads : k.below [] = ⟨g.path.anchor, g.path.parts ++ g.first :: g.rest⟩
  down : Down (g.first :: g.rest)
  footing : ∀ d', d.SameWays g.edge d' → d'.directoryAt? g.path = some g.loc
  plain : d.LinkFreeFrom g.edge
  script : ∀ d', d.SameWays g.edge d' → d'.LinkFreeFrom g.edge → Disk.Apart k.script g.results d'

/-- The name of the job leads down, and not to where the working directory is. -/
structure Descends (g : Footing) (job : Job) (d : Disk) : Prop where
  relative : (Path.parse job.displayName).anchor = .relative
  up : ".." ∉ (Path.parse job.displayName).parts
  home : ¬ g.results ++ (Path.parse job.displayName).parts <+: d.here

theorem outputDir_below (hk : k.backend.IsVerifier)
    (hrel : (Path.parse job.displayName).anchor = .relative) :
    k.backend.outputDir k.config job = k.below (Path.parse job.displayName).parts := by
  show Path.append (k.backend.resultsDir k.config) (Path.parse job.displayName) = _
  rw [Backend.resultsDir_eq hk]
  unfold Path.append
  rw [hrel]
  show Path.mk _ ((_ ++ [_]) ++ _) = Path.mk _ _
  rw [List.append_assoc]
  rfl

theorem child_below (k : Checker) (names : List String) (name : String) :
    (k.below names).child name = k.below (names ++ [name]) :=
  congrArg (Path.mk _) (List.append_assoc _ (_ :: names) [name])

theorem Descends.down (hj : Descends g job d) : Down (Path.parse job.displayName).parts :=
  ⟨Path.proper_parse job.displayName, hj.up⟩

theorem Footing.results_append (g : Footing) (names : List String) :
    g.results ++ names = g.loc ++ g.first :: (g.rest ++ names) :=
  List.append_assoc g.loc (g.first :: g.rest) names

theorem Footing.edge_front {front more : List String} (hf : front <+: g.first :: more)
    (hne : front ≠ []) : g.edge <+: g.loc ++ front := by
  obtain ⟨name, front, rfl⟩ := List.exists_cons_of_ne_nil hne
  obtain ⟨rfl, -⟩ := List.cons_prefix_cons.mp hf
  exact (List.prefix_append_right_inj _).mpr ⟨front, rfl⟩

theorem Footing.names_front {front more : List String}
    (hf : front <+: g.first :: (g.rest ++ names)) (hm : g.results ++ more <+: g.loc ++ front) :
    more <+: names := by
  rw [results_append] at hm
  exact (List.prefix_append_right_inj (g.first :: g.rest)).mp
    (((List.prefix_append_right_inj _).mp hm).trans hf)

theorem Footing.edge_results (g : Footing) (names : List String) :
    g.edge <+: g.results ++ names := by
  rw [results_append]
  exact edge_front List.prefix_rfl (List.cons_ne_nil _ _)

theorem proper_below (hk : k.backend.IsVerifier) (hc : k.config.manifestPath.Proper)
    (hn : Down names) : (k.below names).Proper := by
  intro part hpart
  rcases List.mem_append.mp hpart with hpart | hpart
  · exact hc.parent part hpart
  rcases List.mem_cons.mp hpart with rfl | hpart
  · exact hk.isPart_outputRoot
  · exact hn.part part hpart

namespace Grounds

variable (hk : k.backend.IsVerifier) (hc : k.config.manifestPath.Proper) (hg : k.Grounds g d)

include hg

theorem found : d.directoryAt? g.path = some g.loc :=
  hg.footing d (.refl _ d)

theorem apart : Disk.Apart k.script g.results d :=
  hg.script d (.refl _ d) hg.plain

theorem plainAt (names : List String) : d.Plain g.loc (g.first :: (g.rest ++ names)) :=
  fun _ hfront hne t => hg.plain _ t (Footing.edge_front hfront hne)

theorem down_append (hn : Down names) : Down (g.first :: (g.rest ++ names)) :=
  hg.down.append hn

/-- What keeps the ways outside keeps the grounds. -/
theorem of_sameWays (hs : d.SameWays g.edge d') (hwf : d'.WellFormed)
    (hhere : d'.get? d'.here = some .directory) (hplain : d'.LinkFreeFrom g.edge) :
    k.Grounds g d' where
  wellFormed := hwf
  here := hhere
  leads := hg.leads
  down := hg.down
  footing d'' h := hg.footing d'' (hs.trans h)
  plain := hplain
  script d'' h := hg.script d'' (hs.trans h)

/-- The path leads down from the footing. -/
theorem below_eq (names : List String) :
    k.below names = ⟨g.path.anchor, g.path.parts ++ g.first :: (g.rest ++ names)⟩ := by
  obtain ⟨hanchor, hparts⟩ := Path.mk.inj hg.leads
  have happend : (_ ++ [_]) ++ names = (_ ++ g.first :: g.rest) ++ names :=
    congrArg (· ++ names) hparts
  rw [List.append_assoc, List.append_assoc] at happend
  unfold below
  rw [hanchor]
  exact congrArg (Path.mk _) happend

include hk hc

theorem proper : g.path.Proper := by
  have hp : (k.below []).Proper := proper_below hk hc ⟨nofun, List.not_mem_nil⟩
  rw [hg.leads] at hp
  exact fun part hpart => hp part (List.mem_append_left _ hpart)

theorem location {aim : Disk.Aim} {f : Disk.Found} (hn : Down names)
    (hf : d.find aim (k.below names).text = .ok f) : f.location = g.results ++ names := by
  rw [hg.below_eq] at hf
  rw [Footing.results_append]
  exact Disk.find_down_location (hg.proper hk hc) (hg.down_append hn) (List.cons_ne_nil _ _)
    hg.found (hg.plainAt names) hf

theorem location_directory {loc : Location} (hn : Down names)
    (hloc : d.directoryAt? (k.below names) = some loc) : loc = g.results ++ names :=
  hg.location hk hc hn (Disk.find_of_directoryAt (proper_below hk hc hn) hloc).1

theorem resultsAt? {loc : Location} (hn : Down names)
    (hloc : d.resultsAt? (k.below names) = some loc) : loc = g.results ++ names := by
  unfold Disk.resultsAt? at hloc
  split at hloc
  case h_1 hf =>
    cases hloc
    exact hg.location hk hc hn hf
  case h_2 => exact hg.location_directory hk hc hn hloc

theorem find_congr {aim : Disk.Aim} (hg' : k.Grounds g d') (hn : Down names)
    (hsame : ∀ front, front <+: g.first :: (g.rest ++ names) →
      d'.get? (g.loc ++ front) = d.get? (g.loc ++ front)) :
    d'.find aim (k.below names).text = d.find aim (k.below names).text := by
  rw [hg.below_eq]
  exact Disk.find_down_congr (hg.proper hk hc) (hg.down_append hn) (List.cons_ne_nil _ _) hg.found
    hg'.found (hg.plainAt names) fun front hfront _ => hsame front hfront

/-- What is made on the way to the path is on the way down from the footing. -/
theorem sprouted {l : Location} (hn : Down names) (hs : Disk.Sprouts (k.below names) d d')
    (hl : d'.get? l ≠ d.get? l) :
    ∃ front, front <+: g.first :: (g.rest ++ names) ∧ front ≠ [] ∧ l = g.loc ++ front := by
  rw [hg.below_eq] at hs
  exact hs.down (hg.proper hk hc) (hg.down_append hn) hg.wellFormed hg.here hg.found
    (hg.plainAt names) hl

/-- The place itself is not on the way to it. -/
theorem place_kept (hn : Down names) (hs : Disk.Sprouts (k.below names).parent d d') :
    d'.get? (g.loc ++ g.first :: (g.rest ++ names)) =
      d.get? (g.loc ++ g.first :: (g.rest ++ names)) := by
  by_contra hne
  have hfront : (g.first :: (g.rest ++ names)).dropLast <+: g.first :: (g.rest ++ names) :=
    List.dropLast_prefix _
  have hparent : (k.below names).parent =
      ⟨g.path.anchor, g.path.parts ++ (g.first :: (g.rest ++ names)).dropLast⟩ := by
    rw [hg.below_eq]
    exact congrArg (Path.mk _) (List.dropLast_append_of_ne_nil (List.cons_ne_nil _ _))
  rw [hparent] at hs
  obtain ⟨front, hf, -, heq⟩ := hs.down (hg.proper hk hc) ((hg.down_append hn).front hfront)
    hg.wellFormed hg.here hg.found ((hg.plainAt names).front hfront) hne
  rw [List.append_cancel_left_eq] at heq
  have hlength := hf.length_le
  rw [← heq, List.length_dropLast, List.length_cons] at hlength
  omega

/-- **The place is free** once nothing has been found there and the way to it has been made. -/
theorem free (hg' : k.Grounds g d') (hn : Down names)
    (hnull : Disk.hasNull (k.below names).text = false)
    (hexists : d.exists? (k.below names).text = .ok false)
    (hs : Disk.Sprouts (k.below names).parent d d') : d'.Free (k.below names) := by
  intro loc e hf
  have hthere := Disk.get?_of_found hg'.wellFormed hg'.here (proper_below hk hc hn) hf
  have hloc : loc = g.results ++ names := hg'.location hk hc hn hf
  rw [hloc, Footing.results_append, hg.place_kept hk hc hn hs] at hthere
  have hsame : d'.find .target (k.below names).text = d.find .target (k.below names).text := by
    refine hg.find_congr hk hc hg' hn fun front hfront => ?_
    cases hget : d.get? (g.loc ++ front) with
    | some e' => exact hs.extends _ _ hget
    | none =>
      obtain ⟨more, hmore⟩ := hfront
      rw [← hmore, ← List.append_assoc,
        hg.wellFormed.vacant hget _ (List.prefix_append _ more)] at hthere
      cases hthere
  rw [hsame] at hf
  unfold Disk.exists? Disk.look at hexists
  rw [hnull, if_neg Bool.false_ne_true, hf] at hexists
  cases hexists

end Grounds

/-- Nothing is below a place where nothing is. -/
theorem free_append (hk : k.backend.IsVerifier) (hc : k.config.manifestPath.Proper)
    (hfree : d.Free (k.below names)) (more : List String) (hn : Down (names ++ more)) :
    d.Free (k.below (names ++ more)) := by
  induction more using List.reverseRecOn with
  | nil => rwa [List.append_nil]
  | append_singleton more name ih =>
    rw [← List.append_assoc] at hn ⊢
    have hn' : Down (names ++ more) := hn.front (List.prefix_append _ _)
    rw [← child_below]
    exact (ih hn').child (proper_below hk hc hn') (hn.part name (by simp))

/-! ## What one turn may do -/

/-- What is done for the job keeps the grounds, and every file in the directory for results that the
place of the job is neither at nor above. -/
structure Stays (k : Checker) (g : Footing) (job : Job) (d d' : Disk) : Prop where
  here : d'.here = d.here
  grounds : k.Grounds g d'
  files : ∀ names, Down names → ¬ (Path.parse job.displayName).parts <+: names →
    Disk.KeepsFile (k.below names).text d d'

theorem Stays.trans (hs : k.Stays g job d d') (hs' : k.Stays g job d' d'') :
    k.Stays g job d d'' where
  here := hs'.here.trans hs.here
  grounds := hs'.grounds
  files names hn hnot := (hs.files names hn hnot).trans (hs'.files names hn hnot)

theorem Descends.stays (hj : Descends g job d) (hs : k.Stays g job d d') :
    Descends g job d' :=
  ⟨hj.relative, hj.up, by rw [hs.here]; exact hj.home⟩

section Stays

variable (hk : k.backend.IsVerifier) (hc : k.config.manifestPath.Proper) (hg : k.Grounds g d)

include hk hc hg

/-- Whatever is done at the place and below it, short of making links. -/
theorem stays_of_within (hj : Descends g job d) (hhere : d'.here = d.here)
    (hwf : d'.WellFormed) (hlinks : ∀ l t, d'.get? l = some (.link t) → d.get? l = some (.link t))
    (hsame : ∀ l, ¬ g.results ++ (Path.parse job.displayName).parts <+: l →
      d'.get? l = d.get? l) : k.Stays g job d d' := by
  have hways : d.SameWays g.edge d' :=
    Disk.sameWays_of_within hhere fun l hl => hsame l fun h => hl ((g.edge_results _).trans h)
  have hhome : d'.get? d'.here = some .directory := by
    rw [hhere, hsame _ hj.home, hg.here]
  have hg' := hg.of_sameWays hways hwf hhome fun l t hl hlink => hg.plain l t hl (hlinks l t hlink)
  refine ⟨hhere, hg', fun names hn hnot loc content hfile => ?_⟩
  rw [hg.find_congr hk hc hg' hn fun front hfront => hsame _ fun hbelow => ?_, hfile]
  exact hnot (Footing.names_front hfront hbelow)

theorem stays_of_cleared (hj : Descends g job d)
    (hcl : Disk.Cleared (k.below (Path.parse job.displayName).parts) d d') :
    k.Stays g job d d' := by
  refine stays_of_within hk hc hg hj hcl.here (hcl.wellFormed hg.wellFormed) (fun l t hl => ?_)
    fun l hl => ?_
  · rcases hcl.only l with hsame | ⟨hnone, -⟩
    · exact hsame.symm.trans hl
    · rw [hnone] at hl
      cases hl
  · rcases hcl.only l with hsame | ⟨-, loc, e, hf, hbelow⟩
    · exact hsame
    · have hloc : loc = _ := hg.location hk hc hj.down hf
      exact absurd (hloc ▸ hbelow) hl

theorem stays_of_written (hj : Descends g job d)
    (hw : Disk.Written (k.below (Path.parse job.displayName).parts) d d') :
    k.Stays g job d d' := by
  refine stays_of_within hk hc hg hj hw.here hw.wellFormed hw.plain fun l hl => ?_
  by_contra hne
  obtain ⟨loc, hloc, hbelow⟩ := hw.within l hne
  rw [hg.resultsAt? hk hc hj.down hloc] at hbelow
  exact hl hbelow

theorem stays_of_sprouts (hn : Down names) (hs : Disk.Sprouts (k.below names) d d') :
    k.Stays g job d d' := by
  have hways : d.SameWays g.edge d' := by
    refine Disk.sameWays_of_within hs.here fun l hl => ?_
    by_contra hne
    obtain ⟨front, hfront, hnil, rfl⟩ := hg.sprouted hk hc hn hs hne
    exact hl (Footing.edge_front hfront hnil)
  have hhome : d'.get? d'.here = some .directory := by
    rw [hs.here]
    exact hs.extends _ _ hg.here
  exact ⟨hs.here, hg.of_sameWays hways (hs.wellFormed hg.wellFormed hg.here) hhome
    fun l t hl hlink => hg.plain l t hl (hs.plain hlink),
    fun _ _ _ => Disk.keepsFile_of_extends hs.extends hs.here _⟩

theorem stays_of_recorded (hr : Disk.Recorded k.script d d') : k.Stays g job d d' := by
  have hhome : d'.get? d'.here = some .directory := by
    rw [hr.here]
    exact hr.keepsWays _ _ hg.here fun _ => Entry.noConfusion
  have hg' := hg.of_sameWays (hr.sameWays _) (hr.wellFormed hg.wellFormed hg.here) hhome
    fun l t hl hlink => hg.plain l t hl (hr.brings l _ hlink fun _ => Entry.noConfusion)
  refine ⟨hr.here, hg', fun names hn _ loc content hfile => hr.keepsFile hg.apart ?_ hfile⟩
  have hloc : loc = g.results ++ names := hg.location hk hc hn hfile
  exact hloc ▸ List.prefix_append _ names

end Stays

/-! ## The turn of one job -/

/-- The path is that of a file in the place for the results. The file was not there when the process
was started, and it is as the process has left it. -/
def Launch.Owns (l : Launch) (d : Disk) (x : String) : Prop :=
  ∃ name, Path.IsPart name ∧ name ≠ ".." ∧ x = (l.output.child name).text ∧
    ∃ loc content, l.prepared.disk.get? loc = none ∧ l.disk.get? loc = some (.file content) ∧
      d.find .target x = .ok (.entry loc (.file content))

theorem Launches.output (hl : k.Launches job h w l) :
    l.output = k.backend.outputDir k.config job :=
  OutputDir.yields_prepare _ _ _ _ _ _ _ hl.prepared

section Turn

variable {r : Except Fault Outcome} {output : Path} {w₁ : World} {words : List String}
  (hk : k.backend.IsVerifier) (hc : k.config.manifestPath.Proper) (hg : k.Grounds g w.disk)
  (hj : Descends g job w.disk)

include hk hc hg hj

theorem stays_of_frames (hcl : Disk.Cleared (k.backend.outputDir k.config job) w.disk d)
    (hs : Disk.Sprouts (k.backend.outputDir k.config job) d d') : k.Stays g job w.disk d' := by
  rw [outputDir_below hk hj.relative] at hcl hs
  have hcleared := stays_of_cleared hk hc hg hj hcl
  exact hcleared.trans (stays_of_sprouts hk hc hcleared.grounds hj.down hs)

theorem stays_of_prepared (hprep : (OutputDir.prepare k.backend k.config job).run h
      { w with started := w.started ++ [job] } = (.ok output, w₁)) :
    k.Stays g job w.disk w₁.disk := by
  obtain ⟨d₁, hcl, hs⟩ := OutputDir.leads_prepare (Backend.proper_outputDir hc k.backend job) h
    { w with started := w.started ++ [job] }
  rw [hprep] at hs
  exact stays_of_frames hk hc hg hj hcl hs

/-- KLEE's process finds nothing at its place. -/
theorem free_of_prepared (hklee : k.backend = .klee)
    (hprep : (OutputDir.prepare k.backend k.config job).run h
      { w with started := w.started ++ [job] } = (.ok output, w₁))
    (hnull : Disk.hasNull output.text = false) : w₁.disk.Free output := by
  have hready := stays_of_prepared hk hc hg hj hprep
  obtain rfl := OutputDir.yields_prepare _ _ _ _ _ _ _ hprep
  have hp := Backend.proper_outputDir hc k.backend job
  rw [hklee] at hprep hp
  obtain ⟨d₁, hcl, hexists, hs⟩ := OutputDir.prepare_klee_ok hp hprep
  rw [← hklee, outputDir_below hk hj.relative] at hcl hexists hs
  rw [outputDir_below hk hj.relative] at hnull ⊢
  have hcleared := stays_of_cleared hk hc hg hj hcl
  exact hcleared.grounds.free hk hc hready.grounds hj.down hnull hexists hs

/-- **What is at the place or below it** is gone then. -/
theorem gone_of_prepared (hklee : k.backend = .klee)
    (hprep : (OutputDir.prepare k.backend k.config job).run h
      { w with started := w.started ++ [job] } = (.ok output, w₁))
    (hnull : Disk.hasNull output.text = false) (hn : Down names)
    (hbelow : (Path.parse job.displayName).parts <+: names) (loc : Location) (e : Entry) :
    w₁.disk.find .target (k.below names).text ≠ .ok (.entry loc e) := by
  have hfree := free_of_prepared hk hc hg hj hklee hprep hnull
  have hout := OutputDir.yields_prepare _ _ _ _ _ _ _ hprep
  rw [hout, outputDir_below hk hj.relative] at hfree
  obtain ⟨more, rfl⟩ := hbelow
  exact free_append hk hc hfree more hn loc e

variable (horderly : ∀ words,
  k.backend.invocation k.config job (k.backend.outputDir k.config job) = .ok words →
    Orderly k.config h (k.command words).call (k.backend.outputDir k.config job))

include horderly

theorem stays_of_process (hprep : (OutputDir.prepare k.backend k.config job).run h
      { w with started := w.started ++ [job] } = (.ok output, w₁))
    (hbuilt : k.backend.invocation k.config job output = .ok words) :
    k.Stays g job w.disk (h.behave w₁.calls (k.command words).call w₁.disk).1 := by
  have hready := stays_of_prepared hk hc hg hj hprep
  obtain rfl := OutputDir.yields_prepare _ _ _ _ _ _ _ hprep
  have hw := (horderly words hbuilt).written w₁.calls w₁.disk hready.grounds.wellFormed
    hready.grounds.here
  rw [outputDir_below hk hj.relative] at hw
  exact hready.trans (stays_of_written hk hc hready.grounds (hj.stays hready) hw)

/-- **The turn of a job** keeps what the place of the job is neither at nor above. -/
theorem stays_of_leaves (hleft : Leaves k job h w r d') : k.Stays g job w.disk d' := by
  cases hleft with
  | unstarted hcl hs f => exact stays_of_frames hk hc hg hj hcl hs
  | unended hprep hbuilt f => exact stays_of_process hk hc hg hj horderly hprep hbuilt
  | ended hl hr hfound =>
    have hdone := stays_of_process hk hc hg hj horderly hl.prepared hl.built
    rw [hl.ended] at hdone
    exact hdone.trans (stays_of_recorded hk hc hdone.grounds hr)

/-- **A job owns its counterexamples** when its turn is over. -/
theorem owns_of_recorded (hl : k.Launches job h w l) (hr : Disk.Recorded k.script l.disk d')
    {p : Path} (hp : Counterexample.Collects k.backend k.config l.output d' p) :
    l.Owns d' p.text := by
  obtain ⟨hklee, hnull, n, hn, hp⟩ := hp
  have hready := stays_of_prepared hk hc hg hj hl.prepared
  have hfree := free_of_prepared hk hc hg hj hklee hl.prepared hnull
  have hdone := stays_of_process hk hc hg hj horderly hl.prepared hl.built
  have ho : Orderly k.config h (k.command l.words).call l.output := by
    rw [hl.output]
    exact horderly l.words (hl.output ▸ hl.built)
  have hwf := hready.grounds.wellFormed
  have hhere := hready.grounds.here
  have hwritten := ho.written l.prepared.calls l.prepared.disk hwf hhere
  have hcomplete := ho.complete l.prepared.calls l.prepared.disk hwf hhere hfree
  rw [hl.ended] at hdone hwritten hcomplete
  have hproper : l.output.Proper := by
    rw [hl.output]
    exact Backend.proper_outputDir hc k.backend job
  have hapart := hdone.grounds.apart
  have hroot : ∀ z, l.disk.directoryAt? l.output = some z → g.results <+: z := by
    intro z hz
    rw [hl.output, outputDir_below hk hj.relative] at hz
    rw [hdone.grounds.location_directory hk hc hj.down hz]
    exact List.prefix_append _ _
  obtain ⟨z, hz, hname⟩ := hr.mem_list hapart hproper hroot hn
  rw [Disk.list_of_directoryAt hz] at hcomplete
  obtain ⟨hpart, loc, content, hfile⟩ := hcomplete n hname p hp
  obtain ⟨name, hpart', rfl⟩ := hp.child hpart
  obtain ⟨hup, rfl⟩ := Disk.find_child_file hproper hpart' hz hfile
  refine ⟨name, hpart', hup, rfl, _, content, ?_, Disk.get?_of_find Entry.noConfusion hfile, ?_⟩
  · exact hwritten.new hwf hfree hproper hz _ (List.prefix_append z [name])
  · have htarget := Disk.find_target_of_file (hproper.child hpart') hfile
    exact hr.keepsFile hapart ((hroot z hz).trans (List.prefix_append z [name])) htarget

end Turn

end Checker

end Assay

import Assay.Proofs.Frames
import Assay.Proofs.Independence

/-!
# Cleaning stays in its directory

Before a tool runs, the place for its results is cleared. On a disk without links, everything that
this removes or replaces lies strictly below the directory that the results of all jobs are in, as
long as the job's place is `Inside` that directory: `prepare_onlyBelow`. A name whose components
lead down only is of this kind, `inside_of_down`.

Other names are not kept out. A name that climbs, is a dot or is anchored has its place elsewhere,
and what is there is removed all the same: `prepare_strays`.
-/

namespace Assay

namespace Disk

variable {d d₁ d' : Disk} {root p : Path} {loc l : Location}

/-- The path leads strictly below the directory, and on the way it passes nothing but the way to the
directory, and what is below it. -/
structure Inside (d : Disk) (root p : Path) : Prop where
  place : isBelow (d.placeOf root) (d.placeOf p)
  way : ∀ l, d.OnWay p l → d.OnWay root l ∨ isBelow (d.placeOf root) l

/-- All that has changed is strictly below the directory, but that the directory and its ancestors
may have been made where nothing was. -/
structure OnlyBelow (root : Path) (d d' : Disk) : Prop where
  here : d'.here = d.here
  outside : ∀ l, ¬ isBelow (d.placeOf root) l → d'.get? l = d.get? l ∨
    d.OnWay root l ∧ d.get? l = none ∧ d'.get? l = some .directory

theorem linkFree_empty : Scheduler.emptyDisk.LinkFree := by
  intro l t hl
  unfold get? at hl
  split at hl
  · cases hl
  · cases hl

theorem LinkFree.insert {e : Entry} (hd : d.LinkFree) (he : ∀ t, e ≠ .link t) :
    (d.insert loc e).LinkFree := by
  intro l t hl
  by_cases hnil : l = []
  · rw [hnil, get?_root] at hl
    cases hl
  · rw [get?_insert hnil] at hl
    split at hl
    · exact he t (Option.some.inj hl)
    · exact hd l t hl

/-- What is at or below something strictly below is strictly below. -/
theorem isBelow_trans {below : Location} (hbelow : isBelow loc below) (hl : below <+: l) :
    isBelow loc l := by
  obtain ⟨hpre, hne⟩ := isBelow_iff.mp hbelow
  refine isBelow_iff.mpr ⟨hpre.trans hl, ?_⟩
  rintro rfl
  exact hne (hpre.eq_of_length_le hl.length_le)

/-- Only what the path leads to has been taken away. -/
theorem Cleared.outside (hp : p.Proper) (hd : d.LinkFree)
    (hbelow : isBelow (d.placeOf root) (d.placeOf p)) (hc : Cleared p d d')
    (hl : ¬ isBelow (d.placeOf root) l) : d'.get? l = d.get? l := by
  rcases hc.only l with hsame | ⟨-, q, e, hf, hq⟩
  · exact hsame
  · have hplace : q = d.placeOf p := find_place hp hd hf
    exact absurd (isBelow_trans hbelow (hplace ▸ hq)) hl

theorem onlyBelow_of_frames (hp : p.Proper) (hd : d.LinkFree) (hin : d.Inside root p)
    (hc : Cleared p d d₁) (hs : Sprouts p d₁ d') : OnlyBelow root d d' where
  here := hs.here.trans hc.here
  outside l hl := by
    have hcleared := hc.outside hp hd hin.place hl
    rcases hs.only l with hsame | ⟨hnone, hmade, hled⟩
    · exact .inl (hsame.trans hcleared)
    · obtain ⟨front, hfront, hl'⟩ := hs.onWay hp (hc.linkFree hd) hled
      have honWay : d.OnWay p l := ⟨front, hfront, hl'.trans (placeOf_congr hc.here _)⟩
      rcases hin.way l honWay with hroot | hbelow
      · exact .inr ⟨hroot, hcleared.symm.trans hnone, hmade⟩
      · exact absurd hbelow hl

/-- Components that lead down only. -/
theorem foldl_stride {parts : List String} (hparts : ∀ part ∈ parts, Path.IsPart part)
    (hup : ".." ∉ parts) (loc : Location) : parts.foldl stride loc = loc ++ parts := by
  induction parts generalizing loc with
  | nil => rw [List.append_nil]; rfl
  | cons part parts ih =>
    obtain ⟨hne, hup⟩ := not_or.mp (mt List.mem_cons.mpr hup)
    rw [List.foldl_cons, stride_name (hparts part List.mem_cons_self) (Ne.symm hne),
      ih (fun q hq => hparts q (List.mem_cons_of_mem part hq)) hup, List.append_assoc]
    rfl

/-- **Names that lead down** have their place inside the directory. -/
theorem inside_of_down (parts : List String) (hparts : ∀ part ∈ parts, Path.IsPart part)
    (hne : parts ≠ []) (hup : ".." ∉ parts) (d : Disk) (root : Path) :
    d.Inside root ⟨root.anchor, root.parts ++ parts⟩ := by
  have hplace : ∀ more, more <+: parts →
      d.placeOf ⟨root.anchor, root.parts ++ more⟩ = d.placeOf root ++ more := by
    intro more hmore
    have hdown := foldl_stride (fun part hpart => hparts part (hmore.subset hpart))
      (fun h => hup (hmore.subset h)) (d.placeOf root)
    rw [← hdown]
    exact List.foldl_append
  have hbelow : ∀ more, more ≠ [] → isBelow (d.placeOf root) (d.placeOf root ++ more) := by
    intro more hmore
    exact isBelow_iff.mpr ⟨List.prefix_append _ _, fun h => hmore (List.self_eq_append_right.mp h)⟩
  constructor
  · rw [hplace parts List.prefix_rfl]
    exact hbelow parts hne
  · rintro l ⟨front, hfront, rfl⟩
    rcases List.prefix_or_prefix_of_prefix hfront (List.prefix_append _ _) with
      hroot | ⟨more, rfl⟩
    · exact .inl ⟨front, hroot, rfl⟩
    · have hmore := (List.prefix_append_right_inj root.parts).mp hfront
      show d.OnWay root (d.placeOf ⟨root.anchor, root.parts ++ more⟩) ∨ _
      rw [hplace more hmore]
      by_cases hnil : more = []
      · rw [hnil, List.append_nil]
        exact .inl (onWay_self d root)
      · exact .inr (hbelow more hnil)

end Disk

namespace OutputDir

variable {b : Backend} {c : Config} {job : Job} {h : Host} {w : World}

/-- **Cleaning stays in its directory**, however the preparing ends: what is not strictly below the
directory for results is left as it was, but that the directory and its ancestors may be made. -/
theorem prepare_onlyBelow (hc : c.manifestPath.Proper) (hd : w.disk.LinkFree)
    (hin : w.disk.Inside (b.resultsDir c) (b.outputDir c job)) :
    Disk.OnlyBelow (b.resultsDir c) w.disk ((prepare b c job).run h w).2.disk := by
  have hp := Backend.proper_outputDir hc b job
  obtain ⟨d₁, hcleared, hsprouts⟩ := leads_prepare hp h w
  exact Disk.onlyBelow_of_frames hp hd hin hcleared hsprouts

/-! ### A project with a source file -/

/-- A project that KLEE has been used on. -/
def projectDisk : Disk :=
  ((Scheduler.emptyDisk.insert ["kleeout"] .directory).insert ["src"] .directory).insert
    ["src", "lib.rs"] (.file [])

theorem projectDisk_linkFree : projectDisk.LinkFree := by
  unfold projectDisk
  refine ((Disk.linkFree_empty.insert ?_).insert ?_).insert ?_
  all_goals exact fun _ => Entry.noConfusion

theorem projectDisk_wellFormed : projectDisk.WellFormed := by
  have hkleeout : (Scheduler.emptyDisk.insert ([] ++ ["kleeout"]) .directory).WellFormed :=
    Scheduler.emptyDisk_wellFormed.insert (by decide) (Disk.get?_root _) .directory
  have hsrc : ((Scheduler.emptyDisk.insert ["kleeout"] .directory).insert ([] ++ ["src"])
      .directory).WellFormed := hkleeout.insert (by decide) (Disk.get?_root _) .directory
  show (Disk.insert _ (["src"] ++ ["lib.rs"]) (.file [])).WellFormed
  exact hsrc.insert (by decide) (by decide) (.file [])

/-- A job in a module of its own. -/
def nestedJob : Job := ⟨"a/b", "t", ⟨.relative, ["t.bc"]⟩⟩

theorem prepare_nested :
    (Config.standard 1).manifestPath.Proper ∧ projectDisk.LinkFree ∧
      projectDisk.Inside (Backend.seahorn.resultsDir (Config.standard 1))
        (Backend.seahorn.outputDir (Config.standard 1) nestedJob) ∧
      Disk.OnlyBelow (Backend.seahorn.resultsDir (Config.standard 1)) projectDisk
        ((prepare .seahorn (Config.standard 1) nestedJob).run (Checker.saying [])
          (World.begin projectDisk)).2.disk := by
  have hc : (Config.standard 1).manifestPath.Proper := Path.proper_parse _
  have hin : projectDisk.Inside (Backend.seahorn.resultsDir (Config.standard 1))
      (Backend.seahorn.outputDir (Config.standard 1) nestedJob) := by
    exact Disk.inside_of_down ["a", "b"] (by decide) (List.cons_ne_nil _ _) (by decide)
      projectDisk _
  exact ⟨hc, projectDisk_linkFree, hin,
    prepare_onlyBelow (w := World.begin projectDisk) hc projectDisk_linkFree hin⟩

/-- A job whose name climbs out of the directory for results. -/
def strayJob : Job := ⟨"../src", "t", ⟨.relative, ["t.bc"]⟩⟩

/-- The directory that the name of this job climbs to, by the way it takes. -/
def climb : Path := ⟨.relative, ["kleeout", ".."]⟩

theorem site_src : Disk.Site climb [] "src" projectDisk where
  steady d' hd' := by
    have hkleeout : d'.get? ["kleeout"] = some .directory :=
      (hd'.outside ["kleeout"] (by decide)).trans (by decide)
    have hhere : d'.directoryAt? Disk.hereDir = some [] :=
      (Disk.directoryAt?_hereDir d').trans (congrArg some hd'.here)
    have hdown := Disk.directoryAt?_child Disk.proper_hereDir (by decide) (by decide) hhere hkleeout
    exact Disk.directoryAt?_up (by decide) (by decide) hdown
  directory := Disk.get?_root _
  wellFormed := projectDisk_wellFormed

/-- **Other names are not kept out**: the source file of the project is removed. -/
theorem prepare_strays :
    strayJob.displayName ≠ "" ∧ projectDisk.LinkFree ∧
      ¬ Disk.OnlyBelow (Backend.klee.resultsDir (Config.standard 1)) projectDisk
        ((prepare .klee (Config.standard 1) strayJob).run (Checker.saying [])
          (World.begin projectDisk)).2.disk := by
  refine ⟨by decide, projectDisk_linkFree, fun honly => ?_⟩
  have hp : climb.Proper := by decide
  have hfits : Disk.Fits climb "src" := by decide
  have hout : Backend.klee.outputDir (Config.standard 1) strayJob = climb.child "src" := by decide
  obtain ⟨d', hrun, -, hempty⟩ := prepare_child (h := Checker.saying [])
    (w := World.begin projectDisk) hp (List.cons_ne_nil _ _) hfits
    (Backend.isVerifier_iff.mpr (.inl rfl)) hout rfl site_src
    (Disk.followed_of_plain (fun t => projectDisk_linkFree _ t))
  have hnull : Disk.hasNull (climb.child "src").text = false := by decide
  rw [hnull, if_neg Bool.false_ne_true] at hempty
  have hgone : d'.get? ["src", "lib.rs"] = none := hempty ["lib.rs"]
  rw [hrun] at honly
  rcases honly.outside ["src", "lib.rs"] (by decide) with hsame | ⟨-, hnone, -⟩
  · have hthere : d'.get? ["src", "lib.rs"] = some (.file []) := hsame.trans (by decide)
    rw [hgone] at hthere
    cases hthere
  · have hthere : projectDisk.get? ["src", "lib.rs"] ≠ none := by decide
    exact hthere hnone

end OutputDir

end Assay

import Assay.Proofs.Directories
import Assay.Proofs.Evaluation

/-!
# The place of a job

A job's results have their place in the directory that the results of all jobs are in, under the
job's name. `prepare_child` says what preparing the place comes to once that directory is there, and
`prepare_unmade` what it comes to when the directory has to be made first: afterwards the two disks
are the same. Where the directory cannot be made, preparing changes nothing: `prepare_hopeless`.

Names may be too long, `Overlong`, and there may be links at a place, `Followed`. A path with a null
character cannot be asked for, but that stops only the tools that want a directory at it.
-/

namespace Assay

namespace Path

variable {p : Path} {name : String}

/-- The path of a name in a directory. -/
def child (p : Path) (name : String) : Path :=
  ⟨p.anchor, p.parts ++ [name]⟩

theorem child_parts_ne_nil (p : Path) (name : String) : (p.child name).parts ≠ [] :=
  List.concat_ne_nil name p.parts

@[simp] theorem parent_child (p : Path) (name : String) : (p.child name).parent = p := by
  unfold parent child
  rw [List.dropLast_concat]

@[simp] theorem name_child (p : Path) (name : String) : (p.child name).name = name := by
  unfold Path.name child
  rw [List.getLast?_concat]
  rfl

theorem child_ne_parent (p : Path) (name : String) : (p.child name).parent ≠ p.child name := by
  intro h
  rw [parent_child] at h
  have hparts := congrArg (fun r : Path => r.parts.length) h
  simp [child] at hparts

theorem Proper.child (hp : p.Proper) (hn : IsPart name) : (p.child name).Proper := by
  intro part hpart
  rcases List.mem_append.mp hpart with hpart | hpart
  · exact hp part hpart
  · rw [List.mem_singleton.mp hpart]
    exact hn

/-- A name that is a single component is read as such. -/
theorem parse_of_isPart (hn : IsPart name) : parse name = ⟨.relative, [name]⟩ := by
  obtain ⟨hne, hdot, hslash⟩ := hn
  have hsep : ∀ c ∈ name.toList, (c == '/') = false := fun c hc =>
    beq_eq_false_iff_ne.mpr fun h => hslash (h ▸ hc)
  have hanchor : anchorOf name.toList = .relative := by
    unfold anchorOf
    cases hcs : name.toList with
    | nil => rfl
    | cons c cs =>
      rw [List.takeWhile_cons, hsep c (hcs ▸ List.mem_cons_self)]
      rfl
  have hproper : isProper name.toList = true := by
    have hnil : name.toList.isEmpty = false :=
      List.isEmpty_eq_false_iff.mpr fun h => hne (String.toList_eq_nil_iff.mp h)
    have hsingle : (name.toList != ['.']) = true :=
      bne_iff_ne.mpr fun h => hdot (String.toList_inj.mp h)
    rw [isProper, hnil, hsingle]
    rfl
  unfold parse components
  rw [hanchor, Text.splitBy_of_forall hsep, List.filter_cons_of_pos hproper, List.filter_nil,
    List.map_singleton, String.ofList_toList]

theorem append_parse (p : Path) (hn : IsPart name) : p ++ parse name = p.child name := by
  rw [parse_of_isPart hn]
  rfl

end Path

namespace Disk

variable {d : Disk} {root : Path} {q : Location} {name : String} {aim : Aim}

/-- The name is a single component and, where the operating system can be asked at all, short enough
for an entry of the directory that the path leads to. -/
structure Fits (root : Path) (name : String) : Prop where
  part : Path.IsPart name
  up : name ≠ ".."
  short : hasNull (root.child name).text = false → name.utf8ByteSize ≤ maxName
  path : hasNull (root.child name).text = false → (root.child name).text.utf8ByteSize ≤ maxPath

instance (root : Path) (name : String) : Decidable (Fits root name) :=
  decidable_of_iff (Path.IsPart name ∧ name ≠ ".." ∧
      (hasNull (root.child name).text = false → name.utf8ByteSize ≤ maxName) ∧
        (hasNull (root.child name).text = false → (root.child name).text.utf8ByteSize ≤ maxPath))
    ⟨fun ⟨hpart, hup, hshort, hpath⟩ => ⟨hpart, hup, hshort, hpath⟩,
      fun h => ⟨h.part, h.up, h.short, h.path⟩⟩

/-- The name is too long for an entry of the directory, although its path is short enough. -/
structure Overlong (root : Path) (name : String) : Prop where
  noNull : hasNull (root.child name).text = false
  path : (root.child name).text.utf8ByteSize ≤ maxPath
  long : maxName < name.utf8ByteSize

/-- A name that does not fit is too long, or its path is. -/
theorem not_fits (hname : Path.IsPart name) (hup : name ≠ "..") (hn : ¬ Fits root name) :
    hasNull (root.child name).text = false ∧
      (maxPath < (root.child name).text.utf8ByteSize ∨ Overlong root name) := by
  cases hnull : hasNull (root.child name).text with
  | true =>
    refine absurd ⟨hname, hup, fun h => ?_, fun h => ?_⟩ hn
    · exact absurd (hnull.symm.trans h) Bool.noConfusion
    · exact absurd (hnull.symm.trans h) Bool.noConfusion
  | false =>
    refine ⟨rfl, or_iff_not_imp_left.mpr fun hpath => ⟨hnull, Nat.le_of_not_lt hpath, ?_⟩⟩
    refine Nat.lt_of_not_le fun hshort => hn ⟨hname, hup, fun _ => hshort, fun _ => ?_⟩
    exact Nat.le_of_not_lt hpath

/-- If the entry of that name is a link, it can be looked through, wherever it leads. -/
def Followed (root : Path) (q : Location) (name : String) (d : Disk) : Prop :=
  ∀ t, d.get? (q ++ [name]) = some (.link t) → hasNull (root.child name).text = false ∧
    ∃ e, d.look .target (root.child name).text = .ok e

theorem followed_of_plain (hplain : ∀ t, d.get? (q ++ [name]) ≠ some (.link t)) :
    Followed root q name d :=
  fun t hlink => absurd hlink (hplain t)

/-- Nothing is found under a directory that is not. -/
theorem find_child_of_route_error {e : Errno} (hp : root.Proper) (hname : Path.IsPart name)
    (hfits : (root.child name).text.utf8ByteSize ≤ maxPath)
    (hr : route d maxLinks (d.startOf root) root.parts = .error e) (aim : Aim) :
    d.find aim (root.child name).text = .error e := by
  have hstart : d.startOf (root.child name) = d.startOf root := rfl
  rw [find_snoc (hp.child hname) (root.child_parts_ne_nil name) hfits, Path.parent_child,
    hstart, hr]

/-- A name that is too long is refused in a directory that is there. -/
theorem find_child_of_overlong (hp : root.Proper) (hname : Path.IsPart name) (hup : name ≠ "..")
    (hn : Overlong root name) (hd : d.directoryAt? root = some q) (aim : Aim) :
    d.find aim (root.child name).text = .error .nameTooLong := by
  obtain ⟨-, links, hr⟩ := (directoryAt?_eq_some_iff hp).mp hd
  have hstart : d.startOf (root.child name) = d.startOf root := rfl
  rw [find_snoc (hp.child hname) (root.child_parts_ne_nil name) hn.path, Path.parent_child,
    hstart, hr, Path.name_child]
  exact walk_long hname hup hn.long aim links

section

variable (hp : root.Proper) (hn : Fits root name)

include hp hn

/-- What is under a name in a directory that is there. -/
theorem find_child (hnull : hasNull (root.child name).text = false)
    (hd : d.directoryAt? root = some q) (aim : Aim)
    (hlink : aim = .itself ∨ ∀ t, d.get? (q ++ [name]) ≠ some (.link t)) :
    d.find aim (root.child name).text = .ok (d.foundAt q name) := by
  obtain ⟨-, links, hr⟩ := (directoryAt?_eq_some_iff hp).mp hd
  have hstart : d.startOf (root.child name) = d.startOf root := rfl
  rw [find_snoc (hp.child hn.part) (root.child_parts_ne_nil name) (hn.path hnull),
    Path.parent_child, hstart, hr, Path.name_child]
  exact walk_name hn.part hn.up (hn.short hnull) hlink links

/-- Nothing is under a name that no entry has. -/
theorem find_nothing (hnull : hasNull (root.child name).text = false)
    (hd : d.directoryAt? root = some q) (hget : d.get? (q ++ [name]) = none) (aim : Aim) :
    d.find aim (root.child name).text = .ok (.vacant q name) := by
  rw [find_child hp hn hnull hd aim (.inr fun t => by rw [hget]; exact nofun), foundAt, hget]

/-- A file or a directory is found under its name. -/
theorem find_something {e : Entry} (hnull : hasNull (root.child name).text = false)
    (hd : d.directoryAt? root = some q) (hget : d.get? (q ++ [name]) = some e)
    (he : ∀ t, e ≠ .link t) (aim : Aim) :
    d.find aim (root.child name).text = .ok (.entry (q ++ [name]) e) := by
  have hplain : ∀ t, d.get? (q ++ [name]) ≠ some (.link t) := fun t ht =>
    he t (Option.some.inj (hget.symm.trans ht))
  rw [find_child hp hn hnull hd aim (.inr hplain), foundAt, hget]

/-- What a look at a name sees. -/
theorem look_child (hd : d.directoryAt? root = some q) (aim : Aim)
    (hlink : aim = .itself ∨ ∀ t, d.get? (q ++ [name]) ≠ some (.link t)) :
    d.look aim (root.child name).text =
      .ok (if hasNull (root.child name).text then none else d.get? (q ++ [name])) := by
  cases hnull : hasNull (root.child name).text with
  | true =>
    unfold look
    rw [hnull]
    rfl
  | false =>
    have hf := find_child hp hn hnull hd aim hlink
    unfold foundAt at hf
    rw [if_neg Bool.false_ne_true]
    cases hget : d.get? (q ++ [name]) with
    | none =>
      rw [hget] at hf
      exact look_of_vacant hf
    | some e =>
      rw [hget] at hf
      exact look_of_entry hnull hf

/-- The path of a directory's directory. -/
theorem directoryAt?_child (hnull : hasNull (root.child name).text = false)
    (hd : d.directoryAt? root = some q) (hget : d.get? (q ++ [name]) = some .directory) :
    d.directoryAt? (root.child name) = some (q ++ [name]) := by
  unfold directoryAt?
  rw [find_something hp hn hnull hd hget (fun _ => Entry.noConfusion) .target]

/-- What a link in a directory leads to, by way of as many links as may still be followed. -/
theorem find_link {links : Nat} {t : String} (hnull : hasNull (root.child name).text = false)
    (hr : route d maxLinks (d.startOf root) root.parts = .ok (links + 1, q))
    (hget : d.get? (q ++ [name]) = some (.link t)) :
    d.find .target (root.child name).text =
      walk d .target links (if isRooted t.toList then [] else q) (componentsOf t.toList) := by
  have hstart : d.startOf (root.child name) = d.startOf root := rfl
  rw [find_snoc (hp.child hn.part) (root.child_parts_ne_nil name) (hn.path hnull),
    Path.parent_child, hstart, hr, Path.name_child]
  dsimp only
  rw [walk, if_neg (not_skipped hn.part), if_neg hn.up, if_neg (content_ne .target),
    if_neg (Nat.not_lt.mpr (hn.short hnull)), hget]
  dsimp only
  rw [if_neg (by decide), List.append_nil]

end

/-- The path that goes up from a directory. -/
theorem directoryAt?_up (hp : root.Proper) (hfits : (root.child "..").text.utf8ByteSize ≤ maxPath)
    (hd : d.directoryAt? root = some q) : d.directoryAt? (root.child "..") = some q.dropLast := by
  obtain ⟨-, links, hr⟩ := (directoryAt?_eq_some_iff hp).mp hd
  have hstart : d.startOf (root.child "..") = d.startOf root := rfl
  refine (directoryAt?_eq_some_iff (hp.child (by decide))).mpr ⟨hfits, links, ?_⟩
  show route d maxLinks (d.startOf (root.child "..")) (root.parts ++ [".."]) = _
  rw [hstart, route_append, hr]
  dsimp only
  rw [route_up, route]

/-! ## The working directory -/

/-- The directory that relative paths start from. -/
def hereDir : Path :=
  ⟨.relative, []⟩

theorem proper_hereDir : hereDir.Proper :=
  fun _ h => absurd h List.not_mem_nil

theorem directoryAt?_hereDir (d : Disk) : d.directoryAt? hereDir = some d.here := by
  refine (directoryAt?_eq_some_iff proper_hereDir).mpr ⟨by decide, maxLinks, ?_⟩
  unfold hereDir
  rw [route]
  rfl

/-! ## Changes in one place -/

/-- The second disk differs from the first at a location and below it only. -/
structure Beside (loc : Location) (d d' : Disk) : Prop where
  here : d'.here = d.here
  outside : ∀ l, ¬ loc <+: l → d'.get? l = d.get? l
  wellFormed : d.WellFormed → d'.WellFormed

variable {d' d'' : Disk} {loc : Location}

theorem Beside.refl (loc : Location) (d : Disk) : Beside loc d d :=
  ⟨rfl, fun _ _ => rfl, id⟩

theorem Beside.trans (h : Beside loc d d') (h' : Beside loc d' d'') : Beside loc d d'' where
  here := h'.here.trans h.here
  outside l hl := (h'.outside l hl).trans (h.outside l hl)
  wellFormed hd := h'.wellFormed (h.wellFormed hd)

theorem not_within_self (q : Location) (name : String) : ¬ q ++ [name] <+: q := by
  intro h
  have hlen := h.length_le
  rw [List.length_append, List.length_singleton] at hlen
  omega

theorem get?_erase_prune_of_prefix (hloc : loc ≠ []) {l : Location} (hl : loc <+: l) :
    ((d.prune loc).erase loc).get? l = none := by
  have hne : l ≠ [] := by
    rintro rfl
    exact hloc (List.prefix_nil.mp hl)
  rw [get?_erase hne]
  split
  case isTrue => rfl
  case isFalse hat => rw [get?_prune hne, if_pos (isBelow_iff.mpr ⟨hl, fun h => hat h.symm⟩)]

theorem get?_prune_self (d : Disk) (loc : Location) : (d.prune loc).get? loc = d.get? loc := by
  by_cases hloc : loc = []
  · rw [hloc, get?_root, get?_root]
  · rw [get?_prune hloc, if_neg fun h => (isBelow_iff.mp h).2 rfl]

theorem beside_prune (d : Disk) (loc : Location) : Beside loc d (d.prune loc) where
  here := rfl
  outside l hl := by
    by_cases hne : l = []
    · rw [hne, get?_root, get?_root]
    · rw [get?_prune hne, if_neg fun h => hl (isBelow_iff.mp h).1]
  wellFormed hd := hd.prune loc

/-- Taking away a location below which there is nothing. -/
theorem beside_erase (hbelow : ∀ below, below ≠ [] → d.get? (loc ++ below) = none) :
    Beside loc d (d.erase loc) where
  here := rfl
  outside l hl := by
    have hat : l ≠ loc := fun h => hl (h ▸ List.prefix_rfl)
    by_cases hne : l = []
    · rw [hne, get?_root, get?_root]
    · rw [get?_erase hne, if_neg hat]
  wellFormed hd := hd.erase hbelow

theorem beside_erase_prune (d : Disk) (hloc : loc ≠ []) :
    Beside loc d ((d.prune loc).erase loc) := by
  refine (beside_prune d loc).trans (beside_erase fun below hb => ?_)
  have hne : loc ++ below ≠ [] := List.append_ne_nil_of_left_ne_nil hloc below
  refine (get?_prune hne).trans (if_pos (isBelow_iff.mpr ⟨List.prefix_append loc below, ?_⟩))
  exact fun h => hb (List.self_eq_append_right.mp h)

/-- Putting something where nothing was. -/
theorem beside_insert (hnone : d.get? (q ++ [name]) = none) (hq : d.get? q = some .directory)
    (e : Entry) : Beside (q ++ [name]) d (d.insert (q ++ [name]) e) where
  here := rfl
  outside l hl := by
    have hat : l ≠ q ++ [name] := fun h => hl (h ▸ List.prefix_rfl)
    by_cases hne : l = []
    · rw [hne, get?_root, get?_root]
    · rw [get?_insert hne, if_neg hat]
  wellFormed hd := hd.insert hnone hq e

/-- The path leads to a directory, and to the same one whatever is under the name in it. -/
structure Site (root : Path) (q : Location) (name : String) (d : Disk) : Prop where
  steady : ∀ d', Beside (q ++ [name]) d d' → d'.directoryAt? root = some q
  directory : d.get? q = some .directory
  wellFormed : d.WellFormed

theorem Site.found (hs : Site root q name d) : d.directoryAt? root = some q :=
  hs.steady d (Beside.refl _ d)

/-- What happens at the place leaves the site alone. -/
theorem Site.beside (hs : Site root q name d) (hd : Beside (q ++ [name]) d d') :
    Site root q name d' where
  steady d'' h := hs.steady d'' (hd.trans h)
  directory := by rw [hd.outside q (not_within_self q name), hs.directory]
  wellFormed := hd.wellFormed hs.wellFormed

/-- The directory at a name is removed with all that is below it. -/
theorem removeTree_child (hp : root.Proper) (hn : Fits root name)
    (hnull : hasNull (root.child name).text = false) (hs : Site root q name d)
    (hget : d.get? (q ++ [name]) = some .directory) :
    d.removeTree (root.child name) = (d.prune (q ++ [name])).erase (q ++ [name]) := by
  have hpruned := hs.beside (beside_prune d (q ++ [name]))
  have hfind := find_child hp hn hnull hs.found .itself (.inl rfl)
  have hfind' := find_child hp hn hnull hpruned.found .itself (.inl rfl)
  unfold foundAt at hfind hfind'
  rw [hget] at hfind
  rw [get?_prune_self, hget] at hfind'
  unfold removeTree
  rw [hfind]
  dsimp only
  rw [hfind']
  dsimp only
  rw [Path.name_child, if_neg hn.up]

end Disk

namespace OutputDir

variable {d : Disk} {root path : Path} {q : Location} {name : String} {h : Host} {w : World}

theorem isTree_run {e : Entry} (ht : w.disk.look .target path.text = .ok (some e))
    (hi : w.disk.look .itself path.text = .ok (some e)) :
    (isTree path).run h w = (.ok (decide (e = .directory)), w) := by
  have hdir : w.disk.isDirectory? path.text = .ok (decide (e = .directory)) := by
    unfold Disk.isDirectory?
    rw [ht]
    cases e <;> rfl
  unfold isTree
  rw [Action.bind_of_ok (Action.askDisk_run hdir)]
  by_cases he : e = .directory
  · subst he
    have hlink : w.disk.isLink? path.text = .ok false := by
      unfold Disk.isLink?
      rw [hi]
      rfl
    rw [decide_eq_true rfl, if_pos rfl, Action.bind_of_ok (Action.askDisk_run hlink)]
    rfl
  · rw [decide_eq_false he, if_neg Bool.false_ne_true]
    rfl

theorem isOccupied_run {e : Entry} (ht : w.disk.look .target path.text = .ok (some e)) :
    (isOccupied path).run h w = (.ok true, w) := by
  have hexists : w.disk.exists? path.text = .ok true := by
    unfold Disk.exists?
    rw [ht]
    rfl
  unfold isOccupied
  rw [Action.bind_of_ok (Action.askDisk_run hexists), if_pos rfl]
  rfl

theorem removeTree_run (hpin : h.pinned path = false) :
    (removeTree path).run h w = (.ok (), { w with disk := w.disk.removeTree path }) := by
  unfold removeTree
  rw [Action.bind_of_ok (Action.host_run h w), hpin, if_neg Bool.false_ne_true]
  rfl

theorem removeEntry_run {d' : Disk} (hpin : h.pinned path = false)
    (hr : w.disk.remove path.text = .ok d') :
    (removeEntry path).run h w = (.ok (), { w with disk := d' }) := by
  unfold removeEntry
  rw [Action.bind_of_ok (Action.host_run h w), hpin, if_neg Bool.false_ne_true,
    Action.bind_of_ok (Action.disk_run h w), hr]
  rfl

/-- A link is no tree, wherever it leads. -/
theorem isTree_of_link {t : String} {e : Option Entry}
    (ht : w.disk.look .target path.text = .ok e)
    (hi : w.disk.look .itself path.text = .ok (some (.link t))) :
    (isTree path).run h w = (.ok false, w) := by
  have hlink : w.disk.isLink? path.text = .ok true := by
    unfold Disk.isLink?
    rw [hi]
    rfl
  have hdir : ∃ there, w.disk.isDirectory? path.text = .ok there := by
    unfold Disk.isDirectory?
    rw [ht]
    exact ⟨_, rfl⟩
  obtain ⟨there, hdir⟩ := hdir
  unfold isTree
  rw [Action.bind_of_ok (Action.askDisk_run hdir)]
  cases there with
  | true =>
    rw [if_pos rfl, Action.bind_of_ok (Action.askDisk_run hlink)]
    rfl
  | false =>
    rw [if_neg Bool.false_ne_true]
    rfl

theorem isOccupied_of_link {t : String} {e : Option Entry}
    (ht : w.disk.look .target path.text = .ok e)
    (hi : w.disk.look .itself path.text = .ok (some (.link t))) :
    (isOccupied path).run h w = (.ok true, w) := by
  have hlink : w.disk.isLink? path.text = .ok true := by
    unfold Disk.isLink?
    rw [hi]
    rfl
  have hexists : w.disk.exists? path.text = .ok e.isSome := by
    unfold Disk.exists?
    rw [ht]
    rfl
  unfold isOccupied
  rw [Action.bind_of_ok (Action.askDisk_run hexists)]
  split
  · rfl
  · exact Action.askDisk_run hlink

/-- Clearing a place where there is no tree removes what is there. -/
theorem clear_of_other {d' : Disk} (htree : (isTree path).run h w = (.ok false, w))
    (hoccupied : (isOccupied path).run h w = (.ok true, w)) (hpin : h.pinned path = false)
    (hr : w.disk.remove path.text = .ok d') :
    (clear path).run h w = (.ok (), { w with disk := d' }) := by
  unfold clear
  rw [Action.bind_of_ok htree, if_neg Bool.false_ne_true, Action.bind_of_ok hoccupied, if_pos rfl,
    removeEntry_run hpin hr]

/-- An entry that is no directory is removed alone. -/
theorem remove_child {e : Entry} (hp : root.Proper) (hn : Disk.Fits root name)
    (hnull : Disk.hasNull (root.child name).text = false) (hd : d.directoryAt? root = some q)
    (hget : d.get? (q ++ [name]) = some e) (he : e ≠ .directory) :
    d.remove (root.child name).text = .ok (d.erase (q ++ [name])) := by
  have hfind := Disk.find_child hp hn hnull hd .itself (.inl rfl)
  unfold Disk.foundAt at hfind
  rw [hget] at hfind
  unfold Disk.remove
  rw [hfind]
  cases e with
  | directory => exact absurd rfl he
  | file content => rfl
  | link t => rfl

section Clearing

variable (hp : root.Proper) (hn : Disk.Fits root name)
  (hnull : Disk.hasNull (root.child name).text = false)
  (hpin : h.pinned (root.child name) = false) (hs : Disk.Site root q name w.disk)

include hp hn hnull hs

theorem look_itself : w.disk.look .itself (root.child name).text =
    .ok (w.disk.get? (q ++ [name])) := by
  have hlook := Disk.look_child hp hn hs.found .itself (.inl rfl)
  rwa [hnull, if_neg Bool.false_ne_true] at hlook

theorem look_target (hlink : ∀ t, w.disk.get? (q ++ [name]) ≠ some (.link t)) :
    w.disk.look .target (root.child name).text = .ok (w.disk.get? (q ++ [name])) := by
  have hlook := Disk.look_child hp hn hs.found .target (.inr hlink)
  rwa [hnull, if_neg Bool.false_ne_true] at hlook

include hpin

theorem clear_directory (hget : w.disk.get? (q ++ [name]) = some .directory) :
    (clear (root.child name)).run h w =
      (.ok (), { w with disk := (w.disk.prune (q ++ [name])).erase (q ++ [name]) }) := by
  have hitself := look_itself hp hn hnull hs
  have htarget := look_target hp hn hnull hs fun t => by
    rw [hget]
    exact nofun
  rw [hget] at hitself htarget
  unfold clear
  rw [Action.bind_of_ok (isTree_run htarget hitself), decide_eq_true rfl, if_pos rfl,
    removeTree_run hpin, Disk.removeTree_child hp hn hnull hs hget]

theorem clear_entry {e : Entry} (hf : Disk.Followed root q name w.disk)
    (hget : w.disk.get? (q ++ [name]) = some e) (he : e ≠ .directory) :
    (clear (root.child name)).run h w =
      (.ok (), { w with disk := w.disk.erase (q ++ [name]) }) := by
  have hitself := look_itself hp hn hnull hs
  rw [hget] at hitself
  have hremove := remove_child hp hn hnull hs.found hget he
  by_cases hlink : ∃ t, e = .link t
  · obtain ⟨t, rfl⟩ := hlink
    obtain ⟨-, e, htarget⟩ := hf t hget
    exact clear_of_other (isTree_of_link htarget hitself) (isOccupied_of_link htarget hitself)
      hpin hremove
  · have htarget := look_target hp hn hnull hs fun t => by
      rw [hget, ne_eq, Option.some.injEq]
      exact fun h => hlink ⟨t, h⟩
    rw [hget] at htarget
    have htree := isTree_run (h := h) htarget hitself
    rw [decide_eq_false he] at htree
    exact clear_of_other htree (isOccupied_run htarget) hpin hremove

end Clearing

/-- **Clearing a place**: all that is there is gone, and nothing else. A place whose path has a null
character cannot be looked at and is left as it is. -/
theorem clear_child (hp : root.Proper) (hn : Disk.Fits root name)
    (hpin : h.pinned (root.child name) = false) (hs : Disk.Site root q name w.disk)
    (hf : Disk.Followed root q name w.disk) :
    ∃ d', (clear (root.child name)).run h w = (.ok (), { w with disk := d' }) ∧
      Disk.Beside (q ++ [name]) w.disk d' ∧
      if Disk.hasNull (root.child name).text then d' = w.disk
      else ∀ l, q ++ [name] <+: l → d'.get? l = none := by
  have hne := Disk.concat_ne_nil q name
  cases hnull : Disk.hasNull (root.child name).text with
  | true =>
    have hlook := fun aim => Disk.look_of_null (d := w.disk) hnull aim
    exact ⟨w.disk, clear_of_absent (hlook .target) (hlook .itself), .refl _ _, rfl⟩
  | false =>
    cases hget : w.disk.get? (q ++ [name]) with
    | none =>
      have hitself := look_itself hp hn hnull hs
      have htarget := look_target hp hn hnull hs fun t => by
        rw [hget]
        exact nofun
      rw [hget] at hitself htarget
      exact ⟨w.disk, clear_of_absent htarget hitself, .refl _ _, hs.wellFormed.vacant hget⟩
    | some e =>
      by_cases he : e = .directory
      · subst he
        exact ⟨_, clear_directory hp hn hnull hpin hs hget, Disk.beside_erase_prune _ hne,
          fun l hl => Disk.get?_erase_prune_of_prefix hne hl⟩
      · have hbelow := hs.wellFormed.below (by rw [hget, ne_eq, Option.some.injEq]; exact he)
        refine ⟨_, clear_entry hp hn hnull hpin hs hf hget he, Disk.beside_erase hbelow, ?_⟩
        rintro _ ⟨below, rfl⟩
        rw [Disk.get?_erase (List.append_ne_nil_of_left_ne_nil hne below)]
        split
        case isTrue => rfl
        case isFalse hat =>
          refine hbelow below fun hb => hat ?_
          rw [hb, List.append_nil]

/-! ## Preparing -/

/-- The directory that has to be there when the tool starts. -/
def wanted (b : Backend) (root : Path) (name : String) : Path :=
  if b.tool.wantsOutputDir then root.child name else root

/-- What preparing a place returns, if its directory can be made. -/
def prepared (b : Backend) (root : Path) (name : String) : Except Fault Path :=
  if Disk.hasNull (wanted b root name).text then .error .nullByte else .ok (root.child name)

variable {b : Backend} {c : Config} {job : Job}

/-- Preparing, once it is known that the tool is a verifier and where the place is. -/
theorem prepare_eq (hb : b.IsVerifier) (hout : b.outputDir c job = root.child name) :
    prepare b c job = clear (root.child name) >>= fun _ =>
      (Action.askDisk fun d => d.exists? (root.child name).text) >>= fun there =>
        if there then Action.fail (.job (.outputInTheWay (root.child name).text))
        else Action.makeDirectories (wanted b root name) >>= fun _ => pure (root.child name) := by
  have hparent : (if b.tool.wantsOutputDir then root.child name else (root.child name).parent) =
      wanted b root name := by
    rw [Path.parent_child]
    rfl
  rcases Backend.isVerifier_iff.mp hb with rfl | rfl | rfl
  all_goals
    unfold prepare
    dsimp only
    rw [hout, hparent]

/-- Making a directory whose path has a null character. -/
theorem makeDirectories_null (hn : Disk.hasNull path.text = true) :
    (Action.makeDirectories path).run h w = (.error .nullByte, w) := by
  unfold Action.makeDirectories Action.refuseNull
  rw [if_pos hn]
  rfl

/-- What follows when nothing is in the way. -/
theorem prepare_of_clear {w' : World} (hb : b.IsVerifier)
    (hout : b.outputDir c job = root.child name)
    (hclear : (clear (root.child name)).run h w = (.ok (), w'))
    (hlook : w'.disk.look .target (root.child name).text = .ok none) :
    (prepare b c job).run h w =
      (Action.makeDirectories (wanted b root name) >>= fun _ =>
        (pure (root.child name) : Action Path)).run h w' := by
  rw [prepare_eq hb hout, Action.bind_of_ok hclear,
    Action.bind_of_ok (Action.askDisk_run (Disk.exists?_of_absent hlook)),
    if_neg Bool.false_ne_true]

/-- What is at a place that has been prepared. -/
def readied (b : Backend) (below : Location) : Option Entry :=
  if b.tool.wantsOutputDir ∧ below = [] then some .directory else none

/-- The disk with a directory at a free place, if the tool wants one. -/
def withPlace (b : Backend) (d : Disk) (loc : Location) : Disk :=
  if b.tool.wantsOutputDir then d.insert loc .directory else d

theorem beside_withPlace (hnone : d.get? (q ++ [name]) = none) (hq : d.get? q = some .directory) :
    Disk.Beside (q ++ [name]) d (withPlace b d (q ++ [name])) := by
  unfold withPlace
  split
  · exact Disk.beside_insert hnone hq _
  · exact .refl _ _

theorem get?_withPlace (hnone : ∀ l, q ++ [name] <+: l → d.get? l = none) (below : Location) :
    (withPlace b d (q ++ [name])).get? (q ++ [name] ++ below) = readied b below := by
  have hne : q ++ [name] ++ below ≠ [] :=
    List.append_ne_nil_of_left_ne_nil (Disk.concat_ne_nil q name) below
  have hbelow := hnone _ (List.prefix_append (q ++ [name]) below)
  unfold withPlace readied
  cases b.tool.wantsOutputDir with
  | true =>
    rw [if_pos rfl, Disk.get?_insert hne]
    by_cases hb : below = []
    · rw [if_pos (by rw [hb, List.append_nil]), if_pos ⟨rfl, hb⟩]
    · rw [if_neg fun h => hb (List.append_right_eq_self.mp h), if_neg fun h => hb h.2, hbelow]
  | false => rw [if_neg Bool.false_ne_true, if_neg fun h => Bool.false_ne_true h.1, hbelow]

/-- What is left to do once a place is clear, in a directory that is there. -/
theorem makeWanted_run (hp : root.Proper) (hn : Disk.Fits root name)
    (hd : w.disk.directoryAt? root = some q)
    (hnone : b.tool.wantsOutputDir = true → w.disk.get? (q ++ [name]) = none)
    (hnull : Disk.hasNull (wanted b root name).text = false) :
    (Action.makeDirectories (wanted b root name) >>= fun _ =>
        (pure (root.child name) : Action Path)).run h w =
      (.ok (root.child name), { w with disk := withPlace b w.disk (q ++ [name]) }) := by
  have hensure : w.disk.ensureDirectory (wanted b root name).text =
      .ok (withPlace b w.disk (q ++ [name])) := by
    unfold wanted at hnull ⊢
    unfold withPlace
    cases hw : b.tool.wantsOutputDir with
    | true =>
      rw [hw] at hnull
      have hfree := hnone hw
      have hfind := Disk.find_child hp hn hnull hd .itself (.inl rfl)
      unfold Disk.foundAt at hfind
      rw [hfree] at hfind
      exact Disk.ensureDirectory_of_vacant hfind
    | false =>
      rw [hw] at hnull
      exact Disk.ensureDirectory_of_directoryAt hp hnull hd
  rw [Action.bind_of_ok (makeDirectories_run hnull hensure)]
  rfl

/-- A null character in a directory's path is one in the paths of all that is in it. -/
theorem hasNull_child (hne : root.parts ≠ []) (hn : Disk.hasNull root.text = true)
    (name : String) : Disk.hasNull (root.child name).text = true := by
  have hparent : (root.child name).parent.parts ≠ [] := by rwa [Path.parent_child]
  rw [Path.text_of_parent hparent, Path.parent_child]
  unfold Disk.hasNull at hn ⊢
  rw [String.toList_append, String.toList_append, List.contains_iff_mem] at *
  exact List.mem_append_left _ (List.mem_append_left _ hn)

theorem hasNull_of_wanted (hne : root.parts ≠ [])
    (hn : Disk.hasNull (wanted b root name).text = true) :
    Disk.hasNull (root.child name).text = true := by
  unfold wanted at hn
  split at hn
  · exact hn
  · exact hasNull_child hne hn name

/-- What cannot be looked at is wanted by no tool that the directory above it is enough for. -/
theorem wantsOutputDir_eq_false (hnull : Disk.hasNull (wanted b root name).text = false)
    (hout : Disk.hasNull (root.child name).text = true) : b.tool.wantsOutputDir = false := by
  unfold wanted at hnull
  cases hw : b.tool.wantsOutputDir with
  | false => rfl
  | true =>
    rw [hw, if_pos rfl, hout] at hnull
    cases hnull

/-- Nothing is prepared where the operating system cannot be asked for a directory. -/
theorem prepare_null (hne : root.parts ≠ []) (hb : b.IsVerifier)
    (hout : b.outputDir c job = root.child name)
    (hnull : Disk.hasNull (wanted b root name).text = true) :
    (prepare b c job).run h w = (prepared b root name, w) := by
  have hlook : ∀ aim, w.disk.look aim (root.child name).text = .ok none :=
    Disk.look_of_null (hasNull_of_wanted hne hnull)
  have hclear : (clear (root.child name)).run h w = (.ok (), w) :=
    clear_of_absent (hlook .target) (hlook .itself)
  rw [prepare_of_clear hb hout hclear (hlook .target),
    Action.bind_of_error (makeDirectories_null hnull), prepared, if_pos hnull]

/-- **Preparing a place** in a directory that is there clears it and makes what the tool wants,
whatever else is on the disk. -/
theorem prepare_child (hp : root.Proper) (hne : root.parts ≠ []) (hn : Disk.Fits root name)
    (hb : b.IsVerifier) (hout : b.outputDir c job = root.child name)
    (hpin : h.pinned (root.child name) = false) (hs : Disk.Site root q name w.disk)
    (hf : Disk.Followed root q name w.disk) :
    ∃ d', (prepare b c job).run h w = (prepared b root name, { w with disk := d' }) ∧
      Disk.Beside (q ++ [name]) w.disk d' ∧
      if Disk.hasNull (root.child name).text then d' = w.disk
      else ∀ below, d'.get? (q ++ [name] ++ below) = readied b below := by
  cases hnull : Disk.hasNull (wanted b root name).text with
  | true =>
    rw [hasNull_of_wanted hne hnull]
    exact ⟨w.disk, prepare_null hne hb hout hnull, .refl _ _, rfl⟩
  | false =>
    obtain ⟨d₁, hclear, hbeside, hcleared⟩ := clear_child hp hn hpin hs hf
    have hs₁ := hs.beside hbeside
    have hprepared : prepared b root name = .ok (root.child name) := by
      rw [prepared, hnull, if_neg Bool.false_ne_true]
    rw [hprepared]
    cases hout' : Disk.hasNull (root.child name).text with
    | true =>
      rw [hout', if_pos rfl] at hcleared
      subst hcleared
      have hw := wantsOutputDir_eq_false hnull hout'
      have hrun := makeWanted_run (w := w) (h := h) (b := b) hp hn hs.found
        (fun h => by rw [hw] at h; cases h) hnull
      refine ⟨_, ?_, .refl _ _, rfl⟩
      rw [prepare_of_clear hb hout hclear (Disk.look_of_null hout' _)]
      rw [withPlace, hw, if_neg Bool.false_ne_true] at hrun
      exact hrun
    | false =>
      rw [hout', if_neg Bool.false_ne_true] at hcleared
      have hnone := hcleared _ List.prefix_rfl
      have hlook : d₁.look .target (root.child name).text = .ok none := by
        rw [Disk.look_child hp hn hs₁.found .target (.inr fun t => by rw [hnone]; exact nofun),
          hout', hnone]
        rfl
      refine ⟨withPlace b d₁ (q ++ [name]), ?_,
        hbeside.trans (beside_withPlace hnone hs₁.directory), ?_⟩
      · rw [prepare_of_clear hb hout hclear hlook]
        exact makeWanted_run hp hn hs₁.found (fun _ => hnone) hnull
      · rw [if_neg Bool.false_ne_true]
        exact get?_withPlace hcleared

/-! ## Where the directory is not there yet -/

theorem makeDirectories_wanted {base : Disk} (hp : root.Proper) (hn : Disk.Fits root name)
    (hmade : d.makeDirectories root = (base, .ok ())) (hfound : base.directoryAt? root = some q)
    (hfree : base.get? (q ++ [name]) = none)
    (hnull : Disk.hasNull (wanted b root name).text = false)
    (hr : d.route Disk.maxLinks (d.startOf root) root.parts = .error .noEntry) :
    d.makeDirectories (wanted b root name) = (withPlace b base (q ++ [name]), .ok ()) := by
  unfold wanted at hnull ⊢
  unfold withPlace
  cases hw : b.tool.wantsOutputDir with
  | false => exact hmade
  | true =>
    rw [hw] at hnull
    have hmissing := Disk.find_child_of_route_error hp hn.part (hn.path hnull) hr
    obtain ⟨loc, hlocated⟩ := Disk.makeDirectories_ok_iff.mp hmade
    obtain ⟨q', rfl, hq', -⟩ := Disk.makeLocated_ok d hp hlocated
    obtain rfl : q = q' := Option.some.inj (hfound.symm.trans hq')
    have hisFree : base.isFree q (root.child name).name = true := by
      rw [Path.name_child, Disk.isFree, hfree, decide_eq_true hn.up,
        decide_eq_true (hn.short hnull)]
      rfl
    have hinside : base.ensureInside (some q) (root.child name) =
        .ok (base.insert (q ++ [name]) .directory, some (q ++ [name])) := by
      unfold Disk.ensureInside
      rw [Option.filter_some, if_pos hisFree, Path.name_child]
    rw [← Path.parent_child root name] at hlocated
    exact Disk.makeDirectories_ok_iff.mpr ⟨_, Disk.makeLocated_of_missing (hmissing .itself)
      (Path.child_ne_parent root name) hlocated hinside⟩

/-- **Preparing a place in a directory that has to be made first**: it is made, and the disk is then
the one that preparing the place would have come to had it been there. -/
theorem prepare_unmade {base : Disk} (hp : root.Proper) (hn : Disk.Fits root name)
    (hb : b.IsVerifier) (hout : b.outputDir c job = root.child name)
    (hnone : w.disk.directoryAt? root = none)
    (hmade : w.disk.makeDirectories root = (base, .ok ()))
    (hfound : base.directoryAt? root = some q) (hfree : base.get? (q ++ [name]) = none)
    (hnull : Disk.hasNull (wanted b root name).text = false)
    (hfew : w.disk.missingAncestors (wanted b root name) ≤ h.maxMissing) :
    (prepare b c job).run h w =
      (.ok (root.child name), { w with disk := withPlace b base (q ++ [name]) }) := by
  have hr := Disk.route_of_made hp hnone hmade
  have hlook : ∀ aim, w.disk.look aim (root.child name).text = .ok none := by
    intro aim
    cases hout' : Disk.hasNull (root.child name).text with
    | true => exact Disk.look_of_null hout' aim
    | false =>
      unfold Disk.look
      rw [hout', Disk.find_child_of_route_error hp hn.part (hn.path hout') hr]
      rfl
  rw [prepare_of_clear hb hout (clear_of_absent (hlook .target) (hlook .itself)) (hlook .target),
    Action.bind_of_ok (makeDirectories_run_of_few hnull hfew
      (makeDirectories_wanted hp hn hmade hfound hfree hnull hr))]
  rfl

/-- How many directories are missing depends on what the tool wants, not on the place. -/
theorem missingAncestors_wanted (hp : root.Proper) (hname : Path.IsPart name)
    (hfits : b.tool.wantsOutputDir = true → (root.child name).text.utf8ByteSize ≤ Disk.maxPath)
    (hr : d.route Disk.maxLinks (d.startOf root) root.parts = .error .noEntry) :
    d.missingAncestors (wanted b root name) =
      d.missingAncestors root + if b.tool.wantsOutputDir then 1 else 0 := by
  unfold wanted
  split
  case isTrue hw =>
    have hmissing := Disk.find_child_of_route_error hp hname (hfits hw) hr .itself
    rw [Disk.missingAncestors_of_missing hmissing (Path.child_ne_parent root name),
      Path.parent_child]
  case isFalse => rfl

/-- Nothing can be made for the tool in a directory that is missing: too many directories are, or
one of them cannot be made. -/
def Hopeless (h : Host) (b : Backend) (root : Path) (d : Disk) : Prop :=
  h.maxMissing < d.missingAncestors root + (if b.tool.wantsOutputDir then 1 else 0) ∨
    ∃ f, d.makeDirectories root = (d, .error f)

/-- The directory that a tool wants cannot be made if the one for all results cannot. -/
theorem Hopeless.wanted {e : Errno} (hf : Hopeless h b root d) (hp : root.Proper)
    (hname : Path.IsPart name)
    (hfits : b.tool.wantsOutputDir = true → (root.child name).text.utf8ByteSize ≤ Disk.maxPath)
    (hr : d.route Disk.maxLinks (d.startOf root) root.parts = .error e) :
    h.maxMissing < d.missingAncestors (OutputDir.wanted b root name) ∨
      ∃ f, d.makeDirectories (OutputDir.wanted b root name) = (d, .error f) := by
  by_cases he : e = .noEntry
  · subst he
    refine hf.imp (fun hdeep => ?_) fun hblocked => ?_
    · rwa [missingAncestors_wanted hp hname hfits hr]
    · obtain ⟨f, hblocked⟩ := hblocked
      unfold OutputDir.wanted
      split
      case isFalse => exact ⟨f, hblocked⟩
      case isTrue hw =>
        have hmissing := Disk.find_child_of_route_error hp hname (hfits hw) hr .itself
        obtain ⟨r, hlocated, hr⟩ := Disk.makeLocated_of_makeDirectories hblocked
        cases r with
        | ok loc => cases hr
        | error g =>
          rw [← Path.parent_child root name] at hlocated
          refine ⟨g, ?_⟩
          unfold Disk.makeDirectories
          rw [Disk.makeLocated_error_of_missing hmissing (Path.child_ne_parent root name) hlocated]
          rfl
  · unfold Hopeless at hf
    unfold OutputDir.wanted
    split
    case isFalse hw => rwa [if_neg hw] at hf
    case isTrue hw =>
      exact .inr (Disk.makeDirectories_of_find_error (hp.child hname) he
        (Disk.find_child_of_route_error hp hname (hfits hw) hr .itself))

/-- Making directories that ends in a fault and has made none. -/
theorem makeDirectories_fails (h : Host)
    (hfail : h.maxMissing < d.missingAncestors path ∨
      ∃ f, d.makeDirectories path = (d, .error f)) :
    ∃ f, ∀ w : World, w.disk = d → (Action.makeDirectories path).run h w = (.error f, w) := by
  cases hn : Disk.hasNull path.text with
  | true => exact ⟨_, fun w _ => makeDirectories_null hn⟩
  | false =>
    by_cases hdeep : h.maxMissing < d.missingAncestors path
    · refine ⟨.tooDeep, fun w hw => ?_⟩
      unfold Action.makeDirectories
      rw [Action.bind_of_ok (Action.refuseNull_run hn), Action.bind_of_ok (Action.host_run h w),
        Action.bind_of_ok (Action.disk_run h w), hw, if_pos hdeep]
      rfl
    · obtain ⟨f, hm⟩ := hfail.resolve_left hdeep
      refine ⟨.disk f, fun w hw => ?_⟩
      subst hw
      exact makeDirectories_run_of_few hn (Nat.le_of_not_lt hdeep) hm

/-- A place that cannot be looked at is not cleared. -/
theorem clear_of_look_error {f : OsFault} (hl : w.disk.look .target path.text = .error f) :
    (clear path).run h w = (.error (.disk f), w) := by
  have hdir : w.disk.isDirectory? path.text = .error f := by
    unfold Disk.isDirectory?
    rw [hl]
    rfl
  have hask : (Action.askDisk fun d => d.isDirectory? path.text).run h w =
      (.error (.disk f), w) := Action.askDisk_run_error hdir
  rw [clear, isTree]
  exact Action.bind_of_error (Action.bind_of_error hask _) _

/-- A place that cannot be looked at is not prepared. -/
theorem prepare_of_look_error {f : OsFault} (hb : b.IsVerifier)
    (hout : b.outputDir c job = root.child name)
    (hl : w.disk.look .target (root.child name).text = .error f) :
    (prepare b c job).run h w = (.error (.disk f), w) := by
  rw [prepare_eq hb hout]
  exact Action.bind_of_error (clear_of_look_error hl) _

theorem prepare_of_find_error {e : Errno} (hb : b.IsVerifier)
    (hout : b.outputDir c job = root.child name)
    (hnull : Disk.hasNull (root.child name).text = false) (he : Disk.isAbsence e = false)
    (hf : w.disk.find .target (root.child name).text = .error e) :
    (prepare b c job).run h w = (.error (.disk (.ofErrno e (root.child name).text)), w) := by
  refine prepare_of_look_error hb hout ?_
  unfold Disk.look
  rw [hnull, hf]
  dsimp only
  rw [he]
  rfl

theorem look_of_absence {e : Errno} {aim : Disk.Aim} (he : Disk.isAbsence e = true)
    (hf : d.find aim path.text = .error e) : d.look aim path.text = .ok none := by
  unfold Disk.look
  rw [hf]
  dsimp only
  rw [he]
  split <;> rfl

/-- A place that nothing is at, where nothing can be made. -/
theorem prepare_of_absent (hb : b.IsVerifier) (hout : b.outputDir c job = root.child name)
    (hlook : ∀ aim, d.look aim (root.child name).text = .ok none) (h : Host)
    (hfail : h.maxMissing < d.missingAncestors (wanted b root name) ∨
      ∃ f, d.makeDirectories (wanted b root name) = (d, .error f)) :
    ∃ f, ∀ w : World, w.disk = d → (prepare b c job).run h w = (.error f, w) := by
  obtain ⟨f, hmake⟩ := makeDirectories_fails h hfail
  refine ⟨f, fun w hw => ?_⟩
  rw [← hw] at hlook
  rw [prepare_of_clear hb hout (clear_of_absent (hlook .target) (hlook .itself)) (hlook .target),
    Action.bind_of_error (hmake w hw)]

/-- **Preparing a place whose directory cannot be made** changes nothing. -/
theorem prepare_hopeless (hp : root.Proper) (hne : root.parts ≠ [])
    (hname : Path.IsPart name) (hb : b.IsVerifier) (hout : b.outputDir c job = root.child name)
    (hnone : Disk.hasNull root.text = false → d.directoryAt? root = none) (h : Host)
    (hf : Hopeless h b root d) :
    ∃ f, ∀ w : World, w.disk = d → (prepare b c job).run h w = (.error f, w) := by
  cases hnull : Disk.hasNull (root.child name).text with
  | true =>
    cases hwanted : Disk.hasNull (wanted b root name).text with
    | true =>
      refine ⟨.nullByte, fun w _ => ?_⟩
      rw [prepare_null hne hb hout hwanted, prepared, if_pos hwanted]
    | false =>
      have hw := wantsOutputDir_eq_false hwanted hnull
      refine prepare_of_absent hb hout (Disk.look_of_null hnull) h ?_
      unfold Hopeless at hf
      unfold wanted
      rwa [hw] at hf ⊢
  | false =>
    by_cases hfits : (root.child name).text.utf8ByteSize ≤ Disk.maxPath
    · have hroot : Disk.hasNull root.text = false :=
        Bool.eq_false_iff.mpr fun h => by rw [hasNull_child hne h] at hnull; cases hnull
      have hparent := Path.utf8ByteSize_parent_le (hp.child hname)
      rw [Path.parent_child] at hparent
      obtain ⟨e, hr⟩ := Disk.route_error_of_not_directoryAt hp (Nat.le_trans hparent hfits)
        (hnone hroot)
      have hfind := Disk.find_child_of_route_error hp hname hfits hr
      cases he : Disk.isAbsence e with
      | true =>
        exact prepare_of_absent hb hout (fun aim => look_of_absence he (hfind aim)) h
          (hf.wanted hp hname (fun _ => hfits) hr)
      | false =>
        refine ⟨_, fun w hw => prepare_of_find_error hb hout hnull he ?_⟩
        rw [hw]
        exact hfind .target
    · refine ⟨_, fun w hw => prepare_of_find_error (e := .nameTooLong) hb hout hnull rfl ?_⟩
      exact Disk.find_of_long (hp.child hname) (Nat.lt_of_not_le hfits) _

end OutputDir

end Assay

import Assay.Proofs.Frames
import Assay.Proofs.Independence

/-!
# Fresh places

What a place is like once it has been prepared. It has been cleared first, and nothing is found at
it then, so the directories that are made are all that is new. `prepare_fresh`: whatever was at the
place, a file, a directory, or a link to somewhere or nowhere, the directory above it is there
afterwards, a link is gone but not what it led to, and the rest of the disk is as it was, but for
the directories that had to be made on the way.

The place is fresh, too, `Fresh`, if its path is `Straight`: behind what is there of it, it never
goes up again. A path that goes into a missing directory and up again leads nowhere while the place
is cleared. When the missing directory has been made it leads to whatever was there before:
`prepare_stale`.
-/

namespace Assay

namespace Disk

variable {d d' : Disk} {root p : Path} {q loc l : Location} {name : String} {e : Entry}

/-! ## Paths that do not go up again -/

/-- What the path leads to is known up to some directory, and behind it the path does not go up. -/
def Straight (d : Disk) (p : Path) : Prop :=
  ∃ front rest, p.parts = front ++ rest ∧ (∃ q, d.directoryAt? ⟨p.anchor, front⟩ = some q) ∧
    ".." ∉ rest

theorem directoryAt?_nil (d : Disk) (a : Anchor) : ∃ q, d.directoryAt? ⟨a, []⟩ = some q := by
  refine ⟨d.startOf ⟨a, []⟩, (directoryAt?_eq_some_iff (fun _ h => absurd h List.not_mem_nil)).mpr
    ⟨?_, maxLinks, by rw [route]⟩⟩
  cases a <;> decide

theorem straight_of_no_up (d : Disk) (hup : ".." ∉ p.parts) : d.Straight p :=
  ⟨[], p.parts, rfl, directoryAt?_nil d p.anchor, hup⟩

/-- A path that is not there yet has a last component to be made, and all the others before it. -/
theorem Straight.parent (hs : d.Straight p) (hnone : d.directoryAt? p = none) :
    d.Straight p.parent ∧ p.name ≠ ".." := by
  obtain ⟨front, rest, hparts, ⟨q, hq⟩, hup⟩ := hs
  rcases List.eq_nil_or_concat rest with rfl | ⟨init, last, rfl⟩
  · rw [List.append_nil] at hparts
    rw [← hparts, hnone] at hq
    cases hq
  · rw [List.concat_eq_append] at hparts hup
    have hname : p.name = last := by
      unfold Path.name
      rw [hparts, ← List.append_assoc, List.getLast?_concat, Option.getD_some]
    refine ⟨⟨front, init, ?_, ⟨q, hq⟩, fun h => hup (List.mem_append_left _ h)⟩, ?_⟩
    · show p.parts.dropLast = _
      rw [hparts, ← List.append_assoc, List.dropLast_concat]
    · rintro hlast
      exact hup (List.mem_append_right _ (List.mem_singleton.mpr (hlast.symm.trans hname)))

/-! ## What is made is empty -/

/-- Nothing is below the location. -/
def Bare (d : Disk) (q : Location) : Prop :=
  ∀ below, below ≠ [] → d.get? (q ++ below) = none

theorem WellFormed.bare (hd : d.WellFormed) (hnone : d.get? q = none) : d.Bare q :=
  fun below _ => hd.vacant hnone _ (List.prefix_append q below)

theorem Bare.inside (hb : d.Bare q) (name : String) : d.Bare (q ++ [name]) := by
  intro below _
  rw [List.append_assoc]
  exact hb _ (List.cons_ne_nil name below)

theorem Bare.insert (hb : d.Bare q) (e : Entry) : (d.insert q e).Bare q := by
  intro below hne
  rw [get?_insert (List.append_ne_nil_of_right_ne_nil q hne),
    if_neg fun h => hne (List.append_right_eq_self.mp h)]
  exact hb below hne

/-- In a directory that is there a path is not missing, though nothing may be at it. -/
theorem find_ne_noEntry (hp : p.Proper) (hne : p.parts ≠ [])
    (hq : d.directoryAt? p.parent = some q) : d.find .itself p.text ≠ .error .noEntry := by
  intro hf
  have hfits := length_le_of_missing hp (by decide) hf
  obtain ⟨-, links, hr⟩ := (directoryAt?_eq_some_iff hp.parent).mp hq
  rw [startOf_parent] at hr
  rw [find_snoc hp hne hfits, hr] at hf
  dsimp only at hf
  have hname := hp.name hne
  by_cases hup : p.name = ".."
  · rw [walk, if_neg (not_skipped hname), if_pos hup, walk] at hf
    cases hf
  · by_cases hlong : maxName < p.name.utf8ByteSize
    · rw [walk_long hname hup hlong] at hf
      cases hf
    · rw [walk_name hname hup (Nat.le_of_not_lt hlong) (.inl rfl)] at hf
      cases hf

/-- A name that is too long is not found in any directory. -/
theorem find_of_long_name (hp : p.Proper) (hne : p.parts ≠ []) (hup : p.name ≠ "..")
    (hq : d.directoryAt? p.parent = some q) (hlong : maxName < p.name.utf8ByteSize) :
    d.find .itself p.text = .error .nameTooLong := by
  by_cases hfits : p.text.utf8ByteSize ≤ maxPath
  · obtain ⟨-, links, hr⟩ := (directoryAt?_eq_some_iff hp.parent).mp hq
    rw [startOf_parent] at hr
    rw [find_snoc hp hne hfits, hr]
    exact walk_long (hp.name hne) hup hlong _ _
  · exact find_of_long hp (Nat.lt_of_not_le hfits) _

/-- In a directory with nothing of that name, making one is putting it there. -/
theorem ensureInside_eq {made : Option Location} (hp : p.Proper) (hne : p.parts ≠ [])
    (hup : p.name ≠ "..") (hq : d.directoryAt? p.parent = some q)
    (hnone : d.get? (q ++ [p.name]) = none)
    (hi : d.ensureInside (some q) p = .ok (d', made)) :
    d' = d.insert (q ++ [p.name]) .directory ∧ made = some (q ++ [p.name]) := by
  unfold ensureInside at hi
  split at hi
  case h_1 z hz =>
    obtain ⟨hz, -⟩ := Option.filter_eq_some_iff.mp hz
    cases hz
    cases hi
    exact ⟨rfl, rfl⟩
  case h_2 hfull =>
    -- the name is free, so it is too long
    have hlong : maxName < p.name.utf8ByteSize := by
      refine Nat.lt_of_not_le fun hshort => ?_
      have hfree : d.isFree q p.name = true := by
        rw [isFree, hnone, decide_eq_true hup, decide_eq_true hshort]
        rfl
      rw [Option.filter_some, if_pos hfree] at hfull
      cases hfull
    obtain ⟨f, he⟩ :=
      ensureDirectory_of_find_error hp (find_of_long_name hp hne hup hq hlong)
    rw [he] at hi
    cases hi

/-- A directory that is there is not made in another one. -/
theorem ensureInside_of_directoryAt {z : Location} (hp : p.Proper) (hn : hasNull p.text = false)
    (hfull : d.isFree z p.name = false) (hq : d.directoryAt? p = some q) :
    d.ensureInside (some z) p = .ok (d, some q) := by
  have hnone : (some z).filter (fun loc => d.isFree loc p.name) = none := by
    rw [Option.filter_some, hfull, if_neg Bool.false_ne_true]
  unfold ensureInside
  rw [hnone]
  dsimp only
  rw [ensureDirectory_of_directoryAt hp hn hq, ← hq]
  rfl

/-- **What is made is empty**: a straight path that was not there leads to a directory with nothing
in it. -/
theorem makeLocated_bare (hd : d.WellFormed) {p : Path} (hp : p.Proper) (hs : d.Straight p)
    (hnone : d.directoryAt? p = none) {d' : Disk} {loc : Option Location}
    (hm : d.makeLocated p = (d', .ok loc)) : ∃ q, d'.directoryAt? p = some q ∧ d'.Bare q := by
  rcases makeLocated_cases hm with ⟨hensure, -⟩ | ⟨hf, hparent, d₁, parent, hrest, hinside⟩
  · have hensures := ensures_ensureDirectory d p
    rw [hensure] at hensures
    cases hensures with
    | there hq =>
      rw [hnone] at hq
      cases hq
    | @made q name hf =>
      have hfound := find_filled hp (e := .directory) nofun (find_target_of_vacant hp hf)
      refine ⟨q ++ [name], ?_, (hd.bare (get?_of_find_vacant hp hf)).insert _⟩
      unfold directoryAt?
      rw [hfound]
  · have := Path.length_parent_lt hparent
    have hne := Path.parent_ne hparent
    obtain ⟨hs', hup⟩ := hs.parent hnone
    have hnone' : d.directoryAt? p.parent = none := by
      refine Option.eq_none_iff_forall_ne_some.mpr fun q hq => ?_
      exact find_ne_noEntry hp hne hq hf
    obtain ⟨q, hq, hbare⟩ := makeLocated_bare hd hp.parent hs' hnone' hrest
    obtain ⟨q', rfl, hq', hgrown⟩ := makeLocated_ok d hp.parent hrest
    obtain rfl : q = q' := Option.some.inj (hq.symm.trans hq')
    have hfits := length_le_of_missing hp (by decide) hf
    have hfree := hbare [p.name] (List.cons_ne_nil _ _)
    obtain ⟨rfl, rfl⟩ := ensureInside_eq hp hne hup hq hfree hinside
    obtain ⟨z, hz, hfound, -⟩ := ensureInside_ok hp hne hfits hq hinside
    obtain rfl : q ++ [p.name] = z := Option.some.inj hz
    exact ⟨_, hfound, (hbare.inside p.name).insert _⟩
termination_by p.parts.length

/-! ## The rest of the disk -/

/-- In a directory that is there, a name that does not fit cannot be looked for. -/
theorem find_of_not_fits (hp : root.Proper) (hname : Path.IsPart name) (hup : name ≠ "..")
    (hn : ¬ Fits root name) (hq : d.directoryAt? root = some q) (aim : Aim) :
    hasNull (root.child name).text = false ∧
      d.find aim (root.child name).text = .error .nameTooLong := by
  obtain ⟨hnull, hlong⟩ := not_fits hname hup hn
  refine ⟨hnull, ?_⟩
  rcases hlong with hlong | hlong
  · exact find_of_long (hp.child hname) hlong _
  · exact find_child_of_overlong hp hname hup hlong hq _

/-- What a name in a directory leads to is in that directory. -/
theorem entry_of_find_child (hp : root.Proper) (hname : Path.IsPart name) (hup : name ≠ "..")
    (hf : d.find .itself (root.child name).text = .ok (.entry loc e)) :
    ∃ q, d.directoryAt? root = some q ∧ loc = q ++ [name] ∧ d.get? (q ++ [name]) = some e := by
  have hchild := hp.child hname
  have hfits : (root.child name).text.utf8ByteSize ≤ maxPath :=
    Nat.le_of_not_lt fun hlong => by
      rw [find_of_long hchild hlong] at hf
      cases hf
  have hparent := Nat.le_trans (Path.utf8ByteSize_parent_le hchild) hfits
  have hstart : d.startOf (root.child name) = d.startOf root := rfl
  rw [Path.parent_child] at hparent
  rw [find_snoc hchild (root.child_parts_ne_nil name) hfits, Path.parent_child, hstart,
    Path.name_child] at hf
  split at hf
  case h_2 => cases hf
  case h_1 links q hr =>
    refine ⟨q, (directoryAt?_eq_some_iff hp).mpr ⟨hparent, links, hr⟩, ?_⟩
    by_cases hlong : maxName < name.utf8ByteSize
    · rw [walk_long hname hup hlong] at hf
      cases hf
    · rw [walk_name hname hup (Nat.le_of_not_lt hlong) (.inl rfl), foundAt] at hf
      cases hget : d.get? (q ++ [name]) with
      | none =>
        rw [hget] at hf
        cases hf
      | some e' =>
        rw [hget] at hf
        cases hf
        exact ⟨rfl, rfl⟩

/-- The disk after a place has been prepared, beside the one before: all that has changed is at the
place, or a directory on the way to it. -/
structure Tended (root : Path) (name : String) (d d' : Disk) : Prop where
  parent : ∃ q, d'.directoryAt? root = some q
  rest : ∀ l, d'.get? l = d.get? l ∨
    (∃ q, d.directoryAt? root = some q ∧ q ++ [name] <+: l) ∨
      d.get? l = none ∧ d'.get? l = some .directory ∧ d'.LedTo (root.child name) l
  /-- A link is gone, and nothing else is. -/
  link : ∀ t, d.look .itself (root.child name).text = .ok (some (.link t)) →
    ∃ q, d.directoryAt? root = some q ∧ d.get? (q ++ [name]) = some (.link t) ∧
      (∀ t', d'.get? (q ++ [name]) ≠ some (.link t')) ∧
        ∀ l e, l ≠ q ++ [name] → d.get? l = some e → d'.get? l = some e

theorem Cleared.extends (hc : Cleared p d d') : Extends d' d := by
  intro l e hl
  rcases hc.only l with hsame | ⟨hnone, -⟩
  · exact hsame.symm.trans hl
  · rw [hnone] at hl
    cases hl

theorem find_of_look {aim : Aim} {path : String} (hl : d.look aim path = .ok (some e)) :
    hasNull path = false ∧ ∃ loc, d.find aim path = .ok (.entry loc e) := by
  unfold look at hl
  split at hl
  case isTrue => cases hl
  case isFalse hnull =>
    refine ⟨Bool.eq_false_iff.mpr hnull, ?_⟩
    split at hl
    case h_1 loc e' hf =>
      cases hl
      exact ⟨loc, hf⟩
    case h_2 => cases hl
    case h_3 =>
      split at hl
      · cases hl
      · cases hl

/-- Only what is at the place is cleared away, and only directories on the way are made. -/
theorem rest_of_frames {d₁ : Disk} (hp : root.Proper) (hname : Path.IsPart name)
    (hup : name ≠ "..") (hc : Cleared (root.child name) d d₁)
    (hs : Sprouts (root.child name) d₁ d') (l : Location) :
    d'.get? l = d.get? l ∨ (∃ q, d.directoryAt? root = some q ∧ q ++ [name] <+: l) ∨
      d.get? l = none ∧ d'.get? l = some .directory ∧ d'.LedTo (root.child name) l := by
  rcases hc.only l with hcleared | ⟨-, loc, e, hf, hl⟩
  · rcases hs.only l with hsame | ⟨hnone, hmade⟩
    · exact .inl (hsame.trans hcleared)
    · exact .inr (.inr ⟨hcleared.symm.trans hnone, hmade⟩)
  · obtain ⟨q, hq, rfl, -⟩ := entry_of_find_child hp hname hup hf
    exact .inr (.inl ⟨q, hq, hl⟩)

end Disk

namespace Action

/-- What making directories has done to the disk. -/
theorem makeDirectories_ok {path : Path} {h : Host} {w w' : World}
    (hr : (makeDirectories path).run h w = (.ok (), w')) :
    Disk.hasNull path.text = false ∧ w.disk.makeDirectories path = (w'.disk, .ok ()) := by
  have hnull : Disk.hasNull path.text = false := by
    by_contra hnull
    rw [OutputDir.makeDirectories_null (Bool.of_not_eq_false hnull)] at hr
    cases hr
  refine ⟨hnull, ?_⟩
  unfold makeDirectories at hr
  rw [bind_of_ok (refuseNull_run hnull), bind_of_ok (host_run h w), bind_of_ok (disk_run h w)] at hr
  split at hr
  case isTrue => cases hr
  case isFalse =>
    rw [bind_of_ok (disk_run h w)] at hr
    rcases hmade : w.disk.makeDirectories path with ⟨d', f | _⟩
    · rw [hmade] at hr
      cases hr
    · rw [hmade] at hr
      cases hr
      rfl

end Action

namespace OutputDir

variable {b : Backend} {c : Config} {job : Job} {h : Host} {w w₁ w' : World} {root p : Path}
  {q : Location} {name : String}

/-! ## The steps of preparing -/

/-- How a place gets prepared: it is cleared, nothing is found at it, and directories are made. -/
theorem prepare_ok (hb : b.IsVerifier) (hout : b.outputDir c job = root.child name)
    (hr : (prepare b c job).run h w = (.ok p, w')) :
    p = root.child name ∧ ∃ w₁, (clear (root.child name)).run h w = (.ok (), w₁) ∧
      w₁.disk.exists? (root.child name).text = .ok false ∧
        Disk.hasNull (wanted b root name).text = false ∧
          w₁.disk.makeDirectories (wanted b root name) = (w'.disk, .ok ()) := by
  rw [prepare_eq hb hout] at hr
  obtain ⟨_, w₁, hclear, hr⟩ := Action.bind_ok_iff.mp hr
  obtain ⟨there, w₂, hask, hr⟩ := Action.bind_ok_iff.mp hr
  obtain ⟨hexists, rfl⟩ := Action.askDisk_ok_iff.mp hask
  cases there with
  | true => cases hr
  | false =>
    obtain ⟨_, w₃, hmade, hr⟩ := Action.bind_ok_iff.mp hr
    cases hr
    exact ⟨rfl, w₂, hclear, hexists, Action.makeDirectories_ok hmade⟩

/-- Clearing a place takes a link away, wherever it leads. -/
theorem clear_link {loc : Location} {t : String} (hpin : h.pinned p = false)
    (hnull : Disk.hasNull p.text = false)
    (hf : w.disk.find .itself p.text = .ok (.entry loc (.link t)))
    (hr : (clear p).run h w = (.ok (), w₁)) : w₁.disk = w.disk.erase loc := by
  have hitself := Disk.look_of_entry hnull hf
  have hremove : w.disk.remove p.text = .ok (w.disk.erase loc) := by
    unfold Disk.remove
    rw [hf]
  cases htarget : w.disk.look .target p.text with
  | error f =>
    rw [clear_of_look_error htarget] at hr
    cases hr
  | ok e =>
    rw [clear_of_other (isTree_of_link htarget hitself) (isOccupied_of_link htarget hitself) hpin
      hremove] at hr
    cases hr
    rfl

/-- Where nothing is found, the name can at least be asked for. -/
theorem fits_of_absent {d : Disk} (hp : root.Proper) (hname : Path.IsPart name)
    (hup : name ≠ "..") (hexists : d.exists? (root.child name).text = .ok false)
    (hq : d.directoryAt? root = some q) : Disk.Fits root name := by
  by_contra hn
  obtain ⟨hnull, hfind⟩ := Disk.find_of_not_fits hp hname hup hn hq .target
  unfold Disk.exists? Disk.look at hexists
  rw [hnull, hfind] at hexists
  cases hexists

section

variable (hp : root.Proper) (hname : Path.IsPart name) (hup : name ≠ "..")
  (hpin : h.pinned (root.child name) = false)
  (hclear : (clear (root.child name)).run h w = (.ok (), w₁))
  (hexists : w₁.disk.exists? (root.child name).text = .ok false)
  (hnull : Disk.hasNull (root.child name).text = false)

include hp hname hup hpin hclear hexists hnull

/-- **What has been cleared is free**, if the directory it was in is still to be found. -/
theorem free_of_cleared (hq : w₁.disk.directoryAt? root = some q) :
    w₁.disk.get? (q ++ [name]) = none := by
  have hn := fits_of_absent hp hname hup hexists hq
  have hcleared := leads_clear (root.child name) h w
  rw [hclear] at hcleared
  cases hget : w₁.disk.get? (q ++ [name]) with
  | none => rfl
  | some e =>
    exfalso
    by_cases hlink : ∃ t, e = .link t
    · -- a link was there before, and has been taken away
      obtain ⟨t, rfl⟩ := hlink
      have hbefore : w.disk.get? (q ++ [name]) = some (.link t) := hcleared.extends _ _ hget
      have hq' := Disk.directoryAt?_mono hp hcleared.extends hcleared.here.symm hq
      have hfind := Disk.find_child hp hn hnull hq' .itself (.inl rfl)
      rw [Disk.foundAt, hbefore] at hfind
      rw [clear_link hpin hnull hfind hclear, Disk.get?_erase (Disk.concat_ne_nil q name),
        if_pos rfl] at hget
      cases hget
    · have hplain : ∀ t, w₁.disk.get? (q ++ [name]) ≠ some (.link t) := by
        rw [hget]
        exact fun t h => hlink ⟨t, Option.some.inj h⟩
      have hlook := Disk.look_child hp hn hq .target (.inr hplain)
      rw [hnull, if_neg Bool.false_ne_true, hget] at hlook
      unfold Disk.exists? at hexists
      rw [hlook] at hexists
      cases hexists

end

/-! ## Freshness -/

variable {d d' : Disk}

/-- The place is as the tool wants it: nothing is at it, or an empty directory. -/
def Fresh (b : Backend) (root : Path) (name : String) (d : Disk) : Prop :=
  ∃ q, d.directoryAt? root = some q ∧ ∀ below, d.get? (q ++ [name] ++ below) = readied b below

theorem fresh_withPlace (hp : root.Proper) (hq : d.directoryAt? root = some q)
    (hnone : ∀ l, q ++ [name] <+: l → d.get? l = none) :
    Fresh b root name (withPlace b d (q ++ [name])) := by
  refine ⟨q, ?_, get?_withPlace hnone⟩
  unfold withPlace
  split
  case isTrue =>
    have hfree := hnone _ List.prefix_rfl
    exact Disk.directoryAt?_mono hp (Disk.extends_insert hfree .directory) rfl hq
  case isFalse => exact hq

theorem fresh_of_bare (hp : root.Proper) (hq : d.directoryAt? root = some q) (hb : d.Bare q)
    (name : String) : Fresh b root name (withPlace b d (q ++ [name])) := by
  refine fresh_withPlace hp hq ?_
  rintro _ ⟨below, rfl⟩
  rw [List.append_assoc]
  exact hb _ (List.cons_ne_nil name below)

/-- In a directory that is there, a free place gets what the tool wants. -/
theorem fresh_of_free (hp : root.Proper) (hn : Disk.Fits root name)
    (hnull : Disk.hasNull (root.child name).text = false) (hd : d.WellFormed)
    (hq : d.directoryAt? root = some q) (hfree : d.get? (q ++ [name]) = none)
    (hm : d.makeDirectories (wanted b root name) = (d', .ok ())) : Fresh b root name d' := by
  have hplace : d' = withPlace b d (q ++ [name]) := by
    unfold wanted at hm
    unfold withPlace
    cases hw : b.tool.wantsOutputDir with
    | false =>
      rw [hw] at hm
      exact Disk.eq_of_makeDirectories hp hq hm
    | true =>
      rw [hw] at hm
      have hfind := Disk.find_child hp hn hnull hq .itself (.inl rfl)
      rw [Disk.foundAt, hfree] at hfind
      have hmade := Disk.makeDirectories_of_ensureDirectory (Disk.ensureDirectory_of_vacant hfind)
      exact congrArg Prod.fst (hm.symm.trans hmade)
  rw [hplace]
  exact fresh_withPlace hp hq (hd.vacant hfree)

section

variable (hp : root.Proper) (hd : d.WellFormed) (hs : d.Straight root)
  (hnone : d.directoryAt? root = none)

include hp hd hs hnone

/-- Where the directory has to be made first, a place in it is free. -/
theorem fresh_of_made_parent (hw : b.tool.wantsOutputDir = false) {loc : Option Location}
    (hm : d.makeLocated root = (d', .ok loc)) (name : String) : Fresh b root name d' := by
  obtain ⟨q, hq, hbare⟩ := Disk.makeLocated_bare hd hp hs hnone hm
  have hplace : d' = withPlace b d' (q ++ [name]) := by
    rw [withPlace, hw, if_neg Bool.false_ne_true]
  rw [hplace]
  exact fresh_of_bare hp hq hbare name

/-- Where both directories have to be made, the place is an empty one. -/
theorem fresh_of_made_place (hname : Path.IsPart name) (hup : name ≠ "..")
    (hw : b.tool.wantsOutputDir = true) {loc : Option Location}
    (hm : d.makeLocated (root.child name) = (d', .ok loc)) : Fresh b root name d' := by
  have hchild := hp.child hname
  have habsent : ∀ q, d.directoryAt? (root.child name) ≠ some q := by
    intro q hq
    obtain ⟨z, hz⟩ := Disk.exists_parent_of_directoryAt hchild hq
    rw [Path.parent_child, hnone] at hz
    cases hz
  rcases Disk.makeLocated_cases hm with ⟨hensure, -⟩ | ⟨hf, -, base, parent, hrest, hinside⟩
  · have hensures := Disk.ensures_ensureDirectory d (root.child name)
    rw [hensure] at hensures
    cases hensures with
    | there hq => exact absurd hq (habsent _)
    | made hf =>
      obtain ⟨z, hz⟩ := Disk.directoryAt?_parent hchild hf
      rw [Path.parent_child, hnone] at hz
      cases hz
  · rw [Path.parent_child] at hrest
    obtain ⟨q, hq, hbare⟩ := Disk.makeLocated_bare hd hp hs hnone hrest
    obtain ⟨z, rfl, hz, -⟩ := Disk.makeLocated_ok d hp hrest
    obtain rfl : q = z := Option.some.inj (hq.symm.trans hz)
    have hfree := hbare [name] (List.cons_ne_nil _ _)
    obtain ⟨rfl, -⟩ := Disk.ensureInside_eq hchild (root.child_parts_ne_nil name)
      (by rwa [Path.name_child]) (by rwa [Path.parent_child]) (by rwa [Path.name_child]) hinside
    have hplace : base.insert (q ++ [name]) .directory = withPlace b base (q ++ [name]) := by
      rw [withPlace, hw, if_pos rfl]
    rw [Path.name_child, hplace]
    exact fresh_of_bare hp hq hbare name

/-- **Where the directory has to be made first**, nothing is in it but what the tool wants. -/
theorem fresh_of_missing (hname : Path.IsPart name) (hup : name ≠ "..")
    (hm : d.makeDirectories (wanted b root name) = (d', .ok ())) : Fresh b root name d' := by
  obtain ⟨loc, hm⟩ := Disk.makeDirectories_ok_iff.mp hm
  unfold wanted at hm
  cases hw : b.tool.wantsOutputDir with
  | false =>
    rw [hw, if_neg Bool.false_ne_true] at hm
    exact fresh_of_made_parent hp hd hs hnone hw hm name
  | true =>
    rw [hw, if_pos rfl] at hm
    exact fresh_of_made_place hp hd hs hnone hname hup hw hm

end

/-! ## Preparing -/

/-- The directory above a place that has been made ready is there. -/
theorem parent_of_made (hp : root.Proper) (hname : Path.IsPart name)
    (hm : d.makeDirectories (wanted b root name) = (d', .ok ())) :
    ∃ q, d'.directoryAt? root = some q := by
  obtain ⟨loc, hm⟩ := Disk.makeDirectories_ok_iff.mp hm
  unfold wanted at hm
  split at hm
  case isTrue =>
    obtain ⟨q, -, hq, -⟩ := Disk.makeLocated_ok d (hp.child hname) hm
    have hparent := Disk.exists_parent_of_directoryAt (hp.child hname) hq
    rwa [Path.parent_child] at hparent
  case isFalse =>
    obtain ⟨q, -, hq, -⟩ := Disk.makeLocated_ok d hp hm
    exact ⟨q, hq⟩

theorem sprouts_of_made (hp : root.Proper) (hname : Path.IsPart name)
    (hm : d.makeDirectories (wanted b root name) = (d', .ok ())) :
    Disk.Sprouts (root.child name) d d' := by
  have hs : Disk.Sprouts (wanted b root name) d d' := by
    have hwanted : (wanted b root name).Proper := by
      unfold wanted
      split
      · exact hp.child hname
      · exact hp
    have hs := Disk.sprouts_makeDirectories d hwanted
    rwa [hm] at hs
  unfold wanted at hs
  split at hs
  case isTrue => exact hs
  case isFalse => exact Disk.Sprouts.of_parent (by rwa [Path.parent_child])

/-- A link that was at the place is all that is gone. -/
theorem link_of_cleared (hp : root.Proper) (hname : Path.IsPart name) (hup : name ≠ "..")
    (hpin : h.pinned (root.child name) = false)
    (hclear : (clear (root.child name)).run h w = (.ok (), w₁))
    (hs : Disk.Sprouts (root.child name) w₁.disk d') {t : String}
    (hlook : w.disk.look .itself (root.child name).text = .ok (some (.link t))) :
    ∃ q, w.disk.directoryAt? root = some q ∧ w.disk.get? (q ++ [name]) = some (.link t) ∧
      (∀ t', d'.get? (q ++ [name]) ≠ some (.link t')) ∧
        ∀ l e, l ≠ q ++ [name] → w.disk.get? l = some e → d'.get? l = some e := by
  obtain ⟨hnull, loc, hf⟩ := Disk.find_of_look hlook
  obtain ⟨q, hq, rfl, hget⟩ := Disk.entry_of_find_child hp hname hup hf
  have herased := clear_link hpin hnull hf hclear
  refine ⟨q, hq, hget, fun t' hlink => ?_, fun l e hl he => hs.extends l e ?_⟩
  · have hgone := hs.plain hlink
    rw [herased, Disk.get?_erase (Disk.concat_ne_nil q name), if_pos rfl] at hgone
    cases hgone
  · rw [herased]
    by_cases hnil : l = []
    · rw [hnil, Disk.get?_root] at he ⊢
      exact he
    · rwa [Disk.get?_erase hnil, if_neg hl]

/-- **Preparing a place** leaves nothing of it and all of the rest, and it is fresh if its path is
straight once it has been cleared. No permissions keep anything from being looked at or made. -/
theorem prepare_fresh (hb : b.IsVerifier) (hc : c.manifestPath.Proper)
    (hname : Path.IsPart job.displayName) (hup : job.displayName ≠ "..") (hd : w.disk.WellFormed)
    (hpin : h.pinned (b.outputDir c job) = false)
    (hr : (prepare b c job).run h w = (.ok p, w')) :
    p = b.outputDir c job ∧ Disk.Tended (b.resultsDir c) job.displayName w.disk w'.disk ∧
      (((clear (b.outputDir c job)).run h w).2.disk.Straight (b.resultsDir c) →
        Disk.hasNull (b.outputDir c job).text = false →
          Fresh b (b.resultsDir c) job.displayName w'.disk) := by
  have hp := Backend.proper_resultsDir hb hc
  have hout := Backend.outputDir_eq hname b c
  obtain ⟨rfl, w₁, hclear, hexists, -, hmade⟩ := prepare_ok hb hout hr
  have hcleared := leads_clear ((b.resultsDir c).child job.displayName) h w
  rw [hclear] at hcleared
  have hsprouts := sprouts_of_made hp hname hmade
  rw [hout] at hpin ⊢
  rw [hclear]
  refine ⟨rfl, ⟨parent_of_made hp hname hmade,
    Disk.rest_of_frames hp hname hup hcleared hsprouts, fun t hlook => ?_⟩,
      fun hstraight hnull => ?_⟩
  · exact link_of_cleared hp hname hup hpin hclear hsprouts hlook
  · cases hq : w₁.disk.directoryAt? (b.resultsDir c) with
    | none =>
      exact fresh_of_missing hp (hcleared.wellFormed hd) hstraight hq hname hup hmade
    | some q =>
      have hfree := free_of_cleared hp hname hup hpin hclear hexists hnull hq
      exact fresh_of_free hp (fits_of_absent hp hname hup hexists hq) hnull
        (hcleared.wellFormed hd) hq hfree hmade

/-! ## A link to a directory -/

open Checker (sampleJob saying)

/-- A project in which the place of a job is a link to the directory with its sources. -/
def linkedDisk : Disk :=
  (((Scheduler.emptyDisk.insert ["src"] .directory).insert ["src", "lib.rs"] (.file [])).insert
    ["seaout"] .directory).insert ["seaout", "t"] (.link "../src")

theorem linkedDisk_wellFormed : linkedDisk.WellFormed := by
  have hsrc : (Scheduler.emptyDisk.insert ([] ++ ["src"]) .directory).WellFormed :=
    Scheduler.emptyDisk_wellFormed.insert (by decide) (Disk.get?_root _) .directory
  have hlib : ((Scheduler.emptyDisk.insert ["src"] .directory).insert (["src"] ++ ["lib.rs"])
      (.file [])).WellFormed := hsrc.insert (by decide) (by decide) (.file [])
  have hseaout : (((Scheduler.emptyDisk.insert ["src"] .directory).insert ["src", "lib.rs"]
      (.file [])).insert ([] ++ ["seaout"]) .directory).WellFormed :=
    hlib.insert (by decide) (Disk.get?_root _) .directory
  show (Disk.insert _ (["seaout"] ++ ["t"]) (.link "../src")).WellFormed
  exact hseaout.insert (by decide) (by decide) (.link "../src")

def seaDir : Path := ⟨.relative, ["seaout"]⟩

theorem proper_seaDir : seaDir.Proper := by decide

theorem site_seaDir : Disk.Site seaDir ["seaout"] "t" linkedDisk where
  steady d' hd' := by
    have hseaout : d'.get? ["seaout"] = some .directory :=
      (hd'.outside ["seaout"] (by decide)).trans (by decide)
    have hhere : d'.directoryAt? Disk.hereDir = some [] :=
      (Disk.directoryAt?_hereDir d').trans (congrArg some hd'.here)
    exact Disk.directoryAt?_child Disk.proper_hereDir (by decide) (by decide) hhere hseaout
  directory := by decide
  wellFormed := linkedDisk_wellFormed

theorem fits_seaDir : Disk.Fits seaDir "t" := by decide

/-- The link leads to the sources. -/
theorem look_linkedDisk :
    linkedDisk.look .target (seaDir.child "t").text = .ok (some .directory) := by
  have hroute : linkedDisk.route Disk.maxLinks (linkedDisk.startOf seaDir) seaDir.parts =
      .ok (Disk.maxLinks, ["seaout"]) := by
    show linkedDisk.route _ [] ["seaout"] = _
    rw [Disk.route_into (by decide) (by decide), Disk.route]
    rfl
  have hback : linkedDisk.walk .target 39 ["seaout"] ["..", "src"] =
      .ok (.entry ["src"] .directory) :=
    Disk.walk_of_route (by
      rw [Disk.route_up, Disk.route_into (by decide) (by decide), Disk.route]
      rfl)
  have hfind : linkedDisk.find .target (seaDir.child "t").text =
      .ok (.entry ["src"] .directory) := by
    rw [Disk.find_link proper_seaDir fits_seaDir (by decide) hroute (t := "../src") (by decide)]
    exact hback
  exact Disk.look_of_entry (by decide) hfind

theorem followed_seaDir : Disk.Followed seaDir ["seaout"] "t" linkedDisk := by
  intro t _
  exact ⟨by decide, _, look_linkedDisk⟩

/-- The link makes way for a directory, and the sources stay. -/
theorem prepare_fresh_linked :
    Backend.seahorn.IsVerifier ∧ (Config.standard 1).manifestPath.Proper ∧
      Path.IsPart sampleJob.displayName ∧ sampleJob.displayName ≠ ".." ∧
      linkedDisk.WellFormed ∧
      (saying []).pinned (Backend.seahorn.outputDir (Config.standard 1) sampleJob) = false ∧
      ∃ p w', (prepare .seahorn (Config.standard 1) sampleJob).run (saying [])
          (World.begin linkedDisk) = (.ok p, w') ∧
        Fresh .seahorn (Backend.seahorn.resultsDir (Config.standard 1)) "t" w'.disk ∧
        w'.disk.get? ["src", "lib.rs"] = some (.file []) := by
  have hb : Backend.seahorn.IsVerifier := Backend.isVerifier_iff.mpr (.inr (.inl rfl))
  have hc : (Config.standard 1).manifestPath.Proper := Path.proper_parse _
  have hdir : Backend.seahorn.resultsDir (Config.standard 1) = seaDir := by decide
  have hout : Backend.seahorn.outputDir (Config.standard 1) sampleJob = seaDir.child "t" := by
    decide
  have hpart : Path.IsPart sampleJob.displayName := fits_seaDir.part
  obtain ⟨d', hrun, -, -⟩ := prepare_child (h := saying []) (w := World.begin linkedDisk)
    proper_seaDir (List.cons_ne_nil _ _) fits_seaDir hb hout rfl site_seaDir followed_seaDir
  have hprepared : prepared .seahorn seaDir "t" = .ok (seaDir.child "t") := if_neg (by decide)
  rw [hprepared] at hrun
  obtain ⟨-, htended, hfresh⟩ := prepare_fresh hb hc hpart (by decide) linkedDisk_wellFormed rfl hrun
  refine ⟨hb, hc, hpart, by decide, linkedDisk_wellFormed, rfl, _, _, hrun,
    hfresh (Disk.straight_of_no_up _ (by decide)) (by decide), ?_⟩
  have hlook : linkedDisk.look .itself (seaDir.child "t").text = .ok (some (.link "../src")) :=
    look_itself (w := World.begin linkedDisk) proper_seaDir fits_seaDir (by decide) site_seaDir
  obtain ⟨q, hq, -, -, hstays⟩ := htended.link "../src" (by rw [hdir]; exact hlook)
  rw [hdir] at hq
  obtain rfl : q = ["seaout"] := Option.some.inj (hq.symm.trans site_seaDir.found)
  exact hstays ["src", "lib.rs"] _ (by decide) (by decide)

/-! ## A way that goes up again -/

/-- The manifest is named by a way through a directory that is missing. -/
def roundabout : Config :=
  { Config.standard 1 with manifestPath := ⟨.relative, ["x", "..", "Cargo.toml"]⟩ }

def staleDisk : Disk :=
  ((Scheduler.emptyDisk.insert ["kleeout"] .directory).insert ["kleeout", "t"] .directory).insert
    ["kleeout", "t", "test1.err"] (.file [])

theorem staleDisk_wellFormed : staleDisk.WellFormed := by
  have hkleeout : (Scheduler.emptyDisk.insert ([] ++ ["kleeout"]) .directory).WellFormed :=
    Scheduler.emptyDisk_wellFormed.insert (by decide) (Disk.get?_root _) .directory
  have hplace : ((Scheduler.emptyDisk.insert ["kleeout"] .directory).insert (["kleeout"] ++ ["t"])
      .directory).WellFormed := hkleeout.insert (by decide) (by decide) .directory
  show (Disk.insert _ (["kleeout", "t"] ++ ["test1.err"]) (.file [])).WellFormed
  exact hplace.insert (by decide) (by decide) (.file [])

/-- The disk with the missing directory. -/
def passableDisk : Disk :=
  staleDisk.insert ["x"] .directory

/-- The way through the directory, up to so many components. -/
def wayIn (n : Nat) : Path :=
  ⟨.relative, ["x", "..", "kleeout", "t"].take n⟩

theorem proper_wayIn (n : Nat) : (wayIn n).Proper := by
  have hall : ∀ part ∈ ["x", "..", "kleeout", "t"], Path.IsPart part := by decide
  exact fun part hpart => hall part (List.mem_of_mem_take hpart)

/-- Every part of the way but the first is missing. -/
theorem route_wayIn (rest : List String) :
    staleDisk.route Disk.maxLinks [] ("x" :: rest) = .error .noEntry :=
  Disk.route_missing (by decide) (by decide) _ rest

theorem find_wayIn_one : staleDisk.find .itself (wayIn 1).text = .ok (.vacant [] "x") :=
  Disk.find_nothing Disk.proper_hereDir (by decide) (by decide)
    (Disk.directoryAt?_hereDir staleDisk) (by decide) .itself

theorem find_wayIn_two : staleDisk.find .itself (wayIn 2).text = .error .noEntry :=
  Disk.find_child_of_route_error (proper_wayIn 1) (by decide) (by decide) (route_wayIn []) .itself

theorem find_wayIn_three : staleDisk.find .itself (wayIn 3).text = .error .noEntry :=
  Disk.find_child_of_route_error (proper_wayIn 2) (by decide) (by decide) (route_wayIn _) .itself

/-- The way through the directory, one component after the other. -/
theorem directoryAt?_wayIn :
    passableDisk.directoryAt? (wayIn 1) = some ["x"] ∧
      passableDisk.directoryAt? (wayIn 2) = some [] ∧
        passableDisk.directoryAt? (wayIn 3) = some ["kleeout"] ∧
          passableDisk.directoryAt? (wayIn 4) = some ["kleeout", "t"] := by
  have hone : passableDisk.directoryAt? (wayIn 1) = some ["x"] :=
    Disk.directoryAt?_child Disk.proper_hereDir (by decide) (by decide)
      (Disk.directoryAt?_hereDir passableDisk) (by decide)
  have htwo : passableDisk.directoryAt? (wayIn 2) = some [] :=
    Disk.directoryAt?_up (proper_wayIn 1) (by decide) hone
  have hthree : passableDisk.directoryAt? (wayIn 3) = some ["kleeout"] :=
    Disk.directoryAt?_child (proper_wayIn 2) (by decide) (by decide) htwo (by decide)
  exact ⟨hone, htwo, hthree,
    Disk.directoryAt?_child (proper_wayIn 3) (by decide) (by decide) hthree (by decide)⟩

theorem makeLocated_wayIn :
    staleDisk.makeLocated (wayIn 3) = (passableDisk, .ok (some ["kleeout"])) := by
  obtain ⟨hone, htwo, hthree, -⟩ := directoryAt?_wayIn
  have hfirst : staleDisk.makeLocated (wayIn 1) = (passableDisk, .ok (some ["x"])) := by
    rw [Disk.makeLocated, Disk.ensureDirectory_of_vacant find_wayIn_one, ← hone]
    rfl
  have hsecond : staleDisk.makeLocated (wayIn 2) = (passableDisk, .ok (some [])) :=
    Disk.makeLocated_of_missing find_wayIn_two (by decide) hfirst
      (Disk.ensureInside_of_directoryAt (proper_wayIn 2) (by decide) (by decide) htwo)
  exact Disk.makeLocated_of_missing find_wayIn_three (by decide) hsecond
    (Disk.ensureInside_of_directoryAt (proper_wayIn 3) (by decide) (by decide) hthree)

theorem few_missing_wayIn : staleDisk.missingAncestors (wayIn 3) ≤ (saying []).maxMissing := by
  have hlast : staleDisk.missingAncestors (wayIn 1) = 0 :=
    Disk.missingAncestors_of_ensureDirectory (Disk.ensureDirectory_of_vacant find_wayIn_one)
  have hparent : (wayIn 3).parent = wayIn 2 := rfl
  have hparent' : (wayIn 2).parent = wayIn 1 := rfl
  rw [Disk.missingAncestors_of_missing find_wayIn_three (by decide), hparent,
    Disk.missingAncestors_of_missing find_wayIn_two (by decide), hparent', hlast]
  decide

/-- Once the missing directory has been made, the path leads to what was there before. -/
theorem prepare_stale :
    staleDisk.WellFormed ∧
      (saying []).pinned (Backend.klee.outputDir roundabout sampleJob) = false ∧
      ∃ w', (prepare .klee roundabout sampleJob).run (saying []) (World.begin staleDisk) =
          (.ok (Backend.klee.outputDir roundabout sampleJob), w') ∧
        w'.disk.directoryAt? (Backend.klee.outputDir roundabout sampleJob) =
          some ["kleeout", "t"] ∧
        w'.disk.get? ["kleeout", "t", "test1.err"] = some (.file []) := by
  have hb : Backend.klee.IsVerifier := Backend.isVerifier_iff.mpr (.inl rfl)
  have hout : Backend.klee.outputDir roundabout sampleJob = (wayIn 3).child "t" := by decide
  have hwanted : wanted .klee (wayIn 3) "t" = wayIn 3 := by decide
  have hr : staleDisk.route Disk.maxLinks (staleDisk.startOf (wayIn 3)) (wayIn 3).parts =
      .error .noEntry := route_wayIn _
  have hpart : Path.IsPart "t" := fits_seaDir.part
  have hlook : ∀ aim, staleDisk.look aim ((wayIn 3).child "t").text = .ok none := fun aim =>
    look_of_absence rfl (Disk.find_child_of_route_error (proper_wayIn 3) hpart (by decide) hr aim)
  have hmade : (Action.makeDirectories (wayIn 3)).run (saying []) (World.begin staleDisk) =
      (.ok (), World.begin passableDisk) :=
    makeDirectories_run_of_few (w := World.begin staleDisk) (by decide) few_missing_wayIn
      (Disk.makeDirectories_ok_iff.mpr ⟨_, makeLocated_wayIn⟩)
  refine ⟨staleDisk_wellFormed, rfl, World.begin passableDisk, ?_, ?_, by decide⟩
  · have hclear := clear_of_absent (h := saying []) (w := World.begin staleDisk) (hlook .target)
      (hlook .itself)
    rw [prepare_of_clear hb hout hclear (hlook .target), hwanted, Action.bind_of_ok hmade, hout]
    rfl
  · rw [hout]
    exact directoryAt?_wayIn.2.2.2

end OutputDir

end Assay

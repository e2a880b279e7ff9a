import Assay.Proofs.Places

/-!
# What preparing a place changes

Preparing a place has two parts. The first takes away what the path leads to and leaves the rest
alone, `Cleared`; the second only makes directories where nothing was, `Sprouts`. This holds however
the preparing ends, and for every path: `leads_prepare`.

On a disk without links the location that a path leads to can be told without a look at the disk,
`placeOf`. There the directories that are made are on the way to the place.
-/

namespace Assay

open Assay.Action (Keeps)

namespace Path

variable {p q : Path}

theorem Proper.append (hp : p.Proper) (hq : q.Proper) : (p ++ q).Proper := by
  show (Path.append p q).Proper
  unfold Path.append
  split
  · intro part hpart
    rcases List.mem_append.mp hpart with hpart | hpart
    · exact hp part hpart
    · exact hq part hpart
  · exact hq

theorem Proper.front {front : List String} (hp : p.Proper) (hf : front <+: p.parts) :
    Path.Proper ⟨p.anchor, front⟩ :=
  fun part hpart => hp part (hf.subset hpart)

end Path

namespace Backend

theorem proper_outputDir {c : Config} (hc : c.manifestPath.Proper) (b : Backend) (job : Job) :
    (b.outputDir c job).Proper :=
  (hc.parent.append (Path.proper_parse _)).append (Path.proper_parse _)

end Backend

namespace Disk

variable {d d' d'' : Disk} {aim : Aim} {links : Nat} {loc q l : Location} {names : List String}
  {p : Path} {path : String} {e : Entry} {f : Found}

theorem find_kept {e' : Entry} (hx : KeepsWays d d') (hhere : d'.here = d.here)
    (he : e' = e ∧ (∀ content, e ≠ .file content) ∨
      ∃ content content', e = .file content ∧ e' = .file content' ∧ d'.get? q = some e')
    (h : d.find aim path = .ok (.entry q e)) : d'.find aim path = .ok (.entry q e') := by
  unfold find at h ⊢
  dsimp only at h ⊢
  split at h
  case isTrue => cases h
  case isFalse hsome =>
    split at h
    case isTrue => cases h
    case isFalse hfits =>
      rw [if_neg hsome, if_neg hfits, hhere]
      exact walk_kept hx he h

theorem get?_of_find (he : e ≠ .directory) (h : d.find aim path = .ok (.entry q e)) :
    d.get? q = some e := by
  unfold find at h
  dsimp only at h
  split at h
  case isTrue => cases h
  case isFalse =>
    split at h
    case isTrue => cases h
    case isFalse => exact get?_of_walk he h

theorem get?_of_vacant {name : String} (h : d.find aim path = .ok (.vacant q name)) :
    d.get? (q ++ [name]) = none := by
  unfold find at h
  dsimp only at h
  split at h
  case isTrue => cases h
  case isFalse =>
    split at h
    case isTrue => cases h
    case isFalse => exact vacant_spec h

/-- What is missing is missing in a directory. -/
theorem directory_of_vacant {name : String} (hd : d.WellFormed)
    (hhere : d.get? d.here = some .directory) (h : d.find aim path = .ok (.vacant q name)) :
    d.get? q = some .directory := by
  unfold find at h
  dsimp only at h
  split at h
  case isTrue => cases h
  case isFalse =>
    split at h
    case isTrue => cases h
    case isFalse => exact vacant_directory hd (start_directory hhere _) h

/-- What has been found is found when more is there. -/
theorem find_mono (hx : Extends d d') (hhere : d'.here = d.here)
    (h : d.find aim path = .ok (.entry q e)) : d'.find aim path = .ok (.entry q e) := by
  refine find_kept hx.keepsWays hhere ?_ h
  cases e with
  | directory => exact .inl ⟨rfl, nofun⟩
  | link t => exact .inl ⟨rfl, nofun⟩
  | file content => exact .inr ⟨content, content, rfl, rfl, hx _ _ (get?_of_find nofun h)⟩

/-! ## Places on disks without links -/

/-- No entry is a link. -/
def LinkFree (d : Disk) : Prop :=
  ∀ l t, d.get? l ≠ some (.link t)

/-- The location that was looked for, whether something is there or not. -/
def Found.location : Found → Location
  | .entry loc _ => loc
  | .vacant parent name => parent ++ [name]

/-- One component further, whatever is there. -/
def stride (loc : Location) (name : String) : Location :=
  if name = finalSlash || name = "." then loc
  else if name = ".." then loc.dropLast
  else loc ++ [name]

/-- The location of a path if there are no links. -/
def placeOf (d : Disk) (p : Path) : Location :=
  p.parts.foldl stride (d.startOf p)

/-- **Without links** a walk ends at the place that its components name. -/
theorem walk_place (hd : d.LinkFree) (h : walk d aim links loc names = .ok f) :
    f.location = names.foldl stride loc := by
  fun_induction walk d aim links loc names
  case case1 =>
    cases h
    rfl
  case case2 hskip ih =>
    rw [List.foldl_cons, stride, if_pos hskip]
    exact ih h
  case case3 rest hskip ih =>
    rw [List.foldl_cons, stride, if_neg hskip, if_pos rfl]
    exact ih h
  case case6 hskip hup hcontent hlong hget hlast =>
    cases h
    rw [List.isEmpty_iff.mp hlast, List.foldl_cons, stride, if_neg hskip, if_neg hup]
    rfl
  case case8 hskip hup hcontent hlong hget ih =>
    rw [List.foldl_cons, stride, if_neg hskip, if_neg hup]
    exact ih h
  case case9 hskip hup hcontent hlong content hget hlast =>
    cases h
    rw [List.isEmpty_iff.mp hlast, List.foldl_cons, stride, if_neg hskip, if_neg hup]
    rfl
  case case11 hget _ => exact absurd hget (hd _ _)
  case case13 hget _ _ _ _ => exact absurd hget (hd _ _)
  all_goals cases h

theorem find_place (hp : p.Proper) (hd : d.LinkFree) (h : d.find aim p.text = .ok f) :
    f.location = d.placeOf p := by
  rw [find_text d aim hp] at h
  split at h
  case isTrue => cases h
  case isFalse => exact walk_place hd h

theorem directoryAt?_place (hp : p.Proper) (hd : d.LinkFree) (h : d.directoryAt? p = some q) :
    q = d.placeOf p :=
  find_place hp hd (find_of_directoryAt hp h).1

theorem startOf_congr (hhere : d'.here = d.here) (p : Path) : d'.startOf p = d.startOf p := by
  unfold startOf
  rw [hhere]

theorem placeOf_congr (hhere : d'.here = d.here) (p : Path) : d'.placeOf p = d.placeOf p := by
  unfold placeOf
  rw [startOf_congr hhere]

/-- The location is the place of the path or of one of its ancestors. -/
def OnWay (d : Disk) (p : Path) (l : Location) : Prop :=
  ∃ parts, parts <+: p.parts ∧ l = d.placeOf ⟨p.anchor, parts⟩

theorem onWay_self (d : Disk) (p : Path) : d.OnWay p (d.placeOf p) :=
  ⟨p.parts, List.prefix_rfl, rfl⟩

theorem stride_name {name : String} (hname : Path.IsPart name) (hup : name ≠ "..") :
    stride loc name = loc ++ [name] := by
  rw [stride, if_neg (not_skipped hname), if_neg hup]

/-! ## Taking away -/

/-- What the path led to is gone in part or whole, and nothing else has changed. -/
structure Cleared (p : Path) (d d' : Disk) : Prop where
  here : d'.here = d.here
  wellFormed : d.WellFormed → d'.WellFormed
  only : ∀ l, d'.get? l = d.get? l ∨
    d'.get? l = none ∧ ∃ q e, d.find .itself p.text = .ok (.entry q e) ∧ q <+: l

theorem Cleared.refl (p : Path) (d : Disk) : Cleared p d d :=
  ⟨rfl, id, fun _ => .inl rfl⟩

theorem Cleared.linkFree (hc : Cleared p d d') (hd : d.LinkFree) : d'.LinkFree := by
  intro l t hl
  rcases hc.only l with hsame | ⟨hnone, -⟩
  · exact hd l t (hsame.symm.trans hl)
  · rw [hnone] at hl
    cases hl

theorem extends_prune (d : Disk) (loc : Location) : Extends (d.prune loc) d := by
  intro l e he
  by_cases hl : l = []
  · rw [hl, get?_root] at he ⊢
    exact he
  · rw [get?_prune hl] at he
    split at he
    · cases he
    · exact he

section

variable (hf : d.find .itself p.text = .ok (.entry q e))

include hf

theorem cleared_prune : Cleared p d (d.prune q) where
  here := rfl
  wellFormed hd := hd.prune q
  only l := by
    by_cases hl : l = []
    · rw [hl, get?_root, get?_root]
      exact .inl rfl
    · rw [get?_prune hl]
      split
      case isTrue hbelow => exact .inr ⟨rfl, q, e, hf, (isBelow_iff.mp hbelow).1⟩
      case isFalse => exact .inl rfl

/-- The entry goes once there is nothing below it any more. -/
theorem Cleared.erase (hc : Cleared p d d')
    (hbelow : d.WellFormed → ∀ below, below ≠ [] → d'.get? (q ++ below) = none) :
    Cleared p d (d'.erase q) where
  here := hc.here
  wellFormed hd := (hc.wellFormed hd).erase (hbelow hd)
  only l := by
    by_cases hl : l = []
    · rw [hl, get?_root, get?_root]
      exact .inl rfl
    · rw [get?_erase hl]
      split
      case isTrue hat =>
        subst hat
        exact .inr ⟨rfl, l, e, hf, List.prefix_rfl⟩
      case isFalse => exact hc.only l

end

theorem get?_prune_below (d : Disk) (loc : Location) {below : Location} (hb : below ≠ []) :
    (d.prune loc).get? (loc ++ below) = none := by
  have hne : loc ++ below ≠ [] := List.append_ne_nil_of_right_ne_nil loc hb
  refine (get?_prune hne).trans (if_pos (isBelow_iff.mpr ⟨List.prefix_append loc below, ?_⟩))
  exact fun h => hb (List.self_eq_append_right.mp h)

theorem cleared_removeTree (d : Disk) (p : Path) : Cleared p d (d.removeTree p) := by
  unfold removeTree
  split
  case h_2 => exact .refl p d
  case h_1 loc hf =>
    dsimp only
    split
    case h_2 => exact cleared_prune hf
    case h_1 loc' hf' =>
      -- a path that still leads to a directory leads to the one that it led to
      have hat := find_mono (extends_prune d loc) rfl hf'
      rw [hf, Except.ok.injEq, Found.entry.injEq] at hat
      rw [← hat.1]
      split
      · exact cleared_prune hf
      · exact (cleared_prune hf).erase hf fun _ _ hb => get?_prune_below d loc hb

theorem cleared_remove (hr : d.remove p.text = .ok d') : Cleared p d d' := by
  unfold remove at hr
  split at hr
  case h_2 loc e hne hf =>
    cases hr
    refine (Cleared.refl p d).erase hf fun hd => hd.below ?_
    rw [get?_of_find hne hf, ne_eq, Option.some.injEq]
    exact hne
  all_goals cases hr

/-! ## Making -/

/-- The location is that of a directory which the path or one of its ancestors leads to. -/
def LedTo (d : Disk) (p : Path) (l : Location) : Prop :=
  ∃ front, front <+: p.parts ∧ d.directoryAt? ⟨p.anchor, front⟩ = some l

theorem ledTo_self (h : d.directoryAt? p = some l) : d.LedTo p l :=
  ⟨p.parts, List.prefix_rfl, h⟩

theorem LedTo.of_parent (h : d.LedTo p.parent l) : d.LedTo p l := by
  obtain ⟨front, hfront, hl⟩ := h
  exact ⟨front, hfront.trans (List.dropLast_prefix _), hl⟩

theorem LedTo.mono (hp : p.Proper) (hx : Extends d d') (hhere : d'.here = d.here)
    (h : d.LedTo p l) : d'.LedTo p l := by
  obtain ⟨front, hfront, hl⟩ := h
  exact ⟨front, hfront, directoryAt?_mono (hp.front hfront) hx hhere hl⟩

/-- Nothing has changed but that directories have been made where nothing was, on the way to the
path. -/
structure Sprouts (p : Path) (d d' : Disk) : Prop where
  here : d'.here = d.here
  wellFormed : d.WellFormed → d.get? d.here = some .directory → d'.WellFormed
  only : ∀ l, d'.get? l = d.get? l ∨
    d.get? l = none ∧ d'.get? l = some .directory ∧ d'.LedTo p l

theorem Sprouts.refl (p : Path) (d : Disk) : Sprouts p d d :=
  ⟨rfl, fun hd _ => hd, fun _ => .inl rfl⟩

theorem Sprouts.extends (hs : Sprouts p d d') : Extends d d' := by
  intro l e he
  rcases hs.only l with hsame | ⟨hnone, -⟩
  · rw [hsame, he]
  · rw [hnone] at he
    cases he

theorem Sprouts.plain {t : String} (hs : Sprouts p d d') (hl : d'.get? l = some (.link t)) :
    d.get? l = some (.link t) := by
  rcases hs.only l with hsame | ⟨-, hmade, -⟩
  · exact hsame.symm.trans hl
  · rw [hmade] at hl
    cases hl

theorem Sprouts.linkFree (hs : Sprouts p d d') (hd : d.LinkFree) : d'.LinkFree :=
  fun l t hl => hd l t (hs.plain hl)

/-- Without links, what has been made is on the way. -/
theorem Sprouts.onWay (hs : Sprouts p d d') (hp : p.Proper) (hd : d.LinkFree) (h : d'.LedTo p l) :
    d.OnWay p l := by
  obtain ⟨front, hfront, hl⟩ := h
  refine ⟨front, hfront, ?_⟩
  rw [directoryAt?_place (hp.front hfront) (hs.linkFree hd) hl, placeOf_congr hs.here]

theorem Sprouts.trans (hp : p.Proper) (hs : Sprouts p d d') (hs' : Sprouts p d' d'') :
    Sprouts p d d'' where
  here := hs'.here.trans hs.here
  wellFormed hd hhere := by
    refine hs'.wellFormed (hs.wellFormed hd hhere) ?_
    rw [hs.here]
    exact hs.extends _ _ hhere
  only l := by
    rcases hs.only l with hsame | ⟨hnone, hmade, hled⟩
    · rw [← hsame]
      exact hs'.only l
    · exact .inr ⟨hnone, hs'.extends _ _ hmade, hled.mono hp hs'.extends hs'.here⟩

theorem Sprouts.of_parent (hs : Sprouts p.parent d d') : Sprouts p d d' where
  here := hs.here
  wellFormed := hs.wellFormed
  only l := (hs.only l).imp id fun ⟨hnone, hmade, hled⟩ => ⟨hnone, hmade, hled.of_parent⟩

/-- One directory made where nothing was. -/
theorem sprouts_insert {name : String} (hnone : d.get? (q ++ [name]) = none)
    (hq : d.WellFormed → d.get? d.here = some .directory → d.get? q = some .directory)
    (hled : (d.insert (q ++ [name]) .directory).directoryAt? p = some (q ++ [name])) :
    Sprouts p d (d.insert (q ++ [name]) .directory) where
  here := rfl
  wellFormed hd hhere := hd.insert hnone (hq hd hhere) .directory
  only l := by
    by_cases hl : l = []
    · rw [hl, get?_root, get?_root]
      exact .inl rfl
    · rw [get?_insert hl]
      split
      case isTrue hat =>
        subst hat
        exact .inr ⟨hnone, rfl, ledTo_self hled⟩
      case isFalse => exact .inl rfl

theorem sprouts_ensureDirectory (hp : p.Proper) (he : d.ensureDirectory p.text = .ok d') :
    Sprouts p d d' := by
  have hensures := ensures_ensureDirectory d p
  rw [he] at hensures
  cases hensures with
  | there => exact .refl p d
  | made hf =>
    refine sprouts_insert (get?_of_vacant hf) (fun hd hhere => directory_of_vacant hd hhere hf) ?_
    have hfound := find_filled hp (e := .directory) nofun (find_target_of_vacant hp hf)
    unfold directoryAt?
    rw [hfound]

theorem sprouts_ensureInside {loc : Option Location} (hp : p.Proper) (hne : p.parts ≠ [])
    (hfits : p.text.utf8ByteSize ≤ maxPath)
    (hi : d.ensureInside (d.directoryAt? p.parent) p = .ok (d', loc)) : Sprouts p d d' := by
  obtain ⟨r, hloc, hled, -⟩ := ensureInside_ok hp hne hfits rfl hi
  unfold ensureInside at hi
  split at hi
  case h_1 q hq =>
    cases hi
    cases hloc
    obtain ⟨hparent, hfree⟩ := Option.filter_eq_some_iff.mp hq
    unfold isFree at hfree
    simp only [Bool.and_eq_true, decide_eq_true_eq, Option.isNone_iff_eq_none] at hfree
    exact sprouts_insert hfree.2
      (fun hd hhere => get?_of_directoryAt hd hhere hp.parent hparent) hled
  case h_2 =>
    cases he : d.ensureDirectory p.text with
    | error f =>
      rw [he] at hi
      cases hi
    | ok d₁ =>
      rw [he] at hi
      cases hi
      exact sprouts_ensureDirectory hp he

/-- **Making directories**, whatever comes of it. -/
theorem sprouts_makeLocated (d : Disk) {p : Path} (hp : p.Proper) :
    Sprouts p d (d.makeLocated p).1 := by
  have hensures := ensures_ensureDirectory d p
  rw [makeLocated]
  split
  case h_1 d₁ he => exact sprouts_ensureDirectory hp he
  case h_2 f he =>
    split
    case isTrue => exact .refl p d
    case isFalse hparent =>
      split
      case isFalse => exact .refl p d
      case isTrue hcode =>
        rw [he] at hensures
        have hfits : p.text.utf8ByteSize ≤ maxPath := by
          cases hensures with
          | blocked hother => exact absurd hcode hother
          | missing hf => exact length_le_of_missing hp (by decide) hf
        have := Path.length_parent_lt hparent
        have ih := (sprouts_makeLocated d hp.parent).of_parent
        split
        case h_1 d₁ f' hrest =>
          rw [hrest] at ih
          exact ih
        case h_2 d₁ parent hrest =>
          obtain ⟨z, rfl, hfound, -⟩ := makeLocated_ok d hp.parent hrest
          rw [hrest] at ih
          split
          case h_2 => exact ih
          case h_1 d₂ loc hi =>
            rw [← hfound] at hi
            exact ih.trans hp (sprouts_ensureInside hp (Path.parent_ne hparent) hfits hi)
termination_by p.parts.length

theorem sprouts_makeDirectories (d : Disk) (hp : p.Proper) :
    Sprouts p d (d.makeDirectories p).1 :=
  sprouts_makeLocated d hp

end Disk

/-! ## Actions -/

namespace Action

variable {α β : Type} {x : Action α} {f : α → Action β} {R S : Disk → Disk → Prop}

/-- However the action ends, the disk that it leaves is so related to the one that it found. -/
def Leads (R : Disk → Disk → Prop) (x : Action α) : Prop :=
  ∀ h w, R w.disk (x.run h w).2.disk

namespace Leads

theorem of_keeps (hR : ∀ d, R d d) (hx : Keeps World.disk x) : Leads R x := by
  intro h w
  rw [hx h w]
  exact hR w.disk

/-- One after the other, unless the first fails. -/
theorem bind (hS : ∀ d, S d d) (hx : Leads R x) (hf : ∀ a, Leads S (f a)) :
    Leads (fun d d' => ∃ d₁, R d d₁ ∧ S d₁ d') (x >>= f) := by
  intro h w
  have hfirst := hx h w
  rcases hr : x.run h w with ⟨e | a, w₁⟩
  · rw [hr] at hfirst
    rw [bind_of_error hr]
    exact ⟨w₁.disk, hfirst, hS _⟩
  · rw [hr] at hfirst
    rw [bind_of_ok hr]
    exact ⟨w₁.disk, hfirst, hf a h w₁⟩

/-- Nothing is done before. -/
theorem after (hR : ∀ d, R d d) (hx : Keeps World.disk x) (hf : ∀ a, Leads R (f a)) :
    Leads R (x >>= f) := by
  intro h w
  obtain ⟨d₁, hd₁, hR'⟩ := (of_keeps Eq.refl hx).bind hR hf h w
  rwa [← hd₁] at hR'

/-- Nothing is done afterwards. -/
theorem before (hx : Leads R x) (hf : ∀ a, Keeps World.disk (f a)) : Leads R (x >>= f) := by
  intro h w
  obtain ⟨d₁, hR, hd₁⟩ := hx.bind Eq.refl (fun a => of_keeps Eq.refl (hf a)) h w
  rwa [← hd₁]

theorem attempt (hx : Leads R x) : Leads R (Action.attempt x) :=
  fun h w => hx h w

theorem ite {c : Prop} [Decidable c] {y : Action α} (hx : Leads R x) (hy : Leads R y) :
    Leads R (if c then x else y) := by
  split
  · exact hx
  · exact hy

/-- A change of the disk that the disk may refuse. -/
theorem changeDisk {change : Disk → Except OsFault Disk} (hR : ∀ d, R d d)
    (hchange : ∀ d d', change d = .ok d' → R d d') : Leads R (Action.changeDisk change) := by
  intro h w
  unfold Action.changeDisk
  rw [bind_of_ok (disk_run h w)]
  cases hc : change w.disk with
  | ok d' => exact hchange _ _ hc
  | error f => exact hR _

theorem makeDirectories {path : Path} (hp : path.Proper) :
    Leads (Disk.Sprouts path) (Action.makeDirectories path) := by
  refine .after (.refl path) (Action.keeps_refuseNull _) fun _ => ?_
  refine .after (.refl path) Keeps.host fun _ => .after (.refl path) Keeps.disk fun _ => ?_
  refine .ite (.of_keeps (.refl path) (Keeps.fail _)) ?_
  intro h w
  have hs := Disk.sprouts_makeDirectories w.disk hp
  rw [bind_of_ok (disk_run h w)]
  rcases hmade : w.disk.makeDirectories path with ⟨d', f | _⟩
  · rw [hmade] at hs
    exact hs
  · rw [hmade] at hs
    exact hs

end Leads

end Action

namespace OutputDir

open Assay.Action (Leads)

variable {path : Path}

theorem keeps_disk_isTree (path : Path) : Keeps World.disk (isTree path) := by
  refine (Action.keeps_askDisk _).bind fun _ => Keeps.ite ?_ (Keeps.pure _)
  exact (Action.keeps_askDisk _).bind fun _ => Keeps.pure _

theorem keeps_disk_isOccupied (path : Path) : Keeps World.disk (isOccupied path) :=
  (Action.keeps_askDisk _).bind fun _ => Keeps.ite (Keeps.pure _) (Action.keeps_askDisk _)

theorem leads_removeTree (path : Path) : Leads (Disk.Cleared path) (removeTree path) := by
  refine .after (.refl path) Keeps.host fun _ => .ite (.of_keeps (.refl path) (Keeps.pure ())) ?_
  exact fun h w => Disk.cleared_removeTree w.disk path

theorem leads_removeEntry (path : Path) : Leads (Disk.Cleared path) (removeEntry path) := by
  refine .after (.refl path) Keeps.host fun _ => .ite (.of_keeps (.refl path) (Keeps.pure ())) ?_
  intro h w
  rw [Action.bind_of_ok (Action.disk_run h w)]
  cases hr : w.disk.remove path.text with
  | error f => exact .refl path w.disk
  | ok d' => exact Disk.cleared_remove hr

theorem leads_clear (path : Path) : Leads (Disk.Cleared path) (clear path) := by
  refine .after (.refl path) (keeps_disk_isTree path) fun _ => .ite (leads_removeTree path) ?_
  refine .after (.refl path) (keeps_disk_isOccupied path) fun _ => ?_
  exact .ite (leads_removeEntry path) (.of_keeps (.refl path) (Keeps.pure ()))

/-- **Preparing a place**, whatever comes of it: something may be taken away where the path leads
to, and then directories may be made. -/
theorem leads_prepare {b : Backend} {c : Config} {job : Job} (hp : (b.outputDir c job).Proper) :
    Leads (fun d d' => ∃ d₁, Disk.Cleared (b.outputDir c job) d d₁ ∧
      Disk.Sprouts (b.outputDir c job) d₁ d') (prepare b c job) := by
  have hrefl : ∀ d, Disk.Sprouts (b.outputDir c job) d d := .refl _
  unfold prepare
  split
  · exact .of_keeps (fun d => ⟨d, .refl _ d, hrefl d⟩) (Keeps.pure _)
  · refine .bind hrefl (leads_clear _) fun _ => ?_
    refine .after hrefl (Action.keeps_askDisk _) fun _ => .ite (.of_keeps hrefl (Keeps.fail _)) ?_
    refine .before ?_ fun _ => Keeps.pure _
    split
    · exact .makeDirectories hp
    · exact fun h w => (Leads.makeDirectories hp.parent h w).of_parent

end OutputDir

end Assay

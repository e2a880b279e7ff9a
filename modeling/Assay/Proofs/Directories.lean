import Assay.Proofs.OutputDir
import Assay.Proofs.Walk

/-!
# Directories and their paths

`directoryAt?_eq_some_iff`: the directory that a path leads to is at the end of its route. With it
`find_snoc` finds whatever is in a directory that is known, and a directory that is there is not
made again, `ensureDirectory_of_directoryAt`.

`makeLocated_ok` is what making directories comes to: the path leads to a directory afterwards, the
one whose location is handed over, and nothing that was there is lost.
-/

namespace Assay

namespace Path

variable {p : Path}

theorem parts_eq_concat (hne : p.parts ≠ []) : p.parts = p.parent.parts ++ [p.name] := by
  obtain ⟨anchor, parts⟩ := p
  rcases List.eq_nil_or_concat parts with rfl | ⟨init, part, rfl⟩
  · exact absurd rfl hne
  · rw [parent, name, List.concat_eq_append, List.dropLast_concat, List.getLast?_concat]
    rfl

theorem Proper.name (hp : p.Proper) (hne : p.parts ≠ []) : IsPart p.name := by
  refine hp p.name ?_
  rw [parts_eq_concat hne]
  exact List.mem_append_right _ List.mem_cons_self

/-- The text of a path is at least as long as that of its parent. -/
theorem utf8ByteSize_parent_le (hp : p.Proper) :
    p.parent.text.utf8ByteSize ≤ p.text.utf8ByteSize := by
  by_cases hparent : p.parent.parts = []
  · by_cases hne : p.parts = []
    · have hself : p.parent = p := by
        unfold parent
        rw [hne, List.dropLast_nil, ← hne]
      exact Nat.le_of_eq (congrArg (fun r : Path => r.text.utf8ByteSize) hself)
    · have hname := hp.name hne
      have hparts := parts_eq_concat hne
      rw [hparent, List.nil_append] at hparts
      generalize p.name = part at hparts hname
      obtain ⟨anchor, parts⟩ := p
      subst hparts
      have hpos : 1 ≤ part.utf8ByteSize :=
        Nat.one_le_iff_ne_zero.mpr fun h => hname.1 (String.utf8ByteSize_eq_zero_iff.mp h)
      have hjoin : Text.joinWith "/" [part] = part := by
        rw [← String.toList_inj, toList_joinWith, List.map_singleton, List.intercalate_singleton]
      have hnil : Text.joinWith "/" [] = "" := rfl
      cases anchor with
      | relative =>
        show 1 ≤ ("" ++ Text.joinWith "/" [part]).utf8ByteSize
        rw [hjoin, String.utf8ByteSize_append]
        exact Nat.le_add_left_of_le hpos
      | root =>
        show ("/" ++ Text.joinWith "/" []).utf8ByteSize ≤
          ("/" ++ Text.joinWith "/" [part]).utf8ByteSize
        rw [hjoin, hnil, String.utf8ByteSize_append, String.utf8ByteSize_append]
        exact Nat.add_le_add_left (Nat.zero_le _) _
      | doubleRoot =>
        show ("//" ++ Text.joinWith "/" []).utf8ByteSize ≤
          ("//" ++ Text.joinWith "/" [part]).utf8ByteSize
        rw [hjoin, hnil, String.utf8ByteSize_append, String.utf8ByteSize_append]
        exact Nat.add_le_add_left (Nat.zero_le _) _
  · rw [text_of_parent hparent, String.utf8ByteSize_append, String.utf8ByteSize_append]
    omega

end Path

namespace Disk

variable {d d' : Disk} {aim : Aim} {p : Path} {q loc : Location} {name : String}

@[simp] theorem startOf_parent (d : Disk) (p : Path) : d.startOf p.parent = d.startOf p := rfl

/-- **The directory of a path** is at the end of its route. -/
theorem directoryAt?_eq_some_iff (hp : p.Proper) :
    d.directoryAt? p = some q ↔ p.text.utf8ByteSize ≤ maxPath ∧
      ∃ links, route d maxLinks (d.startOf p) p.parts = .ok (links, q) := by
  unfold directoryAt?
  rw [find_text d .target hp]
  constructor
  · intro h
    split at h
    case h_1 loc hf =>
      cases h
      split at hf
      case isTrue => cases hf
      case isFalse hfits => exact ⟨Nat.le_of_not_lt hfits, route_of_walk hf⟩
    case h_2 => cases h
  · rintro ⟨hfits, links, hr⟩
    rw [if_neg (Nat.not_lt.mpr hfits), walk_of_route hr]

/-- A directory that is there is found, by its own name or behind a link. -/
theorem find_of_directoryAt (hp : p.Proper) (hd : d.directoryAt? p = some q) :
    d.find .target p.text = .ok (.entry q .directory) ∧
      ∃ l e, d.find .itself p.text = .ok (.entry l e) := by
  obtain ⟨hfits, links, hr⟩ := (directoryAt?_eq_some_iff hp).mp hd
  rw [find_text d .target hp, find_text d .itself hp, if_neg (Nat.not_lt.mpr hfits),
    if_neg (Nat.not_lt.mpr hfits)]
  exact ⟨walk_of_route hr, walk_itself_of_route hr⟩

/-- A directory that is there is still there when there is more. -/
theorem directoryAt?_mono (hp : p.Proper) (hx : Extends d d') (hhere : d'.here = d.here)
    (hd : d.directoryAt? p = some q) : d'.directoryAt? p = some q := by
  obtain ⟨hfits, links, hr⟩ := (directoryAt?_eq_some_iff hp).mp hd
  have hstart : d'.startOf p = d.startOf p := by
    unfold startOf
    rw [hhere]
  refine (directoryAt?_eq_some_iff hp).mpr ⟨hfits, links, ?_⟩
  rw [hstart]
  exact route_mono hx hr

theorem ensureDirectory_of_directoryAt (hp : p.Proper) (hn : hasNull p.text = false)
    (hd : d.directoryAt? p = some q) : d.ensureDirectory p.text = .ok d := by
  obtain ⟨ht, l, e, hi⟩ := find_of_directoryAt hp hd
  exact ensureDirectory_of_directory hn hi ht

/-- **Finding what is in a directory**: the rest of the path is its last component. -/
theorem find_snoc (hp : p.Proper) (hne : p.parts ≠ []) (hfits : p.text.utf8ByteSize ≤ maxPath) :
    d.find aim p.text =
      match route d maxLinks (d.startOf p) p.parent.parts with
      | .ok (links, q) => walk d aim links q [p.name]
      | .error e => .error e := by
  have hname := hp.name hne
  rw [find_text d aim hp, if_neg (Nat.not_lt.mpr hfits), Path.parts_eq_concat hne]
  exact walk_snoc hname.1

theorem find_of_long (hp : p.Proper) (hlong : maxPath < p.text.utf8ByteSize) (aim : Aim) :
    d.find aim p.text = .error .nameTooLong := by
  rw [find_text d aim hp, if_pos hlong]

/-- What a name in a directory stands for. -/
def foundAt (d : Disk) (q : Location) (name : String) : Found :=
  match d.get? (q ++ [name]) with
  | some e => .entry (q ++ [name]) e
  | none => .vacant q name

theorem not_skipped (hname : Path.IsPart name) :
    (decide (name = finalSlash) || decide (name = ".")) ≠ true := by
  rw [decide_eq_false (show name ≠ finalSlash from hname.1), decide_eq_false hname.2.1]
  exact Bool.false_ne_true

theorem content_ne (aim : Aim) :
    (decide (aim = .content) && decide (([] : List String) = [finalSlash])) ≠ true := by
  rw [decide_eq_false (List.cons_ne_nil _ _).symm, Bool.and_false]
  exact Bool.false_ne_true

/-- One step of a route, into a directory. -/
theorem route_into (hname : Path.IsPart name ∧ name ≠ ".." ∧ name.utf8ByteSize ≤ maxName)
    (hget : d.get? (q ++ [name]) = some .directory) (links : Nat) (rest : List String) :
    route d links q (name :: rest) = route d links (q ++ [name]) rest := by
  rw [route, if_neg (not_skipped hname.1), if_neg hname.2.1, if_neg (Nat.not_lt.mpr hname.2.2),
    hget]

theorem route_missing (hname : Path.IsPart name ∧ name ≠ ".." ∧ name.utf8ByteSize ≤ maxName)
    (hget : d.get? (q ++ [name]) = none) (links : Nat) (rest : List String) :
    route d links q (name :: rest) = .error .noEntry := by
  rw [route, if_neg (not_skipped hname.1), if_neg hname.2.1, if_neg (Nat.not_lt.mpr hname.2.2),
    hget]

/-- One step of a route, out of a directory. -/
theorem route_up (d : Disk) (q : Location) (links : Nat) (rest : List String) :
    route d links q (".." :: rest) = route d links q.dropLast rest := by
  rw [route, if_neg (by decide), if_pos rfl]

/-- One step to a name, which finds what is there unless it is a link to be followed. -/
theorem walk_name (hname : Path.IsPart name) (hup : name ≠ "..")
    (hfits : name.utf8ByteSize ≤ maxName)
    (hlink : aim = .itself ∨ ∀ t, d.get? (q ++ [name]) ≠ some (.link t)) (links : Nat) :
    walk d aim links q [name] = .ok (d.foundAt q name) := by
  unfold foundAt
  rw [walk, if_neg (not_skipped hname), if_neg hup, if_neg (content_ne aim),
    if_neg (Nat.not_lt.mpr hfits)]
  split
  case h_1 hget =>
    rw [hget]
    rfl
  case h_2 hget => rw [hget, walk]
  case h_3 content hget =>
    rw [hget]
    rfl
  case h_4 t hget =>
    rcases hlink with rfl | hlink
    · rw [hget]
      rfl
    · exact absurd hget (hlink t)

/-- One step to a name that is too long for a directory. -/
theorem walk_long (hname : Path.IsPart name) (hup : name ≠ "..")
    (hlong : maxName < name.utf8ByteSize) (aim : Aim) (links : Nat) :
    walk d aim links q [name] = .error .nameTooLong := by
  rw [walk, if_neg (not_skipped hname), if_neg hup, if_neg (content_ne aim), if_pos hlong]

/-- Where something is missing, the directory that would hold it is there. -/
theorem directoryAt?_parent (hp : p.Proper) (hf : d.find aim p.text = .ok (.vacant loc name)) :
    ∃ q, d.directoryAt? p.parent = some q := by
  have hfits : p.text.utf8ByteSize ≤ maxPath := by
    rw [find_text d aim hp] at hf
    split at hf
    case isTrue => cases hf
    case isFalse hfits => exact Nat.le_of_not_lt hfits
  have hne : p.parts ≠ [] := by
    intro hnil
    rw [find_text d aim hp, if_neg (Nat.not_lt.mpr hfits), hnil, walk] at hf
    cases hf
  rw [find_snoc hp hne hfits] at hf
  split at hf
  case h_1 links q hr =>
    have hparent := Nat.le_trans (Path.utf8ByteSize_parent_le hp) hfits
    exact ⟨q, (directoryAt?_eq_some_iff hp.parent).mpr ⟨hparent, links, hr⟩⟩
  case h_2 => cases hf

/-- A directory is in another one, or at the start of its path. -/
theorem exists_parent_of_directoryAt (hp : p.Proper) (hq : d.directoryAt? p = some q) :
    ∃ z, d.directoryAt? p.parent = some z := by
  obtain ⟨hfits, links, hr⟩ := (directoryAt?_eq_some_iff hp).mp hq
  have hparent := Nat.le_trans (Path.utf8ByteSize_parent_le hp) hfits
  by_cases hne : p.parts = []
  · refine ⟨q, (directoryAt?_eq_some_iff hp.parent).mpr ⟨hparent, links, ?_⟩⟩
    rwa [startOf_parent, Path.parent, hne, List.dropLast_nil, ← hne]
  · rw [Path.parts_eq_concat hne, route_append] at hr
    split at hr
    case h_1 links' z hr' =>
      exact ⟨z, (directoryAt?_eq_some_iff hp.parent).mpr ⟨hparent, links', hr'⟩⟩
    case h_2 => cases hr

/-- What is put where nothing was is found there, unless it is a link. -/
theorem find_filled {e : Entry} (hp : p.Proper) (hlink : ∀ t, e ≠ .link t)
    (hf : d.find aim p.text = .ok (.vacant loc name)) :
    (d.insert (loc ++ [name]) e).find aim p.text = .ok (.entry (loc ++ [name]) e) := by
  rw [find_text d aim hp] at hf
  rw [find_text _ aim hp]
  split at hf
  case isTrue => cases hf
  case isFalse hfits =>
    rw [if_neg hfits]
    exact walk_filled (extends_insert (vacant_spec hf) e)
      (get?_insert_self (concat_ne_nil loc name)) hlink hf

theorem find_target_of_vacant (hp : p.Proper) (hf : d.find aim p.text = .ok (.vacant loc name)) :
    d.find .target p.text = .ok (.vacant loc name) := by
  rw [find_text d aim hp] at hf
  rw [find_text d .target hp]
  split at hf
  case isTrue => cases hf
  case isFalse hfits =>
    rw [if_neg hfits]
    exact walk_target_of_vacant hf

theorem get?_of_find_vacant (hp : p.Proper) (hf : d.find aim p.text = .ok (.vacant loc name)) :
    d.get? (loc ++ [name]) = none := by
  rw [find_text d aim hp] at hf
  split at hf
  case isTrue => cases hf
  case isFalse => exact vacant_spec hf

/-- Something that is missing is no directory. -/
theorem route_of_vacant (hp : p.Proper) (hf : d.find aim p.text = .ok (.vacant loc name)) :
    route d maxLinks (d.startOf p) p.parts = .error .noEntry := by
  rw [find_text d aim hp] at hf
  split at hf
  case isTrue => cases hf
  case isFalse => exact route_of_walk_vacant hf

/-! ## Making directories -/

/-- What can come of making one directory: it is made where nothing was, it is there already, the
directory that is to hold it is missing, or something else is in the way. -/
inductive Ensures (d : Disk) (p : Path) : Except OsFault Disk → Prop where
  | made {q : Location} {name : String} (hf : d.find .itself p.text = .ok (.vacant q name)) :
      Ensures d p (.ok (d.insert (q ++ [name]) .directory))
  | there {q : Location} (hd : d.directoryAt? p = some q) : Ensures d p (.ok d)
  | missing (hf : d.find .itself p.text = .error .noEntry) :
      Ensures d p (.error (.ofErrno .noEntry p.text))
  | blocked {f : OsFault} (hcode : f.code ≠ Errno.noEntry.code) : Ensures d p (.error f)

theorem ofErrno_code_ne {e : Errno} (he : e ≠ .noEntry) (path : String) :
    (OsFault.ofErrno e path).code ≠ Errno.noEntry.code := by
  show e.code ≠ Errno.noEntry.code
  cases e with
  | noEntry => exact absurd rfl he
  | _ => decide

theorem directoryAt?_of_isDirectory (h : d.isDirectory? p.text = .ok true) :
    ∃ q, d.directoryAt? p = some q := by
  unfold isDirectory? look at h
  unfold directoryAt?
  split at h
  case isTrue => cases h
  case isFalse =>
    split at h
    case h_1 q e hf =>
      rw [hf]
      cases e with
      | directory => exact ⟨q, rfl⟩
      | file content => cases h
      | link t => cases h
    case h_2 => cases h
    case h_3 =>
      split at h
      · cases h
      · cases h

/-- The fault of a question about a path is that its name is too long. -/
theorem isDirectory?_error {f : OsFault} (h : d.isDirectory? p.text = .error f) :
    f.code ≠ Errno.noEntry.code := by
  unfold isDirectory? look at h
  split at h
  case isTrue => cases h
  case isFalse =>
    split at h
    case h_1 => cases h
    case h_2 => cases h
    case h_3 e hf =>
      split at h
      case isTrue => cases h
      case isFalse habsent =>
        cases h
        refine ofErrno_code_ne ?_ p.text
        rintro rfl
        exact habsent rfl

/-- What comes of it when nothing was missing and nothing could be made. -/
theorem Ensures.of_code {f : OsFault} {r : Except OsFault Disk}
    (hcode : f.code ≠ Errno.noEntry.code)
    (hthere : d.isDirectory? p.text = .ok true → r = .ok d)
    (hother : d.isDirectory? p.text = .ok false → r = .error f)
    (hfault : ∀ g, d.isDirectory? p.text = .error g → r = .error g) : Ensures d p r := by
  cases hdir : d.isDirectory? p.text with
  | error g =>
    rw [hfault g hdir]
    exact .blocked (isDirectory?_error hdir)
  | ok isDirectory =>
    cases isDirectory with
    | true =>
      rw [hthere hdir]
      obtain ⟨q, hq⟩ := directoryAt?_of_isDirectory hdir
      exact .there hq
    | false =>
      rw [hother hdir]
      exact .blocked hcode

theorem ensures_ensureDirectory (d : Disk) (p : Path) : Ensures d p (d.ensureDirectory p.text) := by
  unfold ensureDirectory makeDirectory
  split
  case h_1 d' hmake =>
    split at hmake
    case h_1 q name hf =>
      cases hmake
      exact .made hf
    case h_2 => cases hmake
    case h_3 => cases hmake
  case h_2 f hmake =>
    split at hmake
    case h_1 => cases hmake
    case h_2 =>
      cases hmake
      have hcode := ofErrno_code_ne (by decide : Errno.entryExists ≠ .noEntry) p.text
      rw [if_neg hcode]
      exact .of_code hcode (fun h => by rw [h]) (fun h => by rw [h]) fun g h => by rw [h]
    case h_3 e hf =>
      cases hmake
      by_cases he : e = .noEntry
      · subst he
        have hcode : (OsFault.ofErrno .noEntry p.text).code = Errno.noEntry.code := rfl
        rw [if_pos hcode]
        exact .missing hf
      · have hcode := ofErrno_code_ne he p.text
        rw [if_neg hcode]
        exact .of_code hcode (fun h => by rw [h]) (fun h => by rw [h]) fun g h => by rw [h]

/-- More is on the second disk, and it is a tree if the first was one. -/
structure Grown (d d' : Disk) : Prop where
  keeps : Extends d d'
  here : d'.here = d.here
  wellFormed : d.WellFormed → d.get? d.here = some .directory → d'.WellFormed

theorem Grown.refl (d : Disk) : Grown d d :=
  ⟨.refl d, rfl, fun h _ => h⟩

theorem Grown.trans {d'' : Disk} (h : Grown d d') (h' : Grown d' d'') : Grown d d'' where
  keeps := h.keeps.trans h'.keeps
  here := h'.here.trans h.here
  wellFormed hd hhere := by
    refine h'.wellFormed (h.wellFormed hd hhere) ?_
    rw [h.here]
    exact h.keeps _ _ hhere

theorem startOf_directory (hhere : d.get? d.here = some .directory) (p : Path) :
    d.get? (d.startOf p) = some .directory := by
  unfold startOf
  split
  · exact hhere
  · exact get?_root d

theorem get?_of_directoryAt (hd : d.WellFormed) (hhere : d.get? d.here = some .directory)
    (hp : p.Proper) (hq : d.directoryAt? p = some q) : d.get? q = some .directory := by
  obtain ⟨-, links, hr⟩ := (directoryAt?_eq_some_iff hp).mp hq
  exact route_directory hd (startOf_directory hhere p) hr

/-- Making one directory: afterwards the path leads to one. -/
theorem ensureDirectory_ok (hp : p.Proper) (he : d.ensureDirectory p.text = .ok d') :
    ∃ q, d'.directoryAt? p = some q ∧ Grown d d' := by
  have hensures := ensures_ensureDirectory d p
  rw [he] at hensures
  cases hensures with
  | there hd => exact ⟨_, hd, .refl d⟩
  | @made q name hf =>
    have hnone := get?_of_find_vacant hp hf
    have hfound := find_filled hp (e := .directory) nofun (find_target_of_vacant hp hf)
    refine ⟨q ++ [name], ?_, extends_insert hnone _, rfl, fun hd hhere => ?_⟩
    · unfold directoryAt?
      rw [hfound]
    · refine hd.insert hnone ?_ _
      rw [find_text d .itself hp] at hf
      split at hf
      case isTrue => cases hf
      case isFalse => exact vacant_directory hd (startOf_directory hhere p) hf

/-- A name that is free in the directory a path leads to can be made there. -/
theorem ensureInside_ok (hp : p.Proper) (hne : p.parts ≠ [])
    (hfits : p.text.utf8ByteSize ≤ maxPath) {parent loc : Option Location}
    (hparent : d.directoryAt? p.parent = parent) (he : d.ensureInside parent p = .ok (d', loc)) :
    ∃ q, loc = some q ∧ d'.directoryAt? p = some q ∧ Grown d d' := by
  unfold ensureInside at he
  split at he
  case h_1 z hz =>
    obtain ⟨rfl, hfree⟩ := Option.filter_eq_some_iff.mp hz
    cases he
    simp only [isFree, Bool.and_eq_true, decide_eq_true_eq, Option.isNone_iff_eq_none] at hfree
    obtain ⟨⟨hup, hshort⟩, hnone⟩ := hfree
    have hname := hp.name hne
    have hx := extends_insert hnone .directory
    obtain ⟨-, links, hr⟩ := (directoryAt?_eq_some_iff hp.parent).mp hparent
    refine ⟨_, rfl, (directoryAt?_eq_some_iff hp).mpr ⟨hfits, links, ?_⟩, hx, rfl,
      fun hd hhere => hd.insert hnone (get?_of_directoryAt hd hhere hp.parent hparent) _⟩
    have hstart : (d.insert (z ++ [p.name]) .directory).startOf p = d.startOf p := rfl
    rw [startOf_parent] at hr
    rw [Path.parts_eq_concat hne, route_append, hstart, route_mono hx hr]
    dsimp only
    rw [route, if_neg (not_skipped hname), if_neg hup, if_neg (Nat.not_lt.mpr hshort),
      get?_insert_self (concat_ne_nil z p.name), route]
  case h_2 =>
    cases hensure : d.ensureDirectory p.text with
    | error f =>
      rw [hensure] at he
      cases he
    | ok d₁ =>
      rw [hensure] at he
      cases he
      obtain ⟨q, hq, hgrown⟩ := ensureDirectory_ok hp hensure
      exact ⟨q, hq, hq, hgrown⟩

/-- How making directories goes well: the last one could be made at once, or it is missing with the
one above it, which is made first. -/
theorem makeLocated_cases {loc : Option Location} (hm : d.makeLocated p = (d', .ok loc)) :
    (d.ensureDirectory p.text = .ok d' ∧ loc = d'.directoryAt? p) ∨
      (d.find .itself p.text = .error .noEntry ∧ p.parent ≠ p ∧
        ∃ d₁ parent, d.makeLocated p.parent = (d₁, .ok parent) ∧
          d₁.ensureInside parent p = .ok (d', loc)) := by
  have hensures := ensures_ensureDirectory d p
  rw [makeLocated] at hm
  split at hm
  case h_1 d₁ hensure =>
    cases hm
    exact .inl ⟨hensure, rfl⟩
  case h_2 f hensure =>
    split at hm
    case isTrue => cases hm
    case isFalse hparent =>
      split at hm
      case isFalse => cases hm
      case isTrue hcode =>
        rw [hensure] at hensures
        cases hensures with
        | blocked hother => exact absurd hcode hother
        | missing hf =>
          split at hm
          case h_1 => cases hm
          case h_2 d₁ parent hrest =>
            split at hm
            case h_2 => cases hm
            case h_1 d₂ loc₂ hinside =>
              cases hm
              exact .inr ⟨hf, hparent, d₁, parent, hrest, hinside⟩

theorem length_le_of_missing {e : Errno} (hp : p.Proper) (he : e ≠ .nameTooLong)
    (hf : d.find aim p.text = .error e) : p.text.utf8ByteSize ≤ maxPath :=
  Nat.le_of_not_lt fun hlong => by
    rw [find_of_long hp hlong] at hf
    cases hf
    exact he rfl

/-- **Making directories**: afterwards the path leads to a directory, it is the one whose location
is handed over, and nothing that was there is lost. -/
theorem makeLocated_ok (d : Disk) {p : Path} (hp : p.Proper) {d' : Disk} {loc : Option Location}
    (hm : d.makeLocated p = (d', .ok loc)) :
    ∃ q, loc = some q ∧ d'.directoryAt? p = some q ∧ Grown d d' := by
  rcases makeLocated_cases hm with ⟨hensure, rfl⟩ | ⟨hf, hparent, d₁, parent, hrest, hinside⟩
  · obtain ⟨q, hq, hgrown⟩ := ensureDirectory_ok hp hensure
    exact ⟨q, hq, hq, hgrown⟩
  · have := Path.length_parent_lt hparent
    obtain ⟨z, rfl, hz, hgrown⟩ := makeLocated_ok d hp.parent hrest
    have hfits := length_le_of_missing hp (by decide) hf
    obtain ⟨q, hloc, hq, hgrown'⟩ := ensureInside_ok hp (Path.parent_ne hparent) hfits hz hinside
    exact ⟨q, hloc, hq, hgrown.trans hgrown'⟩
termination_by p.parts.length

theorem makeLocated_of_makeDirectories {r : Except OsFault Unit}
    (hm : d.makeDirectories p = (d', r)) :
    ∃ r', d.makeLocated p = (d', r') ∧ r = r'.map fun _ => () := by
  unfold makeDirectories at hm
  rcases hlocated : d.makeLocated p with ⟨d₁, r'⟩
  rw [hlocated] at hm
  cases hm
  exact ⟨r', rfl, rfl⟩

theorem makeDirectories_ok_iff :
    d.makeDirectories p = (d', .ok ()) ↔ ∃ loc, d.makeLocated p = (d', .ok loc) := by
  constructor
  · intro hm
    obtain ⟨r, hlocated, hr⟩ := makeLocated_of_makeDirectories hm
    cases r with
    | error f => cases hr
    | ok loc => exact ⟨loc, hlocated⟩
  · rintro ⟨loc, hlocated⟩
    unfold makeDirectories
    rw [hlocated]
    rfl

theorem route_error_of_not_directoryAt (hp : p.Proper) (hfits : p.text.utf8ByteSize ≤ maxPath)
    (hnone : d.directoryAt? p = none) :
    ∃ e, route d maxLinks (d.startOf p) p.parts = .error e := by
  cases hr : route d maxLinks (d.startOf p) p.parts with
  | error e => exact ⟨e, rfl⟩
  | ok end' =>
    obtain ⟨links, q⟩ := end'
    rw [(directoryAt?_eq_some_iff hp).mpr ⟨hfits, links, hr⟩] at hnone
    cases hnone

/-- A directory that is there is not made. -/
theorem eq_of_makeDirectories (hp : p.Proper) (hd : d.directoryAt? p = some q)
    (hm : d.makeDirectories p = (d', .ok ())) : d' = d := by
  obtain ⟨-, l, e, hi⟩ := find_of_directoryAt hp hd
  obtain ⟨loc, hm⟩ := makeDirectories_ok_iff.mp hm
  rcases makeLocated_cases hm with ⟨hensure, -⟩ | ⟨hf, -⟩
  · have hensures := ensures_ensureDirectory d p
    rw [hensure] at hensures
    cases hensures with
    | there => rfl
    | made hf =>
      rw [hi] at hf
      cases hf
  · rw [hi] at hf
    cases hf

/-- What cannot be made is not there. -/
theorem not_directoryAt_of_blocked {f : OsFault} (hp : p.Proper) (hn : hasNull p.text = false)
    (hm : d.makeDirectories p = (d', .error f)) : d.directoryAt? p = none := by
  refine Option.eq_none_iff_forall_ne_some.mpr fun q hq => ?_
  have hlocated : d.makeLocated p = (d, .ok (d.directoryAt? p)) := by
    rw [makeLocated, ensureDirectory_of_directoryAt hp hn hq]
  rw [makeDirectories_ok_iff.mpr ⟨_, hlocated⟩] at hm
  cases hm

/-- Where a look at its path fails, no directory is made. -/
theorem ensureDirectory_of_find_error {e : Errno} (hp : p.Proper)
    (hf : d.find .itself p.text = .error e) : ∃ f, d.ensureDirectory p.text = .error f := by
  have hensures := ensures_ensureDirectory d p
  cases hensure : d.ensureDirectory p.text with
  | error f => exact ⟨f, rfl⟩
  | ok d₁ =>
    rw [hensure] at hensures
    cases hensures with
    | made hvacant =>
      rw [hf] at hvacant
      cases hvacant
    | there hd =>
      obtain ⟨-, l, e', hi⟩ := find_of_directoryAt hp hd
      rw [hf] at hi
      cases hi

/-- A directory cannot be made there with its ancestors either, unless one of them is missing. -/
theorem makeDirectories_of_find_error {e : Errno} (hp : p.Proper) (he : e ≠ .noEntry)
    (hf : d.find .itself p.text = .error e) : ∃ f, d.makeDirectories p = (d, .error f) := by
  obtain ⟨f, hensure⟩ := ensureDirectory_of_find_error hp hf
  have hensures := ensures_ensureDirectory d p
  rw [hensure] at hensures
  cases hensures with
  | missing hmissing =>
    rw [hf] at hmissing
    cases hmissing
    exact absurd rfl he
  | blocked hcode => exact ⟨f, makeDirectories_of_blocked hensure hcode⟩

/-- What is made was missing before, and nothing worse. -/
theorem route_of_made (hp : p.Proper) (hnone : d.directoryAt? p = none)
    (hm : d.makeDirectories p = (d', .ok ())) :
    route d maxLinks (d.startOf p) p.parts = .error .noEntry := by
  obtain ⟨loc, hm⟩ := makeDirectories_ok_iff.mp hm
  rcases makeLocated_cases hm with ⟨hensure, -⟩ | ⟨hf, -⟩
  · have hensures := ensures_ensureDirectory d p
    rw [hensure] at hensures
    cases hensures with
    | there hd =>
      rw [hnone] at hd
      cases hd
    | made hf => exact route_of_vacant hp hf
  · have hfits := length_le_of_missing hp (by decide) hf
    rw [find_text d .itself hp, if_neg (Nat.not_lt.mpr hfits)] at hf
    exact route_of_walk_error (by decide) hf

theorem ensureDirectory_of_missing (hf : d.find .itself p.text = .error .noEntry) :
    d.ensureDirectory p.text = .error (.ofErrno .noEntry p.text) := by
  have hcode : (OsFault.ofErrno .noEntry p.text).code = Errno.noEntry.code := rfl
  unfold ensureDirectory makeDirectory
  rw [hf]
  dsimp only
  rw [if_pos hcode]

section

variable (hf : d.find .itself p.text = .error .noEntry) (hparent : p.parent ≠ p)

include hf hparent

/-- A directory in one that is missing, too: first the other is made. -/
theorem makeLocated_of_missing {d₁ : Disk} {parent loc : Option Location}
    (hm : d.makeLocated p.parent = (d₁, .ok parent))
    (hi : d₁.ensureInside parent p = .ok (d', loc)) : d.makeLocated p = (d', .ok loc) := by
  have hcode : (OsFault.ofErrno .noEntry p.text).code = Errno.noEntry.code := rfl
  rw [makeLocated, ensureDirectory_of_missing hf]
  dsimp only
  rw [dif_neg hparent, if_pos hcode, hm]
  dsimp only
  rw [hi]

theorem makeLocated_error_of_missing {f : OsFault}
    (hm : d.makeLocated p.parent = (d', .error f)) : d.makeLocated p = (d', .error f) := by
  have hcode : (OsFault.ofErrno .noEntry p.text).code = Errno.noEntry.code := rfl
  rw [makeLocated, ensureDirectory_of_missing hf]
  dsimp only
  rw [dif_neg hparent, if_pos hcode, hm]

theorem missingAncestors_of_missing :
    d.missingAncestors p = d.missingAncestors p.parent + 1 := by
  have hcode : (OsFault.ofErrno .noEntry p.text).code = Errno.noEntry.code := rfl
  rw [missingAncestors, ensureDirectory_of_missing hf]
  dsimp only
  rw [dif_neg hparent, if_pos hcode]

end

end Disk

end Assay

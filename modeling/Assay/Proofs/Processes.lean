import Assay.Proofs.Independence
import Assay.Proofs.Traces

/-!
# What processes leave in their directories

A process that keeps to the directory it is given changes nothing else, `Written`. If nothing was
there when it was started, what is there afterwards is new, down to the last file: `Written.new`.
`Orderly` says that and that no error file is without its input. The script that a command is
written down in is another file, and changes nothing either as long as it is `Apart`.
-/

namespace Assay

namespace Path

variable {p : Path} {name suffix : String}

theorem withSuffix_child (p : Path) (name suffix : String) :
    (p.child name).withSuffix suffix =
      p.child (String.ofList (stemOf name.toList) ++ suffix) := by
  unfold withSuffix
  rw [name_child]
  unfold child
  rw [List.dropLast_concat]

theorem mem_of_mem_stemOf {c : Char} {cs : List Char} (hc : c ∈ stemOf cs) : c ∈ cs := by
  unfold stemOf at hc
  dsimp only at hc
  split at hc
  · exact hc
  · exact List.mem_of_mem_take hc

end Path

namespace Counterexample

variable {output p : Path} {name : String}

/-- The name of the input of the test that an error file of this name belongs to. -/
def inputName (name : String) : String :=
  String.ofList (Path.stemOf (String.ofList (Path.stemOf name.toList) ++ "").toList) ++ inputTail

theorem inputOf_child (output : Path) (name : String) :
    inputOf (output.child name) = output.child (inputName name) := by
  unfold inputOf
  rw [Path.withSuffix_child, Path.withSuffix_child]
  rfl

theorem isPart_inputName (hn : Path.IsPart name) : Path.IsPart (inputName name) := by
  have hlist : (inputName name).toList =
      Path.stemOf (Path.stemOf name.toList) ++ inputTail.toList := by
    unfold inputName
    rw [String.toList_append, String.toList_ofList, String.append_empty, String.toList_ofList]
  have hlength : 1 < (inputName name).toList.length := by
    rw [hlist, List.length_append]
    exact Nat.lt_of_lt_of_le (by decide : 1 < inputTail.toList.length) (Nat.le_add_left _ _)
  refine ⟨fun h => ?_, fun h => ?_, fun hslash => ?_⟩
  · rw [h] at hlength
    exact absurd hlength (by decide)
  · rw [h] at hlength
    exact absurd hlength (by decide)
  · rw [hlist, List.mem_append] at hslash
    rcases hslash with hslash | hslash
    · exact hn.2.2 (Path.mem_of_mem_stemOf (Path.mem_of_mem_stemOf hslash))
    · exact absurd hslash (by decide)

/-- The input is in the directory, too. -/
theorem HasInput.child {c : Config} (hx : HasInput c output name p) (hn : Path.IsPart name) :
    ∃ name', Path.IsPart name' ∧ p = output.child name' := by
  obtain ⟨-, hx⟩ := hx
  split at hx
  case isTrue => exact ⟨name, hn, hx.2⟩
  case isFalse =>
    exact ⟨inputName name, isPart_inputName hn, hx.2.trans (inputOf_child output name)⟩

end Counterexample

namespace Disk

variable {d d' d'' : Disk} {aim : Aim} {q loc : Location} {p : Path} {x name : String} {e : Entry}

/-- What has appeared where nothing was is found there, unless it is a link. -/
theorem find_appeared (hp : p.Proper) (hx : Extends d d') (hhere : d'.here = d.here)
    (he : d'.get? (q ++ [name]) = some e) (hlink : ∀ t, e ≠ .link t)
    (hf : d.find aim p.text = .ok (.vacant q name)) :
    d'.find aim p.text = .ok (.entry (q ++ [name]) e) := by
  rw [find_text d aim hp] at hf
  rw [find_text d' aim hp, startOf_congr hhere]
  split at hf
  case isTrue => cases hf
  case isFalse hfits =>
    rw [if_neg hfits]
    exact walk_filled hx he hlink hf

/-- One step that ends at a file ends in the directory. -/
theorem walk_step_file {links : Nat} {content : Text.Bytes}
    (h : walk d .itself links q [name] = .ok (.entry loc (.file content))) :
    name ≠ ".." ∧ loc = q ++ [name] := by
  rw [walk] at h
  split at h
  case isTrue =>
    rw [walk] at h
    cases h
  case isFalse =>
    split at h
    case isTrue =>
      rw [walk] at h
      cases h
    case isFalse hup =>
      split at h
      case isTrue => cases h
      case isFalse =>
        split at h
        case isTrue => cases h
        case isFalse =>
          split at h
          case h_1 => cases h
          case h_2 =>
            rw [walk] at h
            cases h
          case h_3 =>
            cases h
            exact ⟨hup, rfl⟩
          case h_4 => cases h

/-- A file of a directory that is there. -/
theorem find_child_file {content : Text.Bytes} (hp : p.Proper) (hn : Path.IsPart name)
    (hq : d.directoryAt? p = some q)
    (hf : d.find .itself (p.child name).text = .ok (.entry loc (.file content))) :
    name ≠ ".." ∧ loc = q ++ [name] := by
  obtain ⟨-, links, hr⟩ := (directoryAt?_eq_some_iff hp).mp hq
  have hchild := hp.child hn
  have hfits : (p.child name).text.utf8ByteSize ≤ maxPath := by
    refine Nat.le_of_not_lt fun hlong => ?_
    rw [find_of_long hchild hlong] at hf
    cases hf
  have hstart : d.startOf (p.child name) = d.startOf p := rfl
  rw [find_snoc hchild (p.child_parts_ne_nil name) hfits, Path.parent_child, hstart, hr,
    Path.name_child] at hf
  exact walk_step_file hf

/-- Where a file is found, whoever looks through links finds it, too. -/
theorem walk_target_of_file {links : Nat} {names : List String} {content : Text.Bytes}
    (h : walk d aim links q names = .ok (.entry loc (.file content))) :
    walk d .target links q names = .ok (.entry loc (.file content)) := by
  have ht : ∀ rest : List String,
      (decide (Aim.target = .content) && decide (rest = [finalSlash])) ≠ true := by simp
  fun_induction walk d aim links q names
  case case2 hskip ih => rw [walk, if_pos hskip, ih h]
  case case3 rest hskip ih => rw [walk, if_neg hskip, if_pos rfl, ih h]
  case case8 hskip hup _ hlong hget ih =>
    rw [walk, if_neg hskip, if_neg hup, if_neg (ht _), if_neg hlong, hget]
    exact ih h
  case case9 hskip hup _ hlong _ hget hlast =>
    rw [walk, if_neg hskip, if_neg hup, if_neg (ht _), if_neg hlong, hget]
    dsimp only
    rw [if_pos hlast]
    exact h
  case case13 hskip hup _ hlong target hget _ links start ih =>
    rw [walk, if_neg hskip, if_neg hup, if_neg (ht _), if_neg hlong, hget]
    dsimp only
    rw [if_neg (by simp)]
    exact ih h
  all_goals cases h

theorem find_target_of_file {content : Text.Bytes} (hp : p.Proper)
    (hf : d.find aim p.text = .ok (.entry loc (.file content))) :
    d.find .target p.text = .ok (.entry loc (.file content)) := by
  rw [find_text d _ hp] at hf ⊢
  split at hf
  case isTrue => cases hf
  case isFalse hfits =>
    rw [if_neg hfits]
    exact walk_target_of_file hf

theorem get?_of_found (hd : d.WellFormed) (hhere : d.get? d.here = some .directory) (hp : p.Proper)
    (hf : d.find .target p.text = .ok (.entry loc e)) : d.get? loc = some e := by
  by_cases he : e = .directory
  · subst he
    refine get?_of_directoryAt hd hhere hp ?_
    unfold directoryAt?
    rw [hf]
  · exact get?_of_find he hf

theorem mem_list (h : name ∈ d.list p.text) :
    ∃ q, d.directoryAt? p = some q ∧ name ∈ d.childNames q := by
  unfold list at h
  unfold directoryAt?
  split at h
  case h_1 q hf => exact ⟨q, rfl, h⟩
  case h_2 => exact absurd h List.not_mem_nil

theorem list_of_directoryAt (hq : d.directoryAt? p = some q) :
    d.list p.text = d.childNames q := by
  unfold directoryAt? at hq
  unfold list
  split at hq
  case h_1 hf =>
    cases hq
    rfl
  case h_2 => cases hq

/-! ## Where a process writes -/

/-- The directory that a process works in which is given this path: it makes the directory, or it
finds one. -/
def resultsAt? (d : Disk) (p : Path) : Option Location :=
  match d.find .itself p.text with
  | .ok (.vacant q name) => some (q ++ [name])
  | _ => d.directoryAt? p

/-- The path leads to nothing that is there. -/
def Free (d : Disk) (p : Path) : Prop :=
  ∀ q e, d.find .target p.text ≠ .ok (.entry q e)

/-- What a process may have done that was given this path for its files. -/
structure Written (p : Path) (d d' : Disk) : Prop where
  here : d'.here = d.here
  wellFormed : d'.WellFormed
  within : ∀ l, d'.get? l ≠ d.get? l → ∃ loc, d.resultsAt? p = some loc ∧ loc <+: l
  plain : ∀ l t, d'.get? l = some (.link t) → d.get? l = some (.link t)

theorem Written.refl (hd : d.WellFormed) : Written p d d :=
  ⟨rfl, hd, fun _ h => absurd rfl h, fun _ _ h => h⟩

theorem Free.directoryAt? (hfree : d.Free p) : d.directoryAt? p = none := by
  unfold Disk.directoryAt?
  split
  case h_1 q hf => exact absurd hf (hfree q .directory)
  case h_2 => rfl

/-- Nothing is in a directory that is not there. -/
theorem Free.child (hfree : d.Free p) (hp : p.Proper) (hn : Path.IsPart name) :
    d.Free (p.child name) := by
  intro loc e hf
  have hchild := hp.child hn
  have hfits : (p.child name).text.utf8ByteSize ≤ maxPath := by
    refine Nat.le_of_not_lt fun hlong => ?_
    rw [find_of_long hchild hlong] at hf
    cases hf
  have hfits' : p.text.utf8ByteSize ≤ maxPath := by
    have hparent := Path.utf8ByteSize_parent_le hchild
    rw [Path.parent_child] at hparent
    exact Nat.le_trans hparent hfits
  have hstart : d.startOf (p.child name) = d.startOf p := rfl
  rw [find_snoc hchild (p.child_parts_ne_nil name) hfits, Path.parent_child, hstart] at hf
  cases hr : route d maxLinks (d.startOf p) p.parts with
  | error g =>
    rw [hr] at hf
    cases hf
  | ok r =>
    have hq := (directoryAt?_eq_some_iff (q := r.2) hp).mpr ⟨hfits', r.1, hr⟩
    rw [hfree.directoryAt?] at hq
    cases hq

/-- Where nothing is, a process can only make a directory. -/
theorem Free.resultsAt? (hfree : d.Free p) (hr : d.resultsAt? p = some loc) :
    ∃ q name, d.find .itself p.text = .ok (.vacant q name) ∧ loc = q ++ [name] := by
  unfold Disk.resultsAt? at hr
  split at hr
  case h_1 q name hf =>
    cases hr
    exact ⟨q, name, hf, rfl⟩
  case h_2 =>
    rw [hfree.directoryAt?] at hr
    cases hr

section Written

variable (hw : Written p d d') (hd : d.WellFormed) (hfree : d.Free p)

include hw hd hfree

theorem Written.vacant {l : Location} (hl : d'.get? l ≠ d.get? l) : d.get? l = none := by
  obtain ⟨loc, hloc, hbelow⟩ := hw.within l hl
  obtain ⟨q, name, hf, rfl⟩ := hfree.resultsAt? hloc
  exact hd.vacant (get?_of_vacant hf) l hbelow

/-- A process that finds nothing at its path leaves alone what is there. -/
theorem Written.extends : Extends d d' := by
  intro l e he
  by_contra hne
  have hnone := hw.vacant hd hfree (l := l) (by rwa [he])
  rw [he] at hnone
  cases hnone

/-- A directory that is at the path afterwards is new, and so is all that is in it. -/
theorem Written.new (hp : p.Proper) (hq : d'.directoryAt? p = some q) :
    ∀ l, q <+: l → d.get? l = none := by
  obtain ⟨hfound, -⟩ := find_of_directoryAt hp hq
  -- something has changed, since the path led to nothing before
  have hchanged : ∃ l, d'.get? l ≠ d.get? l := by
    by_contra hsame
    have hback : Extends d' d := fun l e he => by
      by_contra hne
      exact hsame ⟨l, by rw [he]; exact Ne.symm hne⟩
    exact hfree _ _ (find_mono hback hw.here.symm hfound)
  obtain ⟨l₀, hl₀⟩ := hchanged
  obtain ⟨loc, hloc, hbelow⟩ := hw.within l₀ hl₀
  obtain ⟨parent, name, hf, rfl⟩ := hfree.resultsAt? hloc
  have hnone : d.get? (parent ++ [name]) = none := get?_of_vacant hf
  have hnone₀ := hd.vacant hnone l₀ hbelow
  cases hget : d'.get? (parent ++ [name]) with
  | none =>
    rw [hw.wellFormed.vacant hget l₀ hbelow, hnone₀] at hl₀
    exact absurd rfl hl₀
  | some e =>
    have hlink : ∀ t, e ≠ .link t := by
      rintro t rfl
      have hold := hw.plain _ t hget
      rw [hnone] at hold
      cases hold
    have hat := find_appeared hp (hw.extends hd hfree) hw.here hget hlink
      (find_target_of_vacant hp hf)
    rw [hfound, Except.ok.injEq, Found.entry.injEq] at hat
    rw [hat.1]
    exact hd.vacant hnone

end Written

/-! ## What the script leaves alone -/

theorem keepsWays_of_insert {content : Text.Bytes} :
    KeepsWays (d.insert loc (.file content)) d := by
  intro l e he hne
  by_cases hl : l = []
  · rw [hl, get?_root] at he ⊢
    exact he
  · rw [get?_insert hl] at he
    split at he
    · exact absurd (Option.some.inj he).symm (hne content)
    · exact he

/-- A name that is in a directory after a change elsewhere was there before. -/
theorem mem_childNames_of_insert (hne : loc ≠ q ++ [name])
    (h : name ∈ (d.insert loc e).childNames q) : name ∈ d.childNames q := by
  rw [childNames_eq, List.mem_filterMap] at h ⊢
  obtain ⟨l, hl, hname⟩ := h
  obtain ⟨e', he', rfl⟩ := List.mem_map.mp hl
  rcases List.mem_cons.mp he' with rfl | he'
  · exact absurd (nameIn_eq_some_iff.mp hname) hne
  · exact ⟨_, List.mem_map_of_mem (List.mem_filter.mp he').1, hname⟩

/-- A file that is found is found as it is after the change, too. -/
def KeepsFile (x : String) (d d' : Disk) : Prop :=
  ∀ loc content, d.find .target x = .ok (.entry loc (.file content)) →
    d'.find .target x = .ok (.entry loc (.file content))

theorem KeepsFile.trans (h : KeepsFile x d d') (h' : KeepsFile x d' d'') : KeepsFile x d d'' :=
  fun loc content hf => h' loc content (h loc content hf)

theorem keepsFile_of_extends (hx : Extends d d') (hhere : d'.here = d.here) (x : String) :
    KeepsFile x d d' :=
  fun _ _ hf => find_mono hx hhere hf

/-- The script is not below the location. -/
def Apart (script : Option Path) (root : Location) (d : Disk) : Prop :=
  ∀ s ∈ script, ∀ f, d.find .content s.text = .ok f → ¬ root <+: f.location

section Recorded

variable {script : Option Path} {root : Location} (hr : Recorded script d d')
  (hs : Apart script root d)

include hr hs

theorem Recorded.get? {l : Location} (hl : root <+: l) : d'.get? l = d.get? l := by
  rcases hr.cases with rfl | ⟨s, hmem, f, content, hf, -, rfl⟩
  · rfl
  · by_cases hnil : l = []
    · rw [hnil, get?_root, get?_root]
    · rw [get?_insert hnil, if_neg]
      rintro rfl
      exact hs s hmem f hf hl

theorem Recorded.keepsFile {content : Text.Bytes} (hroot : root <+: loc)
    (hx : d.find .target x = .ok (.entry loc (.file content))) :
    d'.find .target x = .ok (.entry loc (.file content)) := by
  have hget := (hr.get? hs hroot).trans (get?_of_find Entry.noConfusion hx)
  exact find_kept hr.keepsWays hr.here (.inr ⟨content, content, rfl, rfl, hget⟩) hx

theorem Recorded.mem_list (hp : p.Proper) (hroot : ∀ q, d.directoryAt? p = some q → root <+: q)
    (hn : name ∈ d'.list p.text) : ∃ q, d.directoryAt? p = some q ∧ name ∈ d.childNames q := by
  rcases hr.cases with rfl | ⟨s, hmem, f, content, hf, hold, rfl⟩
  · exact Disk.mem_list hn
  · obtain ⟨q, hq, hname⟩ := Disk.mem_list hn
    have hfound := find_kept keepsWays_of_insert rfl (.inl ⟨rfl, fun _ => Entry.noConfusion⟩)
      (find_of_directoryAt hp hq).1
    have hback : d.directoryAt? p = some q := by
      unfold directoryAt?
      rw [hfound]
    refine ⟨q, hback, mem_childNames_of_insert (fun hat => ?_) hname⟩
    exact hs s hmem f hf (hat ▸ (hroot q hback).trans (List.prefix_append q [name]))

end Recorded

/-! ## Ways outside -/

/-- Except for the location and what is below it, both disks have the same directories and links. -/
structure SameWays (root : Location) (d d' : Disk) : Prop where
  here : d'.here = d.here
  ways : ∀ l e, ¬ root <+: l → (∀ content, e ≠ .file content) →
    (d'.get? l = some e ↔ d.get? l = some e)

theorem SameWays.refl (root : Location) (d : Disk) : SameWays root d d :=
  ⟨rfl, fun _ _ _ _ => Iff.rfl⟩

theorem SameWays.trans {root : Location} (h : SameWays root d d') (h' : SameWays root d' d'') :
    SameWays root d d'' :=
  ⟨h'.here.trans h.here, fun l e hl he => (h'.ways l e hl he).trans (h.ways l e hl he)⟩

theorem sameWays_of_within {root : Location} (hhere : d'.here = d.here)
    (hsame : ∀ l, ¬ root <+: l → d'.get? l = d.get? l) : SameWays root d d' :=
  ⟨hhere, fun l e hl _ => by rw [hsame l hl]⟩

/-- No entry at the location or below it is a link. -/
def LinkFreeFrom (d : Disk) (root : Location) : Prop :=
  ∀ l t, root <+: l → d.get? l ≠ some (.link t)

theorem Recorded.brings {script : Option Path} (hr : Recorded script d d') : KeepsWays d' d := by
  rcases hr.cases with rfl | ⟨s, hmem, f, content, hf, hold, rfl⟩
  · exact fun _ _ he _ => he
  · exact keepsWays_of_insert

theorem Recorded.sameWays {script : Option Path} (hr : Recorded script d d') (root : Location) :
    SameWays root d d' :=
  ⟨hr.here, fun l e _ he => ⟨fun hl => hr.brings l e hl he, fun hl => hr.keepsWays l e hl he⟩⟩

end Disk

/-! ## Processes -/

/-- A process that is given this path for its files writes nowhere else. If it found nothing there,
then every input that is collected for a file there is a file, too. -/
structure Orderly (c : Config) (h : Host) (call : Call) (p : Path) : Prop where
  written : ∀ before d, d.WellFormed → d.get? d.here = some .directory →
    Disk.Written p d (h.behave before call d).1
  complete : ∀ before d, d.WellFormed → d.get? d.here = some .directory → d.Free p →
    ∀ n ∈ (h.behave before call d).1.list p.text, ∀ x, Counterexample.HasInput c p n x →
      Path.IsPart n ∧ ∃ loc content,
        (h.behave before call d).1.find .itself x.text = .ok (.entry loc (.file content))

section Processes

variable {c : Config} {h : Host} {call : Call} {p : Path} {d : Disk} {n : String}

/-- A process that changes nothing. -/
theorem orderly_of_idle (hidle : ∀ before d, (h.behave before call d).1 = d) (c : Config)
    (p : Path) : Orderly c h call p where
  written before d hd _ := by
    rw [hidle before d]
    exact .refl hd
  complete before d _ _ hfree n hn := by
    rw [hidle before d] at hn
    obtain ⟨q, hq, -⟩ := Disk.mem_list hn
    rw [hfree.directoryAt?] at hq
    cases hq

end Processes

/-! ### A process that finds a failing test -/

namespace Disk

variable {d d' : Disk} {q loc l : Location} {name : String} {p : Path}

def failureName : String := "test000001.assert.err"

def failureInput : String := "test000001.ktest"

/-- A directory with a failing test and its input. -/
def withTest (d : Disk) (loc : Location) : Disk :=
  ((d.insert loc .directory).insert (loc ++ [failureName]) (.file [])).insert
    (loc ++ [failureInput]) (.file [])

theorem get?_withTest (hloc : loc ≠ []) (l : Location) :
    (d.withTest loc).get? l =
      if l = loc ++ [failureInput] ∨ l = loc ++ [failureName] then some (.file [])
      else if l = loc then some .directory else d.get? l := by
  by_cases hl : l = []
  · subst hl
    rw [get?_root, get?_root, if_neg, if_neg (Ne.symm hloc)]
    rintro (h | h) <;> exact concat_ne_nil _ _ h.symm
  · unfold withTest
    rw [get?_insert hl, get?_insert hl, get?_insert hl, ite_or]

theorem isPart_failureName : Path.IsPart failureName := by decide

theorem isPart_failureInput : Path.IsPart failureInput := by decide

section WithTest

variable (hd : d.WellFormed) (hq : d.get? q = some .directory)
  (hnone : d.get? (q ++ [name]) = none)

include hd hq hnone

theorem wellFormed_withTest : (d.withTest (q ++ [name])).WellFormed := by
  have hloc := concat_ne_nil q name
  have hfree := hd.vacant hnone
  have hne : ∀ n : String, q ++ [name] ++ [n] ≠ q ++ [name] := fun n h =>
    List.cons_ne_nil _ _ (List.self_eq_append_right.mp h.symm)
  have hdir := hd.insert hnone hq .directory
  have hat : (d.insert (q ++ [name]) .directory).get? (q ++ [name]) = some .directory :=
    get?_insert_self hloc
  have herr : ((d.insert (q ++ [name]) .directory).insert (q ++ [name] ++ [failureName])
      (.file [])).WellFormed := by
    refine hdir.insert ?_ hat (.file [])
    rw [get?_insert (concat_ne_nil _ _), if_neg (hne _), hfree _ (List.prefix_append _ _)]
  refine herr.insert ?_ ?_ (.file [])
  · rw [get?_insert (concat_ne_nil _ _), if_neg (by simp [failureName, failureInput]),
      get?_insert (concat_ne_nil _ _), if_neg (hne _), hfree _ (List.prefix_append _ _)]
  · rw [get?_insert hloc, if_neg (hne _).symm, hat]

omit hq in
theorem extends_withTest : Extends d (d.withTest (q ++ [name])) := by
  intro l e he
  have hfree : ∀ n : String, d.get? (q ++ [name] ++ [n]) = none := fun n =>
    hd.vacant hnone _ (List.prefix_append _ _)
  rw [get?_withTest (concat_ne_nil q name), if_neg, if_neg, he]
  · rintro rfl
    rw [hnone] at he
    cases he
  · rintro (rfl | rfl)
    all_goals
      rw [hfree] at he
      cases he

/-- The files are all that is in the directory. -/
theorem eq_of_mem_withTest {n : String}
    (hn : n ∈ (d.withTest (q ++ [name])).childNames (q ++ [name])) :
    n = failureInput ∨ n = failureName := by
  rw [(wellFormed_withTest hd hq hnone).mem_childNames, get?_withTest (concat_ne_nil q name)] at hn
  by_contra hneither
  rw [if_neg, if_neg, hd.vacant hnone _ (List.prefix_append _ _)] at hn
  · exact hn rfl
  · exact fun h => List.cons_ne_nil _ _ (List.self_eq_append_right.mp h.symm)
  · simpa using hneither

end WithTest

/-- What KLEE does that is given this path and finds a failing test. -/
def failAt (d : Disk) (p : Path) : Disk :=
  match d.find .itself p.text with
  | .ok (.vacant q name) => d.withTest (q ++ [name])
  | _ => d

section FailAt

variable (hd : d.WellFormed) (hhere : d.get? d.here = some .directory)

include hd hhere

theorem written_failAt : Written p d (d.failAt p) := by
  unfold failAt
  split
  case h_2 => exact .refl hd
  case h_1 q name hf =>
    have hnone : d.get? (q ++ [name]) = none := get?_of_vacant hf
    have hq := directory_of_vacant hd hhere hf
    have hat : d.resultsAt? p = some (q ++ [name]) := by
      unfold Disk.resultsAt?
      rw [hf]
    refine ⟨rfl, wellFormed_withTest hd hq hnone, fun l hl => ⟨_, hat, ?_⟩, fun l t hl => ?_⟩
    · rw [get?_withTest (concat_ne_nil q name)] at hl
      by_contra hnot
      rw [if_neg, if_neg] at hl
      · exact hl rfl
      · rintro rfl
        exact hnot List.prefix_rfl
      · rintro (rfl | rfl) <;> exact hnot (List.prefix_append _ _)
    · rw [get?_withTest (concat_ne_nil q name)] at hl
      split at hl
      case isTrue => cases hl
      case isFalse =>
        split at hl
        case isTrue => cases hl
        case isFalse => exact hl

omit hhere in
/-- Where nothing is, there is the failing test afterwards, and nothing else. -/
theorem failAt_of_vacant (hp : p.Proper) (hf : d.find .itself p.text = .ok (.vacant q name)) :
    (d.failAt p).directoryAt? p = some (q ++ [name]) ∧ d.failAt p = d.withTest (q ++ [name]) := by
  have heq : d.failAt p = d.withTest (q ++ [name]) := by
    unfold failAt
    rw [hf]
  have hnone : d.get? (q ++ [name]) = none := get?_of_vacant hf
  have hget : (d.withTest (q ++ [name])).get? (q ++ [name]) = some .directory := by
    rw [get?_withTest (concat_ne_nil q name), if_neg, if_pos rfl]
    rintro (h | h) <;> exact List.cons_ne_nil _ _ (List.self_eq_append_right.mp h)
  refine ⟨?_, heq⟩
  rw [heq]
  unfold directoryAt?
  rw [find_appeared hp (extends_withTest hd hnone) rfl hget (fun _ => Entry.noConfusion)
    (find_target_of_vacant hp hf)]

omit hhere in
/-- The input of the failing test is found. -/
theorem find_failureInput (hp : p.Proper) (hn : Fits p failureInput)
    (hnull : hasNull (p.child failureInput).text = false)
    (hf : d.find .itself p.text = .ok (.vacant q name)) :
    (d.failAt p).find .itself (p.child failureInput).text =
      .ok (.entry (q ++ [name] ++ [failureInput]) (.file [])) := by
  obtain ⟨hdir, heq⟩ := failAt_of_vacant hd hp hf
  rw [find_child hp hn hnull hdir .itself (.inl rfl), heq]
  unfold foundAt
  rw [get?_withTest (concat_ne_nil q name), if_pos (.inl rfl)]

end FailAt

end Disk

section Processes

open Disk (failureName failureInput)

variable {c : Config} {p : Path} {d : Disk} {n : String}

/-- The input of the failing test is all that is collected. -/
theorem complete_failAt (hc : ¬ 1 < c.replay) (hp : p.Proper) (hn : Disk.Fits p failureInput)
    (hnull : Disk.hasNull (p.child failureInput).text = false) (hd : d.WellFormed)
    (hhere : d.get? d.here = some .directory) (hfree : d.Free p)
    (hlist : n ∈ (d.failAt p).list p.text) {x : Path} (hx : Counterexample.HasInput c p n x) :
    Path.IsPart n ∧ ∃ loc content,
      (d.failAt p).find .itself x.text = .ok (.entry loc (.file content)) := by
  by_cases hf : ∃ q name, d.find .itself p.text = .ok (.vacant q name)
  · obtain ⟨q, name, hf⟩ := hf
    obtain ⟨hdir, heq⟩ := Disk.failAt_of_vacant hd hp hf
    rw [Disk.list_of_directoryAt hdir, heq] at hlist
    unfold Counterexample.HasInput at hx
    rw [if_neg hc] at hx
    have hname := (Disk.eq_of_mem_withTest hd (Disk.directory_of_vacant hd hhere hf)
      (Disk.get?_of_vacant hf) hlist).resolve_left fun h => by
        rw [h] at hx
        exact absurd hx.2.1 (by decide)
    subst hname
    have hinput : Counterexample.inputName failureName = failureInput := by decide
    rw [hx.2.2, Counterexample.inputOf_child, hinput]
    exact ⟨Disk.isPart_failureName, _, _, Disk.find_failureInput hd hp hn hnull hf⟩
  · have hsame : d.failAt p = d := by
      unfold Disk.failAt
      split
      case h_1 q name hf' => exact absurd ⟨q, name, hf'⟩ hf
      case h_2 => rfl
    rw [hsame] at hlist
    obtain ⟨q, hq, -⟩ := Disk.mem_list hlist
    rw [hfree.directoryAt?] at hq
    cases hq

end Processes

end Assay

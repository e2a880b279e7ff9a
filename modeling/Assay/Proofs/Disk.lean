import Assay.Disk.Basic
import Mathlib.Data.List.Induction
import Mathlib.Data.List.Nodup

/-!
# Well-formed disks

The entries of a file system form a tree: every entry is in a directory, and there is one entry at a
location at most. Putting something where nothing was keeps a disk so, and so does taking away what
is below a location, and then what is at it: `WellFormed.insert`, `WellFormed.prune` and
`WellFormed.erase`. On a well-formed disk the names in a directory are the names under which
something is there, each once: `mem_childNames`, `nodup_childNames`.
-/

namespace Assay.Disk

variable {d d' : Disk} {loc l : Location} {name : String} {e : Entry}

/-! ## More on the disk -/

/-- All that is on the first disk is on the second. -/
def Extends (d d' : Disk) : Prop :=
  ∀ l e, d.get? l = some e → d'.get? l = some e

theorem Extends.refl (d : Disk) : Extends d d :=
  fun _ _ h => h

theorem Extends.trans {d'' : Disk} (h : Extends d d') (h' : Extends d' d'') : Extends d d'' :=
  fun l e he => h' l e (h l e he)

theorem extends_insert (h : d.get? loc = none) (e : Entry) : Extends d (d.insert loc e) := by
  intro l e' he
  by_cases hl : l = []
  · subst hl
    rw [get?_root] at he ⊢
    exact he
  · have hne : l ≠ loc := by
      rintro rfl
      rw [h] at he
      cases he
    rw [get?_insert hl, if_neg hne]
    exact he

theorem get?_insert_self (hloc : loc ≠ []) : (d.insert loc e).get? loc = some e := by
  rw [get?_insert hloc, if_pos rfl]

@[simp] theorem insert_here (d : Disk) (loc : Location) (e : Entry) :
    (d.insert loc e).here = d.here := rfl

/-- What is put at a location replaces what was put there before. -/
theorem insert_insert (d : Disk) (loc : Location) (e e' : Entry) :
    (d.insert loc e).insert loc e' = d.insert loc e' := by
  have hsame : without (· == keyOf loc) ((keyOf loc, e) :: without (· == keyOf loc) d.entries) =
      without (· == keyOf loc) d.entries := by
    unfold without
    rw [List.filter_cons_of_neg (by simp), List.filter_filter]
    simp only [Bool.and_self]
  unfold insert
  dsimp only
  rw [hsame]

/-! ## Trees -/

/-- The entries of the disk form a tree. -/
structure WellFormed (d : Disk) : Prop where
  keys : (d.entries.map Prod.fst).Nodup
  keyed : ∀ e ∈ d.entries, e.1 = keyOf e.1.2
  parents : ∀ loc name, d.get? (loc ++ [name]) ≠ none → d.get? loc = some .directory

/-- The directory that a directory is in. -/
theorem WellFormed.dropLast (h : d.WellFormed) (hloc : d.get? loc = some .directory) :
    d.get? loc.dropLast = some .directory := by
  rcases List.eq_nil_or_concat loc with rfl | ⟨init, name, rfl⟩
  · exact hloc
  · rw [List.concat_eq_append] at hloc ⊢
    rw [List.dropLast_concat]
    exact h.parents init name (by rw [hloc]; exact Option.some_ne_none _)

/-- Nothing is below a location that is no directory. -/
theorem WellFormed.below (h : d.WellFormed) (hloc : d.get? loc ≠ some .directory) :
    ∀ below : Location, below ≠ [] → d.get? (loc ++ below) = none := by
  intro below
  induction below using List.reverseRecOn with
  | nil => exact fun hne => absurd rfl hne
  | append_singleton below name ih =>
    intro _
    by_contra hsome
    rw [← List.append_assoc] at hsome
    have hparent := h.parents _ _ hsome
    by_cases hb : below = []
    · rw [hb, List.append_nil] at hparent
      exact hloc hparent
    · rw [ih hb] at hparent
      cases hparent

/-- Where nothing is there is nothing below. -/
theorem WellFormed.vacant (h : d.WellFormed) (hloc : d.get? loc = none) :
    ∀ l, loc <+: l → d.get? l = none := by
  rintro _ ⟨below, rfl⟩
  by_cases hb : below = []
  · rw [hb, List.append_nil, hloc]
  · exact h.below (by rw [hloc]; exact nofun) below hb

theorem nodup_without {p : DiskKey → Bool} {es : List (DiskKey × Entry)}
    (h : (es.map Prod.fst).Nodup) : ((without p es).map Prod.fst).Nodup :=
  h.sublist (List.filter_sublist.map _)

theorem concat_ne_nil (loc : Location) (name : String) : loc ++ [name] ≠ [] :=
  List.append_ne_nil_of_right_ne_nil loc (List.cons_ne_nil name [])

/-- What is put where nothing was, in a directory, keeps the tree. -/
theorem WellFormed.insert (h : d.WellFormed) (hnone : d.get? (loc ++ [name]) = none)
    (hparent : d.get? loc = some .directory) (e : Entry) :
    (d.insert (loc ++ [name]) e).WellFormed := by
  have hx := extends_insert hnone e
  refine ⟨?_, ?_, ?_⟩
  · refine List.nodup_cons.mpr ⟨fun hmem => ?_, nodup_without h.keys⟩
    obtain ⟨e', he', hkey⟩ := List.mem_map.mp hmem
    have hp := (List.mem_filter.mp he').2
    rw [hkey] at hp
    simp at hp
  · intro e' he'
    rcases List.mem_cons.mp he' with rfl | he'
    · rfl
    · exact h.keyed e' (List.mem_filter.mp he').1
  · intro l n hl
    by_cases hat : l ++ [n] = loc ++ [name]
    · rw [(List.append_singleton_inj.mp hat).1]
      exact hx _ _ hparent
    · rw [get?_insert (concat_ne_nil l n), if_neg hat] at hl
      exact hx _ _ (h.parents l n hl)

/-- Taking a location away, with nothing below it, keeps the tree. -/
theorem WellFormed.erase (h : d.WellFormed)
    (hbelow : ∀ below, below ≠ [] → d.get? (loc ++ below) = none) : (d.erase loc).WellFormed := by
  refine ⟨nodup_without (p := (· == keyOf loc)) h.keys,
    fun e he => h.keyed e (List.mem_filter.mp he).1, ?_⟩
  intro l n hl
  rw [get?_erase (concat_ne_nil l n)] at hl
  have hn : d.get? (l ++ [n]) ≠ none := by
    split at hl
    · exact absurd rfl hl
    · exact hl
  by_cases hnil : l = []
  · rw [hnil, get?_root]
  · have hne : l ≠ loc := by
      rintro rfl
      exact hn (hbelow [n] (List.cons_ne_nil n []))
    rw [get?_erase hnil, if_neg hne]
    exact h.parents l n hn

/-- Taking all that is below a location away keeps the tree. -/
theorem WellFormed.prune (h : d.WellFormed) (loc : Location) : (d.prune loc).WellFormed := by
  refine ⟨nodup_without (p := fun key => isBelow loc key.2) h.keys,
    fun e he => h.keyed e (List.mem_filter.mp he).1, ?_⟩
  intro l n hl
  rw [get?_prune (concat_ne_nil l n)] at hl
  split at hl
  case isTrue => exact absurd rfl hl
  case isFalse hout =>
    by_cases hnil : l = []
    · rw [hnil, get?_root]
    · have hbelow : ¬ isBelow loc l = true := by
        intro hl'
        obtain ⟨hpre, hne⟩ := isBelow_iff.mp hl'
        refine hout (isBelow_iff.mpr ⟨hpre.trans (List.prefix_append l [n]), ?_⟩)
        rintro rfl
        have hlen := hpre.length_le
        rw [List.length_append, List.length_singleton] at hlen
        omega
      rw [get?_prune hnil, if_neg hbelow]
      exact h.parents l n hl

/-! ## The names in a directory -/

/-- What is somewhere has an entry there. -/
theorem WellFormed.get?_ne_none_iff (h : d.WellFormed) (hl : l ≠ []) :
    d.get? l ≠ none ↔ l ∈ d.entries.map fun e => e.1.2 := by
  unfold get?
  rw [if_neg hl, ne_eq, List.lookup_eq_none_iff]
  constructor
  · intro hsome
    by_contra hmem
    refine hsome fun e he => ?_
    have hne : keyOf l ≠ e.1 := by
      intro hkey
      rw [h.keyed e he, keyOf_inj] at hkey
      exact hmem (List.mem_map.mpr ⟨e, he, hkey.symm⟩)
    exact bne_iff_ne.mpr hne
  · intro hmem hnone
    obtain ⟨e, he, rfl⟩ := List.mem_map.mp hmem
    have hne := hnone e he
    rw [← h.keyed e he, bne_self_eq_false] at hne
    cases hne

/-- The name of what is at a location, if it is in this directory. -/
def nameIn (loc l : Location) : Option String :=
  if l ≠ [] && l.dropLast = loc then l.getLast? else none

theorem nameIn_eq_some_iff : nameIn loc l = some name ↔ l = loc ++ [name] := by
  unfold nameIn
  constructor
  · intro h
    split at h
    case isTrue hc =>
      rw [Bool.and_eq_true, decide_eq_true_eq, decide_eq_true_eq] at hc
      obtain ⟨init, rfl⟩ := List.getLast?_eq_some_iff.mp h
      rw [List.dropLast_concat] at hc
      rw [hc.2]
    case isFalse => cases h
  · rintro rfl
    have hc : (decide (loc ++ [name] ≠ []) && decide ((loc ++ [name]).dropLast = loc)) = true := by
      rw [List.dropLast_concat, decide_eq_true (concat_ne_nil loc name), decide_eq_true rfl]
      rfl
    rw [if_pos hc, List.getLast?_concat]

theorem childNames_eq (d : Disk) (loc : Location) :
    d.childNames loc = (d.entries.map fun e => e.1.2).filterMap (nameIn loc) := by
  unfold childNames located
  rw [List.filterMap_map, List.filterMap_map]
  rfl

/-- The names in a directory are those under which something is there. -/
theorem WellFormed.mem_childNames (h : d.WellFormed) :
    name ∈ d.childNames loc ↔ d.get? (loc ++ [name]) ≠ none := by
  rw [h.get?_ne_none_iff (concat_ne_nil loc name), childNames_eq, List.mem_filterMap]
  constructor
  · rintro ⟨l, hl, hname⟩
    rwa [← nameIn_eq_some_iff.mp hname]
  · intro hl
    exact ⟨_, hl, nameIn_eq_some_iff.mpr rfl⟩

/-- No name comes twice. -/
theorem WellFormed.nodup_childNames (h : d.WellFormed) (loc : Location) :
    (d.childNames loc).Nodup := by
  have hlocs : (d.entries.map fun e => e.1.2).Nodup := by
    have hkeys : d.entries.map Prod.fst = (d.entries.map fun e => e.1.2).map keyOf := by
      rw [List.map_map]
      exact List.map_congr_left fun e he => h.keyed e he
    refine List.Nodup.of_map keyOf ?_
    rw [← hkeys]
    exact h.keys
  rw [childNames_eq]
  refine hlocs.filterMap fun a b name ha hb => ?_
  rw [nameIn_eq_some_iff.mp ha, nameIn_eq_some_iff.mp hb]

end Assay.Disk

import Assay.Proofs.Frames

/-!
# Going down

Components that lead down, one directory after the other, past no link, end where their names say.
What they find depends only on what is at the locations that they pass: `walk_down_congr`. A path
that goes down from a directory does so from wherever the path to the directory leads,
`find_down`.
-/

namespace Assay

namespace Path

variable {p : Path} {name : String} {names : List String}

theorem anchorOf_text {c : Char} {cs : List Char} (hc : c ≠ '/') (a : Anchor) :
    anchorOf (a.text.toList ++ c :: cs) = a := by
  have hstop : ((c == '/') : Bool) ≠ true := by
    rw [beq_eq_false_iff_ne.mpr hc]
    exact Bool.false_ne_true
  have hslashes : (a.text.toList ++ c :: cs).takeWhile (· == '/') = a.text.toList := by
    have hall : ∀ c ∈ a.text.toList, (c == '/') = true := by
      cases a <;> simp [Anchor.text]
    rw [List.takeWhile_append_of_pos hall, List.takeWhile_cons_of_neg (p := (· == '/')) hstop,
      List.append_nil]
  unfold anchorOf
  rw [hslashes]
  cases a with
  | relative => rfl
  | root => rfl
  | doubleRoot => rfl

/-- Reading the text of a path gives the path back. -/
theorem parse_text (hp : p.Proper) (hne : p.parts ≠ []) : parse p.text = p := by
  have hparts : components p.text.toList = p.parts := by
    have hproper : isProper = fun c => c != ['.'] && !c.isEmpty :=
      funext fun c => Bool.and_comm _ _
    have hdots : ∀ f ∈ p.parts.map String.toList, (f != ['.']) = true := by
      intro f hf
      obtain ⟨part, hpart, rfl⟩ := List.mem_map.mp hf
      refine bne_iff_ne.mpr fun hdot => (hp part hpart).2.1 ?_
      exact String.toList_injective hdot
    unfold components
    rw [hproper, ← List.filter_filter, splitBy_text hp hne, List.filter_eq_self.mpr hdots,
      List.map_map]
    exact (List.map_congr_left fun s _ => String.ofList_toList).trans (List.map_id _)
  obtain ⟨⟨c, hc, hslash⟩, -⟩ := intercalate_ends (p.parts.map String.toList)
    (by rwa [ne_eq, List.map_eq_nil_iff]) hp.fields
  obtain ⟨cs, hcs⟩ := List.head?_eq_some_iff.mp hc
  unfold parse
  rw [hparts, text_toList (.inr hne), hcs, anchorOf_text hslash]

/-- Components that lead down, one name after the other. -/
structure Down (names : List String) : Prop where
  part : ∀ name ∈ names, IsPart name
  up : ".." ∉ names

theorem Down.head (hn : Down (name :: names)) : IsPart name ∧ name ≠ ".." :=
  ⟨hn.part name List.mem_cons_self, fun h => hn.up (h ▸ List.mem_cons_self)⟩

theorem Down.tail (hn : Down (name :: names)) : Down names :=
  ⟨fun part hpart => hn.part part (List.mem_cons_of_mem name hpart),
    fun h => hn.up (List.mem_cons_of_mem name h)⟩

theorem Down.front {front : List String} (hn : Down names) (hf : front <+: names) : Down front :=
  ⟨fun part hpart => hn.part part (hf.subset hpart), fun h => hn.up (hf.subset h)⟩

theorem Down.append {more : List String} (hn : Down names) (hm : Down more) :
    Down (names ++ more) where
  part name hname := (List.mem_append.mp hname).elim (hn.part name) (hm.part name)
  up h := (List.mem_append.mp h).elim hn.up hm.up

theorem Down.singleton (hn : IsPart name) (hup : name ≠ "..") : Down [name] where
  part _ hpart := List.mem_singleton.mp hpart ▸ hn
  up h := hup (List.mem_singleton.mp h).symm

end Path

namespace Disk

variable {d d' : Disk} {aim : Aim} {links links' : Nat} {loc q : Location} {name : String}
  {names : List String} {f : Found} {base : Path}

open Assay.Path (Down)

/-- Going down from the location by these names passes no link. -/
def Plain (d : Disk) (loc : Location) (names : List String) : Prop :=
  ∀ front, front <+: names → front ≠ [] → ∀ t, d.get? (loc ++ front) ≠ some (.link t)

theorem Plain.head (hd : d.Plain loc (name :: names)) (t : String) :
    d.get? (loc ++ [name]) ≠ some (.link t) :=
  hd [name] ⟨names, rfl⟩ (List.cons_ne_nil _ _) t

theorem Plain.tail (hd : d.Plain loc (name :: names)) : d.Plain (loc ++ [name]) names := by
  intro front hfront hne t
  rw [List.append_assoc]
  exact hd _ (List.cons_prefix_cons.mpr ⟨rfl, hfront⟩) (List.cons_ne_nil _ _) t

theorem Plain.front {front : List String} (hd : d.Plain loc names) (hf : front <+: names) :
    d.Plain loc front :=
  fun more hmore => hd more (hmore.trans hf)

/-- One step down, past no link. -/
theorem walk_down_cons (hn : Down (name :: names))
    (hlink : ∀ t, d.get? (loc ++ [name]) ≠ some (.link t)) :
    walk d aim links loc (name :: names) =
      if maxName < name.utf8ByteSize then .error .nameTooLong
      else
        match d.get? (loc ++ [name]) with
        | none => if names.isEmpty then .ok (.vacant loc name) else .error .noEntry
        | some .directory => walk d aim links (loc ++ [name]) names
        | some e =>
          if names.isEmpty then .ok (.entry (loc ++ [name]) e) else .error .notDirectory := by
  have hslash : names ≠ [finalSlash] := by
    rintro rfl
    exact (hn.tail.part finalSlash List.mem_cons_self).1 rfl
  rw [walk, if_neg (not_skipped hn.head.1), if_neg hn.head.2,
    if_neg (by rw [decide_eq_false hslash, Bool.and_false]; exact Bool.false_ne_true)]
  split
  case isTrue => rfl
  case isFalse =>
    cases hget : d.get? (loc ++ [name]) with
    | none => rfl
    | some e =>
      cases e with
      | directory => rfl
      | file content => rfl
      | link t => exact absurd hget (hlink t)

/-- **Going down** ends where the names say. -/
theorem walk_down (hn : Down names) (hd : d.Plain loc names)
    (h : walk d aim links loc names = .ok f) : f.location = loc ++ names := by
  induction names generalizing loc with
  | nil =>
    rw [walk] at h
    cases h
    rw [List.append_nil]
    rfl
  | cons name names ih =>
    rw [walk_down_cons hn hd.head] at h
    split at h
    case isTrue => cases h
    case isFalse =>
      split at h
      case h_1 =>
        split at h
        case isTrue hlast =>
          cases h
          rw [List.isEmpty_iff.mp hlast]
          rfl
        case isFalse => cases h
      case h_2 => rw [ih hn.tail hd.tail h, List.append_assoc]; rfl
      case h_3 =>
        split at h
        case isTrue hlast =>
          cases h
          rw [List.isEmpty_iff.mp hlast]
          rfl
        case isFalse => cases h

/-- **What is found by going down** depends only on what is at the locations that are passed. -/
theorem walk_down_congr (hn : Down names) (hd : d.Plain loc names)
    (hsame : ∀ front, front <+: names → front ≠ [] →
      d'.get? (loc ++ front) = d.get? (loc ++ front)) :
    walk d' aim links' loc names = walk d aim links loc names := by
  induction names generalizing loc with
  | nil => rw [walk, walk]
  | cons name names ih =>
    have hhead : d'.get? (loc ++ [name]) = d.get? (loc ++ [name]) :=
      hsame [name] ⟨names, rfl⟩ (List.cons_ne_nil _ _)
    have hrest : walk d' aim links' (loc ++ [name]) names =
        walk d aim links (loc ++ [name]) names := by
      refine ih hn.tail hd.tail fun front hfront _ => ?_
      rw [List.append_assoc]
      exact hsame _ (List.cons_prefix_cons.mpr ⟨rfl, hfront⟩) (List.cons_ne_nil _ _)
    rw [walk_down_cons hn hd.head, walk_down_cons hn (hhead ▸ hd.head), hhead, hrest]

/-- A walk on from where a route leads. -/
theorem walk_append (hn : Down names) (hne : names ≠ []) (front : List String) :
    walk d aim links loc (front ++ names) =
      match route d links loc front with
      | .ok (links', q) => walk d aim links' q names
      | .error e => .error e := by
  obtain ⟨init, last, rfl⟩ := (List.eq_nil_or_concat names).resolve_left hne
  have hlast : last ≠ finalSlash := (hn.part last (by simp)).1
  rw [List.concat_eq_append, ← List.append_assoc, walk_snoc hlast, route_append]
  cases hr : route d links loc front with
  | error e => rfl
  | ok r => exact (walk_snoc hlast).symm

/-! ## Paths that go down -/

section Find

variable (hb : base.Proper) (hn : Down names) (hne : names ≠ [])

include hb hn

theorem proper_below : Path.Proper ⟨base.anchor, base.parts ++ names⟩ :=
  fun part hpart => (List.mem_append.mp hpart).elim (hb part) (hn.part part)

include hne

/-- **A path that goes down** from a directory. -/
theorem find_down (hq : d.directoryAt? base = some q) :
    ∃ links, ∀ aim, d.find aim (Path.text ⟨base.anchor, base.parts ++ names⟩) =
      if maxPath < (Path.text ⟨base.anchor, base.parts ++ names⟩).utf8ByteSize then
        .error .nameTooLong
      else walk d aim links q names := by
  obtain ⟨-, links, hr⟩ := (directoryAt?_eq_some_iff hb).mp hq
  refine ⟨links, fun aim => ?_⟩
  have hstart : d.startOf ⟨base.anchor, base.parts ++ names⟩ = d.startOf base := rfl
  rw [find_text d aim (proper_below hb hn), hstart]
  dsimp only
  rw [walk_append hn hne, hr]

theorem find_down_location (hq : d.directoryAt? base = some q) (hd : d.Plain q names)
    (h : d.find aim (Path.text ⟨base.anchor, base.parts ++ names⟩) = .ok f) :
    f.location = q ++ names := by
  obtain ⟨links, hfind⟩ := find_down hb hn hne hq
  rw [hfind] at h
  split at h
  case isTrue => cases h
  case isFalse => exact walk_down hn hd h

theorem find_down_congr (hq : d.directoryAt? base = some q) (hq' : d'.directoryAt? base = some q)
    (hd : d.Plain q names)
    (hsame : ∀ front, front <+: names → front ≠ [] → d'.get? (q ++ front) = d.get? (q ++ front)) :
    d'.find aim (Path.text ⟨base.anchor, base.parts ++ names⟩) =
      d.find aim (Path.text ⟨base.anchor, base.parts ++ names⟩) := by
  obtain ⟨links, hfind⟩ := find_down hb hn hne hq
  obtain ⟨links', hfind'⟩ := find_down hb hn hne hq'
  rw [hfind, hfind', walk_down_congr hn hd hsame]

end Find

/-- What is made on the way down from a directory is below the directory, where the names say. -/
theorem Sprouts.down (hb : base.Proper) (hn : Down names)
    (hs : Sprouts ⟨base.anchor, base.parts ++ names⟩ d d') (hwf : d.WellFormed)
    (hhere : d.get? d.here = some .directory) (hq : d.directoryAt? base = some q)
    (hd : d.Plain q names) {l : Location} (hl : d'.get? l ≠ d.get? l) :
    ∃ front, front <+: names ∧ front ≠ [] ∧ l = q ++ front := by
  rcases hs.only l with hsame | ⟨hnone, -, front, hfront, hled⟩
  · exact absurd hsame hl
  have hq' := directoryAt?_mono hb hs.extends hs.here hq
  have hplain : d'.Plain q names := fun front hfront hne t ht => hd front hfront hne t (hs.plain ht)
  by_cases hbase : front <+: base.parts
  · -- the directory, and what it is in, has been there before
    obtain ⟨rest, hrest⟩ := hbase
    obtain ⟨-, links, hr⟩ := (directoryAt?_eq_some_iff hb).mp hq
    rw [← hrest, route_append] at hr
    obtain ⟨-, links', hr'⟩ :=
      (directoryAt?_eq_some_iff (proper_below hb hn |>.front hfront)).mp hled
    cases hz : route d maxLinks (d.startOf base) front with
    | error e =>
      rw [hz] at hr
      cases hr
    | ok z =>
      have hz' := route_mono hs.extends hz
      rw [← startOf_congr hs.here] at hz'
      cases hr'.symm.trans hz'
      rw [route_directory hwf (startOf_directory hhere base) hz] at hnone
      cases hnone
  · obtain ⟨more, rfl⟩ := (List.prefix_or_prefix_of_prefix hfront
      (List.prefix_append base.parts names)).resolve_left hbase
    have hmore : more <+: names := (List.prefix_append_right_inj base.parts).mp hfront
    have hne : more ≠ [] := by
      rintro rfl
      exact hbase (by simp)
    have hdown := hn.front hmore
    have hfound := (find_of_directoryAt (proper_below hb hdown) hled).1
    exact ⟨more, hmore, hne, find_down_location hb hdown hne hq' (hplain.front hmore) hfound⟩

end Disk

end Assay

import Assay.Proofs.Disk
import Assay.Proofs.Path

/-!
# The way to a directory

Following a path to its last component is following the others to a directory, and then one step:
`walk_snoc`. The first part is `route`, which is the same whatever the operation aims at. A route
that leads somewhere still leads there when more is put on the disk, `route_mono`; that is why
making directories and files elsewhere does not disturb it.
-/

namespace Assay.Disk

variable {d d' : Disk} {aim : Aim} {links links' : Nat} {loc q : Location} {name : String}
  {names : List String}

/-! ## Walks -/

/-- Where nothing is, the aim does not matter. -/
theorem walk_target_of_vacant (h : walk d aim links loc names = .ok (.vacant q name)) :
    walk d .target links loc names = .ok (.vacant q name) := by
  have ht : ∀ rest : List String,
      (decide (Aim.target = .content) && decide (rest = [finalSlash])) ≠ true := by simp
  fun_induction walk d aim links loc names
  case case2 hskip ih => rw [walk, if_pos hskip, ih h]
  case case3 rest hskip ih => rw [walk, if_neg hskip, if_pos rfl, ih h]
  case case6 hskip hup _ hlong hget hlast =>
    rw [walk, if_neg hskip, if_neg hup, if_neg (ht _), if_neg hlong, hget]
    dsimp only
    rw [if_pos hlast]
    exact h
  case case8 hskip hup _ hlong hget ih =>
    rw [walk, if_neg hskip, if_neg hup, if_neg (ht _), if_neg hlong, hget]
    exact ih h
  case case13 hskip hup _ hlong target hget _ links start ih =>
    rw [walk, if_neg hskip, if_neg hup, if_neg (ht _), if_neg hlong, hget]
    dsimp only
    rw [if_neg (by simp)]
    exact ih h
  all_goals cases h

/-- Nothing is at the end of a walk that says so, and its last name is one that can be given. -/
theorem vacant_spec (h : walk d aim links loc names = .ok (.vacant q name)) :
    d.get? (q ++ [name]) = none := by
  fun_induction walk d aim links loc names
  case case2 ih => exact ih h
  case case3 ih => exact ih h
  case case6 hget _ =>
    cases h
    exact hget
  case case8 ih => exact ih h
  case case13 ih => exact ih h
  all_goals cases h

theorem get?_of_walk {e : Entry} (he : e ≠ .directory)
    (h : walk d aim links loc names = .ok (.entry q e)) : d.get? q = some e := by
  fun_induction walk d aim links loc names
  case case1 =>
    cases h
    exact absurd rfl he
  case case2 ih => exact ih h
  case case3 ih => exact ih h
  case case8 ih => exact ih h
  case case9 hget _ =>
    cases h
    exact hget
  case case11 hget _ =>
    cases h
    exact hget
  case case13 ih => exact ih h
  all_goals cases h

/-! ## Routes -/

/-- The directory that components lead to, and how many links may be followed from there on. -/
def route (d : Disk) (links : Nat) (loc : Location) (names : List String) :
    Except Errno (Nat × Location) :=
  match names with
  | [] => .ok (links, loc)
  | name :: rest =>
    if name = finalSlash || name = "." then route d links loc rest
    else if name = ".." then route d links loc.dropLast rest
    else if maxName < name.utf8ByteSize then .error .nameTooLong
    else
      match d.get? (loc ++ [name]) with
      | none => .error .noEntry
      | some .directory => route d links (loc ++ [name]) rest
      | some (.file _) => .error .notDirectory
      | some (.link target) =>
        match links with
        | 0 => .error .linkLoop
        | links + 1 =>
          route d links (if isRooted target.toList then [] else loc)
            (componentsOf target.toList ++ rest)
termination_by (links, names.length)

/-- **One step more**: a path leads on from the directory that its first components lead to. -/
theorem walk_snoc (hname : name ≠ finalSlash) :
    walk d aim links loc (names ++ [name]) =
      match route d links loc names with
      | .ok (links', q) => walk d aim links' q [name]
      | .error e => .error e := by
  have hrest : ∀ rest : List String,
      (decide (aim = .content) && decide (rest ++ [name] = [finalSlash])) = false := by
    intro rest
    have hne : rest ++ [name] ≠ [finalSlash] := by
      intro h
      rw [← List.nil_append [finalSlash], List.append_singleton_inj] at h
      exact hname h.2
    rw [decide_eq_false hne, Bool.and_false]
  have hempty : ∀ rest : List String, (rest ++ [name]).isEmpty = false := fun rest =>
    List.isEmpty_eq_false_iff.mpr (List.append_ne_nil_of_right_ne_nil rest (List.cons_ne_nil _ _))
  fun_induction route d links loc names
  case case1 => rfl
  case case2 hskip ih => rw [List.cons_append, walk, if_pos hskip, ih]
  case case3 rest hskip ih => rw [List.cons_append, walk, if_neg hskip, if_pos rfl, ih]
  case case4 hskip hup hlong =>
    rw [List.cons_append, walk, if_neg hskip, if_neg hup, hrest, if_neg Bool.false_ne_true,
      if_pos hlong]
  case case5 hskip hup hlong hget =>
    rw [List.cons_append, walk, if_neg hskip, if_neg hup, hrest, if_neg Bool.false_ne_true,
      if_neg hlong, hget]
    dsimp only
    rw [hempty, if_neg Bool.false_ne_true]
  case case6 hskip hup hlong hget ih =>
    rw [List.cons_append, walk, if_neg hskip, if_neg hup, hrest, if_neg Bool.false_ne_true,
      if_neg hlong, hget]
    exact ih
  case case7 hskip hup hlong content hget =>
    rw [List.cons_append, walk, if_neg hskip, if_neg hup, hrest, if_neg Bool.false_ne_true,
      if_neg hlong, hget]
    dsimp only
    rw [hempty, if_neg Bool.false_ne_true]
  case case8 hskip hup hlong target hget =>
    rw [List.cons_append, walk, if_neg hskip, if_neg hup, hrest, if_neg Bool.false_ne_true,
      if_neg hlong, hget]
    dsimp only
    rw [hempty, Bool.false_and, if_neg Bool.false_ne_true]
  case case9 hskip hup hlong target hget links ih =>
    rw [List.cons_append, walk, if_neg hskip, if_neg hup, hrest, if_neg Bool.false_ne_true,
      if_neg hlong, hget]
    dsimp only
    rw [hempty, Bool.false_and, if_neg Bool.false_ne_true, ← List.append_assoc]
    exact ih

theorem route_append (more : List String) :
    route d links loc (names ++ more) =
      match route d links loc names with
      | .ok (links', q) => route d links' q more
      | .error e => .error e := by
  fun_induction route d links loc names
  case case1 => rfl
  case case2 hskip ih => rw [List.cons_append, route, if_pos hskip, ih]
  case case3 rest hskip ih => rw [List.cons_append, route, if_neg hskip, if_pos rfl, ih]
  case case4 hskip hup hlong =>
    rw [List.cons_append, route, if_neg hskip, if_neg hup, if_pos hlong]
  case case5 hskip hup hlong hget =>
    rw [List.cons_append, route, if_neg hskip, if_neg hup, if_neg hlong, hget]
  case case6 hskip hup hlong hget ih =>
    rw [List.cons_append, route, if_neg hskip, if_neg hup, if_neg hlong, hget]
    exact ih
  case case7 hskip hup hlong content hget =>
    rw [List.cons_append, route, if_neg hskip, if_neg hup, if_neg hlong, hget]
  case case8 hskip hup hlong target hget =>
    rw [List.cons_append, route, if_neg hskip, if_neg hup, if_neg hlong, hget]
  case case9 hskip hup hlong target hget links ih =>
    rw [List.cons_append, route, if_neg hskip, if_neg hup, if_neg hlong, hget]
    dsimp only
    rw [← List.append_assoc]
    exact ih

/-- Where a route leads, looking for what the path leads to finds that directory. -/
theorem walk_of_route (h : route d links loc names = .ok (links', q)) :
    walk d .target links loc names = .ok (.entry q .directory) := by
  fun_induction route d links loc names
  case case1 =>
    cases h
    rw [walk]
  case case2 hskip ih => rw [walk, if_pos hskip, ih h]
  case case3 rest hskip ih => rw [walk, if_neg hskip, if_pos rfl, ih h]
  case case6 hskip hup hlong hget ih =>
    rw [walk, if_neg hskip, if_neg hup, if_neg (by simp), if_neg hlong, hget]
    exact ih h
  case case9 hskip hup hlong target hget links ih =>
    rw [walk, if_neg hskip, if_neg hup, if_neg (by simp), if_neg hlong, hget]
    dsimp only
    rw [if_neg (by simp)]
    exact ih h
  all_goals cases h

/-- Where a route leads, there is something, be it a link. -/
theorem walk_itself_of_route (h : route d links loc names = .ok (links', q)) :
    ∃ l e, walk d .itself links loc names = .ok (.entry l e) := by
  fun_induction route d links loc names
  case case1 loc => exact ⟨loc, .directory, by rw [walk]⟩
  case case2 hskip ih =>
    rw [walk, if_pos hskip]
    exact ih h
  case case3 rest hskip ih =>
    rw [walk, if_neg hskip, if_pos rfl]
    exact ih h
  case case6 hskip hup hlong hget ih =>
    rw [walk, if_neg hskip, if_neg hup, if_neg (by simp), if_neg hlong, hget]
    exact ih h
  case case9 hskip hup hlong target hget links ih =>
    rw [walk, if_neg hskip, if_neg hup, if_neg (by simp), if_neg hlong, hget]
    dsimp only
    split
    · exact ⟨_, _, rfl⟩
    · exact ih h
  all_goals cases h

/-- A directory is found only along a route. -/
theorem route_of_walk (h : walk d aim links loc names = .ok (.entry q .directory)) :
    ∃ links', route d links loc names = .ok (links', q) := by
  fun_induction walk d aim links loc names
  case case1 links loc =>
    cases h
    exact ⟨links, by rw [route]⟩
  case case2 hskip ih =>
    rw [route, if_pos hskip]
    exact ih h
  case case3 rest hskip ih =>
    rw [route, if_neg hskip, if_pos rfl]
    exact ih h
  case case8 hskip hup _ hlong hget ih =>
    rw [route, if_neg hskip, if_neg hup, if_neg hlong, hget]
    exact ih h
  case case13 hskip hup _ hlong target hget _ links start ih =>
    rw [route, if_neg hskip, if_neg hup, if_neg hlong, hget]
    exact ih h
  all_goals cases h

/-- Where looking for the entry itself fails, so does the route. -/
theorem route_of_walk_error {e : Errno} (haim : aim ≠ .content)
    (h : walk d aim links loc names = .error e) : route d links loc names = .error e := by
  fun_induction walk d aim links loc names
  case case2 hskip ih => rw [route, if_pos hskip, ih h]
  case case3 rest hskip ih => rw [route, if_neg hskip, if_pos rfl, ih h]
  case case4 hskip hup hcontent =>
    rw [Bool.and_eq_true, decide_eq_true_eq] at hcontent
    exact absurd hcontent.1 haim
  case case5 hskip hup hcontent hlong =>
    cases h
    rw [route, if_neg hskip, if_neg hup, if_pos hlong]
  case case7 hskip hup hcontent hlong hget hlast =>
    cases h
    rw [route, if_neg hskip, if_neg hup, if_neg hlong, hget]
  case case8 hskip hup hcontent hlong hget ih =>
    rw [route, if_neg hskip, if_neg hup, if_neg hlong, hget]
    exact ih h
  case case10 hskip hup hcontent hlong content hget hlast =>
    cases h
    rw [route, if_neg hskip, if_neg hup, if_neg hlong, hget]
  case case12 hskip hup hcontent hlong target hget haim' =>
    cases h
    rw [route, if_neg hskip, if_neg hup, if_neg hlong, hget]
  case case13 hskip hup hcontent hlong target hget haim' links start ih =>
    rw [route, if_neg hskip, if_neg hup, if_neg hlong, hget]
    exact ih h
  all_goals cases h

/-- A route does not lead to where nothing is. -/
theorem route_of_walk_vacant (h : walk d aim links loc names = .ok (.vacant q name)) :
    route d links loc names = .error .noEntry := by
  fun_induction walk d aim links loc names
  case case2 hskip ih => rw [route, if_pos hskip, ih h]
  case case3 rest hskip ih => rw [route, if_neg hskip, if_pos rfl, ih h]
  case case6 hskip hup hcontent hlong hget hlast =>
    rw [route, if_neg hskip, if_neg hup, if_neg hlong, hget]
  case case8 hskip hup hcontent hlong hget ih =>
    rw [route, if_neg hskip, if_neg hup, if_neg hlong, hget]
    exact ih h
  case case13 hskip hup hcontent hlong target hget haim links start ih =>
    rw [route, if_neg hskip, if_neg hup, if_neg hlong, hget]
    exact ih h
  all_goals cases h

/-! ## Routes on well-formed disks -/

theorem start_directory (hloc : d.get? loc = some .directory) (rooted : Bool) :
    d.get? (if rooted then [] else loc) = some .directory := by
  split
  · exact get?_root d
  · exact hloc

/-- A route leads from directory to directory. -/
theorem route_directory (hd : d.WellFormed) (hloc : d.get? loc = some .directory)
    (h : route d links loc names = .ok (links', q)) : d.get? q = some .directory := by
  fun_induction route d links loc names
  case case1 =>
    cases h
    exact hloc
  case case2 ih => exact ih hloc h
  case case3 ih => exact ih (hd.dropLast hloc) h
  case case6 hget ih => exact ih hget h
  case case9 ih => exact ih (start_directory hloc _) h
  all_goals cases h

/-- What is missing is missing in a directory. -/
theorem vacant_directory (hd : d.WellFormed) (hloc : d.get? loc = some .directory)
    (h : walk d aim links loc names = .ok (.vacant q name)) : d.get? q = some .directory := by
  fun_induction walk d aim links loc names
  case case2 ih => exact ih hloc h
  case case3 ih => exact ih (hd.dropLast hloc) h
  case case6 =>
    cases h
    exact hloc
  case case8 hget ih => exact ih hget h
  case case13 ih => exact ih (start_directory hloc _) h
  all_goals cases h

/-! ## More on the disk -/

/-- What has been found is found when more is there. -/
theorem route_mono (hx : Extends d d') (h : route d links loc names = .ok (links', q)) :
    route d' links loc names = .ok (links', q) := by
  fun_induction route d links loc names
  case case1 =>
    cases h
    rw [route]
  case case2 hskip ih => rw [route, if_pos hskip, ih h]
  case case3 rest hskip ih => rw [route, if_neg hskip, if_pos rfl, ih h]
  case case6 hskip hup hlong hget ih =>
    rw [route, if_neg hskip, if_neg hup, if_neg hlong, hx _ _ hget]
    exact ih h
  case case9 hskip hup hlong target hget links ih =>
    rw [route, if_neg hskip, if_neg hup, if_neg hlong, hx _ _ hget]
    exact ih h
  all_goals cases h

/-- What has been put where nothing was is found there, unless it is a link. -/
theorem walk_filled {e : Entry} (hx : Extends d d') (he : d'.get? (q ++ [name]) = some e)
    (hlink : ∀ t, e ≠ .link t) (h : walk d aim links loc names = .ok (.vacant q name)) :
    walk d' aim links loc names = .ok (.entry (q ++ [name]) e) := by
  fun_induction walk d aim links loc names
  case case2 hskip ih => rw [walk, if_pos hskip, ih h]
  case case3 rest hskip ih => rw [walk, if_neg hskip, if_pos rfl, ih h]
  case case6 hskip hup hcontent hlong hget hlast =>
    cases h
    rw [walk, if_neg hskip, if_neg hup, if_neg hcontent, if_neg hlong, he]
    cases e with
    | directory => rw [List.isEmpty_iff.mp hlast, walk]
    | file content => rw [List.isEmpty_iff.mp hlast]; rfl
    | link t => exact absurd rfl (hlink t)
  case case8 hskip hup hcontent hlong hget ih =>
    rw [walk, if_neg hskip, if_neg hup, if_neg hcontent, if_neg hlong, hx _ _ hget]
    exact ih h
  case case13 hskip hup hcontent hlong target hget haim links start ih =>
    rw [walk, if_neg hskip, if_neg hup, if_neg hcontent, if_neg hlong, hx _ _ hget]
    dsimp only
    rw [if_neg haim]
    exact ih h
  all_goals cases h

/-- All that a path can lead through on the first disk is on the second: the directories and the
links. -/
def KeepsWays (d d' : Disk) : Prop :=
  ∀ l e, d.get? l = some e → (∀ content, e ≠ .file content) → d'.get? l = some e

theorem Extends.keepsWays (hx : Extends d d') : KeepsWays d d' :=
  fun l e he _ => hx l e he

/-- No way leads through a file or through what is not there. -/
theorem keepsWays_insert (hold : ∀ e, d.get? q = some e → ∃ content, e = .file content)
    (e : Entry) : KeepsWays d (d.insert q e) := by
  intro l e' he hne
  by_cases hl : l = []
  · rw [hl, get?_root] at he ⊢
    exact he
  · rw [get?_insert hl, if_neg, he]
    rintro rfl
    obtain ⟨content, hfile⟩ := hold e' he
    exact hne content hfile

/-- What has been found is found as long as the way to it stays. A file may have another content
then. -/
theorem walk_kept {e e' : Entry} (hx : KeepsWays d d')
    (he : e' = e ∧ (∀ content, e ≠ .file content) ∨
      ∃ content content', e = .file content ∧ e' = .file content' ∧ d'.get? q = some e')
    (h : walk d aim links loc names = .ok (.entry q e)) :
    walk d' aim links loc names = .ok (.entry q e') := by
  fun_induction walk d aim links loc names
  case case1 =>
    cases h
    rcases he with ⟨rfl, -⟩ | ⟨content, content', hfile, -⟩
    · rw [walk]
    · cases hfile
  case case2 hskip ih => rw [walk, if_pos hskip, ih h]
  case case3 rest hskip ih => rw [walk, if_neg hskip, if_pos rfl, ih h]
  case case8 hskip hup hcontent hlong hget ih =>
    rw [walk, if_neg hskip, if_neg hup, if_neg hcontent, if_neg hlong,
      hx _ _ hget fun _ => Entry.noConfusion]
    exact ih h
  case case9 hskip hup hcontent hlong content hget hlast =>
    cases h
    rcases he with ⟨-, hne⟩ | ⟨_, content', -, rfl, hget'⟩
    · exact absurd rfl (hne content)
    · rw [walk, if_neg hskip, if_neg hup, if_neg hcontent, if_neg hlong, hget']
      dsimp only
      rw [if_pos hlast]
  case case11 hskip hup hcontent hlong target hget hitself =>
    cases h
    rcases he with ⟨rfl, -⟩ | ⟨content, content', hfile, -⟩
    · rw [walk, if_neg hskip, if_neg hup, if_neg hcontent, if_neg hlong,
        hx _ _ hget fun _ => Entry.noConfusion]
      dsimp only
      rw [if_pos hitself]
    · cases hfile
  case case13 hskip hup hcontent hlong target hget hitself links start ih =>
    rw [walk, if_neg hskip, if_neg hup, if_neg hcontent, if_neg hlong,
      hx _ _ hget fun _ => Entry.noConfusion]
    dsimp only
    rw [if_neg hitself]
    exact ih h
  all_goals cases h

end Assay.Disk

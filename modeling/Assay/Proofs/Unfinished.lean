import Assay.Proofs.Json

/-!
# A record behind something unfinished

`not_parse_append`: if the text of an object is put behind other text on the same line, nothing is
read of the two together. Whatever had begun before is not completed inside the object, since an
object is a balanced text: a value that is begun before it either ends before it, and then the
object is one value too many, or contains it as a whole, and then is not closed.

The exception are strings. A string that was left open is closed by the first quote of the object,
so that the object's first name is torn out of it. What comes next is a letter of this name, and
no reader goes on with a letter after a string. That is what `Remains` describes: behind any value
the whole object is left, or this torn part of it.

Within the text of the object itself readers may have fewer steps and levels left than at its
beginning; `readValue_unique` says that these make no difference to what is returned.
-/

namespace Assay.Json

/-! ## Steps and levels -/

section Monotone

variable {α β : Type} {fuel fuel' depth depth' : Nat}

/-- What the first reader returns, the second returns too. -/
def Covered (r r' : Except Halt α) : Prop :=
  ∀ a, r = .ok a → r' = .ok a

theorem Covered.map {r r' : Except Halt α} (h : Covered r r') (f : α → β) :
    Covered (r.map f) (r'.map f) := by
  intro b hb
  cases hr : r with
  | error e =>
    rw [hr] at hb
    cases hb
  | ok a =>
    rw [hr] at hb
    rw [h a hr]
    exact hb

/-- The readers return with the first bounds what they return with the second. -/
structure Wider (fuel fuel' : Nat) : Prop where
  value : ∀ {depth depth' : Nat} (cs : List Char), depth ≤ depth' →
    Covered (readValue fuel depth cs) (readValue fuel' depth' cs)
  items : ∀ {depth depth' : Nat} (cs : List Char), depth ≤ depth' →
    Covered (readItems fuel depth cs) (readItems fuel' depth' cs)
  members : ∀ {depth depth' : Nat} (done : List (Literal × Json)) (cs : List Char),
    depth ≤ depth' → Covered (readMembers fuel depth done cs) (readMembers fuel' depth' done cs)

namespace Wider

variable (hw : Wider fuel fuel') (hd : depth ≤ depth')

include hw hd

theorem readValue_succ (cs : List Char) :
    Covered (readValue (fuel + 1) depth cs) (readValue (fuel' + 1) depth' cs) := by
  intro a h
  unfold readValue at h ⊢
  split at h
  case h_1 => exact h
  case h_2 rest =>
    cases depth with
    | zero => cases h
    | succ depth =>
      obtain ⟨depth', rfl⟩ : ∃ n, depth' = n + 1 := ⟨depth' - 1, by omega⟩
      dsimp only at h ⊢
      split at h
      case h_1 => exact h
      case h_2 => exact (hw.items _ (Nat.le_of_succ_le_succ hd)).map _ a h
  case h_3 rest =>
    cases depth with
    | zero => cases h
    | succ depth =>
      obtain ⟨depth', rfl⟩ : ∃ n, depth' = n + 1 := ⟨depth' - 1, by omega⟩
      dsimp only at h ⊢
      split at h
      case h_1 => exact h
      case h_2 => exact (hw.members _ _ (Nat.le_of_succ_le_succ hd)).map _ a h
  case h_4 => exact h

theorem readItems_succ (cs : List Char) :
    Covered (readItems (fuel + 1) depth cs) (readItems (fuel' + 1) depth' cs) := by
  intro a h
  unfold readItems at h ⊢
  split at h
  case h_1 => cases h
  case h_2 item rest hitem =>
    rw [hw.value cs hd _ hitem]
    dsimp only
    split at h
    case h_1 => exact h
    case h_2 => exact (hw.items _ hd).map _ a h
    case h_3 => cases h

theorem readMembers_succ (done : List (Literal × Json)) (cs : List Char) :
    Covered (readMembers (fuel + 1) depth done cs) (readMembers (fuel' + 1) depth' done cs) := by
  intro a h
  unfold readMembers at h ⊢
  split at h
  case h_2 => cases h
  case h_1 rest =>
    dsimp only
    split at h
    case h_1 => cases h
    case h_2 name after hname =>
      split at h
      case h_2 => cases h
      case h_1 behind hcolon =>
        split at h
        case h_1 => cases h
        case h_2 value left hvalue =>
          rw [hw.value _ hd _ hvalue]
          dsimp only
          split at h
          case h_1 => exact h
          case h_2 => exact hw.members _ _ hd a h
          case h_3 => cases h

end Wider

/-- More steps and more levels do not change what is read. -/
theorem wider_of_le (h : fuel ≤ fuel') : Wider fuel fuel' := by
  induction fuel generalizing fuel' with
  | zero =>
    refine ⟨fun cs _ a h => ?_, fun cs _ a h => ?_, fun done cs _ a h => ?_⟩
    · rw [readValue] at h
      cases h
    · rw [readItems] at h
      cases h
    · rw [readMembers] at h
      cases h
  | succ fuel ih =>
    obtain ⟨fuel', rfl⟩ : ∃ n, fuel' = n + 1 := ⟨fuel' - 1, by omega⟩
    have hw := ih (Nat.le_of_succ_le_succ h)
    exact ⟨fun cs hd => hw.readValue_succ hd cs, fun cs hd => hw.readItems_succ hd cs,
      fun done cs hd => hw.readMembers_succ hd done cs⟩

/-- **What is read does not depend on the bounds**, once something is. -/
theorem readValue_unique {cs : List Char} {a b : Json × List Char}
    (ha : readValue fuel depth cs = .ok a) (hb : readValue fuel' depth' cs = .ok b) : a = b := by
  have ha' := (wider_of_le (Nat.le_max_left fuel fuel')).value cs
    (Nat.le_max_left depth depth') a ha
  have hb' := (wider_of_le (Nat.le_max_right fuel fuel')).value cs
    (Nat.le_max_right depth depth') b hb
  exact Except.ok.inj (ha'.symm.trans hb')

end Monotone

/-! ## What is left of an object that something precedes -/

/-- The text of an object whose first name begins with a letter, from this letter on `tail`. -/
def opening (tail : List Char) : List Char :=
  '\x7b' :: '"' :: 'b' :: tail

section Remains

variable {tail cs rest : List Char}

/-- The whole object is still to be read, or it is torn: its first quote has closed a string. -/
inductive Remains (tail : List Char) : List Char → Prop where
  | whole {rest : List Char} (h : opening tail <:+ rest) : Remains tail rest
  | torn : Remains tail ('b' :: tail)

/-- Another character than the brace is in front of the object. -/
theorem suffix_of_cons {c : Char} (hs : opening tail <:+ c :: cs) (hc : c ≠ '\x7b') :
    opening tail <:+ cs := by
  rcases List.suffix_cons_iff.mp hs with heq | hs
  · exact absurd (List.cons.inj heq).1.symm hc
  · exact hs

theorem suffix_of_append (word : List Char) (hs : opening tail <:+ word ++ rest)
    (hw : '\x7b' ∉ word) : opening tail <:+ rest := by
  induction word with
  | nil => exact hs
  | cons c word ih =>
    rw [List.mem_cons, not_or] at hw
    exact ih (suffix_of_cons hs (Ne.symm hw.1)) hw.2

theorem suffix_dropWhile {p : Char → Bool} (hp : p '\x7b' = false) (hs : opening tail <:+ cs) :
    opening tail <:+ cs.dropWhile p := by
  rw [← List.takeWhile_append_dropWhile (p := p) (l := cs)] at hs
  refine suffix_of_append _ hs fun hmem => ?_
  rw [List.mem_takeWhile_imp hmem] at hp
  cases hp

/-- What is left begins with a mark that may come after a value: then the object is not torn. -/
theorem Remains.after_mark {mark : Char} (hr : Remains tail rest)
    (hmark : skipSpace rest = mark :: cs) (hbrace : mark ≠ '\x7b') (hletter : mark ≠ 'b') :
    opening tail <:+ cs := by
  cases hr with
  | whole hs =>
    have hskip : opening tail <:+ skipSpace rest := suffix_dropWhile (by decide) hs
    rw [hmark] at hskip
    exact suffix_of_cons hskip hbrace
  | torn =>
    rw [skipSpace_cons (by decide)] at hmark
    exact absurd (List.cons.inj hmark).1.symm hletter

/-! ### Scalars -/

theorem hexUnit?_brace {a b c d : Char} {n : Nat} (h : hexUnit? a b c d = some n) :
    '\x7b' ∉ [a, b, c, d] := by
  have hnone : hexValue? '\x7b' = none := by decide
  unfold hexUnit? at h
  simp only [List.mem_cons, List.not_mem_nil, or_false, not_or]
  refine ⟨?_, ?_, ?_, ?_⟩
  all_goals
    rintro rfl
    simp [hnone] at h

theorem suffix_readUnicode {g : Glyph} (hs : opening tail <:+ cs)
    (h : readUnicode cs = .ok (g, rest)) : opening tail <:+ rest := by
  unfold readUnicode at h
  split at h
  case h_2 => cases h
  case h_1 a b c d e more =>
    split at h
    case h_1 => cases h
    case h_2 unit hunit =>
      have hafter : opening tail <:+ e :: more :=
        suffix_of_append [a, b, c, d] hs (hexUnit?_brace hunit)
      split at h
      case isFalse =>
        cases h
        exact hafter
      case isTrue =>
        split at h
        case h_2 =>
          cases h
          exact hafter
        case h_1 a' b' c' d' f more' =>
          split at h
          case h_1 => cases h
          case h_2 low hlow =>
            split at h
            case isFalse =>
              cases h
              exact hafter
            case isTrue =>
              cases h
              have hunits : opening tail <:+ [a', b', c', d'] ++ f :: more' :=
                suffix_of_cons (suffix_of_cons hafter (by decide)) (by decide)
              exact suffix_of_append _ hunits (hexUnit?_brace hlow)

/-- What is made of a value keeps what comes after it. -/
theorem of_map_ok {α β : Type} {r : Except Halt (α × List Char)}
    {f : α × List Char → β × List Char} {b : β} (h : r.map f = .ok (b, rest))
    (hf : ∀ a, (f a).2 = a.2) : ∃ a, r = .ok (a, rest) := by
  cases r with
  | error e => cases h
  | ok a =>
    have hrest : rest = a.2 := (congrArg Prod.snd (Except.ok.inj h)).symm.trans (hf a)
    rw [hrest]
    exact ⟨a.1, rfl⟩

/-- A string ends before the object, or with its first quote. -/
theorem remains_readString {start : Nat} {s : List Glyph} (hs : opening tail <:+ cs)
    (h : readString start cs = .ok (s, rest)) : Remains tail rest := by
  fun_induction readString start cs generalizing s
  case case2 =>
    cases h
    exact .whole (suffix_of_cons hs (by decide))
  case case5 more g left hunicode hlt ih =>
    obtain ⟨s', h⟩ := of_map_ok h fun _ => rfl
    have hmore : opening tail <:+ more :=
      suffix_of_cons (suffix_of_cons hs (by decide)) (by decide)
    exact ih (suffix_readUnicode hmore hunicode) h
  case case7 c left hu d hd ih =>
    obtain ⟨s', h⟩ := of_map_ok h fun _ => rfl
    have hc : c ≠ '\x7b' := by
      rintro rfl
      cases hd
    exact ih (suffix_of_cons (suffix_of_cons hs (by decide)) hc) h
  case case9 c left hquote _ _ _ hprint ih =>
    obtain ⟨s', h⟩ := of_map_ok h fun _ => rfl
    rcases List.suffix_cons_iff.mp hs with heq | hs
    · -- The brace belongs to the string, and the quote after it is the end.
      obtain ⟨-, hleft⟩ := List.cons.inj heq
      rw [← hleft, readString_quote] at h
      cases h
      exact .torn
    · exact ih hs h
  all_goals cases h

theorem suffix_readWord {v : Json} (hs : opening tail <:+ cs)
    (h : readWord? cs = some (v, rest)) : opening tail <:+ rest := by
  unfold readWord? at h
  split at h
  case h_1 => cases h; exact suffix_of_append "null".toList hs (by decide)
  case h_2 => cases h; exact suffix_of_append "true".toList hs (by decide)
  case h_3 => cases h; exact suffix_of_append "false".toList hs (by decide)
  case h_4 => cases h; exact suffix_of_append "NaN".toList hs (by decide)
  case h_5 => cases h; exact suffix_of_append "Infinity".toList hs (by decide)
  case h_6 => cases h; exact suffix_of_append "-Infinity".toList hs (by decide)
  case h_7 => cases h

theorem suffix_takeWhole (hs : opening tail <:+ cs) : opening tail <:+ (takeWhole cs).2 := by
  unfold takeWhole
  split
  case h_1 => exact hs
  case h_2 c more =>
    split
    case isTrue hzero => exact suffix_of_cons hs (by rw [hzero]; decide)
    case isFalse => exact suffix_dropWhile (by decide) hs

theorem suffix_takeFraction (hs : opening tail <:+ cs) :
    opening tail <:+ (takeFraction cs).2 := by
  unfold takeFraction
  split
  case h_2 => exact hs
  case h_1 d more =>
    split
    case isFalse => exact hs
    case isTrue hd =>
      have hbrace : d ≠ '\x7b' := by
        rintro rfl
        cases hd
      exact suffix_dropWhile (by decide) (suffix_of_cons (suffix_of_cons hs (by decide)) hbrace)

theorem suffix_takeExponent (hs : opening tail <:+ cs) :
    opening tail <:+ (takeExponent cs).2 := by
  unfold takeExponent
  split
  case h_2 => exact hs
  case h_1 mark more =>
    split
    case isFalse => exact hs
    case isTrue hmark =>
      have hmore : opening tail <:+ more := by
        refine suffix_of_cons hs ?_
        rintro rfl
        cases hmark
      -- Whatever the sign, the digits go up to the object at most.
      have hsign : ∀ sign digits : List Char, opening tail <:+ digits →
          opening tail <:+ (if (digits.takeWhile Char.isDigit).isEmpty then ([], mark :: more)
            else (mark :: sign ++ digits.takeWhile Char.isDigit,
              digits.dropWhile Char.isDigit)).2 := by
        intro sign digits hdigits
        split
        case isTrue => exact hs
        case isFalse => exact suffix_dropWhile (by decide) hdigits
      dsimp only
      split
      case h_1 digits => exact hsign ['-'] digits (suffix_of_cons hmore (by decide))
      case h_2 digits => exact hsign ['+'] digits (suffix_of_cons hmore (by decide))
      case h_3 => exact hsign [] more hmore

theorem suffix_readNumber {v : Json} (hs : opening tail <:+ cs)
    (h : readNumber cs = .ok (v, rest)) : opening tail <:+ rest := by
  unfold readNumber at h
  dsimp only at h
  split_ifs at h with hempty hinteger hmany
  rotate_left
  split at h
  all_goals cases h
  -- The sign aside, a number ends after its whole digits, its fraction and its exponent.
  all_goals
    refine suffix_takeExponent (suffix_takeFraction (suffix_takeWhole ?_))
    split
    case h_1 => exact suffix_of_cons hs (by decide)
    case h_2 => exact hs

/-! ### Values -/

/-- The object is read as a whole or not at all. -/
def Closed (tail : List Char) : Prop :=
  ∀ fuel depth v rest, readValue fuel depth (opening tail) = .ok (v, rest) → rest = []

/-- What the readers leave of a text in which the object comes last. -/
structure Leaves (tail : List Char) (fuel : Nat) : Prop where
  value : ∀ {depth : Nat} {cs rest : List Char} {v : Json}, opening tail <:+ cs →
    cs ≠ opening tail → readValue fuel depth cs = .ok (v, rest) → Remains tail rest
  items : ∀ {depth : Nat} {cs rest : List Char} {vs : List Json}, opening tail <:+ cs →
    readItems fuel depth cs = .ok (vs, rest) → opening tail <:+ rest
  members : ∀ {depth : Nat} {done ms : List (Literal × Json)} {cs rest : List Char},
    opening tail <:+ cs → readMembers fuel depth done cs = .ok (ms, rest) → opening tail <:+ rest

theorem suffix_skipSpace (hs : opening tail <:+ cs) : opening tail <:+ skipSpace cs :=
  suffix_dropWhile (by decide) hs

namespace Leaves

variable {fuel depth : Nat} (hl : Leaves tail fuel)

include hl

theorem readValue_succ {v : Json} (hs : opening tail <:+ cs) (hne : cs ≠ opening tail)
    (h : readValue (fuel + 1) depth cs = .ok (v, rest)) : Remains tail rest := by
  unfold readValue at h
  split at h
  case h_1 more =>
    obtain ⟨s, h⟩ := of_map_ok h fun _ => rfl
    exact remains_readString (suffix_of_cons hs (by decide)) h
  case h_2 more =>
    have hmore := suffix_skipSpace (suffix_of_cons hs (by decide))
    cases depth with
    | zero => cases h
    | succ depth =>
      dsimp only at h
      split at h
      case h_1 after hafter =>
        cases h
        rw [hafter] at hmore
        exact .whole (suffix_of_cons hmore (by decide))
      case h_2 =>
        obtain ⟨vs, h⟩ := of_map_ok h fun _ => rfl
        exact .whole (hl.items hmore h)
  case h_3 more =>
    have hmore : opening tail <:+ skipSpace more := by
      rcases List.suffix_cons_iff.mp hs with heq | hs
      · exact absurd heq.symm hne
      · exact suffix_skipSpace hs
    cases depth with
    | zero => cases h
    | succ depth =>
      dsimp only at h
      split at h
      case h_1 after hafter =>
        cases h
        rw [hafter] at hmore
        exact .whole (suffix_of_cons hmore (by decide))
      case h_2 =>
        obtain ⟨ms, h⟩ := of_map_ok h fun _ => rfl
        exact .whole (hl.members hmore h)
  case h_4 =>
    split at h
    case h_1 found hword =>
      cases h
      exact .whole (suffix_readWord hs hword)
    case h_2 => exact .whole (suffix_readNumber hs h)

/-- A value among others: what comes after it is marked, and no mark is part of the object. -/
theorem after_value (hclosed : Closed tail) {v : Json} {mark : Char} {after : List Char}
    (hs : opening tail <:+ cs) (h : readValue fuel depth cs = .ok (v, rest))
    (hmark : skipSpace rest = mark :: after) (hbrace : mark ≠ '\x7b') (hletter : mark ≠ 'b') :
    opening tail <:+ after := by
  by_cases hwhole : cs = opening tail
  · -- The object itself has been read, and nothing comes after it.
    rw [hwhole] at h
    rw [hclosed _ _ _ _ h] at hmark
    cases hmark
  · exact (hl.value hs hwhole h).after_mark hmark hbrace hletter

theorem readItems_succ (hclosed : Closed tail) {vs : List Json} (hs : opening tail <:+ cs)
    (h : readItems (fuel + 1) depth cs = .ok (vs, rest)) : opening tail <:+ rest := by
  unfold readItems at h
  split at h
  case h_1 => cases h
  case h_2 item left hitem =>
    split at h
    case h_1 after hafter =>
      cases h
      exact hl.after_value hclosed hs hitem hafter (by decide) (by decide)
    case h_2 after hafter =>
      obtain ⟨vs, h⟩ := of_map_ok h fun _ => rfl
      have hmore := hl.after_value hclosed hs hitem hafter (by decide) (by decide)
      exact hl.items (suffix_skipSpace hmore) h
    case h_3 => cases h

theorem readMembers_succ (hclosed : Closed tail) {done ms : List (Literal × Json)}
    (hs : opening tail <:+ cs) (h : readMembers (fuel + 1) depth done cs = .ok (ms, rest)) :
    opening tail <:+ rest := by
  unfold readMembers at h
  split at h
  case h_2 => cases h
  case h_1 more =>
    split at h
    case h_1 => cases h
    case h_2 name after hname =>
      have hafter := remains_readString (suffix_of_cons hs (by decide)) hname
      split at h
      case h_2 => cases h
      case h_1 behind hcolon =>
        have hbehind := suffix_skipSpace (hafter.after_mark hcolon (by decide) (by decide))
        split at h
        case h_1 => cases h
        case h_2 value left hvalue =>
          dsimp only at h
          split at h
          case h_1 last hlast =>
            cases h
            exact hl.after_value hclosed hbehind hvalue hlast (by decide) (by decide)
          case h_2 next hnext =>
            have hmore := hl.after_value hclosed hbehind hvalue hnext (by decide) (by decide)
            exact hl.members (suffix_skipSpace hmore) h
          case h_3 => cases h

end Leaves

theorem leaves (hclosed : Closed tail) (fuel : Nat) : Leaves tail fuel := by
  induction fuel with
  | zero =>
    refine ⟨fun _ _ h => ?_, fun _ h => ?_, fun _ h => ?_⟩
    · rw [readValue] at h
      cases h
    · rw [readItems] at h
      cases h
    · rw [readMembers] at h
      cases h
  | succ fuel ih =>
    exact ⟨ih.readValue_succ, ih.readItems_succ hclosed, ih.readMembers_succ hclosed⟩

/-- Nothing whole is read of a text that goes on with the object. -/
theorem not_readWhole (hclosed : Closed tail) (hs : opening tail <:+ cs)
    (hne : skipSpace cs ≠ opening tail) (allowed : Nat) (v : Json) : readWhole allowed cs ≠ .ok v := by
  intro h
  unfold readWhole at h
  split at h
  case isTrue => cases h
  case isFalse =>
    split at h
    case h_1 => cases h
    case h_2 value left hvalue =>
      have hleft := (leaves hclosed _).value (suffix_skipSpace hs) hne hvalue
      split at h
      case h_2 => cases h
      case h_1 hnil =>
        cases hleft with
        | whole hs =>
          have hrest := suffix_skipSpace hs
          rw [hnil, List.suffix_nil] at hrest
          cases hrest
        | torn =>
          rw [skipSpace_cons (by decide)] at hnil
          cases hnil

end Remains

/-- **Nothing is read of an object that something precedes**, be it complete or not. The name of its
first member begins with the letter of `opening`. -/
theorem not_parse_append {depth : Nat} {v : Json} {tail cs : List Char} (hplain : Plain depth v)
    (hopen : v.print = opening tail) (hcs : skipSpace cs ≠ []) (allowed : Nat) (u : Json) :
    parse (String.ofList (cs ++ v.print)) allowed ≠ .ok u := by
  have hclosed : Closed tail := by
    intro fuel depth found rest h
    have hread := readsBack_of_plain hplain _ [] (Nat.lt_succ_self _) endsNumber_nil
    rw [List.append_nil, hopen] at hread
    exact congrArg Prod.snd (readValue_unique h hread)
  have hne : skipSpace (cs ++ opening tail) ≠ opening tail := by
    intro h
    unfold skipSpace at h hcs
    rw [List.dropWhile_append, List.isEmpty_eq_false_iff.mpr hcs] at h
    exact hcs (List.append_left_eq_self.mp h)
  intro h
  unfold parse at h
  rw [String.toList_ofList, hopen] at h
  split at h
  case h_1 found hfound =>
    exact not_readWhole hclosed (List.suffix_append cs _) hne allowed found hfound
  case h_2 => cases h

end Assay.Json

import Assay.Json.Printer
import Assay.Json.Reader
import Mathlib.Data.List.TakeWhile

/-!
# Written JSON is read back

`parse_render`: a value that `print` has written is what `parse` makes of it, if its texts are
texts, its integers have no more digits than may be read, its objects have no two members of one
name, and it is not nested too deeply. All that is `Plain`, which says it level by level.

The readers go through the written text from the left, so each lemma is about one piece of it with
something behind: `readString_escapeChar` for a character, `readNumber_integerText` for an integer,
`readItems_printItems` and `readMembers_printMembers` for what is between brackets. Only a number
depends on what comes after it, which is what `EndsNumber` is for.
-/

namespace Assay

/-- The integer has no more digits than may be read. -/
def Number.IsTellable (n : Int) : Prop :=
  n.natAbs < Nat.pow 10 maxDigits

theorem Number.isTellable_of_small {n : Int} (hn : n.natAbs < 10) : IsTellable n := by
  have hk : 0 < maxDigits := by decide
  unfold IsTellable
  generalize maxDigits = k at hk ⊢
  exact Nat.lt_of_lt_of_le hn (Nat.le_self_pow (Nat.ne_of_gt hk) 10)

theorem Number.IsTellable.length_le {n : Int} (hn : IsTellable n) :
    (Nat.toDigits 10 n.natAbs).length ≤ maxDigits := by
  have hk : 0 < maxDigits := by decide
  unfold IsTellable at hn
  generalize maxDigits = k at hk hn ⊢
  exact (Nat.length_toDigits_le_iff (by decide) hk).mpr hn

namespace Json

/-! ## Blanks -/

theorem skipSpace_cons {c : Char} (hc : isSpace c = false) (cs : List Char) :
    skipSpace (c :: cs) = c :: cs := by
  unfold skipSpace
  rw [List.dropWhile_cons_of_neg (by rw [hc]; exact Bool.false_ne_true)]

theorem skipSpace_blank (cs : List Char) : skipSpace (' ' :: cs) = skipSpace cs := by
  unfold skipSpace
  rw [List.dropWhile_cons_of_pos (by decide)]

/-! ## Code units in hexadecimal -/

theorem hexValue?_digitChar : ∀ d < 16, hexValue? (Nat.digitChar d) = some d := by
  decide

/-- The last digit of a number, and the digits before it. -/
theorem hexDigits_succ (w n : Nat) :
    Text.hexDigits (w + 2) n = Text.hexDigits (w + 1) (n / 16) ++ [Nat.digitChar (n % 16)] := by
  unfold Text.hexDigits
  rw [Nat.toDigits_eq_if (by decide)]
  by_cases hn : n < 16
  · have hdiv : n / 16 = 0 := Nat.div_eq_of_lt hn
    rw [if_pos hn, hdiv, Nat.mod_eq_of_lt hn, Nat.toDigits_zero, ← List.replicate_succ']
    rfl
  · have hlen : ∀ l, w + 2 - (l + 1) = w + 1 - l := fun l => by omega
    rw [if_neg hn]
    dsimp only
    rw [List.length_append, List.length_singleton, ← List.append_assoc, hlen]

/-- Four digits of a code unit, the highest first. -/
theorem hexDigits_four {n : Nat} (hn : n < 0x10000) :
    Text.hexDigits 4 n = [Nat.digitChar (n / 4096), Nat.digitChar (n / 256 % 16),
      Nat.digitChar (n / 16 % 16), Nat.digitChar (n % 16)] := by
  have hfirst : Text.hexDigits 1 (n / 4096) = [Nat.digitChar (n / 4096)] := by
    unfold Text.hexDigits
    rw [Nat.toDigits_of_lt_base (by omega)]
    rfl
  have h256 : n / 16 / 16 = n / 256 := Nat.div_div_eq_div_mul n 16 16
  have h4096 : n / 256 / 16 = n / 4096 := Nat.div_div_eq_div_mul n 256 16
  rw [hexDigits_succ, hexDigits_succ, hexDigits_succ, h256, h4096, hfirst]
  rfl

theorem hexUnit?_digits {n : Nat} (hn : n < 0x10000) :
    hexUnit? (Nat.digitChar (n / 4096)) (Nat.digitChar (n / 256 % 16))
      (Nat.digitChar (n / 16 % 16)) (Nat.digitChar (n % 16)) = some n := by
  unfold hexUnit?
  rw [hexValue?_digitChar _ (by omega), hexValue?_digitChar _ (by omega),
    hexValue?_digitChar _ (by omega), hexValue?_digitChar _ (by omega)]
  have hvalue : ((n / 4096 * 16 + n / 256 % 16) * 16 + n / 16 % 16) * 16 + n % 16 = n := by omega
  exact congrArg some hvalue

/-- A unit that is no half of a pair. -/
theorem readUnicode_unit {n : Nat} (hn : n < 0x10000) (hs : isHighSurrogate n = false) (c : Char)
    (cs : List Char) :
    readUnicode (Text.hexDigits 4 n ++ c :: cs) = .ok (unitGlyph n, c :: cs) := by
  rw [hexDigits_four hn]
  simp only [List.cons_append, List.nil_append, readUnicode, hexUnit?_digits hn, hs,
    Bool.false_eq_true, if_false]

/-- Two units that are the halves of a pair. -/
theorem readUnicode_pair {high low : Nat} (hh : isHighSurrogate high = true)
    (hl : isLowSurrogate low = true) (c : Char) (cs : List Char) :
    readUnicode (Text.hexDigits 4 high ++ (unitEscape low ++ c :: cs)) =
      .ok (.char (pairChar high low), c :: cs) := by
  have hhigh : high < 0x10000 := by
    simp only [isHighSurrogate, Bool.and_eq_true, decide_eq_true_eq] at hh
    omega
  have hlow : low < 0x10000 := by
    simp only [isLowSurrogate, Bool.and_eq_true, decide_eq_true_eq] at hl
    omega
  unfold unitEscape
  rw [hexDigits_four hhigh, hexDigits_four hlow]
  simp only [List.cons_append, List.nil_append, readUnicode, hexUnit?_digits hhigh,
    hexUnit?_digits hlow, hh, hl, if_true]

/-! ## Strings -/

section Strings

variable {start : Nat} {c d : Char} {cs rest : List Char}

theorem readString_quote : readString start ('"' :: rest) = .ok ([], rest) := by
  rw [readString]

theorem readString_simple (h : simpleEscape? c = some d) :
    readString start ('\\' :: c :: rest) = consGlyph (.char d) (readString start rest) := by
  have hu : c ≠ 'u' := by
    rintro rfl
    have hnone : simpleEscape? 'u' = none := by decide
    rw [hnone] at h
    cases h
  rw [readString, h]
  exact hu

theorem readString_unicode {g : Glyph} (h : readUnicode cs = .ok (g, rest)) :
    readString start ('\\' :: 'u' :: cs) = consGlyph g (readString start rest) := by
  rw [readString]
  split
  case h_1 e he =>
    rw [h] at he
    cases he
  case h_2 g' rest' he =>
    rw [h] at he
    cases he
    rfl

theorem readString_plain (hq : c ≠ '"') (hb : c ≠ '\\') (hc : 32 ≤ c.toNat) :
    readString start (c :: rest) = consGlyph (.char c) (readString start rest) := by
  rw [readString, if_neg (Nat.not_lt.mpr hc)]
  · exact hq
  · exact fun h _ => hb h
  · exact fun _ h _ => hb h
  · exact fun _ _ h _ => hb h

/-- No character is half of a pair. -/
theorem isHighSurrogate_toNat (c : Char) : isHighSurrogate c.toNat = false := by
  have hvalid : c.toNat < 0xD800 ∨ 0xDFFF < c.toNat ∧ c.toNat < 0x110000 := c.valid
  simp only [isHighSurrogate, Bool.and_eq_false_iff, decide_eq_false_iff_not]
  omega

theorem isLowSurrogate_toNat (c : Char) : isLowSurrogate c.toNat = false := by
  have hvalid : c.toNat < 0xD800 ∨ 0xDFFF < c.toNat ∧ c.toNat < 0x110000 := c.valid
  simp only [isLowSurrogate, Bool.and_eq_false_iff, decide_eq_false_iff_not]
  omega

theorem unitGlyph_toNat (c : Char) : unitGlyph c.toNat = .char c := by
  unfold unitGlyph
  rw [isHighSurrogate_toNat, isLowSurrogate_toNat, Bool.or_false, if_neg Bool.false_ne_true,
    Char.ofNat_toNat]

theorem readString_units {high low : Nat} (hh : isHighSurrogate high = true)
    (hl : isLowSurrogate low = true) :
    readString start (unitEscape high ++ unitEscape low ++ d :: cs) =
      consGlyph (.char (pairChar high low)) (readString start (d :: cs)) := by
  rw [List.append_assoc]
  exact readString_unicode (readUnicode_pair hh hl d cs)

/-- A character beyond the first plane is written as a pair. -/
theorem readString_pair (hc : 0x10000 ≤ c.toNat) :
    readString start (unitEscape (0xD800 + (c.toNat - 0x10000) / 0x400) ++
        unitEscape (0xDC00 + (c.toNat - 0x10000) % 0x400) ++ d :: cs) =
      consGlyph (.char c) (readString start (d :: cs)) := by
  have hvalid : c.toNat < 0xD800 ∨ 0xDFFF < c.toNat ∧ c.toNat < 0x110000 := c.valid
  have hhigh : isHighSurrogate (0xD800 + (c.toNat - 0x10000) / 0x400) = true := by
    simp only [isHighSurrogate, Bool.and_eq_true, decide_eq_true_eq]
    omega
  have hlow : isLowSurrogate (0xDC00 + (c.toNat - 0x10000) % 0x400) = true := by
    simp only [isLowSurrogate, Bool.and_eq_true, decide_eq_true_eq]
    omega
  have hvalue : 0x10000 + (0xD800 + (c.toNat - 0x10000) / 0x400 - 0xD800) * 0x400 +
      (0xDC00 + (c.toNat - 0x10000) % 0x400 - 0xDC00) = c.toNat := by omega
  rw [readString_units hhigh hlow, pairChar, hvalue, Char.ofNat_toNat]

/-- **A written character is read back**, whatever follows it, as long as something does. -/
theorem readString_escapeChar (start : Nat) (c d : Char) (cs : List Char) :
    readString start (escapeChar c ++ d :: cs) =
      consGlyph (.char c) (readString start (d :: cs)) := by
  unfold escapeChar
  split_ifs with hquote hback hn hr ht h8 h12 hplain hwide
  · rw [hquote]
    exact readString_simple rfl
  · rw [hback]
    exact readString_simple rfl
  · rw [hn]
    exact readString_simple rfl
  · rw [hr]
    exact readString_simple rfl
  · rw [ht]
    exact readString_simple rfl
  · rw [← Char.ofNat_toNat c, h8]
    exact readString_simple rfl
  · rw [← Char.ofNat_toNat c, h12]
    exact readString_simple rfl
  · rw [Bool.and_eq_true, decide_eq_true_eq] at hplain
    exact readString_plain hquote hback hplain.1
  · rw [← unitGlyph_toNat c]
    exact readString_unicode (readUnicode_unit hwide (isHighSurrogate_toNat c) d cs)
  · exact readString_pair (Nat.not_lt.mp hwide)

/-- A written text is read back, up to and with its closing quote. -/
theorem readString_text (start : Nat) (cs rest : List Char) :
    readString start ((cs.map Glyph.char).flatMap escapeGlyph ++ '"' :: rest) =
      .ok (cs.map Glyph.char, rest) := by
  induction cs with
  | nil => exact readString_quote
  | cons c cs ih =>
    have hread : ∀ tail, tail ≠ [] →
        readString start (escapeChar c ++ tail) = consGlyph (.char c) (readString start tail) := by
      intro tail ht
      obtain ⟨d, ds, rfl⟩ := List.exists_cons_of_ne_nil ht
      exact readString_escapeChar start c d ds
    rw [List.map_cons, List.flatMap_cons, List.append_assoc]
    show readString start (escapeChar c ++ _) = _
    rw [hread _ (List.append_ne_nil_of_right_ne_nil _ (List.cons_ne_nil _ _)), ih]
    rfl

end Strings

/-! ## Integers -/

/-- The text does not go on with the number in front of it. -/
def EndsNumber (rest : List Char) : Prop :=
  ∀ c ∈ rest.head?, c.isDigit = false ∧ c ≠ '.' ∧ c ≠ 'e' ∧ c ≠ 'E'

theorem endsNumber_cons {c : Char} (hc : c = ',' ∨ c = ']' ∨ c = '\x7d') (rest : List Char) :
    EndsNumber (c :: rest) := by
  intro d hd
  cases hd
  rcases hc with rfl | rfl | rfl
  all_goals decide

theorem endsNumber_nil : EndsNumber [] :=
  fun _ h => nomatch h

section Integers

variable {n : Int} {m : Nat} {rest : List Char}

theorem integerText_toList (n : Int) :
    (Number.integerText n).toList =
      if n < 0 then '-' :: Nat.toDigits 10 n.natAbs else Nat.toDigits 10 n.natAbs := by
  unfold Number.integerText
  cases n with
  | ofNat m =>
    have hnonneg : ¬ Int.ofNat m < 0 := Int.not_lt.mpr (Int.natCast_nonneg m)
    rw [if_neg hnonneg]
    exact Nat.toList_repr
  | negSucc m =>
    rw [if_pos (Int.negSucc_lt_zero m)]
    show ("-" ++ (m + 1).repr).toList = _
    rw [String.toList_append, Nat.toList_repr]
    rfl

theorem isDigit_toDigits (m : Nat) : ∀ c ∈ Nat.toDigits 10 m, c.isDigit = true :=
  fun _ hc => Nat.isDigit_of_mem_toDigits (by decide) (by decide) hc

theorem digitValue?_of_isDigit {c : Char} (hc : c.isDigit = true) :
    Text.digitValue? c = some (c.toNat - 48) := by
  have hlt : c.toNat < 128 := by
    simp only [Char.isDigit, Bool.and_eq_true, decide_eq_true_eq] at hc
    have : c.toNat ≤ 57 := hc.2
    omega
  unfold Text.digitValue?
  rw [if_pos hlt, if_pos hc]

theorem ofDigits_digitValues {ds : List Char} (hd : ∀ c ∈ ds, c.isDigit = true) :
    Number.ofDigits (ds.filterMap Text.digitValue?) = Nat.ofDigitChars 10 ds 0 := by
  have hstep : ∀ (ds : List Char) (acc : Nat), (∀ c ∈ ds, c.isDigit = true) →
      (ds.filterMap Text.digitValue?).foldl (fun n d => n * 10 + d) acc =
        Nat.ofDigitChars 10 ds acc := by
    intro ds
    induction ds with
    | nil => exact fun acc _ => rfl
    | cons c ds ih =>
      intro acc hd
      have hc := digitValue?_of_isDigit (hd c List.mem_cons_self)
      rw [List.filterMap_cons_some hc, List.foldl_cons,
        ih _ fun d hmem => hd d (List.mem_cons_of_mem c hmem), Nat.ofDigitChars_cons,
        Nat.mul_comm]
      rfl
  exact hstep ds 0 hd

theorem takeFraction_of_ends (h : EndsNumber rest) : takeFraction rest = ([], rest) := by
  unfold takeFraction
  split
  · exact absurd rfl (h _ rfl).2.1
  · rfl

theorem takeExponent_of_ends (h : EndsNumber rest) : takeExponent rest = ([], rest) := by
  cases rest with
  | nil => rfl
  | cons c rest =>
    obtain ⟨-, -, he, hE⟩ := h c rfl
    have hmark : (decide (c = 'e') || decide (c = 'E')) = false := by
      rw [decide_eq_false he, decide_eq_false hE, Bool.or_false]
    unfold takeExponent
    dsimp only
    rw [hmark, if_neg Bool.false_ne_true]

/-- A run of digits ends where the number does. -/
theorem span_digits {ds : List Char} (hd : ∀ c ∈ ds, c.isDigit = true) (h : EndsNumber rest) :
    (ds ++ rest).takeWhile Char.isDigit = ds ∧ (ds ++ rest).dropWhile Char.isDigit = rest := by
  rw [List.takeWhile_append_of_pos hd, List.dropWhile_append_of_pos hd]
  cases rest with
  | nil => exact ⟨List.append_nil ds, rfl⟩
  | cons c rest =>
    have hc : ¬ c.isDigit = true := by
      rw [(h c rfl).1]
      exact Bool.false_ne_true
    rw [List.takeWhile_cons_of_neg hc, List.dropWhile_cons_of_neg hc]
    exact ⟨List.append_nil ds, rfl⟩

/-- Only zero begins with the digit zero. -/
theorem toDigits_head (hm : m ≠ 0) : ∃ d ds, Nat.toDigits 10 m = d :: ds ∧ d ≠ '0' := by
  induction m using Nat.strongRecOn with
  | _ m ih =>
    rw [Nat.toDigits_eq_if (by decide)]
    by_cases hlt : m < 10
    · rw [if_pos hlt]
      refine ⟨_, [], rfl, ?_⟩
      have hall : ∀ k < 10, k ≠ 0 → Nat.digitChar k ≠ '0' := by decide
      exact hall m hlt hm
    · obtain ⟨d, ds, hds, hd⟩ := ih (m / 10) (by omega) (by omega)
      rw [if_neg hlt, hds]
      exact ⟨d, ds ++ [Nat.digitChar (m % 10)], rfl, hd⟩

theorem takeWhole_toDigits (m : Nat) (h : EndsNumber rest) :
    takeWhole (Nat.toDigits 10 m ++ rest) = (Nat.toDigits 10 m, rest) := by
  by_cases hm : m = 0
  · subst hm
    rfl
  · obtain ⟨d, ds, hds, hd⟩ := toDigits_head hm
    obtain ⟨htake, hdrop⟩ := span_digits (isDigit_toDigits m) h
    rw [hds, List.cons_append] at htake hdrop
    rw [hds, List.cons_append, takeWhole, if_neg hd, htake, hdrop]

/-- Digits do not begin with a sign. -/
theorem toDigits_append_ne_minus (m : Nat) (rest tail : List Char) :
    Nat.toDigits 10 m ++ rest ≠ '-' :: tail := by
  intro htail
  obtain ⟨d, ds, hds⟩ := List.exists_cons_of_ne_nil (Nat.toDigits_ne_nil (b := 10) (n := m))
  rw [hds, List.cons_append, List.cons_eq_cons] at htail
  have hdigit := isDigit_toDigits m d (hds ▸ List.mem_cons_self)
  rw [htail.1] at hdigit
  cases hdigit

/-- **A written integer is read back.** -/
theorem readNumber_integerText (hn : Number.IsTellable n) (h : EndsNumber rest) :
    readNumber ((Number.integerText n).toList ++ rest) = .ok (.integer n, rest) := by
  have hlen : ¬ Number.maxDigits < (Nat.toDigits 10 n.natAbs).length :=
    Nat.not_lt.mpr hn.length_le
  have hne : (Nat.toDigits 10 n.natAbs).isEmpty = false :=
    List.isEmpty_eq_false_iff.mpr Nat.toDigits_ne_nil
  have hvalue : Number.ofDigits ((Nat.toDigits 10 n.natAbs).filterMap Text.digitValue?) =
      n.natAbs := by
    rw [ofDigits_digitValues (isDigit_toDigits _), Nat.ofDigitChars_ten_toDigits]
  have hsigned : Number.signed (decide (n < 0)) n.natAbs = n := by
    unfold Number.signed
    split
    case isTrue hneg =>
      have := of_decide_eq_true hneg
      omega
    case isFalse hneg =>
      have : ¬ n < 0 := fun hlt => hneg (decide_eq_true hlt)
      omega
  rw [integerText_toList]
  by_cases hneg : n < 0
  · rw [decide_eq_true hneg] at hsigned
    rw [if_pos hneg]
    simp only [List.cons_append, readNumber, takeWhole_toDigits _ h, takeFraction_of_ends h,
      takeExponent_of_ends h, hne, hlen, hvalue, hsigned]
    rfl
  · rw [decide_eq_false hneg] at hsigned
    rw [if_neg hneg]
    unfold readNumber
    split
    rename_i negative body hbody
    split at hbody
    · rename_i tail htail
      exact absurd htail (toDigits_append_ne_minus _ _ tail)
    · cases hbody
      simp only [takeWhole_toDigits _ h, takeFraction_of_ends h, takeExponent_of_ends h, hne, hlen,
        hvalue, hsigned]
      rfl

end Integers

/-! ## Values -/

/-- Values of at most `depth` levels that are read back as they were written. -/
inductive Plain : Nat → Json → Prop where
  | null {depth : Nat} : Plain depth .null
  | bool {depth : Nat} (b : Bool) : Plain depth (.bool b)
  | integer {depth : Nat} {n : Int} (hn : Number.IsTellable n) :
      Plain depth (.integer n)
  | text {depth : Nat} (s : String) : Plain depth (.text s)
  | array {depth : Nat} {items : List Json} (h : ∀ v ∈ items, Plain depth v) :
      Plain (depth + 1) (.array items)
  | object {depth : Nat} {members : List (Literal × Json)}
      (hkeys : (members.map Prod.fst).Nodup) (htexts : ∀ m ∈ members, ∃ s, m.1 = .whole s)
      (h : ∀ m ∈ members, Plain depth m.2) : Plain (depth + 1) (.object members)

/-- What is written of the value is read back, whatever comes after it, with two steps for each
character. -/
def ReadsBack (depth : Nat) (v : Json) : Prop :=
  ∀ fuel rest, 2 * v.print.length < fuel → EndsNumber rest →
    readValue fuel depth (v.print ++ rest) = .ok (v, rest)

section Values

variable {depth fuel : Nat} {v : Json} {rest : List Char}

/-- A text that begins like a number is read as one. -/
theorem readValue_number {c : Char} {cs : List Char}
    (hc : c.isDigit = true ∨ c = '-' ∧ ∃ d ds, cs = d :: ds ∧ d.isDigit = true) :
    readValue (fuel + 1) depth (c :: cs) = readNumber (c :: cs) := by
  have hne : ∀ d : Char, d.isDigit = false → d ≠ '-' → c ≠ d := by
    rintro d hd hminus rfl
    rcases hc with hc | ⟨hc, -⟩
    · rw [hd] at hc
      cases hc
    · exact hminus hc
  have hword : readWord? (c :: cs) = none := by
    unfold readWord?
    split
    all_goals first | rfl | skip
    all_goals
      rename_i heq
      rw [List.cons_eq_cons] at heq
      obtain ⟨hhead, htail⟩ := heq
    case h_6 =>
      rcases hc with hc | ⟨-, d, ds, hcs, hd⟩
      · rw [hhead] at hc
        cases hc
      · rw [htail, List.cons_eq_cons] at hcs
        rw [← hcs.1] at hd
        cases hd
    all_goals exact absurd hhead (hne _ (by decide) (by decide))
  rw [readValue]
  · rw [hword]
  · rintro tail h
    exact hne '"' (by decide) (by decide) (List.cons_eq_cons.mp h).1
  · rintro tail h
    exact hne '[' (by decide) (by decide) (List.cons_eq_cons.mp h).1
  · rintro tail h
    exact hne '\x7b' (by decide) (by decide) (List.cons_eq_cons.mp h).1

/-- A written integer begins with a digit, or with a minus and a digit. -/
theorem integerText_head (n : Int) : ∃ c cs, (Number.integerText n).toList = c :: cs ∧
    (c.isDigit = true ∨ c = '-' ∧ ∃ d ds, cs = d :: ds ∧ d.isDigit = true) := by
  obtain ⟨d, ds, hds⟩ :=
    List.exists_cons_of_ne_nil (Nat.toDigits_ne_nil (b := 10) (n := n.natAbs))
  have hd : d.isDigit = true := isDigit_toDigits n.natAbs d (hds ▸ List.mem_cons_self)
  rw [integerText_toList, hds]
  split
  · exact ⟨'-', d :: ds, rfl, .inr ⟨rfl, d, ds, rfl, hd⟩⟩
  · exact ⟨d, ds, rfl, .inl hd⟩

/-- A written value begins with a character that is no blank and ends no array. -/
theorem print_head (h : Plain depth v) :
    ∃ c cs, v.print = c :: cs ∧ isSpace c = false ∧ c ≠ ']' := by
  cases h with
  | null => exact ⟨_, _, rfl, by decide, by decide⟩
  | bool b =>
    cases b
    · exact ⟨_, _, rfl, by decide, by decide⟩
    · exact ⟨_, _, rfl, by decide, by decide⟩
  | integer hn =>
    obtain ⟨c, cs, hcs, hc⟩ := integerText_head _
    refine ⟨c, cs, by rw [print, hcs], ?_⟩
    rcases hc with hc | ⟨rfl, -⟩
    · have hne : ∀ d : Char, d.isDigit = false → c ≠ d := by
        rintro d hd rfl
        rw [hc] at hd
        cases hd
      have hspace : isSpace c = false := by
        simp only [isSpace, Bool.or_eq_false_iff, decide_eq_false_iff_not]
        exact ⟨⟨⟨hne _ (by decide), hne _ (by decide)⟩, hne _ (by decide)⟩, hne _ (by decide)⟩
      exact ⟨hspace, hne _ (by decide)⟩
    · exact ⟨by decide, by decide⟩
  | text s => exact ⟨'"', _, by rw [print, printString]; rfl, by decide, by decide⟩
  | array h => exact ⟨'[', _, by rw [print]; rfl, by decide, by decide⟩
  | object hkeys htexts h => exact ⟨'\x7b', _, by rw [print]; rfl, by decide, by decide⟩

theorem skipSpace_print (h : Plain depth v) (rest : List Char) :
    skipSpace (v.print ++ rest) = v.print ++ rest := by
  obtain ⟨c, cs, hcs, hc, -⟩ := print_head h
  rw [hcs, List.cons_append, skipSpace_cons hc]

theorem printItems_one (v : Json) : printItems [v] = v.print := by
  simp only [printItems]

theorem printItems_more (v u : Json) (items : List Json) :
    printItems (v :: u :: items) = v.print ++ ',' :: ' ' :: printItems (u :: items) := by
  rw [printItems]
  exact List.cons_ne_nil u items

theorem printMembers_one (s : String) (v : Json) :
    printMembers [(.whole s, v)] = printString (.whole s) ++ ':' :: ' ' :: v.print := by
  simp only [printMembers]

theorem printMembers_more (k : Literal) (v : Json) (m : Literal × Json)
    (members : List (Literal × Json)) :
    printMembers ((k, v) :: m :: members) =
      printString k ++ ':' :: ' ' :: v.print ++ ',' :: ' ' :: printMembers (m :: members) := by
  rw [printMembers]
  exact List.cons_ne_nil m members

theorem printItems_head (h : Plain depth v) (items : List Json) :
    ∃ c cs, printItems (v :: items) = c :: cs ∧ isSpace c = false ∧ c ≠ ']' := by
  obtain ⟨c, cs, hcs, hc⟩ := print_head h
  cases items with
  | nil => exact ⟨c, cs, by rw [printItems_one, hcs], hc⟩
  | cons u items => exact ⟨c, cs ++ _, by rw [printItems_more, hcs, List.cons_append], hc⟩

theorem printMembers_head {m : Literal × Json} (hm : ∃ s, m.1 = .whole s)
    (members : List (Literal × Json)) : ∃ cs, printMembers (m :: members) = '"' :: cs := by
  obtain ⟨k, v⟩ := m
  obtain ⟨s, rfl⟩ : ∃ s, k = .whole s := hm
  cases members with
  | nil => exact ⟨_, by rw [printMembers_one]; rfl⟩
  | cons m members => exact ⟨_, by rw [printMembers_more]; rfl⟩

/-- **The items of a written array are read back**, if each of them is. -/
theorem readItems_printItems (depth : Nat) :
    ∀ (items : List Json) (fuel : Nat) (rest : List Char), items ≠ [] →
      (∀ v ∈ items, Plain depth v ∧ ReadsBack depth v) →
      2 * (printItems items).length + 1 < fuel →
      readItems fuel depth (printItems items ++ ']' :: rest) = .ok (items, rest)
  | [], _, _, hne, _, _ => absurd rfl hne
  | [v], fuel, rest, _, hitems, hfuel => by
    obtain ⟨-, hread⟩ := hitems v List.mem_cons_self
    obtain ⟨fuel, rfl⟩ : ∃ n, fuel = n + 1 := ⟨fuel - 1, by omega⟩
    rw [printItems_one] at hfuel ⊢
    rw [readItems, hread fuel _ (by omega) (endsNumber_cons (.inr (.inl rfl)) rest)]
    dsimp only
    rw [skipSpace_cons (by decide)]
    rfl
  | v :: u :: items, fuel, rest, _, hitems, hfuel => by
    obtain ⟨-, hread⟩ := hitems v List.mem_cons_self
    have hu := (hitems u (List.mem_cons_of_mem v List.mem_cons_self)).1
    obtain ⟨c, cs, hcs, hspace, -⟩ := printItems_head hu items
    obtain ⟨fuel, rfl⟩ : ∃ n, fuel = n + 1 := ⟨fuel - 1, by omega⟩
    rw [printItems_more, List.length_append, List.length_cons, List.length_cons] at hfuel
    have ih := readItems_printItems depth (u :: items) fuel rest (List.cons_ne_nil u items)
      (fun w hw => hitems w (List.mem_cons_of_mem v hw)) (by omega)
    rw [printItems_more, List.append_assoc, List.cons_append, List.cons_append, readItems,
      hread fuel _ (by omega) (endsNumber_cons (.inl rfl) _)]
    dsimp only
    rw [skipSpace_cons (by decide)]
    show Except.map _ (readItems fuel depth (skipSpace (' ' :: _))) = _
    rw [skipSpace_blank, hcs, List.cons_append, skipSpace_cons hspace, ← List.cons_append, ← hcs,
      ih]
    rfl

/-- A member that comes under a new name goes to the end. -/
theorem put_of_not_mem {κ α : Type} [DecidableEq κ] {k : κ} (v : α) {ms : List (κ × α)}
    (h : k ∉ ms.map Prod.fst) : put k v ms = ms ++ [(k, v)] := by
  induction ms with
  | nil => rfl
  | cons m ms ih =>
    rw [List.map_cons, List.mem_cons, not_or] at h
    rw [put, if_neg (Ne.symm h.1), ih h.2]
    rfl

theorem readString_printString (start : Nat) (s : String) (rest : List Char) :
    ∃ cs, printString (.whole s) ++ rest = '"' :: cs ∧
      readString start cs = .ok (s.toList.map .char, rest) := by
  refine ⟨_, ?_, readString_text start s.toList rest⟩
  show '"' :: _ ++ ['"'] ++ rest = _
  rw [List.append_assoc]
  rfl

/-- One member, and what comes after it. -/
theorem readMembers_member {s : String} {done : List (Literal × Json)}
    (hnew : .whole s ∉ done.map Prod.fst) (hplain : Plain depth v) (hread : ReadsBack depth v)
    (hfuel : 2 * v.print.length < fuel) (hrest : EndsNumber rest) :
    readMembers (fuel + 1) depth done
        (printString (.whole s) ++ ':' :: ' ' :: (v.print ++ rest)) =
      match skipSpace rest with
      | '\x7d' :: rest => .ok (done ++ [(.whole s, v)], rest)
      | ',' :: rest => readMembers fuel depth (done ++ [(.whole s, v)]) (skipSpace rest)
      | rest => .error (.complain .expectedComma rest.length) := by
  obtain ⟨cs, hcs, hname⟩ := readString_printString
    (printString (.whole s) ++ ':' :: ' ' :: (v.print ++ rest)).length s
    (':' :: ' ' :: (v.print ++ rest))
  rw [hcs] at hname ⊢
  rw [readMembers, hname]
  dsimp only
  rw [skipSpace_cons (by decide)]
  split
  case h_1 after hafter =>
    cases hafter
    rw [skipSpace_blank, skipSpace_print hplain, hread fuel rest hfuel hrest]
    dsimp only
    rw [Literal.ofGlyphs_chars, String.ofList_toList]
    exact put_of_not_mem v hnew ▸ rfl
  case h_2 hcolon => exact absurd rfl (hcolon _)

/-- **The members of a written object are read back** after those already read, if each value is
and no name comes twice. -/
theorem readMembers_printMembers (depth : Nat) :
    ∀ (members done : List (Literal × Json)) (fuel : Nat) (rest : List Char), members ≠ [] →
      ((done ++ members).map Prod.fst).Nodup → (∀ m ∈ members, ∃ s, m.1 = .whole s) →
      (∀ m ∈ members, Plain depth m.2 ∧ ReadsBack depth m.2) →
      2 * (printMembers members).length + 1 < fuel →
      readMembers fuel depth done (printMembers members ++ '\x7d' :: rest) =
        .ok (done ++ members, rest)
  | [], _, _, _, hne, _, _, _, _ => absurd rfl hne
  | (k, v) :: members, done, fuel, rest, _, hkeys, htexts, hvalues, hfuel => by
    obtain ⟨hplain, hread⟩ : Plain depth v ∧ ReadsBack depth v := hvalues _ List.mem_cons_self
    obtain ⟨s, rfl⟩ : ∃ s, k = .whole s := htexts _ List.mem_cons_self
    obtain ⟨fuel, rfl⟩ : ∃ n, fuel = n + 1 := ⟨fuel - 1, by omega⟩
    have hnew : .whole s ∉ done.map Prod.fst := by
      rw [List.map_append, List.map_cons] at hkeys
      intro hmem
      exact (List.nodup_append.mp hkeys).2.2 _ hmem _ List.mem_cons_self rfl
    cases members with
    | nil =>
      rw [printMembers_one] at hfuel ⊢
      simp only [List.length_append, List.length_cons] at hfuel
      rw [List.append_assoc, List.cons_append, List.cons_append,
        readMembers_member hnew hplain hread (by omega) (endsNumber_cons (.inr (.inr rfl)) rest),
        skipSpace_cons (by decide)]
      rfl
    | cons m members =>
      rw [printMembers_more] at hfuel ⊢
      simp only [List.length_append, List.length_cons] at hfuel
      obtain ⟨cs, hcs⟩ :=
        printMembers_head (htexts m (List.mem_cons_of_mem _ List.mem_cons_self)) members
      have ih := readMembers_printMembers depth (m :: members) (done ++ [(.whole s, v)]) fuel rest
        (List.cons_ne_nil m members) (by rwa [List.append_assoc])
        (fun n hn => htexts n (List.mem_cons_of_mem _ hn))
        (fun n hn => hvalues n (List.mem_cons_of_mem _ hn)) (by omega)
      rw [List.append_assoc, List.append_assoc, List.cons_append, List.cons_append,
        List.cons_append, List.cons_append,
        readMembers_member hnew hplain hread (by omega) (endsNumber_cons (.inl rfl) _),
        skipSpace_cons (by decide)]
      show readMembers fuel depth _ (skipSpace (' ' :: _)) = _
      rw [skipSpace_blank, hcs, List.cons_append, skipSpace_cons (by decide), ← List.cons_append,
        ← hcs, ih, List.append_assoc]
      rfl

/-- An array that does not end at once is read item by item. -/
theorem readValue_array {c : Char} {cs : List Char} (hspace : isSpace c = false)
    (hclose : c ≠ ']') :
    readValue (fuel + 1) (depth + 1) ('[' :: c :: cs) =
      (readItems fuel depth (c :: cs)).map fun (items, rest) => (.array items, rest) := by
  rw [readValue, skipSpace_cons hspace]
  split
  case h_1 rest h => exact absurd (List.cons_eq_cons.mp h).1 hclose
  case h_2 => rfl

/-- An object that does not end at once is read member by member. -/
theorem readValue_object {cs : List Char} :
    readValue (fuel + 1) (depth + 1) ('\x7b' :: '"' :: cs) =
      (readMembers fuel depth [] ('"' :: cs)).map fun (members, rest) =>
        (.object members, rest) := by
  rw [readValue, skipSpace_cons (by decide)]
  rfl

/-- **A written value is read back.** -/
theorem readsBack_of_plain (h : Plain depth v) : ReadsBack depth v := by
  induction h with
  | null =>
    intro fuel rest hfuel _
    obtain ⟨fuel, rfl⟩ : ∃ n, fuel = n + 1 := ⟨fuel - 1, by omega⟩
    rw [print]
    rfl
  | bool b =>
    intro fuel rest hfuel _
    obtain ⟨fuel, rfl⟩ : ∃ n, fuel = n + 1 := ⟨fuel - 1, by omega⟩
    cases b
    · rw [print]
      rfl
    · rw [print]
      rfl
  | @integer depth n hn =>
    intro fuel rest hfuel hrest
    obtain ⟨fuel, rfl⟩ : ∃ n, fuel = n + 1 := ⟨fuel - 1, by omega⟩
    obtain ⟨c, cs, hcs, hc⟩ := integerText_head n
    have hread := readNumber_integerText hn hrest
    rw [print, hcs, List.cons_append] 
    rw [hcs, List.cons_append] at hread
    rw [readValue_number, hread]
    refine hc.imp_right ?_
    rintro ⟨hminus, d, ds, rfl, hd⟩
    exact ⟨hminus, d, ds ++ rest, rfl, hd⟩
  | text s =>
    intro fuel rest hfuel _
    obtain ⟨fuel, rfl⟩ : ∃ n, fuel = n + 1 := ⟨fuel - 1, by omega⟩
    obtain ⟨cs, hcs, hread⟩ :=
      readString_printString (printString (.whole s) ++ rest).length s rest
    rw [print, hcs]
    rw [hcs] at hread
    rw [readValue, hread]
    show Except.ok (literal (.ofGlyphs (s.toList.map .char)), rest) = _
    rw [Literal.ofGlyphs_chars, String.ofList_toList]
  | @array depth items h ih =>
    intro fuel rest hfuel hrest
    obtain ⟨fuel, rfl⟩ : ∃ n, fuel = n + 1 := ⟨fuel - 1, by omega⟩
    rw [print] at hfuel ⊢
    cases items with
    | nil => rfl
    | cons v items =>
      have hitems := readItems_printItems depth (v :: items) fuel rest (List.cons_ne_nil v items)
        fun u hu => ⟨h u hu, ih u hu⟩
      obtain ⟨c, cs, hcs, hspace, hclose⟩ := printItems_head (h v List.mem_cons_self) items
      simp only [List.length_append, List.length_cons] at hfuel
      have hread := hitems (by omega)
      rw [List.append_assoc]
      show readValue (fuel + 1) (depth + 1) ('[' :: (printItems (v :: items) ++ ']' :: rest)) = _
      rw [hcs, List.cons_append] at hread ⊢
      rw [readValue_array hspace hclose, hread]
      rfl
  | @object depth members hkeys htexts h ih =>
    intro fuel rest hfuel hrest
    obtain ⟨fuel, rfl⟩ : ∃ n, fuel = n + 1 := ⟨fuel - 1, by omega⟩
    rw [print] at hfuel ⊢
    cases members with
    | nil => rfl
    | cons m members =>
      have hmembers := readMembers_printMembers depth (m :: members) [] fuel rest
        (List.cons_ne_nil m members) hkeys htexts fun n hn => ⟨h n hn, ih n hn⟩
      obtain ⟨cs, hcs⟩ := printMembers_head (htexts m List.mem_cons_self) members
      simp only [List.length_append, List.length_cons] at hfuel
      have hread := hmembers (by omega)
      rw [List.append_assoc]
      show readValue (fuel + 1) (depth + 1)
        ('\x7b' :: (printMembers (m :: members) ++ '\x7d' :: rest)) = _
      rw [hcs, List.cons_append] at hread ⊢
      rw [readValue_object, hread]
      rfl

end Values

/-! ## One line of ASCII -/

/-- A character of ASCII that is no control character. -/
def IsVisible (c : Char) : Prop :=
  32 ≤ c.toNat ∧ c.toNat < 127

instance (c : Char) : Decidable (IsVisible c) :=
  inferInstanceAs (Decidable (_ ∧ _))

theorem isVisible_of_all {cs : List Char} (h : (cs.all fun c => decide (IsVisible c)) = true) :
    ∀ c ∈ cs, IsVisible c :=
  fun c hc => of_decide_eq_true (List.all_eq_true.mp h c hc)

theorem isVisible_digitChar : ∀ d < 16, IsVisible (Nat.digitChar d) := by
  decide

theorem isVisible_unitEscape {n : Nat} (hn : n < 0x10000) : ∀ c ∈ unitEscape n, IsVisible c := by
  have hback : IsVisible '\\' := by decide
  have hu : IsVisible 'u' := by decide
  unfold unitEscape
  rw [hexDigits_four hn]
  simp only [List.forall_mem_cons]
  exact ⟨hback, hu, isVisible_digitChar _ (by omega), isVisible_digitChar _ (by omega),
    isVisible_digitChar _ (by omega), isVisible_digitChar _ (by omega), fun _ h => nomatch h⟩

theorem isVisible_escapeChar (c : Char) : ∀ d ∈ escapeChar c, IsVisible d := by
  have hvalid : c.toNat < 0xD800 ∨ 0xDFFF < c.toNat ∧ c.toNat < 0x110000 := c.valid
  unfold escapeChar
  split_ifs with hquote hback hn hr ht h8 h12 hplain hwide
  iterate 7 exact isVisible_of_all (by decide)
  · rw [Bool.and_eq_true, decide_eq_true_eq, decide_eq_true_eq] at hplain
    intro d hd
    rw [List.mem_singleton.mp hd]
    exact hplain
  · exact isVisible_unitEscape hwide
  · intro d hd
    rcases List.mem_append.mp hd with hd | hd
    · exact isVisible_unitEscape (by omega) d hd
    · exact isVisible_unitEscape (by omega) d hd

theorem isVisible_printString (s : String) : ∀ c ∈ printString (.whole s), IsVisible c := by
  have hquote : IsVisible '"' := by decide
  intro c hc
  rcases List.mem_append.mp (show c ∈ '"' :: (s.toList.map Glyph.char).flatMap escapeGlyph ++ ['"']
    from hc) with hc | hc
  · rcases List.mem_cons.mp hc with rfl | hc
    · exact hquote
    · obtain ⟨g, hg, hcg⟩ := List.mem_flatMap.mp hc
      obtain ⟨d, -, rfl⟩ := List.mem_map.mp hg
      exact isVisible_escapeChar d c hcg
  · rw [List.mem_singleton.mp hc]
    exact hquote

theorem isVisible_integerText (n : Int) : ∀ c ∈ (Number.integerText n).toList, IsVisible c := by
  have hdigits : ∀ c ∈ Nat.toDigits 10 n.natAbs, IsVisible c := by
    intro c hc
    have hd := isDigit_toDigits _ c hc
    simp only [Char.isDigit, Bool.and_eq_true, decide_eq_true_eq] at hd
    have h48 : 48 ≤ c.toNat := hd.1
    have h57 : c.toNat ≤ 57 := hd.2
    exact ⟨by omega, by omega⟩
  rw [integerText_toList]
  split
  · exact List.forall_mem_cons.mpr ⟨by decide, hdigits⟩
  · exact hdigits

theorem isVisible_separated {sep : Char} (hsep : IsVisible sep) {cs ds : List Char}
    (hc : ∀ c ∈ cs, IsVisible c) (hd : ∀ c ∈ ds, IsVisible c) :
    ∀ c ∈ cs ++ sep :: ' ' :: ds, IsVisible c :=
  List.forall_mem_append.mpr
    ⟨hc, List.forall_mem_cons.mpr ⟨hsep, List.forall_mem_cons.mpr ⟨by decide, hd⟩⟩⟩

theorem isVisible_printItems :
    ∀ (items : List Json), (∀ v ∈ items, ∀ c ∈ v.print, IsVisible c) →
      ∀ c ∈ printItems items, IsVisible c
  | [], _ => fun _ h => nomatch h
  | [v], h => by
    rw [printItems_one]
    exact h v List.mem_cons_self
  | v :: u :: items, h => by
    rw [printItems_more]
    exact isVisible_separated (by decide) (h v List.mem_cons_self)
      (isVisible_printItems (u :: items) fun w hw => h w (List.mem_cons_of_mem v hw))

theorem isVisible_printMembers :
    ∀ (members : List (Literal × Json)), (∀ m ∈ members, ∃ s, m.1 = .whole s) →
      (∀ m ∈ members, ∀ c ∈ m.2.print, IsVisible c) → ∀ c ∈ printMembers members, IsVisible c
  | [], _, _ => fun _ h => nomatch h
  | (k, v) :: members, htexts, h => by
    obtain ⟨s, rfl⟩ : ∃ s, k = .whole s := htexts _ List.mem_cons_self
    have hmember := isVisible_separated (by decide : IsVisible ':') (isVisible_printString s)
      (h _ List.mem_cons_self)
    cases members with
    | nil =>
      rw [printMembers_one]
      exact hmember
    | cons m members =>
      rw [printMembers_more]
      exact isVisible_separated (by decide) hmember
        (isVisible_printMembers (m :: members) (fun n hn => htexts n (List.mem_cons_of_mem _ hn))
          fun n hn => h n (List.mem_cons_of_mem _ hn))

/-- **A written value is one line of ASCII.** -/
theorem isVisible_print {depth : Nat} {v : Json} (h : Plain depth v) :
    ∀ c ∈ v.print, IsVisible c := by
  have hbrackets : ∀ {c d : Char} {cs : List Char}, IsVisible c → IsVisible d →
      (∀ b ∈ cs, IsVisible b) → ∀ b ∈ c :: cs ++ [d], IsVisible b := fun hc hd hcs =>
    List.forall_mem_append.mpr
      ⟨List.forall_mem_cons.mpr ⟨hc, hcs⟩, List.forall_mem_singleton.mpr hd⟩
  induction h with
  | null => rw [print]; exact isVisible_of_all (by decide)
  | bool b => cases b <;> rw [print] <;> exact isVisible_of_all (by decide)
  | integer hn => rw [print]; exact isVisible_integerText _
  | text s => rw [print]; exact isVisible_printString s
  | array h ih =>
    rw [print]
    exact hbrackets (by decide) (by decide) (isVisible_printItems _ ih)
  | object hkeys htexts h ih =>
    rw [print]
    exact hbrackets (by decide) (by decide) (isVisible_printMembers _ htexts ih)

/-- **A whole text that was written is read back.** -/
theorem parse_render {depth : Nat} {v : Json} (h : Plain depth v) : parse v.render depth = .ok v := by
  obtain ⟨c, cs, hcs, hspace, -⟩ := print_head h
  have hskip : skipSpace v.print = v.print := by
    rw [hcs, skipSpace_cons hspace]
  have hmark : v.print.head? ≠ some (Char.ofNat 0xFEFF) := by
    intro hhead
    have hvisible := isVisible_print h _ (List.mem_of_mem_head? hhead)
    exact absurd hvisible (by decide)
  have hread := readsBack_of_plain h (2 * v.print.length + 2) [] (by omega) endsNumber_nil
  rw [List.append_nil] at hread
  have hwhole : readWhole depth v.print = .ok v := by
    unfold readWhole
    rw [if_neg hmark, hskip, hread]
    rfl
  unfold parse render
  rw [String.toList_ofList, hwhole]

end Json

end Assay

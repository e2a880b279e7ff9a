import Assay.Proofs.Encoding

/-!
# The lines of captured output

How the wide cut works on text that is put together: `lines_append` cuts at the first line break,
`lines_append_newline` at any line feed, and no line holds a line break or anything that is not in
the text (`not_isLineBreak_of_mem_lines`, `infix_of_mem_lines`).

The second half is about UTF-8 that is read as Latin-1. Every byte then is a character:
ASCII stays as it is and all else becomes characters from U+0080 to U+00FF (`mem_misread`). The only
one among these that ends a line is U+0085, and it is there exactly if the byte is.
-/

namespace Assay.Text

variable {a cs l rest : List Char} {c : Char}

/-! ## The cut -/

theorem lines_cons_of_break (hc : isLineBreak c = true) (hr : c ≠ '\r') :
    lines (c :: rest) = [] :: lines rest := by
  rw [lines]
  · rw [if_pos hc]
  · exact fun _ h => absurd h hr

theorem lines_cons_of_not_break (hc : isLineBreak c = false) :
    lines (c :: rest) = (c :: (lines rest).headD []) :: (lines rest).tail := by
  have hr : c ≠ '\r' := by
    rintro rfl
    cases hc
  rw [lines]
  · rw [if_neg (by rw [hc]; exact Bool.false_ne_true)]
    cases lines rest <;> rfl
  · exact fun _ h => absurd h hr

theorem lines_ne_nil (h : cs ≠ []) : lines cs ≠ [] := by
  fun_cases lines cs
  case case1 => exact absurd rfl h
  all_goals exact List.cons_ne_nil _ _

/-- The first line break ends the first line. -/
theorem lines_append (ha : ∀ d ∈ a, isLineBreak d = false) (hc : isLineBreak c = true)
    (hr : c ≠ '\r') : lines (a ++ c :: rest) = a :: lines rest := by
  induction a with
  | nil => exact lines_cons_of_break hc hr
  | cons d a ih =>
    rw [List.cons_append, lines_cons_of_not_break (ha d List.mem_cons_self),
      ih fun e he => ha e (List.mem_cons_of_mem d he)]
    rfl

/-- A text with a line break is cut there for the first time. -/
theorem exists_first_break (h : ∃ d ∈ cs, isLineBreak d = true) :
    ∃ a c rest, cs = a ++ c :: rest ∧ (∀ d ∈ a, isLineBreak d = false) ∧ isLineBreak c = true := by
  induction cs with
  | nil =>
    obtain ⟨d, hd, -⟩ := h
    cases hd
  | cons c cs ih =>
    by_cases hc : isLineBreak c = true
    · exact ⟨[], c, cs, rfl, by simp, hc⟩
    · obtain ⟨d, hd, hb⟩ := h
      have hd : d ∈ cs := by
        refine (List.mem_cons.mp hd).resolve_left ?_
        rintro rfl
        exact hc hb
      obtain ⟨a, c', rest, rfl, ha, hc'⟩ := ih ⟨d, hd, hb⟩
      refine ⟨c :: a, c', rest, rfl, fun e he => ?_, hc'⟩
      rcases List.mem_cons.mp he with rfl | he
      · exact Bool.not_eq_true _ ▸ hc
      · exact ha e he

/-- Text without carriage returns goes on after a line feed as at the start. -/
theorem lines_append_newline (hr : '\r' ∉ cs) (rest : List Char) :
    lines (cs ++ '\n' :: rest) = lines (cs ++ ['\n']) ++ lines rest := by
  have hn : isLineBreak '\n' = true := by decide
  have hne : ('\n' : Char) ≠ '\r' := by decide
  induction cs with
  | nil =>
    rw [List.nil_append, List.nil_append, lines_cons_of_break hn hne, lines_cons_of_break hn hne]
    rfl
  | cons c cs ih =>
    rw [List.mem_cons, not_or] at hr
    rw [List.cons_append, List.cons_append]
    by_cases hc : isLineBreak c = true
    · rw [lines_cons_of_break hc (Ne.symm hr.1), lines_cons_of_break hc (Ne.symm hr.1), ih hr.2]
      rfl
    · have hc : isLineBreak c = false := Bool.not_eq_true _ ▸ hc
      rw [lines_cons_of_not_break hc, lines_cons_of_not_break hc, ih hr.2]
      -- the line that `c` begins is one of the text before the rest
      obtain ⟨line, more, hl⟩ := List.exists_cons_of_ne_nil
        (lines_ne_nil (List.append_ne_nil_of_right_ne_nil cs (List.cons_ne_nil '\n' [])))
      rw [hl]
      rfl

theorem not_isLineBreak_of_mem_lines (hl : l ∈ lines cs) : ∀ d ∈ l, isLineBreak d = false := by
  fun_induction lines cs generalizing l with
  | case1 => cases hl
  | case2 rest ih | case3 c rest _ _ ih =>
    rcases List.mem_cons.mp hl with rfl | hl
    · simp
    · exact ih hl
  | case4 c rest _ hc _ _ =>
    rw [List.mem_singleton.mp hl]
    simpa using hc
  | case5 c rest _ hc line more hrest ih =>
    rw [hrest] at ih
    rcases List.mem_cons.mp hl with rfl | hl
    · intro d hd
      rcases List.mem_cons.mp hd with rfl | hd
      · simpa using hc
      · exact ih List.mem_cons_self d hd
    · exact ih (List.mem_cons_of_mem line hl)

/-- A text begins with its first line. -/
theorem prefix_of_lines_eq {line : List Char} {more : List (List Char)}
    (h : lines cs = line :: more) : line <+: cs := by
  fun_induction lines cs generalizing line more with
  | case1 => cases h
  | case2 | case3 =>
    obtain ⟨rfl, -⟩ := List.cons_eq_cons.mp h
    exact List.nil_prefix
  | case4 c rest =>
    obtain ⟨rfl, -⟩ := List.cons_eq_cons.mp h
    exact List.prefix_append [c] rest
  | case5 c rest _ _ line' more' hrest ih =>
    obtain ⟨rfl, -⟩ := List.cons_eq_cons.mp h
    exact List.cons_prefix_cons.mpr ⟨rfl, ih hrest⟩

/-- The text does not end a line. -/
def OneLine (s : String) : Prop :=
  ∀ c ∈ s.toList, isLineBreak c = false

theorem OneLine.append {s t : String} (hs : OneLine s) (ht : OneLine t) : OneLine (s ++ t) := by
  intro c hc
  rw [String.toList_append, List.mem_append] at hc
  exact hc.elim (hs c) (ht c)

theorem OneLine.mono {s t : String} (ht : OneLine t) (h : s.toList <:+: t.toList) : OneLine s :=
  fun c hc => ht c (h.subset hc)

/-- A text that ends with a line feed begins with its first line. -/
theorem linesOf_append {s : String} (hs : OneLine s) (t : String) :
    linesOf (s ++ "\n" ++ t) = s :: linesOf t := by
  have htext : (s ++ "\n" ++ t).toList = s.toList ++ '\n' :: t.toList := by
    rw [String.toList_append, String.toList_append, List.append_assoc]
    rfl
  unfold linesOf
  rw [htext, lines_append hs (by decide) (by decide), List.map_cons, String.ofList_toList]

theorem linesOf_line {s : String} (hs : OneLine s) : linesOf (s ++ "\n") = [s] := by
  have h := linesOf_append hs ""
  rw [String.append_empty] at h
  exact h

theorem infix_of_mem_lines (hl : l ∈ lines cs) : l <:+: cs := by
  fun_induction lines cs with
  | case1 => cases hl
  | case2 rest ih =>
    rcases List.mem_cons.mp hl with rfl | hl
    · exact List.nil_infix
    · exact (ih hl).trans ⟨['\r', '\n'], [], by simp⟩
  | case3 c rest _ _ ih =>
    rcases List.mem_cons.mp hl with rfl | hl
    · exact List.nil_infix
    · exact List.infix_cons (ih hl)
  | case4 c rest =>
    rw [List.mem_singleton.mp hl]
    exact (List.prefix_append [c] rest).isInfix
  | case5 c rest _ _ line more hrest ih =>
    rcases List.mem_cons.mp hl with rfl | hl
    · exact (List.cons_prefix_cons.mpr ⟨rfl, prefix_of_lines_eq hrest⟩).isInfix
    · refine List.infix_cons (ih ?_)
      rw [hrest]
      exact List.mem_cons_of_mem line hl

/-! ## UTF-8 read as Latin-1 -/

/-- What UTF-8 shows when it is read as Latin-1. -/
def misread (s : String) : String :=
  decodeLatin1 (encode s)

theorem toList_misread (s : String) :
    (misread s).toList = (encode s).map fun b => Char.ofNat b.toNat := by
  rw [misread, decodeLatin1, String.toList_ofList]

theorem encode_append (s t : String) : encode (s ++ t) = encode s ++ encode t := by
  rw [encode, String.toList_append, List.flatMap_append]
  rfl

theorem misread_append (s t : String) : misread (s ++ t) = misread s ++ misread t := by
  rw [← String.toList_inj, String.toList_append, toList_misread, toList_misread, toList_misread,
    encode_append, List.map_append]

theorem utf8EncodeChar_ascii (hc : c.toNat < 0x80) :
    String.utf8EncodeChar c = [UInt8.ofNat c.toNat] := by
  unfold String.utf8EncodeChar
  dsimp only
  rw [if_pos (show c.val.toNat ≤ 0x7F from Nat.le_of_lt_succ hc)]
  rfl

theorem le_toNat_ofNat {n : Nat} (h : 0x80 ≤ n) (h' : n < 0x100) : 0x80 ≤ (UInt8.ofNat n).toNat := by
  rw [UInt8.toNat_ofNat', Nat.mod_eq_of_lt h']
  exact h

/-- The bytes of a character that is not ASCII are none of ASCII. -/
theorem le_of_mem_utf8EncodeChar (hc : 0x80 ≤ c.toNat) :
    ∀ b ∈ String.utf8EncodeChar c, 0x80 ≤ b.toNat := by
  have hlast : ∀ n, 0x80 ≤ (UInt8.ofNat (n % 64 + 0x80)).toNat := fun n =>
    le_toNat_ofNat (by omega) (by omega)
  unfold String.utf8EncodeChar
  dsimp only
  rw [if_neg (show ¬ c.val.toNat ≤ 0x7F from Nat.not_le.mpr hc)]
  split
  · simp only [List.forall_mem_cons]
    exact ⟨le_toNat_ofNat (by omega) (by omega), hlast _, by simp⟩
  · split
    · simp only [List.forall_mem_cons]
      exact ⟨le_toNat_ofNat (by omega) (by omega), hlast _, hlast _, by simp⟩
    · simp only [List.forall_mem_cons]
      exact ⟨le_toNat_ofNat (by omega) (by omega), hlast _, hlast _, hlast _, by simp⟩

theorem toNat_ofNat_toNat (b : UInt8) : (Char.ofNat b.toNat).toNat = b.toNat := by
  have hb : b.toNat < 0x100 := b.toNat_lt
  have hv : b.toNat.isValidChar := .inl (by omega)
  rw [Char.ofNat, dif_pos hv]
  rfl

/-- **Misread text** keeps its ASCII, and has nothing of ASCII besides. -/
theorem mem_misread {s : String} (h : c ∈ (misread s).toList) :
    (c ∈ s.toList ∧ c.toNat < 0x80) ∨ 0x80 ≤ c.toNat ∧ c.toNat < 0x100 := by
  rw [toList_misread, encode, List.mem_map] at h
  obtain ⟨b, hb, rfl⟩ := h
  obtain ⟨d, hd, hb⟩ := List.mem_flatMap.mp hb
  have hlt : b.toNat < 0x100 := b.toNat_lt
  rw [toNat_ofNat_toNat]
  by_cases hc : d.toNat < 0x80
  · rw [utf8EncodeChar_ascii hc, List.mem_singleton] at hb
    have hbd : b.toNat = d.toNat := by
      rw [hb, UInt8.toNat_ofNat', Nat.mod_eq_of_lt (by omega)]
    refine .inl ⟨?_, hbd ▸ hc⟩
    rw [hbd, Char.ofNat_toNat]
    exact hd
  · exact .inr ⟨le_of_mem_utf8EncodeChar (Nat.not_lt.mp hc) b hb, hlt⟩

/-- Text of ASCII is read as it is. -/
theorem misread_ascii {s : String} (h : ∀ c ∈ s.toList, c.toNat < 0x80) : misread s = s := by
  rw [← String.toList_inj, toList_misread, encode]
  generalize s.toList = cs at h
  induction cs with
  | nil => rfl
  | cons c cs ih =>
    have hc := h c List.mem_cons_self
    have hmod : c.toNat % 2 ^ 8 = c.toNat := Nat.mod_eq_of_lt (by omega)
    rw [List.flatMap_cons, utf8EncodeChar_ascii hc, List.map_append,
      ih fun d hd => h d (List.mem_cons_of_mem c hd), List.map_singleton, UInt8.toNat_ofNat', hmod,
      Char.ofNat_toNat]
    rfl

theorem infix_encode {s t : String} (h : s.toList <:+: t.toList) : encode s <:+: encode t := by
  obtain ⟨pre, post, h⟩ := h
  refine ⟨pre.flatMap String.utf8EncodeChar, post.flatMap String.utf8EncodeChar, ?_⟩
  rw [encode, encode, ← h, List.flatMap_append, List.flatMap_append]

theorem infix_misread {s t : String} (h : s.toList <:+: t.toList) :
    (misread s).toList <:+: (misread t).toList := by
  rw [toList_misread, toList_misread]
  exact (infix_encode h).map _

/-- The byte that Latin-1 reads as the end of a line. -/
def nextLine : UInt8 := 0x85

theorem isLineBreak_nextLine : isLineBreak (Char.ofNat nextLine.toNat) = true := by
  decide

/-- Misread text has line breaks of its own only where the byte `nextLine` is. -/
theorem exists_isLineBreak_misread_iff {s : String} (h : ∀ c ∈ s.toList, isLineBreak c = false) :
    (∃ c ∈ (misread s).toList, isLineBreak c = true) ↔ nextLine ∈ encode s := by
  rw [toList_misread]
  constructor
  · rintro ⟨c, hc, hb⟩
    have hmis := mem_misread (s := s) (by rwa [toList_misread])
    obtain ⟨b, hmem, rfl⟩ := List.mem_map.mp hc
    rcases hmis with ⟨hs, -⟩ | ⟨hlow, -⟩
    · rw [h _ hs] at hb
      cases hb
    · -- from U+0080 on, U+0085 is the first that ends a line, and a byte is no further one
      have hlt : b.toNat < 0x100 := b.toNat_lt
      rw [isLineBreak, toNat_ofNat_toNat] at hb
      rw [toNat_ofNat_toNat] at hlow
      have : b.toNat = nextLine.toNat := by
        simp only [Bool.or_eq_true, Bool.and_eq_true, decide_eq_true_eq, beq_iff_eq] at hb
        show b.toNat = 0x85
        omega
      rwa [← UInt8.toNat_inj.mp this]
  · intro hb
    exact ⟨_, List.mem_map_of_mem hb, isLineBreak_nextLine⟩

end Assay.Text

import Assay.Text.Encoding
import Assay.Text.Lines

/-!
# Bytes, texts and lines

What the reader of UTF-8 makes of written text, and of bytes that are cut into lines.

* `decode?_encode`: written text is read back.
* `decode?_lines`: bytes that a line feed ends at several places are the text of their lines, each
  read by itself. It rests on `decodeFrom_append_ascii`: a byte of ASCII never continues a
  character, so a line feed is one wherever it stands.
* `newlineLines_unifyNewlines_lines`: the lines of such a text are those of its parts.
-/

namespace Assay

section Options

variable {α β : Type} {f : α → Option β}

theorem mapM_eq_some : ∀ {l : List α} {r : List β}, l.map f = r.map some → l.mapM f = some r
  | [], [], _ => rfl
  | a :: l, b :: r, h => by
    rw [List.map_cons, List.map_cons, List.cons_eq_cons] at h
    rw [List.mapM_cons, h.1, mapM_eq_some h.2]
    rfl

theorem mapM_eq_none {a : α} (ha : f a = none) : ∀ {l : List α}, a ∈ l → l.mapM f = none
  | b :: l, h => by
    rw [List.mapM_cons]
    rcases List.mem_cons.mp h with rfl | h
    · rw [ha]
      rfl
    · rw [mapM_eq_none ha h]
      cases f b <;> rfl

end Options

namespace Text

/-! ## Bytes of ASCII -/

/-- The reader waits for nothing that a byte of ASCII could be. -/
def Pending.Wide : Pending → Prop
  | .idle => True
  | .waiting _ _ low _ => 0x80 ≤ low

theorem Pending.first_ascii {b : Nat} (hb : b < 0x80) :
    Pending.first b = ([some (Char.ofNat b)], .idle) := by
  unfold Pending.first
  rw [if_pos hb]

theorem Pending.wide_first (b : Nat) : (Pending.first b).2.Wide := by
  unfold Pending.first
  repeat' split
  all_goals simp [Pending.Wide]

theorem Pending.wide_feed (p : Pending) (b : Nat) : (p.feed b).2.Wide := by
  cases p with
  | idle => exact wide_first b
  | waiting missing value low high =>
    unfold Pending.feed
    dsimp only
    split
    · split
      · exact trivial
      · exact Nat.le_refl 0x80
    · exact wide_first b

theorem decodeFrom_cons (p : Pending) (b : UInt8) (rest : Bytes) :
    decodeFrom p (b :: rest) = (p.feed b.toNat).1 ++ decodeFrom (p.feed b.toNat).2 rest := by
  rw [decodeFrom]

/-- **A byte of ASCII stands for itself**, whatever is around it: it ends what was pending. -/
theorem decodeFrom_append_ascii {b : UInt8} (hb : b.toNat < 0x80) (rest : Bytes) :
    ∀ (p : Pending) (bs : Bytes), p.Wide →
      decodeFrom p (bs ++ b :: rest) =
        decodeFrom p bs ++ some (Char.ofNat b.toNat) :: decodeFrom .idle rest
  | .idle, [], _ => by
    rw [List.nil_append, decodeFrom_cons]
    unfold Pending.feed
    dsimp only
    rw [Pending.first_ascii hb]
    rfl
  | .waiting missing value low high, [], hp => by
    have hlow : (decide (low ≤ b.toNat) && decide (b.toNat ≤ high)) = false := by
      have : ¬ low ≤ b.toNat := Nat.not_le.mpr (Nat.lt_of_lt_of_le hb hp)
      rw [decide_eq_false this, Bool.false_and]
    rw [List.nil_append, decodeFrom_cons]
    unfold Pending.feed
    dsimp only
    rw [hlow, if_neg Bool.false_ne_true, Pending.first_ascii hb]
    rfl
  | p, c :: bs, _ => by
    rw [List.cons_append, decodeFrom_cons, decodeFrom_cons, List.append_assoc,
      decodeFrom_append_ascii hb rest _ bs (p.wide_feed c.toNat)]

/-! ## Written characters -/

section Written

variable {b missing value low high : Nat}

theorem Pending.first_two (h : 0xC2 ≤ b) (h' : b < 0xE0) :
    Pending.first b = ([], .waiting 1 (b - 0xC0) 0x80 0xBF) := by
  unfold Pending.first
  rw [if_neg (by omega), if_neg (by omega), if_pos h']

theorem Pending.first_three (h : 0xE0 ≤ b) (h' : b < 0xF0) :
    Pending.first b = ([], .waiting 2 (b - 0xE0) (if b = 0xE0 then 0xA0 else 0x80)
      (if b = 0xED then 0x9F else 0xBF)) := by
  unfold Pending.first
  rw [if_neg (by omega), if_neg (by omega), if_neg (by omega)]
  by_cases he : b = 0xE0
  · subst he
    rfl
  · by_cases hd : b = 0xED
    · subst hd
      rfl
    · rw [if_neg he, if_neg hd, if_pos h', if_neg he, if_neg hd]

theorem Pending.first_four (h : 0xF0 ≤ b) (h' : b < 0xF5) :
    Pending.first b = ([], .waiting 3 (b - 0xF0) (if b = 0xF0 then 0x90 else 0x80)
      (if b = 0xF4 then 0x8F else 0xBF)) := by
  unfold Pending.first
  rw [if_neg (by omega), if_neg (by omega), if_neg (by omega), if_neg (by omega),
    if_neg (by omega), if_neg (by omega)]
  by_cases he : b = 0xF0
  · subst he
    rfl
  · by_cases hf : b = 0xF4
    · subst hf
      rfl
    · rw [if_neg he, if_pos (by omega), if_neg he, if_neg hf]

/-- A byte in the range that is waited for goes on with the character. -/
theorem Pending.feed_continuation (hl : low ≤ b) (hh : b ≤ high) (hm : 1 < missing) :
    (Pending.waiting missing value low high).feed b =
      ([], .waiting (missing - 1) (value * 64 + (b - 0x80)) 0x80 0xBF) := by
  unfold Pending.feed
  dsimp only
  rw [decide_eq_true hl, decide_eq_true hh, Bool.true_and, if_pos rfl,
    if_neg (Nat.not_le.mpr hm)]

/-- The last byte completes the character. -/
theorem Pending.feed_last (hl : low ≤ b) (hh : b ≤ high) :
    (Pending.waiting 1 value low high).feed b =
      ([some (Char.ofNat (value * 64 + (b - 0x80)))], .idle) := by
  unfold Pending.feed
  dsimp only
  rw [decide_eq_true hl, decide_eq_true hh, Bool.true_and, if_pos rfl, if_pos (Nat.le_refl 1)]

theorem decodeFrom_byte {p : Pending} {n : Nat} (hn : n < 256) (rest : Bytes) :
    decodeFrom p (UInt8.ofNat n :: rest) = (p.feed n).1 ++ decodeFrom (p.feed n).2 rest := by
  rw [decodeFrom_cons, UInt8.toNat_ofNat', Nat.mod_eq_of_lt hn]

variable {v : Nat}

theorem decodeFrom_two (h : 0x7F < v) (h' : v ≤ 0x7FF) (rest : Bytes) :
    decodeFrom .idle (.ofNat (v / 64 % 32 + 0xC0) :: .ofNat (v % 64 + 0x80) :: rest) =
      some (Char.ofNat v) :: decodeFrom .idle rest := by
  have hvalue : (v / 64 % 32 + 0xC0 - 0xC0) * 64 + (v % 64 + 0x80 - 0x80) = v := by omega
  have hfirst : Pending.idle.feed (v / 64 % 32 + 0xC0) = _ :=
    Pending.first_two (by omega) (by omega)
  rw [decodeFrom_byte (by omega), hfirst, decodeFrom_byte (by omega),
    Pending.feed_last (by omega) (by omega), hvalue]
  rfl

theorem decodeFrom_three (h : 0x7FF < v) (h' : v ≤ 0xFFFF) (hs : v < 0xD800 ∨ 0xDFFF < v)
    (rest : Bytes) :
    decodeFrom .idle (.ofNat (v / 4096 % 16 + 0xE0) :: .ofNat (v / 64 % 64 + 0x80) ::
        .ofNat (v % 64 + 0x80) :: rest) =
      some (Char.ofNat v) :: decodeFrom .idle rest := by
  have hvalue : ((v / 4096 % 16 + 0xE0 - 0xE0) * 64 + (v / 64 % 64 + 0x80 - 0x80)) * 64 +
      (v % 64 + 0x80 - 0x80) = v := by omega
  have hlow : (if v / 4096 % 16 + 0xE0 = 0xE0 then 0xA0 else 0x80) ≤ v / 64 % 64 + 0x80 := by
    split <;> omega
  have hhigh : v / 64 % 64 + 0x80 ≤ if v / 4096 % 16 + 0xE0 = 0xED then 0x9F else 0xBF := by
    split <;> omega
  have hfirst : Pending.idle.feed (v / 4096 % 16 + 0xE0) = _ :=
    Pending.first_three (by omega) (by omega)
  rw [decodeFrom_byte (by omega), hfirst, decodeFrom_byte (by omega),
    Pending.feed_continuation hlow hhigh (by decide), decodeFrom_byte (by omega),
    Pending.feed_last (by omega) (by omega), hvalue]
  rfl

theorem decodeFrom_four (h : 0xFFFF < v) (h' : v < 0x110000) (rest : Bytes) :
    decodeFrom .idle (.ofNat (v / 262144 % 8 + 0xF0) :: .ofNat (v / 4096 % 64 + 0x80) ::
        .ofNat (v / 64 % 64 + 0x80) :: .ofNat (v % 64 + 0x80) :: rest) =
      some (Char.ofNat v) :: decodeFrom .idle rest := by
  have hvalue : (((v / 262144 % 8 + 0xF0 - 0xF0) * 64 + (v / 4096 % 64 + 0x80 - 0x80)) * 64 +
      (v / 64 % 64 + 0x80 - 0x80)) * 64 + (v % 64 + 0x80 - 0x80) = v := by omega
  have hlow : (if v / 262144 % 8 + 0xF0 = 0xF0 then 0x90 else 0x80) ≤ v / 4096 % 64 + 0x80 := by
    split <;> omega
  have hhigh : v / 4096 % 64 + 0x80 ≤ if v / 262144 % 8 + 0xF0 = 0xF4 then 0x8F else 0xBF := by
    split <;> omega
  have hfirst : Pending.idle.feed (v / 262144 % 8 + 0xF0) = _ :=
    Pending.first_four (by omega) (by omega)
  rw [decodeFrom_byte (by omega), hfirst, decodeFrom_byte (by omega),
    Pending.feed_continuation hlow hhigh (by decide), decodeFrom_byte (by omega),
    Pending.feed_continuation (by omega) (by omega) (by decide), decodeFrom_byte (by omega),
    Pending.feed_last (by omega) (by omega), hvalue]
  rfl

/-- A written character is read back, and the reader is as before. -/
theorem decodeFrom_utf8EncodeChar (c : Char) (rest : Bytes) :
    decodeFrom .idle (String.utf8EncodeChar c ++ rest) = some c :: decodeFrom .idle rest := by
  -- Code points of the surrogates would be written in three bytes as well, but are no characters.
  have hvalid : c.toNat < 0xD800 ∨ 0xDFFF < c.toNat ∧ c.toNat < 0x110000 := c.valid
  conv => rhs; rw [← Char.ofNat_toNat c]
  unfold String.utf8EncodeChar
  dsimp only
  split
  case isTrue h1 =>
    have h1 : c.toNat ≤ 0x7F := h1
    have hfirst : Pending.idle.feed c.toNat = _ := Pending.first_ascii (Nat.lt_succ_of_le h1)
    show decodeFrom .idle (UInt8.ofNat c.toNat :: rest) = _
    rw [decodeFrom_byte (by omega), hfirst]
    rfl
  case isFalse h1 =>
    have h1 : 0x7F < c.toNat := Nat.not_le.mp h1
    split
    case isTrue h2 => exact decodeFrom_two h1 h2 rest
    case isFalse h2 =>
      have h2 : 0x7FF < c.toNat := Nat.not_le.mp h2
      split
      case isTrue h3 => exact decodeFrom_three h2 h3 (hvalid.imp_right And.left) rest
      case isFalse h3 =>
        have h3 : 0xFFFF < c.toNat := Nat.not_le.mp h3
        exact decodeFrom_four h3 (by omega) rest

end Written

/-! ## Texts -/

theorem decodeFrom_encode (cs : List Char) :
    decodeFrom .idle (cs.flatMap String.utf8EncodeChar) = cs.map some := by
  induction cs with
  | nil => rfl
  | cons c cs ih =>
    rw [List.flatMap_cons, decodeFrom_utf8EncodeChar, ih, List.map_cons]

/-- **Written text is read back.** -/
theorem decode?_encode (s : String) : decode? (encode s) = some s := by
  unfold decode? encode
  rw [decodeFrom_encode, mapM_eq_some (List.map_id _), Option.map_some, String.ofList_toList]

/-- Two texts with a line feed between them are read each by itself. -/
theorem decode?_append_newline (bs rest : Bytes) :
    decode? (bs ++ 10 :: rest) = (decode? bs).bind fun s => (decode? rest).map fun t =>
      String.ofList (s.toList ++ '\n' :: t.toList) := by
  unfold decode?
  rw [decodeFrom_append_ascii (by decide) rest .idle bs trivial, List.mapM_append, List.mapM_cons]
  cases (decodeFrom .idle bs).mapM id with
  | none => rfl
  | some cs =>
    cases (decodeFrom .idle rest).mapM id with
    | none => rfl
    | some ds =>
      show some (String.ofList (cs ++ '\n' :: ds)) = some (String.ofList _)
      rw [String.toList_ofList, String.toList_ofList]

/-- **The text of complete lines** is the text of each of them, with a line feed after it; it is
none if one of them is not valid. -/
theorem decode?_lines (bs : List Bytes) :
    decode? (bs.flatMap fun b => b ++ [10]) =
      (bs.mapM decode?).map fun ts => String.ofList (ts.flatMap fun t => t.toList ++ ['\n']) := by
  induction bs with
  | nil => rfl
  | cons b bs ih =>
    rw [List.flatMap_cons, List.append_assoc, List.singleton_append, decode?_append_newline, ih,
      List.mapM_cons]
    cases decode? b with
    | none => rfl
    | some t =>
      cases bs.mapM decode? with
      | none => rfl
      | some ts =>
        show some (String.ofList _) = some (String.ofList _)
        rw [String.toList_ofList, List.flatMap_cons, List.append_assoc, List.singleton_append]

/-! ## Lines -/

theorem unifyNewlines_cons {c : Char} {cs : List Char}
    (h : ∀ rest, c = '\r' → cs = '\n' :: rest → False) :
    unifyNewlines (c :: cs) = (if c = '\r' then '\n' else c) :: unifyNewlines cs := by
  rw [unifyNewlines]
  exact h

/-- Unifying carriage returns keeps a line feed, and goes on after it as at the start. -/
theorem unifyNewlines_append_newline (t : List Char) :
    ∃ u, ∀ rest, unifyNewlines (t ++ '\n' :: rest) = u ++ '\n' :: unifyNewlines rest := by
  fun_induction unifyNewlines t
  case case1 =>
    have hn : ('\n' : Char) ≠ '\r' := by decide
    refine ⟨[], fun rest => ?_⟩
    rw [List.nil_append, unifyNewlines_cons fun _ h => absurd h hn, if_neg hn]
    rfl
  case case2 t ih =>
    obtain ⟨u, hu⟩ := ih
    refine ⟨'\n' :: u, fun rest => ?_⟩
    rw [List.cons_append, List.cons_append, unifyNewlines, hu, List.cons_append]
  case case3 c t h ih =>
    obtain ⟨u, hu⟩ := ih
    by_cases hlast : c = '\r' ∧ t = []
    · obtain ⟨rfl, rfl⟩ := hlast
      exact ⟨[], fun rest => rfl⟩
    · -- The carriage return at the very end aside, what follows `c` is the same with and without
      -- the line feed.
      have hd : ∀ rest more, c = '\r' → t ++ '\n' :: rest = '\n' :: more → False := by
        intro rest more hc hmore
        cases t with
        | nil => exact hlast ⟨hc, rfl⟩
        | cons d t =>
          obtain ⟨rfl, -⟩ := List.cons_eq_cons.mp hmore
          exact h t hc rfl
      refine ⟨(if c = '\r' then '\n' else c) :: u, fun rest => ?_⟩
      rw [List.cons_append, unifyNewlines_cons (hd rest), hu, List.cons_append]

theorem newlineLines_cons_newline (rest : List Char) :
    newlineLines ('\n' :: rest) = [] :: newlineLines rest := by
  rw [newlineLines, if_pos rfl]

theorem newlineLines_ne_nil {cs : List Char} (h : cs ≠ []) : newlineLines cs ≠ [] := by
  cases cs with
  | nil => exact absurd rfl h
  | cons c cs =>
    rw [newlineLines]
    split
    · exact List.cons_ne_nil _ _
    · split
      · exact List.cons_ne_nil _ _
      · exact List.cons_ne_nil _ _

theorem newlineLines_append_line (l rest : List Char) :
    newlineLines (l ++ '\n' :: rest) = newlineLines (l ++ ['\n']) ++ newlineLines rest := by
  induction l with
  | nil =>
    rw [List.nil_append, List.nil_append, newlineLines_cons_newline, newlineLines_cons_newline]
    rfl
  | cons c l ih =>
    rw [List.cons_append, List.cons_append, newlineLines, newlineLines, ih]
    split
    · rfl
    · cases hl : newlineLines (l ++ ['\n']) with
      | nil =>
        exact absurd hl (newlineLines_ne_nil (List.append_ne_nil_of_right_ne_nil l (by simp)))
      | cons line more => rfl

/-- The lines that a text with a line feed after it is read as: carriage returns cut it further. -/
def piecesOf (s : String) : List (List Char) :=
  newlineLines (unifyNewlines (s.toList ++ ['\n']))

theorem newlineLines_unifyNewlines_line (s : String) (rest : List Char) :
    newlineLines (unifyNewlines (s.toList ++ '\n' :: rest)) =
      piecesOf s ++ newlineLines (unifyNewlines rest) := by
  obtain ⟨u, hu⟩ := unifyNewlines_append_newline s.toList
  unfold piecesOf
  rw [hu, hu, newlineLines_append_line]
  rfl

/-- **The lines of complete lines** are those of each of them. -/
theorem newlineLines_unifyNewlines_lines (ts : List String) :
    newlineLines (unifyNewlines (ts.flatMap fun t => t.toList ++ ['\n'])) =
      ts.flatMap piecesOf := by
  induction ts with
  | nil => rfl
  | cons t ts ih =>
    rw [List.flatMap_cons, List.append_assoc, List.singleton_append,
      newlineLines_unifyNewlines_line, ih, List.flatMap_cons]

theorem unifyNewlines_eq_self {cs : List Char} (h : '\r' ∉ cs) : unifyNewlines cs = cs := by
  induction cs with
  | nil => rfl
  | cons c cs ih =>
    rw [List.mem_cons, not_or] at h
    rw [unifyNewlines_cons fun _ hc => absurd hc.symm h.1, if_neg (Ne.symm h.1), ih h.2]

/-- A text without line ends is one line. -/
theorem piecesOf_eq_singleton {s : String} (hn : '\n' ∉ s.toList) (hr : '\r' ∉ s.toList) :
    piecesOf s = [s.toList] := by
  have hr' : '\r' ∉ s.toList ++ ['\n'] := by
    rw [List.mem_append, List.mem_singleton]
    exact not_or.mpr ⟨hr, by decide⟩
  unfold piecesOf
  rw [unifyNewlines_eq_self hr', newlineLines_append_newline hn]
  rfl

end Text

end Assay

import Assay.Flag
import Mathlib.Data.Bool.AllAny

/-!
# Flag templates mean what they say

A template is a list of segments: texts, slots for the values of a job, and keys that no value has.
`Segment.written` is how a segment is written in a flag. A flag that is written so is cut back into
its segments and nowhere else, however many braces come together where two segments meet:
`pieces_written` for one segment with anything behind it, and by induction `pieces_flag`. So
formatting puts the texts and the values together, or names the first strange key:
`format_template`.
-/

namespace Assay.Flag

/-! ## Templates -/

/-- The values that have a key. -/
inductive Slot where
  | entry
  | file
  | outputDir
  deriving DecidableEq, Repr

def Slot.key : Slot → String
  | .entry => "entry"
  | .file => "file"
  | .outputDir => "output_dir"

def Slot.value (v : Values) : Slot → String
  | .entry => v.entry
  | .file => v.file
  | .outputDir => v.outputDir

/-- A key that can be written between braces, but that no value has. -/
structure StrangeKey where
  key : String
  braceless : ∀ c ∈ key.toList, isBrace c = false
  strange : ∀ s : Slot, key ≠ s.key

inductive Segment where
  | text (s : String)
  | slot (s : Slot)
  | strange (k : StrangeKey)

def doubleBrace (c : Char) : List Char :=
  if isBrace c then [c, c] else [c]

/-- A text with every brace doubled. -/
def doubled (s : String) : String :=
  String.ofList (s.toList.flatMap doubleBrace)

def hole (key : String) : String :=
  "\x7b" ++ key ++ "\x7d"

namespace Segment

def written : Segment → String
  | .text s => doubled s
  | .slot s => hole s.key
  | .strange k => hole k.key

/-- What the segment stands for, if it stands for something. -/
def value? (v : Values) : Segment → Option String
  | .text s => some s
  | .slot s => some (s.value v)
  | .strange _ => none

def strangeKey? : Segment → Option String
  | .strange k => some k.key
  | _ => none

/-- The pieces that the segment is read as. -/
def pieces : Segment → List Piece
  | .text s => s.toList.map .plain
  | .slot s => [.placeholder s.key.toList]
  | .strange k => [.placeholder k.key.toList]

end Segment

/-- A template as a flag. -/
def flagOf (template : List Segment) : String :=
  String.join (template.map Segment.written)

variable {c : Char} {cs key rest : List Char} {v : Values}

/-! ## How a flag is cut -/

theorem Slot.braceless (s : Slot) : ∀ c ∈ s.key.toList, isBrace c = false := by
  cases s <;> exact List.all_iff_forall_prop.mp (by decide)

theorem pieces_nil : pieces [] = [] := by
  rw [pieces]

theorem pieces_plain_cons (hc : isBrace c = false) (rest : List Char) :
    pieces (c :: rest) = .plain c :: pieces rest := by
  have hne : c ≠ openBrace := by
    rintro rfl
    cases hc
  rw [pieces, hc, Bool.false_and, if_neg Bool.false_ne_true, if_neg hne]

theorem pieces_brace_cons (hc : isBrace c = true) (rest : List Char) :
    pieces (c :: c :: rest) = .plain c :: pieces rest := by
  have hpair : (isBrace c && decide ((c :: rest).head? = some c)) = true := by
    rw [hc, Bool.true_and]
    exact decide_eq_true rfl
  rw [pieces, if_pos hpair]
  rfl

/-- Every character of a doubled text is read on its own, whatever follows the text. -/
theorem pieces_doubled (cs rest : List Char) :
    pieces (cs.flatMap doubleBrace ++ rest) = cs.map .plain ++ pieces rest := by
  induction cs with
  | nil => rfl
  | cons c cs ih =>
    rw [List.flatMap_cons, List.append_assoc, List.map_cons, List.cons_append, ← ih]
    unfold doubleBrace
    split
    case isTrue hc => exact pieces_brace_cons hc _
    case isFalse hc => exact pieces_plain_cons (Bool.eq_false_iff.mpr hc) _

theorem key?_append (hkey : ∀ c ∈ key, isBrace c = false) (rest : List Char) :
    key? (key ++ closeBrace :: rest) = some (key, rest) := by
  have hplain : ∀ c ∈ key, (!isBrace c) = true := fun c hc => by rw [hkey c hc]; rfl
  unfold key?
  rw [List.dropWhile_append_of_pos hplain, List.takeWhile_append_of_pos hplain]
  show some (key ++ [], rest) = _
  rw [List.append_nil]

/-- A hole is read as a placeholder, whatever follows it: its first brace has no twin, for the key
is braceless. -/
theorem pieces_hole (hkey : ∀ c ∈ key, isBrace c = false) (rest : List Char) :
    pieces (openBrace :: (key ++ closeBrace :: rest)) = .placeholder key :: pieces rest := by
  have hhead : (key ++ closeBrace :: rest).head? ≠ some openBrace := by
    cases key with
    | nil => exact fun h => absurd (Option.some.inj h) (by decide)
    | cons c key =>
      intro h
      have hc := hkey c List.mem_cons_self
      rw [show c = openBrace from Option.some.inj h] at hc
      cases hc
  have hpair : ¬ (isBrace openBrace && decide ((key ++ closeBrace :: rest).head? =
      some openBrace)) = true := by
    rw [decide_eq_false hhead, Bool.and_false]
    exact Bool.false_ne_true
  rw [pieces, if_neg hpair, if_pos rfl]
  split
  case h_1 key' after h =>
    rw [key?_append hkey] at h
    cases h
    rfl
  case h_2 h =>
    rw [key?_append hkey] at h
    cases h

theorem toList_hole (key : String) (rest : List Char) :
    (hole key).toList ++ rest = openBrace :: (key.toList ++ closeBrace :: rest) := by
  unfold hole
  rw [String.toList_append, String.toList_append, List.append_assoc, List.append_assoc]
  rfl

/-- **A written segment is read as the segment**, whatever follows it. -/
theorem pieces_written (s : Segment) (rest : List Char) :
    pieces (s.written.toList ++ rest) = s.pieces ++ pieces rest := by
  cases s with
  | text s =>
    show pieces ((doubled s).toList ++ rest) = _
    unfold doubled
    rw [String.toList_ofList]
    exact pieces_doubled s.toList rest
  | slot s =>
    show pieces ((hole s.key).toList ++ rest) = _
    rw [toList_hole]
    exact pieces_hole s.braceless rest
  | strange k =>
    show pieces ((hole k.key).toList ++ rest) = _
    rw [toList_hole]
    exact pieces_hole k.braceless rest

/-- A flag is cut where the segments of its template meet. -/
theorem pieces_flag (template : List Segment) :
    pieces (flagOf template).toList = template.flatMap Segment.pieces := by
  unfold flagOf
  induction template with
  | nil => exact pieces_nil
  | cons s template ih =>
    rw [List.map_cons, String.join_cons, String.toList_append, pieces_written, ih,
      List.flatMap_cons]

/-! ## How the pieces are put together -/

theorem assemble_plain (v : Values) (cs : List Char) (ps : List Piece) :
    assemble v (cs.map .plain ++ ps) = (assemble v ps).map (cs ++ ·) := by
  induction cs with
  | nil => cases hps : assemble v ps <;> simp [hps, Except.map]
  | cons c cs ih =>
    show (assemble v (cs.map .plain ++ ps)).map ([c] ++ ·) = _
    rw [ih]
    cases assemble v ps <;> rfl

theorem Slot.get?_key (s : Slot) : v.get? s.key = some (s.value v) := by
  cases s <;> rfl

theorem StrangeKey.get? (k : StrangeKey) : v.get? k.key = none := by
  have hentry : k.key ≠ "entry" := k.strange .entry
  have hfile : k.key ≠ "file" := k.strange .file
  have houtput : k.key ≠ "output_dir" := k.strange .outputDir
  unfold Values.get?
  rw [if_neg hentry, if_neg hfile, if_neg houtput]

/-- A segment that stands for something comes before the rest. -/
theorem assemble_of_value {s : Segment} {text : String} (h : s.value? v = some text)
    (ps : List Piece) :
    assemble v (s.pieces ++ ps) = (assemble v ps).map (text.toList ++ ·) := by
  cases s with
  | text s =>
    cases h
    exact assemble_plain v _ ps
  | slot s =>
    cases h
    show assemble v (.placeholder s.key.toList :: ps) = _
    rw [assemble, pieceText, String.ofList_toList, s.get?_key]
  | strange k => cases h

theorem assemble_strange (k : StrangeKey) (ps : List Piece) :
    assemble v ((Segment.strange k).pieces ++ ps) = .error k.key := by
  show assemble v (.placeholder k.key.toList :: ps) = _
  rw [assemble, pieceText, String.ofList_toList, k.get?]

/-- A segment stands for something, or it is a strange key. -/
theorem Segment.known_or_strange (v : Values) (s : Segment) :
    (∃ text, s.value? v = some text ∧ s.strangeKey? = none) ∨ ∃ k, s = .strange k := by
  cases s with
  | text s => exact .inl ⟨s, rfl, rfl⟩
  | slot s => exact .inl ⟨s.value v, rfl, rfl⟩
  | strange k => exact .inr ⟨k, rfl⟩

/-- The first strange key is the fault, and without one the template is put together. -/
theorem assemble_template (v : Values) (template : List Segment) :
    assemble v (template.flatMap Segment.pieces) =
      match template.findSome? Segment.strangeKey? with
      | none => .ok (String.join (template.filterMap (Segment.value? v))).toList
      | some key => .error key := by
  induction template with
  | nil => rfl
  | cons s template ih =>
    rw [List.flatMap_cons]
    rcases s.known_or_strange v with ⟨text, hvalue, hknown⟩ | ⟨k, rfl⟩
    · rw [assemble_of_value hvalue, ih, List.findSome?_cons, hknown,
        List.filterMap_cons_some hvalue, String.join_cons, String.toList_append]
      dsimp only
      cases template.findSome? Segment.strangeKey? <;> rfl
    · rw [assemble_strange]
      rfl

/-! ## What a flag says -/

theorem format_flagOf (v : Values) (template : List Segment) :
    format v (flagOf template) =
      match template.findSome? Segment.strangeKey? with
      | none => .ok (String.join (template.filterMap (Segment.value? v)))
      | some key => .error (.unknownPlaceholder key (flagOf template)) := by
  unfold format
  rw [pieces_flag, assemble_template]
  cases template.findSome? Segment.strangeKey? with
  | none =>
    dsimp only
    rw [String.ofList_toList]
  | some key => rfl

/-- Formatting undoes the doubling of braces. -/
theorem format_doubled (v : Values) (s : String) : format v (doubled s) = .ok s := by
  have hjoin : ∀ t : String, String.join [t] = t := fun t => by
    rw [String.join_cons, String.join_nil, String.append_empty]
  have hflag : flagOf [.text s] = doubled s := hjoin (doubled s)
  have hs := format_flagOf v [.text s]
  rw [hflag] at hs
  exact hs.trans (congrArg Except.ok (hjoin s))

/-- **A template means what it says.** Written as a flag and formatted, it is its texts and the
values of its slots, one after the other and each as it is, whatever braces are in them. With a
strange key it is a fault, which names the first of them and shows the flag. A text alone is got
back from its doubled braces. -/
theorem format_template (v : Values) (template : List Segment) :
    (match template.findSome? Segment.strangeKey? with
      | none => format v (flagOf template) =
          .ok (String.join (template.filterMap (Segment.value? v)))
      | some key => ∃ fault, format v (flagOf template) = .error fault ∧
          fault.message = "Unknown placeholder '\x7b" ++ key ++ "\x7d' in backend flag '" ++
            flagOf template ++ "'") ∧
      ∀ s, format v (doubled s) = .ok s := by
  refine ⟨?_, format_doubled v⟩
  have hformat := format_flagOf v template
  cases hkey : template.findSome? Segment.strangeKey? with
  | none =>
    rw [hkey] at hformat
    exact hformat
  | some key =>
    rw [hkey] at hformat
    exact ⟨_, hformat, rfl⟩

/-- A value with braces in it, behind a brace of the flag. -/
example : format ⟨"\x7bfile\x7d", "t.bc", "out"⟩ "\x7b\x7b\x7bentry\x7d" =
    .ok "\x7b\x7bfile\x7d" := by
  cbv

end Assay.Flag

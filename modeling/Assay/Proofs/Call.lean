import Assay.Host
import Mathlib.Data.Bool.AllAny

/-!
# What can be wrong with a call

Two things keep a call from being carried out. A text of it holds a null character, and then there
is no process; or its limit is no span of time that a system waits, which shows when the process has
been started. `fault?_eq_some_iff` tells them apart, and `limitFault?_eq_none_iff` says which limits
will do.

On a host that heeds this, a call is given up exactly for such a fault, `Host.Heeds.abandoned_iff`.
Every host can be made to heed it: `Host.heeds_heeding`.
-/

namespace Assay

open Number.Binary64 (fraction)

namespace Call

variable {c : Call} {s : Number.Binary64} {f : CallFault}

/-! ## Limits -/

theorem fraction_pos (m : Nat) (e : Int) : 0 < (fraction m e).2 := by
  unfold fraction
  split
  · exact Nat.one_pos
  · exact Nat.two_pow_pos _

/-- A fraction is at most a whole number if the next whole number is. -/
theorem roundUp_le_iff {num den n : Nat} (hden : 0 < den) :
    (num + den - 1) / den ≤ n ↔ num ≤ n * den := by
  rw [← Nat.lt_succ_iff, Nat.div_lt_iff_lt_mul hden, Nat.succ_mul]
  omega

theorem limitFault?_finite_iff {m : Nat} {e : Int} : limitFault? (.finite false m e) = none ↔
    1000 * (fraction m e).1 ≤ maxWait * (fraction m e).2 := by
  rw [← roundUp_le_iff (fraction_pos m e)]
  simp only [limitFault?, Bool.false_eq_true, if_false]
  generalize (1000 * (fraction m e).1 + (fraction m e).2 - 1) / (fraction m e).2 = waited
  by_cases hlong : maxWait < waited
  · rw [if_pos hlong]
    refine iff_of_false ?_ (Nat.not_le.mpr hlong)
    split
    · exact Option.some_ne_none _
    · exact Option.some_ne_none _
  · -- what is waited for is less than the clock can count
    have hclock : ¬ maxClock < 1000000 * waited := by
      unfold maxWait at hlong
      unfold maxClock
      omega
    rw [if_neg hclock, if_neg hlong]
    exact iff_of_true rfl (Nat.not_lt.mp hlong)

/-- **Which limits will do**: those below zero, and those of at most as many milliseconds as are
waited for. -/
theorem limitFault?_eq_none_iff : limitFault? s = none ↔
    s = .infinite true ∨ (∃ m e, s = .finite true m e) ∨
      ∃ m e, s = .finite false m e ∧ 1000 * (fraction m e).1 ≤ maxWait * (fraction m e).2 := by
  cases s with
  | nan => simp [limitFault?]
  | infinite negative => cases negative <;> simp [limitFault?]
  | finite negative m e =>
    cases negative with
    | true => simp [limitFault?]
    | false =>
      rw [limitFault?_finite_iff]
      constructor
      · exact fun hle => .inr (.inr ⟨m, e, rfl, hle⟩)
      · rintro (hs | ⟨_, _, hs⟩ | ⟨_, _, hs, hle⟩)
        · cases hs
        · cases hs
        · cases hs
          exact hle

/-! ## Calls -/

theorem hasNull_iff : c.hasNull = true ↔ ∃ s ∈ c.texts, Disk.hasNull s = true :=
  List.any_eq_true

theorem fault?_of_hasNull (hn : c.hasNull = true) : c.fault? = some .nullByte :=
  if_pos hn

/-- **What keeps a call from being carried out** is a null character or else its limit. -/
theorem fault?_eq_some_iff : c.fault? = some f ↔
    c.hasNull = true ∧ f = .nullByte ∨
      c.hasNull = false ∧ ∃ s ∈ c.limit, limitFault? s = some f := by
  unfold fault?
  cases c.hasNull with
  | true => simp [eq_comm]
  | false => simp [Option.bind_eq_some_iff]

/-- A process that is given up when it has been started has a limit to blame. -/
theorem limitFault_of_isLate (hf : c.fault? = some f) (hl : f.isLate = true) :
    ∃ s ∈ c.limit, limitFault? s = some f := by
  rcases fault?_eq_some_iff.mp hf with ⟨-, rfl⟩ | ⟨-, hlimit⟩
  · cases hl
  · exact hlimit

end Call

namespace Host

variable {h : Host} {before : List Call} {c : Call} {d : Disk} {f : CallFault}

/-- **A host that heeds what is wrong with a call** gives it up for that, unless it refuses to start
the process, which a null character keeps it from. -/
theorem Heeds.abandoned_iff (hh : h.Heeds) : (h.behave before c d).2 = .abandoned f ↔
    c.fault? = some f ∧ ∀ g, (h.behave before c d).2 ≠ .refused g := by
  constructor
  · intro he
    refine ⟨hh.abandoned _ _ _ _ he, fun g hg => ?_⟩
    rw [hg] at he
    cases he
  · rintro ⟨hf, hstarted⟩
    rcases he : (h.behave before c d).2 with g | g | ⟨code, out, err, overruns⟩
    · exact absurd he (hstarted g)
    · rw [hh.abandoned _ _ _ _ he, Option.some.injEq] at hf
      rw [hf]
    · rw [hh.ended _ _ _ _ _ _ _ he] at hf
      cases hf

theorem Heeds.abandoned_of_hasNull (hh : h.Heeds) (hn : c.hasNull = true) :
    (h.behave before c d).2 = .abandoned .nullByte := by
  refine hh.abandoned_iff.mpr ⟨Call.fault?_of_hasNull hn, fun g hg => ?_⟩
  rw [hh.refused _ _ _ _ hg] at hn
  cases hn

/-- For want of a limit there is only one thing that can be wrong. -/
theorem Heeds.abandoned_unlimited_iff (hh : h.Heeds) (hl : c.limit = none) :
    (h.behave before c d).2 = .abandoned f ↔ c.hasNull = true ∧ f = .nullByte := by
  constructor
  · intro he
    rcases Call.fault?_eq_some_iff.mp (hh.abandoned _ _ _ _ he) with hn | ⟨-, s, hs, -⟩
    · exact hn
    · rw [hl] at hs
      cases hs
  · rintro ⟨hn, rfl⟩
    exact hh.abandoned_of_hasNull hn

/-- A process that has been started is given up exactly for its limit. -/
theorem Heeds.abandoned_started_iff (hh : h.Heeds)
    (hs : (h.behave before c d).2.isStarted = true) :
    (∃ f, (h.behave before c d).2 = .abandoned f) ↔
      ∃ s ∈ c.limit, Call.limitFault? s ≠ none := by
  constructor
  · rintro ⟨f, he⟩
    rw [he] at hs
    obtain ⟨s, hmem, hf⟩ := Call.limitFault_of_isLate (hh.abandoned _ _ _ _ he) hs
    exact ⟨s, hmem, hf ▸ Option.some_ne_none f⟩
  · rintro ⟨s, hmem, hne⟩
    obtain ⟨f, hf⟩ := Option.ne_none_iff_exists'.mp hne
    cases hn : c.hasNull with
    | true => exact ⟨_, hh.abandoned_of_hasNull hn⟩
    | false =>
      refine ⟨f, hh.abandoned_iff.mpr ⟨?_, fun g hg => ?_⟩⟩
      · exact Call.fault?_eq_some_iff.mpr (.inr ⟨hn, s, hmem, hf⟩)
      · rw [hg] at hs
        cases hs

/-- The host as it is with systems that heed what is wrong with a call. -/
def heeding (h : Host) : Host where
  environment := h.environment
  installed := h.installed
  processors := h.processors
  pinned := h.pinned
  behave before c d :=
    if c.hasNull then (d, .abandoned .nullByte)
    else
      match h.behave before c d, c.limit.bind Call.limitFault? with
      | (d', .refused f), _ => (d', .refused f)
      | (d', _), some f => (d', .abandoned f)
      | (d', .ended code out err overruns), none => (d', .ended code out err overruns)
      | (d', .abandoned _), none => (d', .ended 0 [] [] false)
  maxDepth := h.maxDepth
  maxMissing := h.maxMissing

/-- **Every host can be made to heed** what is wrong with calls. -/
theorem heeds_heeding (h : Host) : h.heeding.Heeds := by
  have hcases : ∀ before c d, c.hasNull = true ∧
        (h.heeding.behave before c d).2 = .abandoned .nullByte ∨
      c.hasNull = false ∧ ((∃ f, (h.heeding.behave before c d).2 = .refused f) ∨
        (∃ f, c.fault? = some f ∧ (h.heeding.behave before c d).2 = .abandoned f) ∨
        c.fault? = none ∧
          ∃ code out err overruns,
            (h.heeding.behave before c d).2 = .ended code out err overruns) := by
    intro before c d
    cases hn : c.hasNull with
    | true => simp [heeding, hn]
    | false =>
      have hfault : c.fault? = c.limit.bind Call.limitFault? := by
        unfold Call.fault?
        rw [hn, if_neg Bool.false_ne_true]
      rcases hb : h.behave before c d with ⟨d', g | g | ⟨code, out, err, overruns⟩⟩
      all_goals
        rcases hl : c.limit.bind Call.limitFault? with _ | f
        all_goals simp [heeding, hn, hb, hl, hfault]
  constructor
  · intro before c d f he
    rcases hcases before c d with ⟨-, hr⟩ | ⟨hn, -⟩
    · rw [hr] at he
      cases he
    · exact hn
  · intro before c d f he
    rcases hcases before c d with ⟨hn, hr⟩ | ⟨-, ⟨g, hr⟩ | ⟨g, hf, hr⟩ | ⟨-, _, _, _, _, hr⟩⟩
    all_goals rw [hr] at he
    · cases he
      exact Call.fault?_of_hasNull hn
    · cases he
    · cases he
      exact hf
    · cases he
  · intro before c d code out err overruns he
    rcases hcases before c d with ⟨-, hr⟩ | ⟨-, ⟨g, hr⟩ | ⟨g, -, hr⟩ | ⟨hf, -⟩⟩
    · rw [hr] at he
      cases he
    · rw [hr] at he
      cases he
    · rw [hr] at he
      cases he
    · exact hf

end Host

end Assay

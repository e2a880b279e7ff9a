import Assay.Manifest
import Assay.Proofs.Action

/-!
# What a manifest says

`Lists` says that a file is a manifest with these jobs. Loading it gives the jobs that the filters
choose, in the order of the manifest: `load_ok` takes a finished load apart, and `select_eq_filter`
says that the selection is a filter on the names if every name chosen is a text.

How many jobs were asked for is read only without filters.
-/

namespace Assay.Manifest

variable {h : Host} {w w' : World} {path : Path} {filters : List (Given String)}
  {records jobs : List JobRecord} {members : List (Json.Literal × Json)}

/-! ## Filters -/

/-- Whether the name of a job holds a filter. Only texts hold texts, and nothing holds nothing. -/
def holdsFilter (r : JobRecord) (filter : Given String) : Bool :=
  match filter, r.displayName.text? with
  | .value text, some name => Text.contains text name
  | _, _ => false

/-- Whether the filters choose a job: its name holds one of them, or there are none. -/
def chosen (filters : List (Given String)) (r : JobRecord) : Bool :=
  filters.isEmpty || filters.any (holdsFilter r)

/-- The name of a job that is chosen is a text, so choosing is a matter of texts. -/
theorem passes_eq_any {r : JobRecord} {b : Bool} (hp : passes r.displayName filters = .ok b)
    (ht : b = true → r.displayName.text?.isSome) : b = filters.any (holdsFilter r) := by
  cases hn : r.displayName.text? with
  | none =>
    have hb : b = false := by
      rw [Bool.eq_false_iff]
      intro hb
      rw [hn] at ht
      exact absurd (ht hb) Bool.false_ne_true
    have hany : ∀ f ∈ filters, ¬ holdsFilter r f = true := by
      intro f _
      unfold holdsFilter
      rw [hn]
      cases f <;> exact Bool.false_ne_true
    rw [hb, List.any_eq_false.mpr hany]
  | some name =>
    have hname : r.displayName = .text name := by
      revert hn
      cases r.displayName with
      | literal l =>
        cases l with
        | whole s =>
          intro hn
          rw [Option.some.inj hn]
        | ragged gs => exact fun hn => by cases hn
      | _ => exact fun hn => by cases hn
    clear ht
    induction filters generalizing b with
    | nil =>
      cases hp
      rfl
    | cons f rest ih =>
      rw [passes, except_bind_ok_iff] at hp
      obtain ⟨first, hf, hp⟩ := hp
      cases f with
      | nothing =>
        rw [hname] at hf
        cases hf
      | value text =>
        have hfirst : first = Text.contains text name := by
          rw [hname] at hf
          cases hf
          rfl
        have hholds : holdsFilter r (.value text) = first := by
          unfold holdsFilter
          rw [hn, hfirst]
        rw [List.any_cons, hholds]
        cases first with
        | true =>
          rw [if_pos rfl] at hp
          cases hp
          rfl
        | false =>
          rw [if_neg Bool.false_ne_true] at hp
          rw [Bool.false_or]
          exact ih hp

/-- **The selection is a filter** on the names, if every name that it chooses is a text. -/
theorem select_eq_filter (hs : select filters records = .ok jobs)
    (ht : ∀ r ∈ jobs, r.displayName.text?.isSome) :
    jobs = records.filter fun r => filters.any (holdsFilter r) := by
  induction records generalizing jobs with
  | nil =>
    cases hs
    rfl
  | cons r rest ih =>
    rw [select, except_bind_ok_iff] at hs
    obtain ⟨passed, hp, hs⟩ := hs
    rw [except_bind_ok_iff] at hs
    obtain ⟨more, hmore, hs⟩ := hs
    cases passed with
    | true =>
      obtain rfl : r :: more = jobs := by
        cases hs
        rfl
      have hr := passes_eq_any hp fun _ => ht r List.mem_cons_self
      rw [List.filter_cons, ← hr, if_pos rfl,
        ← ih hmore fun r hr => ht r (List.mem_cons_of_mem _ hr)]
    | false =>
      obtain rfl : more = jobs := by
        cases hs
        rfl
      have hr := passes_eq_any hp fun hb => absurd hb Bool.false_ne_true
      rw [List.filter_cons, ← hr, if_neg Bool.false_ne_true, ← ih hmore ht]

/-! ## Loading -/

/-- The file at a path is a manifest with these members and these jobs; its values are nested no
deeper than this. -/
structure Lists (depth : Nat) (d : Disk) (path : Path) (members : List (Json.Literal × Json))
    (records : List JobRecord) : Prop where
  content : ∃ content text, d.read path.text = .ok content ∧ Text.decode? content = some text ∧
    Json.parse (String.ofList (Text.unifyNewlines text.toList)) depth = .ok (.object members)
  jobs : ∃ artifact, Json.member? members "artifact" = some artifact ∧
    jobsOf members artifact = .ok records

theorem readJson_ok {v : Json} (hr : (readJson path).run h w = (.ok v, w')) :
    w = w' ∧ ∃ content text, w.disk.read path.text = .ok content ∧
      Text.decode? content = some text ∧
      Json.parse (String.ofList (Text.unifyNewlines text.toList)) h.maxDepth = .ok v := by
  obtain ⟨_, w₁, hnull, hr⟩ := Action.bind_ok_iff.mp hr
  unfold Action.refuseNull at hnull
  split at hnull
  case isTrue => cases hnull
  case isFalse =>
    obtain ⟨-, rfl⟩ := Action.pure_ok_iff.mp hnull
    rw [Action.bind_of_ok (Action.disk_run h w)] at hr
    cases hc : w.disk.read path.text with
    | error f =>
      rw [hc] at hr
      cases hr
    | ok content =>
      rw [hc] at hr
      cases ht : Text.decode? content with
      | none =>
        simp only [ht] at hr
        cases hr
      | some text =>
        simp only [ht] at hr
        rw [Action.bind_of_ok (Action.host_run h w)] at hr
        split at hr
        case h_1 v' hv =>
          obtain ⟨rfl, hw⟩ := Action.pure_ok_iff.mp hr
          exact ⟨hw, content, text, rfl, ht, hv⟩
        all_goals cases hr

/-- What a manifest's value gives, with and without filters. -/
theorem ofJson_ok {value : Json} {m : Manifest} (ho : ofJson path filters value = .ok m) :
    ∃ members records, value = .object members ∧
      (∃ artifact, Json.member? members "artifact" = some artifact ∧
        jobsOf members artifact = .ok records) ∧
      if filters = [] then m.jobs = records ∧ requestedOf members = .ok m.requested
      else select filters records = .ok m.jobs := by
  unfold ofJson at ho
  split at ho
  case h_2 => cases ho
  case h_1 members =>
    split at ho
    case h_1 => cases ho
    case h_2 artifact ha =>
      obtain ⟨records, hj, ho⟩ := except_bind_ok_iff.mp ho
      rw [mapError_ok_iff] at hj
      refine ⟨members, records, rfl, ⟨artifact, ha, hj⟩, ?_⟩
      split at ho
      case isTrue he =>
        obtain ⟨requested, hq, ho⟩ := except_bind_ok_iff.mp ho
        rw [mapError_ok_iff] at hq
        cases ho
        rw [if_pos (List.isEmpty_iff.mp he)]
        exact ⟨rfl, hq⟩
      case isFalse he =>
        obtain ⟨jobs, hs, ho⟩ := except_bind_ok_iff.mp ho
        cases ho
        rw [if_neg fun hnil => he (List.isEmpty_iff.mpr hnil)]
        exact hs

/-- **A finished load** has read a manifest: its jobs are those chosen, if their names are texts,
and without filters the number asked for is the manifest's. -/
theorem load_ok {m : Manifest} (hl : (load path filters).run h w = (.ok m, w')) :
    w = w' ∧ ∃ members records, Lists h.maxDepth w.disk path members records ∧
      ((∀ r ∈ m.jobs, r.displayName.text?.isSome) → m.jobs = records.filter (chosen filters)) ∧
      (filters = [] → requestedOf members = .ok m.requested) := by
  obtain ⟨value, w₁, hr, hl⟩ := Action.bind_ok_iff.mp hl
  obtain ⟨ho, rfl⟩ := Action.ofExcept_ok_iff.mp hl
  obtain ⟨rfl, content, text, hc, ht, hp⟩ := readJson_ok hr
  obtain ⟨members, records, rfl, hartifact, hjobs⟩ := ofJson_ok ho
  refine ⟨rfl, members, records, ⟨⟨content, text, hc, ht, hp⟩, hartifact⟩, ?_, ?_⟩
  · intro htexts
    split at hjobs
    case isTrue hnil =>
      have hall : ∀ r ∈ records, chosen filters r = true := by
        intro r _
        rw [hnil]
        rfl
      rw [hjobs.1, List.filter_eq_self.mpr hall]
    case isFalse hne =>
      have hempty : filters.isEmpty = false := List.isEmpty_eq_false_iff.mpr hne
      have hchosen : chosen filters = fun r => filters.any (holdsFilter r) := by
        funext r
        rw [chosen, hempty, Bool.false_or]
      rw [hchosen]
      exact select_eq_filter hjobs htexts
  · intro hnil
    rw [if_pos hnil] at hjobs
    exact hjobs.2

/-- A number that was asked for is what the member says. -/
theorem requestedOf_ok {n : Option Int} {v : Json} (hq : requestedOf members = .ok n)
    (hv : Json.member? members "requested" = some v) (hnull : v ≠ .null) :
    ∃ count, countOf v = .ok count ∧ n = some count := by
  unfold requestedOf at hq
  rw [hv] at hq
  split at hq
  case h_1 heq => cases heq
  case h_2 heq => exact absurd (Option.some.inj heq) hnull
  case h_3 v' _ heq =>
    cases heq
    cases hc : countOf v with
    | error f =>
      rw [hc] at hq
      cases hq
    | ok count =>
      rw [hc] at hq
      cases hq
      exact ⟨count, rfl, rfl⟩

end Assay.Manifest

import Assay.Proofs.Manifest
import Assay.Proofs.Report

/-!
# What loading a manifest ends in

`load_settled_iff`: loading either refuses the manifest as a setup fault, or returns the jobs that
the filters choose, in order and all with a name and an entry symbol, and the number asked for; that
is `Settled`. It does so exactly unless the manifest `Strays`: its path or its bytes are no text, it
holds a number of too many digits or is nested too deeply, or a value is of a kind that nobody looks
at before it is used. These are the number asked for, a name that a filter is looked up in, and the
name and symbol of a job that is chosen.

Loading looks at the disk and changes nothing, so that it is a function of it: `load_run`.
-/

namespace Assay.JobRecord

/-- A job that was read has a name and a symbol, and its path was read from a value: the shared one,
if there is one. -/
theorem ofJson_ok {value shared : Json} {r : JobRecord} (ho : ofJson value shared = .ok r) :
    r.displayName.isVacant = false ∧ r.entrySymbol.isVacant = false ∧
      ∃ artifact, path artifact = .ok r.artifact ∧ (shared ≠ .null → artifact = shared) := by
  obtain ⟨displayName, -, ho⟩ := except_bind_ok_iff.mp ho
  obtain ⟨entrySymbol, -, ho⟩ := except_bind_ok_iff.mp ho
  -- Wherever the binary comes from, the names are checked next.
  have hchecked : ∀ artifact : Json, (do
      let artifact ← path artifact
      if displayName.isVacant then .error (.emptyName "display_name")
      else if entrySymbol.isVacant then .error (.emptyName "entry_symbol")
      else .ok ⟨displayName, entrySymbol, artifact⟩) = Except.ok (ε := RecordFault) r →
      r.displayName.isVacant = false ∧ r.entrySymbol.isVacant = false ∧
        path artifact = .ok r.artifact := by
    intro artifact hc
    obtain ⟨found, hpath, hc⟩ := except_bind_ok_iff.mp hc
    split at hc
    case isTrue => cases hc
    case isFalse hname =>
      split at hc
      case isTrue => cases hc
      case isFalse hentry =>
        cases hc
        exact ⟨Bool.eq_false_iff.mpr hname, Bool.eq_false_iff.mpr hentry, hpath⟩
  dsimp only at ho
  split at ho
  case h_1 =>
    obtain ⟨artifact, -, ho⟩ := except_bind_ok_iff.mp ho
    obtain ⟨hname, hentry, hpath⟩ := hchecked artifact ho
    exact ⟨hname, hentry, artifact, hpath, fun h => absurd rfl h⟩
  case h_2 =>
    obtain ⟨hname, hentry, hpath⟩ := hchecked shared ho
    exact ⟨hname, hentry, shared, hpath, fun _ => rfl⟩

end Assay.JobRecord

namespace Assay.Manifest

variable {depth : Nat} {d : Disk} {path : Path} {filters : List (Given String)} {r : JobRecord}
  {records jobs : List JobRecord} {members : List (Json.Literal × Json)}

/-! ## Choosing by literals -/

/-- Whether the name of a job holds a filter: only literals hold texts. -/
def mentions (r : JobRecord) (filter : Given String) : Bool :=
  match filter, r.displayName with
  | .value text, .literal l => l.holds text
  | _, _ => false

/-- Whether the filters choose a job: its name holds one of them, or there are none. -/
def selected (filters : List (Given String)) (r : JobRecord) : Bool :=
  filters.isEmpty || filters.any (mentions r)

/-- A name or a symbol of a job as it should be: a literal that is not empty. -/
def IsName (v : Json) : Prop :=
  ∃ l : Json.Literal, v = .literal l ∧ l.glyphs ≠ []

/-- What a reader finds in the items of a list comes from one of them. -/
theorem of_mem_mapM {α β ε : Type} {f : α → Except ε β} {b : β} :
    ∀ {l : List α} {bs : List β}, l.mapM f = .ok bs → b ∈ bs → ∃ a ∈ l, f a = .ok b
  | [], bs, hm, hb => by
    cases hm
    cases hb
  | a :: l, bs, hm, hb => by
    rw [List.mapM_cons] at hm
    obtain ⟨b', ha, hm⟩ := except_bind_ok_iff.mp hm
    obtain ⟨bs', hl, hm⟩ := except_bind_ok_iff.mp hm
    cases hm
    rcases List.mem_cons.mp hb with rfl | hb
    · exact ⟨a, List.mem_cons_self, ha⟩
    · obtain ⟨a', ha', hf⟩ := of_mem_mapM hl hb
      exact ⟨a', List.mem_cons_of_mem a ha', hf⟩

/-- **No name and no symbol** in a manifest is empty. -/
theorem not_vacant_of_jobsOf {artifact : Json} (hj : jobsOf members artifact = .ok records)
    (hr : r ∈ records) : r.displayName.isVacant = false ∧ r.entrySymbol.isVacant = false := by
  obtain ⟨values, -, hj⟩ := except_bind_ok_iff.mp hj
  obtain ⟨value, -, ho⟩ := of_mem_mapM hj hr
  obtain ⟨hname, hentry, -⟩ := JobRecord.ofJson_ok ho
  exact ⟨hname, hentry⟩

/-- Looking up filters in a literal is looking for one of them in it. -/
theorem passes_literal {l : Json.Literal} {b : Bool} (hname : r.displayName = .literal l)
    (hp : passes r.displayName filters = .ok b) : b = filters.any (mentions r) := by
  induction filters with
  | nil =>
    cases hp
    rfl
  | cons f rest ih =>
    obtain ⟨first, hf, hp⟩ := except_bind_ok_iff.mp hp
    have hfirst : mentions r f = first := by
      unfold mentions
      rw [hname] at hf ⊢
      cases f with
      | nothing => cases hf
      | value text =>
        cases hf
        rfl
    rw [List.any_cons, hfirst]
    cases first with
    | true =>
      rw [if_pos rfl] at hp
      cases hp
      rfl
    | false =>
      rw [if_neg Bool.false_ne_true] at hp
      rw [Bool.false_or]
      exact ih hp

/-- What is no literal mentions nothing. -/
theorem not_mentions (hname : ∀ l, r.displayName ≠ .literal l) (f : Given String) :
    mentions r f = false := by
  unfold mentions
  split
  case h_1 text l heq => exact absurd heq (hname l)
  case h_2 => rfl

/-- The fault of a filter is none of the setup. -/
theorem passes_error {name : Json} {e : Fault} (hp : passes name filters = .error e)
    (f : SetupFault) : e ≠ .setup f := by
  rintro rfl
  induction filters with
  | nil => cases hp
  | cons filter rest ih =>
    unfold passes at hp
    cases hm : matchesFilter name filter with
    | ok b =>
      rw [hm] at hp
      cases b with
      | true => cases hp
      | false => exact ih hp
    | error e =>
      rw [hm] at hp
      cases hp
      unfold matchesFilter nameHolds nameHoldsNothing at hm
      split at hm
      · split at hm <;> cases hm
      · split at hm <;> cases hm

/-- The selection, if every job passes or does not. -/
theorem select_eq {keep : JobRecord → Bool}
    (hp : ∀ r ∈ records, passes r.displayName filters = .ok (keep r)) :
    select filters records = .ok (records.filter keep) := by
  induction records with
  | nil => rfl
  | cons r rest ih =>
    rw [select, hp r List.mem_cons_self, ih fun r hr => hp r (List.mem_cons_of_mem _ hr),
      List.filter_cons]
    rfl

/-- The fault of a selection is none of the setup. -/
theorem select_error {e : Fault} (hs : select filters records = .error e) (f : SetupFault) :
    e ≠ .setup f := by
  induction records with
  | nil => cases hs
  | cons first rest ih =>
    rw [select] at hs
    cases hfirst : passes first.displayName filters with
    | error e' =>
      rw [hfirst] at hs
      cases hs
      exact passes_error hfirst f
    | ok b =>
      rw [hfirst] at hs
      cases hrest : select filters rest with
      | error e' =>
        rw [hrest] at hs
        cases hs
        exact ih hrest
      | ok more =>
        rw [hrest] at hs
        cases hs

/-- A finished selection has looked up the filters in every name. -/
theorem passes_of_select (hs : select filters records = .ok jobs) (hr : r ∈ records) :
    ∃ b, passes r.displayName filters = .ok b := by
  induction records generalizing jobs with
  | nil => cases hr
  | cons first rest ih =>
    obtain ⟨passed, hfirst, hs⟩ := except_bind_ok_iff.mp hs
    obtain ⟨more, hmore, hs⟩ := except_bind_ok_iff.mp hs
    rcases List.mem_cons.mp hr with rfl | hr
    · exact ⟨passed, hfirst⟩
    · exact ih hmore hr

/-- A job that passes is selected. -/
theorem mem_of_select (hs : select filters records = .ok jobs) (hr : r ∈ records)
    (hp : passes r.displayName filters = .ok true) : r ∈ jobs := by
  induction records generalizing jobs with
  | nil => cases hr
  | cons first rest ih =>
    obtain ⟨passed, hfirst, hs⟩ := except_bind_ok_iff.mp hs
    obtain ⟨more, hmore, hs⟩ := except_bind_ok_iff.mp hs
    rcases List.mem_cons.mp hr with rfl | hr
    · rw [hp] at hfirst
      cases hfirst
      cases hs
      exact List.mem_cons_self
    · have hmem := ih hmore hr
      cases passed with
      | true =>
        cases hs
        exact List.mem_cons_of_mem _ hmem
      | false =>
        cases hs
        exact hmem

/-! ## Loading as a function of the disk -/

/-- What the file at a path holds, as a value. -/
def valueAt (depth : Nat) (d : Disk) (path : Path) : Except Fault Json :=
  if Disk.hasNull path.text then .error .nullByte
  else
    match d.read path.text with
    | .error f => .error (.setup (.manifest path.text (.unreadable f)))
    | .ok content =>
      match Text.decode? content with
      | none => .error .undecodable
      | some text =>
        match Json.parse (String.ofList (Text.unifyNewlines text.toList)) depth with
        | .ok v => .ok v
        | .error (.malformed what line column offset) =>
          .error (.setup (.manifest path.text (.malformed (.malformed what line column offset))))
        | .error (.tooManyDigits count) => .error (.number (.tooManyDigits count))
        | .error .tooDeep => .error .tooDeep

theorem readJson_run (path : Path) (h : Host) (w : World) :
    (readJson path).run h w = (valueAt h.maxDepth w.disk path, w) := by
  unfold readJson valueAt Action.refuseNull
  split
  case isTrue => rfl
  case isFalse =>
    dsimp only
    rw [pure_bind, Action.bind_of_ok (Action.disk_run h w)]
    cases w.disk.read path.text with
    | error f => rfl
    | ok content =>
      dsimp only
      cases Text.decode? content with
      | none => rfl
      | some text =>
        dsimp only
        rw [Action.bind_of_ok (Action.host_run h w)]
        cases Json.parse (String.ofList (Text.unifyNewlines text.toList)) h.maxDepth with
        | ok v => rfl
        | error e => cases e <;> rfl

/-- **Loading** is a matter of the disk alone, and changes nothing. -/
theorem load_run (path : Path) (filters : List (Given String)) (h : Host) (w : World) :
    (load path filters).run h w = (valueAt h.maxDepth w.disk path >>= ofJson path filters, w) := by
  unfold load
  rw [Action.bind_run, readJson_run]
  cases valueAt h.maxDepth w.disk path <;> rfl

/-- A value that lists no jobs is refused. -/
theorem ofJson_cases (path : Path) (filters : List (Given String)) (v : Json) :
    (∃ f, ofJson path filters v = .error (.setup f)) ∨
      ∃ members artifact records, v = .object members ∧
        Json.member? members "artifact" = some artifact ∧
        jobsOf members artifact = .ok records := by
  unfold ofJson
  split
  case h_2 => exact .inl ⟨_, rfl⟩
  case h_1 members =>
    cases ha : Json.member? members "artifact" with
    | none => exact .inl ⟨_, rfl⟩
    | some artifact =>
      dsimp only
      cases hj : jobsOf members artifact with
      | error f => exact .inl ⟨_, rfl⟩
      | ok records => exact .inr ⟨members, artifact, records, rfl, ha, hj⟩

section Listed

variable {artifact : Json} (ha : Json.member? members "artifact" = some artifact)
  (hj : jobsOf members artifact = .ok records)

include ha hj

/-- Without filters what remains is the number of jobs. -/
theorem ofJson_unfiltered (path : Path) :
    ofJson path [] (.object members) =
      ((requestedOf members).mapError .number).map fun n => ⟨packageOf members, records, n⟩ := by
  unfold ofJson
  dsimp only
  rw [ha]
  dsimp only
  rw [hj]
  cases requestedOf members <;> rfl

/-- With filters what remains is the selection. -/
theorem ofJson_filtered (path : Path) (hne : filters ≠ []) :
    ofJson path filters (.object members) =
      (select filters records).map fun jobs => ⟨packageOf members, jobs, none⟩ := by
  have hempty : filters.isEmpty = false := List.isEmpty_eq_false_iff.mpr hne
  unfold ofJson
  dsimp only
  rw [ha]
  dsimp only
  rw [hj, hempty]
  show (select filters records >>= fun jobs =>
    (.ok ⟨packageOf members, jobs, none⟩ : Except Fault Manifest)) = _
  cases select filters records <;> rfl

end Listed

/-! ## What can come of it -/

/-- What loading a manifest should return: the jobs that the filters choose, in order, all with a
name and an entry symbol, and without filters the number that the manifest asks for. -/
structure Sound (depth : Nat) (d : Disk) (path : Path) (filters : List (Given String))
    (m : Manifest) : Prop where
  listed : ∃ members records, Lists depth d path members records ∧
    m.jobs = records.filter (selected filters) ∧
    if filters = [] then requestedOf members = .ok m.requested else m.requested = none
  names : ∀ r ∈ m.jobs, IsName r.displayName ∧ IsName r.entrySymbol

/-- The manifest is refused as a fault of the setup, or what is returned is sound. -/
inductive Settled (depth : Nat) (d : Disk) (path : Path) (filters : List (Given String)) :
    Except Fault Manifest → Prop where
  | refused (f : SetupFault) : Settled depth d path filters (.error (.setup f))
  | listed {m : Manifest} (h : Sound depth d path filters m) : Settled depth d path filters (.ok m)

/-- What nobody looks at before it is used. -/
inductive Strays (depth : Nat) (d : Disk) (path : Path) (filters : List (Given String)) : Prop where
  /-- The path cannot be handed to the system. -/
  | null (hn : Disk.hasNull path.text = true)
  /-- The bytes are no text. -/
  | undecodable {content : Text.Bytes} (hr : d.read path.text = .ok content)
      (ht : Text.decode? content = none)
  /-- A number has too many digits. -/
  | numeral {content : Text.Bytes} {text : String} {count : Nat}
      (hr : d.read path.text = .ok content) (ht : Text.decode? content = some text)
      (hj : Json.parse (String.ofList (Text.unifyNewlines text.toList)) depth =
        .error (.tooManyDigits count))
  /-- Values are nested too deeply. -/
  | nesting {content : Text.Bytes} {text : String}
      (hr : d.read path.text = .ok content) (ht : Text.decode? content = some text)
      (hj : Json.parse (String.ofList (Text.unifyNewlines text.toList)) depth = .error .tooDeep)
  /-- What was asked for is no number of jobs. -/
  | requested {members : List (Json.Literal × Json)} {records : List JobRecord} {f : NumberFault}
      (hl : Lists depth d path members records) (hf : filters = [])
      (hq : requestedOf members = .error f)
  /-- The filters cannot be looked up in a name. -/
  | filter {members : List (Json.Literal × Json)} {records : List JobRecord} {r : JobRecord}
      {e : Fault} (hl : Lists depth d path members records) (hr : r ∈ records)
      (hp : passes r.displayName filters = .error e)
  /-- A job is chosen whose name or entry symbol is none. -/
  | unnamed {members : List (Json.Literal × Json)} {records : List JobRecord} {r : JobRecord}
      (hl : Lists depth d path members records) (hr : r ∈ records)
      (hp : filters = [] ∨ passes r.displayName filters = .ok true)
      (hu : ¬ (IsName r.displayName ∧ IsName r.entrySymbol))

/-- What a manifest without a stray value has its jobs chosen by. -/
theorem passes_of_not_strays (hl : Lists depth d path members records)
    (hs : ¬ Strays depth d path filters) (hr : r ∈ records) :
    passes r.displayName filters = .ok (filters.any (mentions r)) := by
  cases hp : passes r.displayName filters with
  | error e => exact absurd (.filter hl hr hp) hs
  | ok b =>
    by_cases hname : ∃ l, r.displayName = .literal l
    · obtain ⟨l, hname⟩ := hname
      rw [passes_literal hname hp]
    · -- A name of another kind chooses no job.
      have hnone := not_mentions fun l hl => hname ⟨l, hl⟩
      have hany : filters.any (mentions r) = false :=
        List.any_eq_false.mpr fun f _ => by rw [hnone f]; exact Bool.false_ne_true
      cases b with
      | false => rw [hany]
      | true =>
        refine absurd (.unnamed hl hr (.inr hp) fun hboth => ?_) hs
        obtain ⟨l, hl, -⟩ := hboth.1
        exact hname ⟨l, hl⟩

/-- What is chosen has a name and a symbol, unless something strays. -/
theorem names_of_not_strays (hl : Lists depth d path members records)
    (hs : ¬ Strays depth d path filters) (hr : r ∈ records) (hsel : selected filters r = true) :
    IsName r.displayName ∧ IsName r.entrySymbol := by
  refine Classical.byContradiction fun hu => hs ?_
  refine .unnamed hl hr ?_ hu
  rcases Bool.or_eq_true_iff.mp hsel with hempty | hany
  · exact .inl (List.isEmpty_iff.mp hempty)
  · exact .inr (by rw [passes_of_not_strays hl hs hr, hany])

theorem settled_of_lists {artifact : Json} (hl : Lists depth d path members records)
    (ha : Json.member? members "artifact" = some artifact)
    (hj : jobsOf members artifact = .ok records) (hs : ¬ Strays depth d path filters) :
    Settled depth d path filters (ofJson path filters (.object members)) := by
  have hnames : ∀ r ∈ records.filter (selected filters),
      IsName r.displayName ∧ IsName r.entrySymbol := by
    intro r hr
    obtain ⟨hmem, hsel⟩ := List.mem_filter.mp hr
    exact names_of_not_strays hl hs hmem hsel
  by_cases hne : filters = []
  · subst hne
    rw [ofJson_unfiltered ha hj]
    cases hq : requestedOf members with
    | error f => exact absurd (.requested hl rfl hq) hs
    | ok n =>
      have hall : records.filter (selected []) = records := List.filter_eq_self.mpr fun _ _ => rfl
      rw [hall] at hnames
      exact .listed ⟨⟨members, records, hl, hall.symm, hq⟩, hnames⟩
  · have hempty : filters.isEmpty = false := List.isEmpty_eq_false_iff.mpr hne
    have hselected : selected filters = fun r => filters.any (mentions r) := by
      funext r
      rw [selected, hempty, Bool.false_or]
    have hselect := select_eq fun r hr => passes_of_not_strays hl hs hr
    rw [← hselected] at hselect
    rw [ofJson_filtered ha hj path hne, hselect]
    refine .listed ⟨⟨members, records, hl, rfl, ?_⟩, hnames⟩
    rw [if_neg hne]

/-- **Nothing strays**: loading settles. -/
theorem settled_of_not_strays (hs : ¬ Strays depth d path filters) :
    Settled depth d path filters (valueAt depth d path >>= ofJson path filters) := by
  unfold valueAt
  split
  case isTrue hn => exact absurd (.null hn) hs
  case isFalse hn =>
    cases hr : d.read path.text with
    | error f => exact .refused _
    | ok content =>
      cases ht : Text.decode? content with
      | none => exact absurd (.undecodable hr ht) hs
      | some text =>
        dsimp only
        rw [ht]
        dsimp only
        cases hj : Json.parse (String.ofList (Text.unifyNewlines text.toList)) depth with
        | error e =>
          cases e with
          | malformed => exact .refused _
          | tooManyDigits count => exact absurd (.numeral hr ht hj) hs
          | tooDeep => exact absurd (.nesting hr ht hj) hs
        | ok v =>
          show Settled depth d path filters (ofJson path filters v)
          rcases ofJson_cases path filters v with
            ⟨f, hf⟩ | ⟨members, artifact, records, rfl, ha, hjobs⟩
          · rw [hf]
            exact .refused f
          · have hl : Lists depth d path members records :=
              ⟨⟨content, text, hr, ht, hj⟩, artifact, ha, hjobs⟩
            exact settled_of_lists hl ha hjobs hs

theorem valueAt_null (hn : Disk.hasNull path.text = true) :
    valueAt depth d path = .error .nullByte := by
  unfold valueAt
  rw [if_pos hn]

theorem valueAt_of_content {content : Text.Bytes} {text : String}
    (hn : Disk.hasNull path.text = false) (hr : d.read path.text = .ok content)
    (ht : Text.decode? content = some text) :
    valueAt depth d path =
      match Json.parse (String.ofList (Text.unifyNewlines text.toList)) depth with
      | .ok v => .ok v
      | .error (.malformed what line column offset) =>
        .error (.setup (.manifest path.text (.malformed (.malformed what line column offset))))
      | .error (.tooManyDigits count) => .error (.number (.tooManyDigits count))
      | .error .tooDeep => .error .tooDeep := by
  unfold valueAt
  rw [hn, if_neg Bool.false_ne_true, hr]
  dsimp only
  rw [ht]

/-- A manifest that was written is read. -/
theorem valueAt_render {v : Json} (hv : Json.Plain depth v)
    (hn : Disk.hasNull path.text = false) (hr : d.read path.text = .ok (Text.encode v.render)) :
    valueAt depth d path = .ok v := by
  have hnone : '\r' ∉ v.render.toList := by
    rw [Json.render, String.toList_ofList]
    exact fun hmem => absurd (Json.isVisible_print hv _ hmem) (by decide)
  rw [valueAt_of_content hn hr (Text.decode?_encode _), Text.unifyNewlines_eq_self hnone,
    String.ofList_toList, Json.parse_render hv]

theorem valueAt_of_lists (hn : Disk.hasNull path.text = false)
    (hl : Lists depth d path members records) : valueAt depth d path = .ok (.object members) := by
  obtain ⟨content, text, hr, ht, hj⟩ := hl.content
  rw [valueAt_of_content hn hr ht, hj]

theorem loaded_of_lists (hn : Disk.hasNull path.text = false)
    (hl : Lists depth d path members records) :
    valueAt depth d path >>= ofJson path filters = ofJson path filters (.object members) := by
  rw [valueAt_of_lists hn hl]
  rfl

/-- Only a fault of the setup is settled. -/
theorem not_settled_of_error {e : Fault} (he : ∀ f, e ≠ .setup f) :
    ¬ Settled depth d path filters (.error e) := by
  intro hs
  cases hs
  exact he _ rfl

/-- **Something strays**: loading does not settle. -/
theorem not_settled_of_strays (hs : Strays depth d path filters) :
    ¬ Settled depth d path filters (valueAt depth d path >>= ofJson path filters) := by
  cases hn : Disk.hasNull path.text with
  | true =>
    rw [valueAt_null hn]
    exact not_settled_of_error nofun
  | false =>
    cases hs with
    | null hnull =>
      rw [hn] at hnull
      cases hnull
    | undecodable hr ht =>
      have hvalue : valueAt depth d path = .error .undecodable := by
        unfold valueAt
        rw [hn, if_neg Bool.false_ne_true, hr]
        dsimp only
        rw [ht]
      rw [hvalue]
      exact not_settled_of_error nofun
    | numeral hr ht hj =>
      rw [valueAt_of_content hn hr ht, hj]
      exact not_settled_of_error nofun
    | nesting hr ht hj =>
      rw [valueAt_of_content hn hr ht, hj]
      exact not_settled_of_error nofun
    | requested hl hf hq =>
      obtain ⟨artifact, ha, hj⟩ := hl.jobs
      rw [loaded_of_lists hn hl, hf, ofJson_unfiltered ha hj, hq]
      exact not_settled_of_error nofun
    | filter hl hr hp =>
      obtain ⟨artifact, ha, hj⟩ := hl.jobs
      have hne : filters ≠ [] := by
        rintro rfl
        cases hp
      rw [loaded_of_lists hn hl, ofJson_filtered ha hj path hne]
      cases hselect : select filters _ with
      | error e => exact not_settled_of_error (select_error hselect)
      | ok jobs =>
        obtain ⟨b, hb⟩ := passes_of_select hselect hr
        rw [hp] at hb
        cases hb
    | unnamed hl hr hp hu =>
      obtain ⟨artifact, ha, hj⟩ := hl.jobs
      rw [loaded_of_lists hn hl]
      by_cases hne : filters = []
      · rw [hne, ofJson_unfiltered ha hj]
        cases requestedOf _ with
        | error f => exact not_settled_of_error nofun
        | ok n =>
          intro hsettled
          cases hsettled with
          | listed hsound => exact hu (hsound.names _ hr)
      · rw [ofJson_filtered ha hj path hne]
        cases hselect : select filters _ with
        | error e => exact not_settled_of_error (select_error hselect)
        | ok jobs =>
          have hmem := mem_of_select hselect hr (hp.resolve_left hne)
          intro hsettled
          cases hsettled with
          | listed hsound => exact hu (hsound.names _ hmem)

/-- **Loading a manifest** refuses it or returns what it should, unless something in the manifest
strays. Nothing is changed in any case. -/
theorem load_settled_iff (path : Path) (filters : List (Given String)) (h : Host) (w : World) :
    ((load path filters).run h w).2 = w ∧
      (Settled h.maxDepth w.disk path filters ((load path filters).run h w).1 ↔
        ¬ Strays h.maxDepth w.disk path filters) := by
  rw [load_run]
  exact ⟨rfl, fun hsettled hs => not_settled_of_strays hs hsettled, settled_of_not_strays⟩

/-! ### A number that is none -/

/-- A manifest without jobs that asks for a word. -/
def countless : Json :=
  .object [("artifact", .text "a.bc"), ("jobs", .array []), ("requested", .text "many")]

theorem plain_countless : Json.Plain Json.usualDepth countless := by
  refine .object ?_ ?_ ?_
  · show List.Nodup (α := Json.Literal) [.whole "artifact", .whole "jobs", .whole "requested"]
    decide
  · simp only [List.forall_mem_cons]
    exact ⟨⟨_, rfl⟩, ⟨_, rfl⟩, ⟨_, rfl⟩, fun _ h => nomatch h⟩
  · simp only [List.forall_mem_cons]
    exact ⟨.text _, .array (List.forall_mem_nil _), .text _, fun _ h => nomatch h⟩

/-- A disk with this manifest on it. -/
def countlessDisk : Disk := Report.sampleDisk (Text.encode countless.render)

/-- What was asked for is no number, and that is no fault of the setup. -/
theorem load_countless :
    ((load Report.samplePath []).run (Checker.saying []) (World.begin countlessDisk)).1 =
        .error (.number (.notAnInteger "'many'")) ∧
      ¬ Settled Json.usualDepth countlessDisk Report.samplePath []
        (.error (.number (.notAnInteger "'many'"))) := by
  refine ⟨?_, not_settled_of_error fun _ => Fault.noConfusion⟩
  rw [load_run]
  show (valueAt Json.usualDepth (Report.sampleDisk _) Report.samplePath >>= _) = _
  rw [valueAt_render plain_countless (by decide) (Report.read_sampleDisk _)]
  rfl

end Assay.Manifest

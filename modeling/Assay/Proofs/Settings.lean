import Assay.Proofs.Action
import Assay.Session
import Mathlib.Data.List.Basic

/-!
# From the command line to the configuration

A command line of options, a separator and arguments. Every option is written in one word, its
switch in full and its value behind a sign of equality; options come in any order and as often as
one likes, and the arguments are any texts at all. Such a command line is always understood, and
`configuration_of_settings` says what becomes of it, setting by setting: lists keep all values in
order, some switches are counted, and of the other settings the last one holds, else what the
environment sets, else the standard. There is one exception. An empty text for SeaHorn's directory
counts as none, `empty_commonDir_not_kept`.

The words are read one by one. What has been read is described by the options behind it,
`argumentsOf`, and `apply_argumentsOf` takes this over one more option; it is the only place where
the switches are told apart.
-/

namespace Assay

namespace Text

theorem splitBy_eq_splitOnP (p : Char → Bool) (cs : List Char) :
    splitBy p cs = cs.splitOnP p := by
  induction cs with
  | nil => rfl
  | cons c rest ih =>
    rw [List.splitOnP_cons_eq_if_modifyHead, ← ih, splitBy]
    split
    · rfl
    · cases h : splitBy p rest with
      | nil => exact absurd h (splitBy_ne_nil _ _)
      | cons field fields => rfl

end Text

namespace CommandLine

/-- One option of a command line: a switch, and the value that is written behind it if it takes
one. -/
structure Setting where
  switch : Switch
  value : String
  deriving DecidableEq, Repr

namespace Switch

/-- The spelling in full. -/
def long (s : Switch) : String :=
  s.spellings.getLast?.getD ""

theorem ofSpelling_long (s : Switch) : ofSpelling? s.long = some s := by
  cases s <;> decide +kernel

theorem long_toList (s : Switch) : ∃ c rest, s.long.toList = '-' :: '-' :: c :: rest := by
  cases s <;> exact ⟨_, _, rfl⟩

theorem equals_not_mem_long (s : Switch) : '=' ∉ s.long.toList := by
  cases s <;> decide +kernel

/-- No spelling has a sign of equality in it. -/
theorem ofSpelling_of_equals {word : String} (h : '=' ∈ word.toList) : ofSpelling? word = none := by
  have htable : ∀ e ∈ table, '=' ∉ e.1.toList := by decide +kernel
  rw [ofSpelling?, List.lookup_eq_none_iff]
  intro e he
  rw [bne_iff_ne]
  rintro rfl
  exact htable e he h

end Switch

/-- The word of a switch and its value is cut where they meet. -/
theorem splitValue_joined {name value : String} (hn : '=' ∉ name.toList) :
    splitValue (name ++ "=" ++ value) = (name, some value) := by
  have hchars : (name ++ "=" ++ value).toList = name.toList ++ '=' :: value.toList := by
    rw [String.toList_append, String.toList_append, List.append_assoc]
    rfl
  have hplain : ∀ c ∈ name.toList, (c != '=') = true := by
    intro c hc
    rw [bne_iff_ne]
    rintro rfl
    exact hn hc
  unfold splitValue
  dsimp only
  rw [hchars, List.takeWhile_append_of_pos hplain, List.dropWhile_append_of_pos hplain]
  simp

namespace Setting

/-- How an option is written: in full, with its value behind a sign of equality. -/
def word (o : Setting) : String :=
  if o.switch.takesValue then o.switch.long ++ "=" ++ o.value else o.switch.long

/-- What the word is read as. -/
def kind (o : Setting) : Kind :=
  .switch o.switch o.switch.long (if o.switch.takesValue then some o.value else none)

theorem word_toList (o : Setting) : ∃ c rest, o.word.toList = '-' :: '-' :: c :: rest := by
  obtain ⟨c, rest, hl⟩ := o.switch.long_toList
  unfold word
  split
  · refine ⟨c, rest ++ ("=" ++ o.value).toList, ?_⟩
    rw [String.append_assoc, String.toList_append, hl]
    rfl
  · exact ⟨c, rest, hl⟩

theorem word_ne_separator (o : Setting) : o.word ≠ separator := by
  obtain ⟨c, rest, hl⟩ := o.word_toList
  intro h
  rw [h] at hl
  cases hl

theorem kindOf_word (o : Setting) : kindOf o.word = .ok o.kind := by
  obtain ⟨c, rest, hl⟩ := o.word_toList
  unfold kindOf
  dsimp only
  rw [hl]
  simp only [List.head?_cons, ne_eq, not_true_eq_false, if_false]
  unfold word kind
  by_cases ht : o.switch.takesValue = true
  · have hequals : '=' ∈ (o.switch.long ++ "=" ++ o.value).toList := by
      rw [String.toList_append, String.toList_append]
      exact List.mem_append_left _ (List.mem_append_right _ (List.mem_singleton.mpr rfl))
    rw [if_pos ht, if_pos ht, Switch.ofSpelling_of_equals hequals,
      splitValue_joined o.switch.equals_not_mem_long]
    simp [Switch.ofSpelling_long]
  · rw [if_neg ht, if_neg ht, Switch.ofSpelling_long]

end Setting

/-- The words of options, a separator and arguments. -/
theorem words_settings (os : List Setting) (xs : List String) :
    words (os.map Setting.word ++ separator :: xs) =
      .ok (os.map (fun o => ⟨o.word, o.kind⟩) ++
        ⟨separator, .separator⟩ :: xs.map fun x => ⟨x, .argument⟩) := by
  induction os with
  | nil => rfl
  | cons o os ih =>
    show words (o.word :: (os.map Setting.word ++ separator :: xs)) = _
    rw [words, if_neg o.word_ne_separator, o.kindOf_word, ih]
    rfl

/-! ## What options ask for -/

section Asked

variable {os done : List Setting} {o : Setting} {s : Switch}

/-- The values that a switch is given, in order. -/
def valuesOf (s : Switch) (os : List Setting) : List String :=
  (os.filter fun o => o.switch = s).map Setting.value

/-- The value that a switch is given last. -/
def lastOf (s : Switch) (os : List Setting) : Option String :=
  (valuesOf s os).getLast?

/-- How often a switch occurs. -/
def timesOf (s : Switch) (os : List Setting) : Nat :=
  (os.map Setting.switch).count s

theorem valuesOf_concat (s : Switch) (done : List Setting) (o : Setting) :
    valuesOf s (done ++ [o]) =
      if o.switch = s then valuesOf s done ++ [o.value] else valuesOf s done := by
  unfold valuesOf
  rw [List.filter_append, List.map_append]
  by_cases h : o.switch = s <;> simp [h]

theorem lastOf_concat (s : Switch) (done : List Setting) (o : Setting) :
    lastOf s (done ++ [o]) = if o.switch = s then some o.value else lastOf s done := by
  unfold lastOf
  rw [valuesOf_concat]
  split
  · rw [List.getLast?_concat]
  · rfl

theorem timesOf_concat (s : Switch) (done : List Setting) (o : Setting) :
    timesOf s (done ++ [o]) = if o.switch = s then timesOf s done + 1 else timesOf s done := by
  unfold timesOf
  rw [List.map_append, List.count_append]
  by_cases h : o.switch = s <;> simp [h]

theorem mem_switches_concat :
    s ∈ (done ++ [o]).map Setting.switch ↔ o.switch = s ∨ s ∈ done.map Setting.switch := by
  rw [List.map_append, List.mem_append, or_comm]
  simp [eq_comm]

/-- An integer that a text stands for. -/
def integerOf (value : String) : Option Int :=
  (Number.readInteger value.toList).toOption

/-- A number of seconds that a text stands for. -/
def secondsOf (value : String) : Option Number.Binary64 :=
  Number.readBinary64 value.toList

/-- The option asks for no help, and its value can be read as what it is for. -/
structure Setting.Proper (o : Setting) : Prop where
  noHelp : o.switch ≠ .help
  value : o.switch.takesValue → o.value ≠ separator
  backend : o.switch = .backend → Text.lower o.value ∈ backendChoices
  jobs : o.switch = .jobs → (integerOf o.value).isSome
  jobTimeout : o.switch = .jobTimeout → (secondsOf o.value).isSome

instance (o : Setting) : Decidable o.Proper :=
  decidable_of_iff (o.switch ≠ .help ∧ (o.switch.takesValue → o.value ≠ separator) ∧
      (o.switch = .backend → Text.lower o.value ∈ backendChoices) ∧
      (o.switch = .jobs → (integerOf o.value).isSome) ∧
      (o.switch = .jobTimeout → (secondsOf o.value).isSome))
    ⟨fun ⟨hhelp, hvalue, hbackend, hjobs, htimeout⟩ => ⟨hhelp, hvalue, hbackend, hjobs, htimeout⟩,
      fun ho => ⟨ho.noHelp, ho.value, ho.backend, ho.jobs, ho.jobTimeout⟩⟩

/-- The arguments that options ask for. -/
def argumentsOf (os : List Setting) : Arguments where
  manifestPath := .value (((lastOf .manifestPath os).map Path.parse).getD (Path.parse "Cargo.toml"))
  jobManifest := (lastOf .jobManifest os).map fun v => .value (Path.parse v)
  backend := (lastOf .backend os).map Text.lower
  backendFlags := (valuesOf .backendFlags os).map .value
  replaceBackendFlags := decide (.replaceBackendFlags ∈ os.map Setting.switch)
  commonDir := lastOf .commonDir os
  features := (valuesOf .features os).map .value
  tests := decide (.tests ∈ os.map Setting.switch)
  testFilters := (valuesOf .test os).map .value
  jobs := ((lastOf .jobs os).bind integerOf).map .value
  replay := timesOf .replay os
  verbose := timesOf .verbose os
  quiet := decide (.quiet ∈ os.map Setting.switch)
  script := (lastOf .script os).map fun v => .value (Path.parse v)
  report := (lastOf .report os).map fun v => .value (Path.parse v)
  jobTimeout := ((lastOf .jobTimeout os).bind secondsOf).map .value
  args := []

theorem readBackend_eq {value : String} (h : Text.lower value ∈ backendChoices) :
    readBackend value = .ok (Text.lower value) :=
  if_pos h

theorem readJobs_eq {value : String} {n : Int} (h : integerOf value = some n) :
    readJobs value = .ok n := by
  unfold integerOf at h
  unfold readJobs
  cases hr : Number.readInteger value.toList with
  | error e =>
    rw [hr] at h
    cases h
  | ok m =>
    rw [hr] at h
    cases h
    rfl

theorem readTimeout_eq {value : String} {x : Number.Binary64} (h : secondsOf value = some x) :
    readTimeout value = .ok x := by
  unfold secondsOf at h
  unfold readTimeout
  rw [h]

/-- **One more option.** -/
theorem apply_argumentsOf (ho : o.Proper) (done : List Setting) :
    (argumentsOf done).apply o.switch (if o.switch.takesValue then o.value else "") =
      .ok (argumentsOf (done ++ [o])) := by
  obtain ⟨s, v⟩ := o
  obtain ⟨hhelp, hvalue, hbackend, hjobs, htimeout⟩ := ho
  dsimp only at hhelp hvalue hbackend hjobs htimeout
  have hgiven : s.takesValue = true → given v = .value v := fun h => if_neg (hvalue h)
  unfold argumentsOf
  simp only [valuesOf_concat, lastOf_concat, timesOf_concat, mem_switches_concat]
  cases s
  case help => exact absurd rfl hhelp
  case replaceBackendFlags | tests | replay | verbose | quiet =>
    simp [Arguments.apply]
  case backend =>
    simp [Arguments.apply, Switch.takesValue, hgiven rfl, Given.read, readBackend_eq (hbackend rfl)]
    rfl
  case jobs =>
    obtain ⟨n, hn⟩ := Option.isSome_iff_exists.mp (hjobs rfl)
    simp [Arguments.apply, Switch.takesValue, hgiven rfl, Given.read, readJobs_eq hn, hn]
    rfl
  case jobTimeout =>
    obtain ⟨x, hx⟩ := Option.isSome_iff_exists.mp (htimeout rfl)
    simp [Arguments.apply, Switch.takesValue, hgiven rfl, Given.read, readTimeout_eq hx, hx]
    rfl
  case manifestPath | jobManifest | commonDir | script | report =>
    simp [Arguments.apply, Switch.takesValue, hgiven rfl, Given.map, Given.value?]
  case backendFlags | features | test =>
    simp [Arguments.apply, Switch.takesValue, hgiven rfl]

end Asked

theorem switchesOf_setting (o : Setting) :
    switchesOf o.switch o.switch.long (if o.switch.takesValue then some o.value else none) =
      .ok ([], o.switch, if o.switch.takesValue then some o.value else none) := by
  by_cases ht : o.switch.takesValue = true
  · rw [if_pos ht]
    show unbundle _ _ _ = _
    unfold unbundle
    rw [if_pos ht, String.ofList_toList]
  · rw [if_neg ht]
    rfl

/-- One option moves the reader on by one option. -/
theorem readWords_setting {o : Setting} (ho : o.Proper) (done : List Setting) (rest : List Word) :
    readWords ⟨argumentsOf done, false, []⟩ [] (⟨o.word, o.kind⟩ :: rest) =
      readWords ⟨argumentsOf (done ++ [o]), false, []⟩ [] rest := by
  have happly := apply_argumentsOf ho done
  have hswitches := switchesOf_setting o
  rw [readWords]
  simp only [Setting.kind, List.isEmpty_nil, if_true]
  by_cases ht : o.switch.takesValue = true
  · rw [if_pos ht] at happly hswitches ⊢
    rw [hswitches]
    simp only [Progress.takeSwitches, List.foldlM_nil, pure_bind, happly]
    rfl
  · rw [if_neg ht] at happly hswitches ⊢
    rw [hswitches]
    simp only [Progress.takeSwitches, List.foldlM_nil, pure_bind, happly, if_neg ht]
    rfl

theorem readWords_settings {os : List Setting} (hos : ∀ o ∈ os, o.Proper) (done : List Setting)
    (rest : List Word) :
    readWords ⟨argumentsOf done, false, []⟩ [] (os.map (fun o => ⟨o.word, o.kind⟩) ++ rest) =
      readWords ⟨argumentsOf (done ++ os), false, []⟩ [] rest := by
  induction os generalizing done with
  | nil => rw [List.append_nil, List.map_nil, List.nil_append]
  | cons o os ih =>
    have hrest := ih (fun o' ho' => hos o' (List.mem_cons_of_mem o ho')) (done ++ [o])
    rw [List.map_cons, List.cons_append, readWords_setting (hos o List.mem_cons_self), hrest,
      List.append_assoc, List.singleton_append]

/-- What follows the separator is taken as it is. -/
theorem readWords_plain (p : Progress) (plain xs : List String) (hp : plain ≠ []) :
    readWords p plain (xs.map fun x => ⟨x, .argument⟩) = .ok (p.takePlain (plain ++ xs)) := by
  induction xs generalizing plain with
  | nil =>
    rw [List.map_nil, readWords, List.append_nil, if_neg]
    rwa [List.isEmpty_iff]
  | cons x xs ih =>
    rw [List.map_cons, readWords]
    dsimp only
    rw [ih (plain ++ [x]) (List.append_ne_nil_of_left_ne_nil hp _), List.append_assoc,
      List.singleton_append]

/-- **A command line of options, a separator and arguments** is read. -/
theorem parse_settings {os : List Setting} (hos : ∀ o ∈ os, o.Proper) (xs : List String) :
    parse (os.map Setting.word ++ separator :: xs) = .ok { argumentsOf os with args := xs } := by
  have hread : readWords .begin [] (os.map (fun o => ⟨o.word, o.kind⟩) ++
      ⟨separator, .separator⟩ :: xs.map fun x => ⟨x, .argument⟩) =
        .ok (Progress.takePlain ⟨argumentsOf os, false, []⟩ (separator :: xs)) := by
    refine (readWords_settings hos [] _).trans ?_
    rw [readWords]
    exact readWords_plain _ [separator] xs (List.cons_ne_nil _ _)
  unfold parse
  rw [words_settings]
  dsimp only
  rw [hread]
  simp [Progress.takePlain]
  rfl

/-- The non-empty pieces between commas. -/
theorem commaList_eq (values : List String) :
    commaList values = values.flatMap fun v =>
      ((v.toList.splitOn ',').filter fun piece => piece ≠ []).map String.ofList := by
  refine List.flatMap_congr fun v _ => ?_
  unfold Text.pieces
  rw [Text.splitBy_eq_splitOnP]
  refine congrArg (List.map String.ofList) (List.filter_congr fun piece _ => ?_)
  cases piece <;> rfl

theorem filterMap_value (l : List String) : (l.map Given.value).filterMap Given.value? = l := by
  rw [List.filterMap_map]
  exact List.filterMap_some

theorem flags_argumentsOf (os : List Setting) (xs : List String) :
    Arguments.flags { argumentsOf os with args := xs } =
      .ok (commaList (valuesOf .backendFlags os)) := by
  have hgiven : ∀ l : List String, (l.map Given.value).any Given.isNothing = false := by
    intro l
    rw [List.any_map]
    exact List.any_eq_false.mpr fun _ _ => Bool.false_ne_true
  show (if ((valuesOf .backendFlags os).map Given.value).any Given.isNothing then _ else _) = _
  rw [hgiven, if_neg Bool.false_ne_true]
  show Except.ok (commaList (((valuesOf .backendFlags os).map Given.value).filterMap _)) = _
  rw [filterMap_value]

end CommandLine

namespace Session

open CommandLine

variable {h : Host} {seconds : Option Number.Binary64} {workers : Option Int}

/-- The environment's settings, where its numbers can be read. -/
theorem fromHost_eq
    (hseconds : Config.numberSetting h "CARGO_VERIFY_JOB_TIMEOUT" Config.readDecimal = .ok seconds)
    (hworkers : Config.numberSetting h "CARGO_VERIFY_JOBS" Config.readInteger = .ok workers) :
    Config.fromHost h = .ok { Config.standard (workers.getD h.processors) with
      backend := h.setting? "CARGO_VERIFY_BACKEND"
      commonDir := h.setting? "SEAHORN_VERIFY_C_COMMON_DIR"
      logLevel := Text.upper ((h.value? "CARGO_VERIFY_LOG_LEVEL").getD "WARNING")
      jobTimeout := seconds.map .value } := by
  unfold Config.fromHost
  rw [hseconds, hworkers]
  rfl

/-- The configuration that a command line of options, a separator and arguments asks for. -/
theorem configuration_run {os : List Setting} (hos : ∀ o ∈ os, o.Proper) (xs : List String)
    {standard : Config} (hstandard : Config.fromHost h = .ok standard) (w : World) :
    (arguments (os.map Setting.word ++ separator :: xs) >>= configuration).run h w =
      (.ok (Arguments.configure { argumentsOf os with args := xs } standard
        (commaList (valuesOf .backendFlags os))), w) := by
  unfold arguments
  rw [parse_settings hos xs]
  dsimp only
  rw [pure_bind]
  unfold configuration
  rw [Action.bind_of_ok (Action.host_run h w), hstandard, flags_argumentsOf]
  rfl

/-- **From the command line to the configuration.** -/
theorem configuration_of_settings {os : List Setting} (hos : ∀ o ∈ os, o.Proper)
    (xs : List String)
    (hseconds : Config.numberSetting h "CARGO_VERIFY_JOB_TIMEOUT" Config.readDecimal = .ok seconds)
    (hworkers : Config.numberSetting h "CARGO_VERIFY_JOBS" Config.readInteger = .ok workers)
    (w : World) :
    ∃ c, (arguments (os.map Setting.word ++ separator :: xs) >>= configuration).run h w =
        (.ok c, w) ∧
      c.args = xs ∧ c.features = valuesOf .features os ∧ c.testFilters = valuesOf .test os ∧
      c.backendFlags = ((valuesOf .backendFlags os).flatMap fun v =>
        ((v.toList.splitOn ',').filter fun piece => piece ≠ []).map String.ofList) ∧
      c.verbose = timesOf .verbose os ∧ c.replay = timesOf .replay os ∧
      (c.tests = true ↔ .tests ∈ os.map Setting.switch) ∧
      (c.quiet = true ↔ .quiet ∈ os.map Setting.switch) ∧
      (c.replaceBackendFlags = true ↔ .replaceBackendFlags ∈ os.map Setting.switch) ∧
      c.manifestPath = Path.parse ((lastOf .manifestPath os).getD "Cargo.toml") ∧
      c.script = (lastOf .script os).map Path.parse ∧
      c.report = (lastOf .report os).map Path.parse ∧
      c.backend = ((lastOf .backend os).map Text.lower).or (h.setting? "CARGO_VERIFY_BACKEND") ∧
      c.commonDir = ((lastOf .commonDir os).filter fun v => v ≠ "").or
        (h.setting? "SEAHORN_VERIFY_C_COMMON_DIR") ∧
      c.jobs = ((lastOf .jobs os).bind integerOf).getD (workers.getD h.processors) ∧
      c.jobTimeout = (((lastOf .jobTimeout os).bind secondsOf).or seconds).map .value := by
  have hmanifest : ((lastOf .manifestPath os).map Path.parse).getD (Path.parse "Cargo.toml") =
      Path.parse ((lastOf .manifestPath os).getD "Cargo.toml") := by
    cases lastOf .manifestPath os <;> rfl
  have hfilters : ((valuesOf .test os).map Given.value).map (fun g => g.getD shownNothing) =
      valuesOf .test os := by
    rw [List.map_map]
    exact List.map_id _
  have hpath : ∀ v : Option String,
      (v.map fun v => Given.value (Path.parse v)).bind Given.value? = v.map Path.parse := by
    intro v
    cases v <;> rfl
  have hdirectory : ((lastOf .commonDir os).filter fun v => !v.isEmpty) =
      (lastOf .commonDir os).filter fun v => v ≠ "" := by
    refine congrArg (fun p => (lastOf .commonDir os).filter p) (funext fun v => ?_)
    rw [Bool.eq_iff_iff]
    simp
  have hjobs : ∀ n : Option Int, (n.map Given.value).bind Given.value? = n := by
    intro n
    cases n <;> rfl
  have htimeout : ∀ x : Option Number.Binary64,
      (x.map Given.value).or (seconds.map Given.value) = (x.or seconds).map .value := by
    intro x
    cases x <;> rfl
  exact ⟨_, configuration_run hos xs (fromHost_eq hseconds hworkers) w, rfl, filterMap_value _,
    hfilters, commaList_eq _, rfl, rfl, decide_eq_true_iff, decide_eq_true_iff, decide_eq_true_iff,
    hmanifest, hpath _, hpath _, rfl, congrArg (Option.or · _) hdirectory,
    congrArg (Option.getD · _) (hjobs _), htimeout _⟩

/-- A host whose environment names a directory for SeaHorn and asks for seven jobs. -/
def settledHost : Host where
  environment := [("SEAHORN_VERIFY_C_COMMON_DIR", "/opt/common"), ("CARGO_VERIFY_JOBS", "7")]
  installed _ := false
  processors := 1
  pinned _ := false
  behave _ _ disk := (disk, .ended 0 [] [] false)

theorem settledHost_seconds :
    Config.numberSetting settledHost "CARGO_VERIFY_JOB_TIMEOUT" Config.readDecimal = .ok none :=
  rfl

theorem settledHost_workers :
    Config.numberSetting settledHost "CARGO_VERIFY_JOBS" Config.readInteger = .ok (some 7) :=
  rfl

/-- Options that look alike, one of them twice. -/
def sampleSettings : List Setting :=
  [⟨.test, "--tests"⟩, ⟨.verbose, ""⟩, ⟨.backendFlags, "--a,,--b"⟩, ⟨.backend, "KLEE"⟩,
    ⟨.verbose, ""⟩, ⟨.jobs, "3"⟩]

theorem configuration_of_sampleSettings :
    (∀ o ∈ sampleSettings, o.Proper) ∧
      Config.numberSetting settledHost "CARGO_VERIFY_JOB_TIMEOUT" Config.readDecimal = .ok none ∧
      Config.numberSetting settledHost "CARGO_VERIFY_JOBS" Config.readInteger = .ok (some 7) ∧
      ∃ c, (arguments (sampleSettings.map Setting.word ++ separator :: ["", "--", "-v"]) >>=
          configuration).run settledHost (World.begin ⟨[], []⟩) = (.ok c, World.begin ⟨[], []⟩) ∧
        c.args = ["", "--", "-v"] ∧ c.testFilters = ["--tests"] ∧ c.tests ≠ true ∧
        c.backendFlags = ["--a", "--b"] ∧ c.verbose = 2 ∧ c.backend = some "klee" ∧
        c.commonDir = some "/opt/common" ∧ c.jobs = 3 := by
  have hproper : ∀ o ∈ sampleSettings, o.Proper := by decide +kernel
  obtain ⟨c, hrun, hargs, -, htest, hflags, hverbose, -, htests, -, -, -, -, -, hbackend,
    hdirectory, hjobs, -⟩ := configuration_of_settings hproper ["", "--", "-v"] settledHost_seconds
      settledHost_workers (World.begin ⟨[], []⟩)
  refine ⟨hproper, settledHost_seconds, settledHost_workers, c, hrun, hargs,
    htest.trans (by decide +kernel), mt htests.mp (by decide +kernel),
    hflags.trans (by decide +kernel), hverbose.trans (by decide +kernel),
    hbackend.trans (by decide +kernel), hdirectory.trans (by decide +kernel),
    hjobs.trans (by decide +kernel)⟩

/-- An empty text for SeaHorn's directory is no setting, although it is the last one given: the
environment's directory stays. -/
theorem empty_commonDir_not_kept :
    (⟨.commonDir, ""⟩ : Setting).Proper ∧
      Config.numberSetting settledHost "CARGO_VERIFY_JOB_TIMEOUT" Config.readDecimal = .ok none ∧
      Config.numberSetting settledHost "CARGO_VERIFY_JOBS" Config.readInteger = .ok (some 7) ∧
      lastOf .commonDir [⟨.commonDir, ""⟩] = some "" ∧
      ∃ c, (arguments (["--seahorn-verify-c-common-dir=", "--"]) >>= configuration).run settledHost
          (World.begin ⟨[], []⟩) = (.ok c, World.begin ⟨[], []⟩) ∧
        c.commonDir = some "/opt/common" ∧ c.commonDir ≠ lastOf .commonDir [⟨.commonDir, ""⟩] := by
  have hproper : ∀ o ∈ [(⟨.commonDir, ""⟩ : Setting)], o.Proper := by decide +kernel
  have hwords : [(⟨.commonDir, ""⟩ : Setting)].map Setting.word ++ separator :: [] =
      ["--seahorn-verify-c-common-dir=", "--"] := by decide +kernel
  have hrun := configuration_run hproper [] (fromHost_eq settledHost_seconds settledHost_workers)
    (World.begin ⟨[], []⟩)
  rw [hwords] at hrun
  exact ⟨hproper _ List.mem_cons_self, settledHost_seconds, settledHost_workers,
    by decide +kernel, _, hrun, by decide +kernel, by decide +kernel⟩

end Session

end Assay

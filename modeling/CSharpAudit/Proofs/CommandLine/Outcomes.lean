import CSharpAudit.CommandLine.Run
import CSharpAudit.Proofs.Concrete.Damage
import CSharpAudit.Proofs.Document.Acquisition
import CSharpAudit.Proofs.Engine.Configuration
import CSharpAudit.Proofs.Storage.Path
import CSharpAudit.Proofs.Tree.Spans

/-!
The outcomes of a run. The words are checked first, then the path, then the file,
and each check that fails ends the run in a way of its own, so every run has exactly
one of four outcomes: a usage error before anything is read, a line for a blank path,
an error message and nothing else for a file that cannot be analysed, and the printed
report.
-/

namespace CSharpAudit

namespace CommandLine

/-! The words. -/

theorem mem_unknownRules {ids : List String} {id : String} :
    id ∈ unknownRules ids ↔ id ∈ ids ∧ id ∉ ruleIds := by
  simp [unknownRules, sortedSet]

theorem unknownRules_eq_nil_iff {ids : List String} :
    unknownRules ids = [] ↔ ∀ id ∈ ids, id ∈ ruleIds := by
  simp only [List.eq_nil_iff_forall_not_mem, mem_unknownRules, not_and, Decidable.not_not]

/-- Words that ask for a level or for a rule that there is not. -/
def Arguments.Rejected (args : Arguments) : Prop :=
  Text.upper args.logLevel ∉
      ["CRITICAL", "FATAL", "ERROR", "WARN", "WARNING", "INFO", "DEBUG", "NOTSET"] ∨
    ∃ id ∈ args.disabled,
      id ∉ ["public-field", "public-non-readonly-field", "var-primitive-type",
        "long-parameter-list", "collapsible-nested-if"]

theorem threshold?_eq_none_iff {name : String} :
    Log.threshold? name = none ↔
      name ∉ ["CRITICAL", "FATAL", "ERROR", "WARN", "WARNING", "INFO", "DEBUG", "NOTSET"] := by
  unfold Log.threshold?
  split <;> simp_all

theorem Arguments.rejected_iff {args : Arguments} :
    args.Rejected ↔
      Log.threshold? (Text.upper args.logLevel) = none ∨ ∃ id ∈ args.disabled, id ∉ ruleIds := by
  rw [Rejected, threshold?_eq_none_iff]
  rfl

theorem Settings.ofArguments_cases (args : Arguments) :
    (args.Rejected ∧ ∃ e, Settings.ofArguments args = .error e) ∨
    (¬ args.Rejected ∧ ∃ s, Settings.ofArguments args = .ok s ∧ s.path = args.path ∧
      s.verbose = args.verbose ∧ s.disabled = args.disabled) := by
  rw [Settings.ofArguments, Arguments.rejected_iff]
  cases hlevel : Log.threshold? (Text.upper args.logLevel) with
  | none => exact .inl ⟨.inl rfl, _, rfl⟩
  | some threshold =>
      cases hunknown : unknownRules args.disabled with
      | nil =>
          refine .inr ⟨?_, _, rfl, rfl, rfl, rfl⟩
          rintro (hnone | ⟨id, hid, hnot⟩)
          · contradiction
          · exact hnot (unknownRules_eq_nil_iff.mp hunknown id hid)
      | cons id rest =>
          obtain ⟨hid, hnot⟩ := mem_unknownRules.mp (hunknown ▸ List.mem_cons_self)
          exact .inl ⟨.inr ⟨id, hid, hnot⟩, _, rfl⟩

/-! The path. -/

/-- The path that a run is given: as a word, or as the answer to its question. -/
def Arguments.pathIn (args : Arguments) (world : Surroundings) : Option String :=
  args.path.or (typedLine? world.typed)

def Arguments.prompt (args : Arguments) : String :=
  if args.path.isNone then pathPrompt else ""

theorem Settings.run_eq {s : Settings} {args : Arguments} (hs : s.path = args.path)
    {world : Surroundings} {path : String} (hpath : args.pathIn world = some path) :
    s.run world = (s.runOn world path).after args.prompt := by
  rw [Settings.run, hs, Arguments.prompt]
  cases hword : args.path with
  | none =>
      have htyped : typedLine? world.typed = some path := by
        simpa [Arguments.pathIn, hword] using hpath
      simp [Settings.runOnAnswer, htyped]
  | some word =>
      obtain rfl : word = path := by simpa [Arguments.pathIn, hword] using hpath
      simp [Outcome.after]

/-! The file. -/

/-- What keeps a file from being analysed: it has no name, it cannot be read, its bytes
are not well formed, or there is a fault in its tree. -/
def Surroundings.Fails (world : Surroundings) (file : String) : Prop :=
  Text.isBlankText file = true ∨ (∃ e, world.read file = .error e) ∨
    ∃ bytes, world.read file = .ok bytes ∧
      (¬ Utf8.WellFormed bytes ∨
        ∃ c ∈ (world.grammar (Utf8.dropMark (Utf8.dropMark bytes))).preorder, c.isFault = true)

/-- The tree that is read for a file marks its damage consistently and lies within its
source. -/
def Surroundings.Regular (world : Surroundings) (file : String) : Prop :=
  ∀ bytes source, world.read file = .ok bytes → source = Utf8.dropMark (Utf8.dropMark bytes) →
    (world.grammar source).FlagsConsistent ∧
      ∀ c ∈ (world.grammar source).preorder, 0 ≤ c.span.start ∧ c.span.start ≤ source.length

def Surroundings.Reads (world : Surroundings) (file : String) (tree : Tree) : Prop :=
  ∃ bytes, world.read file = .ok bytes ∧
    Tree.ofRead (Utf8.dropMark (Utf8.dropMark bytes))
      (world.grammar (Utf8.dropMark (Utf8.dropMark bytes))) = .ok tree

theorem Surroundings.Regular.startsInside {world : Surroundings} {file : String} {tree : Tree}
    (h : world.Regular file) (hreads : world.Reads file tree) : tree.StartsInside := by
  obtain ⟨bytes, hread, htree⟩ := hreads
  obtain ⟨-, hspans⟩ := h bytes _ hread rfl
  obtain ⟨-, rfl⟩ := Tree.ofRead_eq_ok_iff.mp htree
  intro n hn
  exact (Node.bounds_ofConcrete
    (P := fun start => 0 ≤ start ∧ start ≤ (Utf8.dropMark (Utf8.dropMark bytes)).length)
    (Q := fun _ => True) _ (fun c hc => ⟨hspans c hc, trivial⟩) n hn).1

theorem load_cases {world : Surroundings} {file : String} (hclean : cleanPath file = file)
    (hnul : '\x00' ∉ file.toList) (hregular : world.Regular file) :
    (world.Fails file ∧ ∃ e, e ≠ .nulInPath ∧
      (Document.load world.read world.grammar (some file)).result = .error e) ∨
    (¬ world.Fails file ∧ ∃ doc, world.Reads file doc.tree ∧
      (Document.load world.read world.grammar (some file)).result = .ok doc) := by
  cases hblank : Text.isBlankText file with
  | true =>
      refine .inl ⟨.inl hblank, .acquisition ⟨none, .blankPath⟩, by simp, ?_⟩
      rw [Document.load_of_blank _ _ hblank]
  | false =>
      have hread : world.read (cleanPath file) = world.read file := by rw [hclean]
      cases hfile : world.read file with
      | error error =>
          refine .inl ⟨.inr (.inl ⟨error, hfile⟩), _, ?_,
            Document.load_of_read_error world.grammar hblank hnul (hread.trans hfile)⟩
          simp
      | ok bytes =>
          obtain ⟨hflags, -⟩ := hregular bytes _ hfile rfl
          rcases Document.load_of_read_ok world.grammar hblank hnul (hread.trans hfile) with
            ⟨hill, -, hload⟩ | ⟨text, htext, -, -, ⟨hdamaged, e, hload⟩ | ⟨hsound, hload⟩⟩
          · exact .inl ⟨.inr (.inr ⟨bytes, hfile, .inl hill⟩), _, by simp, hload⟩
          · exact .inl ⟨.inr (.inr ⟨bytes, hfile, .inr (hflags.damaged_iff.mp hdamaged)⟩), _,
              by simp, hload⟩
          · refine .inr ⟨?_, _, ⟨bytes, hfile, Tree.ofRead_eq_ok_iff.mpr ⟨hsound, rfl⟩⟩, hload⟩
            rintro (hblank' | ⟨error, herror⟩ | ⟨other, hother, hfails⟩)
            · simp [hblank] at hblank'
            · simp [hfile] at herror
            · obtain rfl : bytes = other := Except.ok.inj (hfile.symm.trans hother)
              rcases hfails with hill | hfault
              · exact hill ((Utf8.wellFormed_dropMark_iff bytes).mp ⟨text, htext⟩)
              · simp [hflags.damaged_iff.mpr hfault] at hsound

/-! The report. -/

theorem Settings.report_of_error (s : Settings) {loaded : Logged (Except LoadError Document)}
    {e : LoadError} (h : loaded.result = .error e) (hnul : e ≠ .nulInPath) :
    s.report loaded = ⟨1, "", s.shown loaded.log ++ ["Error: " ++ e.message]⟩ := by
  rw [Settings.report, h]
  cases e with
  | nulInPath => exact absurd rfl hnul
  | acquisition error => rfl
  | unparsable error => rfl

theorem Settings.report_of_ok (s : Settings) {loaded : Logged (Except LoadError Document)}
    {doc : Document} (h : loaded.result = .ok doc) (htree : doc.tree.StartsInside) :
    ∃ report log, (Engine.ofConfig {}).analyze doc.tree = .ok report ∧
      s.report loaded = ⟨0, Report.printed ⟨report.findings.filter fun f => f.ruleId ∉ s.disabled⟩
        s.verbose, s.shown log⟩ := by
  have hkept : s.config.enabledRules.flatMap (fun r => r.block doc.tree) =
      ((Config.enabledRules {}).flatMap fun r => r.block doc.tree).filter
        fun f => f.ruleId ∉ s.disabled := by
    rw [Config.enabledRules_of_nil, Engine.filter_flatMap_block _ htree (fun id => id ∉ s.disabled),
      Config.enabledRules_eq]
    rfl
  refine ⟨_, loaded.log ++ s.engine.log doc.tree, Engine.analyze_ofConfig {} htree, ?_⟩
  rw [Settings.report, h]
  simp only [Settings.engine, Engine.analyze_ofConfig s.config htree, hkept]

/-! A run over a file. -/

theorem not_mem_cleanPath_trim {path : String} (hnul : '\x00' ∉ path.toList) :
    '\x00' ∉ (cleanPath (Text.trim path)).toList := by
  intro h
  rcases of_mem_cleanPath h with h | h | h
  · rw [Text.trim, String.toList_ofList, Text.trimEnd, List.mem_reverse] at h
    have hstart := List.mem_reverse.mp ((List.dropWhile_suffix _).subset h)
    exact hnul ((List.dropWhile_suffix _).subset hstart)
  · exact absurd h (by decide)
  · exact absurd h (by decide)

section OnPath

variable {world : Surroundings} {path : String}

/-- A file that cannot be analysed leaves one error behind and nothing in the output,
and every other file its report. -/
theorem Settings.runOn_cases (s : Settings) (hblank : Text.isBlankText path = false)
    (hnul : '\x00' ∉ path.toList) (hregular : world.Regular (cleanPath (Text.trim path))) :
    (world.Fails (cleanPath (Text.trim path)) ∧
      ∃ (log : List Log.Record) (message : String),
        s.runOn world path = ⟨1, "", log.map Log.Record.line ++ ["Error: " ++ message]⟩) ∨
    (¬ world.Fails (cleanPath (Text.trim path)) ∧
      ∃ (tree : Tree) (report : Report) (log : List Log.Record),
        world.Reads (cleanPath (Text.trim path)) tree ∧
        (Engine.ofConfig {}).analyze tree = .ok report ∧
        s.runOn world path =
          ⟨0, Report.printed ⟨report.findings.filter fun f => f.ruleId ∉ s.disabled⟩ s.verbose,
            log.map Log.Record.line⟩) := by
  rw [Settings.runOn, if_neg (by simp [hblank])]
  rcases load_cases (cleanPath_cleanPath _) (not_mem_cleanPath_trim hnul) hregular with
    ⟨hfails, e, hforeseen, hload⟩ | ⟨hworks, doc, hreads, hload⟩
  · exact .inl ⟨hfails, _, _, s.report_of_error hload hforeseen⟩
  · obtain ⟨report, log, hreport, houtcome⟩ := s.report_of_ok hload (hregular.startsInside hreads)
    exact .inr ⟨hworks, doc.tree, report, _, hreads, hreport, houtcome⟩

theorem Settings.runOn_congr (s : Settings)
    (hname : Text.isBlankText path = true ∨ Text.isBlankText (cleanPath (Text.trim path)) = true)
    (read : String → Except ReadError Bytes) (grammar : Grammar) :
    s.runOn { world with read, grammar } path = s.runOn world path := by
  rw [Settings.runOn, Settings.runOn]
  split
  · rfl
  · next hblank =>
    have hfile := hname.resolve_left hblank
    rw [Document.load_of_blank _ _ hfile, Document.load_of_blank _ _ hfile]

end OnPath

/-! Whole runs. -/

section Runs

variable {words : List String} {args : Arguments} {world : Surroundings} {path : String}

theorem run_of_rejected (hargs : Arguments.ofWords words = .ok args) (h : args.Rejected) :
    ∃ e, ∀ world, run words world = .error e := by
  rcases Settings.ofArguments_cases args with ⟨-, e, hsettings⟩ | ⟨haccepted, -⟩
  · refine ⟨e, fun world => ?_⟩
    simp only [run, Settings.ofWords, hargs, hsettings]
    rfl
  · exact absurd h haccepted

theorem run_of_accepted (hargs : Arguments.ofWords words = .ok args) (h : ¬ args.Rejected) :
    ∃ s : Settings, s.verbose = args.verbose ∧ s.disabled = args.disabled ∧
      ∀ world path, args.pathIn world = some path →
        run words world = .ok ((s.runOn world path).after args.prompt) := by
  rcases Settings.ofArguments_cases args with ⟨hrejected, -⟩ | ⟨-, s, hsettings, hpath, hs⟩
  · exact absurd hrejected h
  · refine ⟨s, hs.1, hs.2, fun world path hgiven => ?_⟩
    simp only [run, Settings.ofWords, hargs, hsettings, ← Settings.run_eq hpath hgiven]
    rfl

/-- The run wrote an error and log lines, and no output but the question for a path. -/
def EndsInError (args : Arguments) (result : Except UsageError Outcome) : Prop :=
  ∃ (log : List Log.Record) (message : String),
    result = .ok ⟨1, args.prompt, log.map Log.Record.line ++ ["Error: " ++ message]⟩

/-- The run printed the default report of a file without the findings of the rules
that are left out. -/
def EndsInReport (args : Arguments) (world : Surroundings) (file : String)
    (result : Except UsageError Outcome) : Prop :=
  ∃ (tree : Tree) (report : Report) (log : List Log.Record),
    world.Reads file tree ∧ (Engine.ofConfig {}).analyze tree = .ok report ∧
    result = .ok
      ⟨0, args.prompt ++ Report.printed
        ⟨report.findings.filter fun f => f.ruleId ∉ args.disabled⟩ args.verbose,
        log.map Log.Record.line⟩

theorem run_cases (hargs : Arguments.ofWords words = .ok args)
    (hpath : args.pathIn world = some path) (hnul : '\x00' ∉ path.toList)
    (hregular : world.Regular (cleanPath (Text.trim path))) :
    (args.Rejected ∧ ∃ e, run words world = .error e) ∨
    (¬ args.Rejected ∧ Text.isBlankText path = true ∧
      run words world = .ok ⟨1, args.prompt ++ "Invalid filepath\n", []⟩) ∨
    (¬ args.Rejected ∧ Text.isBlankText path = false ∧
      world.Fails (cleanPath (Text.trim path)) ∧ EndsInError args (run words world)) ∨
    (¬ args.Rejected ∧ Text.isBlankText path = false ∧
      ¬ world.Fails (cleanPath (Text.trim path)) ∧
      EndsInReport args world (cleanPath (Text.trim path)) (run words world)) := by
  by_cases hrejected : args.Rejected
  · obtain ⟨e, herror⟩ := run_of_rejected hargs hrejected
    exact .inl ⟨hrejected, e, herror world⟩
  obtain ⟨s, hverbose, hdisabled, hrun⟩ := run_of_accepted hargs hrejected
  rw [hrun world path hpath]
  cases hblank : Text.isBlankText path with
  | true =>
      refine .inr (.inl ⟨hrejected, rfl, ?_⟩)
      rw [Settings.runOn, if_pos hblank]
      rfl
  | false =>
      rcases s.runOn_cases hblank hnul hregular with
        ⟨hfails, log, message, houtcome⟩ | ⟨hworks, tree, report, log, hreads, hreport, houtcome⟩
      · refine .inr (.inr (.inl ⟨hrejected, rfl, hfails, log, message, ?_⟩))
        rw [houtcome, Outcome.after, String.append_empty]
      · refine .inr (.inr (.inr ⟨hrejected, rfl, hworks, tree, report, log, hreads, hreport, ?_⟩))
        rw [houtcome, hverbose, hdisabled]
        rfl

theorem run_congr (hargs : Arguments.ofWords words = .ok args)
    (hpath : args.pathIn world = some path)
    (hname : Text.isBlankText path = true ∨ Text.isBlankText (cleanPath (Text.trim path)) = true)
    (read : String → Except ReadError Bytes) (grammar : Grammar) :
    run words { world with read, grammar } = run words world := by
  by_cases hrejected : args.Rejected
  · obtain ⟨e, herror⟩ := run_of_rejected hargs hrejected
    rw [herror, herror]
  · obtain ⟨s, -, -, hrun⟩ := run_of_accepted hargs hrejected
    rw [hrun world path hpath, hrun { world with read, grammar } path hpath,
      s.runOn_congr hname read grammar]

/-- Every run has exactly one of four outcomes. Words that ask for something that there
is not end it before anything is asked or read. A blank path gets one line of output.
A file that has no name, cannot be read, is not text or has a fault gives an error and
no output, and every other file its printed report. Without a name no file is read. -/
theorem run_outcomes (hargs : Arguments.ofWords words = .ok args)
    (hpath : args.pathIn world = some path) (hnul : '\x00' ∉ path.toList)
    (hregular : world.Regular (cleanPath (Text.trim path))) :
    ((exitCode (run words world) = 2 ↔ args.Rejected) ∧
      (args.Rejected → ∃ e, ∀ other, run words other = .error e)) ∧
    (run words world = .ok ⟨1, args.prompt ++ "Invalid filepath\n", []⟩ ↔
      ¬ args.Rejected ∧ Text.isBlankText path = true) ∧
    (EndsInError args (run words world) ↔
      ¬ args.Rejected ∧ Text.isBlankText path = false ∧
        world.Fails (cleanPath (Text.trim path))) ∧
    ((exitCode (run words world) = 0 ↔
        ¬ args.Rejected ∧ Text.isBlankText path = false ∧
          ¬ world.Fails (cleanPath (Text.trim path))) ∧
      (exitCode (run words world) = 0 →
        EndsInReport args world (cleanPath (Text.trim path)) (run words world))) ∧
    (Text.isBlankText path = true ∨ Text.isBlankText (cleanPath (Text.trim path)) = true →
      ∀ read grammar, run words { world with read, grammar } = run words world) := by
  -- in each case the exit code and the lines on the error stream rule the other three out
  rcases run_cases hargs hpath hnul hregular with
    ⟨hrejected, e, hrun⟩ | ⟨haccepted, hblank, hrun⟩ | ⟨haccepted, hnamed, hfails, hends⟩ |
    ⟨haccepted, hnamed, hworks, hends⟩
  · refine ⟨⟨?_, run_of_rejected hargs⟩, ?_, ?_, ⟨?_, ?_⟩, run_congr hargs hpath⟩ <;>
      simp [hrun, hrejected, exitCode, usageExitCode, EndsInError]
  · refine ⟨⟨?_, run_of_rejected hargs⟩, ?_, ?_, ⟨?_, ?_⟩, run_congr hargs hpath⟩ <;>
      simp [hrun, haccepted, hblank, exitCode, EndsInError]
  · have ⟨log, message, hrun⟩ := hends
    refine ⟨⟨?_, run_of_rejected hargs⟩, ?_, iff_of_true hends ⟨haccepted, hnamed, hfails⟩,
      ⟨?_, ?_⟩, run_congr hargs hpath⟩ <;>
      simp [hrun, haccepted, hnamed, hfails, exitCode]
  · have ⟨tree, report, log, _, _, hrun⟩ := hends
    refine ⟨⟨?_, run_of_rejected hargs⟩, ?_, ?_, ⟨?_, fun _ => hends⟩, run_congr hargs hpath⟩ <;>
      simp [hrun, haccepted, hnamed, hworks, exitCode, EndsInError]

end Runs

theorem regular_of_grammar {world : Surroundings} {raw : Concrete.Node}
    (hgrammar : ∀ source, world.grammar source = raw) (hflags : raw.FlagsConsistent)
    (hstarts : ∀ c ∈ raw.preorder, c.span.start = 0) (file : String) : world.Regular file := by
  intro bytes source _ _
  rw [hgrammar]
  refine ⟨hflags, fun c hc => ?_⟩
  have hstart := hstarts c hc
  omega

def publicFieldTree : Concrete.Node :=
  .branch "compilation_unit" ⟨0, 13⟩
    [.branch "field_declaration" ⟨0, 13⟩ [.branch "modifier" ⟨0, 6⟩ []]]

/-- A public field in a file that starts with a byte-order mark. The path is typed with
blanks around it. -/
def publicFieldFile : Surroundings where
  read path :=
    if path = "a.cs" then .ok (Utf8.byteOrderMark ++ Utf8.encode "public int x;")
    else .error .notFound
  typed := "  a.cs \n"
  grammar _ := publicFieldTree

theorem not_fails_publicFieldFile : ¬ publicFieldFile.Fails "a.cs" := by
  have hsound : ¬ ∃ c ∈ publicFieldTree.preorder, c.isFault = true := by decide
  rintro (hblank | ⟨e, herror⟩ | ⟨bytes, hread, hill | hfault⟩)
  · exact absurd hblank (by decide)
  · cases herror
  · obtain rfl := Except.ok.inj hread
    exact hill ⟨"\uFEFFpublic int x;", by decide⟩
  · exact hsound hfault

/-- The file is analysed, and the run prints what one rule finds and not what the other
does. -/
theorem run_outcomes_publicFieldFile :
    exitCode (run ["--disable", "public-field"] publicFieldFile) = 0 ∧
      EndsInReport { disabled := ["public-field"] } publicFieldFile "a.cs"
        (run ["--disable", "public-field"] publicFieldFile) := by
  have hargs : Arguments.ofWords ["--disable", "public-field"] =
      .ok { disabled := ["public-field"] } := by decide +kernel
  have hpath : Arguments.pathIn { disabled := ["public-field"] } publicFieldFile =
      some "  a.cs " := by decide +kernel
  have hfile : cleanPath (Text.trim "  a.cs ") = "a.cs" := by decide +kernel
  have haccepted : ¬ Arguments.Rejected { disabled := ["public-field"] } := by
    unfold Arguments.Rejected
    decide +kernel
  have hflags : publicFieldTree.FlagsConsistent := by
    unfold Concrete.Node.FlagsConsistent
    decide
  have houtcomes := run_outcomes hargs hpath (by decide)
    (regular_of_grammar (fun _ => rfl) hflags (by decide) _)
  rw [hfile] at houtcomes
  obtain ⟨-, -, -, ⟨hcode, hends⟩, -⟩ := houtcomes
  have hzero := hcode.mpr ⟨haccepted, by decide, not_fails_publicFieldFile⟩
  exact ⟨hzero, hends hzero⟩

def emptyClassTree : Concrete.Node :=
  .branch "compilation_unit" ⟨0, 11⟩ []

def blankName : Surroundings where
  read path := if path = " " then .ok (Utf8.encode "class A \x7b \x7d") else .error .notFound
  typed := ""
  grammar _ := emptyClassTree

/-- The path of a file whose name is a blank need not be blank, and the file can be
read and its tree is sound. The run still ends in an error. -/
theorem run_blankName :
    Arguments.ofWords ["./ /"] = .ok { path := some "./ /" } ∧
      ¬ Arguments.Rejected { path := some "./ /" } ∧ Text.isBlankText "./ /" = false ∧
      blankName.read (cleanPath (Text.trim "./ /")) = .ok (Utf8.encode "class A \x7b \x7d") ∧
      blankName.Regular (cleanPath (Text.trim "./ /")) ∧ emptyClassTree.damaged = false ∧
      run ["./ /"] blankName = .ok ⟨1, "", ["Error: Invalid filepath"]⟩ := by
  have haccepted : ¬ Arguments.Rejected { path := some "./ /" } := by
    unfold Arguments.Rejected
    decide +kernel
  have hflags : emptyClassTree.FlagsConsistent := by
    unfold Concrete.Node.FlagsConsistent
    decide
  exact ⟨by decide +kernel, haccepted, by decide, by decide +kernel,
    regular_of_grammar (fun _ => rfl) hflags (by decide) _, rfl, by decide +kernel⟩

end CommandLine

end CSharpAudit

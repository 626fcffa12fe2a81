import QueryHooks.Format
import QueryHooks.Proofs.Generate
import QueryHooks.Proofs.World

namespace QueryHooks

-- The computation fails with the first fault that is there, and only if one is.
def FailsBy (x : Except Error α) (faults : List (Option Error)) : Prop :=
  ∀ e, x = .error e ↔ faults.findSome? id = some e

namespace FailsBy

theorem ok (a : α) : FailsBy (.ok a) [] := by
  simp [FailsBy]

theorem exists_ok (h : FailsBy x faults) (hn : faults.findSome? id = none) : ∃ a, x = .ok a := by
  cases x
  case error e => simpa [hn] using h e
  case ok a    => exact ⟨a, rfl⟩

theorem findSome?_of_ok (h : FailsBy (.ok a) faults) : faults.findSome? id = none := by
  cases hf : faults.findSome? id
  case none   => rfl
  case some e => simpa [hf] using h e

-- What comes next has its faults behind those of what comes first.
theorem bind (h : FailsBy x faults) (hf : ∀ a, x = .ok a → FailsBy (f a) faults') :
    FailsBy (x >>= f) (faults ++ faults') := by
  intro e
  cases x
  case error e' =>
    have he := (h e').mp rfl
    simp [Bind.bind, Except.bind, List.findSome?_append, he]
  case ok a     =>
    have hn := h.findSome?_of_ok
    simpa [Bind.bind, Except.bind, List.findSome?_append, hn] using hf a rfl e

theorem bind_ok {f : α → β} (h : FailsBy x faults) : FailsBy (x >>= fun a => .ok (f a)) faults := by
  cases x <;> simpa [FailsBy, Bind.bind, Except.bind] using h

-- The faults of one step count as one.
theorem join (h : FailsBy x faults) : FailsBy x [faults.findSome? id] := by
  intro e
  rw [h e]
  cases faults.findSome? id <;> simp

end FailsBy

namespace Source

variable (r : Readers) (s : Source)

def readFault? : Option Error :=
  match s.text with
  | .error reason => some (.unreadable s.path reason)
  | .ok _         => none

def formatFault? : Option Error :=
  if (format? s.path).isNone then some (.unknownFormat s.path) else none

-- The file can be read and its format is known, but the reader refuses what it says.
def parseFault? (input : Input) (ofDatum? : Format → Datum → Option α) : Option Error := do
  let text ← s.text.toOption
  let format ← format? s.path
  if ((r.datum? format input text).bind (ofDatum? format)).isNone then
    some (.malformed format s.path (r.refusal format input text))
  else none

theorem failsBy_decode (input : Input) (ofDatum? : Format → Datum → Option α) :
    FailsBy (s.decode r input ofDatum?) [s.readFault?, s.formatFault?, s.parseFault? r input ofDatum?] := by
  rw [decode, readFault?, formatFault?, parseFault?]
  cases s.text
  case error reason => simp [FailsBy]
  case ok text      =>
    cases format? s.path
    case none        => simp [FailsBy]
    case some format =>
      simp only [Except.toOption, Option.bind_eq_bind, Option.bind_some]
      cases (r.datum? format input text).bind (ofDatum? format) <;> simp [FailsBy]

end Source

namespace FetcherSetting

-- Queries are to get their hooks from a combined factory, and there is none.
def fault? : FetcherSetting → Option Error
  | native setting =>
    if setting.isQueryAndQueryClient && setting.queryAndQueryClientFunc.isNone then some .missingCombinedFactory
    else none
  | _              => none

theorem failsBy_ofSetting (s : FetcherSetting) : FailsBy (Fetcher.ofSetting s) [s.fault?] := by
  cases s
  case native setting =>
    have hc : (NativeConfig.ofSetting setting).isComplete =
        !(setting.isQueryAndQueryClient && setting.queryAndQueryClientFunc.isNone) := by
      rw [Bool.not_and, Option.not_isNone]
      rfl
    simp only [Fetcher.ofSetting, fault?, hc]
    cases setting.isQueryAndQueryClient && setting.queryAndQueryClientFunc.isNone <;> simp [FailsBy]
  all_goals simp [FailsBy, Fetcher.ofSetting, fault?]

end FetcherSetting

theorem Config.failsBy_ofSettings (s : Settings) :
    FailsBy (ofSettings s) [s.fetcher.bind FetcherSetting.fault?] := by
  refine FailsBy.bind_ok ?_
  cases s.fetcher
  case none         => simp [FailsBy]
  case some setting => exact setting.failsBy_ofSetting

namespace Mapper

def fault? (text : String) : Option Error :=
  match readTrimmed (Text.trim text.toList) with
  | .ok _        => none
  | .error fault => some (.invalidMapper text fault)

theorem failsBy_read (text : String) : FailsBy (read text) [fault? text] := by
  rw [read, fault?]
  cases readTrimmed (Text.trim text.toList) <;> simp [FailsBy, Except.mapError]

end Mapper

namespace Fetcher

-- The mappers in the order they are read in.
def mappers : Fetcher → List String
  | fetch ..      => []
  | mapper func _ => [func]
  | native config =>
    (if config.isCombined then config.combined.toList else []) ++ [config.query, config.infinite, config.mutation]

def isComplete : Fetcher → Bool
  | native config => config.isComplete
  | _             => true

end Fetcher

theorem Native.failsBy_readCombined {c : NativeConfig} (h : c.isComplete) :
    FailsBy (readCombined c) ((if c.isCombined then c.combined.toList else []).map Mapper.fault?) := by
  rw [readCombined]
  cases hc : c.isCombined
  case false => simp [FailsBy]
  case true =>
    obtain ⟨func, hf⟩ := Option.isSome_iff_exists.mp <| by simpa [NativeConfig.isComplete, hc] using h
    simp only [hf, ite_true, Option.toList_some, List.map_singleton]
    exact (Mapper.failsBy_read func).bind_ok

theorem Native.failsBy_read {c : NativeConfig} (h : c.isComplete) :
    FailsBy (read c) ((Fetcher.native c).mappers.map Mapper.fault?) := by
  rw [Fetcher.mappers, List.map_append]
  refine (failsBy_readCombined h).bind fun _ _ => ?_
  refine (Mapper.failsBy_read c.query).bind fun _ _ => ?_
  refine (Mapper.failsBy_read c.infinite).bind fun _ _ => ?_
  exact (Mapper.failsBy_read c.mutation).bind_ok

theorem Fetcher.isComplete_of_ofSetting (h : ofSetting setting = .ok f) : f.isComplete := by
  cases setting
  case name text =>
    cases h
    simp only [ofName]
    split
    · rfl
    · split <;> rfl
  case native setting =>
    simp only [ofSetting] at h
    split at h
    case isTrue hc  => cases h; exact hc
    case isFalse hc => contradiction
  all_goals cases h; rfl

theorem Config.isComplete_of_ofSettings (h : ofSettings s = .ok c) : c.fetcher.isComplete := by
  obtain ⟨f, hf, h⟩ := bind_eq_ok.mp h
  cases h
  cases hs : s.fetcher
  case none         => rw [hs] at hf; cases hf; rfl
  case some setting => exact Fetcher.isComplete_of_ofSetting (hs ▸ hf)

theorem Strategy.failsBy_ofFetcher (h : f.isComplete) : FailsBy (ofFetcher f) (f.mappers.map Mapper.fault?) := by
  cases f
  case fetch                   => exact .ok _
  case mapper func isReactHook => exact (Mapper.failsBy_read func).bind_ok
  case native c                => exact (Native.failsBy_read h).bind_ok

-- The steps on the way to the generated file, in their order.
inductive Step where
  | readConfig
  | formatConfig
  | parseConfig
  | resolveConfig
  | readOperations
  | formatOperations
  | parseOperations
  | readMappers

namespace Step

def all : List Step :=
  [readConfig, formatConfig, parseConfig, resolveConfig, readOperations, formatOperations, parseOperations, readMappers]

variable {r : Readers} {config operations : Source}

-- What is wrong with the input of the step, if it gets as far as having one.
def fault? (r : Readers) (config operations : Source) : Step → Option Error
  | readConfig       => config.readFault?
  | formatConfig     => config.formatFault?
  | parseConfig      => config.parseFault? r .settings Settings.ofDatum?
  | resolveConfig    => (config.settings r).toOption.bind fun s => s.fetcher.bind FetcherSetting.fault?
  | readOperations   => operations.readFault?
  | formatOperations => operations.formatFault?
  | parseOperations  => operations.parseFault? r .operations fun _ => OperationsFile.ofDatum?
  | readMappers      =>
    ((config.settings r).bind Config.ofSettings).toOption.bind fun c =>
      (c.fetcher.mappers.map Mapper.fault?).findSome? id

-- The steps that depend on what is read before.
theorem fault?_resolveConfig (hs : config.settings r = .ok settings) :
    fault? r config operations resolveConfig = settings.fetcher.bind FetcherSetting.fault? := by
  simp [fault?, hs, Except.toOption]

theorem fault?_readMappers (hs : config.settings r = .ok settings) (hc : Config.ofSettings settings = .ok c) :
    fault? r config operations readMappers = (c.fetcher.mappers.map Mapper.fault?).findSome? id := by
  simp [fault?, hs, hc, Except.bind, Except.toOption]

end Step

theorem failsBy_generate (h : c.fetcher.isComplete) (documents : String) (ops : List Operation) :
    FailsBy (generate c documents ops) (c.fetcher.mappers.map Mapper.fault?) :=
  (Strategy.failsBy_ofFetcher h).bind_ok

namespace Report

variable (r : Readers) (config operations : Source)

-- The configuration and the operations that the inputs stand for.
def inputs : Except Error (Config × OperationsFile) := do
  let settings ← config.settings r
  let c ← Config.ofSettings settings
  let input ← operations.operations r
  .ok (c, input)

def ofSources : Report HooksFile := do
  let c ← configure r config
  let input ← load r config.path operations
  generate c input

theorem result_configure : (configure r config).result = config.settings r >>= Config.ofSettings := by
  simp only [configure, Config.resolve, result_bind, result_ofExcept, result_tell, result_pure]
  exact congrArg _ <| funext fun s => bind_pure (Config.ofSettings s)

theorem result_load (configPath : String) : (load r configPath operations).result = operations.operations r := by
  simp only [load, result_bind, result_ofExcept, result_tell, result_pure]
  exact bind_pure _

theorem result_generate : (generate c input).result = QueryHooks.generate c input.documents input.operations := by
  cases hs : Strategy.ofFetcher c.fetcher <;> simp [generate, QueryHooks.generate, hs, bind, Except.bind]

theorem result_ofSources :
    (ofSources r config operations).result =
      inputs r config operations >>= fun (c, input) => QueryHooks.generate c input.documents input.operations := by
  simp only [ofSources, inputs, result_bind, result_configure, result_load, result_generate, bind_assoc]
  rfl

theorem failsBy_ofSources :
    FailsBy (ofSources r config operations).result (Step.all.map (Step.fault? r config operations)) := by
  rw [result_ofSources, inputs]
  simp only [bind_assoc]
  refine (config.failsBy_decode r .settings Settings.ofDatum?).bind fun settings (hs : config.settings r = _) => ?_
  have hr := Config.failsBy_ofSettings settings
  rw [← Step.fault?_resolveConfig hs] at hr
  refine hr.bind fun c hc => ?_
  refine (operations.failsBy_decode r .operations fun _ => OperationsFile.ofDatum?).bind fun input _ => ?_
  have hm := failsBy_generate (Config.isComplete_of_ofSettings hc) input.documents input.operations |>.join
  rwa [← Step.fault?_readMappers hs hc] at hm

variable {r config operations}

-- Without a fault, there is a file, and so there would be for any other operations.
theorem exists_file_of_no_fault (h : Step.all.findSome? (Step.fault? r config operations) = none) :
    ∃ c input, inputs r config operations = .ok (c, input) ∧
      (∀ documents ops, ∃ file, QueryHooks.generate c documents ops = .ok file) := by
  have hf := failsBy_ofSources r config operations
  obtain ⟨file, hr⟩ := hf.exists_ok <| by simpa [List.findSome?_map] using h
  rw [result_ofSources] at hr
  obtain ⟨⟨c, input⟩, hi, hg⟩ := bind_eq_ok.mp hr
  obtain ⟨s, hs, _⟩ := bind_eq_ok.mp hg
  exact ⟨c, input, hi, fun documents ops => ⟨_, generate_of_ofFetcher hs documents ops⟩⟩

end Report

namespace Command

-- A flag that has not been given yet, with a value in the next argument.
theorem generate?_flag (hh : asksHelp arg = false) (hn : arg ≠ "--") (hf : flag? arg = some (f, none))
    (hv : isValue value) (hv' : value ≠ "") (hd : d.get? f = none) :
    generate? d (arg :: value :: args) = generate? (d.put value f) args := by
  have hs : d.set? f value = some (d.put value f) := by simp [Job.Draft.set?, hv', hd]
  rw [generate?.eq_def]
  simp [hh, hn, hf, hv, hs]

-- The arguments in the order that the manual gives them in.
theorem ofArguments?_generate (hc : isValue config ∧ config ≠ "") (ho : isValue operations ∧ operations ≠ "")
    (args : List String) :
    ofArguments? ("generate" :: "--config" :: config :: "--operations" :: operations :: args) =
      generate? { config? := config, operations? := operations } args := by
  rw [ofArguments?, generate?_flag (by decide) (by decide) rfl hc.left hc.right rfl,
    generate?_flag (by decide) (by decide) rfl ho.left ho.right rfl]
  rfl

end Command

namespace Job

variable {r : Readers} {f : Refusals} {t : FileTree} {j : Job}

-- The first fault on the way to the file.
def fault? (r : Readers) (f : Refusals) (t : FileTree) (j : Job) : Option Error :=
  Step.all.findSome? <| Step.fault? r (t.source f j.config) (t.source f j.operations)

-- What the inputs come to, and the events on the way.
def report (r : Readers) (f : Refusals) (t : FileTree) (j : Job) : Report HooksFile :=
  .ofSources r (t.source f j.config) (t.source f j.operations)

theorem result_report_eq_error : (j.report r f t).result = .error e ↔ j.fault? r f t = some e := by
  have hf := Report.failsBy_ofSources r (t.source f j.config) (t.source f j.operations) e
  rwa [List.findSome?_map] at hf

-- The inputs are read one by one, but nothing happens to the files in between.
theorem run_file (w : World) :
    (j.file (World.effects f) r).run.run w = ((World.effects f).tell (j.report r f w.files)).run.run w := by
  refine (World.run_bind_of_ok (World.run_source _)).trans <| World.run_tell_bind fun c => ?_
  refine (World.run_bind_of_ok (World.run_source _)).trans <| World.run_tell_bind fun input => ?_
  rfl

theorem run_generate_of_error (h : (j.report r f w.files).result = .error e) :
    ∃ events, (j.generate (World.effects f) r).run.run w = (.error e, w.logging events) := by
  have hf := run_file (r := r) (f := f) (j := j) w
  rw [World.run_tell, h] at hf
  exact ⟨_, World.run_bind_of_error hf⟩

theorem run_generate_of_ok {file : HooksFile} (h : (j.report r f w.files).result = .ok file) :
    ∃ events, (j.generate (World.effects f) r).run.run w =
      (j.deliver (World.effects f) file.render).run.run (w.logging events) := by
  have hf := run_file (r := r) (f := f) (j := j) w
  rw [World.run_tell, h] at hf
  exact ⟨_, World.run_bind_of_ok hf⟩

theorem run_deliver_of_none (ho : j.out? = none) (text : String) :
    (j.deliver (World.effects f) text).run.run w = (.ok (), { w with stdout := w.stdout ++ text }) := by
  rw [deliver, ho]
  rfl

theorem run_deliver_of_some (ho : j.out? = some path)
    (h : ((World.effects f).save path text).run.run { files := w.files } = (.ok (), w')) :
    (j.deliver (World.effects f) text).run.run w =
      (.ok (), { w with files := w'.files, events := w.events ++ [.fileWritten path] }) := by
  rw [deliver, ho]
  exact World.run_bind_of_ok (World.run_save_of_ok h)

theorem outcome_of_run_eq_error (h : (j.generate (World.effects f) r).run.run { files := t } = (.error e, w)) :
    World.outcome (j.execute (World.effects f) r) t =
      { w with code := 1, stderr := w.stderr ++ e.message ++ "\n" } := by
  rw [World.outcome, execute, StateT.run_bind, h, String.append_assoc]
  rfl

theorem outcome_of_run_eq_ok (h : (j.generate (World.effects f) r).run.run { files := t } = (.ok (), w)) :
    World.outcome (j.execute (World.effects f) r) t = { w with code := 0 } := by
  rw [World.outcome, execute, StateT.run_bind, h]
  rfl

theorem outcome_of_error (h : (j.report r f t).result = .error e) :
    ∃ events, World.outcome (j.execute (World.effects f) r) t =
      { code := 1, stderr := e.message ++ "\n", files := t, events } := by
  obtain ⟨events, hg⟩ := run_generate_of_error (w := { files := t }) h
  rw [outcome_of_run_eq_error hg]
  exact ⟨events, by simp [World.logging]⟩

theorem outcome_of_printed {file : HooksFile} (h : (j.report r f t).result = .ok file) (ho : j.out? = none) :
    ∃ events, World.outcome (j.execute (World.effects f) r) t =
      { code := 0, stdout := file.render, files := t, events } := by
  obtain ⟨events, hg⟩ := run_generate_of_ok (w := { files := t }) h
  rw [run_deliver_of_none ho] at hg
  rw [outcome_of_run_eq_ok hg]
  exact ⟨events, by simp [World.logging]⟩

theorem outcome_of_saved {file : HooksFile} (h : (j.report r f t).result = .ok file) (ho : j.out? = some path)
    (hs : ((World.effects f).save path file.render).run.run { files := t } = (.ok (), w)) :
    ∃ events, World.outcome (j.execute (World.effects f) r) t = { code := 0, files := w.files, events } := by
  obtain ⟨events, hg⟩ := run_generate_of_ok (w := { files := t }) h
  rw [run_deliver_of_some (w := World.logging { files := t } events) ho hs] at hg
  rw [outcome_of_run_eq_ok hg]
  exact ⟨_, rfl⟩

end Job

theorem run_of_arguments (h : Command.ofArguments? args = some (.generate j)) :
    run r f t args = World.outcome (j.execute (World.effects f) r) t := by
  rw [run, execute, h]
  rfl

theorem generate_all_or_nothing (r : Readers) (f : Refusals) (t : FileTree)
    (h : Command.ofArguments? args = some (.generate j)) :
    (∀ e, j.fault? r f t = some e →
      ∃ events, run r f t args = { code := 1, stderr := e.message ++ "\n", files := t, events }) ∧
    (j.fault? r f t = none → ∃ c input file,
      Report.inputs r (t.source f j.config) (t.source f j.operations) = .ok (c, input) ∧
      (∀ documents ops, ∃ file, generate c documents ops = .ok file) ∧
      generate c input.documents input.operations = .ok file ∧
      (∀ args, Command.ofArguments? args = some (.generate { j with out? := none }) →
        ∃ events, run r f t args = { code := 0, stdout := file.render, files := t, events }) ∧
      ∀ path w, j.out? = some path → ((World.effects f).save path file.render).run.run { files := t } = (.ok (), w) →
        (∃ events, run r f t args = { code := 0, files := w.files, events }) ∧
          w.files.read? path = some file.render) := by
  constructor
  case left =>
    intro e he
    rw [run_of_arguments h]
    exact Job.outcome_of_error <| Job.result_report_eq_error.mpr he
  case right =>
    intro hn
    obtain ⟨c, input, hi, hg⟩ := Report.exists_file_of_no_fault hn
    obtain ⟨file, hf⟩ := hg input.documents input.operations
    have ho : (j.report r f t).result = .ok file := by
      rw [Job.report, Report.result_ofSources, hi]
      exact hf
    refine ⟨c, input, file, hi, hg, hf, fun args hp => ?_, fun path w hp hw => ⟨?_, World.read?_of_save hw⟩⟩
    · rw [run_of_arguments hp]
      exact Job.outcome_of_printed (j := { j with out? := none }) ho rfl
    · rw [run_of_arguments h]
      exact Job.outcome_of_saved ho hp hw

-- The first of two faults is reported. Without it and the other one, the file is saved as it would be printed.
theorem generate_all_or_nothing_native :
    let f : Refusals := {
      read            := fun _ _ => "No such file or directory (os error 2)"
      makeDirectories := fun _ _ => "File exists (os error 17)"
      write           := fun _ _ => "Is a directory (os error 21)" }
    let combined := "\x7b \"fetcher\": \x7b \"isQueryAndQueryClient\": true \x7d \x7d"
    let incomplete : FileTree := { here := ["work"], files := [(["codegen.json", "work"], some combined)] }
    let complete : FileTree := {
      here  := ["work"],
      files := [
        (["codegen.json", "work"], some "\x7b \"fetcher\": \"native\" \x7d"),
        (["operations.json", "work"], some "[[\"query\", \"user\"]]")] }
    let job : Job := { config := "codegen.json", operations := "operations.json", out? := some "hooks.ts" }
    let printed := ["generate", "--config", "codegen.json", "--operations", "operations.json"]
    let args := printed ++ ["--out", "hooks.ts"]
    Command.ofArguments? args = some (.generate job) ∧
      (run .standard f incomplete args).stderr = Error.missingCombinedFactory.message ++ "\n" ∧
      (run .standard f incomplete args).files = incomplete ∧
      (run .standard f complete args).code = 0 ∧
      (run .standard f complete args).files.read? "hooks.ts" = some (run .standard f complete printed).stdout := by
  intro f combined incomplete complete job printed args
  have hg := @Command.ofArguments?_generate "codegen.json" "operations.json" (by decide) (by decide)
  have ha : Command.ofArguments? args = some (.generate job) := by
    refine (hg ["--out", "hooks.ts"]).trans ?_
    rw [Command.generate?_flag (by decide) (by decide) rfl (by decide) (by decide) rfl]
    rfl
  have hp : Command.ofArguments? printed = some (.generate { job with out? := none }) :=
    (hg []).trans rfl
  obtain ⟨_, hi⟩ :=
    (generate_all_or_nothing .standard f incomplete ha).left .missingCombinedFactory (by decide +kernel)
  obtain ⟨_, _, file, _, _, _, hn, hs⟩ :=
    (generate_all_or_nothing .standard f complete ha).right (by decide +kernel)
  obtain ⟨_, hn⟩ := hn printed hp
  obtain ⟨⟨_, hs⟩, hf⟩ := hs "hooks.ts" { files := complete.put ["hooks.ts", "work"] file.render } rfl rfl
  refine ⟨ha, ?_, ?_, ?_, ?_⟩
  · rw [hi]
  · rw [hi]
  · rw [hs]
  · rw [hs, hn]
    exact hf

end QueryHooks

import Rulebook.CommandLine.Run
import Rulebook.Json.Parser
import Rulebook.Proofs.CommandLine.Shape
import Rulebook.Proofs.Compile.Induction
import Rulebook.Proofs.Report.Wire
import Rulebook.Regex.Engine

namespace Rulebook.CommandLine

open Rulebook.Outcome

namespace Inputs

variable (inputs : Inputs)

-- The text of a path that is read after others. The standard input has no more text when
-- it is read again.
def textAfter (earlier : List String) (path : String) : Option String :=
  if isStdin path then
    if earlier.any isStdin then some "" else inputs.stdin
  else inputs.file? path

-- What is at a path that is read after others: nothing if it cannot be read or is not JSON.
def given? [JsonReader] (earlier : List String) (path : String) : Option Json :=
  (inputs.textAfter earlier path).bind JsonReader.read?

-- There is nothing of the shape at the path.
def Lacks [JsonReader] (shape : Json → Prop) (earlier : List String) (path : String) : Prop :=
  ∀ value, inputs.given? earlier path = some value → ¬shape value

-- What is left when paths have been read.
def after (earlier : List String) : Inputs :=
  if earlier.any isStdin then { inputs with stdin := some "" } else inputs

theorem after_nil : inputs.after [] = inputs := rfl

theorem toOption_readText (earlier : List String) (path : String) :
    ((inputs.after earlier).readText path).toOption =
      (inputs.textAfter earlier path).map (·, inputs.after (earlier ++ [path])) := by
  cases hpath : isStdin path with
  | true =>
      cases hread : earlier.any isStdin with
      | true => simp [readText, after, textAfter, hpath, hread, Except.toOption]
      | false =>
          cases hstdin : inputs.stdin <;>
            simp [readText, after, textAfter, hpath, hread, hstdin, Except.toOption]
  | false =>
      have hfile : (inputs.after earlier).file? path = inputs.file? path := by
        unfold after
        split <;> rfl
      have hafter : inputs.after (earlier ++ [path]) = inputs.after earlier := by
        simp [after, hpath]
      simp only [readText, textAfter, hpath, Bool.false_eq_true, if_false, hfile, hafter]
      cases inputs.file? path <;> rfl

variable [JsonReader] {α : Type} {current : Inputs} {earlier : List String}

theorem toOption_readJson (hcurrent : current = inputs.after earlier) (path : String) :
    (current.readJson path).toOption =
      (inputs.given? earlier path).map (·, inputs.after (earlier ++ [path])) := by
  rw [readJson, toOption_bind, hcurrent, toOption_readText, given?]
  cases inputs.textAfter earlier path with
  | none => rfl
  | some text =>
      simp only [Option.map_some, Option.bind_some]
      cases JsonReader.read? text <;> rfl

-- A reader that takes what is at a path in one shape.
theorem toOption_readJson_bind (hcurrent : current = inputs.after earlier)
    {shape : Json → Option α} {read : Json × Inputs → Except Trouble (α × Inputs)}
    (hread : ∀ value next, (read (value, next)).toOption = (shape value).map (·, next))
    (path : String) :
    (current.readJson path >>= read).toOption =
      ((inputs.given? earlier path).bind shape).map (·, inputs.after (earlier ++ [path])) := by
  rw [toOption_bind, inputs.toOption_readJson hcurrent]
  cases inputs.given? earlier path with
  | none => rfl
  | some value => exact hread value _

theorem bind_given?_eq_none_iff {shape : Json → Option α} {P : Json → Prop}
    (hshape : ∀ value, (∃ a, shape value = some a) ↔ P value) {path : String} :
    (inputs.given? earlier path).bind shape = none ↔ inputs.Lacks P earlier path := by
  rw [Option.bind_eq_none_iff]
  simp only [Lacks, ← hshape, Option.eq_none_iff_forall_ne_some, ne_eq, not_exists]

end Inputs

-- What the documents of a check hold.
structure Documents where
  config : Config := {}
  schema : Schema
  messages : Texts := []
  data : Json

namespace CheckOptions

variable [JsonReader] (inputs : Inputs) (options : CheckOptions)

-- The documents of a check are read in the order of configuration, schema, messages and data. An
-- option that is not given has the default.
structure Reads (documents : Documents) : Prop where
  config : ∀ path ∈ options.config, ∃ value,
    inputs.given? [] path = some value ∧ documents.config.Presents value
  noConfig : options.config = none → documents.config = {}
  schema : ∃ value, inputs.given? options.config.toList options.rules = some value ∧
    documents.schema.Presents value
  messages : ∀ path ∈ options.messages, ∃ value,
    inputs.given? (options.config.toList ++ [options.rules]) path = some value ∧
      documents.messages.Presents value
  noMessages : options.messages = none → documents.messages = []
  data : inputs.given? (options.config.toList ++ [options.rules] ++ options.messages.toList)
    options.data = some documents.data

-- Why a check cannot be made: a document cannot be read, is not JSON or has not the shape that it
-- needs, or the schema does not compile.
inductive Fails [Engine] : Prop
  | config {path : String} (hpath : path ∈ options.config)
      (h : inputs.Lacks (fun value => ∃ config : Config, config.Presents value) [] path)
  | schema (h : inputs.Lacks (fun value => ∃ schema : Schema, schema.Presents value)
      options.config.toList options.rules)
  | messages {path : String} (hpath : path ∈ options.messages)
      (h : inputs.Lacks (fun value => ∃ texts : Texts, texts.Presents value)
        (options.config.toList ++ [options.rules]) path)
  | data (h : inputs.given? (options.config.toList ++ [options.rules] ++ options.messages.toList)
      options.data = none)
  | setup {documents : Documents} {error : SetupError} (hreads : options.Reads inputs documents)
      (h : Registry.compile {} documents.schema = .error error)

-- The validator of a configuration. Paths are indexed if that or the option asks for it.
def validator (config : Config) : Validator :=
  { config := { config with
      indexArrayPaths := config.indexArrayPaths || options.indexArrayPaths } }

-- The same documents, computed.
def config? : Option Config :=
  match options.config with
  | none => some {}
  | some path => (inputs.given? [] path).bind Config.ofJson?

def schema? : Option Schema :=
  (inputs.given? options.config.toList options.rules).bind fun value =>
    (Schema.ofJson value).toOption

def messages? : Option Texts :=
  match options.messages with
  | none => some []
  | some path =>
      (inputs.given? (options.config.toList ++ [options.rules]) path).bind Texts.ofJson?

def data? : Option Json :=
  inputs.given? (options.config.toList ++ [options.rules] ++ options.messages.toList) options.data

def documents? : Option Documents := do
  let config ← options.config? inputs
  let schema ← options.schema? inputs
  let messages ← options.messages? inputs
  let data ← options.data? inputs
  some { config, schema, messages, data }

theorem toOption_readConfig :
    (readConfig inputs options.config).toOption =
      (options.config? inputs).map (·, inputs.after options.config.toList) := by
  unfold config?
  cases options.config with
  | none =>
      simp only [readConfig, Option.toList_none, inputs.after_nil]
      rfl
  | some path =>
      refine inputs.toOption_readJson_bind inputs.after_nil.symm (fun value next => ?_) path
      cases hshape : Config.ofJson? value <;> simp [hshape, Except.toOption]

theorem toOption_readSchema :
    (readSchema (inputs.after options.config.toList) options.rules).toOption =
      (options.schema? inputs).map
        (·, inputs.after (options.config.toList ++ [options.rules])) := by
  refine inputs.toOption_readJson_bind rfl (fun value next => ?_) options.rules
  cases hshape : Schema.ofJson value <;> simp [hshape, Except.toOption]

theorem toOption_readMessages :
    (readMessages (inputs.after (options.config.toList ++ [options.rules]))
        options.messages).toOption =
      (options.messages? inputs).map
        (·, inputs.after
          (options.config.toList ++ [options.rules] ++ options.messages.toList)) := by
  unfold messages?
  cases options.messages with
  | none =>
      simp only [readMessages, Option.toList_none, List.append_nil]
      rfl
  | some path =>
      refine inputs.toOption_readJson_bind rfl (fun value next => ?_) path
      cases hshape : Texts.ofJson? value <;> simp [hshape, Except.toOption]

-- A check starts exactly when all documents are there and the schema compiles.
theorem toOption_job [Engine] :
    (options.job inputs).toOption = (options.documents? inputs).bind fun documents =>
      ((options.validator documents.config).compile documents.schema).toOption.map fun rules =>
        { validator := options.validator documents.config, rules, messages := documents.messages,
          data := documents.data } := by
  simp only [job, toOption_bind, toOption_readConfig, toOption_readSchema, toOption_readMessages,
    inputs.toOption_readJson rfl, Option.bind_map, Function.comp_def, Option.bind_eq_bind,
    documents?, data?, Option.bind_assoc, Option.bind_some]
  refine Option.bind_congr fun config _ => Option.bind_congr fun schema _ =>
    Option.bind_congr fun messages _ => Option.bind_congr fun data _ => ?_
  unfold validator
  cases Validator.compile _ schema <;> rfl

theorem config?_eq_some_iff {config : Config} : options.config? inputs = some config ↔
    (∀ path ∈ options.config, ∃ value,
      inputs.given? [] path = some value ∧ config.Presents value) ∧
    (options.config = none → config = {}) := by
  unfold config?
  cases options.config with
  | none => simp [eq_comm]
  | some path => simp [Option.bind_eq_some_iff, Config.ofJson?_eq_some_iff]

theorem messages?_eq_some_iff {messages : Texts} : options.messages? inputs = some messages ↔
    (∀ path ∈ options.messages, ∃ value,
      inputs.given? (options.config.toList ++ [options.rules]) path = some value ∧
        messages.Presents value) ∧
    (options.messages = none → messages = []) := by
  unfold messages?
  cases options.messages with
  | none => simp [eq_comm]
  | some path => simp [Option.bind_eq_some_iff, Texts.ofJson?_eq_some_iff]

theorem documents?_eq_some_iff {documents : Documents} :
    options.documents? inputs = some documents ↔ options.Reads inputs documents := by
  obtain ⟨config, schema, messages, data⟩ := documents
  simp only [documents?, Option.bind_eq_bind, Option.bind_eq_some_iff, config?_eq_some_iff,
    messages?_eq_some_iff, schema?, toOption_eq_some_iff, Schema.ofJson_eq_ok_iff,
    Option.some.injEq, Documents.mk.injEq]
  constructor
  · rintro ⟨_, hconfig, _, hschema, _, hmessages, _, hdata, rfl, rfl, rfl, rfl⟩
    exact ⟨hconfig.1, hconfig.2, hschema, hmessages.1, hmessages.2, hdata⟩
  · rintro ⟨hconfig, hnone, hschema, hmessages, hno, hdata⟩
    exact ⟨config, ⟨hconfig, hnone⟩, schema, hschema, messages, ⟨hmessages, hno⟩, data, hdata, rfl,
      rfl, rfl, rfl⟩

theorem documents?_eq_none_iff :
    options.documents? inputs = none ↔ options.config? inputs = none ∨
      options.schema? inputs = none ∨ options.messages? inputs = none ∨
        options.data? inputs = none := by
  unfold documents?
  cases options.config? inputs with
  | none => simp
  | some config =>
      cases options.schema? inputs with
      | none => simp
      | some schema =>
          cases options.messages? inputs with
          | none => simp
          | some messages => cases options.data? inputs <;> simp

theorem schema?_eq_none_iff : options.schema? inputs = none ↔
    inputs.Lacks (fun value => ∃ schema : Schema, schema.Presents value) options.config.toList
      options.rules := by
  refine inputs.bind_given?_eq_none_iff fun value => ?_
  simp only [toOption_eq_some_iff, Schema.ofJson_eq_ok_iff]

theorem config?_eq_none_iff : options.config? inputs = none ↔ ∃ path ∈ options.config,
    inputs.Lacks (fun value => ∃ config : Config, config.Presents value) [] path := by
  unfold config?
  cases options.config with
  | none => simp
  | some path =>
      simp only [Option.mem_some_iff, exists_eq_left']
      exact inputs.bind_given?_eq_none_iff fun value => by simp only [Config.ofJson?_eq_some_iff]

theorem messages?_eq_none_iff : options.messages? inputs = none ↔ ∃ path ∈ options.messages,
    inputs.Lacks (fun value => ∃ texts : Texts, texts.Presents value)
      (options.config.toList ++ [options.rules]) path := by
  unfold messages?
  cases options.messages with
  | none => simp
  | some path =>
      simp only [Option.mem_some_iff, exists_eq_left']
      exact inputs.bind_given?_eq_none_iff fun value => by simp only [Texts.ofJson?_eq_some_iff]

theorem fails_iff [Engine] : options.Fails inputs ↔ options.documents? inputs = none ∨
    ∃ documents error, options.documents? inputs = some documents ∧
      Registry.compile {} documents.schema = .error error := by
  simp only [documents?_eq_none_iff, config?_eq_none_iff, schema?_eq_none_iff,
    messages?_eq_none_iff, data?, documents?_eq_some_iff]
  constructor
  · intro h
    cases h with
    | config hpath h => exact .inl (.inl ⟨_, hpath, h⟩)
    | schema h => exact .inl (.inr (.inl h))
    | messages hpath h => exact .inl (.inr (.inr (.inl ⟨_, hpath, h⟩)))
    | data h => exact .inl (.inr (.inr (.inr h)))
    | setup hreads h => exact .inr ⟨_, _, hreads, h⟩
  · rintro ((⟨path, hpath, h⟩ | h | ⟨path, hpath, h⟩ | h) | ⟨documents, error, hreads, h⟩)
    · exact .config hpath h
    · exact .schema h
    · exact .messages hpath h
    · exact .data h
    · exact .setup hreads h

-- A check that does not fail has its documents, and the schema compiles.
theorem exists_reads_of_not_fails [Engine] (h : ¬options.Fails inputs) :
    ∃ documents rules, options.Reads inputs documents ∧
      Registry.compile {} documents.schema = .ok rules := by
  rw [fails_iff, not_or] at h
  obtain ⟨hdocuments, hcompile⟩ := h
  obtain ⟨documents, hdocuments⟩ := Option.ne_none_iff_exists'.mp hdocuments
  cases hrules : Registry.compile {} documents.schema with
  | error error => exact absurd ⟨documents, error, hdocuments, hrules⟩ hcompile
  | ok rules =>
      exact ⟨documents, rules, (options.documents?_eq_some_iff inputs).mp hdocuments, hrules⟩

theorem exists_trouble_iff [Engine] :
    (∃ trouble, options.job inputs = .error trouble) ↔ options.Fails inputs := by
  rw [← toOption_eq_none_iff, toOption_job, fails_iff]
  cases hdocuments : options.documents? inputs with
  | none => simp
  | some documents =>
      have hcompile : (options.validator documents.config).compile documents.schema =
          Registry.compile {} documents.schema := rfl
      simp only [Option.bind_some, Option.map_eq_none_iff, hcompile, toOption_eq_none_iff,
        reduceCtorEq, false_or, Option.some.injEq, exists_and_left, exists_eq_left']

theorem job_eq_ok [Engine] {documents : Documents} {rules : RuleSet}
    (hreads : options.Reads inputs documents)
    (hrules : Registry.compile {} documents.schema = .ok rules) :
    options.job inputs =
      .ok { validator := options.validator documents.config, rules,
            messages := documents.messages, data := documents.data } := by
  have hcompile : (options.validator documents.config).compile documents.schema = .ok rules :=
    hrules
  rw [← toOption_eq_some_iff, toOption_job, (options.documents?_eq_some_iff inputs).mpr hreads,
    Option.bind_some, hcompile]
  rfl

end CheckOptions

theorem lines_eq_join (texts : List String) :
    lines texts = String.join (texts.map (· ++ "\n")) := by
  simp only [lines, String.join, List.foldl_map, String.append_assoc]

-- What an outcome tells about the errors that a validation found.
structure Outcome.Tells (format : Format) (found : Option ErrorList) (outcome : Outcome) :
    Prop where
  passes : outcome.exit = 0 ↔ found = none
  rejects : outcome.exit = 1 ↔ ∃ errors, found = some errors
  text : format = .text → outcome.stdout =
    String.join ((found.elim [] ErrorList.toList).map fun e =>
      "[" ++ e.field ++ "] " ++ e.code ++ ": " ++ e.message ++ "\n")
  null : format = .json → found = none → outcome.stdout = "null\n"
  body : format = .json → ∀ errors, found = some errors →
    Rejection.read? outcome.stdout =
      some { code := "invalid_param", message := "Validation Failed", errors := errors.toList }

theorem report_tells (format : Format) (found : Option ErrorList) :
    (report format found).Tells format found := by
  cases found with
  | none =>
      refine ⟨by simp [report], by simp [report], ?_, ?_, ?_⟩
      · rintro rfl
        rfl
      · rintro rfl -
        rfl
      · rintro - errors ⟨⟩
  | some errors =>
      refine ⟨by simp [report], by simp [report], ?_, ?_, ?_⟩
      · rintro rfl
        simp only [report, lines_eq_join, List.map_map, Function.comp_def, Option.elim_some,
          FieldError.line]
      · rintro - ⟨⟩
      · rintro rfl _ ⟨⟩
        exact (Rejection.ofErrors errors).read?_pretty

theorem report_exit_ne (format : Format) (found : Option ErrorList) :
    (report format found).exit ≠ 2 := by
  cases found <;> simp [report]

-- What the exit status and the output of a check stand for.
structure Outcome.Honors [Engine] [JsonReader] (inputs : Inputs) (options : CheckOptions)
    (outcome : Outcome) : Prop where
  fails : outcome.exit = 2 ↔ options.Fails inputs
  silent : outcome.exit = 2 → outcome.stdout = ""
  loads : outcome.exit ≠ 2 → ∃ documents rules, options.Reads inputs documents ∧
    Registry.compile {} documents.schema = .ok rules
  tells : ∀ documents rules, options.Reads inputs documents →
    Registry.compile {} documents.schema = .ok rules →
    outcome.Tells options.format ((options.validator documents.config).validateCompiled
      documents.data rules documents.messages)

-- A check fails on its documents alone, and then writes nothing. Otherwise its exit status and
-- its output, in either form, are those of the validation of the data.
theorem run_check_honors [Engine] [JsonReader] (inputs : Inputs) (options : CheckOptions) :
    (run inputs (.check options)).Honors inputs options := by
  have hfails := options.exists_trouble_iff inputs
  cases hjob : options.job inputs with
  | error trouble =>
      have hrun : run inputs (.check options) =
          { exit := 2, stderr := "error: " ++ trouble.message ++ "\n" } := by
        simp only [run, check, hjob]
      rw [hrun]
      refine ⟨iff_of_true rfl (hfails.mp ⟨trouble, hjob⟩), fun _ => rfl,
        fun h => absurd rfl h, ?_⟩
      intro documents rules hreads hrules
      rw [options.job_eq_ok inputs hreads hrules] at hjob
      cases hjob
  | ok job =>
      have hrun : run inputs (.check options) = report options.format
          (job.validator.validateCompiled job.data job.rules job.messages) := by
        simp only [run, check, hjob]
      rw [hrun]
      have hexit := report_exit_ne options.format
        (job.validator.validateCompiled job.data job.rules job.messages)
      have hloads : ¬options.Fails inputs := fun h => by
        obtain ⟨trouble, htrouble⟩ := hfails.mpr h
        rw [hjob] at htrouble
        cases htrouble
      refine ⟨iff_of_false hexit hloads, fun h => absurd h hexit,
        fun _ => options.exists_reads_of_not_fails inputs hloads, ?_⟩
      intro documents rules hreads hrules
      rw [options.job_eq_ok inputs hreads hrules] at hjob
      cases hjob
      exact report_tells options.format _

open scoped Json Regex

-- A plan that is not on offer, in a document that comes from the standard input, with a text of
-- its own for it.
namespace Plan

def inputs : Inputs :=
  { file? := fun path =>
      match path with
      | "rules.json" => some "\x7b\"plan\": [\"basic\", \"team\"]\x7d"
      | "config.json" => some "\x7b\"indexArrayPaths\": true, \"colour\": null\x7d"
      | "messages.json" => some "\x7b\"plan.enum\": \"pick a plan\"\x7d"
      | _ => none
    stdin := some "\x7b\"plan\": \"gold\"\x7d" }

def options : CheckOptions :=
  { rules := "rules.json", config := some "config.json", messages := some "messages.json",
    format := .json }

def documents : Documents where
  config := { indexArrayPaths := true }
  schema := ⟨[("plan", .values [.str "basic", .str "team"])]⟩
  messages := [("plan.enum", "pick a plan")]
  data := .obj [("plan", .str "gold")]

def rules : RuleSet :=
  ⟨[("plan", .ofChecks [("enum", .leaf (.enum [.str "basic", .str "team"]))])]⟩

theorem compile [Engine] : Registry.compile {} documents.schema = .ok rules := by
  have hplan : Registry.compileRule {} "plan" (.values [.str "basic", .str "team"]) =
      .ok (.ofChecks [("enum", .leaf (.enum [.str "basic", .str "team"]))]) := by
    rw [Registry.compileRule]
    rfl
  exact Registry.compile_eq_ok_iff.mpr (.cons ⟨rfl, hplan⟩ .nil)

-- The reader first takes a text apart.
theorem given {earlier : List String} {path text : String} {raw : Json.Raw} {value : Json}
    (htext : inputs.textAfter earlier path = some text) (hraw : Json.Raw.parse? text = some raw)
    (hdepth : raw.depth ≤ Json.maxDepth) (hvalue : raw.toJson? = some value) :
    inputs.given? earlier path = some value := by
  have hread : Json.read? text = some value := by
    simp only [Json.read?, hraw, Option.filter_some, hdepth, decide_true, if_true,
      Option.bind_some, hvalue]
  rw [Inputs.given?, htext, Option.bind_some]
  exact hread

def rulesRaw : Json.Raw :=
  .obj [("plan".toList, .arr [.quoted "basic".toList, .quoted "team".toList])]

def configRaw : Json.Raw :=
  .obj [("indexArrayPaths".toList, .word "true".toList), ("colour".toList, .word "null".toList)]

def messagesRaw : Json.Raw :=
  .obj [("plan.enum".toList, .quoted "pick a plan".toList)]

def dataRaw : Json.Raw :=
  .obj [("plan".toList, .quoted "gold".toList)]

theorem reads : options.Reads inputs documents where
  config := by
    rintro path ⟨⟩
    have hgiven : inputs.given? [] "config.json" =
        some (.obj [("indexArrayPaths", .bool true), ("colour", .null)]) :=
      given rfl (by rfl : _ = some configRaw) (by decide) rfl
    exact ⟨_, hgiven, Config.ofJson?_eq_some_iff.mp rfl⟩
  noConfig := nofun
  schema := by
    have hgiven : inputs.given? ["config.json"] "rules.json" =
        some (.obj [("plan", .arr [.str "basic", .str "team"])]) :=
      given rfl (by rfl : _ = some rulesRaw) (by decide) rfl
    exact ⟨_, hgiven, Schema.ofJson_eq_ok_iff.mp rfl⟩
  messages := by
    rintro path ⟨⟩
    have hgiven : inputs.given? ["config.json", "rules.json"] "messages.json" =
        some (.obj [("plan.enum", .str "pick a plan")]) :=
      given rfl (by rfl : _ = some messagesRaw) (by decide) rfl
    exact ⟨_, hgiven, rfl⟩
  noMessages := nofun
  data := given rfl (by rfl : _ = some dataRaw) (by decide) rfl

end Plan

theorem run_check_honors_plan :
    (Plan.options.Reads Plan.inputs Plan.documents ∧
        Registry.compile {} Plan.documents.schema = .ok Plan.rules) ∧
      (run Plan.inputs (.check Plan.options)).exit = 1 ∧
      Rejection.read? (run Plan.inputs (.check Plan.options)).stdout =
        some
          { code := "invalid_param"
            message := "Validation Failed"
            errors := [⟨"invalid", "plan", "pick a plan"⟩] } := by
  have htells := (run_check_honors Plan.inputs Plan.options).tells Plan.documents Plan.rules
    Plan.reads Plan.compile
  exact ⟨⟨Plan.reads, Plan.compile⟩, htells.rejects.mpr ⟨_, rfl⟩, htells.body rfl _ rfl⟩

end Rulebook.CommandLine

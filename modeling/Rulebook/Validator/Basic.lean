import Rulebook.Compile.Basic
import Rulebook.Report.ErrorList
import Rulebook.Validator.Config

namespace Rulebook

structure Validator where
  registry : Registry := {}
  config : Config := {}

namespace Validator

-- The validator is what is left, whether or not the check was added.
def addRule [Engine] (validator : Validator) (name : String) (check : CustomCheck)
    (message : Option String) (code : Option ErrorCode) : Validator × Except SetupError Unit :=
  let (registry, result) := validator.registry.register name check message code
  ({ validator with registry }, result)

def compile [Engine] (validator : Validator) (schema : Schema) : Except SetupError RuleSet :=
  validator.registry.compile schema

-- What holds for the checks of one validation by a validator.
def run (validator : Validator) (data : Json) (overrides : Texts) : Run :=
  { root := data
    indexed := validator.config.indexArrayPaths
    resolve := validator.config.resolve overrides }

-- The errors of a record, and none if every field passes.
def validateCompiled (validator : Validator) (data : Json) (rules : RuleSet)
    (overrides : Texts) : Option ErrorList :=
  ErrorList.ofList? ((validator.run data overrides).fields data none rules.fields)

def validate [Engine] (validator : Validator) (data : Json) (schema : Schema) (overrides : Texts) :
    Except SetupError (Option ErrorList) := do
  .ok (validator.validateCompiled data (← validator.compile schema) overrides)

def validateJson [Engine] (validator : Validator) (data rules : Json) (overrides : Texts) :
    Except SetupError (Option ErrorList) := do
  validator.validate data (← Schema.ofJson rules) overrides

end Validator

-- A validator that is put together step by step.
structure Builder where
  registry : Option Registry := none
  config : Config := {}

namespace Builder

def withRegistry (builder : Builder) (registry : Registry) : Builder :=
  { builder with registry := some registry }

-- Replaces all settings, the translator included.
def withConfig (builder : Builder) (config : Config) : Builder :=
  { builder with config }

def translate (builder : Builder) (translator : Translator) : Builder :=
  { builder with config.translator := some translator }

def message (builder : Builder) (check text : String) : Builder :=
  { builder with config.messages := Members.set check text builder.config.messages }

def indexArrayPaths (builder : Builder) (on : Bool) : Builder :=
  { builder with config.indexArrayPaths := on }

-- A builder that cannot take a check is gone.
def rule [Engine] (builder : Builder) (name : String) (check : CustomCheck)
    (message : Option String) (code : Option ErrorCode) : Except SetupError Builder := do
  let (registry, result) := (builder.registry.getD {}).register name check message code
  result
  .ok (builder.withRegistry registry)

def build (builder : Builder) : Validator :=
  { registry := builder.registry.getD {}, config := builder.config }

end Builder

end Rulebook

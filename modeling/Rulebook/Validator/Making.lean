import Rulebook.Validator.Workspace

namespace Rulebook

-- A check for a registry: one that a user describes, or one that is built by a function
-- of its own.
inductive Addition
  | described (r : Registration)
  | built (name : String) (params : Params)
      (build : Args → Except SetupError (Json → Context → Inquiry Check Verdict))

def Registry.give [Engine] (registry : Registry) : Addition → Except SetupError Registry
  | .described r => do
      let (registry, result) := registry.register r.name r.check r.message r.code
      result
      .ok registry
  | .built name params build => .ok (registry.add name (.foreign params build))

-- What a registry is put together from: the catalogue or nothing, and more checks in order.
structure Stock where
  catalogue : Bool := true
  additions : List (Except Refusal Addition) := []

def Stock.registry [Engine] (stock : Stock) : Except Refusal Registry :=
  stock.additions.foldlM (fun registry addition => do Refusal.ofSetup (registry.give (← addition)))
    { catalogue := stock.catalogue }

namespace Builder

-- One step of putting a validator together.
inductive Call
  | message (check text : String)
  | indexArrayPaths (on : Bool)
  | config (config : Config)
  | registry (stock : Stock)
  | translate (translator : Translator)
  | rule (r : Registration)

def call [Engine] (builder : Builder) : Call → Except Refusal Builder
  | .message check text => .ok (builder.message check text)
  | .indexArrayPaths on => .ok (builder.indexArrayPaths on)
  | .config config => .ok (builder.withConfig config)
  | .registry stock => do .ok (builder.withRegistry (← stock.registry))
  | .translate translator => .ok (builder.translate translator)
  | .rule r => Refusal.ofSetup (builder.rule r.name r.check r.message r.code)

end Builder

-- The ways to come by a validator.
inductive Making
  | new (config : Except Refusal Config) (stock : Stock) (translator : Option Translator)
  | default (config : Except Refusal Config)
  | builder (calls : List (Except Refusal Builder.Call))

-- The first part that cannot be used decides.
def Making.make [Engine] : Making → Except Refusal Validator
  | new config stock translator => do
      let config ← config
      .ok { registry := ← stock.registry, config := { config with translator } }
  | default config => do .ok { config := ← config }
  | builder calls => do
      let builder ← calls.foldlM (fun builder call => do builder.call (← call)) ({} : Builder)
      .ok builder.build

end Rulebook

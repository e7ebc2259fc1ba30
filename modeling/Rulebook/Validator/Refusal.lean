import Rulebook.Validator.Basic

namespace Rulebook

-- Why a request is not served.
inductive Refusal
  | setup (error : SetupError)
  -- A document that should hold a schema but does not.
  | schema (error : SetupError)
  | pattern (error : PatternError)
  | expression
  | config
  | messages
  | code
  -- A document that should hold field errors but does not.
  | body
  -- A part of the request that is missing, or a name that nothing has.
  | unknown (what : String)
deriving DecidableEq

namespace Refusal

def ofSetup (result : Except SetupError α) : Except Refusal α :=
  result.mapError setup

def orRefuse (refusal : Refusal) : Option α → Except Refusal α
  | some a => .ok a
  | none => .error refusal

end Refusal

-- Texts that a request may leave out.
def Texts.read : Option Json → Except Refusal Texts
  | some value => Refusal.orRefuse .messages (Texts.ofJson? value)
  | none => .ok []

def Config.read : Option Json → Except Refusal Config
  | some value => Refusal.orRefuse .config (Config.ofJson? value)
  | none => .ok {}

def ErrorCode.read : Option Json → Except Refusal (Option ErrorCode)
  | some value => (Refusal.orRefuse .code (value.string?.bind ErrorCode.ofText?)).map some
  | none => .ok none

end Rulebook

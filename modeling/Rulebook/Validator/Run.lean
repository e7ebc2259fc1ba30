import Rulebook.Check.Basic

namespace Rulebook

namespace Failure

def notObject : Failure := invalid "should be an object" []

def notArray : Failure := invalid "should be an array" []

end Failure

-- What holds for all checks of one validation.
structure Run where
  root : Json
  -- Whether the paths of elements have their index.
  indexed : Bool
  -- The error that is reported for a failure.
  resolve : (path check : String) → Failure → FieldError

namespace Run

def fieldPath (parent : Option String) (field : String) : String :=
  match parent with
  | some path => path ++ "." ++ field
  | none => field

def elementPath (run : Run) (path : String) (index : Nat) : String :=
  if run.indexed then path ++ "[" ++ Text.natText index ++ "]" else path

-- A check that only has errors of its parts fails if there are any.
def ofParts (errors : List FieldError) : Option (List FieldError) :=
  if errors.isEmpty then none else some errors

-- Errors that a check hands over are final.
def ofVerdict (run : Run) (name path : String) : Verdict → Option (List FieldError)
  | .pass => none
  | .fail failure => some [run.resolve path name failure]
  | .nested errors => some errors

-- The bound on the length of an array that is broken, the upper one first.
def brokenLength (min max : Option Nat) (length : Nat) : Option Failure :=
  ((max.filter (· < length)).map .tooLong).or ((min.filter (length < ·)).map .tooShort)

mutual

-- The errors of a check that fails, and none for one that passes. A check may fail
-- without any error.
def check (run : Run) (name : String) (value record : Json) (path : String) :
    Check → Option (List FieldError)
  | .leaf leaf => run.ofVerdict name path (leaf.verdict value ⟨record, run.root, path⟩)
  | .custom _ matcher options message code =>
      run.ofVerdict name path <| .when (match matcher with
        | .predicate holds => run.passes path (holds value options ⟨record, run.root, path⟩)
        | .pattern p => value.scalarText.any p.isMatch) ⟨.plain message, code⟩
  | .foreign _ answer =>
      run.ofVerdict name path (run.verdict path (answer value ⟨record, run.root, path⟩))
  | .object fields =>
      if value.isObject then
        match fields with
        | none => none
        | some fields => ofParts (run.fields value (some path) fields)
      else some [run.resolve path name .notObject]
  | .array min max element =>
      match value with
      | .arr items =>
          match brokenLength min max items.length with
          | some failure => some [run.resolve path name failure]
          | none =>
              match element with
              | none => none
              | some element =>
                  ofParts (items.zipIdx.flatMap fun (item, index) =>
                    run.rule item .null (run.elementPath path index) element)
      | _ => some [run.resolve path name .notArray]

-- The first check that fails ends a rule.
def checks (run : Run) (value record : Json) (path : String) :
    List (String × Check) → List FieldError
  | [] => []
  | (name, first) :: rest =>
      match run.check name value record path first with
      | some errors => errors
      | none => run.checks value record path rest

-- A value that is not there passes unless it is required.
def rule (run : Run) (value record : Json) (path : String) : RuleOf Check → List FieldError
  | ⟨checks, required⟩ =>
      if value.isNull && !required then [] else run.checks value record path checks

-- The errors of the fields in order. A record that is no object has no fields.
def fields (run : Run) (record : Json) (parent : Option String) :
    List (String × RuleOf Check) → List FieldError
  | [] => []
  | (field, rule) :: rest =>
      run.rule (record.field field) record (fieldPath parent field) rule ++
        run.fields record parent rest

-- The answer of a predicate at a path. What it asks is validated behind that path.
def passes (run : Run) (path : String) : Inquiry Check Bool → Bool
  | .answer passed => passed
  | .object fields value next =>
      run.passes path (next (run.fields value (some path) fields))
  | .items rule items next =>
      run.passes path (next (items.zipIdx.flatMap fun (item, index) =>
        run.rule item .null (run.elementPath path index) rule))

-- The same for a check with a function of its own.
def verdict (run : Run) (path : String) : Inquiry Check Verdict → Verdict
  | .answer verdict => verdict
  | .object fields value next =>
      run.verdict path (next (run.fields value (some path) fields))
  | .items rule items next =>
      run.verdict path (next (items.zipIdx.flatMap fun (item, index) =>
        run.rule item .null (run.elementPath path index) rule))

end

end Run

end Rulebook

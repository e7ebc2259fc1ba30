import Rulebook.Regex.Bracket
import Rulebook.Regex.Estimate
import Rulebook.Text.Alphanumeric

namespace Rulebook.Regex

namespace Parser

-- A group that is open: its number, the finished branches and the items of the
-- current one, both in reverse, and the flags that hold inside.
structure Level where
  number : Option Nat
  branches : List Term
  items : List Term
  flags : Flags

structure State where
  outer : List Level
  inner : Level
  -- How many groups have a number.
  groups : Nat
  names : List (List Char)

def Level.branch (level : Level) : Term :=
  .ofItems level.items.reverse

def Level.close (level : Level) : Term :=
  .ofBranches (level.branches.reverse ++ [level.branch])

namespace State

def start : State :=
  ⟨[], ⟨none, [], [], {}⟩, 0, []⟩

def push (state : State) (item : Term) : State :=
  { state with inner.items := item :: state.inner.items }

def openGroup (state : State) (number : Option Nat) (flags : Flags) : State :=
  { state with outer := state.inner :: state.outer, inner := ⟨number, [], [], flags⟩ }

def openNumbered (state : State) : State :=
  { state with groups := state.groups + 1 }.openGroup (some state.groups) state.inner.flags

end State

def ofChar (flags : Flags) (c : Char) : Term :=
  .chars ((CharClass.single c).foldIf flags.ignoreCase)

def ofEscape (flags : Flags) : Escape → Term
  | .char c => ofChar flags c
  | .set members => .chars members
  | .look condition => .look condition

def dot (flags : Flags) : Term :=
  .chars (if flags.dotNewline then .all else .compl (.single '\n'))

-- The greatest count of a repetition.
def maxCount : Nat := UInt32.size - 1

def count? (cs : List Char) : Option Nat :=
  let cs := Text.trimChars cs
  if Text.isDigitRun cs ∧ Text.natOfDigits cs ≤ maxCount then some (Text.natOfDigits cs) else none

-- The counts between braces: one, or two of which the second may be missing.
def counts? (flags : Flags) (cs : List Char) : Option (Nat × Option Nat) := do
  let cs := cs.filter fun c => !(flags.verbose && Text.isBlank c)
  match Text.pieces ',' cs with
  | [exactly] =>
      let n ← count? exactly
      some (n, some n)
  | [atLeast, []] => some (← count? atLeast, none)
  | [atLeast, atMost] =>
      let min ← count? atLeast
      let max ← count? atMost
      if min ≤ max then some (min, some max) else none
  | _ => none

-- Repeats the last item, lazily if a question mark follows. Flags are no item that
-- could be repeated.
def repeated (state : State) (min : Nat) (max : Option Nat) (rest : List Char) :
    Option (State × List Char) :=
  let repeating (lazy : Bool) (rest : List Char) :=
    match state.inner.items with
    | [] | .directive :: _ => none
    | item :: items =>
        some ({ state with inner.items := .rep item min max lazy :: items }, rest)
  match rest with
  | '?' :: rest => repeating true rest
  | rest => repeating false rest

def isNameStart (c : Char) : Bool :=
  c == '_' || Text.isAlphabetic c

def isNameChar (c : Char) : Bool :=
  Text.isAlphanumeric c || c == '_' || c == '.' || c == '[' || c == ']'

-- Reads the name of a group up to its angle bracket. No two groups share a name.
def readName (state : State) (cs : List Char) : Option (State × List Char) := do
  let (name, rest) ← Text.cut '>' cs
  let first ← name.head?
  if isNameStart first && name.all isNameChar && !state.names.contains name then
    some ({ state with names := name :: state.names }.openNumbered, rest)
  else none

-- Reads the start of a group after its bracket: a named one, flags for the rest of
-- the enclosing group, or a group with or without flags of its own.
def readGroup (state : State) (cs : List Char) : Option (State × List Char) :=
  let flags := state.inner.flags
  match flags.skip cs with
  | '?' :: 'P' :: '<' :: cs => readName state cs
  | '?' :: '<' :: cs => readName state cs
  | '?' :: cs =>
      let letters := cs.takeWhile fun c => c != ':' && c != ')'
      if Flags.allowed letters then
        match cs.drop letters.length with
        | ':' :: rest => some (state.openGroup none (flags.apply letters), rest)
        | ')' :: rest =>
            if letters.isEmpty then none
            else some ({ state with inner.flags := flags.apply letters }.push .directive, rest)
        | _ => none
      else none
  | cs => some (state.openNumbered, cs)

-- Reads one element of an expression.
def element (state : State) : List Char → Option (State × List Char)
  | [] => none
  | '(' :: cs => readGroup state cs
  | ')' :: cs =>
      match state.outer with
      | [] => none
      | level :: outer =>
          let group := Term.group state.inner.number state.inner.close
          some ({ state with outer, inner := level }.push group, cs)
  | '|' :: cs =>
      let inner := state.inner
      some ({ state with inner := { inner with
        branches := inner.branch :: inner.branches, items := [] } }, cs)
  | '[' :: cs =>
      (Bracket.read? state.inner.flags cs).map fun (inside, rest) =>
        (state.push (.bracket inside.set inside.depth), rest)
  | '?' :: cs => repeated state 0 (some 1) cs
  | '*' :: cs => repeated state 0 none cs
  | '+' :: cs => repeated state 1 none cs
  | '{' :: cs => do
      let (inside, rest) ← Text.cut '}' cs
      let (min, max) ← counts? state.inner.flags inside
      repeated state min max (state.inner.flags.skip rest)
  | '\\' :: cs =>
      (Escape.read? state.inner.flags cs).map fun (escape, rest) =>
        (state.push (ofEscape state.inner.flags escape), rest)
  | '.' :: cs => some (state.push (dot state.inner.flags), cs)
  | '^' :: cs =>
      some (state.push (.look (if state.inner.flags.multiLine then .lineStart else .textStart)), cs)
  | '$' :: cs =>
      some (state.push (.look (if state.inner.flags.multiLine then .lineEnd else .textEnd)), cs)
  | c :: cs => some (state.push (ofChar state.inner.flags c), cs)

-- Every element takes a character.
def elements : Nat → State → List Char → Option State
  | fuel, state, cs =>
      match fuel, state.inner.flags.skip cs with
      | _, [] => some state
      | 0, _ => none
      | fuel + 1, cs => do
          let (state, rest) ← element state cs
          elements fuel state rest

end Parser

-- Reads an expression as it is written.
def parseTerm? (source : List Char) : Option Term := do
  let state ← Parser.elements source.length .start source
  if state.outer.isEmpty then some state.inner.close else none

-- Expressions that are nested more deeply are refused.
def Term.maxDepth : Nat := 250

-- Reads an expression. What is nested too deeply or takes too much room is refused.
def parse? (source : List Char) : Option Regex := do
  let term ← parseTerm? source
  if term.depth ≤ Term.maxDepth ∧ term.fits then some term.regex else none

end Rulebook.Regex

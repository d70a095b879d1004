/- source: domain/cli/parse.ts, domain/cli/spec.ts, domain/handshake.ts
   digest: Reading a command line: global flags, command resolution, flags and arity. -/

import Kratos.Foundation.Collections
import Kratos.Foundation.Regexes

set_option autoImplicit false

namespace Kratos.Cli

open Foundation.Text Foundation.Regexes

inductive FlagKind
  | boolean | value
  deriving DecidableEq

structure FlagSpec where
  name : JsString
  kind : FlagKind
  deriving DecidableEq

/-- What parsing reads of a command: its path, its flags and how many operands it takes. -/
structure CommandSpec where
  path : List JsString
  flags : List FlagSpec
  min : Nat
  max : Nat
  deriving DecidableEq

abbrev CommandRegistry := List CommandSpec

inductive Orientation
  | help | version
  deriving DecidableEq

structure Globals where
  json : Bool
  expect : Option JsString
  orientation : Option Orientation
  deriving DecidableEq

/-- What a parsed flag holds: the value given with it, or only that it was given. -/
inductive FlagValue
  | given (value : JsString)
  | present
  deriving DecidableEq

structure Invocation where
  command : CommandSpec
  globals : Globals
  flags : List (JsString × FlagValue)
  positionals : List JsString
  deriving DecidableEq

section UsageWhy

def unknownCommand : JsString := js "The requested command is not registered in this runtime."
def unknownFlag : JsString := js "A supplied flag is not part of the command usage contract."
def missingValue : JsString := js "A flag that requires a value was supplied without one."
def conflictingFlag : JsString := js "A repeated global flag supplied conflicting values."
def arity : JsString :=
  js "The number of positional arguments does not match the command usage."

end UsageWhy

/-- Why a command line ends without an invocation: its usage, or the version it pins. -/
inductive Refusal
  | usage (why : JsString)
  | versionInvalid
  | versionUnsupported
  deriving DecidableEq

section Handshake

def KRATOS_VERSION : JsString := js "0.4.0"

/-- `0|[1-9]\d*`. -/
def numericPart : Regex :=
  .alt (.word "0") (.seq (.any (pointIn '1' '9')) (.star true (.any digitPoint)))

def exactSemver : Regex :=
  let dot := Regex.word "."
  let dashed := Regex.any fun point => alnumPoint point || point == '-'.toNat
  let alphanumeric : Regex := .sequence [.star true (.any digitPoint),
    .any fun point => letterPoint point || point == '-'.toNat, .star true dashed]
  let identifier : Regex := .alt numericPart alphanumeric
  .sequence [.start, numericPart, dot, numericPart, dot, numericPart,
    .maybe (.sequence [.word "-", identifier, .star true (.seq dot identifier)]),
    .maybe (.sequence [.word "+", .plus dashed, .star true (.seq dot (.plus dashed))]), .finish]

/-- Classify a caller's pin of the plugin version. -/
def classifyExpectedVersion (value : JsString) : Option Refusal :=
  if !exactSemver.test value then some .versionInvalid
  else if value = KRATOS_VERSION then none
  else some .versionUnsupported

end Handshake

structure GlobalParse where
  globals : Globals
  rest : List JsString
  failure : Option Refusal
  deriving DecidableEq

/-- The loop of `parseGlobals`, with what it has read so far. -/
def globalsFrom (json : Bool) (expect : Option JsString) (orientation : Option Orientation)
    (rest : List JsString) : List JsString → GlobalParse
  | [] => { globals := { json, expect, orientation }, rest, failure := none }
  | token :: tokens =>
      let failed := fun why =>
        { globals := { json, expect, orientation }, rest := [], failure := some (.usage why) }
      if token = js "--json" then globalsFrom json expect orientation rest tokens
      else if token = js "--help" ∨ token = js "-h" then
        globalsFrom json expect (some .help) rest tokens
      else if token = js "--version" then
        globalsFrom json expect (some (orientation.getD .version)) rest tokens
      else if token = js "--expect" then
        match tokens with
        | [] => failed missingValue
        | value :: later =>
            if startsWith value (js "-") then failed missingValue
            else if expect.isSome && expect != some value then failed conflictingFlag
            else globalsFrom json (some value) orientation rest later
      else globalsFrom json expect orientation (rest ++ [token]) tokens

/-- Extract flags shared by every command regardless of argument order. -/
def parseGlobals (argv : List JsString) : GlobalParse :=
  globalsFrom (argv.contains (js "--json")) none none [] argv

structure Resolution where
  command : CommandSpec
  rest : List JsString
  deriving DecidableEq

/-- `path.join(" ")`. -/
def spaced (tokens : List JsString) : JsString := [unit ' '].intercalate tokens

/-- The command named by the most tokens, the deepest paths tried first. -/
def matchCommand (tokens : List JsString) (registry : CommandRegistry) : Option Resolution :=
  let depths := registry.map fun spec => spec.path.length
  (List.range (depths.foldl max 0)).reverse.findSome? fun shallower =>
    let depth := shallower + 1
    let candidate := spaced (tokens.take depth)
    (registry.find? fun spec => decide (spaced spec.path = candidate)).map fun command =>
      { command, rest := tokens.drop depth }

/-- Resolve separated command paths first, then their dotted spelling. -/
def resolveCommand (tokens : List JsString) (registry : CommandRegistry) : Option Resolution :=
  match matchCommand tokens registry, tokens with
  | some direct, _ => some direct
  | none, [] => none
  | none, first :: later =>
      if first.contains (unit '.') then matchCommand (first.splitOn (unit '.') ++ later) registry
      else none

structure Arguments where
  flags : List (JsString × FlagValue)
  positionals : List JsString
  deriving DecidableEq

/-- The loop of `parseArguments`, with what it has read so far. -/
def argumentsFrom (spec : CommandSpec) (flags : List (JsString × FlagValue))
    (positionals : List JsString) : List JsString → Except Refusal Arguments
  | [] => .ok { flags, positionals }
  | token :: tokens =>
      if !startsWith token (js "-") || token.length == 1 then
        argumentsFrom spec flags (positionals ++ [token]) tokens
      else
        match spec.flags.find? fun flag => decide (flag.name = token) with
        | none => .error (.usage unknownFlag)
        | some flag =>
            match flag.kind with
            | .boolean => argumentsFrom spec (flags ++ [(flag.name, .present)]) positionals tokens
            | .value =>
                match tokens with
                | [] => .error (.usage missingValue)
                | value :: later =>
                    if startsWith value (js "-") then .error (.usage missingValue)
                    else argumentsFrom spec (flags ++ [(flag.name, .given value)]) positionals later

/-- Apply one command's declared flags and arity to remaining tokens. -/
def parseArguments (spec : CommandSpec) (tokens : List JsString) : Except Refusal Arguments :=
  match argumentsFrom spec [] [] tokens with
  | .error refusal => .error refusal
  | .ok read =>
      if read.positionals.length < spec.min ∨ spec.max < read.positionals.length then
        .error (.usage arity)
      else .ok read

inductive ParseOutcome
  | invocation (value : Invocation)
  | result (refusal : Refusal) (json : Bool)
  deriving DecidableEq

/-- The tokens a command is looked for in: orientation wins, and no token at all asks for help. -/
def commandTokens (globals : Globals) (rest : List JsString) : List JsString :=
  match globals.orientation with
  | some .help => [js "help"]
  | some .version => [js "version"]
  | none => if rest = [] then [js "help"] else rest

/-- Turn argv into either a validated invocation or the result ending the run. -/
def parseInvocation (argv : List JsString) (registry : CommandRegistry) : ParseOutcome :=
  let parsed := parseGlobals argv
  match parsed.failure.or (parsed.globals.expect.bind classifyExpectedVersion) with
  | some refusal => .result refusal parsed.globals.json
  | none =>
      match resolveCommand (commandTokens parsed.globals parsed.rest) registry with
      | none => .result (.usage unknownCommand) parsed.globals.json
      | some resolved =>
          match parseArguments resolved.command resolved.rest with
          | .error refusal => .result refusal parsed.globals.json
          | .ok read =>
              .invocation
                { command := resolved.command, globals := parsed.globals, flags := read.flags,
                  positionals := read.positionals }

end Kratos.Cli

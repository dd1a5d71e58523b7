import ApiScope.Cli.Quoting
import ApiScope.Hook.Registry

/-!
# The command line of the controller

`ParseCommandLine` reads its options in one loop over the arguments, with the
value of an option taken from the next argument whatever that is, and makes its
other checks behind the loop.
-/

namespace ApiScope

/-- A wide string literal of the source. -/
def wideText (text : String) : List UInt16 := text.toList.map wide

inductive CommandMode where
  | run
  | attach
  | listHooks
  | help
  | version
  | error
  deriving DecidableEq, Repr

inductive TraceOutputFormat where
  | text
  | jsonl
  deriving DecidableEq, Repr

structure TraceOutputOptions where
  format : TraceOutputFormat
  outputPath : List UInt16
  quiet : Bool
  deriving DecidableEq, Repr

structure CommandLineOptions where
  mode : CommandMode
  hooks : List HookDefinition
  targetArguments : List (List UInt16)
  targetProcessId : Nat
  output : TraceOutputOptions
  error : List UInt8
  deriving DecidableEq, Repr

/-- Empty for a name that is not ASCII. -/
def NarrowHookName (value : List UInt16) : List UInt8 :=
  if value.any (· > 0x7F) then [] else value.map UInt16.toUInt8

def AddHook (hooks : List HookDefinition) (hook : HookDefinition) : List HookDefinition :=
  if hooks.any (·.canonicalName == hook.canonicalName) then hooks else hooks ++ [hook]

namespace ExpandAndValidateHooks

/-- The loop over the requested hooks. -/
def loop (availableHooks : List HookDefinition) :
    List (List UInt8) → CommandLineOptions → Bool × CommandLineOptions
  | [], options => (true, options)
  | requestedHook :: rest, options =>
      if requestedHook = narrow "all" then
        loop availableHooks rest
          { options with hooks := availableHooks.foldl AddHook options.hooks }
      else
        let separator := requestedHook.findIdx (· == 0x21)
        if separator = requestedHook.length ∨ separator = 0 ∨
            separator + 1 = requestedHook.length ∨
            (requestedHook.drop (separator + 1)).any (· == 0x21) then
          (false, { options with error := narrow "Hook names must use module.dll!Export" })
        else
          let canonicalName := NormalizeModuleName (requestedHook.take separator) ++
            requestedHook.drop separator
          match FindSupportedHook availableHooks canonicalName with
          | none =>
              (false, { options with error := narrow "Unsupported hook: " ++ requestedHook })
          | some definition =>
              loop availableHooks rest { options with hooks := AddHook options.hooks definition }

end ExpandAndValidateHooks

def ExpandAndValidateHooks (options : CommandLineOptions) (availableHooks : List HookDefinition)
    (requestedHooks : List (List UInt8)) : Bool × CommandLineOptions :=
  match ExpandAndValidateHooks.loop availableHooks requestedHooks options with
  | (false, options) => (false, options)
  | (true, options) =>
      if options.hooks = [] then
        (false, { options with error := narrow "At least one --hook is required" })
      else (true, options)

namespace ParseProcessId

/-- The loop over the digits. -/
def loop : List UInt16 → UInt64 → Option UInt64
  | [], parsed => some parsed
  | character :: rest, parsed =>
      if character < wide '0' ∨ character > wide '9' then none
      else
        let parsed := parsed * 10 + (character - wide '0').toUInt64
        if parsed > 0xFFFFFFFF then none else loop rest parsed

end ParseProcessId

def ParseProcessId (value : List UInt16) : Option Nat :=
  if value = [] then none
  else
    match ParseProcessId.loop value 0 with
    | none => none
    | some parsed => if parsed = 0 then none else some parsed.toUInt32.toNat

/-- The local variables of `ParseCommandLine`. -/
structure ParseCommandLine.Locals where
  options : CommandLineOptions
  requestedHooks : List (List UInt8)
  formatSpecified : Bool
  deriving DecidableEq, Repr

namespace ParseCommandLine

def Locals.fail (locals : Locals) (error : String) : CommandLineOptions :=
  { locals.options with error := narrow error }

/-- The loop over the options.  It ends with what is behind `--`, or at the end. -/
def loop (attach : Bool) : List (List UInt16) → Locals →
    Except CommandLineOptions (Locals × List (List UInt16))
  | [], locals => .ok (locals, [])
  | argument :: rest, locals =>
      if argument = wideText "--" then
        if attach then .error (locals.fail "attach does not accept a target command")
        else .ok (locals, rest)
      else if argument = wideText "--pid" ∨ argument = wideText "-p" then
        if attach then
          match rest with
          | [] => .error (locals.fail "--pid requires a positive process ID")
          | value :: rest =>
              match ParseProcessId value with
              | none => .error (locals.fail "--pid requires a positive process ID")
              | some processId =>
                  loop attach rest
                    { locals with
                      options := { locals.options with targetProcessId := processId } }
        else .error (locals.fail "--pid is only valid with attach")
      else if argument = wideText "--hook" ∨ argument = wideText "-k" then
        match rest with
        | [] => .error (locals.fail "--hook requires a value")
        | value :: rest =>
            let hook := NarrowHookName value
            if hook = [] then .error (locals.fail "Hook names must be ASCII")
            else
              loop attach rest { locals with requestedHooks := locals.requestedHooks ++ [hook] }
      else if argument = wideText "--format" ∨ argument = wideText "-f" then
        match rest with
        | [] => .error (locals.fail "--format requires text or jsonl")
        | format :: rest =>
            if format = wideText "text" then
              loop attach rest
                { locals with
                  options.output.format := .text
                  formatSpecified := true }
            else if format = wideText "jsonl" then
              loop attach rest
                { locals with
                  options.output.format := .jsonl
                  formatSpecified := true }
            else .error (locals.fail "--format requires text or jsonl")
      else if argument = wideText "--output" ∨ argument = wideText "-o" then
        match rest with
        | [] => .error (locals.fail "--output requires a path")
        | path :: rest => loop attach rest { locals with options.output.outputPath := path }
      else if argument = wideText "--quiet" ∨ argument = wideText "-q" then
        loop attach rest { locals with options.output.quiet := true }
      else .error (locals.fail "Unknown command option")

/-- What stands behind the loop. -/
def finish (attach : Bool) (availableHooks : List HookDefinition) (locals : Locals)
    (rest : List (List UInt16)) : CommandLineOptions :=
  if attach ∧ rest ≠ [] then locals.fail "attach accepts options only"
  else if attach ∧ locals.options.targetProcessId = 0 then
    locals.fail "attach requires --pid <pid>"
  else if ¬attach ∧ rest = [] then
    locals.fail "run requires -- followed by a target program"
  else
    let locals :=
      if attach then locals
      else
        { locals with
          options.targetArguments := locals.options.targetArguments ++ rest }
    if locals.formatSpecified ∧ locals.options.output.outputPath = [] then
      locals.fail "--format requires --output <path>"
    else if locals.options.output.quiet ∧ locals.options.output.outputPath = [] then
      locals.fail "--quiet requires --output <path>"
    else
      match ExpandAndValidateHooks locals.options availableHooks locals.requestedHooks with
      | (false, options) => options
      | (true, options) => { options with mode := if attach then .attach else .run }

/-- The options before any argument is read. -/
def start : CommandLineOptions where
  mode := .error
  hooks := []
  targetArguments := []
  targetProcessId := 0
  output := ⟨.text, [], false⟩
  error := []

end ParseCommandLine

open ParseCommandLine in
def ParseCommandLine (argv : List (List UInt16)) (availableHooks : List HookDefinition) :
    CommandLineOptions :=
  match argv with
  | [_] => { start with mode := .help }
  | _ :: command :: rest =>
      if rest = [] ∧ (command = wideText "--list-hooks" ∨ command = wideText "-l") then
        { start with mode := .listHooks }
      else if rest = [] ∧ (command = wideText "--help" ∨ command = wideText "-h") then
        { start with mode := .help }
      else if rest = [] ∧ (command = wideText "--version" ∨ command = wideText "-V") then
        { start with mode := .version }
      else if command = wideText "run" ∨ command = wideText "attach" then
        let attach := command == wideText "attach"
        match loop attach rest ⟨start, [], false⟩ with
        | .error options => options
        | .ok (locals, rest) => finish attach availableHooks locals rest
      else
        { start with
          error := narrow "Expected 'run', 'attach', --list-hooks, --help, or --version" }
  | [] =>
      { start with
        error := narrow "Expected 'run', 'attach', --list-hooks, --help, or --version" }

end ApiScope

/-!
Reading the arguments of the command line.

Arguments are read from left to right at two levels: those before the name of a command, and its own. An option
and its value are only taken in when the next option comes or the level ends, so an unknown argument is refused
before the faults of the option that stands before it.
-/
namespace MetricReporting.CommandLine

inductive Refusal
  | unknownArgument
  | unknownCommand
  | noCommand
  | noArguments
  | valueMissing
  | valueInvalid
  | valueUnwanted
  | repeated
  | help
deriving DecidableEq, Repr

def Refusal.exitCode : Refusal → Nat
  | help => 0
  | _ => 2

inductive Setting
  | config
  | period
  | cycles
  | skipIdle
  | tag
  | included
  | excluded
  | rateUnit
  | durationUnit
deriving DecidableEq, Repr

namespace Setting

def all : List Setting := [config, period, cycles, skipIdle, tag, included, excluded, rateUnit, durationUnit]

def name : Setting → String
  | config => "config"
  | period => "period"
  | cycles => "cycles"
  | skipIdle => "skip-idle"
  | tag => "tag"
  | included => "include"
  | excluded => "exclude"
  | rateUnit => "rate-unit"
  | durationUnit => "duration-unit"

def takesValue : Setting → Bool
  | skipIdle => false
  | _ => true

def repeats : Setting → Bool
  | tag | included | excluded => true
  | _ => false

def cyclesOf? (text : String) : Option Nat :=
  let digits := match text.toList with
    | '+' :: rest => rest
    | cs => cs
  let n := digits.foldl (fun n c => n * 10 + (c.toNat - '0'.toNat)) 0
  if !digits.isEmpty && digits.all Char.isDigit && n < Nat.pow 2 64 then some n else none

def refusal? (setting : Setting) (value : String) : Option Refusal :=
  match setting with
  | config => if value.isEmpty then some .valueMissing else none
  | cycles => if (cyclesOf? value).isNone then some .valueInvalid else none
  | _ => none

end Setting

structure Level where
  given : List (Setting × String) := []
  pending : Option (Setting × Option String) := none
deriving DecidableEq, Repr

namespace Level

def value? (l : Level) (setting : Setting) : Option String :=
  (l.given.find? (·.1 == setting)).map (·.2)

def values (l : Level) (setting : Setting) : List String :=
  (l.given.filter (·.1 == setting)).map (·.2)

def add (l : Level) (setting : Setting) (value : String) : Except Refusal Level :=
  if !setting.repeats && (l.value? setting).isSome then .error .repeated
  else
    match setting.refusal? value with
    | some r => .error r
    | none => .ok { l with given := l.given ++ [(setting, value)] }

def settle (l : Level) : Except Refusal Level :=
  match l.pending with
  | none => .ok l
  | some (_, none) => .error .valueMissing
  | some (setting, some value) => add { l with pending := none } setting value

def awaiting? (l : Level) : Option Setting :=
  match l.pending with
  | some (setting, none) => some setting
  | _ => none

end Level

inductive Form
  | dashes
  | long (name : String) (value : Option String)
  | short (letter : Char)
  | plain
deriving DecidableEq, Repr

def Form.of (argument : String) : Form :=
  match argument.toList with
  | ['-', '-'] => .dashes
  | '-' :: '-' :: rest =>
    .long (String.ofList (rest.takeWhile (· != '=')))
      (match rest.dropWhile (· != '=') with
        | [] => none
        | _ :: value => some (String.ofList value))
  | '-' :: letter :: _ => .short letter
  | _ => .plain

structure Grammar where
  settings : List Setting
  commands : List String

inductive Stop
  | finished (l : Level)
  | command (l : Level) (name : String) (rest : List String)

namespace Grammar

def misplaced (g : Grammar) (optionsOver : Bool) (argument : String) : Refusal :=
  if g.commands.isEmpty then .unknownArgument
  else if optionsOver && g.commands.contains argument then .unknownArgument
  else .unknownCommand

def readLong (g : Grammar) (l : Level) (name : String) (value : Option String) : Except Refusal Level :=
  if name = "help" then
    if value.isSome then .error .valueUnwanted
    else do
      let _ ← l.settle
      .error .help
  else
    match g.settings.find? (·.name == name) with
    | none => .error .unknownArgument
    | some setting =>
      match setting.takesValue, value with
      | true, none => do return { ← l.settle with pending := some (setting, none) }
      | true, some v => do (← l.settle).add setting v
      | false, none => do (← l.settle).add setting "true"
      | false, some _ => .error .valueUnwanted

def readShort (l : Level) (letter : Char) : Except Refusal Level :=
  if letter = 'h' then do
    let _ ← l.settle
    .error .help
  else .error .unknownArgument

def read (g : Grammar) : Bool → Level → List String → Except Refusal Stop
  | _, l, [] => .ok (.finished l)
  | true, _, argument :: _ => .error (g.misplaced true argument)
  | false, l, argument :: rest =>
    if l.awaiting?.isNone && g.commands.contains argument then .ok (.command l argument rest)
    else
      match Form.of argument with
      | .dashes => read g true l rest
      | .long name value => do read g false (← g.readLong l name value) rest
      | .short letter => do read g false (← readShort l letter) rest
      | .plain =>
        match l.awaiting? with
        | some setting => read g false { l with pending := some (setting, some argument) } rest
        | none => .error (g.misplaced false argument)

end Grammar

structure RunArguments where
  period : Option String := none
  cycles : Option Nat := none
  skipIdle : Bool := false
  tags : List String := []
  included : List String := []
  excluded : List String := []
  rateUnit : Option String := none
  durationUnit : Option String := none
deriving DecidableEq, Repr

inductive Command
  | run (arguments : RunArguments)
  | showConfig
deriving DecidableEq, Repr

structure Invocation where
  command : Command
  configPath : Option String
deriving DecidableEq, Repr

namespace Invocation

def commandNames : List String := ["run", "config", "help"]

def settingsOf (command : String) : List Setting := if command = "run" then Setting.all else [.config]

def helpOn : List String → Refusal
  | [] => .help
  | [name] => if commandNames.contains name then .help else .unknownCommand
  | _ => .unknownCommand

def runArguments (l : Level) : RunArguments where
  period := l.value? .period
  cycles := l.value? .cycles >>= Setting.cyclesOf?
  skipIdle := (l.value? .skipIdle).isSome
  tags := l.values .tag
  included := l.values .included
  excluded := l.values .excluded
  rateUnit := l.value? .rateUnit
  durationUnit := l.value? .durationUnit

def readCommand (name : String) (arguments : List String) : Except Refusal Level := do
  match ← Grammar.read ⟨settingsOf name, []⟩ false {} arguments with
  | .finished l => l.settle
  | .command l _ _ => l.settle

/-- Reads all arguments. The faults of a command's own arguments come before those of an option pending before
its name, and its file goes before the one named there. -/
def parse (arguments : List String) : Except Refusal Invocation := do
  match ← Grammar.read ⟨[.config], commandNames⟩ false {} arguments with
  | .finished l =>
    let l ← l.settle
    .error (if l.given.isEmpty then .noArguments else .noCommand)
  | .command l name rest =>
    if name = "help" then .error (helpOn rest)
    else
      let own ← readCommand name rest
      let l ← l.settle
      return {
        command := if name = "run" then .run (runArguments own) else .showConfig
        configPath := own.value? .config <|> l.value? .config }

end Invocation

end MetricReporting.CommandLine

import Reckoner.Evaluation.Machine

/-! # Command line

Options may stand between expressions, and `--` makes an expression of all
that follows. An option's value is settled when the next argument of another
kind is met, so that an unknown argument is reported before a bad value just in
front of it. -/

namespace Reckoner.CommandLine

/-- A front end. -/
inductive FrontEnd where
  /-- Full screen. -/
  | fullScreen
  /-- Line editor in raw mode. -/
  | lineEditor
  /-- Plain prompt. -/
  | console
  deriving DecidableEq, Repr

namespace FrontEnd

def name : FrontEnd → String
  | .fullScreen => "tui"
  | .lineEditor => "line"
  | .console => "plain"

def all : List FrontEnd := [.fullScreen, .lineEditor, .console]

/-- Names are spelled in lower case. -/
def ofName? (name : String) : Option FrontEnd := all.find? (·.name = name)

end FrontEnd

inductive LogLevel where
  | off
  | error
  | warn
  | info
  | debug
  | trace
  deriving DecidableEq, Repr

namespace LogLevel

def name : LogLevel → String
  | .off => "off"
  | .error => "error"
  | .warn => "warn"
  | .info => "info"
  | .debug => "debug"
  | .trace => "trace"

/-- All levels; the place of a level is its number. -/
def all : List LogLevel := [.off, .error, .warn, .info, .debug, .trace]

/-- A number, which may have a plus sign in front. -/
def number? (text : List Char) : Option Nat :=
  let digits := match text with
    | '+' :: rest => rest
    | _ => text
  if digits.isEmpty || !digits.all Char.isDigit then none
  else some (Nat.ofDigitChars 10 digits 0)

/-- A number from zero to five, a name in any case, or nothing for errors only. -/
def ofText? (text : String) : Option LogLevel :=
  match (number? text.toList).bind (all[·]?) with
  | some level => some level
  | none =>
      if text = "" then some .error
      else all.find? fun level => level.name.toList == text.toList.map Char.toLower

end LogLevel

/-- What the arguments ask for. Options that were not given are `none`. -/
structure Options where
  frontEnd? : Option FrontEnd
  strict : Bool
  logDir? : Option String
  logLevel? : Option LogLevel
  expressions : List String
  deriving DecidableEq, Repr

namespace Options

def none : Options := ⟨Option.none, false, Option.none, Option.none, []⟩

def logDir (options : Options) : String := options.logDir?.getD "logs"

def logLevel (options : Options) : LogLevel := options.logLevel?.getD .info

/-- Unbound names are refused in strict sessions. -/
def policy (options : Options) : NamePolicy :=
  if options.strict then .refuse else .declare

/-- The front end to start. This build has no line editor. -/
def frontEnd (options : Options) : Except String FrontEnd :=
  match options.frontEnd?.getD .fullScreen with
  | .lineEditor => .error "built without the \x60line\x60 feature"
  | frontEnd => .ok frontEnd

end Options

/-- Why arguments are not accepted, or what they ask for instead of a session. -/
inductive Refusal where
  | unknownOption
  /-- A front end that does not exist, or an option without its value. -/
  | badValue
  /-- A log level that does not exist. -/
  | badLevel
  /-- An option given twice. -/
  | repeated
  /-- A value for an option that takes none. -/
  | unwantedValue
  /-- The help of one line for each option is asked for. -/
  | summary
  /-- The full help is asked for. -/
  | manual
  /-- The version is asked for. -/
  | version
  deriving DecidableEq, Repr

/-- An option that takes a value. -/
inductive Setting where
  | frontEnd
  | logDir
  | logLevel
  deriving DecidableEq, Repr

/-- An option that takes no value. -/
inductive Switch where
  | strict
  | summary
  | manual
  | version
  deriving DecidableEq, Repr

/-- What the argument last read leaves open. -/
inductive Open where
  | nothing
  /-- The option waits for its value. -/
  | setting (setting : Setting)
  /-- The value has been read and is not yet settled. -/
  | value (setting : Setting) (text : String)
  deriving DecidableEq, Repr

structure State where
  options : Options
  opened : Open
  deriving DecidableEq, Repr

/-- Gives an option its value. -/
def store (options : Options) (setting : Setting) (text : String) : Except Refusal Options :=
  match setting with
  | .frontEnd =>
      if options.frontEnd?.isSome then .error .repeated
      else
        match FrontEnd.ofName? text with
        | some frontEnd => .ok { options with frontEnd? := some frontEnd }
        | none => .error .badValue
  | .logDir =>
      if options.logDir?.isSome then .error .repeated
      else if text = "" then .error .badValue
      else .ok { options with logDir? := some text }
  | .logLevel =>
      if options.logLevel?.isSome then .error .repeated
      else
        match LogLevel.ofText? text with
        | some level => .ok { options with logLevel? := some level }
        | none => .error .badLevel

/-- Settles what is open. -/
def settle (state : State) : Except Refusal Options :=
  match state.opened with
  | .nothing => .ok state.options
  | .setting _ => .error .badValue
  | .value setting text => store state.options setting text

/-- Opens an option, or settles it at once when its value is attached. -/
def openSetting (state : State) (setting : Setting) (attached? : Option String) :
    Except Refusal State := do
  let options ← settle state
  match attached? with
  | some text => return ⟨← store options setting text, .nothing⟩
  | none => return ⟨options, .setting setting⟩

/-- Throws a switch. -/
def throwSwitch (state : State) (switch : Switch) : Except Refusal State := do
  let options ← settle state
  match switch with
  | .summary => throw .summary
  | .manual => throw .manual
  | .version => throw .version
  | .strict =>
      if options.strict then throw .repeated
      else return ⟨{ options with strict := true }, .nothing⟩

/-- An option by its long name. -/
def longName? (name : String) : Option (Setting ⊕ Switch) :=
  if name = "mode" then some (.inl .frontEnd)
  else if name = "log-dir" then some (.inl .logDir)
  else if name = "log-level" then some (.inl .logLevel)
  else if name = "strict" then some (.inr .strict)
  else if name = "help" then some (.inr .manual)
  else if name = "version" then some (.inr .version)
  else none

/-- An argument that begins with two dashes: a name, and a value behind an
equals sign. -/
def readLong (state : State) (body : List Char) : Except Refusal State :=
  let name := body.takeWhile (· ≠ '=')
  let attached? := match body.drop name.length with
    | [] => none
    | _ :: value => some (String.ofList value)
  match longName? (String.ofList name), attached? with
  | none, _ => .error .unknownOption
  | some (.inl setting), _ => openSetting state setting attached?
  | some (.inr _), some _ => .error .unwantedValue
  | some (.inr switch), none => throwSwitch state switch

/-- An argument that begins with one dash: single letters. The value of an
option follows its letter, with or without an equals sign. -/
def readShort (state : State) : List Char → Except Refusal State
  | 'm' :: value =>
      let attached? := match value with
        | [] => none
        | '=' :: rest => some (String.ofList rest)
        | _ => some (String.ofList value)
      openSetting state .frontEnd attached?
  | 'h' :: _ => throwSwitch state .summary
  | 'V' :: _ => throwSwitch state .version
  | _ => .error .unknownOption

/-- An argument that is no option: the value of the open option, or an expression. -/
def readPlain (state : State) (argument : String) : Except Refusal State :=
  match state.opened with
  | .setting setting => .ok ⟨state.options, .value setting argument⟩
  | _ => do
      let options ← settle state
      return ⟨{ options with expressions := options.expressions ++ [argument] }, .nothing⟩

/-- Reads arguments from left to right. -/
def readAll (state : State) : List String → Except Refusal Options
  | [] => settle state
  | argument :: rest =>
      match argument.toList with
      | ['-', '-'] => do
          let options ← settle state
          return { options with expressions := options.expressions ++ rest }
      | '-' :: '-' :: body => do readAll (← readLong state body) rest
      | ['-'] => do readAll (← readPlain state argument) rest
      | '-' :: body => do readAll (← readShort state body) rest
      | _ => do readAll (← readPlain state argument) rest

/-- The options that a list of arguments stands for. -/
def parse (arguments : List String) : Except Refusal Options :=
  readAll ⟨.none, .nothing⟩ arguments

end Reckoner.CommandLine

import ObsCatalog.Real.Literal

/-! Arguments of a command line.

An argument is an option with a value, a flag or an operand. The value of an option
stands in the same argument or is the next one, which then must not begin with a dash.
After two dashes alone all further arguments are operands.
-/

set_option autoImplicit false

namespace ObsCatalog.CommandLine

inductive UsageFault where
  | noCommand
  | unknown (argument : String)
  | noValue (option : String)
  | unneededValue (flag : String)
  | repeated (option : String)
  | missing (name : String)
  | invalid (name value : String)
  deriving DecidableEq, Repr

def UsageFault.message : UsageFault → String
  | .noCommand => "a command is required"
  | .unknown argument => "unexpected argument '" ++ argument ++ "'"
  | .noValue option => "a value is required for '--" ++ option ++ "'"
  | .unneededValue flag => "'--" ++ flag ++ "' takes no value"
  | .repeated option => "'--" ++ option ++ "' is given more than once"
  | .missing name => "'" ++ name ++ "' is required"
  | .invalid name value => "invalid value '" ++ value ++ "' for '" ++ name ++ "'"

inductive Stop where
  | help
  | version
  | misuse (fault : UsageFault)
  deriving DecidableEq, Repr

structure Declared where
  name : String
  letter : Option Char
  hasValue : Bool

inductive Item where
  | option (name value : String)
  | flag (name : String)
  | operand (text : String)
  | fault (f : UsageFault)
  deriving DecidableEq, Repr

namespace Item

/-- The argument begins with a dash and does not consist of it. -/
def isDashed (argument : String) : Bool :=
  match argument.toList with
  | '-' :: _ :: _ => true
  | _ => false

/-- The items of one argument. An option without a value waits for the next argument. -/
structure Group where
  items : List Item
  waiting : Option String

def single (item : Item) : Group := ⟨[item], none⟩

def ofLongForm (declared : List Declared) (cs : List Char) : Group :=
  let name := String.ofList (cs.takeWhile (· != '='))
  match declared.find? (·.name = name), cs.dropWhile (· != '=') with
  | none, _ => single (.fault (.unknown ("--" ++ name)))
  | some ⟨_, _, true⟩, [] => ⟨[], some name⟩
  | some ⟨_, _, true⟩, _ :: value => single (.option name (String.ofList value))
  | some ⟨_, _, false⟩, [] => single (.flag name)
  | some ⟨_, _, false⟩, _ :: _ => single (.fault (.unneededValue name))

/-- Short forms without their dash. The first one that takes a value ends them. -/
def ofLetters (declared : List Declared) : List Char → Group
  | [] => ⟨[], none⟩
  | c :: rest =>
    match declared.find? (·.letter = some c) with
    | none => single (.fault (.unknown (String.ofList ['-', c])))
    | some ⟨name, _, true⟩ =>
      match rest with
      | [] => ⟨[], some name⟩
      | '=' :: value => single (.option name (String.ofList value))
      | value => single (.option name (String.ofList value))
    | some ⟨name, _, false⟩ =>
      let more := ofLetters declared rest
      ⟨.flag name :: more.items, more.waiting⟩

def ofDashed (declared : List Declared) (argument : String) : Group :=
  match argument.toList with
  | '-' :: '-' :: cs => ofLongForm declared cs
  | cs => ofLetters declared cs.tail

/-- Read arguments up to the first operand if `leading` is set, and else all of them.
Gives the items and the arguments that are left. -/
def scan (declared : List Declared) (leading : Bool) : List String → List Item × List String
  | [] => ([], [])
  | argument :: rest =>
    if argument = "--" then (rest.map .operand, [])
    else if isDashed argument then
      match ofDashed declared argument, rest with
      | ⟨items, none⟩, rest =>
        let (more, left) := scan declared leading rest
        (items ++ more, left)
      | ⟨items, some name⟩, value :: rest =>
        if isDashed value then (items ++ [.fault (.noValue name)], [])
        else
          let (more, left) := scan declared leading rest
          (items ++ .option name value :: more, left)
      | ⟨items, some name⟩, [] => (items ++ [.fault (.noValue name)], [])
    else if leading then ([], argument :: rest)
    else
      let (more, left) := scan declared leading rest
      (.operand argument :: more, left)

end Item

def readInteger? (text : String) : Option Int64 :=
  let unsigned (negative : Bool) (cs : List Char) : Option Int64 :=
    let n : Int := if negative then -(Text.number cs : Int) else Text.number cs
    if cs ≠ [] ∧ cs.all Char.isDigit ∧ Int64.minValue.toInt ≤ n ∧ n ≤ Int64.maxValue.toInt then
      some (Int64.ofInt n)
    else none
  match text.toList with
  | '-' :: cs => unsigned true cs
  | '+' :: cs => unsigned false cs
  | cs => unsigned false cs

def readPath? (text : String) : Option String := if text = "" then none else some text

structure Arguments where
  options : List (String × String)
  operands : List String

namespace Arguments

def empty : Arguments := ⟨[], []⟩

def add (a : Arguments) : Item → Except Stop Arguments
  | .option name value =>
    if a.options.any (·.1 = name) then .error (.misuse (.repeated name))
    else .ok { a with options := a.options ++ [(name, value)] }
  | .flag _ => .error .help
  | .operand text => .ok { a with operands := a.operands ++ [text] }
  | .fault f => .error (.misuse f)

def meant {α : Type} (name : String) (read : String → Option α) (value : String) :
    Except Stop α :=
  match read value with
  | some a => .ok a
  | none => .error (.misuse (.invalid name value))

def optional {α : Type} (a : Arguments) (name : String) (read : String → Option α) :
    Except Stop (Option α) :=
  match a.options.find? (·.1 = name) with
  | some (_, value) => some <$> meant name read value
  | none => .ok none

def required {α : Type} (a : Arguments) (name : String) (read : String → Option α) :
    Except Stop α := do
  match ← a.optional name read with
  | some value => pure value
  | none => throw (.misuse (.missing name))

def operand {α : Type} (a : Arguments) (name : String) (read : String → Option α) :
    Except Stop α :=
  match a.operands with
  | [value] => meant name read value
  | [] => .error (.misuse (.missing name))
  | _ :: extra :: _ => .error (.misuse (.unknown extra))

def noOperand (a : Arguments) : Except Stop Unit :=
  match a.operands with
  | [] => .ok ()
  | extra :: _ => .error (.misuse (.unknown extra))

end Arguments

end ObsCatalog.CommandLine

/-!
# Arguments of a command

A command takes options and texts. Options stand anywhere; one that takes a value has it in the same
argument or in the next, and after `--` everything is a text. An option that was given is taken in
once the next one is reached, so of two mistakes the first one counts, unless the second is an
argument that no command knows.
-/

namespace CardFilter.CommandLine

/-- Why arguments are no command. -/
inductive UsageFault
  /-- Help was asked for. -/
  | helpAsked
  /-- Nothing was given at all. -/
  | nothingGiven
  /-- No command was given. -/
  | missingCommand
  /-- There is no such command. -/
  | unknownCommand
  /-- The command takes no such argument. -/
  | unknownArgument
  /-- The command needs a text. -/
  | missingText
  /-- The option needs a value. -/
  | missingValue
  /-- The option takes no value. -/
  | unwantedValue
  /-- The value is no number, or none of at most 64 bits. -/
  | invalidNumber
  /-- The option comes twice. -/
  | repeated
  deriving DecidableEq, Repr

/-- What an option does. -/
inductive OptionKind
  /-- It asks for help. -/
  | help
  /-- It may come any number of times. -/
  | counted
  /-- It comes at most once. -/
  | flag
  /-- It takes a number, and comes at most once. -/
  | number
  /-- It takes a text, which may look like an option, and may come any number of times. -/
  | text
  deriving DecidableEq, Repr

/-- The option takes a value. -/
def OptionKind.takesValue : OptionKind → Bool
  | help | counted | flag => false
  | number | text => true

/-- An option. -/
structure OptionShape where
  /-- Its name after `--`. -/
  name : String
  /-- Its letter after `-`, if it has one. -/
  letter : Option Char
  /-- What it does. -/
  kind : OptionKind
  deriving DecidableEq, Repr

/-- What a command takes. -/
structure Shape where
  /-- The options. -/
  options : List OptionShape
  /-- A text must be given. -/
  needsText : Bool
  /-- The greatest number of texts, if there is a bound. -/
  mostTexts : Option Nat
  deriving Repr

/-- **What was given.** -/
structure Arguments where
  /-- The options without a value, by name. -/
  flags : List String
  /-- The options with a number. -/
  numbers : List (String × Nat)
  /-- The options with a text. -/
  named : List (String × String)
  /-- The texts that belong to no option. -/
  texts : List String
  deriving DecidableEq, Repr

/-- Arguments that are being read. -/
structure Reading where
  /-- What was taken in. -/
  arguments : Arguments
  /-- The last option, with its value if that came already. -/
  pending : Option (OptionShape × Option String)
  deriving Repr

/-- The value of digits in base ten. -/
def digitsValue? : (acc : Nat) → List Char → Option Nat
  | acc, [] => some acc
  | acc, c :: rest => if c.isDigit then digitsValue? (acc * 10 + (c.toNat - 48)) rest else none

/-- **The number that a text writes**: digits, after a `+` or not, for at most 64 bits. -/
def number? (s : String) : Option Nat :=
  let digits := match s.toList with
    | '+' :: rest => rest
    | cs => cs
  if digits.isEmpty then none
  else (digitsValue? 0 digits).bind fun n => if n < 0x10000000000000000 then some n else none

namespace Arguments

/-- Nothing was given. -/
def empty : Arguments := ⟨[], [], [], []⟩

/-- The option without a value was given. -/
def has (a : Arguments) (name : String) : Bool :=
  a.flags.contains name

/-- The number of an option. -/
def number? (a : Arguments) (name : String) : Option Nat :=
  a.numbers.lookup name

/-- The texts of an option. -/
def textsOf (a : Arguments) (name : String) : List String :=
  (a.named.filter (·.1 == name)).map (·.2)

/-- Takes in an option with a value. -/
def give (a : Arguments) (o : OptionShape) (value : String) : Except UsageFault Arguments :=
  match o.kind with
  | .number =>
    if (a.number? o.name).isSome then .error .repeated
    else match CommandLine.number? value with
      | some n => .ok { a with numbers := a.numbers ++ [(o.name, n)] }
      | none => .error .invalidNumber
  | _ => .ok { a with named := a.named ++ [(o.name, value)] }

/-- Takes in an option without a value. -/
def raise (a : Arguments) (o : OptionShape) : Except UsageFault Arguments :=
  match o.kind with
  | .help => .error .helpAsked
  | .flag =>
    if a.has o.name then .error .repeated else .ok { a with flags := a.flags ++ [o.name] }
  | _ => .ok { a with flags := a.flags ++ [o.name] }

end Arguments

namespace Reading

/-- Nothing was read. -/
def start : Reading := ⟨.empty, none⟩

/-- Takes in the last option. -/
def settle (r : Reading) : Except UsageFault Arguments :=
  match r.pending with
  | none => .ok r.arguments
  | some (_, none) => .error .missingValue
  | some (o, some value) => r.arguments.give o value

/-- Reads an option without a value. -/
def raise (r : Reading) (o : OptionShape) : Except UsageFault Reading := do
  return ⟨← (← r.settle).raise o, none⟩

/-- Reads an option with a value in the same argument. -/
def give (r : Reading) (o : OptionShape) (value : String) : Except UsageFault Reading := do
  return ⟨← (← r.settle).give o value, none⟩

/-- Reads an option whose value is to come. -/
def await (r : Reading) (o : OptionShape) : Except UsageFault Reading := do
  return ⟨← r.settle, some (o, none)⟩

/-- Reads a text. -/
def addText (shape : Shape) (r : Reading) (text : String) : Except UsageFault Reading :=
  if shape.mostTexts.any (· ≤ r.arguments.texts.length) then .error .unknownArgument
  else do
    let a ← r.settle
    return ⟨{ a with texts := a.texts ++ [text] }, none⟩

/-- Reads the option with a name; what follows a `=` is its value. -/
def readLong (shape : Shape) (r : Reading) (cs : List Char) : Except UsageFault Reading :=
  let name := String.ofList (cs.takeWhile (· != '='))
  match shape.options.find? (·.name == name), cs.dropWhile (· != '=') with
  | none, _ => .error .unknownArgument
  | some o, [] => if o.kind.takesValue then r.await o else r.raise o
  | some o, _ :: value =>
    if o.kind.takesValue then r.give o (String.ofList value) else .error .unwantedValue

/-- Reads options with a letter. What follows one that takes a value is its value, which a `=` may
set off. -/
def readLetters (shape : Shape) (r : Reading) : List Char → Except UsageFault Reading
  | [] => .ok r
  | c :: rest =>
    match shape.options.find? (·.letter == some c) with
    | none => .error .unknownArgument
    | some o =>
      if o.kind.takesValue then
        match rest with
        | [] => r.await o
        | '=' :: value => r.give o (String.ofList value)
        | value => r.give o (String.ofList value)
      else do
        let r ← r.raise o
        r.readLetters shape rest

/-- The last option waits for a value. -/
def awaiting? (r : Reading) : Option OptionShape :=
  match r.pending with
  | some (o, none) => some o
  | _ => none

/-- Reads an argument that is not `--` and stands before it. -/
def readArgument (shape : Shape) (r : Reading) (argument : String) : Except UsageFault Reading :=
  match argument.toList with
  | '-' :: '-' :: cs => r.readLong shape cs
  | '-' :: c :: cs => r.readLetters shape (c :: cs)
  | _ =>
    match r.awaiting? with
    | some o => .ok { r with pending := some (o, some argument) }
    | none => r.addText shape argument

/-- Reads what follows `--`. -/
def readTexts (shape : Shape) (r : Reading) : List String → Except UsageFault Reading
  | [] => .ok r
  | text :: rest => do
    let r ← r.addText shape text
    r.readTexts shape rest

/-- Reads arguments. -/
def readAll (shape : Shape) (r : Reading) : List String → Except UsageFault Reading
  | [] => .ok r
  | argument :: rest =>
    match r.awaiting? with
    | some ⟨name, letter, .text⟩ =>
      readAll shape { r with pending := some (⟨name, letter, .text⟩, some argument) } rest
    | _ =>
      if argument = "--" then r.readTexts shape rest
      else do
        let r ← r.readArgument shape argument
        r.readAll shape rest

end Reading

/-- **What was given to a command of this shape**, or the first mistake. -/
def Arguments.read (shape : Shape) (arguments : List String) : Except UsageFault Arguments := do
  let a ← (← Reading.start.readAll shape arguments).settle
  if shape.needsText && a.texts.isEmpty then .error .missingText else .ok a

end CardFilter.CommandLine

import CardFilter.CommandLine.Arguments

/-!
# Commands

The program is told what to do by a command and its arguments: to parse a text, to list its tokens,
to suggest how to go on, to list the keys, and to start, show or check the settings.
-/

namespace CardFilter.CommandLine

/-- **What is to be done.** -/
inductive Command
  /-- A text is parsed. -/
  | parse (text : String) (json : Bool)
  /-- The tokens of a text are listed. -/
  | tokens (text : String) (strict json : Bool)
  /-- A text is completed. -/
  | suggest (text : String) (limit cursor : Option Nat) (existing : List String) (json : Bool)
  /-- The keys are listed. -/
  | keys
  /-- A settings file is started. -/
  | start (global force : Bool)
  /-- The settings are shown. -/
  | settings
  /-- The settings are checked. -/
  | check
  deriving DecidableEq, Repr

/-- A command in a word. -/
inductive CommandName
  /-- A text is parsed. -/
  | parse
  /-- The tokens of a text are listed. -/
  | tokens
  /-- A text is completed. -/
  | suggest
  /-- The keys are listed. -/
  | keys
  /-- A settings file is started. -/
  | start
  /-- The settings are shown. -/
  | settings
  /-- The settings are checked. -/
  | check
  deriving DecidableEq, Repr

/-- The options that every command takes. -/
def commonOptions : List OptionShape :=
  [⟨"verbose", some 'v', .counted⟩, ⟨"help", some 'h', .help⟩]

/-- The shape of what stands before the command. -/
def outerShape : Shape :=
  ⟨commonOptions, false, some 0⟩

namespace CommandName

/-- Every command, in listing order. -/
def all : List CommandName :=
  [parse, tokens, suggest, keys, start, settings, check]

/-- The word for the command. -/
def word : CommandName → String
  | parse => "parse"
  | tokens => "tokens"
  | suggest => "suggest"
  | keys => "keys"
  | start => "init"
  | settings => "config"
  | check => "check"

/-- What the command does, in a line. -/
def summary : CommandName → String
  | parse => "Parse filter text and show how it is understood"
  | tokens => "Show the token stream for filter text"
  | suggest => "Show ranked autocomplete suggestions for partial text"
  | keys => "List filter keys, aliases and values"
  | start => "Initialize scry configuration in current directory"
  | settings => "Show effective configuration settings"
  | check => "Validate configuration and diagnose issues"

/-- The command that the word stands for. -/
def ofWord? (w : String) : Option CommandName :=
  all.find? fun c => c.word == w

/-- What the command takes. -/
def shape : CommandName → Shape
  | parse => ⟨⟨"json", none, .flag⟩ :: commonOptions, true, none⟩
  | tokens => ⟨⟨"strict", none, .flag⟩ :: ⟨"json", none, .flag⟩ :: commonOptions, true, some 1⟩
  | suggest => ⟨[⟨"limit", some 'n', .number⟩, ⟨"existing", some 'e', .text⟩,
      ⟨"cursor", none, .number⟩, ⟨"json", none, .flag⟩] ++ commonOptions, true, some 1⟩
  | start => ⟨⟨"global", none, .flag⟩ :: ⟨"force", none, .flag⟩ :: commonOptions, false, some 0⟩
  | keys | settings | check => outerShape

/-- The command with what was given. Texts stand with a blank between them. -/
def withArguments (a : Arguments) : CommandName → Command
  | parse => .parse (" ".intercalate a.texts) (a.has "json")
  | tokens => .tokens (" ".intercalate a.texts) (a.has "strict") (a.has "json")
  | suggest => .suggest (" ".intercalate a.texts) (a.number? "limit") (a.number? "cursor")
      (a.textsOf "existing") (a.has "json")
  | keys => .keys
  | start => .start (a.has "global") (a.has "force")
  | settings => .settings
  | check => .check

/-- The command with its arguments. -/
def read (c : CommandName) (arguments : List String) : Except UsageFault Command := do
  return c.withArguments (← Arguments.read c.shape arguments)

end CommandName

/-- The word that asks for help on a command. -/
def helpWord : String := "help"

/-- What comes of asking for help on something. Commands hold no commands of their own. -/
def helpOn : List String → UsageFault
  | [] => .helpAsked
  | word :: rest =>
    if ((CommandName.ofWord? word).isSome || word == helpWord) && rest.isEmpty then .helpAsked
    else .unknownCommand

/-- What comes of arguments that hold no command. -/
def withoutCommand (r : Reading) : UsageFault :=
  if r.arguments.flags.isEmpty then .nothingGiven else .missingCommand

/-- Reads up to the command, and then its arguments. -/
def Command.readAfter (r : Reading) : List String → Except UsageFault Command
  | [] => .error (withoutCommand r)
  | argument :: rest =>
    match CommandName.ofWord? argument with
    | some c => c.read rest
    | none =>
      if argument = helpWord then .error (helpOn rest)
      else if argument = "--" then
        match rest with
        | [] => .error (withoutCommand r)
        | text :: _ =>
          if (CommandName.ofWord? text).isSome || text == helpWord then .error .unknownArgument
          else .error .unknownCommand
      else if 2 ≤ argument.toList.length && argument.toList.head? = some '-' then
        match r.readArgument outerShape argument with
        | .error e => .error e
        | .ok r => Command.readAfter r rest
      else .error .unknownCommand

/-- **The command that arguments write.** -/
def Command.ofArguments (arguments : List String) : Except UsageFault Command :=
  Command.readAfter .start arguments

/-! ### Help -/

/-- How the program is used. -/
def usageText : String :=
  "Card filter queries - parse, tokenize and autocomplete\n\n"
    ++ "Usage: scry [OPTIONS] <COMMAND>\n\nCommands:\n"
    ++ String.join (CommandName.all.map fun c =>
      "  " ++ c.word ++ String.ofList (List.replicate (11 - c.word.toList.length) ' ')
        ++ c.summary ++ "\n")
    ++ "  help       Print this message or the help of the given subcommand(s)\n\nOptions:\n"
    ++ "  -v, --verbose...  Log verbosity (-v for debug, -vv for trace)\n"
    ++ "  -h, --help        Print help\n"

/-- The mistake in words. -/
def UsageFault.message : UsageFault → String
  | helpAsked | nothingGiven => usageText
  | missingCommand => "error: a command is required\n"
  | unknownCommand => "error: unknown command\n"
  | unknownArgument => "error: unexpected argument\n"
  | missingText => "error: a text is required\n"
  | missingValue => "error: a value is required\n"
  | unwantedValue => "error: unexpected value\n"
  | invalidNumber => "error: invalid number\n"
  | repeated => "error: the option cannot be used multiple times\n"

/-- Asking for help is no failure. -/
def UsageFault.exitCode : UsageFault → Nat
  | helpAsked => 0
  | _ => 2

end CardFilter.CommandLine

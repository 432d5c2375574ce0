import MailScreen.Text.Split

/-!
# Arguments

Model of `Cli` and `Commands`, and of how arguments are taken for them.

What the program is asked to do. Arguments are read from left to right, and the first one that asks
for help or for the version, or that means nothing, decides.

* `Word.ofText` tells the shapes of arguments apart.
* `Invocation.ofArguments?` reads all arguments; it is `none` if they mean nothing. Without a
  command the program serves.
-/

namespace MailScreen.Cli

open MailScreen.Text

/-- The shapes that an argument can have. -/
inductive Word where
  /-- Two hyphens: no option follows. -/
  | escape
  | long (name : String) (value : Option String)
  /-- A hyphen and letters, of which there is at least one. -/
  | short (letter : Char) (rest : List Char)
  | plain (text : String)
  deriving Repr, DecidableEq

/-- The shape of an argument. A hyphen alone is plain. -/
def Word.ofText (text : String) : Word :=
  match text.toList with
  | ['-', '-'] => .escape
  | '-' :: '-' :: cs =>
    match cutFirst (· == '=') cs with
    | some (name, value) => .long (String.ofList name) (some (String.ofList value))
    | none => .long (String.ofList cs) none
  | '-' :: c :: cs => .short c cs
  | _ => .plain text

/-- What the program can do. -/
inductive Command where
  | serve (metricsOnExit : Bool)
  | checkConfig
  | dkimRecord
  | sign (path : String)
  deriving Repr, DecidableEq

/-- What there is help about. -/
inductive Topic where
  | program
  | serve
  | checkConfig
  | dkimRecord
  | sign
  | help
  deriving Repr, DecidableEq

/-- The commands of the program by name. -/
def Topic.ofCommand? : String → Option Topic
  | "serve" => some .serve
  | "check-config" => some .checkConfig
  | "dkim-record" => some .dkimRecord
  | "sign" => some .sign
  | "help" => some .help
  | _ => none

/-- What the program is asked for. -/
inductive Invocation where
  | help (topic : Topic)
  | version
  /-- A command, with the configuration file that is named. -/
  | run (config : Option String) (command : Command)
  deriving Repr, DecidableEq

/-- What the arguments of a command have said so far. -/
structure Given where
  metricsOnExit : Bool
  path : Option String
  deriving Repr, DecidableEq

namespace Given

/-- Nothing has been said. -/
def nothing : Given := ⟨false, none⟩

/-- Takes an argument that is not an option: only the path of a message, which is not empty. -/
def takePlain? (topic : Topic) (g : Given) (text : String) : Option Given :=
  if topic = .sign ∧ g.path = none ∧ text ≠ "" then some { g with path := some text } else none

/-- Takes an option; none may be given twice. -/
def takeOption? (topic : Topic) (g : Given) (name : String) : Option Given :=
  if topic = .serve ∧ name = "metrics-on-exit" ∧ !g.metricsOnExit then
    some { g with metricsOnExit := true }
  else none

/-- The command that has been given. -/
def command? (g : Given) : Topic → Option Command
  | .serve => some (.serve g.metricsOnExit)
  | .checkConfig => some .checkConfig
  | .dkimRecord => some .dkimRecord
  | .sign => g.path.map .sign
  | .program | .help => none

end Given

/-- What the arguments of a command come to. -/
inductive Reading where
  | help
  | command (c : Command)
  | nothing
  deriving Repr, DecidableEq

/-- A command, if it is one. -/
def Reading.ofCommand? (c : Option Command) : Reading :=
  c.elim .nothing .command

/-- Reads the arguments of a command. -/
def readCommand (topic : Topic) (g : Given) : List String → Reading
  | [] => .ofCommand? (g.command? topic)
  | a :: rest =>
    match Word.ofText a with
    | .escape => .ofCommand? ((rest.foldlM (Given.takePlain? topic) g).bind (·.command? topic))
    | .long "help" none | .short 'h' _ => .help
    | .long name none =>
      match g.takeOption? topic name with
      | some g => readCommand topic g rest
      | none => .nothing
    | .plain text =>
      match g.takePlain? topic text with
      | some g => readCommand topic g rest
      | none => .nothing
    | .long _ (some _) | .short _ _ => .nothing

/-! ## Before the command -/

/-- What has been said of the configuration file. -/
structure Source where
  path : Option String
  /-- A path was empty, or a second one. -/
  spoiled : Bool
  deriving Repr, DecidableEq

namespace Source

/-- Nothing has been said. -/
def unknown : Source := ⟨none, false⟩

/-- Takes a path. -/
def take (s : Source) (path : String) : Source :=
  if s.path = none ∧ path ≠ "" then { s with path := some path } else { s with spoiled := true }

/-- Runs a command with the configuration file that is named, or else with that of the environment,
which must not be empty then. -/
def run? (environment : Option String) (s : Source) (c : Command) : Option Invocation :=
  if s.spoiled ∨ (s.path = none ∧ environment = some "") then none
  else some (.run (s.path <|> environment) c)

end Source

/-- The value of an option that stands right behind its letter, perhaps after an equals sign; none
if nothing stands there. -/
def attached? : List Char → Option String
  | [] => none
  | '=' :: cs => some (String.ofList cs)
  | cs => some (String.ofList cs)

namespace Word

/-- What an option asks for that needs nothing else. -/
def invocation? : Word → Option Invocation
  | long "help" none | short 'h' _ => some (.help .program)
  | long "version" none | short 'V' _ => some .version
  | _ => none

/-- Whether an option names the configuration file, and the path if it stands in the same
argument. -/
def config? : Word → Option (Option String)
  | long "config" path => some path
  | short 'c' letters => some (attached? letters)
  | _ => none

/-- Whether an argument is no option. -/
def isPlain : Word → Bool
  | plain _ => true
  | _ => false

end Word

/-- What help is asked for. There is none about what is below a command. -/
def topic? : List String → Option Topic
  | [] => some .program
  | [name] => Topic.ofCommand? name
  | _ => none

/-- Reads the arguments after a command's name. A bad path before it does not keep the command from
giving help. -/
def readAfter (environment : Option String) (s : Source) (topic : Topic) (rest : List String) :
    Option Invocation :=
  match readCommand topic .nothing rest with
  | .help => some (.help topic)
  | .command c => s.run? environment c
  | .nothing => none

/-- Reads the arguments of the program. -/
def readProgram (environment : Option String) (s : Source) : List String → Option Invocation
  | [] => s.run? environment (.serve false)
  | a :: rest =>
    match Word.ofText a with
    | .escape => if rest.isEmpty then s.run? environment (.serve false) else none
    | .plain name =>
      match Topic.ofCommand? name with
      | some .help => (topic? rest).map .help
      | some topic => readAfter environment s topic rest
      | none => none
    | option =>
      if s.spoiled then none
      else
        match option.invocation?, option.config?, rest with
        | some i, _, _ => some i
        | none, some (some path), rest =>
          let s := s.take path
          if s.spoiled then none else readProgram environment s rest
        | none, some none, path :: rest =>
          if (Word.ofText path).isPlain then readProgram environment (s.take path) rest else none
        | none, some none, [] => none
        | none, none, _ => none

/-- Reads arguments. The environment may name a configuration file too. -/
def Invocation.ofArguments? (environment : Option String) (arguments : List String) :
    Option Invocation :=
  readProgram environment .unknown arguments

end MailScreen.Cli

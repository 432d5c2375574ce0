import MailScreen.Cli.Help
import MailScreen.Config.File
import MailScreen.Engine

/-!
# Outcomes

Model of `main` as far as it does not serve, with `Config.load` and `Config.from_file`.

What becomes of an invocation. The program can reach nothing but a `Host`, so that it runs over real
files as well as over a list of them.

* `loadConfig` reads the configuration file that is named, or else the first standard one that is
  there, or else takes the standard settings.
* `Invocation.perform` does all that is asked for except serving, for which it gets the engine
  ready.
* `Failure.report` is the text for what went wrong, `Outcome.exitCode` the number.
-/

namespace MailScreen.Cli

open MailScreen.Text

/-- What a program can reach. -/
structure Host (m : Type → Type) where
  /-- Whether there is anything at a path. -/
  isThere : String → m Bool
  /-- Reads a file, or says why that cannot be done. -/
  read : String → m (Except String (List UInt8))
  /-- Reads the standard input to its end. -/
  input : m (Except String (List UInt8))
  /-- The time of day, in seconds. -/
  timeOfDay : m Int

/-- What went wrong, and why if there is more to say. -/
structure Failure where
  message : String
  cause : Option String
  deriving Repr, DecidableEq

namespace Failure

/-- The failure that an error is. -/
def ofError (e : Error) : Failure :=
  ⟨e.message, none⟩

/-- The text for the user. -/
def report (f : Failure) : String :=
  "Error: " ++ f.message ++ f.cause.elim "" ("\n\nCaused by:\n    " ++ ·)

end Failure

/-- What becomes of an invocation. -/
inductive Outcome where
  /-- The arguments mean nothing. -/
  | misused
  | failed (f : Failure)
  /-- All is done, and these lines are to be written. -/
  | done (lines : List String)
  /-- Lines of input are to be answered. -/
  | serving (e : Engine) (c : Config) (metricsOnExit : Bool)

/-- The number with which the program ends; serving ends well if reading does. -/
def Outcome.exitCode : Outcome → Nat
  | misused => 2
  | failed _ => 1
  | done _ | serving _ _ _ => 0

/-- The configuration files that are looked for, in order. -/
def standardPaths : List String :=
  ["./mailgate.toml", "/etc/mailgate/mailgate.toml"]

/-- What signs, or a failure if nothing does. -/
def signerOf (e : Engine) : Except Failure Dkim.Signer :=
  match e.signer with
  | some s => .ok s
  | none => .error ⟨"No [dkim_signing] section configured", none⟩

/-- The line under which the public key is to be published. -/
def recordLine (s : Dkim.Signer) : String :=
  s.recordName ++ " IN TXT \"" ++ s.record ++ "\""

/-- The header field that signs a message. -/
def signatureLine (s : Dkim.Signer) (scheme : Dkim.Scheme) (now : Int) (message : List UInt8) :
    String :=
  "DKIM-Signature: " ++ s.sign scheme.hash now (Mail.Message.ofBytes message)

section

variable {m : Type → Type} [Monad m]

/-- Reads text. -/
def Host.readText (h : Host m) (path : String) : m (Except String String) := do
  return (← h.read path) >>= Utf8.decode

/-- Reads a configuration file. -/
def readConfig (h : Host m) (path : String) : m (Except Error Config) := do
  match ← h.readText path with
  | .ok text => return Config.ofToml text
  | .error _ => return .error ⟨.configuration, "Failed to read config file"⟩

/-- The settings in the first of some files that is there. -/
def firstConfig (h : Host m) : List String → m (Except Error Config)
  | [] => return .ok {}
  | path :: paths => do
    if ← h.isThere path then readConfig h path else firstConfig h paths

/-- The settings to use. -/
def loadConfig (h : Host m) : Option String → m (Except Error Config)
  | some path => readConfig h path
  | none => firstConfig h standardPaths

/-- Builds the engine that the settings ask for. -/
def buildEngine (scheme : Dkim.Scheme) (reg : Registry) (r : Dns.Resolver) (h : Host m)
    (c : Config) : m (Except Error Engine) := do
  match c.signing with
  | none => return Engine.build scheme reg r (fun _ => .error "") [] c
  | some s =>
    let keyText ← h.readText s.keyPath
    return Engine.build scheme reg r (fun _ => keyText) [] c

/-- Reads the message to sign; a hyphen stands for the standard input. -/
def readMessage (h : Host m) (path : String) : m (Except Failure (List UInt8)) := do
  if path = "-" then return (← h.input).mapError (⟨·, none⟩)
  else return (← h.read path).mapError fun why => ⟨"Failed to read " ++ path, some why⟩

/-- Signs a message. -/
def signMessage (scheme : Dkim.Scheme) (h : Host m) (s : Dkim.Signer) (path : String) :
    m Outcome := do
  match ← readMessage h path with
  | .error f => return .failed f
  | .ok message => return .done [signatureLine s scheme (← h.timeOfDay) message]

/-- Does what a command asks for, with an engine. -/
def Command.perform (scheme : Dkim.Scheme) (h : Host m) (e : Engine) (c : Config) :
    Command → m Outcome
  | .serve metricsOnExit => return .serving e c metricsOnExit
  | .checkConfig => return .done ["Configuration OK"]
  | .dkimRecord =>
    match signerOf e with
    | .ok s => return .done [recordLine s]
    | .error f => return .failed f
  | .sign path =>
    match signerOf e with
    | .ok s => signMessage scheme h s path
    | .error f => return .failed f

/-- Runs a command. -/
def Command.run (scheme : Dkim.Scheme) (reg : Registry) (r : Dns.Resolver) (h : Host m)
    (config : Option String) (command : Command) : m Outcome := do
  match ← loadConfig h config with
  | .error e => return .failed (.ofError e)
  | .ok c =>
    match ← buildEngine scheme reg r h c with
    | .error e => return .failed (.ofError e)
    | .ok e => command.perform scheme h e c

/-- Does what is asked for. -/
def Invocation.perform (scheme : Dkim.Scheme) (reg : Registry) (r : Dns.Resolver) (h : Host m)
    (environment : Option String) : Invocation → m Outcome
  | .help topic => return .done (topic.lines environment)
  | .version => return .done [versionLine]
  | .run config command => command.run scheme reg r h config

/-- Does what arguments ask for. -/
def perform (scheme : Dkim.Scheme) (reg : Registry) (r : Dns.Resolver) (h : Host m)
    (environment : Option String) (arguments : List String) : m Outcome :=
  match Invocation.ofArguments? environment arguments with
  | some i => i.perform scheme reg r h environment
  | none => return .misused

end

end MailScreen.Cli

import MailScreen.CheckId
import MailScreen.Cli.Outcome
import MailScreen.Serve.Input
import MailScreen.Serve.Server
import Std.Time.DateTime.Timestamp

/-!
# The program

Model of the tasks that `main` and `serve` start.

The outer layer: files, the standard streams, the clocks and chance. It decides nothing; what is to
be done is an `Outcome`, and what is to be written comes from a `Server`. Names are looked up
nowhere, so checks that need a lookup end in a temporary error.
-/

namespace MailScreen.Program

open MailScreen.Serve

/-- The wording of an error of the operating system; its number may come with either sign. -/
def wording : IO.Error → String
  | .noFileOrDirectory _ code details | .permissionDenied _ code details
  | .inappropriateType _ code details | .otherError code details =>
    details.capitalize ++ " (os error " ++ toString (min code (0 - code)) ++ ")"
  | other => toString other

/-- The bytes of a file, or why they cannot be read. -/
def fileBytes (path : String) : IO (Except String (List UInt8)) := do
  match ← (IO.FS.readBinFile path).toBaseIO with
  | .ok bytes => return .ok bytes.toList
  | .error e => return .error (wording e)

/-- Whether there is anything at a path. -/
def fileIsThere (path : String) : IO Bool := do
  match ← (IO.FS.readBinFile path).toBaseIO with
  | .error (.noFileOrDirectory ..) => return false
  | _ => return true

/-- The rest of a stream. -/
partial def drain (s : IO.FS.Stream) (seen : List UInt8) : IO (List UInt8) := do
  let bytes ← s.read 65536
  if bytes.isEmpty then return seen else drain s (seen ++ bytes.toList)

/-- The machine that the program runs on. -/
def host : Cli.Host IO where
  isThere := fileIsThere
  read := fileBytes
  input := do
    match ← (drain (← IO.getStdin) []).toBaseIO with
    | .ok bytes => return .ok bytes
    | .error e => return .error (wording e)
  timeOfDay := do
    return (← Std.Time.Timestamp.now).toSecondsSinceUnixEpoch.val

/-- The present instant, with a new name for a check. -/
def moment : IO Moment := do
  let time ← Std.Time.Timestamp.now
  let random ← IO.getRandomBytes 10
  return {
    now := ← IO.monoNanosNow
    timeOfDay := time.toSecondsSinceUnixEpoch.val
    id := CheckId.text time.toMillisecondsSinceUnixEpoch.val.toNat random.toList }

/-- Writes lines that end already. -/
def writeAll (lines : List String) : IO Unit := do
  let out ← IO.getStdout
  for line in lines do
    out.putStr line
  out.flush

/-- The next line of a stream, with its end; empty if there is none. -/
partial def nextLine (s : IO.FS.Stream) (seen : ByteArray) : IO ByteArray := do
  let byte ← s.read 1
  let seen := seen ++ byte
  if byte.isEmpty || byte.toList == [10] then return seen else nextLine s seen

/-- Answers lines until there are no more; says why, if the end of input is not the reason. -/
partial def answerLines (input : IO.FS.Stream) (s : Server) : IO (Option String × Server) := do
  match ← (nextLine input .empty).toBaseIO with
  | .error e => stop (some (wording e))
  | .ok bytes =>
    if bytes.isEmpty then stop none
    else
      match readLine bytes.toList with
      | .error why => stop (some why)
      | .ok line =>
        let (answers, s) := s.accept (← moment) line
        writeAll answers
        answerLines input s
where
  /-- Ends the serving. -/
  stop (why : Option String) : IO (Option String × Server) := do
    let (answers, s) := s.close why.isSome
    writeAll answers
    return (why, s)

/-- Serves until there is no more input. -/
def serve (e : Engine) (c : Config) (metricsOnExit : Bool) : IO UInt32 := do
  let (why, s) ← answerLines (← IO.getStdin) (.start e c (← IO.monoNanosNow))
  if metricsOnExit then IO.eprint s.state.metrics.expose
  match why with
  | none => return 0
  | some why =>
    IO.eprintln (Cli.Failure.report ⟨why, none⟩)
    return 1

end MailScreen.Program

open MailScreen in
/-- Runs the program. -/
def main (arguments : List String) : IO UInt32 := do
  let environment ← IO.getEnv "MAILGATE_CONFIG"
  -- without a network no policy is found, so domains are never compared and no rule is needed
  let outcome ← Cli.perform .standard (.ofRules []) (.unreachable "no network") Program.host
    environment arguments
  match outcome with
  | .misused =>
    IO.eprintln ("Usage: " ++ Cli.Topic.usage .program)
    IO.eprintln "For more information, try '--help'."
  | .failed f => IO.eprintln f.report
  | .done lines => Program.writeAll (lines.map (· ++ "\n"))
  | .serving e c metricsOnExit => return ← Program.serve e c metricsOnExit
  return outcome.exitCode.toUInt32

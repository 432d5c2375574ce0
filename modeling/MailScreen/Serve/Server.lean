import MailScreen.Engine
import MailScreen.Protocol.CheckLine
import MailScreen.Serve.Pipeline

/-!
# The server

Model of `handle_line`, and of `serve` with its sweepers.

A server answers lines with an engine, and forgets what the engine need not remember any longer.

* `Engine.answer` judges the request on a line.
* `Server.accept` takes a line through the pipeline to its end, and `Server.serve` many lines;
  `accept_of_isReady` says what is written for a line, and that the server is then ready for the
  next one.
* `Server.close` tells it that there are no more lines.
-/

namespace MailScreen

open MailScreen.Protocol

/-- When a line is judged, and the name that its verdict gets. -/
structure Moment where
  /-- By the clock of the engine. -/
  now : Int
  /-- In seconds. -/
  timeOfDay : Int
  id : String
  deriving Repr, DecidableEq

/-- The request on a line, and how it is to be judged. -/
def taskOf (line : String) : Except Error (Request × Mode) := do
  let l ← CheckLine.ofText line
  return (← l.request, if l.legacy then .minimal else .standard)

/-- Answers a line. -/
def Engine.answer (e : Engine) (m : Moment) (line : String) (s : Engine.State) :
    Reply × Engine.State :=
  match taskOf line with
  | .error fault => (.error fault, s)
  | .ok (r, mode) =>
    let (v, s) := e.check m.id mode (e.newContext m.now) r m.timeOfDay (s.resumeAt m.now)
    (.verdict v, s)

namespace Serve

/-- How many jobs may wait for the writer. -/
def maxInFlight : Nat := 64

/-- A server at work. -/
structure Server where
  engine : Engine
  /-- When it was started. -/
  started : Int
  /-- The span from one sweep to the next. -/
  sweepInterval : Nat
  state : Engine.State
  pipeline : Pipeline

namespace Server

/-- A server that has not read anything yet; it sweeps once a second at most. -/
def start (e : Engine) (c : Config) (now : Int) : Server :=
  ⟨e, now, Time.seconds (max c.greylist.sweepInterval 1), .fresh c now, .start⟩

/-- The server after the sweeps before an instant. -/
def sweep (s : Server) (now : Int) : Server :=
  { s with state := s.state.sweep s.started s.sweepInterval now }

/-- Judges a line. -/
def judge (s : Server) (m : Moment) (line : String) : Reply × Server :=
  let s := s.sweep m.now
  let (reply, state) := s.engine.answer m line s.state
  (reply, { s with state })

/-- Lets events happen, and hands over the lines that are written. -/
def drive (s : Server) (events : List Event) : List String × Server :=
  match s.pipeline.run maxInFlight events with
  | none => ([], s)
  | some p => (p.written, { s with pipeline := { p with written := [] } })

/-- Takes a line from its reading to its answer. -/
def accept (s : Server) (m : Moment) (line : String) : List String × Server :=
  if isBlankLine line then s.drive [.read line]
  else
    let (reply, s) := s.judge m line
    s.drive (eventsOf s.pipeline.started line (.reply reply))

/-- Tells the server that there are no more lines, or that the next one cannot be read. -/
def close (s : Server) (fails : Bool) : List String × Server :=
  s.drive [if fails then .failInput else .endInput]

/-- Takes lines one after the other. -/
def serve (s : Server) : List (Moment × String) → List String × Server
  | [] => ([], s)
  | (m, line) :: rest =>
    let (answers, s) := s.accept m line
    let (more, s) := s.serve rest
    (answers ++ more, s)

/-- Whether the server waits for a line and holds nothing back. -/
def isReady (s : Server) : Bool :=
  s.pipeline.isIdle && s.pipeline.written.isEmpty

theorem isReady_start (e : Engine) (c : Config) (now : Int) : (start e c now).isReady := rfl

theorem accept_of_isReady {s : Server} (h : s.isReady) (m : Moment) {line : String}
    (hl : isBlankLine line = false) :
    (s.accept m line).1 = [(s.judge m line).1.toLine ++ "\n"] ∧ (s.accept m line).2.isReady := by
  obtain ⟨idle, silent⟩ := Bool.and_eq_true_iff.1 h
  have idle' : (s.judge m line).2.pipeline.isIdle := idle
  have silent' : (s.judge m line).2.pipeline.written = [] := List.isEmpty_iff.1 silent
  simp only [accept, hl, drive, run_eventsOf idle', silent', Result.toLine, Result.toReply,
    isReady, Bool.false_eq_true, if_false, List.nil_append, List.isEmpty_nil, Bool.and_true,
    true_and]
  exact idle'

end Server

end Serve

end MailScreen

import MailScreen.Protocol.Reply
import MailScreen.Text.Blank

/-!
# The pipeline

Model of `pipeline`, as steps of its reader, its jobs and its writer.

Lines are judged at the same time and answered in order. The reader starts a job for every line
that is not blank, and offers it to a queue of limited length before it reads on. Jobs finish in any
order. The writer takes them from the queue one by one, waits for each, and writes its reply.

* `Pipeline.step` is what an event does; it is `none` if the event cannot happen.
* `Pipeline.run` takes events one after the other; `Pipeline.start` is where it begins.
* `Pipeline.isOver` and `Pipeline.hasFailed` are the two ways in which it comes to an end. It fails
  as soon as reading does, and then does not wait for the writer.
* `eventsOf` is the schedule that takes a line to its end before the next one is read;
  `run_eventsOf` says what it writes.
-/

namespace MailScreen.Serve

open MailScreen.Protocol

/-- What a job came to. -/
inductive Result where
  | reply (r : Reply)
  /-- The job broke off. -/
  | broken (why : String)
  deriving Repr, DecidableEq

/-- The answer to a line: a job that broke off is an error too. -/
def Result.toReply : Result → Reply
  | reply r => r
  | broken why => .error ⟨.internal, "Check task failed: " ++ why⟩

/-- The line that is written. -/
def Result.toLine (r : Result) : String :=
  r.toReply.toLine ++ "\n"

/-- The judging of one line. -/
structure Job where
  /-- Jobs are counted from zero. -/
  number : Nat
  line : String
  /-- None while the job is going on. -/
  result : Option Result
  deriving Repr, DecidableEq

namespace Job

/-- Whether it is the job of a number, and still going on. -/
def awaits (number : Nat) (j : Job) : Bool :=
  j.number == number && j.result.isNone

/-- Gives the job of a number its result. -/
def finish (number : Nat) (r : Result) (j : Job) : Job :=
  if j.awaits number then { j with result := some r } else j

end Job

/-- What the reader is doing. -/
inductive Reader where
  | reading
  /-- Waits for a place in the queue. -/
  | offering (j : Job)
  /-- There was no more input. -/
  | ended
  /-- The input could not be read. -/
  | failed
  deriving Repr, DecidableEq

namespace Reader

/-- The job that the reader holds. -/
def held : Reader → List Job
  | offering j => [j]
  | _ => []

/-- The reader after a job got its result. -/
def finish (number : Nat) (r : Result) : Reader → Reader
  | offering j => .offering (j.finish number r)
  | other => other

end Reader

/-- A pipeline at work. -/
structure Pipeline where
  reader : Reader
  queue : List Job
  /-- The job whose result the writer waits for. -/
  awaited : Option Job
  /-- How many jobs have been started. -/
  started : Nat
  /-- The lines written so far. -/
  written : List String
  deriving Repr, DecidableEq

/-- What can happen. -/
inductive Event where
  | read (line : String)
  | endInput
  | failInput
  /-- A job that the reader holds gets a place in the queue. -/
  | enqueue
  /-- The writer takes a job from the queue. -/
  | dequeue
  | finish (number : Nat) (r : Result)
  /-- The writer writes the reply that it waited for. -/
  | write
  deriving Repr, DecidableEq

/-- Whether a line asks for nothing. -/
def isBlankLine (line : String) : Bool :=
  (Text.trim line.toList).isEmpty

namespace Pipeline

/-- Nothing has been read yet. -/
def start : Pipeline :=
  ⟨.reading, [], none, 0, []⟩

/-- How many jobs the queue holds at most; there is always place for one. -/
def capacity (limit : Nat) : Nat :=
  max limit 1

/-- The jobs that have been started and not answered, oldest first. -/
def inFlight (p : Pipeline) : List Job :=
  p.awaited.toList ++ p.queue ++ p.reader.held

/-- The reader gets a line. -/
def read (p : Pipeline) (line : String) : Pipeline :=
  if isBlankLine line then p
  else { p with reader := .offering ⟨p.started, line, none⟩, started := p.started + 1 }

/-- A job gets its result, wherever it is. -/
def finish (p : Pipeline) (number : Nat) (r : Result) : Pipeline :=
  { p with
    reader := p.reader.finish number r
    queue := p.queue.map (·.finish number r)
    awaited := p.awaited.map (·.finish number r) }

/-- What an event does. -/
def step (limit : Nat) (p : Pipeline) : Event → Option Pipeline
  | .read line => if p.reader = .reading then some (p.read line) else none
  | .endInput => if p.reader = .reading then some { p with reader := .ended } else none
  | .failInput => if p.reader = .reading then some { p with reader := .failed } else none
  | .enqueue =>
    match p.reader with
    | .offering j =>
      if p.queue.length < capacity limit then
        some { p with reader := .reading, queue := p.queue ++ [j] }
      else none
    | _ => none
  | .dequeue =>
    match p.awaited, p.queue with
    | none, j :: queue => some { p with awaited := some j, queue }
    | _, _ => none
  | .finish number r =>
    if p.inFlight.any (·.awaits number) then some (p.finish number r) else none
  | .write =>
    match p.awaited.bind (·.result) with
    | some r => some { p with awaited := none, written := p.written ++ [r.toLine] }
    | none => none

/-- Takes events one after the other. -/
def run (limit : Nat) (events : List Event) (p : Pipeline) : Option Pipeline :=
  events.foldlM (step limit) p

/-- Whether all input has been read and answered. -/
def isOver (p : Pipeline) : Bool :=
  p.reader == .ended && p.queue.isEmpty && p.awaited.isNone

/-- Whether the pipeline has given up as the input could not be read. -/
def hasFailed (p : Pipeline) : Bool :=
  p.reader == .failed

/-- Whether nothing has been begun that is not finished. -/
def isIdle (p : Pipeline) : Bool :=
  p.reader == .reading && p.inFlight.isEmpty

end Pipeline

/-- The events by which a line is read and answered before anything else happens, when jobs are
counted from `number`. -/
def eventsOf (number : Nat) (line : String) (r : Result) : List Event :=
  if isBlankLine line then [.read line]
  else [.read line, .enqueue, .dequeue, .finish number r, .write]

theorem run_eventsOf {limit : Nat} {p : Pipeline} (h : p.isIdle) (line : String) (r : Result) :
    p.run limit (eventsOf p.started line r) =
      some (if isBlankLine line then p
        else { p with started := p.started + 1, written := p.written ++ [r.toLine] }) := by
  obtain ⟨reader, queue, awaited, started, written⟩ := p
  simp only [Pipeline.isIdle, Pipeline.inFlight, Bool.and_eq_true, beq_iff_eq,
    List.isEmpty_iff, List.append_eq_nil_iff, Option.toList_eq_nil_iff] at h
  obtain ⟨rfl, ⟨rfl, rfl⟩, _⟩ := h
  have room : 0 < Pipeline.capacity limit := by unfold Pipeline.capacity; omega
  by_cases blank : isBlankLine line <;>
    simp [eventsOf, blank, Pipeline.run, Pipeline.step, Pipeline.read, Pipeline.inFlight,
      Pipeline.finish, Reader.held, Reader.finish, Job.awaits, Job.finish, room]

end MailScreen.Serve

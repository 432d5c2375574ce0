import MailScreen.Serve.Input
import MailScreen.Serve.Pipeline

/-!
# Schedules

A pipeline takes whatever events come. Here it is at work on an input, whose lines the reader gets
one after the other, and what a job comes to is a judgement of its line. All that is left open then
is who makes the next move: the reader, the writer or one of the jobs.

* `Serving.step` is what a move does; it is `none` if the move cannot be made.
* `Serving.Step` has one rule for each kind of move, and `step_eq_some_iff` says that these are the
  moves that can be made.
* `Serving.run` makes one move after the other; `run_induction` is how to show that something holds
  whatever the schedule.
-/

namespace MailScreen.Serve

/-- What the reader gets when it asks for more, and what is left after that. -/
def Input.next : Input → Event × Input
  | ⟨line :: lines, fault⟩ => (.read line, ⟨lines, fault⟩)
  | ⟨[], none⟩ => (.endInput, ⟨[], none⟩)
  | ⟨[], some why⟩ => (.failInput, ⟨[], some why⟩)

/-- Who makes a move, and which. -/
inductive Move where
  /-- The reader asks for more input. -/
  | read
  | enqueue
  | dequeue
  /-- The job of a number comes to its end. -/
  | finish (number : Nat)
  | write
  deriving Repr, DecidableEq

/-- A pipeline at work on an input. -/
structure Serving where
  /-- What has not been read yet. -/
  input : Input
  pipeline : Pipeline
  deriving Repr, DecidableEq

namespace Serving

/-- Nothing of the input has been read yet. -/
def start (input : Input) : Serving :=
  ⟨input, .start⟩

variable {limit : Nat} {judge : Nat → String → Result}

/-- What a move does. The job of a line, which has a number too, comes to what `judge` says. -/
def step (limit : Nat) (judge : Nat → String → Result) (s : Serving) : Move → Option Serving
  | .read => (s.pipeline.step limit s.input.next.1).map fun pipeline => ⟨s.input.next.2, pipeline⟩
  | .enqueue => (s.pipeline.step limit .enqueue).map fun pipeline => { s with pipeline }
  | .dequeue => (s.pipeline.step limit .dequeue).map fun pipeline => { s with pipeline }
  | .finish number => do
    let j ← s.pipeline.inFlight.find? (·.awaits number)
    let pipeline ← s.pipeline.step limit (.finish number (judge number j.line))
    return { s with pipeline }
  | .write => (s.pipeline.step limit .write).map fun pipeline => { s with pipeline }

/-- Makes one move after the other. -/
def run (limit : Nat) (judge : Nat → String → Result) (moves : List Move) (s : Serving) :
    Option Serving :=
  moves.foldlM (step limit judge) s

/-- **The moves that can be made.** -/
inductive Step (limit : Nat) (judge : Nat → String → Result) : Move → Serving → Serving → Prop where
  | skip {line lines fault queue awaited started written} (blank : isBlankLine line) :
    Step limit judge .read
      ⟨⟨line :: lines, fault⟩, ⟨.reading, queue, awaited, started, written⟩⟩
      ⟨⟨lines, fault⟩, ⟨.reading, queue, awaited, started, written⟩⟩
  | begin {line lines fault queue awaited started written} (blank : isBlankLine line = false) :
    Step limit judge .read
      ⟨⟨line :: lines, fault⟩, ⟨.reading, queue, awaited, started, written⟩⟩
      ⟨⟨lines, fault⟩,
        ⟨.offering ⟨started, line, none⟩, queue, awaited, started + 1, written⟩⟩
  | endInput {queue awaited started written} :
    Step limit judge .read ⟨⟨[], none⟩, ⟨.reading, queue, awaited, started, written⟩⟩
      ⟨⟨[], none⟩, ⟨.ended, queue, awaited, started, written⟩⟩
  | failInput {why queue awaited started written} :
    Step limit judge .read ⟨⟨[], some why⟩, ⟨.reading, queue, awaited, started, written⟩⟩
      ⟨⟨[], some why⟩, ⟨.failed, queue, awaited, started, written⟩⟩
  | enqueue {input j queue awaited started written}
    (room : queue.length < Pipeline.capacity limit) :
    Step limit judge .enqueue ⟨input, ⟨.offering j, queue, awaited, started, written⟩⟩
      ⟨input, ⟨.reading, queue ++ [j], awaited, started, written⟩⟩
  | dequeue {input reader j queue started written} :
    Step limit judge .dequeue ⟨input, ⟨reader, j :: queue, none, started, written⟩⟩
      ⟨input, ⟨reader, queue, some j, started, written⟩⟩
  | finish {input p} {j : Job} (found : p.inFlight.find? (·.awaits j.number) = some j) :
    Step limit judge (.finish j.number) ⟨input, p⟩
      ⟨input, p.finish j.number (judge j.number j.line)⟩
  | write {input reader queue number line r started written} :
    Step limit judge .write
      ⟨input, ⟨reader, queue, some ⟨number, line, some r⟩, started, written⟩⟩
      ⟨input, ⟨reader, queue, none, started, written ++ [r.toLine]⟩⟩

theorem step_of_rule {m : Move} {s s' : Serving} (h : Step limit judge m s s') :
    s.step limit judge m = some s' := by
  cases h with
  | skip blank => simp [step, Input.next, Pipeline.step, Pipeline.read, blank]
  | begin blank => simp [step, Input.next, Pipeline.step, Pipeline.read, blank]
  | endInput => simp [step, Input.next, Pipeline.step]
  | failInput => simp [step, Input.next, Pipeline.step]
  | enqueue room => simp [step, Pipeline.step, room]
  | dequeue => simp [step, Pipeline.step]
  | @finish input p j found =>
    have hany : p.inFlight.any (·.awaits j.number) :=
      List.any_eq_true.mpr ⟨j, List.mem_of_find?_eq_some found, List.find?_some found⟩
    simp [step, found, Pipeline.step, hany]
  | write => simp [step, Pipeline.step]

theorem rule_of_step {m : Move} {s s' : Serving} (h : s.step limit judge m = some s') :
    Step limit judge m s s' := by
  obtain ⟨input, reader, queue, awaited, started, written⟩ := s
  cases m with
  | read =>
    obtain ⟨p, hp, rfl⟩ := Option.map_eq_some_iff.mp h
    obtain ⟨lines, fault⟩ := input
    cases reader with
    | reading =>
      cases lines with
      | cons line lines =>
        obtain rfl := Option.some.inj hp
        unfold Pipeline.read
        split
        · exact .skip ‹_›
        · exact .begin (Bool.eq_false_iff.mpr ‹_›)
      | nil =>
        cases fault with
        | none => obtain rfl := Option.some.inj hp; exact .endInput
        | some why => obtain rfl := Option.some.inj hp; exact .failInput
    | offering | ended | failed =>
      cases lines <;> cases fault <;> cases hp
  | enqueue =>
    obtain ⟨p, hp, rfl⟩ := Option.map_eq_some_iff.mp h
    cases reader with
    | offering j =>
      simp only [Pipeline.step] at hp
      split at hp
      · obtain rfl := Option.some.inj hp
        exact .enqueue ‹_›
      · cases hp
    | reading | ended | failed => cases hp
  | dequeue =>
    obtain ⟨p, hp, rfl⟩ := Option.map_eq_some_iff.mp h
    cases awaited with
    | some j => cases hp
    | none =>
      cases queue with
      | nil => cases hp
      | cons j queue => obtain rfl := Option.some.inj hp; exact .dequeue
  | finish number =>
    obtain ⟨j, found, h⟩ := Option.bind_eq_some_iff.mp h
    obtain ⟨p, hp, h⟩ := Option.bind_eq_some_iff.mp h
    obtain rfl := Option.some.inj h
    have hawaits : j.awaits number = true := List.find?_some found
    obtain rfl : j.number = number := by
      simp only [Job.awaits, Bool.and_eq_true, beq_iff_eq] at hawaits
      exact hawaits.1
    simp only [Pipeline.step] at hp
    split at hp
    · obtain rfl := Option.some.inj hp
      exact .finish found
    · cases hp
  | write =>
    obtain ⟨p, hp, rfl⟩ := Option.map_eq_some_iff.mp h
    cases awaited with
    | none => cases hp
    | some j =>
      obtain ⟨number, line, result⟩ := j
      cases result with
      | none => cases hp
      | some r => obtain rfl := Option.some.inj hp; exact .write

theorem step_eq_some_iff {m : Move} {s s' : Serving} :
    s.step limit judge m = some s' ↔ Step limit judge m s s' :=
  ⟨rule_of_step, step_of_rule⟩

/-- What every move keeps holds at the end of a run. -/
theorem run_induction {P : Serving → Prop}
    (hstep : ∀ m s s', Step limit judge m s s' → P s → P s') {moves : List Move}
    {s s' : Serving} (h : s.run limit judge moves = some s') (hs : P s) : P s' := by
  induction moves generalizing s with
  | nil => exact Option.some.inj h ▸ hs
  | cons m moves ih =>
    obtain ⟨t, ht, h⟩ := Option.bind_eq_some_iff.mp h
    exact ih h (hstep m s t (rule_of_step ht) hs)

end Serving

end MailScreen.Serve

import MailScreen.Decimal.Shortest
import MailScreen.Table
import MailScreen.Time
import MailScreen.Verdict

/-!
# Metrics

Model of `EngineMetrics` (`record_decision`, `record_checker_error`, `export`).

What the engine counts: the verdicts by decision, the checks that could not be done by their name,
and how long verdicts take.

* `recordDecision` and `recordError` count; `decisions` and `errors` give the counts.
* `Metrics.expose` writes all of it for a collector. Counters that have not been used are left out.
-/

namespace MailScreen

/-- Counts by label. -/
abbrev Counter := Table String Nat

namespace Counter

/-- The count of a label. -/
def count (c : Counter) (label : String) : Nat :=
  (c.find? label).getD 0

/-- Counts one more. -/
def increment (c : Counter) (label : String) : Counter :=
  c.put label (c.count label + 1)

/-- The labels that have been used, in order, with their counts. -/
def sorted (c : Counter) : List (String × Nat) :=
  c.entries.mergeSort fun a b => a.1 ≤ b.1

end Counter

/-- How many observations were at most each of some bounds, how many there were, and their sum. -/
structure Histogram where
  within : List (Float × Nat)
  total : Nat
  sum : Float
  deriving Repr

namespace Histogram

/-- No observations yet. -/
def empty (bounds : List Float) : Histogram :=
  ⟨bounds.map (·, 0), 0, 0⟩

/-- One more observation. -/
def observe (h : Histogram) (x : Float) : Histogram :=
  ⟨h.within.map fun (bound, n) => (bound, if x ≤ bound then n + 1 else n), h.total + 1, h.sum + x⟩

end Histogram

/-- What is counted. -/
structure Metrics where
  verdicts : Counter
  failures : Counter
  durations : Histogram
  deriving Repr

namespace Metrics

/-- The bounds for durations, in seconds. -/
def bounds : List Float :=
  [0.001, 0.005, 0.01, 0.05, 0.1, 0.25, 0.5, 1, 2.5, 5, 10]

/-- Nothing counted yet. -/
def fresh : Metrics :=
  ⟨.empty, .empty, .empty bounds⟩

/-- Counts a verdict that took a span. -/
def recordDecision (m : Metrics) (d : Decision) (span : Nat) : Metrics :=
  { m with
    verdicts := m.verdicts.increment d.name
    durations := m.durations.observe (Time.inSeconds span) }

/-- Counts a check that could not be done. -/
def recordError (m : Metrics) (name : String) : Metrics :=
  { m with failures := m.failures.increment name }

/-- How many verdicts had a decision. -/
def decisions (m : Metrics) (d : Decision) : Nat :=
  m.verdicts.count d.name

/-- How many checks of a name could not be done. -/
def errors (m : Metrics) (name : String) : Nat :=
  m.failures.count name

/-! ## Exposition -/

/-- The first two lines of a family. -/
def heading (name help kind : String) : List String :=
  ["# HELP " ++ name ++ " " ++ help, "# TYPE " ++ name ++ " " ++ kind]

/-- The value of a label, in quotes. -/
def labelText (value : String) : String :=
  String.ofList ('"' :: value.toList.flatMap escape ++ ['"'])
where
  /-- Backslashes, quotes and line feeds are escaped. -/
  escape (c : Char) : List Char :=
    if c = '\\' then ['\\', '\\']
    else if c = '"' then ['\\', '"']
    else if c = '\n' then ['\\', 'n']
    else [c]

/-- A sample with one label. -/
def sample (name label value : String) (n : Nat) : String :=
  name ++ "\x7b" ++ label ++ "=" ++ labelText value ++ "\x7d " ++ toString n

/-- The lines of a counter; none if it has not been used. -/
def counterLines (name help label : String) (c : Counter) : List String :=
  if c.isEmpty then []
  else heading name help "counter" ++ c.sorted.map fun (value, n) => sample name label value n

/-- The lines of a histogram. -/
def histogramLines (name help : String) (h : Histogram) : List String :=
  heading name help "histogram" ++
    h.within.map (fun (bound, n) => sample (name ++ "_bucket") "le" (Decimal.write bound) n) ++
    [sample (name ++ "_bucket") "le" "+Inf" h.total, name ++ "_sum " ++ Decimal.write h.sum,
      name ++ "_count " ++ toString h.total]

/-- All lines, families in the order of their names. -/
def lines (m : Metrics) : List String :=
  histogramLines "mailgate_check_duration_seconds" "Time spent in one check" m.durations ++
    counterLines "mailgate_checker_errors_total"
      "Checks that degraded to a temporary or permanent error" "checker" m.failures ++
    counterLines "mailgate_decisions_total" "Decisions by outcome" "decision" m.verdicts

/-- The text for a collector. -/
def expose (m : Metrics) : String :=
  String.join (m.lines.map (· ++ "\n"))

end Metrics

end MailScreen

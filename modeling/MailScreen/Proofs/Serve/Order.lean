import Mathlib
import MailScreen.Proofs.Protocol.OneLine
import MailScreen.Proofs.Serve.Schedule

/-!
# Every line is answered once and in order

Whatever the schedule, what has been written, the replies that are still to come of the jobs in
flight, and those of the lines not yet read are together the replies to the lines of the input, in
their order. No move changes that.

* `replies` is what should be written.
* `Serving.Orderly` is the invariant, `orderly_step` and `orderly_run` carry it on.
* `Serving.work` is how many moves there are still to come at most, `work_lt_of_step` counts them.
* `exists_step`: there is a move to make until all is answered.
* `replies_of_run` is the result for every run on an input that can be read to its end.
-/

namespace MailScreen.Serve

/-! ## Jobs -/

namespace Job

@[simp] theorem number_finish (number : Nat) (r : Result) (j : Job) :
    (j.finish number r).number = j.number := by
  unfold finish
  split <;> rfl

@[simp] theorem line_finish (number : Nat) (r : Result) (j : Job) :
    (j.finish number r).line = j.line := by
  unfold finish
  split <;> rfl

theorem awaits_iff {number : Nat} {j : Job} :
    j.awaits number = true ↔ j.number = number ∧ j.result = none := by
  simp [awaits]

end Job

@[simp] theorem Pipeline.inFlight_finish (p : Pipeline) (number : Nat) (r : Result) :
    (p.finish number r).inFlight = p.inFlight.map (·.finish number r) := by
  obtain ⟨reader, queue, awaited, started, written⟩ := p
  cases awaited <;> cases reader <;> simp [finish, inFlight, Reader.finish, Reader.held]

theorem Pipeline.capacity_of_le {limit : Nat} (h : 1 ≤ limit) : capacity limit = limit :=
  Nat.max_eq_left h

/-- All is over if there is nothing to read and nothing to answer. -/
theorem Pipeline.isOver_iff {p : Pipeline} :
    p.isOver = true ↔ p.reader = .ended ∧ p.inFlight = [] := by
  obtain ⟨reader, queue, awaited, started, written⟩ := p
  cases reader <;> simp [isOver, inFlight, Reader.held, and_comm]

/-- What a reader that has stopped knows of the input: nothing is left of it, and whether the last
line could be read. -/
def Reader.Knows (fault : Option String) (rest : List String) : Reader → Prop
  | reading | offering _ => True
  | ended => rest = [] ∧ fault = none
  | failed => rest = [] ∧ fault ≠ none

theorem Reader.knows_finish {fault : Option String} {rest : List String} {x : Reader}
    (h : x.Knows fault rest) (number : Nat) (r : Result) :
    (x.finish number r).Knows fault rest := by
  cases x <;> exact h

/-! ## What should be written -/

/-- The lines that ask for something. -/
def asked (lines : List String) : List String :=
  lines.filter (!isBlankLine ·)

/-- The replies to lines, when the jobs that begin with them are counted from `number`. -/
def repliesFrom (judge : Nat → String → Result) (number : Nat) (lines : List String) :
    List String :=
  (asked lines).mapIdx fun i line => (judge (number + i) line).toLine

/-- **What should be written** for lines: for each that asks for something, the reply that its job
comes to. -/
def replies (judge : Nat → String → Result) (lines : List String) : List String :=
  (asked lines).mapIdx fun i line => (judge i line).toLine

section
variable {judge : Nat → String → Result} {number : Nat} {line : String} {lines : List String}

theorem repliesFrom_zero : repliesFrom judge 0 lines = replies judge lines := by
  simp only [repliesFrom, replies, Nat.zero_add]

theorem repliesFrom_nil : repliesFrom judge number [] = [] := rfl

theorem asked_of_blank (blank : isBlankLine line) : asked (line :: lines) = asked lines := by
  simp [asked, blank]

theorem asked_of_not_blank (blank : isBlankLine line = false) :
    asked (line :: lines) = line :: asked lines := by
  simp [asked, blank]

theorem repliesFrom_of_blank (blank : isBlankLine line) :
    repliesFrom judge number (line :: lines) = repliesFrom judge number lines := by
  rw [repliesFrom, asked_of_blank blank, repliesFrom]

theorem repliesFrom_of_not_blank (blank : isBlankLine line = false) :
    repliesFrom judge number (line :: lines) =
      (judge number line).toLine :: repliesFrom judge (number + 1) lines := by
  rw [repliesFrom, asked_of_not_blank blank, List.mapIdx_cons]
  simp only [repliesFrom, Nat.add_zero, Nat.add_assoc, Nat.add_comm 1]

end

/-- The line that the reply of a job will be. -/
def Job.reply (judge : Nat → String → Result) (j : Job) : String :=
  (judge j.number j.line).toLine

/-- A reply is a line of its own, with one line feed at its end. -/
theorem Result.exists_toLine (r : Result) :
    ∃ text : List Char, r.toLine.toList = text ++ ['\n'] ∧ '\n' ∉ text :=
  ⟨r.toReply.toLine.toList, String.toList_append, r.toReply.isClean_toLine.newline_not_mem⟩

/-! ## The invariant -/

/-- **The order of replies.** Let jobs in flight, oldest first, come after the lines that have been
written and before the lines of input that are left. -/
structure InOrder (judge : Nat → String → Result) (lines written : List String) (jobs : List Job)
    (started : Nat) (rest : List String) : Prop where
  /-- What has been written, is in flight, and has not been read make up the replies. -/
  replies : written ++ jobs.map (·.reply judge) ++ repliesFrom judge started rest =
    replies judge lines
  /-- Jobs in flight are numbered on from the replies that have been written. -/
  numbers : jobs.map (·.number) = List.range' written.length jobs.length
  started : started = written.length + jobs.length
  results : ∀ j ∈ jobs, ∀ r ∈ j.result, r = judge j.number j.line

namespace InOrder

variable {judge : Nat → String → Result} {line : String} {lines written rest : List String}
  {jobs : List Job} {j : Job} {started number : Nat} {r : Result}

theorem start (judge : Nat → String → Result) (lines : List String) :
    InOrder judge lines [] [] 0 lines :=
  ⟨repliesFrom_zero, rfl, rfl, fun _ hj => absurd hj List.not_mem_nil⟩

theorem skip (h : InOrder judge lines written jobs started (line :: rest))
    (blank : isBlankLine line) : InOrder judge lines written jobs started rest :=
  { h with replies := repliesFrom_of_blank blank ▸ h.replies }

/-- A job that begins will have the reply to its line. -/
theorem begin (h : InOrder judge lines written jobs started (line :: rest))
    (blank : isBlankLine line = false) :
    InOrder judge lines written (jobs ++ [⟨started, line, none⟩]) (started + 1) rest where
  replies := by
    rw [← h.replies, repliesFrom_of_not_blank blank]
    simp [Job.reply]
  numbers := by
    rw [List.map_append, h.numbers, List.length_append, List.length_singleton, List.range'_1_concat,
      ← h.started]
    rfl
  started := by rw [h.started, List.length_append, List.length_singleton, Nat.add_assoc]
  results := by
    refine List.forall_mem_append.mpr ⟨h.results, ?_⟩
    rw [List.forall_mem_singleton]
    exact fun r hr => absurd hr (Option.not_mem_none r)

/-- A job that comes to its end has the reply that it was going to have. -/
theorem finish (h : InOrder judge lines written jobs started rest) (hj : j ∈ jobs) :
    InOrder judge lines written (jobs.map (·.finish j.number (judge j.number j.line))) started
      rest where
  replies := by
    rw [← h.replies, List.map_map]
    simp [Function.comp_def, Job.reply]
  numbers := by
    rw [List.length_map, ← h.numbers, List.map_map]
    simp [Function.comp_def]
  started := by rw [List.length_map, h.started]
  results := by
    have hnodup : (jobs.map (·.number)).Nodup := h.numbers ▸ List.nodup_range' 1
    refine List.forall_mem_map.mpr fun k hk r hr => ?_
    rw [Job.number_finish, Job.line_finish]
    unfold Job.finish at hr
    split at hr
    · -- no two jobs in flight have the same number
      rename_i hawaits
      obtain rfl : k = j := List.inj_on_of_nodup_map hnodup hk hj (Job.awaits_iff.mp hawaits).1
      exact (Option.some.inj hr).symm
    · exact h.results k hk r hr

/-- The oldest job is the one whose reply is written. -/
theorem write (h : InOrder judge lines written (⟨number, line, some r⟩ :: jobs) started rest) :
    InOrder judge lines (written ++ [r.toLine]) jobs started rest where
  replies := by
    obtain rfl : r = judge number line := h.results _ List.mem_cons_self r rfl
    rw [← h.replies]
    simp [Job.reply]
  numbers := by
    have hnumbers := h.numbers
    rw [List.length_cons, List.range'_succ, List.map_cons] at hnumbers
    rw [List.length_append, List.length_singleton]
    exact (List.cons.inj hnumbers).2
  started := by
    rw [h.started, List.length_cons, List.length_append, List.length_singleton]
    omega
  results := (List.forall_mem_cons.mp h.results).2

end InOrder

section
variable {limit : Nat} {judge : Nat → String → Result} {input : Input} {m : Move} {s s' : Serving}

namespace Serving

/-- **A pipeline at work keeps the order**, and what it has in flight has its place. -/
structure Orderly (limit : Nat) (judge : Nat → String → Result) (input : Input) (s : Serving) :
    Prop where
  inOrder : InOrder judge input.lines s.pipeline.written s.pipeline.inFlight s.pipeline.started
    s.input.lines
  room : s.pipeline.queue.length ≤ Pipeline.capacity limit
  fault : s.input.fault = input.fault
  reader : s.pipeline.reader.Knows input.fault s.input.lines

theorem orderly_start (limit : Nat) (judge : Nat → String → Result) (input : Input) :
    Orderly limit judge input (.start input) :=
  ⟨.start judge input.lines, Nat.zero_le _, rfl, trivial⟩

/-- **No move disturbs the order.** -/
theorem orderly_step (h : Step limit judge m s s') (hs : Orderly limit judge input s) :
    Orderly limit judge input s' := by
  obtain ⟨hinOrder, hroom, hfault, hreader⟩ := hs
  cases h with
  | skip blank => exact ⟨hinOrder.skip blank, hroom, hfault, trivial⟩
  | begin blank =>
    refine ⟨?_, hroom, hfault, trivial⟩
    have hbegin := hinOrder.begin blank
    simp only [Pipeline.inFlight, Reader.held, List.append_nil] at hbegin
    exact hbegin
  | endInput => exact ⟨hinOrder, hroom, hfault, rfl, hfault.symm⟩
  | failInput => exact ⟨hinOrder, hroom, hfault, rfl, hfault ▸ Option.some_ne_none _⟩
  | enqueue room =>
    refine ⟨?_, ?_, hfault, trivial⟩
    · simpa [Pipeline.inFlight, Reader.held] using hinOrder
    · rw [List.length_append]
      exact room
  | dequeue => exact ⟨hinOrder, Nat.le_of_succ_le hroom, hfault, hreader⟩
  | @finish input p j found =>
    have hj : j ∈ p.inFlight := List.mem_of_find?_eq_some found
    refine ⟨Pipeline.inFlight_finish p _ _ ▸ hinOrder.finish hj, ?_, hfault,
      Reader.knows_finish hreader _ _⟩
    simpa [Pipeline.finish] using hroom
  | write => exact ⟨hinOrder.write, hroom, hfault, hreader⟩

theorem orderly_run {moves : List Move} (h : run limit judge moves (.start input) = some s) :
    Orderly limit judge input s :=
  run_induction (fun _ _ _ hstep hs => orderly_step hstep hs) h (orderly_start limit judge input)

theorem Orderly.of_ended (hs : Orderly limit judge input s)
    (h : s.pipeline.reader = .ended) : s.input.lines = [] ∧ input.fault = none :=
  show Reader.ended.Knows input.fault s.input.lines from h ▸ hs.reader

theorem Orderly.of_failed (hs : Orderly limit judge input s)
    (h : s.pipeline.reader = .failed) : s.input.lines = [] ∧ input.fault ≠ none :=
  show Reader.failed.Knows input.fault s.input.lines from h ▸ hs.reader

/-- Once all lines have been read, only the replies of the jobs in flight have not been written. -/
theorem Orderly.written_append_inFlight (hs : Orderly limit judge input s)
    (hread : s.input.lines = []) :
    s.pipeline.written ++ s.pipeline.inFlight.map (·.reply judge) = replies judge input.lines := by
  have hreplies := hs.inOrder.replies
  rwa [hread, repliesFrom_nil, List.append_nil] at hreplies

/-- Besides those in the queue, the writer and the reader have a job in flight at most each. -/
theorem Orderly.length_inFlight_le (hs : Orderly limit judge input s) :
    s.pipeline.inFlight.length ≤ Pipeline.capacity limit + 1 + s.pipeline.reader.held.length := by
  have hroom := hs.room
  have hawaited : s.pipeline.awaited.toList.length ≤ 1 := by
    cases s.pipeline.awaited <;> simp
  simp only [Pipeline.inFlight, List.length_append]
  omega

end Serving

/-! ## How long it takes -/

/-- How many moves the job of a line takes, besides its way through the queue. -/
def Job.work (j : Job) : Nat :=
  if j.result.isNone then 2 else 1

/-- How many moves the reader makes, besides those that depend on lines. -/
def Reader.work : Reader → Nat
  | reading => 1
  | offering _ => 3
  | ended | failed => 0

theorem Reader.work_finish (number : Nat) (r : Result) (x : Reader) :
    (x.finish number r).work = x.work := by
  cases x <;> rfl

theorem Job.work_finish_le (number : Nat) (r : Result) (j : Job) :
    (j.finish number r).work ≤ j.work := by
  unfold finish
  split
  · rename_i h
    simp [work, (awaits_iff.mp h).2]
  · exact Nat.le_refl _

theorem Job.work_finish_lt {number : Nat} {r : Result} {j : Job} (h : j.awaits number) :
    (j.finish number r).work < j.work := by
  simp [finish, h, work, (awaits_iff.mp h).2]

namespace Serving

/-- How many moves there are still to come. -/
def work (s : Serving) : Nat :=
  s.input.lines.length + 4 * (asked s.input.lines).length + s.pipeline.reader.work +
    s.pipeline.queue.length + (s.pipeline.inFlight.map Job.work).sum

/-- **Every move is one less to come.** -/
theorem work_lt_of_step (h : Step limit judge m s s') : s'.work < s.work := by
  cases h with
  | skip blank => simp only [work, asked_of_blank blank, List.length_cons]; omega
  | begin blank =>
    simp [work, asked_of_not_blank blank, Reader.work, Pipeline.inFlight, Reader.held, Job.work]
    omega
  | endInput => simp [work, Reader.work, Pipeline.inFlight, Reader.held]
  | failInput => simp [work, Reader.work, Pipeline.inFlight, Reader.held]
  | enqueue room =>
    simp [work, Reader.work, Pipeline.inFlight, Reader.held]
    omega
  | dequeue =>
    simp [work, Pipeline.inFlight]
  | @finish input p j found =>
    have hsum : ((p.inFlight.map (·.finish j.number (judge j.number j.line))).map Job.work).sum <
        (p.inFlight.map Job.work).sum := by
      rw [List.map_map]
      exact List.sum_lt_sum _ _ (fun k _ => k.work_finish_le _ _)
        ⟨j, List.mem_of_find?_eq_some found, Job.work_finish_lt (List.find?_some found)⟩
    simp only [work, Pipeline.inFlight_finish]
    simp only [Pipeline.finish, Reader.work_finish, List.length_map]
    omega
  | write => simp [work, Pipeline.inFlight, Job.work]

/-- No run makes more moves than there are to come. -/
theorem length_add_work_le {moves : List Move} (h : run limit judge moves s = some s') :
    moves.length + s'.work ≤ s.work := by
  induction moves generalizing s with
  | nil =>
    obtain rfl := Option.some.inj h
    exact Nat.le_of_eq (Nat.zero_add _)
  | cons m moves ih =>
    obtain ⟨t, ht, h⟩ := Option.bind_eq_some_iff.mp h
    have hstep : t.work < s.work := work_lt_of_step (rule_of_step ht)
    have hrest : moves.length + s'.work ≤ t.work := ih h
    rw [List.length_cons]
    omega

/-- **Nobody waits for ever**: as long as there is something to read or to answer, there is a move
to make. -/
theorem exists_step (limit : Nat) (judge : Nat → String → Result)
    (h : s.pipeline.reader = .reading ∨ s.pipeline.inFlight ≠ []) :
    ∃ m s', s.step limit judge m = some s' := by
  obtain ⟨⟨lines, fault⟩, reader, queue, awaited, started, written⟩ := s
  match awaited, queue, reader with
  | some ⟨number, line, some r⟩, _, _ => exact ⟨_, _, step_of_rule .write⟩
  | some ⟨number, line, none⟩, _, _ =>
    -- the job that the writer waits for is the first of that number
    have hawaits : Job.awaits number ⟨number, line, none⟩ = true := Job.awaits_iff.mpr ⟨rfl, rfl⟩
    exact ⟨_, _, step_of_rule (.finish (List.find?_cons_of_pos hawaits))⟩
  | none, j :: queue, _ => exact ⟨_, _, step_of_rule .dequeue⟩
  | none, [], .offering j =>
    have room : ([] : List Job).length < Pipeline.capacity limit := by
      simp only [Pipeline.capacity, List.length_nil]
      omega
    exact ⟨_, _, step_of_rule (.enqueue room)⟩
  | none, [], .reading =>
    cases lines with
    | cons line lines =>
      cases blank : isBlankLine line with
      | true => exact ⟨_, _, step_of_rule (.skip blank)⟩
      | false => exact ⟨_, _, step_of_rule (.begin blank)⟩
    | nil =>
      cases fault with
      | none => exact ⟨_, _, step_of_rule .endInput⟩
      | some why => exact ⟨_, _, step_of_rule .failInput⟩
  | none, [], .ended | none, [], .failed =>
    exact absurd h (by simp [Pipeline.inFlight, Reader.held])

/-! ## The whole input -/

/-- **The pipeline answers every line once and in order.** Let the input be readable to its end. At
any moment of any schedule, at most two jobs more than the limit have been started and not answered,
and what has been written is a beginning of the replies to the lines that are not blank, in their
order; when all is over, it is all of them. This comes about: until then there is a move to make,
and no schedule goes on for ever. What is written for a line has one line feed, at its end, whatever
text the reply carries; and a job that breaks off is answered by an internal error. -/
theorem written_of_run (hlimit : 1 ≤ limit) {lines : List String} {moves : List Move}
    (h : run limit judge moves (.start ⟨lines, none⟩) = some s) :
    s.pipeline.started ≤ s.pipeline.written.length + (limit + 2) ∧
      s.pipeline.written <+: replies judge lines ∧
      (s.pipeline.isOver → s.pipeline.written = replies judge lines) ∧
      (s.pipeline.isOver = false → ∃ m s', s.step limit judge m = some s') ∧
      moves.length ≤ lines.length + 4 * (asked lines).length + 1 ∧
      (∀ line ∈ s.pipeline.written, ∃ text, line.toList = text ++ ['\n'] ∧ '\n' ∉ text) ∧
      ∀ why, ∃ e, (Result.broken why).toReply = .error e ∧ e.code = "INTERNAL_ERROR" := by
  have hs : Orderly limit judge ⟨lines, none⟩ s := orderly_run h
  have hnotFailed : s.pipeline.reader ≠ .failed := fun hfailed => (hs.of_failed hfailed).2 rfl
  have hbegins : s.pipeline.written <+: replies judge lines :=
    ⟨_, (List.append_assoc _ _ _).symm.trans hs.inOrder.replies⟩
  refine ⟨?_, hbegins, fun hover => ?_, fun hover => ?_, ?_, ?_, fun why => ⟨_, rfl, rfl⟩⟩
  · have hheld : s.pipeline.reader.held.length ≤ 1 := by
      cases s.pipeline.reader <;> simp [Reader.held]
    have hbound := hs.length_inFlight_le
    have hstarted := hs.inOrder.started
    rw [Pipeline.capacity_of_le hlimit] at hbound
    omega
  · obtain ⟨hended, hnone⟩ := Pipeline.isOver_iff.mp hover
    have hall := hs.written_append_inFlight (hs.of_ended hended).1
    rwa [hnone, List.map_nil, List.append_nil] at hall
  · refine exists_step limit judge ?_
    cases hreader : s.pipeline.reader with
    | reading => exact Or.inl rfl
    | offering j =>
      refine Or.inr fun hnone => ?_
      simp [Pipeline.inFlight, hreader, Reader.held] at hnone
    | ended =>
      refine Or.inr fun hnone => ?_
      rw [Pipeline.isOver_iff.mpr ⟨hreader, hnone⟩] at hover
      cases hover
    | failed => exact absurd hreader hnotFailed
  · have hwork := length_add_work_le h
    have hstart : (start ⟨lines, none⟩).work = lines.length + 4 * (asked lines).length + 1 := rfl
    omega
  · intro line hline
    obtain ⟨i, hi, rfl⟩ := List.mem_mapIdx.mp (hbegins.subset hline)
    exact Result.exists_toLine _

theorem written_of_run_overtaken :
    let judge : Nat → String → Result := fun number line =>
      if number = 1 then .broken "task panicked" else .reply (.error ⟨.validation, line⟩)
    let lines := ["a", " ", "b", "c"]
    let crowded : List Move := [.read, .enqueue, .read, .read, .dequeue, .enqueue, .read]
    let moves : List Move := crowded ++ [.finish 2, .finish 1, .finish 0, .write, .dequeue,
      .enqueue, .write, .dequeue, .write, .read]
    (∃ s, run 1 judge crowded (.start ⟨lines, none⟩) = some s ∧
      s.pipeline.started = 3 ∧ s.pipeline.written = [] ∧
      s.pipeline.started ≤ s.pipeline.written.length + (1 + 2)) ∧
    ∃ s, run 1 judge moves (.start ⟨lines, none⟩) = some s ∧ s.pipeline.isOver = true ∧
      s.pipeline.written = replies judge lines ∧
      replies judge lines =
        ["\x7b\"error\":\"Validation error: a\",\"code\":\"VALIDATION_ERROR\"\x7d\n",
          "\x7b\"error\":\"Internal error: Check task failed: task panicked\"," ++
            "\"code\":\"INTERNAL_ERROR\"\x7d\n",
          "\x7b\"error\":\"Validation error: c\",\"code\":\"VALIDATION_ERROR\"\x7d\n"] := by
  intro judge lines crowded moves
  have hcrowded : run 1 judge crowded (.start ⟨lines, none⟩) = some _ := rfl
  have hmoves : run 1 judge moves (.start ⟨lines, none⟩) = some _ := rfl
  refine ⟨⟨_, hcrowded, rfl, rfl, (written_of_run (Nat.le_refl 1) hcrowded).1⟩, _, hmoves, rfl,
    (written_of_run (Nat.le_refl 1) hmoves).2.2.1 rfl, ?_⟩
  decide +kernel

end Serving

end

end MailScreen.Serve

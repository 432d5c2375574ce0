import MailScreen.Proofs.Serve.Order
import MailScreen.Serve.Server

/-!
# Input that cannot be read to its end

When a line cannot be read, the pipeline has failed, whatever its jobs and its writer are doing. All
lines before that one have been read and their jobs begun. The order of replies is kept, but nobody
waits for those that have not been written.

* `written_of_hasFailed` says which replies are missing at that moment: those of the jobs in flight.
* `not_written_of_hasFailed`: such jobs there can be, even if only one line has been read.
* `exists_run_hasFailed`: there can be such jobs as long as a reply is owed.
-/

namespace MailScreen.Serve.Serving

/-- **When the pipeline fails, the replies of the jobs in flight are missing, and no others.** Let
the input be unreadable after some lines. At a moment at which the pipeline has failed, all these
lines have been read; what has been written is a beginning of their replies, once each and in order;
the rest are the replies of the jobs in flight, of which there is at most one more than the queue
can hold. So all replies have been written if and only if nothing is in flight. -/
theorem written_of_hasFailed {limit : Nat} {judge : Nat → String → Result} {lines : List String}
    {why : String} {moves : List Move} {s : Serving}
    (h : run limit judge moves (.start ⟨lines, some why⟩) = some s)
    (hfailed : s.pipeline.hasFailed) :
    s.input.lines = [] ∧
      s.pipeline.written ++ s.pipeline.inFlight.map (·.reply judge) = replies judge lines ∧
      s.pipeline.inFlight.length ≤ Pipeline.capacity limit + 1 ∧
      (s.pipeline.written = replies judge lines ↔ s.pipeline.inFlight = []) := by
  have hs : Orderly limit judge ⟨lines, some why⟩ s := orderly_run h
  have hreader : s.pipeline.reader = .failed := beq_iff_eq.mp hfailed
  have hread : s.input.lines = [] := (hs.of_failed hreader).1
  have hall : s.pipeline.written ++ s.pipeline.inFlight.map (·.reply judge) =
      replies judge lines := hs.written_append_inFlight hread
  refine ⟨hread, hall, ?_, ?_⟩
  · have hbound := hs.length_inFlight_le
    rwa [hreader] at hbound
  · rw [← hall, List.self_eq_append_right, List.map_eq_nil_iff]

theorem written_of_hasFailed_second :
    let judge : Nat → String → Result := fun _ line => .reply (.error ⟨.validation, line⟩)
    let lines := ["a", "", "b"]
    let moves : List Move := [.read, .enqueue, .read, .dequeue, .read, .finish 1, .finish 0,
      .enqueue, .write, .read]
    ∃ s, run 1 judge moves (.start ⟨lines, some "broken pipe"⟩) = some s ∧
      s.pipeline.hasFailed = true ∧ s.pipeline.inFlight.map (·.line) = ["b"] ∧
      s.pipeline.written ++ s.pipeline.inFlight.map (·.reply judge) = replies judge lines ∧
      s.pipeline.written ≠ replies judge lines := by
  intro judge lines moves
  have hrun : run 1 judge moves (.start ⟨lines, some "broken pipe"⟩) = some _ := rfl
  obtain ⟨-, hall, -, hiff⟩ := written_of_hasFailed hrun rfl
  exact ⟨_, hrun, rfl, rfl, hall, fun h => absurd (hiff.mp h) (List.cons_ne_nil _ _)⟩

/-- With two lines of input, of which the second cannot be read, the pipeline can fail before
anything has been written: the reader asks for the second line as soon as the first one's job is in
the queue. -/
theorem not_written_of_hasFailed :
    let input := Input.ofBytes [0x78, 0x0a, 0xff, 0x0a]
    input = ⟨["x"], some "stream did not contain valid UTF-8"⟩ ∧
      ∀ judge, replies judge input.lines = [(judge 0 "x").toLine] ∧
        ∃ s, run maxInFlight judge [.read, .enqueue, .read] (.start input) = some s ∧
          s.pipeline.hasFailed = true ∧ s.pipeline.written = [] := by
  intro input
  have hinput : input = ⟨["x"], some "stream did not contain valid UTF-8"⟩ := by decide +kernel
  rw [hinput]
  exact ⟨rfl, fun judge => ⟨rfl, _, rfl, rfl, rfl⟩⟩

/-- **A reply that is owed can be lost.** Let the input be unreadable after some lines. As long as a
job is in flight, or a line to come asks for something, there is a way to go on that ends with the
pipeline failed and a job in flight. -/
theorem exists_run_hasFailed {limit : Nat} {judge : Nat → String → Result} {lines : List String}
    {why : String} {s : Serving} (hs : Orderly limit judge ⟨lines, some why⟩ s)
    (howed : s.pipeline.inFlight ≠ [] ∨ asked s.input.lines ≠ []) :
    ∃ moves s', run limit judge moves s = some s' ∧ s'.pipeline.hasFailed = true ∧
      s'.pipeline.inFlight ≠ [] := by
  induction hn : s.work using Nat.strong_induction_on generalizing s with
  | _ n ih =>
    -- after a move that leaves something owed, the rest of the way exists
    have hgoOn : ∀ {m s'}, Step limit judge m s s' →
        (s'.pipeline.inFlight ≠ [] ∨ asked s'.input.lines ≠ []) →
        ∃ moves s', run limit judge moves s = some s' ∧ s'.pipeline.hasFailed = true ∧
          s'.pipeline.inFlight ≠ [] := by
      intro m s' hstep howed'
      obtain ⟨moves, t, hrun, hend⟩ :=
        ih s'.work (hn ▸ work_lt_of_step hstep) (orderly_step hstep hs) howed' rfl
      refine ⟨m :: moves, t, ?_, hend⟩
      exact Option.bind_eq_some_iff.mpr ⟨s', step_of_rule hstep, hrun⟩
    have hfault := hs.fault
    have hreader := hs.reader
    obtain ⟨⟨rest, fault⟩, reader, queue, awaited, started, written⟩ := s
    cases reader with
    | ended => exact absurd hreader.2 (Option.some_ne_none why)
    | failed =>
      have hrest : rest = [] := hreader.1
      subst hrest
      exact ⟨[], _, rfl, rfl, howed.resolve_right (not_not.mpr rfl)⟩
    | reading =>
      cases rest with
      | nil =>
        obtain rfl : fault = some why := hfault
        exact hgoOn .failInput (Or.inl (howed.resolve_right (not_not.mpr rfl)))
      | cons line rest =>
        cases blank : isBlankLine line with
        | true => exact hgoOn (.skip blank) (by rwa [asked_of_blank blank] at howed)
        | false => exact hgoOn (.begin blank) (by simp [Pipeline.inFlight, Reader.held])
    | offering j =>
      -- the reader holds a job, so that any other may be answered
      by_cases room : queue.length < Pipeline.capacity limit
      · exact hgoOn (.enqueue room) (by simp [Pipeline.inFlight])
      · cases queue with
        | nil => exact absurd (by simp [Pipeline.capacity]) room
        | cons k queue =>
          cases awaited with
          | none => exact hgoOn .dequeue (by simp [Pipeline.inFlight])
          | some i =>
            obtain ⟨number, line, result⟩ := i
            cases result with
            | some r => exact hgoOn .write (by simp [Pipeline.inFlight])
            | none =>
              have hawaits : Job.awaits number ⟨number, line, none⟩ = true :=
                Job.awaits_iff.mpr ⟨rfl, rfl⟩
              refine hgoOn (.finish (List.find?_cons_of_pos hawaits)) (Or.inl ?_)
              rw [Pipeline.inFlight_finish]
              simp [Pipeline.inFlight]

end MailScreen.Serve.Serving

import MailScreen.Text.Split
import MailScreen.Text.Utf8

/-!
# Lines of input

Input is bytes. A line ends with a line feed, before which a carriage return may stand; the last
line need not end. A line that is not UTF-8 cannot be read, and nothing after it is.

* `readLine` reads one line, with its end if it has one.
* `Input.ofBytes` reads all lines.
-/

namespace MailScreen.Serve

open MailScreen.Text

/-- A line without its end. -/
def withoutEnd (line : List UInt8) : List UInt8 :=
  if line.getLast? = some 10 then dropFinal 13 line.dropLast else line

/-- Reads one line. -/
def readLine (line : List UInt8) : Except String String :=
  Utf8.decode (withoutEnd line)

/-- The lines of some bytes, with their ends. -/
def cutLines (bytes : List UInt8) : List (List UInt8) :=
  match (pieces (· == 10) bytes).reverse with
  | [] => []
  | last :: earlier =>
    (earlier.reverse.map (· ++ [10])) ++ if last.isEmpty then [] else [last]

/-- What can be read of an input. -/
structure Input where
  lines : List String
  /-- Why nothing can be read after these lines, if it is not the end of the input. -/
  fault : Option String
  deriving Repr, DecidableEq

namespace Input

/-- The lines up to the first that cannot be read. -/
def ofLines : List (List UInt8) → Input
  | [] => ⟨[], none⟩
  | bytes :: rest =>
    match readLine bytes with
    | .error fault => ⟨[], some fault⟩
    | .ok line =>
      let input := ofLines rest
      { input with lines := line :: input.lines }

/-- What can be read of bytes. -/
def ofBytes (bytes : List UInt8) : Input :=
  ofLines (cutLines bytes)

end Input

theorem flatten_cutLines (bytes : List UInt8) : (cutLines bytes).flatten = bytes := by
  have key : ∀ bs : List UInt8, ∃ earlier last, pieces (· == 10) bs = earlier ++ [last] ∧
      (earlier.map (· ++ [10])).flatten ++ last = bs := by
    intro bs
    induction bs with
    | nil => exact ⟨[], [], rfl, rfl⟩
    | cons b bs ih =>
      obtain ⟨earlier, last, hp, hb⟩ := ih
      simp only [pieces]
      split
      · rename_i h
        have h : b = 10 := by simpa using h
        exact ⟨[] :: earlier, last, by simp [hp], by simp [← hb, h]⟩
      · cases earlier with
        | nil => exact ⟨[], b :: last, by simp [hp], by simp [← hb]⟩
        | cons run runs => exact ⟨(b :: run) :: runs, last, by simp [hp], by simp [← hb]⟩
  obtain ⟨earlier, last, hp, hb⟩ := key bytes
  rw [cutLines, hp]
  by_cases h : last = [] <;> simp_all

end MailScreen.Serve

import MailScreen.Text.Hex

/-!
# Names of checks

Model of the `id` of a `CheckResult`.

Each verdict has a name of its own: 128 bits that begin with the time of day, so that names sort by
age, and are random after that. `CheckId.text` writes one in five groups of hexadecimal digits.
-/

namespace MailScreen.CheckId

/-- The time in milliseconds, in six bytes. -/
def timeBytes (millis : Nat) : List UInt8 :=
  [40, 32, 24, 16, 8, 0].map fun shift => UInt8.ofNat (millis >>> shift)

/-- A byte whose upper half says which layout the name has: the seventh. -/
def markVersion (b : UInt8) : UInt8 :=
  (b &&& 0x0F) ||| 0x70

/-- A byte whose two upper bits say which family of layouts is meant. -/
def markVariant (b : UInt8) : UInt8 :=
  (b &&& 0x3F) ||| 0x80

/-- The bytes of a name; ten random bytes are used, and missing ones are zero. -/
def bytes (millis : Nat) (random : List UInt8) : List UInt8 :=
  let random := (random ++ List.replicate 10 0).take 10
  timeBytes millis ++ (random.modify 0 markVersion).modify 2 markVariant

/-- The bytes in groups of four, two, two, two and six. -/
def grouped (bytes : List UInt8) : List (List UInt8) :=
  [bytes.take 4, (bytes.drop 4).take 2, (bytes.drop 6).take 2, (bytes.drop 8).take 2,
    bytes.drop 10]

/-- The text of a name. -/
def text (millis : Nat) (random : List UInt8) : String :=
  "-".intercalate ((grouped (bytes millis random)).map Text.Hex.encode)

theorem bytes_length (millis : Nat) (random : List UInt8) : (bytes millis random).length = 16 := by
  simp [bytes, timeBytes]

end MailScreen.CheckId

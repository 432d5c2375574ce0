/-!
# Errors

Model of `Error` (`code`, `is_config` and its texts).

Only what is wrong before a check begins is an error: a configuration, a key or a request that
cannot be used. What goes wrong during a check goes into its result.

* `Error.code` is the word for the kind of error, `Error.message` the full text.
-/

namespace MailScreen

/-- What an error is about. -/
inductive ErrorKind where
  | configuration
  | key
  | validation
  | internal
  deriving Repr, DecidableEq

/-- An error and what is to be said about it. -/
structure Error where
  kind : ErrorKind
  text : String
  deriving Repr, DecidableEq

namespace Error

/-- The word for the kind of error. -/
def code (e : Error) : String :=
  match e.kind with
  | .configuration => "CONFIG_ERROR"
  | .key => "KEY_ERROR"
  | .validation => "VALIDATION_ERROR"
  | .internal => "INTERNAL_ERROR"

/-- The kind in words. -/
def label (e : Error) : String :=
  match e.kind with
  | .configuration => "Configuration error"
  | .key => "Key error"
  | .validation => "Validation error"
  | .internal => "Internal error"

/-- The full text. -/
def message (e : Error) : String :=
  e.label ++ ": " ++ e.text

/-- Whether the operator has to mend it. -/
def isConfiguration (e : Error) : Bool :=
  e.kind == .configuration || e.kind == .key

end Error

end MailScreen

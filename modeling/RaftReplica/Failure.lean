/-!
# Failures

Every error type of the library says what kind of error a value is, in one word for programs, and
what went wrong, in a sentence for people.
-/

namespace RaftReplica

/-- A type of errors. -/
class Failure (ε : Type) where
  /-- The kind of the error, in one word. -/
  kind : ε → String
  message : ε → String

/-- The kind of the errors that stand for a number or duration without room for it, which nobody
handles. -/
def overflowKind : String := "Overflow"

end RaftReplica

import RaftReplica.Failure
import RaftReplica.Text.Percent
import RaftReplica.Text.Utf8

/-!
# Call statuses

A call that a remote refuses ends in a status: a small number with a fixed meaning and a text.
-/

namespace RaftReplica

/-- Why a call was refused. -/
structure Status where
  code : Nat
  message : String
deriving DecidableEq, Repr

namespace Status

/-- The meaning of a status number. -/
def codeName : Nat → String
  | 0 => "Ok"
  | 1 => "Cancelled"
  | 2 => "Unknown"
  | 3 => "InvalidArgument"
  | 4 => "DeadlineExceeded"
  | 5 => "NotFound"
  | 6 => "AlreadyExists"
  | 7 => "PermissionDenied"
  | 8 => "ResourceExhausted"
  | 9 => "FailedPrecondition"
  | 10 => "Aborted"
  | 11 => "OutOfRange"
  | 12 => "Unimplemented"
  | 13 => "Internal"
  | 14 => "Unavailable"
  | 15 => "DataLoss"
  | 16 => "Unauthenticated"
  | _ => "Unknown"

/-- The number for a call that cannot be answered now. -/
def unavailableCode : Nat := 14

def unavailable (message : String) : Status := ⟨unavailableCode, message⟩

instance : Failure Status := ⟨fun _ => "Status", message⟩

/-- The number for a failure of no known kind. -/
def unknownCode : Nat := 2

/-- The number for a failure of the calling machinery itself. -/
def internalCode : Nat := 13

/-- What is said of a text that does not arrive as UTF-8. -/
def garbled (flaw : Text.Utf8.Flaw) : String :=
  s!"Error deserializing status message header: {flaw.message}"

/-- A refusal as its caller sees it. Its text travels percent encoded, but percent signs of its own
are not encoded, so that they are read as code too. A number without a meaning reads as an unknown
one; a refusal that calls itself a success lacks the reply of one. -/
def received (status : Status) : Status :=
  let bytes := Text.Percent.decode (Bytes.ofText status.message)
  match Text.Utf8.flaw? bytes with
  | some flaw => ⟨unknownCode, garbled flaw⟩
  | none =>
    if status.code = 0 then ⟨internalCode, "Missing response message."⟩
    else
      ⟨if 16 < status.code then unknownCode else status.code,
        bytes.text?.getD status.message⟩

end Status

end RaftReplica

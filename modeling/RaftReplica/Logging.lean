import RaftReplica.Failure
import RaftReplica.Text.Quoted

/-!
# Logging

The levels of log records, their names, and the line that a record becomes. A logger drops what is
below its level; the finest level is never written.
-/

namespace RaftReplica.Logging

/-- How much a record matters, the most first. -/
inductive Level where
  | critical
  | error
  | warning
  | info
  | debug
  | trace
deriving DecidableEq, Repr

/-- The name that is no level's. -/
structure UnknownLevel where
  name : String
deriving DecidableEq, Repr

def UnknownLevel.message (e : UnknownLevel) : String :=
  s!"unknown log level {Text.quote e.name}"

instance : Failure UnknownLevel := ⟨fun _ => "UnknownLogLevel", UnknownLevel.message⟩

namespace Level

def rank : Level → Nat
  | critical => 0
  | error => 1
  | warning => 2
  | info => 3
  | debug => 4
  | trace => 5

def name : Level → String
  | critical => "CRITICAL"
  | error => "ERROR"
  | warning => "WARNING"
  | info => "INFO"
  | debug => "DEBUG"
  | trace => "TRACE"

/-- The four letters at the head of a line. -/
def tag : Level → String
  | critical => "CRIT"
  | error => "ERRO"
  | warning => "WARN"
  | info => "INFO"
  | debug => "DEBG"
  | trace => "TRCE"

/-- An ASCII letter in lower case; all other characters stay. -/
def lowerAscii (c : Char) : Char :=
  if 'A' ≤ c ∧ c ≤ 'Z' then Char.ofNat (c.toNat + 32) else c

/-- Reads a level's name in any case, with the short forms that are usual. -/
def parse (name : String) : Except UnknownLevel Level :=
  match String.ofList (name.toList.map lowerAscii) with
  | "trace" => .ok .trace
  | "debug" => .ok .debug
  | "info" => .ok .info
  | "warn" | "warning" => .ok .warning
  | "error" => .ok .error
  | "crit" | "critical" => .ok .critical
  | _ => .error ⟨name⟩

end Level

/-- A record with the term it was made in, if it names one. -/
structure Record where
  level : Level
  message : String
  term : Option Nat

/-- A logger with its level and, if it belongs to a replica, that replica's name. -/
structure Logger where
  level : Level
  replica : Option String

/-- What is written of a record after its level: the message, unless it is empty, and then the
record's and the logger's values. -/
def Logger.text (logger : Logger) (record : Record) : String :=
  let message := if record.message = "" then [] else [record.message]
  let term := match record.term with
    | some term => [s!"term: {term}"]
    | none => []
  let replica := match logger.replica with
    | some replica => [s!"replica: {replica}"]
    | none => []
  ", ".intercalate (message ++ term ++ replica)

/-- Whether a record is written. -/
def Logger.accepts (logger : Logger) (record : Record) : Bool :=
  record.level.rank ≤ logger.level.rank && record.level ≠ .trace

/-- The level tags and texts of the records that are written. -/
def Logger.write (logger : Logger) (records : List Record) : List (String × String) :=
  (records.filter logger.accepts).map fun record => (record.level.tag, logger.text record)

end RaftReplica.Logging

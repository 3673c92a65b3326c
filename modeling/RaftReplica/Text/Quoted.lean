import RaftReplica.Number.Radix
import RaftReplica.Text.Invisible

/-!
# Quoted text

Names in error messages are quoted: in double quotes, with a backslash before a quote or a backslash,
letters for the common controls, and the number of any other character that cannot be shown for
itself.
-/

namespace RaftReplica.Text

/-- A character as it stands between the quotes. -/
def escape (c : Char) : List Char :=
  if c = '"' then ['\\', '"']
  else if c = '\\' then ['\\', '\\']
  else if c = '\n' then ['\\', 'n']
  else if c = '\r' then ['\\', 'r']
  else if c = '\t' then ['\\', 't']
  else if c = '\x00' then ['\\', '0']
  else if isVisible c then [c]
  else ['\\', 'u', '\x7b'] ++ Radix.digits c.toNat ++ ['\x7d']

/-- The text in quotes. -/
def quote (text : String) : String :=
  String.ofList ('"' :: text.toList.flatMap escape ++ ['"'])

/-- A quoted text that may be missing. -/
def quoteOption : Option String → String
  | none => "None"
  | some text => s!"Some({quote text})"

end RaftReplica.Text

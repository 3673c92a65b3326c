import RaftReplica.Bytes
import RaftReplica.Number.Word

/-!
# Addresses

An address is dialled as an absolute URI: with the scheme it names itself, or else with the one for
plain or for secured connections. Reading it follows the generic URI syntax as far as a dialler needs
it: the scheme, the authority with its user part, brackets and port, and the characters of path and
query. A text that starts with a slash is a path and names no host.
-/

namespace RaftReplica.Address

/-- Why a text is no address. -/
inductive AddressError where
  | invalidCharacter
  | invalidAuthority
  | invalidFormat
  | schemeTooLong
  | tooLong
  | empty
deriving DecidableEq, Repr

def AddressError.message : AddressError → String
  | invalidCharacter => "invalid uri character"
  | invalidAuthority => "invalid authority"
  | invalidFormat => "invalid format"
  | schemeTooLong => "scheme too long"
  | tooLong => "uri too long"
  | empty => "empty string"

/-- What an address turned out to be. -/
inductive Target where
  /-- A host with its port and the rest. -/
  | host
  /-- A path on no host. -/
  | path
deriving DecidableEq, Repr

def byte (c : Char) : UInt8 := c.toNat.toUInt8

def isLetter (b : UInt8) : Bool :=
  (byte 'a' ≤ b && b ≤ byte 'z') || (byte 'A' ≤ b && b ≤ byte 'Z')

def isDigit (b : UInt8) : Bool := byte '0' ≤ b && b ≤ byte '9'

def isOneOf (characters : String) (b : UInt8) : Bool :=
  (Bytes.ofText characters).contains b

def lower (b : UInt8) : UInt8 := if byte 'A' ≤ b && b ≤ byte 'Z' then b + 32 else b

/-- The longest text that is read at all. -/
def maxLength : Nat := 2 ^ 16 - 2

def maxSchemeLength : Nat := 64

/-- The most colons that an authority may show in a row of them. -/
def maxColons : Nat := 8

/-- The two schemes that are known by name. -/
def knownSchemes : List Bytes := [Bytes.ofText "http://", Bytes.ofText "https://"]

def isSchemeCharacter (b : UInt8) : Bool := isLetter b || isDigit b || isOneOf "+-.~" b

/-- What follows the scheme, or `none` if the text starts with none. -/
def afterScheme (text : Bytes) : Except AddressError (Option Bytes) :=
  match knownSchemes.find? fun scheme => (text.take scheme.length).map lower == scheme with
  | some scheme => .ok (some (text.drop scheme.length))
  | none =>
    let scheme := text.takeWhile isSchemeCharacter
    let rest := text.drop scheme.length
    if text.length ≤ 3 || !(Bytes.ofText "://").isPrefixOf rest then .ok none
    else if maxSchemeLength < scheme.length then .error .schemeTooLong
    else .ok (some (rest.drop 3))

/-- A character that may stand in an authority for itself. -/
def isAuthorityCharacter (b : UInt8) : Bool :=
  isLetter b || isDigit b || isOneOf "!$&'()*+,-.;=_~" b

/-- What is known of an authority while its bytes are read. -/
structure AuthorityScan where
  /-- Colons since the last bracket or user part. -/
  colons : Nat
  opened : Bool
  closed : Bool
  /-- A percent sign since the last bracket or user part. -/
  percent : Bool
  /-- Whether the last byte ended the user part. -/
  bareUser : Bool

namespace AuthorityScan

def initial : AuthorityScan := ⟨0, false, false, false, false⟩

def read (scan : AuthorityScan) (b : UInt8) : Except AddressError AuthorityScan :=
  let scan := { scan with bareUser := false }
  if b = byte ':' then
    if maxColons ≤ scan.colons then .error .invalidAuthority
    else .ok { scan with colons := scan.colons + 1 }
  else if b = byte '[' then
    if scan.percent || scan.opened then .error .invalidAuthority
    else .ok { scan with opened := true }
  else if b = byte ']' then
    if !scan.opened || scan.closed then .error .invalidAuthority
    else .ok { scan with closed := true, colons := 0, percent := false }
  else if b = byte '@' then .ok { scan with colons := 0, percent := false, bareUser := true }
  else if b = byte '%' then .ok { scan with percent := true }
  else if isAuthorityCharacter b then .ok scan
  else .error .invalidCharacter

/-- Whether what was read makes an authority. -/
def isComplete (scan : AuthorityScan) : Bool :=
  scan.opened == scan.closed && scan.colons ≤ 1 && !scan.bareUser && !scan.percent

end AuthorityScan

/-- Splits the authority off the front, up to a slash, a question mark or a hash sign. -/
def splitAuthority (text : Bytes) : Except AddressError (Bytes × Bytes) := do
  let authority := text.takeWhile fun b => !isOneOf "/?#" b
  let scan ← authority.foldlM AuthorityScan.read AuthorityScan.initial
  if scan.isComplete then .ok (authority, text.drop authority.length)
  else .error .invalidAuthority

/-- A character that may stand in a path. -/
def isPathCharacter (b : UInt8) : Bool :=
  isLetter b || isDigit b || isOneOf "!$%&'()*+,-./:;=@[\\]^_|~\"\x7b\x7d" b

/-- A character that may stand in a query. -/
def isQueryCharacter (b : UInt8) : Bool :=
  b = 0x21 || (0x24 ≤ b && b ≤ 0x3B) || b = 0x3D || (0x3F ≤ b && b ≤ 0x7E)

/-- Checks the characters of a path and of the query behind it; a fragment is not looked at. -/
def checkPath (text : Bytes) : Except AddressError Unit :=
  let isEnd (b : UInt8) : Bool := b = byte '?' || b = byte '#'
  let path := text.takeWhile fun b => !isEnd b
  let rest := text.drop path.length
  let query := match rest with
    | b :: tail => if b = byte '?' then tail.takeWhile fun b => b != byte '#' else []
    | [] => []
  if path.all isPathCharacter && query.all isQueryCharacter then .ok ()
  else .error .invalidCharacter

/-- Reads a text as an absolute URI, a bare authority or a path. -/
def parse (text : Bytes) : Except AddressError Target := do
  if maxLength < text.length then .error .tooLong
  else
    match text with
    | [] => .error .empty
    | first :: _ =>
      if first = byte '/' then
        checkPath text
        return .path
      else
        match ← afterScheme text with
        | none =>
          let (_, rest) ← splitAuthority text
          if rest.isEmpty then return .host else .error .invalidFormat
        | some text =>
          let (authority, rest) ← splitAuthority text
          if authority.isEmpty then .error .invalidFormat
          else
            checkPath rest
            return .host

/-- Whether a text names a scheme somewhere. -/
def namesScheme : List Char → Bool
  | [] => false
  | c :: rest => (['/', '/'].isPrefixOf rest && c == ':') || namesScheme rest

/-- What is dialled for an address: the text itself if it names a scheme, else the text behind the
scheme for secured or for plain connections. -/
def dialUri (address : String) (secure : Bool) : String :=
  if namesScheme address.toList then address
  else if secure then "https://" ++ address
  else "http://" ++ address

end RaftReplica.Address

import RaftReplica.Message
import RaftReplica.Wire.Record

/-!
# The wire form of messages

Each message is the records of its fields in order, those that hold their default left out. A reader
starts from the default message and lets every record change its field: of a repeated field the last
one counts, entries pile up, fields it does not know are passed over, and a known field in a form
that is not its own is an error.
-/

namespace RaftReplica.Wire

/-- How deep groups may nest in a message that is read. -/
def maxDepth : Nat := 100

def numberField (field n : Nat) : List Record :=
  if n = 0 then [] else [⟨field, .varint n⟩]

def flagField (field : Nat) (flag : Bool) : List Record :=
  if flag then [⟨field, .varint 1⟩] else []

def bytesField (field : Nat) (bytes : Bytes) : List Record :=
  if bytes = [] then [] else [⟨field, .delimited bytes⟩]

def textField (field : Nat) (text : String) : List Record :=
  bytesField field (Bytes.ofText text)

end RaftReplica.Wire

namespace RaftReplica

open Wire

namespace LogEntry

def toRecords (entry : LogEntry) : List Record :=
  numberField 1 entry.index ++ numberField 2 entry.term ++ bytesField 3 entry.data

def merge (entry : LogEntry) (record : Record) : Option LogEntry :=
  match record.field, record.payload with
  | 1, .varint n => some { entry with index := n }
  | 2, .varint n => some { entry with term := n }
  | 3, .delimited bytes => some { entry with data := bytes }
  | 1, _ | 2, _ | 3, _ => none
  | _, _ => some entry

def ofRecords (records : List Record) : Option LogEntry :=
  records.foldlM merge default

def encode (entry : LogEntry) : Bytes := Record.encodeAll entry.toRecords

/-- Reads an entry; one inside a request counts as a level of depth. -/
def decode (depth : Nat) (bytes : Bytes) : Option LogEntry :=
  Record.decodeAll depth bytes >>= ofRecords

end LogEntry

namespace VoteRequest

def toRecords (request : VoteRequest) : List Record :=
  numberField 1 request.term ++ textField 2 request.candidate ++
    numberField 3 request.lastLogIndex ++ numberField 4 request.lastLogTerm

def merge (request : VoteRequest) (record : Record) : Option VoteRequest :=
  match record.field, record.payload with
  | 1, .varint n => some { request with term := n }
  | 2, .delimited bytes => bytes.text?.map fun text => { request with candidate := text }
  | 3, .varint n => some { request with lastLogIndex := n }
  | 4, .varint n => some { request with lastLogTerm := n }
  | 1, _ | 2, _ | 3, _ | 4, _ => none
  | _, _ => some request

def ofRecords (records : List Record) : Option VoteRequest :=
  records.foldlM merge default

def encode (request : VoteRequest) : Bytes := Record.encodeAll request.toRecords

def decode (bytes : Bytes) : Option VoteRequest := Record.decodeAll maxDepth bytes >>= ofRecords

end VoteRequest

namespace VoteReply

def toRecords (reply : VoteReply) : List Record :=
  textField 1 reply.remote ++ numberField 2 reply.term ++ flagField 3 reply.granted

def merge (reply : VoteReply) (record : Record) : Option VoteReply :=
  match record.field, record.payload with
  | 1, .delimited bytes => bytes.text?.map fun text => { reply with remote := text }
  | 2, .varint n => some { reply with term := n }
  | 3, .varint n => some { reply with granted := n != 0 }
  | 1, _ | 2, _ | 3, _ => none
  | _, _ => some reply

def ofRecords (records : List Record) : Option VoteReply :=
  records.foldlM merge default

def encode (reply : VoteReply) : Bytes := Record.encodeAll reply.toRecords

def decode (bytes : Bytes) : Option VoteReply := Record.decodeAll maxDepth bytes >>= ofRecords

end VoteReply

namespace AppendRequest

def toRecords (request : AppendRequest) : List Record :=
  numberField 1 request.term ++ textField 2 request.leader ++
    numberField 3 request.prevLogIndex ++ numberField 4 request.prevLogTerm ++
    numberField 5 request.leaderCommit ++
    request.entries.map fun entry => ⟨6, .delimited entry.encode⟩

def merge (request : AppendRequest) (record : Record) : Option AppendRequest :=
  match record.field, record.payload with
  | 1, .varint n => some { request with term := n }
  | 2, .delimited bytes => bytes.text?.map fun text => { request with leader := text }
  | 3, .varint n => some { request with prevLogIndex := n }
  | 4, .varint n => some { request with prevLogTerm := n }
  | 5, .varint n => some { request with leaderCommit := n }
  | 6, .delimited bytes =>
    (LogEntry.decode (maxDepth - 1) bytes).map fun entry =>
      { request with entries := request.entries ++ [entry] }
  | 1, _ | 2, _ | 3, _ | 4, _ | 5, _ | 6, _ => none
  | _, _ => some request

def ofRecords (records : List Record) : Option AppendRequest :=
  records.foldlM merge default

def encode (request : AppendRequest) : Bytes := Record.encodeAll request.toRecords

def decode (bytes : Bytes) : Option AppendRequest := Record.decodeAll maxDepth bytes >>= ofRecords

end AppendRequest

namespace AppendReply

def toRecords (reply : AppendReply) : List Record :=
  textField 1 reply.remote ++ numberField 2 reply.term ++ flagField 3 reply.success ++
    numberField 4 reply.index ++ numberField 5 reply.commitIndex

def merge (reply : AppendReply) (record : Record) : Option AppendReply :=
  match record.field, record.payload with
  | 1, .delimited bytes => bytes.text?.map fun text => { reply with remote := text }
  | 2, .varint n => some { reply with term := n }
  | 3, .varint n => some { reply with success := n != 0 }
  | 4, .varint n => some { reply with index := n }
  | 5, .varint n => some { reply with commitIndex := n }
  | 1, _ | 2, _ | 3, _ | 4, _ | 5, _ => none
  | _, _ => some reply

def ofRecords (records : List Record) : Option AppendReply :=
  records.foldlM merge default

def encode (reply : AppendReply) : Bytes := Record.encodeAll reply.toRecords

def decode (bytes : Bytes) : Option AppendReply := Record.decodeAll maxDepth bytes >>= ofRecords

end AppendReply

end RaftReplica

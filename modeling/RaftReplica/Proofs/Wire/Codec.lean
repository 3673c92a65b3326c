import RaftReplica.Proofs.Text.Form
import RaftReplica.Proofs.Wire.Rearrange
import RaftReplica.Proofs.Wire.Record
import RaftReplica.Wire.Codec

/-!
# Messages are read back

What a message is written in gives the message back, and so does every other way to write it: in whatever
order its fields come, in whatever form each is written, and whatever fields it does not declare stand
between them.

* `Recovers` says what a reader makes of the records of a message, moved about and mixed with others, and
  `Readable` what it takes: the fields do not get in each other's way, the records can be written, and they
  merge to the message.
* For each message `change` is what a record changes of it, and `readable` that it can be read back.
* `messages_read_back` puts the messages together.
-/

namespace RaftReplica.Wire

/-- The reader gets the message back from its records, moved about and mixed with others, each written in any
of its forms. -/
def Recovers {α : Type} (decode : Bytes → Option α) (declared repeated : List Nat) (records : List Record)
    (message : α) : Prop :=
  ∀ arranged forms, Rearranged declared repeated records arranged →
    List.Forall₂ Record.Writes arranged forms → decode forms.flatten = some message

/-- The records stand for the message, and the order of their fields does not matter. -/
structure Readable {α : Type} [Inhabited α] (merge : α → Record → Option α) (declared repeated : List Nat)
    (records : List Record) (message : α) : Prop where
  fieldWise : FieldWise declared merge
  valid : ∀ record ∈ records, record.Valid
  atMostOne : ∀ field, field ∉ repeated → AtMostOne records field
  merges : records.foldlM merge default = some message

variable {α : Type} {merge : α → Record → Option α} {declared repeated : List Nat} {records : List Record}

namespace Readable

variable [Inhabited α] {message : α}

theorem decode_encodeAll (h : Readable merge declared repeated records message) (depth : Nat) :
    (Record.decodeAll (depth + 1) (Record.encodeAll records) >>= List.foldlM merge default) =
      some message := by
  rw [Record.encodeAll, List.flatMap_def, Record.decodeAll_flatten (Record.writes_map_encode h.valid) depth]
  exact h.merges

theorem recovers (h : Readable merge declared repeated records message)
    (hrepeated : ∀ field ∈ repeated, field ∈ declared) (depth : Nat) :
    Recovers (fun bytes => Record.decodeAll (depth + 1) bytes >>= List.foldlM merge default) declared
      repeated records message := by
  intro arranged forms harranged hforms
  have hmessage := h.fieldWise.foldlM_rearranged hrepeated h.atMostOne harranged default
  simp only [Record.decodeAll_flatten hforms depth, Option.bind_eq_bind, Option.bind_some, hmessage,
    h.merges]

end Readable

/-! ## What records carry -/

/-- The number that a record carries. -/
def Payload.number? : Payload → Option Nat
  | .varint n => some n
  | _ => none

/-- The bytes that a record carries. -/
def Payload.bytes? : Payload → Option Bytes
  | .delimited bytes => some bytes
  | _ => none

/-- The text that a record carries. -/
def Payload.text? (payload : Payload) : Option String := payload.bytes?.bind Bytes.text?

/-! ## Fields that may be left out -/

section Fields

variable {field n : Nat} {bytes : Bytes} {text : String} {flag : Bool}

theorem sublist_numberField : ((numberField field n).map (·.field)).Sublist [field] := by
  rw [numberField]
  split <;> simp

theorem sublist_flagField : ((flagField field flag).map (·.field)).Sublist [field] := by
  rw [flagField]
  split <;> simp

theorem sublist_bytesField : ((bytesField field bytes).map (·.field)).Sublist [field] := by
  rw [bytesField]
  split <;> simp

theorem sublist_textField : ((textField field text).map (·.field)).Sublist [field] := sublist_bytesField

/-- Where the numbers of the fields go up, no field comes twice. -/
theorem atMostOne_of_sublist {fields : List Nat} (h : (records.map (·.field)).Sublist fields)
    (hcount : fields.count field ≤ 1) : AtMostOne records field := by
  have hfilter : (records.filter (·.field = field)).length = (records.map (·.field)).count field := by
    rw [List.count, List.countP_map, List.countP_eq_length_filter]
    rfl
  rw [AtMostOne, hfilter]
  exact Nat.le_trans (h.count_le field) hcount

theorem valid_numberField (hpos : 0 < field) (hlt : field < 2 ^ 29) (hn : n ≤ wordMax) :
    ∀ record ∈ numberField field n, record.Valid := by
  rw [numberField]
  split
  · simp
  · exact List.forall_mem_singleton.mpr ⟨hpos, hlt, hn⟩

theorem valid_flagField (hpos : 0 < field) (hlt : field < 2 ^ 29) :
    ∀ record ∈ flagField field flag, record.Valid := by
  rw [flagField]
  split
  · exact List.forall_mem_singleton.mpr ⟨hpos, hlt, (by decide : 1 ≤ wordMax)⟩
  · simp

theorem valid_bytesField (hpos : 0 < field) (hlt : field < 2 ^ 29) (hbytes : bytes.length ≤ wordMax) :
    ∀ record ∈ bytesField field bytes, record.Valid := by
  rw [bytesField]
  split
  · simp
  · exact List.forall_mem_singleton.mpr ⟨hpos, hlt, hbytes⟩

variable {message : α}

/-- A number that is left out is one that the message holds already. -/
theorem foldlM_numberField (set : Nat → α → α)
    (hset : ∀ message n, merge message ⟨field, .varint n⟩ = some (set n message))
    (hzero : set 0 message = message) (rest : List Record) :
    (numberField field n ++ rest).foldlM merge message = rest.foldlM merge (set n message) := by
  rw [numberField]
  split
  · next h => rw [h, hzero, List.nil_append]
  · rw [List.cons_append, List.foldlM_cons, hset]
    rfl

theorem foldlM_flagField (set : Bool → α → α)
    (hset : ∀ message, merge message ⟨field, .varint 1⟩ = some (set true message))
    (hfalse : set false message = message) (rest : List Record) :
    (flagField field flag ++ rest).foldlM merge message = rest.foldlM merge (set flag message) := by
  cases flag with
  | false => rw [flagField, if_neg Bool.false_ne_true, hfalse, List.nil_append]
  | true =>
    rw [flagField, if_pos rfl, List.cons_append, List.foldlM_cons, hset]
    rfl

theorem foldlM_bytesField (set : Bytes → α → α)
    (hset : ∀ message bytes, merge message ⟨field, .delimited bytes⟩ = some (set bytes message))
    (hnil : set [] message = message) (rest : List Record) :
    (bytesField field bytes ++ rest).foldlM merge message = rest.foldlM merge (set bytes message) := by
  rw [bytesField]
  split
  · next h => rw [h, hnil, List.nil_append]
  · rw [List.cons_append, List.foldlM_cons, hset]
    rfl

theorem foldlM_textField (set : String → α → α)
    (hset : ∀ message bytes,
      merge message ⟨field, .delimited bytes⟩ = bytes.text?.map fun text => set text message)
    (hempty : set "" message = message) (rest : List Record) :
    (textField field text ++ rest).foldlM merge message = rest.foldlM merge (set text message) := by
  rw [textField, bytesField]
  split
  · next h => rw [Bytes.ofText_eq_nil_iff.mp h, hempty, List.nil_append]
  · rw [List.cons_append, List.foldlM_cons, hset, Bytes.text?_ofText]
    rfl

end Fields

end RaftReplica.Wire

namespace RaftReplica

open Wire

/-! ## Requests for votes -/

namespace VoteRequest

/-- What fits the wire: numbers of 64 bits, and lengths that are such numbers. -/
structure Fits (request : VoteRequest) : Prop where
  term_le : request.term ≤ wordMax
  candidate_le : (Bytes.ofText request.candidate).length ≤ wordMax
  lastLogIndex_le : request.lastLogIndex ≤ wordMax
  lastLogTerm_le : request.lastLogTerm ≤ wordMax

def declared : List Nat := [1, 2, 3, 4]

/-- How the fields of a request are read. -/
def readers : List (Reader VoteRequest) :=
  [⟨1, Nat, Payload.number?, fun n request => { request with term := n }⟩,
    ⟨2, String, Payload.text?, fun text request => { request with candidate := text }⟩,
    ⟨3, Nat, Payload.number?, fun n request => { request with lastLogIndex := n }⟩,
    ⟨4, Nat, Payload.number?, fun n request => { request with lastLogTerm := n }⟩]

theorem merge_eq_mergeWith : merge = Reader.mergeWith readers := by
  funext request ⟨field, payload⟩
  unfold merge Reader.mergeWith
  split <;> simp_all [readers, Payload.number?, Payload.text?, Payload.bytes?]

theorem fieldWise : FieldWise (readers.map (·.field)) merge := by
  rw [merge_eq_mergeWith]
  refine Reader.fieldWise ?_
  simp [readers, Reader.Independent, Function.comp_def]

theorem readable {request : VoteRequest} (h : request.Fits) :
    Readable merge declared [] request.toRecords request where
  fieldWise := fieldWise
  valid := by
    simp only [toRecords, List.forall_mem_append]
    exact ⟨⟨⟨valid_numberField (by decide) (by decide) h.term_le,
      valid_bytesField (by decide) (by decide) h.candidate_le⟩,
      valid_numberField (by decide) (by decide) h.lastLogIndex_le⟩,
      valid_numberField (by decide) (by decide) h.lastLogTerm_le⟩
  atMostOne field _ := by
    have hfields : (request.toRecords.map (·.field)).Sublist ([1] ++ [2] ++ [3] ++ [4]) := by
      simp only [toRecords, List.map_append]
      exact ((sublist_numberField.append sublist_textField).append sublist_numberField).append
        sublist_numberField
    exact atMostOne_of_sublist hfields (List.nodup_iff_count.mp (by decide) field)
  merges := by
    simp only [toRecords, List.append_assoc]
    rw [foldlM_numberField (fun n request => { request with term := n }) (fun _ _ => rfl) rfl,
      foldlM_textField (fun text request => { request with candidate := text }) (fun _ _ => rfl) rfl,
      foldlM_numberField (fun n request => { request with lastLogIndex := n }) (fun _ _ => rfl) rfl,
      ← List.append_nil (numberField 4 _),
      foldlM_numberField (fun n request => { request with lastLogTerm := n }) (fun _ _ => rfl) rfl]
    rfl

end VoteRequest

/-! ## Answers to requests for votes -/

namespace VoteReply

/-- What fits the wire: numbers of 64 bits, and lengths that are such numbers. -/
structure Fits (reply : VoteReply) : Prop where
  remote_le : (Bytes.ofText reply.remote).length ≤ wordMax
  term_le : reply.term ≤ wordMax

def declared : List Nat := [1, 2, 3]

/-- How the fields of an answer are read. -/
def readers : List (Reader VoteReply) :=
  [⟨1, String, Payload.text?, fun text reply => { reply with remote := text }⟩,
    ⟨2, Nat, Payload.number?, fun n reply => { reply with term := n }⟩,
    ⟨3, Nat, Payload.number?, fun n reply => { reply with granted := n != 0 }⟩]

theorem merge_eq_mergeWith : merge = Reader.mergeWith readers := by
  funext reply ⟨field, payload⟩
  unfold merge Reader.mergeWith
  split <;> simp_all [readers, Payload.number?, Payload.text?, Payload.bytes?]

theorem fieldWise : FieldWise (readers.map (·.field)) merge := by
  rw [merge_eq_mergeWith]
  refine Reader.fieldWise ?_
  simp [readers, Reader.Independent, Function.comp_def]

theorem readable {reply : VoteReply} (h : reply.Fits) :
    Readable merge declared [] reply.toRecords reply where
  fieldWise := fieldWise
  valid := by
    simp only [toRecords, List.forall_mem_append]
    exact ⟨⟨valid_bytesField (by decide) (by decide) h.remote_le,
      valid_numberField (by decide) (by decide) h.term_le⟩,
      valid_flagField (by decide) (by decide)⟩
  atMostOne field _ := by
    have hfields : (reply.toRecords.map (·.field)).Sublist ([1] ++ [2] ++ [3]) := by
      simp only [toRecords, List.map_append]
      exact (sublist_textField.append sublist_numberField).append sublist_flagField
    exact atMostOne_of_sublist hfields (List.nodup_iff_count.mp (by decide) field)
  merges := by
    simp only [toRecords, List.append_assoc]
    rw [foldlM_textField (fun text reply => { reply with remote := text }) (fun _ _ => rfl) rfl,
      foldlM_numberField (fun n reply => { reply with term := n }) (fun _ _ => rfl) rfl,
      ← List.append_nil (flagField 3 _),
      foldlM_flagField (fun flag reply => { reply with granted := flag }) (fun _ => rfl) rfl]
    rfl

end VoteReply

/-! ## Log entries -/

namespace LogEntry

/-- What fits the wire: numbers of 64 bits, and a length that is such a number. -/
structure Fits (entry : LogEntry) : Prop where
  index_le : entry.index ≤ wordMax
  term_le : entry.term ≤ wordMax
  length_le : entry.encode.length ≤ wordMax

def declared : List Nat := [1, 2, 3]

/-- How the fields of an entry are read. -/
def readers : List (Reader LogEntry) :=
  [⟨1, Nat, Payload.number?, fun n entry => { entry with index := n }⟩,
    ⟨2, Nat, Payload.number?, fun n entry => { entry with term := n }⟩,
    ⟨3, Bytes, Payload.bytes?, fun bytes entry => { entry with data := bytes }⟩]

theorem merge_eq_mergeWith : merge = Reader.mergeWith readers := by
  funext entry ⟨field, payload⟩
  unfold merge Reader.mergeWith
  split <;> simp_all [readers, Payload.number?, Payload.bytes?]

theorem fieldWise : FieldWise (readers.map (·.field)) merge := by
  rw [merge_eq_mergeWith]
  refine Reader.fieldWise ?_
  simp [readers, Reader.Independent, Function.comp_def]

/-- The data of an entry is part of what the entry is written in. -/
theorem length_data_le (entry : LogEntry) : entry.data.length ≤ entry.encode.length := by
  have hfield : entry.data.length ≤ (Record.encodeAll (bytesField 3 entry.data)).length := by
    rw [bytesField]
    split
    · next h => simp [h]
    · simp only [Record.encodeAll, Record.encode, List.flatMap_cons, List.length_append]
      omega
  simp only [encode, toRecords, Record.encodeAll, List.flatMap_append, List.length_append] at hfield ⊢
  omega

theorem readable {entry : LogEntry} (h : entry.Fits) : Readable merge declared [] entry.toRecords entry where
  fieldWise := fieldWise
  valid := by
    simp only [toRecords, List.forall_mem_append]
    exact ⟨⟨valid_numberField (by decide) (by decide) h.index_le,
      valid_numberField (by decide) (by decide) h.term_le⟩,
      valid_bytesField (by decide) (by decide) (Nat.le_trans entry.length_data_le h.length_le)⟩
  atMostOne field _ := by
    have hfields : (entry.toRecords.map (·.field)).Sublist ([1] ++ [2] ++ [3]) := by
      simp only [toRecords, List.map_append]
      exact (sublist_numberField.append sublist_numberField).append sublist_bytesField
    exact atMostOne_of_sublist hfields (List.nodup_iff_count.mp (by decide) field)
  merges := by
    simp only [toRecords, List.append_assoc]
    rw [foldlM_numberField (fun n entry => { entry with index := n }) (fun _ _ => rfl) rfl,
      foldlM_numberField (fun n entry => { entry with term := n }) (fun _ _ => rfl) rfl,
      ← List.append_nil (bytesField 3 _),
      foldlM_bytesField (fun bytes entry => { entry with data := bytes }) (fun _ _ => rfl) rfl]
    rfl

theorem decode_encode {entry : LogEntry} (h : entry.Fits) (depth : Nat) :
    decode (depth + 1) entry.encode = some entry := (readable h).decode_encodeAll depth

end LogEntry

/-! ## Append requests -/

namespace AppendRequest

/-- What fits the wire: numbers of 64 bits, and lengths that are such numbers. -/
structure Fits (request : AppendRequest) : Prop where
  term_le : request.term ≤ wordMax
  leader_le : (Bytes.ofText request.leader).length ≤ wordMax
  prevLogIndex_le : request.prevLogIndex ≤ wordMax
  prevLogTerm_le : request.prevLogTerm ≤ wordMax
  leaderCommit_le : request.leaderCommit ≤ wordMax
  entries_fit : ∀ entry ∈ request.entries, entry.Fits

def declared : List Nat := [1, 2, 3, 4, 5, 6]

/-- Only the entries may come more than once. -/
def repeated : List Nat := [6]

/-- How the fields of a request are read. -/
def readers : List (Reader AppendRequest) :=
  [⟨1, Nat, Payload.number?, fun n request => { request with term := n }⟩,
    ⟨2, String, Payload.text?, fun text request => { request with leader := text }⟩,
    ⟨3, Nat, Payload.number?, fun n request => { request with prevLogIndex := n }⟩,
    ⟨4, Nat, Payload.number?, fun n request => { request with prevLogTerm := n }⟩,
    ⟨5, Nat, Payload.number?, fun n request => { request with leaderCommit := n }⟩,
    ⟨6, LogEntry, fun payload => payload.bytes?.bind (LogEntry.decode (maxDepth - 1)),
      fun entry request => { request with entries := request.entries ++ [entry] }⟩]

theorem merge_eq_mergeWith : merge = Reader.mergeWith readers := by
  funext request ⟨field, payload⟩
  unfold merge Reader.mergeWith
  split <;> simp_all [readers, Payload.number?, Payload.text?, Payload.bytes?]

theorem fieldWise : FieldWise (readers.map (·.field)) merge := by
  rw [merge_eq_mergeWith]
  refine Reader.fieldWise ?_
  simp [readers, Reader.Independent, Function.comp_def]

/-- The records of entries pile up in their order. -/
theorem foldlM_entries {entries : List LogEntry} (h : ∀ entry ∈ entries, entry.Fits)
    (request : AppendRequest) :
    (entries.map fun entry => (⟨6, .delimited entry.encode⟩ : Record)).foldlM merge request =
      some { request with entries := request.entries ++ entries } := by
  induction entries generalizing request with
  | nil => simp
  | cons entry entries ih =>
    obtain ⟨hentry, hentries⟩ := List.forall_mem_cons.mp h
    have hmerge : request.merge ⟨6, .delimited entry.encode⟩ =
        some { request with entries := request.entries ++ [entry] } := by
      simp only [merge, LogEntry.decode_encode hentry, maxDepth, Nat.add_one_sub_one, Option.map_some]
    rw [List.map_cons, List.foldlM_cons, hmerge, Option.bind_eq_bind, Option.bind_some, ih hentries,
      List.append_assoc, List.singleton_append]

theorem readable {request : AppendRequest} (h : request.Fits) :
    Readable merge declared repeated request.toRecords request where
  fieldWise := fieldWise
  valid := by
    have hentries : ∀ record ∈ request.entries.map fun entry => (⟨6, .delimited entry.encode⟩ : Record),
        record.Valid :=
      List.forall_mem_map.mpr fun entry hmem =>
        ⟨Nat.succ_pos 5, (by decide : 6 < 2 ^ 29), (h.entries_fit entry hmem).length_le⟩
    simp only [toRecords, List.forall_mem_append]
    exact ⟨⟨⟨⟨⟨valid_numberField (by decide) (by decide) h.term_le,
      valid_bytesField (by decide) (by decide) h.leader_le⟩,
      valid_numberField (by decide) (by decide) h.prevLogIndex_le⟩,
      valid_numberField (by decide) (by decide) h.prevLogTerm_le⟩,
      valid_numberField (by decide) (by decide) h.leaderCommit_le⟩, hentries⟩
  atMostOne field hfield := by
    have hentries : (request.entries.map fun entry => (⟨6, .delimited entry.encode⟩ : Record)).map (·.field) =
        List.replicate request.entries.length 6 := by
      rw [List.map_map, List.map_eq_replicate_iff]
      exact fun _ _ => rfl
    have hfields : (request.toRecords.map (·.field)).Sublist
        ([1] ++ [2] ++ [3] ++ [4] ++ [5] ++ List.replicate request.entries.length 6) := by
      simp only [toRecords, List.map_append, hentries]
      exact (((((sublist_numberField.append sublist_textField).append sublist_numberField).append
        sublist_numberField).append sublist_numberField).append (.refl _))
    refine atMostOne_of_sublist hfields ?_
    have hne : field ≠ 6 := fun heq => hfield (heq ▸ List.mem_singleton_self 6)
    rw [List.count_append, List.count_replicate, if_neg (by simpa using hne.symm)]
    exact List.nodup_iff_count.mp (by decide) field
  merges := by
    simp only [toRecords, List.append_assoc]
    rw [foldlM_numberField (fun n request => { request with term := n }) (fun _ _ => rfl) rfl,
      foldlM_textField (fun text request => { request with leader := text }) (fun _ _ => rfl) rfl,
      foldlM_numberField (fun n request => { request with prevLogIndex := n }) (fun _ _ => rfl) rfl,
      foldlM_numberField (fun n request => { request with prevLogTerm := n }) (fun _ _ => rfl) rfl,
      foldlM_numberField (fun n request => { request with leaderCommit := n }) (fun _ _ => rfl) rfl,
      foldlM_entries h.entries_fit]
    rfl

end AppendRequest

/-! ## Answers to append requests -/

namespace AppendReply

/-- What fits the wire: numbers of 64 bits, and lengths that are such numbers. -/
structure Fits (reply : AppendReply) : Prop where
  remote_le : (Bytes.ofText reply.remote).length ≤ wordMax
  term_le : reply.term ≤ wordMax
  index_le : reply.index ≤ wordMax
  commitIndex_le : reply.commitIndex ≤ wordMax

def declared : List Nat := [1, 2, 3, 4, 5]

/-- How the fields of an answer are read. -/
def readers : List (Reader AppendReply) :=
  [⟨1, String, Payload.text?, fun text reply => { reply with remote := text }⟩,
    ⟨2, Nat, Payload.number?, fun n reply => { reply with term := n }⟩,
    ⟨3, Nat, Payload.number?, fun n reply => { reply with success := n != 0 }⟩,
    ⟨4, Nat, Payload.number?, fun n reply => { reply with index := n }⟩,
    ⟨5, Nat, Payload.number?, fun n reply => { reply with commitIndex := n }⟩]

theorem merge_eq_mergeWith : merge = Reader.mergeWith readers := by
  funext reply ⟨field, payload⟩
  unfold merge Reader.mergeWith
  split <;> simp_all [readers, Payload.number?, Payload.text?, Payload.bytes?]

theorem fieldWise : FieldWise (readers.map (·.field)) merge := by
  rw [merge_eq_mergeWith]
  refine Reader.fieldWise ?_
  simp [readers, Reader.Independent, Function.comp_def]

theorem readable {reply : AppendReply} (h : reply.Fits) :
    Readable merge declared [] reply.toRecords reply where
  fieldWise := fieldWise
  valid := by
    simp only [toRecords, List.forall_mem_append]
    exact ⟨⟨⟨⟨valid_bytesField (by decide) (by decide) h.remote_le,
      valid_numberField (by decide) (by decide) h.term_le⟩,
      valid_flagField (by decide) (by decide)⟩,
      valid_numberField (by decide) (by decide) h.index_le⟩,
      valid_numberField (by decide) (by decide) h.commitIndex_le⟩
  atMostOne field _ := by
    have hfields : (reply.toRecords.map (·.field)).Sublist ([1] ++ [2] ++ [3] ++ [4] ++ [5]) := by
      simp only [toRecords, List.map_append]
      exact (((sublist_textField.append sublist_numberField).append sublist_flagField).append
        sublist_numberField).append sublist_numberField
    exact atMostOne_of_sublist hfields (List.nodup_iff_count.mp (by decide) field)
  merges := by
    simp only [toRecords, List.append_assoc]
    rw [foldlM_textField (fun text reply => { reply with remote := text }) (fun _ _ => rfl) rfl,
      foldlM_numberField (fun n reply => { reply with term := n }) (fun _ _ => rfl) rfl,
      foldlM_flagField (fun flag reply => { reply with success := flag }) (fun _ => rfl) rfl,
      foldlM_numberField (fun n reply => { reply with index := n }) (fun _ _ => rfl) rfl,
      ← List.append_nil (numberField 5 _),
      foldlM_numberField (fun n reply => { reply with commitIndex := n }) (fun _ _ => rfl) rfl]
    rfl

end AppendReply

/-! ## All messages -/

/-- Every message whose numbers are 64-bit words is read back from what it is written in.  It is also read back
if its records are put in another order, as long as entries keep theirs, if records of undeclared fields come
between them, and if keys, lengths and numbers take more bytes than they need. -/
theorem messages_read_back :
    (∀ request : VoteRequest, request.Fits →
      VoteRequest.decode request.encode = some request ∧
        Recovers VoteRequest.decode VoteRequest.declared [] request.toRecords request) ∧
    (∀ reply : VoteReply, reply.Fits →
      VoteReply.decode reply.encode = some reply ∧
        Recovers VoteReply.decode VoteReply.declared [] reply.toRecords reply) ∧
    (∀ entry : LogEntry, entry.Fits →
      LogEntry.decode maxDepth entry.encode = some entry ∧
        Recovers (LogEntry.decode maxDepth) LogEntry.declared [] entry.toRecords entry) ∧
    (∀ request : AppendRequest, request.Fits →
      AppendRequest.decode request.encode = some request ∧
        Recovers AppendRequest.decode AppendRequest.declared AppendRequest.repeated request.toRecords
          request) ∧
    (∀ reply : AppendReply, reply.Fits →
      AppendReply.decode reply.encode = some reply ∧
        Recovers AppendReply.decode AppendReply.declared [] reply.toRecords reply) := by
  have hnone (declared : List Nat) : ∀ field ∈ ([] : List Nat), field ∈ declared := by simp
  have hentries : ∀ field ∈ AppendRequest.repeated, field ∈ AppendRequest.declared := by decide
  refine ⟨fun request h => ?_, fun reply h => ?_, fun entry h => ?_, fun request h => ?_, fun reply h => ?_⟩
  · have hread := VoteRequest.readable h
    exact ⟨hread.decode_encodeAll 99, hread.recovers (hnone _) 99⟩
  · have hread := VoteReply.readable h
    exact ⟨hread.decode_encodeAll 99, hread.recovers (hnone _) 99⟩
  · have hread := LogEntry.readable h
    exact ⟨hread.decode_encodeAll 99, hread.recovers (hnone _) 99⟩
  · have hread := AppendRequest.readable h
    exact ⟨hread.decode_encodeAll 99, hread.recovers hentries 99⟩
  · have hread := AppendReply.readable h
    exact ⟨hread.decode_encodeAll 99, hread.recovers (hnone _) 99⟩

/-- A request that is read back from its records in another order, with an unknown one between its entries. -/
theorem rearranged_request_read_back :
    let first : LogEntry := ⟨1, 1, [7, 255]⟩
    let second : LogEntry := ⟨2, wordMax, []⟩
    let request : AppendRequest := ⟨wordMax, "ä", 0, 1, 300, [first, second]⟩
    let arranged : List Record :=
      [⟨6, .delimited first.encode⟩, ⟨9, .fixed32 [1, 2, 3, 4]⟩, ⟨5, .varint 300⟩,
        ⟨6, .delimited second.encode⟩, ⟨2, .delimited (Bytes.ofText "ä")⟩, ⟨4, .varint 1⟩,
        ⟨1, .varint wordMax⟩]
    request.Fits ∧ Rearranged AppendRequest.declared AppendRequest.repeated request.toRecords arranged ∧
      AppendRequest.decode request.encode = some request ∧
      AppendRequest.decode (arranged.map Record.encode).flatten = some request := by
  intro first second request arranged
  have hname : (Bytes.ofText "ä").length = 2 := Bytes.length_ofText "ä"
  have hfirst : first.Fits := ⟨by decide, by decide, by
    simp [first, LogEntry.encode, LogEntry.toRecords, numberField, bytesField, Record.encodeAll, Record.encode,
      encodeKey, WireType.code, Varint.encode, wordMax]⟩
  have hsecond : second.Fits := ⟨by decide, by decide, by
    simp [second, LogEntry.encode, LogEntry.toRecords, numberField, bytesField, Record.encodeAll, Record.encode,
      encodeKey, WireType.code, Varint.encode, wordMax]⟩
  have hfits : request.Fits := ⟨by decide, hname ▸ by decide, by decide, by decide, by decide,
    List.forall_mem_cons.mpr ⟨hfirst, List.forall_mem_singleton.mpr hsecond⟩⟩
  have hrecords : request.toRecords = [⟨1, .varint wordMax⟩, ⟨2, .delimited (Bytes.ofText "ä")⟩,
      ⟨4, .varint 1⟩, ⟨5, .varint 300⟩, ⟨6, .delimited first.encode⟩, ⟨6, .delimited second.encode⟩] := by
    simp [request, AppendRequest.toRecords, numberField, textField, bytesField,
      List.ne_nil_of_length_pos (hname ▸ Nat.two_pos), wordMax]
  have harranged : Rearranged AppendRequest.declared AppendRequest.repeated request.toRecords arranged := by
    rw [hrecords]
    refine ⟨List.perm_iff_count.mpr fun record => ?_, fun field hfield => ?_⟩
    · change List.count record [_, _, _, _, _, _] = _
      simp only [List.count_cons, List.count_nil]
      ac_rfl
    · rw [List.mem_singleton.mp hfield]
      rfl
  have hvalid : ∀ record ∈ arranged, record.Valid := by
    simp only [arranged, List.forall_mem_cons]
    exact ⟨⟨Nat.succ_pos 5, (by decide : 6 < 2 ^ 29), hfirst.length_le⟩,
      ⟨Nat.succ_pos 8, (by decide : 9 < 2 ^ 29), (rfl : [1, 2, 3, 4].length = 4)⟩,
      ⟨Nat.succ_pos 4, (by decide : 5 < 2 ^ 29), (by decide : 300 ≤ wordMax)⟩,
      ⟨Nat.succ_pos 5, (by decide : 6 < 2 ^ 29), hsecond.length_le⟩,
      ⟨Nat.succ_pos 1, (by decide : 2 < 2 ^ 29), hfits.leader_le⟩,
      ⟨Nat.succ_pos 3, (by decide : 4 < 2 ^ 29), (by decide : 1 ≤ wordMax)⟩,
      ⟨Nat.succ_pos 0, (by decide : 1 < 2 ^ 29), Nat.le_refl wordMax⟩, List.forall_mem_nil _⟩
  have hforms := Record.writes_map_encode hvalid
  obtain ⟨-, -, -, hrequest, -⟩ := messages_read_back
  exact ⟨hfits, harranged, (hrequest request hfits).1, (hrequest request hfits).2 _ _ harranged hforms⟩

end RaftReplica

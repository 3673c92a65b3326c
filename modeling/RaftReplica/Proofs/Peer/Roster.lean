import RaftReplica.Peer.Roster
import RaftReplica.Proofs.Json.Text

/-!
# Rosters are read back

A roster that is written to a file and read again lists the same peers in the same order, each with all that
is written of it, and none of them connected.

* `Fields.readMembers_comma` and `Fields.readMembers_brace` read one member of a peer's object, and
  `ofJson?_toJson` the whole object.
* `readPeers_separate` is the induction over the peers of a roster, and `peersOfFile?_toFile` reads a file.
* `load_dump` is about files: what was at the place before does not matter.
-/

namespace RaftReplica

namespace Peer

open Json

/-! ## Members of an object -/

theorem string?_member (key : String) (value rest : Bytes) :
    string? (member key value ++ rest) = some (key, ascii ':' :: (value ++ rest)) := by
  rw [member, List.append_assoc, string?_quote, List.cons_append]

variable {fields read : Fields} {key : String} {value rest : Bytes}

/-- A member with another behind it. -/
theorem Fields.readMembers_comma
    (h : fields.read key (value ++ ascii ',' :: rest) = some (read, ascii ',' :: rest)) (fuel : Nat) :
    readMembers (fuel + 1) fields (member key value ++ ascii ',' :: rest) = readMembers fuel read rest := by
  simp only [readMembers, string?_member, expect?_mark (by decide : isBlank (ascii ':') = false), h,
    expect?_mark (by decide : isBlank (ascii ',') = false), Option.bind_eq_bind, Option.bind_some]

/-- The last member of an object. -/
theorem Fields.readMembers_brace
    (h : fields.read key (value ++ ascii '\x7d' :: rest) = some (read, ascii '\x7d' :: rest)) (fuel : Nat) :
    readMembers (fuel + 1) fields (member key value ++ ascii '\x7d' :: rest) = some (read, rest) := by
  have hcomma : expect? ',' (ascii '\x7d' :: rest) = .none := expect?_other (by decide) (by decide) rest
  simp only [readMembers, string?_member, expect?_mark (by decide : isBlank (ascii ':') = false), h, hcomma,
    expect?_mark (by decide : isBlank (ascii '\x7d') = false), Option.bind_eq_bind, Option.bind_some,
    Option.pure_def]

theorem Fields.read_pid {pid : Nat} (hpid : pid ≤ maxPid) (hrest : EndsNumber rest)
    (h : fields.pid = .none) :
    fields.read "pid" (decimalDigits pid ++ rest) = some ({ fields with pid := some pid }, rest) := by
  simp [Fields.read, h, natUpTo?_decimalDigits hpid hrest]

theorem Fields.read_name {name : String} (h : fields.name = .none) :
    fields.read "name" (quote name ++ rest) = some ({ fields with name := some name }, rest) := by
  simp [Fields.read, h, string?_quote]

theorem Fields.read_addr {addr : String} (h : fields.addr = .none) :
    fields.read "addr" (quote addr ++ rest) = some ({ fields with addr := some addr }, rest) := by
  simp [Fields.read, h, string?_quote]

theorem Fields.read_region {region : String} (h : fields.region = .none) :
    fields.read "region" (quote region ++ rest) =
      some ({ fields with region := some (some region) }, rest) := by
  simp [Fields.read, h, optionalString?_quote]

/-! ## Peers -/

/-- The bytes behind the name of the address. -/
def tail (peer : Peer) : Bytes :=
  match peer.region with
  | some region => ascii ',' :: member "region" (quote region)
  | none => []

theorem readMembers_tail (peer : Peer) (fuel : Nat) :
    Fields.readMembers (fuel + 2) ⟨some peer.pid, some peer.name, none, none⟩
        (member "addr" (quote peer.addr) ++ (peer.tail ++ ascii '\x7d' :: rest)) =
      some (⟨some peer.pid, some peer.name, some peer.addr, peer.region.map some⟩, rest) := by
  rw [tail]
  cases peer.region with
  | none => exact Fields.readMembers_brace (Fields.read_addr rfl) (fuel + 1)
  | some region =>
    rw [List.cons_append, Fields.readMembers_comma (Fields.read_addr rfl),
      Fields.readMembers_brace (Fields.read_region rfl)]
    rfl

theorem expect?_member (mark : Char) (hmark : ascii '"' ≠ ascii mark) (key : String) (value rest : Bytes) :
    expect? mark (member key value ++ rest) = none := by
  rw [member, quote, quoteBytes, List.cons_append, List.cons_append, List.cons_append]
  exact expect?_other (by decide) hmark _

/-- A peer is read back from its object. -/
theorem ofJson?_toJson {peer : Peer} (h : peer.pid ≤ maxPid) (rest : Bytes) :
    ofJson? (peer.toJson ++ rest) = some (peer, rest) := by
  let body := member "pid" (decimalDigits peer.pid) ++
    ascii ',' :: (member "name" (quote peer.name) ++
      ascii ',' :: (member "addr" (quote peer.addr) ++ (peer.tail ++ ascii '\x7d' :: rest)))
  have hjson : peer.toJson ++ rest = ascii '\x7b' :: body := by
    cases hregion : peer.region <;> simp [toJson, tail, hregion, body]
  have harray : expect? '[' (ascii '\x7b' :: body) = none := expect?_other (by decide) (by decide) _
  have hempty : expect? '\x7d' body = none := expect?_member _ (by decide) _ _ _
  have hbody (fuel : Nat) : Fields.readMembers (fuel + 4) Fields.none body =
      some (⟨some peer.pid, some peer.name, some peer.addr, peer.region.map some⟩, rest) := by
    have hends (rest : Bytes) : EndsNumber (ascii ',' :: rest) :=
      ⟨by decide, by decide, by decide, by decide⟩
    rw [Fields.readMembers_comma (Fields.read_pid h (hends _) rfl),
      Fields.readMembers_comma (Fields.read_name rfl)]
    exact readMembers_tail peer fuel
  -- four members at most, and each takes bytes
  obtain ⟨fuel, hfuel⟩ : ∃ fuel, body.length + 1 = fuel + 4 := by
    refine ⟨body.length - 3, ?_⟩
    have : 3 ≤ body.length := by
      simp only [body, List.length_append, List.length_cons]
      omega
    omega
  rw [hjson, ofJson?, harray, ofObject?]
  simp only [expect?_mark (by decide : isBlank (ascii '\x7b') = false), hempty, hfuel, hbody,
    Option.bind_eq_bind, Option.bind_some, Option.pure_def, Fields.toPeer?]
  obtain ⟨pid, name, addr, region⟩ := peer
  cases region <;> rfl

theorem expect?_toJson {mark : Char} (hmark : ascii '\x7b' ≠ ascii mark) (peer : Peer) (rest : Bytes) :
    expect? mark (peer.toJson ++ rest) = none := expect?_other (by decide) hmark _

end Peer

/-! ## Files -/

namespace Roster

open Json

theorem length_le_separate (values : List Bytes) : values.length ≤ (separate values).length + 1 := by
  fun_induction separate values with
  | case1 => exact Nat.zero_le _
  | case2 => exact Nat.le_add_left _ _
  | case3 value rest _ ih =>
    simp only [List.length_cons, List.length_append] at ih ⊢
    omega

/-- The peers of a roster are read back one after the other, up to the end of their array. -/
theorem readPeers_separate {peers : List Peer} (hne : peers ≠ [])
    (hpid : ∀ peer ∈ peers, peer.pid ≤ Peer.maxPid) (rest : Bytes) {fuel : Nat}
    (hfuel : peers.length ≤ fuel) :
    readPeers fuel (separate (peers.map Peer.toJson) ++ ascii ']' :: rest) = some (peers, rest) := by
  induction peers generalizing fuel with
  | nil => exact absurd rfl hne
  | cons peer peers ih =>
    obtain ⟨fuel, rfl⟩ := Nat.exists_eq_add_of_le' hfuel
    obtain ⟨hpeer, hpeers⟩ := List.forall_mem_cons.mp hpid
    cases peers with
    | nil =>
      have hcomma : expect? ',' (ascii ']' :: rest) = none := expect?_other (by decide) (by decide) rest
      simp [separate, readPeers, Peer.ofJson?_toJson hpeer, hcomma,
        expect?_mark (by decide : isBlank (ascii ']') = false)]
    | cons next peers =>
      have hbytes : separate ((peer :: next :: peers).map Peer.toJson) ++ ascii ']' :: rest =
          peer.toJson ++ ascii ',' :: (separate ((next :: peers).map Peer.toJson) ++ ascii ']' :: rest) := by
        rw [List.map_cons, List.map_cons, separate, List.append_assoc, List.cons_append, ← List.map_cons]
        simp
      have hrest := ih (List.cons_ne_nil next peers) hpeers (Nat.le_add_left _ fuel)
      rw [hbytes, List.length_cons, ← Nat.add_assoc, readPeers]
      simp only [Peer.ofJson?_toJson hpeer, expect?_mark (by decide : isBlank (ascii ',') = false), hrest,
        Option.bind_eq_bind, Option.bind_some, Option.pure_def]

theorem peersOfFile?_toFile {roster : Roster} (h : ∀ seat ∈ roster, seat.peer.pid ≤ Peer.maxPid) :
    peersOfFile? roster.toFile = some roster.peers := by
  have hfile : roster.toFile =
      ascii '[' :: (separate (roster.peers.map Peer.toJson) ++ ascii ']' :: [ascii '\n']) := by
    rw [toFile, List.cons_append]
  have hpids : ∀ peer ∈ roster.peers, peer.pid ≤ Peer.maxPid := List.forall_mem_map.mpr h
  have hend : isEnd [ascii '\n'] := by decide
  rw [peersOfFile?, hfile, expect?_mark (by decide), Option.bind_eq_bind, Option.bind_some]
  generalize roster.peers = peers at hpids ⊢
  cases peers with
  | nil =>
    simp only [List.map_nil, separate, List.nil_append, hend, Option.bind_eq_bind, Option.bind_some, if_true,
      expect?_mark (by decide : isBlank (ascii ']') = false)]
  | cons peer peers =>
    have hfuel := length_le_separate ((peer :: peers).map Peer.toJson)
    have hempty : expect? ']' (separate ((peer :: peers).map Peer.toJson) ++ ascii ']' :: [ascii '\n']) =
        none := by
      have hmark : ascii '\x7b' ≠ ascii ']' := by decide
      cases peers <;> simp [separate, Peer.expect?_toJson hmark]
    have hread := readPeers_separate (List.cons_ne_nil peer peers) hpids [ascii '\n']
      (by simp only [List.length_map, List.length_append] at hfuel ⊢; omega :
        _ ≤ (separate ((peer :: peers).map Peer.toJson) ++ ascii ']' :: [ascii '\n']).length + 1)
    simp only [hempty, hread, hend, Option.bind_eq_bind, Option.bind_some, if_true]

/-- The roster in the file that a roster is written to. -/
theorem ofFile_toFile {roster : Roster} (h : ∀ seat ∈ roster, seat.peer.pid ≤ Peer.maxPid) :
    ofFile roster.toFile = .ok (ofPeers roster.peers) := by
  rw [ofFile, peersOfFile?_toFile h]

/-- Whatever a file held before, a roster that is written to it is read back from it: the same peers in the
same order, and none of them connected. -/
theorem load_dump (roster : Roster) (files : Files) (path : String)
    (hpid : ∀ seat ∈ roster, seat.peer.pid ≤ Peer.maxPid) :
    ∃ loaded, load (roster.dump files path) path = .ok loaded ∧ loaded.listsSame roster ∧
      loaded.peers = roster.peers ∧ ∀ seat ∈ loaded, seat.connected = false := by
  have hpeers : (ofPeers roster.peers).peers = roster.peers := by
    rw [ofPeers, peers, List.map_map]
    exact List.map_id _
  refine ⟨ofPeers roster.peers, ?_, decide_eq_true hpeers, hpeers, ?_⟩
  · rw [load, dump, if_pos rfl]
    exact ofFile_toFile hpid
  · exact List.forall_mem_map.mpr fun _ _ => rfl

/-- Two peers of one name, one of them connected, written over something else and read again. -/
theorem load_dump_twins :
    let roster : Roster := [⟨⟨65535, "ä\"\n", "", some ""⟩, true⟩, ⟨⟨0, "ä\"\n", "b:1", none⟩, false⟩]
    let files : Files := fun _ => some [0, 255]
    (∀ seat ∈ roster, seat.peer.pid ≤ Peer.maxPid) ∧
      ∃ loaded, load (roster.dump files "peers.json") "peers.json" = .ok loaded ∧
        loaded.listsSame roster ∧ loaded.peers = roster.peers ∧
        ∀ seat ∈ loaded, seat.connected = false := by
  intro roster files
  have hpid : ∀ seat ∈ roster, seat.peer.pid ≤ Peer.maxPid := by decide
  exact ⟨hpid, load_dump roster files "peers.json" hpid⟩

end Roster

end RaftReplica

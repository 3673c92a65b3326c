import RaftReplica.Peer.Roster

/-!
# Rosters that share connections

A directory holds rosters that were made from one another. A part of a roster or a copy of one lists
the very same seats, so that a peer connected through one of them is connected in all.
-/

namespace RaftReplica

/-- Seats and the rosters that list them, by position. -/
structure Directory where
  seats : List Seat
  rosters : List (List Nat)

namespace Directory

def empty : Directory := ⟨[], []⟩

/-- The positions that a roster lists. -/
def places (d : Directory) (r : Nat) : List Nat := d.rosters[r]?.getD []

/-- A roster as it stands now. -/
def roster (d : Directory) (r : Nat) : Roster := (d.places r).filterMap fun place => d.seats[place]?

/-- Adds a roster of seats of its own. -/
def add (d : Directory) (roster : Roster) : Directory where
  seats := d.seats ++ roster
  rosters := d.rosters ++ [(List.range roster.length).map (d.seats.length + ·)]

/-- Adds a roster of those seats of another whose peers pass. -/
def addPart (d : Directory) (r : Nat) (passes : Peer → Bool) : Directory :=
  let part := (d.places r).filter fun place => d.seats[place]?.any fun seat => passes seat.peer
  { d with rosters := d.rosters ++ [part] }

/-- Changes the seats that a roster lists and tells what the change reports. -/
def change {ρ : Type} (d : Directory) (r : Nat) (act : Roster → Roster × ρ) : Directory × ρ :=
  let (roster, report) := act (d.roster r)
  let seats := ((d.places r).zip roster).foldl (fun seats (place, seat) => seats.set place seat) d.seats
  ({ d with seats }, report)

end Directory

namespace Roster

/-- Changes the first seat of a name. -/
def changeAt (roster : Roster) (name : String) (act : Seat → Seat × Option PeerError) :
    Roster × Except PeerError Unit :=
  match roster with
  | [] => ([], .error (.notFound name))
  | seat :: rest =>
    if seat.peer.name = name then
      match act seat with
      | (seat, none) => (seat :: rest, .ok ())
      | (seat, some error) => (seat :: rest, .error error)
    else
      let (rest, result) := changeAt rest name act
      (seat :: rest, result)

end Roster

end RaftReplica

import Mathlib.Data.List.Forall2
import RaftReplica.Peer.Roster

/-!
# Every peer of a roster is attempted

Connecting a roster and closing one goes on over every failure.  What happens to a peer depends on the peer
alone, and what is reported in the end are the failures of all of them, in the roster's order.

* `Seat.Refused` lists the reasons why a peer cannot be connected, and `Seat.connect_cases` says that there is
  no other as long as the settings for secured connections can be applied.
* `Failed` picks the failures out of a roster in order, and `failed_filterMap` is the induction over its seats.
* `PeerError.Reports` says how failures are folded by their number.
* `Roster.close_fst` and `Roster.disconnected_connect`: whatever has failed before, closing leaves no peer
  connected.
* `Roster.every_peer_attempted` is the result for every roster.
-/

namespace RaftReplica

/-! ## Reports -/

namespace PeerError

variable {errors : List PeerError}

theorem collect_eq_ok_iff : collect errors = .ok () ↔ errors = [] := by
  match errors with
  | [] => simp [collect]
  | [error] => simp [collect]
  | error :: error' :: errors => simp [collect]

/-- The outcome of an operation that has met these errors: it has succeeded if there are none, a single error is
reported as it is, and several are reported together. -/
structure Reports (errors : List PeerError) (outcome : Except PeerError Unit) : Prop where
  success : outcome = .ok () ↔ errors = []
  single : ∀ error, errors = [error] → outcome = .error error
  several : 2 ≤ errors.length → outcome = .error (.multiple errors)

theorem reports_collect (errors : List PeerError) : Reports errors (collect errors) where
  success := collect_eq_ok_iff
  single := by
    rintro error rfl
    rfl
  several h := by
    match errors, h with
    | error :: error' :: errors, _ => rfl

end PeerError

/-- The errors of those seats of a roster that fail, in the roster's order. -/
inductive Failed (fails : Seat → PeerError → Prop) : Roster → List PeerError → Prop
  | nil : Failed fails [] []
  | spared {seat : Seat} {roster : Roster} {errors : List PeerError} (hnone : ∀ error, ¬fails seat error)
      (rest : Failed fails roster errors) : Failed fails (seat :: roster) errors
  | failed {seat : Seat} {roster : Roster} {error : PeerError} {errors : List PeerError}
      (hfails : fails seat error) (rest : Failed fails roster errors) :
      Failed fails (seat :: roster) (error :: errors)

theorem failed_filterMap {fails : Seat → PeerError → Prop} {roster : Roster} (error? : Seat → Option PeerError)
    (h : ∀ seat ∈ roster, ∀ error, error? seat = some error ↔ fails seat error) :
    Failed fails roster (roster.filterMap error?) := by
  induction roster with
  | nil => exact .nil
  | cons seat roster ih =>
    have hseat := h seat List.mem_cons_self
    have hrest := ih fun seat hmem => h seat (List.mem_cons_of_mem _ hmem)
    cases herror : error? seat with
    | none =>
      rw [List.filterMap_cons_none herror]
      refine .spared (fun error hfails => ?_) hrest
      cases herror.symm.trans ((hseat error).mpr hfails)
    | some error =>
      rw [List.filterMap_cons_some herror]
      exact .failed ((hseat error).mp herror) hrest

/-! ## One peer -/

namespace Seat

variable {seat : Seat} {options : ConnectOptions} {error : PeerError}

/-- What the text that is dialled for the peer turns out to be. -/
def target (options : ConnectOptions) (seat : Seat) : Except Address.AddressError Address.Target :=
  Address.parse (Bytes.ofText (Address.dialUri seat.peer.addr options.tls.isSome))

/-- The peer has an address, and what is dialled for it is a URI. -/
structure Dialable (options : ConnectOptions) (seat : Seat) : Prop where
  addr : seat.peer.addr ≠ ""
  target : ∃ target, seat.target options = .ok target

/-- The settings for secured connections can be applied: the name that a certificate has to show is given, or
there is a host in the address. -/
def Securable (options : ConnectOptions) (seat : Seat) : Prop :=
  options.tls = some "" → seat.target options ≠ .ok .path

/-- Why the peer cannot be connected. -/
inductive Refused (options : ConnectOptions) (seat : Seat) : PeerError → Prop
  | noEndpoint : seat.peer.addr = "" → Refused options seat .noEndpoint
  | alreadyConnected : seat.peer.addr ≠ "" → seat.connected = true → Refused options seat .alreadyConnected
  | invalidAddress {cause : Address.AddressError} : seat.peer.addr ≠ "" → seat.connected = false →
      seat.target options = .error cause → Refused options seat (.invalidAddress seat.peer.name cause)

theorem connectError?_eq_some_iff (h : seat.Securable options) :
    seat.connectError? options = some error ↔ seat.Refused options error := by
  rw [connectError?, ← target]
  constructor
  · intro herror
    split at herror
    · next haddr => exact Option.some.inj herror ▸ .noEndpoint haddr
    next haddr =>
    split at herror
    · next hconnected => exact Option.some.inj herror ▸ .alreadyConnected haddr hconnected
    next hfree =>
    split at herror
    · next hinvalid =>
      exact Option.some.inj herror ▸ .invalidAddress haddr (Bool.eq_false_iff.mpr hfree) hinvalid
    · next hpath =>
      rw [if_neg fun hsecured => h hsecured hpath] at herror
      cases herror
    · cases herror
  · intro hrefused
    cases hrefused with
    | noEndpoint haddr => rw [if_pos haddr]
    | alreadyConnected haddr hconnected => rw [if_neg haddr, if_pos hconnected]
    | invalidAddress haddr hfree hinvalid =>
      rw [if_neg haddr, if_neg (Bool.eq_false_iff.mp hfree), hinvalid]

theorem not_refused_iff :
    (∀ error, ¬seat.Refused options error) ↔ seat.connected = false ∧ seat.Dialable options := by
  constructor
  · intro hnone
    have haddr : seat.peer.addr ≠ "" := fun haddr => hnone _ (.noEndpoint haddr)
    have hfree : seat.connected = false :=
      Bool.eq_false_iff.mpr fun hconnected => hnone _ (.alreadyConnected haddr hconnected)
    cases htarget : seat.target options with
    | error cause => exact absurd (.invalidAddress haddr hfree htarget) (hnone _)
    | ok target => exact ⟨hfree, haddr, target, htarget⟩
  · rintro ⟨hfree, haddr, target, htarget⟩ error hrefused
    cases hrefused with
    | noEndpoint hempty => exact haddr hempty
    | alreadyConnected _ hconnected => exact Bool.false_ne_true (hfree.symm.trans hconnected)
    | invalidAddress _ _ hinvalid => cases htarget.symm.trans hinvalid

/-- A peer is connected unless there is a reason against it, and then nothing changes. -/
theorem connect_cases (h : seat.Securable options) :
    (∃ error, seat.Refused options error ∧ seat.connect options = (seat, some error)) ∨
    (seat.connected = false ∧ seat.Dialable options ∧
      seat.connect options = ({ seat with connected := true }, none)) := by
  rw [connect]
  cases herror : seat.connectError? options with
  | some error => exact .inl ⟨error, (connectError?_eq_some_iff h).mp herror, rfl⟩
  | none =>
    have hnone : ∀ error, ¬seat.Refused options error := by
      intro error hrefused
      cases herror.symm.trans ((connectError?_eq_some_iff h).mpr hrefused)
    obtain ⟨hfree, hdialable⟩ := not_refused_iff.mp hnone
    exact .inr ⟨hfree, hdialable, rfl⟩

theorem connect_snd (options : ConnectOptions) (seat : Seat) :
    (seat.connect options).2 = seat.connectError? options := by
  rw [connect]
  split <;> simp_all

/-- Connecting leaves a peer connected that was connected before or can be dialled. -/
theorem connected_connect_iff (h : seat.Securable options) :
    (seat.connect options).1.connected = true ↔ seat.connected = true ∨ seat.Dialable options := by
  rcases connect_cases h with ⟨error, hrefused, hconnect⟩ | ⟨-, hdialable, hconnect⟩
  · rw [hconnect]
    refine ⟨.inl, fun hcould => ?_⟩
    by_contra hfree
    exact not_refused_iff.mpr ⟨Bool.eq_false_iff.mpr hfree, hcould.resolve_left hfree⟩ error hrefused
  · rw [hconnect]
    exact ⟨fun _ => .inr hdialable, fun _ => rfl⟩

theorem peer_connect (options : ConnectOptions) (seat : Seat) :
    (seat.connect options).1.peer = seat.peer := by
  rw [connect]
  split <;> rfl

end Seat

/-! ## All peers -/

namespace Roster

variable {roster : Roster} {options : ConnectOptions}

/-- If no peer fails to be connected, all of them are. -/
theorem connect_ok (h : (roster.connect options).2 = .ok ()) :
    (roster.connect options).1 = roster.map fun seat => { seat with connected := true } := by
  simp only [Roster.connect, PeerError.collect_eq_ok_iff, List.filterMap_map,
    List.filterMap_eq_nil_iff, Function.comp] at h
  simp only [Roster.connect, List.map_map]
  refine List.map_congr_left fun seat hseat => ?_
  have hnone := h seat hseat
  simp only [Function.comp, Seat.connect] at hnone ⊢
  split at hnone
  · cases hnone
  · rfl

/-- No peer is connected any more, and the peers are the same. -/
def disconnected (roster : Roster) : Roster := roster.map fun seat => { seat with connected := false }

theorem close_fst (roster : Roster) : roster.close.1 = roster.disconnected := by
  simp only [close, disconnected, List.map_map]
  refine List.map_congr_left fun seat _ => ?_
  obtain ⟨peer, connected⟩ := seat
  cases connected <;> rfl

/-- It does not matter which of the peers could be connected. -/
theorem disconnected_connect (roster : Roster) (options : ConnectOptions) :
    (roster.connect options).1.disconnected = roster.disconnected := by
  simp only [connect, disconnected, List.map_map]
  refine List.map_congr_left fun seat _ => ?_
  simp only [Function.comp, Seat.connect]
  split <;> rfl

/-- Closing fails for those that are not connected, and for each of them in the same way. -/
theorem filterMap_close (roster : Roster) : roster.filterMap (fun seat => seat.close.2) =
    List.replicate (roster.countP fun seat => !seat.connected) .notConnected := by
  induction roster with
  | nil => rfl
  | cons seat roster ih =>
    obtain ⟨peer, connected⟩ := seat
    cases connected with
    | true => exact ih
    | false =>
      rw [List.countP_cons_of_pos rfl, List.replicate_succ, ← ih]
      rfl

/-- **Every peer is attempted, whatever becomes of the others.**  As long as the settings for secured
connections can be applied, connecting a roster leaves those peers connected, and only those, that were before
or have an address that makes a URI; it fails for each of the others and for each peer that was connected
before, with the first reason of `Seat.Refused` that holds.  Closing a roster leaves no peer connected, also
after some could not be connected, and fails for those that were not.  Both report no failure, the only one,
or all of them in order.  What becomes of a peer is the same in every roster that has it at this place. -/
theorem every_peer_attempted (roster : Roster) (options : ConnectOptions) :
    ((∀ seat ∈ roster, seat.Securable options) →
      List.Forall₂ (fun seat after => after.peer = seat.peer ∧
        (after.connected = true ↔ seat.connected = true ∨ seat.Dialable options))
          roster (roster.connect options).1 ∧
      ∃ errors, Failed (Seat.Refused options) roster errors ∧
        PeerError.Reports errors (roster.connect options).2) ∧
    roster.close.1 = roster.disconnected ∧
    PeerError.Reports (List.replicate (roster.countP fun seat => !seat.connected) .notConnected)
      roster.close.2 ∧
    (roster.connect options).1.close.1 = roster.disconnected ∧
    ∀ (other : Roster) (place : ℕ), other[place]? = roster[place]? →
      (other.connect options).1[place]? = (roster.connect options).1[place]? ∧
        other.close.1[place]? = roster.close.1[place]? := by
  refine ⟨fun hsecurable => ⟨?_, ?_⟩, close_fst roster, ?_, ?_, ?_⟩
  · simp only [connect, List.map_map]
    rw [List.forall₂_map_right_iff, List.forall₂_same]
    exact fun seat hseat =>
      ⟨Seat.peer_connect options seat, Seat.connected_connect_iff (hsecurable seat hseat)⟩
  · refine ⟨_, failed_filterMap (fun seat => (seat.connect options).2) ?_, ?_⟩
    · intro seat hseat error
      rw [Seat.connect_snd]
      exact Seat.connectError?_eq_some_iff (hsecurable seat hseat)
    · simp only [connect, List.filterMap_map]
      exact PeerError.reports_collect _
  · simp only [close, List.filterMap_map]
    rw [← filterMap_close]
    exact PeerError.reports_collect _
  · rw [close_fst, disconnected_connect]
  · intro other place hsame
    simp only [connect, close, List.map_map, List.getElem?_map, hsame, and_self]

/-- Of four peers one can be connected, and closing disconnects it again, and the one that was connected
before. -/
theorem every_peer_attempted_mixed :
    let roster : Roster := [⟨⟨1, "opal", "localhost:2320", none⟩, false⟩, ⟨⟨2, "nowhere", "", none⟩, false⟩,
      ⟨⟨3, "jade", "localhost:2330", none⟩, true⟩, ⟨⟨4, "kira", "ki ra", none⟩, false⟩]
    (∀ seat ∈ roster, seat.Securable .default) ∧
      (roster.connect .default).1.map (·.connected) = [true, false, true, false] ∧
      (roster.connect .default).2 = .error (.multiple
        [.noEndpoint, .alreadyConnected, .invalidAddress "kira" .invalidCharacter]) ∧
      (∃ errors, Failed (Seat.Refused .default) roster errors ∧
        PeerError.Reports errors (roster.connect .default).2) ∧
      (roster.connect .default).1.close.1 = roster.disconnected := by
  intro roster
  have hsecurable : ∀ seat ∈ roster, seat.Securable .default := fun _ _ hsecured => nomatch hsecured
  obtain ⟨hconnect, -, -, hclosed, -⟩ := every_peer_attempted roster .default
  have hopal : Seat.target .default ⟨⟨1, "opal", "localhost:2320", none⟩, false⟩ = .ok .host := by
    decide +kernel
  have hkira : Seat.target .default ⟨⟨4, "kira", "ki ra", none⟩, false⟩ = .error .invalidCharacter := by
    decide +kernel
  refine ⟨hsecurable, by decide +kernel, ?_, (hconnect hsecurable).2, hclosed⟩
  rw [Seat.target] at hopal hkira
  simp [roster, connect, Seat.connect, Seat.connectError?, hopal, hkira, PeerError.collect]

end Roster

end RaftReplica

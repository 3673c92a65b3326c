import RaftReplica.Proofs.Arithmetic.Log
import RaftReplica.Proofs.Replica.Bookkeeping

/-!
# A leader's records in words

The records of a leader saturate: a next index stays at the largest word instead of passing it, and at
zero instead of falling below.  Here the records are kept once more without that help, and shown to need
none while they fit a log that is shorter than the largest word.

* `PeerProgress.checkedInitial_eq`, `Fits.checkedSucceed_eq` and `Fits.checkedFail_eq` are about one record.
* `Progress.checkedStart_eq` and `Progress.checkedNote_eq` are about all of them.
-/

namespace RaftReplica

open Checked (add sub)

/-! ## One record -/

namespace PeerProgress

def checkedInitial (lastIndex : Nat) : Checked PeerProgress := do
  let next ← add wordMax lastIndex 1
  return ⟨next, 0⟩

def checkedSucceed (p : PeerProgress) (index : Nat) : Checked PeerProgress := do
  let matched := max p.matched index
  let after ← add wordMax matched 1
  return ⟨max p.next after, matched⟩

def checkedFail (p : PeerProgress) (lastIndex : Nat) : Checked PeerProgress := do
  let before ← sub p.next 1
  let hinted ← add wordMax lastIndex 1
  let after ← add wordMax p.matched 1
  return ⟨max (max (min before hinted) after) 1, p.matched⟩

variable {p : PeerProgress} {lastIndex index : Nat}

theorem checkedInitial_eq (hword : lastIndex < wordMax) :
    checkedInitial lastIndex = .ok (initial lastIndex) := by
  rw [checkedInitial, initial, Checked.add_eq hword, saturatingSucc_of_lt hword]
  rfl

theorem Fits.checkedSucceed_eq (h : p.Fits lastIndex) (hindex : index ≤ lastIndex)
    (hword : lastIndex < wordMax) : p.checkedSucceed index = .ok (p.succeed index) := by
  have hmatched : max p.matched index < wordMax :=
    Nat.lt_of_le_of_lt (Nat.max_le.mpr ⟨h.matched_le, hindex⟩) hword
  rw [checkedSucceed, PeerProgress.succeed, Checked.add_eq hmatched, saturatingSucc_of_lt hmatched]
  rfl

theorem Fits.checkedFail_eq (h : p.Fits lastIndex) (hindex : index ≤ lastIndex)
    (hword : lastIndex < wordMax) : p.checkedFail index = .ok (p.fail index) := by
  have hhint : index < wordMax := Nat.lt_of_le_of_lt hindex hword
  have hmatched : p.matched < wordMax := Nat.lt_of_le_of_lt h.matched_le hword
  rw [checkedFail, PeerProgress.fail, Checked.sub_eq h.pos, Checked.add_eq hhint, Checked.add_eq hmatched,
    saturatingSucc_of_lt hhint, saturatingSucc_of_lt hmatched]
  rfl

end PeerProgress

/-! ## All records -/

namespace Progress

def checkedStart (names : List String) (lastIndex : Nat) : Checked Progress := do
  let records ← names.mapM fun name => do
    let p ← PeerProgress.checkedInitial lastIndex
    return (name, p)
  return ⟨Std.TreeMap.ofList records compare⟩

/-- The view once the record of a peer has changed, if there is one. -/
def checkedNote (progress : Progress) (peer : String) (change : PeerProgress → Checked PeerProgress) :
    Checked (Option Progress) := do
  match progress.get? peer with
  | none => return none
  | some p =>
    let p ← change p
    return some ⟨progress.peers.modify peer fun _ => p⟩

theorem checkedStart_eq {names : List String} {lastIndex : Nat} (hword : lastIndex < wordMax) :
    checkedStart names lastIndex = .ok (start names lastIndex) := by
  have hrecords : (names.mapM fun name => do
      let p ← PeerProgress.checkedInitial lastIndex
      return (name, p)) =
        (.ok (names.map fun name => (name, PeerProgress.initial lastIndex)) : Checked _) := by
    induction names with
    | nil => rfl
    | cons name rest ih =>
      simp only [List.mapM_cons, PeerProgress.checkedInitial_eq hword, Checked.ok_bind,
        Checked.pure_eq] at ih ⊢
      rw [ih]
      rfl
  rw [checkedStart, hrecords]
  rfl

variable {progress : Progress} {peer : String}

open Std.DTreeMap.Internal in
/-- What becomes of a tree by a change of one value depends on that value only. -/
private theorem modify_eq_of_tree_get? {change : PeerProgress → PeerProgress} {p : PeerProgress}
    {tree : Impl String fun _ => PeerProgress} (h : Impl.Const.get? tree peer = some p) :
    Impl.Const.modify peer (fun _ => change p) tree = Impl.Const.modify peer change tree := by
  induction tree with
  | leaf => rfl
  | inner size name value left right ihl ihr =>
    unfold Impl.Const.get? at h
    unfold Impl.Const.modify
    revert h
    cases compare peer name with
    | lt => exact fun h => congrArg (Impl.inner size name value · right) (ihl h)
    | gt => exact fun h => congrArg (Impl.inner size name value left) (ihr h)
    | eq => exact fun h => by rw [Option.some.inj h]

theorem modify_eq_of_get? {change : PeerProgress → PeerProgress} {p : PeerProgress}
    (h : progress.get? peer = some p) :
    (progress.peers.modify peer fun _ => change p) = progress.peers.modify peer change := by
  simp only [Std.TreeMap.modify, Std.DTreeMap.Const.modify, modify_eq_of_tree_get? h]

theorem checkedNote_eq {change : PeerProgress → PeerProgress}
    {checked : PeerProgress → Checked PeerProgress}
    (h : ∀ p, progress.get? peer = some p → checked p = .ok (change p)) :
    progress.checkedNote peer checked =
      .ok (if progress.contains peer then some ⟨progress.peers.modify peer change⟩ else none) := by
  unfold checkedNote
  cases hrecord : progress.get? peer with
  | none =>
    have hunknown : progress.contains peer = false := by
      rw [contains, Std.TreeMap.contains_eq_isSome_getElem?]
      exact congrArg Option.isSome hrecord
    rw [hunknown]
    rfl
  | some p =>
    have hknown : progress.contains peer = true := by
      rw [contains, Std.TreeMap.contains_eq_isSome_getElem?]
      exact congrArg Option.isSome hrecord
    simp only [h p hrecord, Checked.ok_bind, Checked.pure_eq, hknown, if_true,
      modify_eq_of_get? hrecord]

end Progress

end RaftReplica

import RaftReplica.Proofs.Json.Number
import RaftReplica.Proofs.Number.Radix
import RaftReplica.Proofs.Wire.Varint
import RaftReplica.Sequence

/-!
# Checkpoints of a sequence

A sequence that is written down and taken up again goes on as if nothing had happened, whichever form it is
written in and however often.

* `restore_eq`: what a sequence is written down as gives the sequence back, in each of the three forms.
* `runScript_eq`: a script issues what as many calls for the next number issue without its checkpoints.
* `checkpoints_undisturbing` says which numbers those are, across the largest word as well.
-/

namespace RaftReplica.Sequence

/-- What a sequence can be written down as. -/
inductive Form where
  | binary
  | text
  | json
deriving DecidableEq, Repr

/-- Writes the sequence down and takes it up again. -/
def restore (s : Sequence) : Form → Except SequenceError Sequence
  | .binary => ofBinary s.toBinary
  | .text => ofText s.toText
  | .json => ofJson s.toJson

/-- What is done with a sequence: a number is asked for, or it goes on from what it is written down as. -/
inductive Action where
  | next
  | checkpoint (form : Form)
deriving DecidableEq, Repr

/-- The numbers that a script issues, and the sequence after it. -/
def runScript (s : Sequence) : List Action → Except SequenceError (List UInt64 × Sequence)
  | [] => .ok ([], s)
  | .next :: script => do
    let (issued, s) := s.next
    let (rest, s) ← s.runScript script
    return (issued :: rest, s)
  | .checkpoint form :: script => do
    let s ← s.restore form
    s.runScript script

theorem toNat_le_wordMax (n : UInt64) : n.toNat ≤ wordMax := Nat.le_pred_of_lt n.toNat_lt

theorem start_toUInt64 (s : Sequence) : start s.current.toNat.toUInt64 = s := by
  rw [start, Nat.toUInt64_eq, UInt64.ofNat_toNat]

/-! ## The forms -/

theorem ofBinary_toBinary (s : Sequence) : ofBinary s.toBinary = .ok s := by
  have hdecode := (Varint.writes_encode (toNat_le_wordMax s.current)).decode_append []
  rw [List.append_nil] at hdecode
  rw [ofBinary, toBinary, hdecode]
  exact congrArg Except.ok (start_toUInt64 s)

theorem ofText_toText (s : Sequence) : ofText s.toText = .ok s := by
  rw [ofText, toText, String.toList_ofList, Radix.read_digits (toNat_le_wordMax s.current)]
  exact congrArg Except.ok (start_toUInt64 s)

theorem ofJson_toJson (s : Sequence) : ofJson s.toJson = .ok s := by
  have hread := Json.natUpTo?_decimalDigits (toNat_le_wordMax s.current) Json.endsNumber_nil
  rw [List.append_nil] at hread
  rw [ofJson, toJson, hread]
  exact congrArg Except.ok (start_toUInt64 s)

/-- In every form a sequence is taken up where it was written down. -/
theorem restore_eq (s : Sequence) (form : Form) : s.restore form = .ok s := by
  cases form with
  | binary => exact ofBinary_toBinary s
  | text => exact ofText_toText s
  | json => exact ofJson_toJson s

/-! ## Scripts -/

/-- A script issues as many numbers as are asked for, whatever checkpoints are between. -/
theorem runScript_eq (s : Sequence) (script : List Action) :
    s.runScript script = .ok (s.take (script.count .next)) := by
  induction script generalizing s with
  | nil => rfl
  | cons action script ih =>
    cases action with
    | next =>
      simp only [List.count_cons_self, runScript, next, ih]
      rfl
    | checkpoint form =>
      rw [List.count_cons_of_ne (by simp), runScript, restore_eq]
      exact ih s

/-- The numbers after the start, one by one, from zero again after the largest word. -/
theorem toNat_take (count : Nat) (first : UInt64) :
    ((start first).take count).1.map UInt64.toNat =
      (List.range count).map fun i => (first.toNat + i + 1) % 2 ^ 64 := by
  induction count generalizing first with
  | zero => rfl
  | succ count ih =>
    have hnext : ((start first).take (count + 1)).1 = (first + 1) :: ((start (first + 1)).take count).1 := rfl
    rw [hnext, List.map_cons, ih, List.range_succ_eq_map, List.map_cons, List.map_map, List.cons.injEq]
    refine ⟨UInt64.toNat_add first 1, List.map_congr_left fun i _ => ?_⟩
    simp only [Function.comp_apply, UInt64.toNat_add, UInt64.toNat_one]
    omega

/-- However a script mixes calls for the next number with checkpoints, every checkpoint is taken up, and the
script issues the numbers after the start one by one, as if it had no checkpoints. -/
theorem checkpoints_undisturbing (first : UInt64) (script : List Action) :
    (start first).runScript script = .ok ((start first).take (script.count .next)) ∧
      ((start first).take (script.count .next)).1.map UInt64.toNat =
        (List.range (script.count .next)).map fun i => (first.toNat + i + 1) % 2 ^ 64 :=
  ⟨runScript_eq (start first) script, toNat_take (script.count .next) first⟩

end RaftReplica.Sequence

import Mathlib.Data.List.Basic
import Mathlib.Data.List.Pairwise
import RaftReplica.Wire.Record

/-!
# Records in another order

A reader folds the records of a message into it, one after the other.  Records of different fields change
different parts of the message, so only the order within a field counts, and records of fields that the
message does not declare count for nothing.

* `FieldWise` says so of the function that merges a record into a message.
* `FieldWise.foldlM_congr`: the outcome depends only on what the records are field by field.
* `Rearranged` says how the records of a message may be moved about and mixed with others, and
  `FieldWise.foldlM_rearranged` that this does not change what is read.
* `Reader` is how one field is read and what it sets; readers that set different parts of a message merge
  field by field, by `Reader.fieldWise`.
-/

namespace RaftReplica.Wire

variable {α : Type} {merge : α → Record → Option α} {declared repeated : List Nat}

/-- Records of undeclared fields are passed over, and two records of different fields may be merged in either
order. -/
structure FieldWise (declared : List Nat) (merge : α → Record → Option α) : Prop where
  ignores : ∀ message record, record.field ∉ declared → merge message record = some message
  commutes : ∀ message (a b : Record), a.field ≠ b.field →
    (merge message a >>= (merge · b)) = (merge message b >>= (merge · a))

/-- The records that a message is written in, moved about and mixed with records of undeclared fields.  The
records of a field that may be repeated keep their order. -/
structure Rearranged (declared repeated : List Nat) (records arranged : List Record) : Prop where
  permuted : (arranged.filter (·.field ∈ declared)).Perm records
  inOrder : ∀ field ∈ repeated,
    arranged.filter (·.field = field) = records.filter (·.field = field)

namespace FieldWise

/-- A record may be merged ahead of others as long as none of them is of its field. -/
theorem foldlM_move (h : FieldWise declared merge) {record : Record} {before : List Record}
    (hbefore : ∀ other ∈ before, other.field ≠ record.field) (after : List Record) (message : α) :
    (before ++ record :: after).foldlM merge message =
      (record :: (before ++ after)).foldlM merge message := by
  induction before generalizing message with
  | nil => rfl
  | cons other before ih =>
    obtain ⟨hother, hbefore⟩ := List.forall_mem_cons.mp hbefore
    simp only [List.cons_append, List.foldlM_cons]
    calc (merge message other >>= (before ++ record :: after).foldlM merge)
        = merge message other >>= fun message =>
            merge message record >>= (before ++ after).foldlM merge := by
          simp only [ih hbefore, List.foldlM_cons]
      _ = merge message record >>= fun message =>
            merge message other >>= (before ++ after).foldlM merge := by
          rw [← bind_assoc, h.commutes message other record hother, bind_assoc]

/-- What is read depends only on the records of each field. -/
theorem foldlM_congr (h : FieldWise declared merge) {records others : List Record}
    (hfields : ∀ field, records.filter (·.field = field) = others.filter (·.field = field)) (message : α) :
    records.foldlM merge message = others.foldlM merge message := by
  induction records generalizing others message with
  | nil =>
    cases others with
    | nil => rfl
    | cons other others => exact absurd (hfields other.field) (by simp)
  | cons record records ih =>
    -- the first record of a field comes behind records of other fields only
    have hfirst : others.filter (·.field = record.field) =
        record :: records.filter (·.field = record.field) := by
      rw [← hfields, List.filter_cons_of_pos (by simp)]
    obtain ⟨before, after, rfl, hbefore, hmine, hafter⟩ := List.filter_eq_cons_iff.mp hfirst
    have hne : ∀ other ∈ before, other.field ≠ record.field :=
      fun other hmem heq => hbefore other hmem (decide_eq_true heq)
    rw [h.foldlM_move hne, List.foldlM_cons, List.foldlM_cons]
    congr 1
    funext message
    refine ih (fun field => ?_) message
    have hfield := hfields field
    rw [List.filter_append] at hfield ⊢
    by_cases heq : record.field = field
    · subst heq
      rw [← hafter, List.filter_eq_nil_iff.mpr hbefore, List.nil_append]
    · rwa [List.filter_cons_of_neg (by simpa using heq), List.filter_cons_of_neg (by simpa using heq)]
        at hfield

theorem foldlM_filter_declared (h : FieldWise declared merge) (records : List Record) (message : α) :
    (records.filter (·.field ∈ declared)).foldlM merge message = records.foldlM merge message := by
  induction records generalizing message with
  | nil => rfl
  | cons record records ih =>
    by_cases hdeclared : record.field ∈ declared
    · rw [List.filter_cons_of_pos (by simpa using hdeclared), List.foldlM_cons, List.foldlM_cons]
      simp only [ih]
    · rw [List.filter_cons_of_neg (by simpa using hdeclared), ih, List.foldlM_cons,
        h.ignores message record hdeclared]
      rfl

end FieldWise

/-- At most one record is of the same field. -/
def AtMostOne (records : List Record) (field : Nat) : Prop :=
  (records.filter (·.field = field)).length ≤ 1

/-- As long as only the fields that may be repeated are, every field keeps its records and their order. -/
theorem Rearranged.filter_eq {records arranged : List Record}
    (h : Rearranged declared repeated records arranged)
    (hrepeated : ∀ field ∈ repeated, field ∈ declared)
    (honce : ∀ field, field ∉ repeated → AtMostOne records field) (field : Nat) :
    (arranged.filter (·.field ∈ declared)).filter (·.field = field) =
      records.filter (·.field = field) := by
  by_cases hfield : field ∈ repeated
  · rw [← h.inOrder field hfield, List.filter_filter]
    refine List.filter_congr fun record _ => ?_
    by_cases heq : record.field = field
    · simp [heq, hrepeated field hfield]
    · simp [heq]
  · have hperm := h.permuted.filter (·.field = field)
    obtain hnone | hone := Nat.le_one_iff_eq_zero_or_eq_one.mp (honce field hfield)
    · rw [List.length_eq_zero_iff.mp hnone] at hperm ⊢
      exact hperm.eq_nil
    · obtain ⟨record, hrecord⟩ := List.length_eq_one_iff.mp hone
      rw [hrecord] at hperm ⊢
      exact hperm.eq_singleton

/-- Records that are moved about and mixed with others are read as they were. -/
theorem FieldWise.foldlM_rearranged (h : FieldWise declared merge) {records arranged : List Record}
    (hrepeated : ∀ field ∈ repeated, field ∈ declared)
    (honce : ∀ field, field ∉ repeated → AtMostOne records field)
    (harranged : Rearranged declared repeated records arranged) (message : α) :
    arranged.foldlM merge message = records.foldlM merge message := by
  rw [← h.foldlM_filter_declared arranged]
  exact h.foldlM_congr (harranged.filter_eq hrepeated honce) message

/-! ## Readers of single fields -/

/-- How the payload of a field is read, and what the value that is read sets in a message. -/
structure Reader (α : Type) where
  field : Nat
  Value : Type
  read : Payload → Option Value
  set : Value → α → α

namespace Reader

/-- The readers set different parts of a message. -/
def Independent (a b : Reader α) : Prop := ∀ x y, a.set x ∘ b.set y = b.set y ∘ a.set x

instance : Std.Symm (@Independent α) := ⟨fun _ _ h x y => (h y x).symm⟩

/-- The record is read by the reader of its field; one that has none is passed over. -/
def mergeWith (readers : List (Reader α)) (message : α) (record : Record) : Option α :=
  match readers.find? (record.field = ·.field) with
  | some reader => (reader.read record.payload).map fun value => reader.set value message
  | none => some message

theorem field_of_find? {readers : List (Reader α)} {reader : Reader α} {field : Nat}
    (h : readers.find? (field = ·.field) = some reader) : field = reader.field := by
  simpa using List.find?_some h

theorem fieldWise {readers : List (Reader α)} (h : readers.Pairwise Independent) :
    FieldWise (readers.map (·.field)) (mergeWith readers) where
  ignores message record hfield := by
    have hnone : readers.find? (record.field = ·.field) = none := by
      refine List.find?_eq_none.mpr fun reader hmem heq => hfield ?_
      exact List.mem_map.mpr ⟨reader, hmem, (by simpa using heq : record.field = reader.field).symm⟩
    rw [mergeWith, hnone]
  commutes message a b hne := by
    simp only [mergeWith]
    cases ha : readers.find? (a.field = ·.field) with
    | none => cases readers.find? (b.field = ·.field) <;> simp
    | some first =>
      cases hb : readers.find? (b.field = ·.field) with
      | none => simp
      | some second =>
        have hreaders : first ≠ second := fun heq =>
          hne (by rw [field_of_find? ha, field_of_find? hb, heq])
        have hset := h.forall (List.mem_of_find?_eq_some ha) (List.mem_of_find?_eq_some hb) hreaders
        cases hx : first.read a.payload with
        | none => cases hy : second.read b.payload <;> simp [hx, hy]
        | some x =>
          cases hy : second.read b.payload with
          | none => simp [hx, hy]
          | some y => simpa [hx, hy] using (congrFun (hset x y) message).symm

end Reader

end RaftReplica.Wire

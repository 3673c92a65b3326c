import RaftReplica.Bytes

/-!
# The UTF-8 form of a text is read back

A text goes over into a list of bytes by way of an array of bytes.  The list has the same bytes in the same
order, so that the text can be taken up from it again.

* `text?_ofText`: the UTF-8 form of a text gives the text back.
* `ofText_eq_nil_iff`: only the empty text has an empty form, so that leaving empty texts out loses nothing.
-/

namespace RaftReplica.Bytes

/-- What is still to be listed of an array of bytes comes behind what has been listed. -/
theorem toList_loop_eq (bytes : ByteArray) (i : Nat) (listed : List UInt8) :
    ByteArray.toList.loop bytes i listed = listed.reverse ++ bytes.data.toList.drop i := by
  fun_induction ByteArray.toList.loop bytes i listed with
  | case1 i listed hi ih =>
    have hlength : i < bytes.data.toList.length := by simpa using hi
    rw [ih, List.drop_eq_getElem_cons hlength]
    simp [ByteArray.get!, hi]
  | case2 i listed hi =>
    rw [List.drop_eq_nil_of_le (by simpa using Nat.le_of_not_lt hi), List.append_nil]

theorem toList_eq_data_toList (bytes : ByteArray) : bytes.toList = bytes.data.toList := by
  rw [ByteArray.toList, toList_loop_eq, List.drop_zero, List.reverse_nil, List.nil_append]

theorem length_ofText (text : String) : (ofText text).length = text.utf8ByteSize := by
  rw [ofText, toList_eq_data_toList, Array.length_toList]
  rfl

/-- The UTF-8 form of a text gives the text back. -/
theorem text?_ofText (text : String) : (ofText text).text? = some text := by
  have harray : (⟨(ofText text).toArray⟩ : ByteArray) = text.toUTF8 := by
    rw [ofText, toList_eq_data_toList]
  rw [text?, harray]
  exact dif_pos text.isValidUTF8

theorem ofText_empty : ofText "" = [] := by
  rw [ofText, toList_eq_data_toList]
  rfl

theorem ofText_eq_nil_iff {text : String} : ofText text = [] ↔ text = "" := by
  refine ⟨fun h => ?_, fun h => h ▸ ofText_empty⟩
  exact Option.some.inj (by rw [← text?_ofText text, h, ← ofText_empty, text?_ofText])

end RaftReplica.Bytes

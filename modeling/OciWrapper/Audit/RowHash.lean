import OciWrapper.Audit.AuditTrailManager
import OciWrapper.Text.Separated

namespace OciWrapper.Audit

open OciWrapper.Text

/-- What `audit_trail_build_row_hash` is given of an audit row. -/
structure HashedRow where
  tableName : CString
  recordId : CString
  fieldName : CString
  actionType : CString
  newValue : CString
  changedBy : CString
  transactionId : CString
  deriving DecidableEq

def HashedRow.parts (row : HashedRow) : List CString :=
  [row.tableName, row.recordId, row.fieldName, row.actionType, row.newValue, row.changedBy,
    row.transactionId]

/-- `concat`: what is hashed of the row. -/
def HashedRow.concat (row : HashedRow) : CString :=
  (['|'].intercalate row.parts).take hashTextMax

theorem HashedRow.rowHash_eq (row : HashedRow) :
    auditTrailBuildRowHash row.parts = hex16 (auditFnv1a64 row.concat).toNat := rfl

theorem HashedRow.parts_injective {row other : HashedRow} (same : row.parts = other.parts) :
    row = other := by
  cases row
  cases other
  simp_all [parts]

theorem HashedRow.exists_parts {parts : List CString} (seven : parts.length = 7) :
    ∃ row : HashedRow, row.parts = parts := by
  match parts, seven with
  | [tableName, recordId, fieldName, actionType, newValue, changedBy, transactionId], _ =>
    exact ⟨⟨tableName, recordId, fieldName, actionType, newValue, changedBy, transactionId⟩, rfl⟩

/-- A text cut at the end of the buffer is followed by a byte that is not hashed. -/
theorem HashedRow.exists_longer (row : HashedRow)
    (full : hashTextMax ≤ (['|'].intercalate row.parts).length) :
    ∃ other : HashedRow, other ≠ row ∧ other.concat = row.concat := by
  refine ⟨{ row with transactionId := row.transactionId ++ ['+'] }, ?_, ?_⟩
  · intro same
    have lengths := congrArg (fun row => row.transactionId.length) same
    simp at lengths
  · have longer : ['|'].intercalate
        ({ row with transactionId := row.transactionId ++ ['+'] } : HashedRow).parts =
        ['|'].intercalate row.parts ++ ['+'] := by
      simp [parts, List.intercalate_cons_cons]
    rw [concat, longer, List.take_append_of_le_length full, concat]

/-- No other audit row is hashed by the same bytes exactly when no field holds the separator and
the fields fit the buffer. -/
theorem HashedRow.concat_unique_iff (row : HashedRow) :
    (∀ other : HashedRow, other.concat = row.concat → other = row) ↔
      (∀ part ∈ row.parts, '|' ∉ part) ∧ (['|'].intercalate row.parts).length < hashTextMax := by
  have pieces : (∀ other, other.length = row.parts.length →
      ['|'].intercalate other = ['|'].intercalate row.parts → other = row.parts) ↔
      ∀ part ∈ row.parts, '|' ∉ part := pieces_unique_iff (by simp)
  constructor
  · intro unique
    have short : (['|'].intercalate row.parts).length < hashTextMax := by
      by_contra full
      obtain ⟨other, different, same⟩ := row.exists_longer (Nat.le_of_not_lt full)
      exact different (unique other same)
    refine ⟨pieces.mp ?_, short⟩
    intro other seven joined
    obtain ⟨row', rfl⟩ := exists_parts seven
    have same : row'.concat = row.concat := by
      rw [concat, joined, concat]
    rw [unique row' same]
  · intro ⟨free, short⟩ other same
    have whole : row.concat = ['|'].intercalate row.parts := List.take_of_length_le (by omega)
    have cut : other.concat.length < hashTextMax := by rw [same, whole]; exact short
    have uncut : other.concat = ['|'].intercalate other.parts := by
      rw [concat, List.length_take] at cut
      exact List.take_of_length_le (by omega)
    rw [whole, uncut] at same
    exact parts_injective (pieces.mpr free other.parts rfl same)

/-- A record named after its table and number, and the table named so. -/
theorem HashedRow.shifted_rows_share_concat :
    let row : HashedRow := ⟨"T".toList, "1|2".toList, "F".toList, "INSERT".toList, "V".toList,
      "U".toList, "X".toList⟩
    let other : HashedRow := ⟨"T|1".toList, "2".toList, "F".toList, "INSERT".toList, "V".toList,
      "U".toList, "X".toList⟩
    other ≠ row ∧ other.concat = row.concat := by
  decide

end OciWrapper.Audit

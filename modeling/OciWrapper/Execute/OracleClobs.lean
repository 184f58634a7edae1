import OciWrapper.Core.XmlHelper
import OciWrapper.Text.Utf8

namespace OciWrapper.Execute

open OciWrapper.Text OciWrapper.Core

def ub4 (n : Nat) : Nat := n % 2 ^ 32

theorem ub4_of_lt {n : Nat} (small : n < 2 ^ 32) : ub4 n = n := Nat.mod_eq_of_lt small

/-- The text `strncpy` leaves in a zeroed array of `size` bytes. -/
def strncpyField (size : Nat) (bytes : CString) : CString :=
  (bytes.takeWhile (· ≠ '\x00')).take (size - 1)

/-- `resultset_set_field` on a field of a fresh row. -/
def resultsetSetField (fieldName fieldType value : CString) : ResultField :=
  ⟨strncpyField 128 fieldName, strncpyField 32 fieldType, strncpyField 4096 value⟩

theorem strncpyField_eq_self_iff (size : Nat) (bytes : CString) :
    strncpyField size bytes = bytes ↔ bytes.length ≤ size - 1 ∧ '\x00' ∉ bytes := by
  rw [strncpyField]
  constructor
  · intro whole
    have short := congrArg List.length whole
    have first := (List.takeWhile_prefix (· ≠ '\x00') (l := bytes)).length_le
    rw [List.length_take] at short
    have all : bytes.takeWhile (· ≠ '\x00') = bytes :=
      (List.takeWhile_prefix _).eq_of_length (by omega)
    refine ⟨by omega, fun member => ?_⟩
    have plain := List.mem_takeWhile_imp (all.symm ▸ member)
    simp at plain
  · rintro ⟨short, plain⟩
    have all : bytes.takeWhile (· ≠ '\x00') = bytes :=
      List.takeWhile_eq_self_iff.mpr fun c member => by
        have other : c ≠ '\x00' := fun same => plain (same ▸ member)
        simp [other]
    rw [all, List.take_of_length_le short]

/-- What `OCILobRead` put into a buffer of `bufl` bytes; the returned amount is their number. -/
structure LobPiece (bufl : Nat) where
  bytes : CString
  fits : bytes.length ≤ bufl

/-- The LOB calls, each on a CLOB of these characters. `none` is any status besides
`OCI_SUCCESS` and `OCI_SUCCESS_WITH_INFO`. -/
structure OciLobs where
  getLength : List Char → Option (Fin (2 ^ 32))
  charSetForm : List Char → Bool
  read : List Char → (amount offset bufl : Nat) → Option (LobPiece bufl)
  write : List Char → (offset : Nat) → CString → Option (List Char)

/-- The characters written from position `start` on, the gap before them filled with blanks. -/
def overlay (clob : List Char) (start : Nat) (chars : List Char) : List Char :=
  (clob ++ List.replicate (start - clob.length) ' ').take start ++ chars ++
    clob.drop (start + chars.length)

/-- OCI with a UTF-8 client character set. Offsets count characters from 1. -/
structure OciLobs.Documented (oci : OciLobs) : Prop where
  length_exact : ∀ clob count, oci.getLength clob = some count → count.val = clob.length
  length_known : ∀ clob, clob.length < 2 ^ 32 → (oci.getLength clob).isSome
  form_known : ∀ clob, oci.charSetForm clob = true
  read_fits : ∀ clob amount start bufl, 0 < amount → start < clob.length →
    (utf8 ((clob.drop start).take amount)).length ≤ bufl →
      (oci.read clob amount (start + 1) bufl).map LobPiece.bytes =
        some (utf8 ((clob.drop start).take amount))
  -- `OCI_NEED_DATA`: the amount asked for comes in more than one piece
  read_needs_data : ∀ clob amount start bufl,
    bufl < (utf8 ((clob.drop start).take amount)).length →
      oci.read clob amount (start + 1) bufl = none
  write_decodes : ∀ clob start chars, chars ≠ [] →
    oci.write clob (start + 1) (utf8 chars) = some (overlay clob start chars)

section Loops

variable (oci : OciLobs) (chunkReadSize : Nat)

/-- The loop of the CLOB branch; `offset` starts at 1 and the bytes still to write are `rest`. -/
def clobWriteLoop (positive : 0 < chunkReadSize) (clob : List Char) (offset : Nat)
    (rest : CString) : Option (List Char) :=
  if _ : rest = [] then some clob
  else
    let chunk := min chunkReadSize rest.length
    match oci.write clob offset (rest.take (ub4 chunk)) with
    | none => none
    | some clob' => clobWriteLoop positive clob' (ub4 (offset + ub4 chunk)) (rest.drop chunk)
termination_by rest.length
decreasing_by
  have some_left := List.length_pos_iff.mpr ‹rest ≠ []›
  rw [List.length_drop]
  omega

/-- `oracle_lob_write_by_rowid` for a CLOB: its new characters and `out_bytes_written`. -/
def oracleLobWriteByRowid (positive : 0 < chunkReadSize) (clob : List Char)
    (inlineText : CString) : Option (List Char × Nat) :=
  if inlineText = [] then some (clob, 0)
  else (clobWriteLoop oci chunkReadSize positive clob 1 inlineText).map (·, inlineText.length)

/-- The loop of `oracle_fetch_clob_field`; `buf` holds the bytes before `write_ptr`. -/
def clobReadLoop (clob : List Char) (offset remaining : Nat) (buf : CString) : Option CString :=
  if _ : remaining = 0 then some buf
  else
    let chunk := min (ub4 chunkReadSize) remaining
    match oci.read clob chunk offset chunk with
    | none => none
    | some piece =>
      if _ : piece.bytes = [] then none
      else clobReadLoop clob (ub4 (offset + piece.bytes.length))
        (remaining - piece.bytes.length) (buf ++ piece.bytes)
termination_by remaining
decreasing_by
  have some_read := List.length_pos_iff.mpr ‹piece.bytes ≠ []›
  omega

/-- The bytes of `clob_buf`. `lob_len + 1` wraps to 0 for the longest length, and the buffer then
holds no byte. -/
def oracleReadClob (clob : List Char) : Option CString :=
  match oci.getLength clob with
  | none => none
  | some lobLen =>
    if oci.charSetForm clob = false then none
    else if lobLen.val = 0 then some []
    else if ub4 (lobLen.val + 1) = 0 then none
    else clobReadLoop oci chunkReadSize clob 1 lobLen.val []

/-- The field, the file written beside it and `out_bytes`. -/
structure FetchedField where
  field : ResultField
  file : Option CString
  outBytes : Nat

/-- The text delivered for a CLOB: in its file, or in the field where there is none. -/
def FetchedField.text (fetched : FetchedField) : CString := fetched.file.getD fetched.field.value

/-- What a fetch does with the text of a CLOB once it is read: `ms_clob_field`, and the end of
`oracle_fetch_clob_field`. -/
def clobField (textLobsInline fileWritten : Bool) (colName clobUrl text : CString) :
    Option FetchedField :=
  let set := resultsetSetField colName "CLOB".toList
  if text = [] then some ⟨set [], none, 0⟩
  else if textLobsInline then
    if 4095 < text.length then none else some ⟨set text, none, text.length⟩
  else if fileWritten then some ⟨set clobUrl, some text, text.length⟩
  else some ⟨set text, none, text.length⟩

/-- `oracle_fetch_clob_field`; `none` for the CLOB is indicator -1. -/
def oracleFetchClobField (textLobsInline fileWritten : Bool) (colName clobUrl : CString) :
    Option (List Char) → Option FetchedField
  | none => some ⟨resultsetSetField colName "CLOB".toList [], none, 0⟩
  | some clob => (oracleReadClob oci chunkReadSize clob).bind
      (clobField textLobsInline fileWritten colName clobUrl)

end Loops

section Ascii

variable {oci : OciLobs} {chunkReadSize : Nat}

theorem overlay_end (clob chars : List Char) : overlay clob clob.length chars = clob ++ chars := by
  simp [overlay]

theorem clobWriteLoop_ascii (documented : oci.Documented) (positive : 0 < chunkReadSize)
    {clob rest : List Char} (plain : Ascii rest) (bound : clob.length + rest.length + 1 < 2 ^ 32) :
    clobWriteLoop oci chunkReadSize positive clob (clob.length + 1) rest = some (clob ++ rest) := by
  induction left : rest.length using Nat.strong_induction_on generalizing clob rest with
  | _ left ih =>
    rw [clobWriteLoop]
    by_cases done : rest = []
    · simp [done]
    · have some_left := List.length_pos_iff.mpr done
      have chunk := ub4_of_lt (n := min chunkReadSize rest.length) (by omega)
      have count : (rest.take (min chunkReadSize rest.length)).length =
          min chunkReadSize rest.length := by
        rw [List.length_take]
        omega
      have first : rest.take (min chunkReadSize rest.length) ≠ [] := by
        rw [← List.length_pos_iff, count]
        omega
      have stored := documented.write_decodes clob clob.length _ first
      rw [utf8_ascii fun c member => plain c (List.mem_of_mem_take member), overlay_end] at stored
      have fewer : (rest.drop (min chunkReadSize rest.length)).length < rest.length := by
        rw [List.length_drop]
        omega
      have later : Ascii (rest.drop (min chunkReadSize rest.length)) :=
        fun c member => plain c (List.mem_of_mem_drop member)
      have below : (clob ++ rest.take (min chunkReadSize rest.length)).length +
          (rest.drop (min chunkReadSize rest.length)).length + 1 < 2 ^ 32 := by
        rw [List.length_append, count, List.length_drop]
        omega
      have rest_of := ih _ (left ▸ fewer) later below rfl
      rw [List.length_append, count, List.append_assoc, List.take_append_drop] at rest_of
      simp only [done, dite_false, chunk, stored]
      rw [ub4_of_lt (by omega), Nat.add_right_comm, rest_of]

/-- Chunks of as many characters as the buffer has bytes come only where each takes one byte. -/
theorem read_chunk (documented : oci.Documented) {clob : List Char} {start chunk : Nat}
    (some_asked : 0 < chunk) (inside : start + chunk ≤ clob.length) :
    (∀ piece, oci.read clob chunk (start + 1) chunk = some piece →
      piece.bytes = (clob.drop start).take chunk ∧ Ascii ((clob.drop start).take chunk)) ∧
    (Ascii ((clob.drop start).take chunk) →
      (oci.read clob chunk (start + 1) chunk).map LobPiece.bytes =
        some ((clob.drop start).take chunk)) := by
  have count : ((clob.drop start).take chunk).length = chunk := by
    rw [List.length_take, List.length_drop]
    omega
  have fits := documented.read_fits clob chunk start chunk some_asked (by omega)
  constructor
  · intro piece read
    have room : (utf8 ((clob.drop start).take chunk)).length ≤ chunk := by
      by_contra more
      rw [documented.read_needs_data clob chunk start chunk (by omega)] at read
      cases read
    have plain := ascii_of_length (room.trans_eq count.symm)
    have bytes := fits room
    rw [read, Option.map_some, Option.some.injEq, utf8_ascii plain] at bytes
    exact ⟨bytes, plain⟩
  · intro plain
    rw [utf8_ascii plain] at fits
    exact fits count.le

theorem clobReadLoop_eq_some_iff (documented : oci.Documented) {clob : List Char}
    (bound : clob.length + 1 < 2 ^ 32) {start remaining : Nat} {buf out : CString}
    (whole : start + remaining = clob.length) :
    clobReadLoop oci chunkReadSize clob (start + 1) remaining buf = some out ↔
      out = buf ++ clob.drop start ∧ Ascii (clob.drop start) ∧
        (remaining ≠ 0 → ub4 chunkReadSize ≠ 0) := by
  induction remaining using Nat.strong_induction_on generalizing start buf with
  | _ remaining ih =>
    rw [clobReadLoop]
    by_cases done : remaining = 0
    · have empty : clob.drop start = [] := List.drop_eq_nil_of_le (by omega)
      simp [done, empty, Ascii, eq_comm]
    · simp only [done, dite_false]
      by_cases zero : ub4 chunkReadSize = 0
      · have chunk : min (ub4 chunkReadSize) remaining = 0 := by omega
        rw [chunk]
        constructor
        · intro read
          split at read
          · cases read
          · rename_i piece _
            have nothing := List.length_eq_zero_iff.mp (Nat.le_zero.mp piece.fits)
            simp [nothing] at read
        · rintro ⟨-, -, sized⟩
          exact absurd zero (sized done)
      · generalize size : min (ub4 chunkReadSize) remaining = chunk
        have some_asked : 0 < chunk := by omega
        obtain ⟨given, served⟩ := read_chunk documented some_asked
          (show start + chunk ≤ clob.length by omega)
        have split_text : (clob.drop start).take chunk ++ clob.drop (start + chunk) =
            clob.drop start := by
          rw [← List.drop_drop, List.take_append_drop]
        cases read : oci.read clob chunk (start + 1) chunk with
        | none =>
          constructor
          · intro impossible
            cases impossible
          · rintro ⟨-, plain, -⟩
            have answer := served fun c member => plain c (List.mem_of_mem_take member)
            rw [read] at answer
            cases answer
        | some piece =>
          obtain ⟨bytes, plain⟩ := given piece read
          have count : piece.bytes.length = chunk := by
            rw [bytes, List.length_take, List.length_drop]
            omega
          have filled : piece.bytes ≠ [] := by
            rw [← List.length_pos_iff, count]
            exact some_asked
          have rest : clobReadLoop oci chunkReadSize clob (start + chunk + 1) (remaining - chunk)
              (buf ++ piece.bytes) = some out ↔ _ := ih (remaining - chunk) (by omega) (by omega)
          simp only [filled, dite_false, count]
          rw [ub4_of_lt (by omega), Nat.add_right_comm, rest, bytes, List.append_assoc, split_text]
          have more : Ascii (clob.drop start) ↔ Ascii (clob.drop (start + chunk)) := by
            rw [← split_text, ascii_append]
            exact ⟨And.right, fun later => ⟨plain, later⟩⟩
          simp [more, zero]

theorem oracleReadClob_eq_some_iff (documented : oci.Documented) {clob : List Char}
    {out : CString} :
    oracleReadClob oci chunkReadSize clob = some out ↔
      out = clob ∧ Ascii clob ∧ clob.length + 1 < 2 ^ 32 ∧
        (clob ≠ [] → ub4 chunkReadSize ≠ 0) := by
  rw [oracleReadClob]
  cases known : oci.getLength clob with
  | none =>
    have long := fun small => documented.length_known clob small
    rw [known] at long
    simp only [Option.isSome_none, Bool.false_eq_true] at long
    constructor
    · intro impossible
      cases impossible
    · rintro ⟨-, -, small, -⟩
      exact (long (by omega)).elim
  | some count =>
    have exact := documented.length_exact clob count known
    have below := count.isLt
    simp only [documented.form_known, Bool.true_eq_false, if_false, exact]
    by_cases empty : clob = []
    · subst empty
      simp [Ascii, eq_comm]
    · have some_left := List.length_pos_iff.mpr empty
      rw [if_neg (by omega)]
      by_cases wraps : ub4 (clob.length + 1) = 0
      · have longest : clob.length + 1 = 2 ^ 32 := by
          rw [ub4] at wraps
          omega
        rw [if_pos wraps]
        constructor
        · intro impossible
          cases impossible
        · rintro ⟨-, -, bound, -⟩
          omega
      · have bound : clob.length + 1 < 2 ^ 32 := by
          rw [ub4] at wraps
          omega
        rw [if_neg wraps, clobReadLoop_eq_some_iff documented bound (Nat.zero_add _)]
        simp only [List.nil_append, List.drop_zero]
        exact ⟨fun ⟨whole, plain, sized⟩ => ⟨whole, plain, bound, fun _ => sized some_left.ne'⟩,
          fun ⟨whole, plain, _, sized⟩ => ⟨whole, plain, fun _ => sized empty⟩⟩

/-- Written into an empty CLOB and read back into a file, the text is the same. -/
def RoundTrips (oci : OciLobs) (chunkReadSize : Nat) (positive : 0 < chunkReadSize)
    (colName clobUrl : CString) (text : List Char) : Prop :=
  ∃ clob written fetched,
    oracleLobWriteByRowid oci chunkReadSize positive [] (utf8 text) = some (clob, written) ∧
    oracleFetchClobField oci chunkReadSize false true colName clobUrl (some clob) = some fetched ∧
    fetched.text = utf8 text

theorem clobField_text {colName clobUrl text : CString} {fetched : FetchedField}
    (placed : clobField false true colName clobUrl text = some fetched) : fetched.text = text := by
  rw [clobField] at placed
  by_cases empty : text = []
  · simp only [empty, if_true, Option.some.injEq] at placed
    subst placed
    rw [empty]
    rfl
  · simp only [empty, if_false, Bool.false_eq_true, if_true, Option.some.injEq] at placed
    subst placed
    rfl

theorem RoundTrips.fits {positive : 0 < chunkReadSize} {colName clobUrl : CString}
    {text : List Char} (documented : oci.Documented)
    (same : RoundTrips oci chunkReadSize positive colName clobUrl text) :
    Ascii text ∧ text.length + 1 < 2 ^ 32 ∧ (text ≠ [] → ub4 chunkReadSize ≠ 0) := by
  obtain ⟨clob, written, fetched, -, fetch, same⟩ := same
  obtain ⟨out, read, placed⟩ := Option.bind_eq_some_iff.mp fetch
  obtain ⟨rfl, plain, short, sized⟩ := (oracleReadClob_eq_some_iff documented).mp read
  rw [clobField_text placed, ← utf8_ascii plain] at same
  rw [← utf8_injective same]
  exact ⟨plain, short, sized⟩

/-- The offsets of both loops count bytes; the two units agree on single-byte characters only. -/
theorem clob_round_trips_iff (documented : oci.Documented) (positive : 0 < chunkReadSize)
    (colName clobUrl : CString) (text : List Char) :
    RoundTrips oci chunkReadSize positive colName clobUrl text ↔
      text = [] ∨ (Ascii text ∧ text.length + 1 < 2 ^ 32 ∧ ub4 chunkReadSize ≠ 0) := by
  constructor
  · intro same
    obtain ⟨plain, short, sized⟩ := same.fits documented
    by_cases empty : text = []
    · exact Or.inl empty
    · exact Or.inr ⟨plain, short, sized empty⟩
  · intro fits
    have plain : Ascii text := by
      rcases fits with rfl | ⟨plain, -, -⟩
      · intro c member
        cases member
      · exact plain
    have short : text.length + 1 < 2 ^ 32 := by
      rcases fits with rfl | ⟨-, short, -⟩
      · decide
      · exact short
    have read : oracleReadClob oci chunkReadSize text = some text :=
      (oracleReadClob_eq_some_iff documented).mpr ⟨rfl, plain, short, fun filled => by
        rcases fits with rfl | ⟨-, -, sized⟩
        · cases filled rfl
        · exact sized⟩
    have write : oracleLobWriteByRowid oci chunkReadSize positive [] (utf8 text) =
        some (text, text.length) := by
      rw [utf8_ascii plain, oracleLobWriteByRowid]
      by_cases empty : text = []
      · simp [empty]
      · have loop : clobWriteLoop oci chunkReadSize positive [] 1 text = some text :=
          clobWriteLoop_ascii documented positive plain (by simpa using short)
        rw [if_neg empty, loop]
        rfl
    have placed : ∃ fetched, clobField false true colName clobUrl text = some fetched := by
      rw [clobField]
      by_cases empty : text = []
      · simp [empty]
      · simp [empty]
    obtain ⟨fetched, placed⟩ := placed
    refine ⟨text, text.length, fetched, write, ?_, ?_⟩
    · rw [oracleFetchClobField, read]
      exact placed
    · rw [clobField_text placed, utf8_ascii plain]

/-- Decodes what is written, and reads no part of what it is asked for. -/
def pollingOci : OciLobs where
  getLength clob := if small : clob.length < 2 ^ 32 then some ⟨clob.length, small⟩ else none
  charSetForm _ := true
  read clob amount offset bufl :=
    let wanted := utf8 ((clob.drop (offset - 1)).take amount)
    if fits : wanted.length ≤ bufl then some ⟨wanted, fits⟩ else none
  write clob offset bytes := (utf8Decode bytes).map (overlay clob (offset - 1))

theorem pollingOci_documented : pollingOci.Documented where
  length_exact clob count known := by
    simp only [pollingOci] at known
    split at known
    · cases known
      rfl
    · cases known
  length_known clob small := by
    simp only [pollingOci, dif_pos small]
    rfl
  form_known _ := rfl
  read_fits clob amount start bufl _ _ fits := by
    simp only [pollingOci, Nat.add_sub_cancel, dif_pos fits]
    rfl
  read_needs_data clob amount start bufl more := by
    simp only [pollingOci, Nat.add_sub_cancel, dif_neg (Nat.not_le.mpr more)]
  write_decodes clob start chars _ := by
    simp only [pollingOci, utf8Decode_utf8, Option.map_some, Nat.add_sub_cancel]

theorem clob_round_trips_hello :
    RoundTrips pollingOci 2 Nat.two_pos [] [] ['h', 'e', 'l', 'l', 'o'] :=
  (clob_round_trips_iff pollingOci_documented Nat.two_pos [] [] ['h', 'e', 'l', 'l', 'o']).mpr
    (Or.inr ⟨by decide, by simp, by simp [ub4]⟩)

/-- One character of two bytes: its CLOB has length 1, and so has the buffer. -/
theorem accent_is_not_read :
    pollingOci.Documented ∧ ¬RoundTrips pollingOci 65536 (by decide) [] [] ['é'] := by
  refine ⟨pollingOci_documented, fun same => ?_⟩
  have plain := (same.fits pollingOci_documented).1 'é' List.mem_cons_self
  revert plain
  decide

end Ascii

end OciWrapper.Execute

import OciWrapper.Text.Utf8Bytes

namespace OciWrapper.Mssql

open OciWrapper.Text

/-- What `mssql_lob_write_by_rowid` writes: `inline_text`, or the file of a BLOB. -/
inductive LobValue
  | text (inlineText : CString)
  | file (content : CString)

def LobValue.bytes : LobValue → CString
  | .text inlineText => inlineText
  | .file content => content

/-- The configuration, and what the driver and the file system answer: for each
`SQL_NEED_DATA` of `SQLParamData` whether it is for parameter 1, how much `fread` can read at a
position, and whether `SQLPutData` succeeds there. -/
structure LobCalls where
  chunkReadSize : Nat
  needData : List Bool
  fread : Nat → Nat
  putData : Nat → Bool

def LobCalls.chunk (calls : LobCalls) : Nat :=
  if calls.chunkReadSize ≠ 0 then calls.chunkReadSize else 65536

/-- `while (e > sent && (inline_text[e] & 0xC0) == 0x80) e--`. -/
def backTo (inlineText : CString) (sent : Nat) : Nat → Nat
  | 0 => 0
  | e + 1 =>
    if sent < e + 1 ∧ isContinuation (inlineText.getD (e + 1) '\x00') = true then
      backTo inlineText sent e
    else e + 1

def wantedSize (calls : LobCalls) (lob : LobValue) (sent : Nat) : Nat :=
  if lob.bytes.length - sent < calls.chunk then lob.bytes.length - sent else calls.chunk

/-- The size of the next piece; a file may end early. -/
def nextPiece (calls : LobCalls) (lob : LobValue) (sent : Nat) : Option Nat :=
  let n := wantedSize calls lob sent
  match lob with
  | .file _ =>
    let got := min n (calls.fread sent)
    if got = 0 then none else some got
  | .text inlineText =>
    if sent + n < inlineText.length then
      let e := backTo inlineText sent (sent + n)
      some (if sent < e then e - sent else n)
    else some n

/-- The pieces given to `SQLPutData`, the bytes in them, and whether all went well. -/
structure LobSent where
  pieces : List CString
  sent : Nat
  succeeded : Bool

/-- `while (sent < total)`. -/
def sendLoop (calls : LobCalls) (lob : LobValue) : Nat → Nat → Option LobSent
  | 0, _ => none
  | fuel + 1, sent =>
    if sent < lob.bytes.length then
      match nextPiece calls lob sent with
      | none => some ⟨[], sent, false⟩
      | some n =>
        if calls.putData sent then
          (sendLoop calls lob fuel (sent + n)).map fun later =>
            { later with pieces := (lob.bytes.drop sent).take n :: later.pieces }
        else some ⟨[], sent, false⟩
    else some ⟨[], sent, true⟩

/-- The loop over `SQLParamData`. -/
def paramDataLoop (calls : LobCalls) (lob : LobValue) : List Bool → Nat → Option LobSent
  | [], sent => some ⟨[], sent, true⟩
  | false :: needData, sent => paramDataLoop calls lob needData sent
  | true :: needData, sent => do
    let first ← sendLoop calls lob (lob.bytes.length + 1) sent
    if first.succeeded then
      let later ← paramDataLoop calls lob needData first.sent
      some { later with pieces := first.pieces ++ later.pieces }
    else some first

/-- The part of `mssql_lob_write_by_rowid` that sends the value. -/
def sendLob (calls : LobCalls) (lob : LobValue) : Option LobSent :=
  if lob.bytes = [] then some ⟨[], 0, true⟩ else paramDataLoop calls lob calls.needData 0

/-- No piece ends inside a character of the text. -/
def EndsBetween (text : List Char) (pieces : List CString) : Prop :=
  ∀ k, AtBoundary text (pieces.take k).flatten.length

section Pieces

variable {calls : LobCalls} {lob : LobValue}

theorem LobCalls.chunk_pos (calls : LobCalls) : 0 < calls.chunk := by
  rw [LobCalls.chunk]
  split <;> omega

theorem backTo_spec (inlineText : CString) (sent : Nat) : ∀ {e : Nat}, sent ≤ e →
    sent ≤ backTo inlineText sent e ∧ backTo inlineText sent e ≤ e ∧
      (sent < backTo inlineText sent e →
        isContinuation (inlineText.getD (backTo inlineText sent e) '\x00') = false) ∧
      ∀ i, backTo inlineText sent e < i → i ≤ e →
        isContinuation (inlineText.getD i '\x00') = true := by
  intro e
  induction e with
  | zero =>
    intro start
    refine ⟨start, Nat.le_refl 0, fun more => absurd more (Nat.not_lt_zero sent), ?_⟩
    intro i above below
    rw [backTo] at above
    omega
  | succ e ih =>
    intro start
    rw [backTo]
    split
    next back =>
      obtain ⟨low, high, stop, skipped⟩ := ih (Nat.le_of_lt_succ back.1)
      refine ⟨low, Nat.le_succ_of_le high, stop, fun i above below => ?_⟩
      rcases Nat.lt_or_eq_of_le below with below | rfl
      · exact skipped i above (Nat.le_of_lt_succ below)
      · exact back.2
    next here =>
      refine ⟨start, Nat.le_refl _, fun more => ?_, fun i above below => ?_⟩
      · rw [not_and, Bool.not_eq_true] at here
        exact here more
      · omega

theorem wantedSize_bounds {sent : Nat} (more : sent < lob.bytes.length) :
    0 < wantedSize calls lob sent ∧ wantedSize calls lob sent ≤ calls.chunk ∧
      sent + wantedSize calls lob sent ≤ lob.bytes.length := by
  have positive := calls.chunk_pos
  rw [wantedSize]
  split <;> omega

theorem wantedSize_cut {sent : Nat} (cut : sent + wantedSize calls lob sent < lob.bytes.length) :
    wantedSize calls lob sent = calls.chunk := by
  rw [wantedSize] at cut ⊢
  split
  next whole =>
    rw [if_pos whole] at cut
    omega
  next => rfl

theorem nextPiece_bounds {sent n : Nat} (more : sent < lob.bytes.length)
    (next : nextPiece calls lob sent = some n) :
    0 < n ∧ n ≤ calls.chunk ∧ sent + n ≤ lob.bytes.length := by
  obtain ⟨positive, chunk, total⟩ := @wantedSize_bounds calls lob sent more
  cases lob with
  | file content =>
    rw [nextPiece] at next
    split at next
    · cases next
    · obtain rfl := Option.some.inj next
      omega
  | text inlineText =>
    rw [nextPiece] at next
    dsimp only at next
    split at next
    next =>
      obtain ⟨low, high, -⟩ := backTo_spec inlineText sent
        (Nat.le_add_right sent (wantedSize calls (.text inlineText) sent))
      obtain rfl := Option.some.inj next
      split <;> omega
    next =>
      obtain rfl := Option.some.inj next
      exact ⟨positive, chunk, total⟩

/-- Between two characters that a chunk can hold there is no way back to the first byte. -/
theorem exists_boundary {text : List Char} {chunk : Nat} (fits : ∀ c ∈ text, c.utf8Size ≤ chunk)
    {sent : Nat} (start : AtBoundary text sent) (cut : sent + chunk < (utf8 text).length) :
    ∃ n, sent < n ∧ n ≤ sent + chunk ∧ AtBoundary text n := by
  obtain ⟨before, after, rfl, rfl⟩ := start
  cases after with
  | nil =>
    rw [List.append_nil] at cut
    omega
  | cons c after =>
    have positive := Char.utf8Size_pos c
    have size := fits c (List.mem_append_right before List.mem_cons_self)
    refine ⟨(utf8 before).length + c.utf8Size, by omega, by omega, before ++ [c], after, ?_, ?_⟩
    · rw [List.append_assoc, List.singleton_append]
    · rw [utf8_append, List.length_append, length_utf8_cons, utf8_nil, List.length_nil,
        Nat.add_zero]

/-- A piece that starts between two characters ends between two, if the chunk can hold one. -/
theorem nextPiece_boundary {text : List Char} (fits : ∀ c ∈ text, c.utf8Size ≤ calls.chunk)
    {sent n : Nat} (more : sent < (utf8 text).length) (start : AtBoundary text sent)
    (next : nextPiece calls (.text (utf8 text)) sent = some n) : AtBoundary text (sent + n) := by
  have continued : ∀ i, i < (utf8 text).length →
      (AtBoundary text i ↔ isContinuation ((utf8 text).getD i '\x00') = false) := by
    intro i inside
    rw [atBoundary_iff inside, List.getD_eq_getElem _ _ inside, List.get_eq_getElem]
  obtain ⟨-, -, total⟩ := @wantedSize_bounds calls (.text (utf8 text)) sent more
  rw [nextPiece] at next
  dsimp only at next
  split at next
  next cut =>
    have size := @wantedSize_cut calls (.text (utf8 text)) sent cut
    rw [size] at cut next
    obtain ⟨low, high, stop, skipped⟩ := backTo_spec (utf8 text) sent
      (Nat.le_add_right sent calls.chunk)
    obtain ⟨last, after, before, boundary⟩ := exists_boundary fits start cut
    have back : last ≤ backTo (utf8 text) sent (sent + calls.chunk) := by
      by_contra above
      have inside := skipped last (Nat.lt_of_not_le above) before
      rw [(continued last (by omega)).mp boundary] at inside
      cases inside
    rw [if_pos (by omega)] at next
    obtain rfl := Option.some.inj next
    rw [Nat.add_sub_cancel' low, continued _ (by omega)]
    exact stop (by omega)
  next whole =>
    obtain rfl := Option.some.inj next
    have full : sent + wantedSize calls (.text (utf8 text)) sent = (utf8 text).length :=
      Nat.le_antisymm total (Nat.le_of_not_lt whole)
    rw [full]
    exact atBoundary_length text

/-- What is sent from a position on. -/
structure SentFrom (calls : LobCalls) (lob : LobValue) (start : Nat) (result : LobSent) : Prop where
  start_le : start ≤ result.sent
  le_total : result.sent ≤ lob.bytes.length
  bytes : lob.bytes.take start ++ result.pieces.flatten = lob.bytes.take result.sent
  short : ∀ piece ∈ result.pieces, piece.length ≤ calls.chunk
  between : ∀ text, lob = .text (utf8 text) → (∀ c ∈ text, c.utf8Size ≤ calls.chunk) →
    AtBoundary text start → ∀ k, AtBoundary text (start + (result.pieces.take k).flatten.length)

theorem sentFrom_nil {start : Nat} (inside : start ≤ lob.bytes.length) (succeeded : Bool) :
    SentFrom calls lob start ⟨[], start, succeeded⟩ where
  start_le := Nat.le_refl start
  le_total := inside
  bytes := List.append_nil _
  short := List.forall_mem_nil _
  between := by
    intro text _ _ boundary k
    rw [List.take_nil]
    exact boundary

theorem SentFrom.length {start : Nat} {result : LobSent}
    (course : SentFrom calls lob start result) :
    start + result.pieces.flatten.length = result.sent := by
  have length := congrArg List.length course.bytes
  have low := course.start_le
  have high := course.le_total
  rw [List.length_append, List.length_take, List.length_take] at length
  omega

theorem SentFrom.cons {start n : Nat} {later : LobSent} (more : start < lob.bytes.length)
    (next : nextPiece calls lob start = some n) (course : SentFrom calls lob (start + n) later) :
    SentFrom calls lob start
      { later with pieces := (lob.bytes.drop start).take n :: later.pieces } := by
  obtain ⟨-, chunk, total⟩ := nextPiece_bounds more next
  have size : ((lob.bytes.drop start).take n).length = n := by
    rw [List.length_take, List.length_drop]
    omega
  refine ⟨Nat.le_trans (Nat.le_add_right start n) course.start_le, course.le_total, ?_, ?_, ?_⟩
  · dsimp only
    rw [List.flatten_cons, ← List.append_assoc, ← List.take_add, course.bytes]
  · intro piece member
    rcases List.mem_cons.mp member with rfl | member
    · rwa [size]
    · exact course.short piece member
  · intro text same fits boundary k
    cases k with
    | zero => exact boundary
    | succ k =>
      subst same
      have rest := course.between text rfl fits (nextPiece_boundary fits more boundary next) k
      dsimp only
      rwa [List.take_succ_cons, List.flatten_cons, List.length_append, size, ← Nat.add_assoc]

theorem SentFrom.append {start : Nat} {first later : LobSent}
    (before : SentFrom calls lob start first) (after : SentFrom calls lob first.sent later) :
    SentFrom calls lob start { later with pieces := first.pieces ++ later.pieces } := by
  refine ⟨Nat.le_trans before.start_le after.start_le, after.le_total, ?_, ?_, ?_⟩
  · dsimp only
    rw [List.flatten_append, ← List.append_assoc, before.bytes, after.bytes]
  · intro piece member
    rcases List.mem_append.mp member with member | member
    · exact before.short piece member
    · exact after.short piece member
  · intro text same fits boundary k
    have middle := before.between text same fits boundary first.pieces.length
    rw [List.take_length, before.length] at middle
    dsimp only
    rw [List.take_append, List.flatten_append, List.length_append]
    rcases Nat.le_total k first.pieces.length with short | long
    · rw [Nat.sub_eq_zero_of_le short, List.take_zero, List.flatten_nil]
      exact before.between text same fits boundary k
    · rw [List.take_of_length_le long, ← Nat.add_assoc, before.length]
      exact after.between text same fits middle (k - first.pieces.length)

theorem sendLoop_spec {fuel : Nat} : ∀ {start : Nat}, start ≤ lob.bytes.length →
    lob.bytes.length < start + fuel → ∃ result, sendLoop calls lob fuel start = some result ∧
      SentFrom calls lob start result ∧
      (result.succeeded = true → result.sent = lob.bytes.length) ∧
      ((∀ n, calls.putData n = true) → (∀ n, 0 < calls.fread n) → result.succeeded = true) := by
  induction fuel with
  | zero =>
    intro start inside room
    omega
  | succ fuel ih =>
    intro start inside room
    rw [sendLoop]
    split
    next more =>
      cases next : nextPiece calls lob start with
      | none =>
        refine ⟨_, rfl, sentFrom_nil inside false, nofun, fun _ reads => ?_⟩
        have positive := (@wantedSize_bounds calls lob start more).1
        have read := reads start
        cases lob with
        | file content =>
          rw [nextPiece] at next
          split at next
          next ended => omega
          next => cases next
        | text inlineText =>
          rw [nextPiece] at next
          split at next <;> cases next
      | some n =>
        dsimp only
        obtain ⟨positive, -, total⟩ := nextPiece_bounds more next
        split
        next =>
          obtain ⟨later, rest, course, all, succeeds⟩ := ih total (by omega)
          rw [rest]
          exact ⟨_, rfl, course.cons more next, all, succeeds⟩
        next failed =>
          exact ⟨_, rfl, sentFrom_nil inside false, nofun, fun puts _ => absurd (puts start) failed⟩
    next ended =>
      refine ⟨_, rfl, sentFrom_nil inside true, fun _ => ?_, fun _ _ => rfl⟩
      exact Nat.le_antisymm inside (Nat.le_of_not_lt ended)

theorem paramDataLoop_spec {needData : List Bool} : ∀ {start : Nat}, start ≤ lob.bytes.length →
    ∃ result, paramDataLoop calls lob needData start = some result ∧
      SentFrom calls lob start result ∧
      (result.succeeded = true → true ∈ needData → result.sent = lob.bytes.length) ∧
      ((∀ n, calls.putData n = true) → (∀ n, 0 < calls.fread n) → result.succeeded = true) := by
  induction needData with
  | nil =>
    intro start inside
    exact ⟨_, rfl, sentFrom_nil inside true, fun _ member => absurd member List.not_mem_nil,
      fun _ _ => rfl⟩
  | cons asked needData ih =>
    intro start inside
    cases asked with
    | false =>
      obtain ⟨result, run, course, all, succeeds⟩ := ih inside
      refine ⟨result, run, course, fun ended member => all ended ?_, succeeds⟩
      exact (List.mem_cons.mp member).resolve_left Bool.noConfusion
    | true =>
      obtain ⟨first, sends, before, whole, succeeds⟩ :=
        @sendLoop_spec calls lob (lob.bytes.length + 1) start inside (by omega)
      rw [paramDataLoop, sends, Option.bind_eq_bind, Option.bind_some]
      split
      next ended =>
        obtain ⟨later, rest, after, -, succeeds'⟩ := ih before.le_total
        rw [rest, Option.bind_some]
        refine ⟨_, rfl, before.append after, fun _ _ => ?_, succeeds'⟩
        have low := after.start_le
        have high := after.le_total
        have total := whole ended
        dsimp only
        omega
      next failed =>
        exact ⟨first, rfl, before, fun ended => absurd ended failed, succeeds⟩

/-- A position of the bytes lies in one of the pieces. -/
theorem exists_piece {pieces : List CString} : ∀ {p : Nat}, p < pieces.flatten.length →
    ∃ k piece, piece ∈ pieces ∧ (pieces.take k).flatten.length ≤ p ∧
      p < (pieces.take (k + 1)).flatten.length ∧
      (pieces.take (k + 1)).flatten.length = (pieces.take k).flatten.length + piece.length := by
  induction pieces with
  | nil =>
    intro p inside
    exact absurd inside (Nat.not_lt_zero p)
  | cons piece pieces ih =>
    intro p inside
    by_cases here : p < piece.length
    · refine ⟨0, piece, List.mem_cons_self, Nat.zero_le p, ?_, ?_⟩
      · rwa [List.take_succ_cons, List.take_zero, List.flatten_singleton]
      · rw [List.take_succ_cons, List.take_zero, List.flatten_singleton, List.take_zero,
          List.flatten_nil, List.length_nil, Nat.zero_add]
    · rw [List.flatten_cons, List.length_append] at inside
      obtain ⟨k, found, member, low, high, step⟩ := @ih (p - piece.length) (by omega)
      refine ⟨k + 1, found, List.mem_cons_of_mem piece member, ?_, ?_, ?_⟩ <;>
        rw [List.take_succ_cons, List.flatten_cons, List.length_append] <;> try omega
      rw [List.take_succ_cons, List.flatten_cons, List.length_append]
      omega

/-- Whole characters take chunks that can hold them. -/
theorem fits_of_endsBetween {text : List Char} {pieces : List CString} {chunk : Nat}
    (whole : pieces.flatten = utf8 text) (short : ∀ piece ∈ pieces, piece.length ≤ chunk)
    (between : EndsBetween text pieces) : ∀ c ∈ text, c.utf8Size ≤ chunk := by
  intro c member
  obtain ⟨before, after, rfl⟩ := List.append_of_mem member
  have positive := Char.utf8Size_pos c
  have inside : (utf8 before).length < pieces.flatten.length := by
    rw [whole, utf8_append, List.length_append, length_utf8_cons]
    omega
  obtain ⟨k, piece, found, low, high, step⟩ := exists_piece inside
  have bound := short piece found
  have size := atBoundary_after (between (k + 1)) high
  omega

end Pieces

/-- However `mssql_lob_write_by_rowid` fares, it ends, and has sent the first bytes of the value;
when it succeeds, all of them. The pieces of a text end between its characters exactly when each
of these fits a chunk. -/
theorem lob_pieces_whole_iff (calls : LobCalls) (lob : LobValue) (asked : true ∈ calls.needData) :
    ∃ result, sendLob calls lob = some result ∧ result.pieces.flatten <+: lob.bytes ∧
      ((∀ n, calls.putData n = true) → (∀ n, 0 < calls.fread n) → result.succeeded = true) ∧
      (result.succeeded = true → result.pieces.flatten = lob.bytes ∧
        ∀ text, lob = .text (utf8 text) →
          (EndsBetween text result.pieces ↔ ∀ c ∈ text, c.utf8Size ≤ calls.chunk)) := by
  by_cases filled : lob.bytes = []
  · refine ⟨⟨[], 0, true⟩, if_pos filled, List.nil_prefix, fun _ _ => rfl, fun _ => ?_⟩
    refine ⟨filled.symm, ?_⟩
    rintro text rfl
    obtain rfl : text = [] := utf8_injective filled
    refine iff_of_true (fun k => ?_) (List.forall_mem_nil _)
    rw [List.take_nil]
    exact atBoundary_zero []
  · obtain ⟨result, run, course, all, succeeds⟩ :=
      @paramDataLoop_spec calls lob calls.needData 0 (Nat.zero_le _)
    have bytes := course.bytes
    rw [List.take_zero, List.nil_append] at bytes
    refine ⟨result, (if_neg filled).trans run, bytes ▸ List.take_prefix _ _, succeeds, ?_⟩
    intro ended
    rw [all ended asked, List.take_length] at bytes
    refine ⟨bytes, ?_⟩
    rintro text rfl
    constructor
    · intro between
      exact fits_of_endsBetween bytes course.short between
    · intro fits k
      have boundary := course.between text rfl fits (atBoundary_zero text) k
      rwa [Nat.zero_add] at boundary

/-- `SQLParamData` asks for parameter 1 once, and every call succeeds. -/
def wellBehaved (chunkReadSize : Nat) : LobCalls :=
  ⟨chunkReadSize, [true], fun _ => 1, fun _ => true⟩

theorem lob_pieces_whole_four : ∃ result,
    sendLob (wellBehaved 4) (.text (utf8 "aé€😀b".toList)) = some result ∧
      result.pieces.flatten = utf8 "aé€😀b".toList ∧ EndsBetween "aé€😀b".toList result.pieces := by
  obtain ⟨result, run, -, succeeds, whole⟩ :=
    lob_pieces_whole_iff (wellBehaved 4) (.text (utf8 "aé€😀b".toList)) List.mem_cons_self
  obtain ⟨bytes, between⟩ := whole (succeeds (fun _ => rfl) fun _ => Nat.one_pos)
  exact ⟨result, run, bytes, (between _ rfl).mpr fun c _ => Char.utf8Size_le_four c⟩

/-- With `chunk_read_size = 1` the two bytes of a character go apart. -/
theorem one_byte_chunks_split :
    sendLob (wellBehaved 1) (.text (utf8 ['é'])) = some ⟨[['\xc3'], ['\xa9']], 2, true⟩ ∧
      ¬EndsBetween ['é'] [['\xc3'], ['\xa9']] := by
  refine ⟨rfl, fun between => ?_⟩
  have fits := @fits_of_endsBetween ['é'] _ 1 rfl (by decide) between 'é' List.mem_cons_self
  exact absurd fits (by decide)

end OciWrapper.Mssql

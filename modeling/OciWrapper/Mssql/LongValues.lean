import OciWrapper.Mssql.WideText

namespace OciWrapper.Mssql

open OciWrapper.Text

/-- The allocator: which sizes it can give, and what new memory holds. -/
structure Allocator where
  gives : Nat → Bool
  fresh : Nat → UInt8

/-- `ms_buf_t`: the `cap` bytes at `p`, and how many are in use. -/
structure MsBuf where
  mem : List UInt8
  n : Nat
  inside : n ≤ mem.length

def MsBuf.empty : MsBuf := ⟨[], 0, Nat.zero_le _⟩

def MsBuf.value (b : MsBuf) : List UInt8 := b.mem.take b.n

/-- `b->n = 0`. -/
def MsBuf.reset (b : MsBuf) : MsBuf := ⟨b.mem, 0, Nat.zero_le _⟩

/-- `while (b->n + n + 1 > ncap) ncap *= 2`. -/
def doubled (need : Nat) : Nat → Nat → Nat
  | 0, ncap => ncap
  | fuel + 1, ncap => if ncap < need then doubled need fuel (ncap * 2) else ncap

def MsBuf.grown (alloc : Allocator) (b : MsBuf) (need : Nat) : Option (List UInt8) :=
  if b.mem.length < need then
    let ncap := doubled need need (if b.mem.length ≠ 0 then b.mem.length else 4096)
    if alloc.gives ncap then
      some (b.mem ++ (List.range (ncap - b.mem.length)).map alloc.fresh)
    else none
  else some b.mem

/-- `ms_buf_add`; a store behind the block would be `none` too. -/
def msBufAdd (alloc : Allocator) (b : MsBuf) (data : List UInt8) : Option MsBuf := do
  let mem ← b.grown alloc (b.n + data.length + 1)
  if inside : b.n + data.length + 1 ≤ mem.length then
    some {
      mem := mem.take b.n ++ data ++ 0 :: mem.drop (b.n + data.length + 1)
      n := b.n + data.length
      inside := by
        simp only [List.length_append, List.length_take, List.length_cons, List.length_drop]
        omega }
  else none

def appendCodes (alloc : Allocator) : Nat → List Nat → MsBuf → Option MsBuf
  | 0, _, out => some out
  | _ + 1, [], out => some out
  | fuel + 1, unit :: rest, out => do
    let out ← msBufAdd alloc out (codeUtf8 (msPair unit rest).1)
    appendCodes alloc fuel ((unit :: rest).drop (msPair unit rest).2) out

/-- `ms_utf16_to_utf8` into a buffer. -/
def msUtf16Into (alloc : Allocator) (bytes : List UInt8) (out : MsBuf) : Option MsBuf := do
  let out ← appendCodes alloc (littleUnits bytes).length (littleUnits bytes) out
  if out.n = 0 then msBufAdd alloc out [] else some out

inductive SqlReturn
  | success
  | successWithInfo
  | noData
  | error
  deriving DecidableEq

def sqlNullData : Int := -1
def sqlNoTotal : Int := -4

/-- What a `SQLGetData` gives: its return, the indicator, and the bytes it puts in the buffer. -/
structure GetData where
  ret : SqlReturn
  ind : Int
  written : List UInt8

/-- `lob_kind` of a long column. -/
inductive LobKind
  | text
  | binary
  deriving DecidableEq

/-- The field that the loader leaves: the `int` of the setting, over the low half of a zeroed
`unsigned long`. -/
def chunkReadSize (setting : Int) : Nat := (setting % 2 ^ 32).toNat

def chunkSize (setting : Int) : Nat :=
  let chunk := if chunkReadSize setting ≠ 0 then chunkReadSize setting else 65536
  let chunk := if chunk < 64 then 64 else chunk
  chunk / 2 * 2

def pieceCap (setting : Int) (kind : LobKind) : Nat :=
  chunkSize setting + if kind = .text then 2 else 0

/-- The bytes taken of a piece. -/
def got (room : Nat) (ind : Int) : Nat :=
  if ind = sqlNoTotal ∨ ind < 0 ∨ room < ind.toNat then room else ind.toNat

/-- The `for (;;)` of `ms_read_long`: NULL, or the raw bytes. It fails when a call does, and when
it asks for more than the calls there are. -/
def readPieces (alloc : Allocator) (room : Nat) :
    List GetData → List UInt8 → MsBuf → Option (Option MsBuf)
  | [], _, _ => none
  | call :: later, piece, raw =>
    let piece := call.written ++ piece.drop call.written.length
    match call.ret with
    | .noData => some (some raw)
    | .error => none
    | .success =>
      if call.ind = sqlNullData then some none
      else (msBufAdd alloc raw (piece.take (got room call.ind))).map some
    | .successWithInfo =>
      if call.ind = sqlNullData then some none
      else
        (msBufAdd alloc raw (piece.take (got room call.ind))).bind
          (readPieces alloc room later piece)

/-- `ms_read_long`: the value's buffer, and `is_null`. -/
def msReadLong (alloc : Allocator) (setting : Int) (kind : LobKind) (calls : List GetData)
    (val : MsBuf) : Option (MsBuf × Bool) := do
  let cap := pieceCap setting kind
  if !alloc.gives cap then none
  else
    let room := cap - if kind = .text then 2 else 0
    match ← readPieces alloc room calls ((List.range cap).map alloc.fresh) .empty with
    | none => some (val, true)
    | some raw =>
      match kind with
      | .text => (msUtf16Into alloc raw.value val).map fun val => (val, false)
      | .binary =>
        if raw.mem = [] then (msBufAdd alloc raw []).map fun val => (val, false)
        else some (raw, false)

/-- What `ms_clob_field` and `ms_blob_field` take: nothing of a NULL. -/
def fieldValue (val : MsBuf) (isNull : Bool) : Option (List UInt8) :=
  if isNull then none else some val.value

/-- The long columns of a row in `ms_fetch_lob_batch`. -/
def fetchLongs (alloc : Allocator) (setting : Int) :
    List LobKind → List (List GetData) → List MsBuf →
      Option (List MsBuf × List (Option (List UInt8)))
  | kind :: kinds, calls :: row, val :: vals => do
    let (val, isNull) ← msReadLong alloc setting kind calls val.reset
    let (vals, fields) ← fetchLongs alloc setting kinds row vals
    some (val :: vals, fieldValue val isNull :: fields)
  | _, _, _ => some ([], [])

/-- `while (rows < cur->batch)`, with the buffers of the row before. -/
def fetchRows (alloc : Allocator) (setting : Int) (kinds : List LobKind) :
    Nat → List (List (List GetData)) → List MsBuf → Option (List (List (Option (List UInt8))))
  | 0, _, _ => some []
  | _ + 1, [], _ => some []
  | batch + 1, row :: rows, vals => do
    let (vals, fields) ← fetchLongs alloc setting kinds row vals
    let later ← fetchRows alloc setting kinds batch rows vals
    some (fields :: later)

def fetchLobBatch (alloc : Allocator) (setting : Int) (kinds : List LobKind) (batch : Nat)
    (rows : List (List (List GetData))) : Option (List (List (Option (List UInt8)))) :=
  fetchRows alloc setting kinds batch rows (List.replicate kinds.length .empty)

/-- A value of a long column; text is its UTF-16 units. -/
inductive LongValue
  | null
  | binary (bytes : List UInt8)
  | text (units : List UInt16)

def unitBytes (units : List UInt16) : List UInt8 := littleBytes (units.map UInt16.toNat)

/-- The calls that may give the bytes that are left of a value, when `room` bytes and the
terminator fit the buffer. -/
inductive Pieces (room : Nat) (terminator : List UInt8) : List UInt8 → List GetData → Prop
  | full {left : List UInt8} {ind : Int} {later : List GetData} (more : room ≤ left.length)
      (known : ind = sqlNoTotal ∨ ind = left.length)
      (rest : Pieces room terminator (left.drop room) later) :
      Pieces room terminator left (⟨.successWithInfo, ind, left.take room ++ terminator⟩ :: later)
  | short {left : List UInt8} {later : List GetData} (fits : left.length ≤ room)
      (rest : Pieces room terminator [] later) :
      Pieces room terminator left (⟨.successWithInfo, left.length, left ++ terminator⟩ :: later)
  | last {left : List UInt8} (fits : left.length ≤ room) :
      Pieces room terminator left [⟨.success, left.length, left ++ terminator⟩]
  | ended (ind : Int) : Pieces room terminator [] [⟨.noData, ind, []⟩]

/-- The calls that may give a column. -/
inductive Given (setting : Int) : LobKind → LongValue → List GetData → Prop
  | null {kind : LobKind} {ret : SqlReturn} (fine : ret = .success ∨ ret = .successWithInfo)
      (written : List UInt8) : Given setting kind .null [⟨ret, sqlNullData, written⟩]
  | binary {bytes : List UInt8} {calls : List GetData}
      (pieces : Pieces (pieceCap setting .binary) [] bytes calls) :
      Given setting .binary (.binary bytes) calls
  | text {units : List UInt16} {calls : List GetData}
      (pieces : Pieces (pieceCap setting .text - 2) [0, 0] (unitBytes units) calls) :
      Given setting .text (.text units) calls

inductive RowGiven (setting : Int) :
    List LobKind → List LongValue → List (List GetData) → Prop
  | nil : RowGiven setting [] [] []
  | cons {kind : LobKind} {value : LongValue} {calls : List GetData} {kinds : List LobKind}
      {values : List LongValue} {row : List (List GetData)} (first : Given setting kind value calls)
      (rest : RowGiven setting kinds values row) :
      RowGiven setting (kind :: kinds) (value :: values) (calls :: row)

/-- The text of UTF-16 units: a pair is its character, a lone surrogate is U+FFFD. -/
inductive Decodes : List Nat → List Char → Prop
  | nil : Decodes [] []
  | character {units : List Nat} {text : List Char} (c : Char) (rest : Decodes units text) :
      Decodes (wideUnits c.toNat ++ units) (c :: text)
  | lone {unit : Nat} {units : List Nat} {text : List Char}
      (surrogate : 0xD800 ≤ unit ∧ unit ≤ 0xDFFF)
      (alone : ¬(highSurrogate unit = true ∧ units.head?.any lowSurrogate = true))
      (rest : Decodes units text) : Decodes (unit :: units) ('\uFFFD' :: text)

/-- What the caller is owed of a value. -/
inductive Delivered : LongValue → Option (List UInt8) → Prop
  | null : Delivered .null none
  | binary (bytes : List UInt8) : Delivered (.binary bytes) (some bytes)
  | text {units : List UInt16} {text : List Char}
      (decoded : Decodes (units.map UInt16.toNat) text) :
      Delivered (.text units) (some (utf8Bytes text))

section Buffer

variable {alloc : Allocator} {α β : Type}

/-- A result with the property, or the allocator gave out. -/
def Settles (alloc : Allocator) (result : Option α) (property : α → Prop) : Prop :=
  (∃ a, result = some a ∧ property a) ∨ result = none ∧ ∃ size, alloc.gives size = false

theorem Settles.bind {result : Option α} {property : α → Prop} {next : α → Option β}
    {goal : β → Prop} (first : Settles alloc result property)
    (rest : ∀ a, property a → Settles alloc (next a) goal) :
    Settles alloc (result.bind next) goal := by
  rcases first with ⟨a, rfl, holds⟩ | ⟨rfl, denied⟩
  · exact rest a holds
  · exact Or.inr ⟨rfl, denied⟩

theorem Settles.map {result : Option α} {property : α → Prop} {f : α → β} {goal : β → Prop}
    (first : Settles alloc result property) (holds : ∀ a, property a → goal (f a)) :
    Settles alloc (result.map f) goal := by
  rcases first with ⟨a, rfl, property⟩ | ⟨rfl, denied⟩
  · exact Or.inl ⟨f a, rfl, holds a property⟩
  · exact Or.inr ⟨rfl, denied⟩

theorem Settles.imp {result : Option α} {property goal : α → Prop}
    (first : Settles alloc result property) (holds : ∀ a, property a → goal a) :
    Settles alloc result goal := by
  rcases first with ⟨a, rfl, property⟩ | ⟨rfl, denied⟩
  · exact Or.inl ⟨a, rfl, holds a property⟩
  · exact Or.inr ⟨rfl, denied⟩

theorem doubled_enough {need fuel : Nat} : ∀ {ncap : Nat}, 0 < ncap → need ≤ ncap + fuel →
    need ≤ doubled need fuel ncap := by
  induction fuel with
  | zero =>
    intro ncap _ bound
    exact bound
  | succ fuel ih =>
    intro ncap positive bound
    rw [doubled]
    split
    · exact ih (by omega) (by omega)
    · omega

theorem MsBuf.length_value (b : MsBuf) : b.value.length = b.n := by
  rw [MsBuf.value, List.length_take]
  exact Nat.min_eq_left b.inside

theorem MsBuf.grown_settles (b : MsBuf) (need : Nat) :
    Settles alloc (b.grown alloc need) fun mem => need ≤ mem.length ∧ b.mem <+: mem := by
  rw [MsBuf.grown]
  split
  next more =>
    generalize capacity : doubled need need (if b.mem.length ≠ 0 then b.mem.length else 4096) = ncap
    have enough : need ≤ ncap := by
      rw [← capacity]
      refine doubled_enough ?_ (by omega)
      split <;> omega
    dsimp only
    cases given : alloc.gives ncap with
    | true =>
      refine Or.inl ⟨_, rfl, ?_, List.prefix_append _ _⟩
      rw [List.length_append, List.length_map, List.length_range]
      omega
    | false => exact Or.inr ⟨rfl, ncap, given⟩
  next fits => exact Or.inl ⟨_, rfl, Nat.le_of_not_lt fits, List.prefix_refl _⟩

/-- The bytes in use, and the new ones behind them, in a block that holds them all. -/
theorem msBufAdd_settles (b : MsBuf) (data : List UInt8) :
    Settles alloc (msBufAdd alloc b data) fun after =>
      after.value = b.value ++ data ∧ after.n = b.n + data.length ∧ after.mem ≠ [] := by
  refine (b.grown_settles (b.n + data.length + 1)).bind fun mem grown => ?_
  obtain ⟨enough, ⟨added, rfl⟩⟩ := grown
  rw [dif_pos enough]
  have kept : (b.mem ++ added).take b.n = b.value :=
    List.take_append_of_le_length b.inside
  refine Or.inl ⟨_, rfl, ?_, rfl, ?_⟩
  · have size : (b.value ++ data).length = b.n + data.length := by
      rw [List.length_append, b.length_value]
    simp only [MsBuf.value, kept]
    exact List.take_left' size
  · exact List.append_ne_nil_of_right_ne_nil _ (List.cons_ne_nil _ _)

theorem MsBuf.value_reset (b : MsBuf) : b.reset.value = [] := List.take_zero

theorem MsBuf.value_empty : MsBuf.empty.value = [] := rfl

end Buffer

section Text

variable {alloc : Allocator}

/-- The converter writes what the one without a buffer gives. -/
theorem appendCodes_settles {fuel : Nat} : ∀ {units : List Nat} {out : MsBuf},
    Settles alloc (appendCodes alloc fuel units out) fun after =>
      after.value = out.value ++ msBackLoop fuel units := by
  induction fuel with
  | zero =>
    intro units out
    exact Or.inl ⟨out, rfl, (List.append_nil _).symm⟩
  | succ fuel ih =>
    intro units out
    cases units with
    | nil => exact Or.inl ⟨out, rfl, (List.append_nil _).symm⟩
    | cons unit rest =>
      refine (msBufAdd_settles out (codeUtf8 (msPair unit rest).1)).bind fun middle added => ?_
      have later := @ih ((unit :: rest).drop (msPair unit rest).2) middle
      rw [added.1, List.append_assoc] at later
      exact later

theorem msUtf16Into_settles (bytes : List UInt8) (out : MsBuf) :
    Settles alloc (msUtf16Into alloc bytes out) fun after =>
      after.value = out.value ++ msUtf16ToUtf8 bytes := by
  refine appendCodes_settles.bind fun after converted => ?_
  split
  · refine (msBufAdd_settles after []).imp fun terminated added => ?_
    rw [added.1, List.append_nil, converted, msUtf16ToUtf8]
  · exact Or.inl ⟨after, rfl, converted⟩

theorem codeUtf8_replacement : codeUtf8 0xFFFD = String.utf8EncodeChar '\uFFFD' :=
  codeUtf8_character '\uFFFD'

theorem msPair_lone {unit : Nat} {units : List Nat} (surrogate : 0xD800 ≤ unit ∧ unit ≤ 0xDFFF)
    (alone : ¬(highSurrogate unit = true ∧ units.head?.any lowSurrogate = true)) :
    msPair unit units = (0xFFFD, 1) := by
  rw [msPair]
  cases high : highSurrogate unit with
  | false => exact if_pos surrogate
  | true =>
    cases units with
    | nil => exact if_pos surrogate
    | cons next units =>
      have other : ¬(lowSurrogate next = true) := fun low => alone ⟨high, low⟩
      exact if_neg other

/-- The converter gives the text of the units, in UTF-8. -/
theorem msBackLoop_decodes {units : List Nat} {text : List Char} (decoded : Decodes units text) :
    ∀ {fuel : Nat}, units.length ≤ fuel → msBackLoop fuel units = utf8Bytes text := by
  induction decoded with
  | nil =>
    intro fuel _
    cases fuel <;> rfl
  | @character units text c rest ih =>
    intro fuel enough
    obtain ⟨unit, tail, form, read⟩ := units_read (badCode_character c)
    rw [form, List.cons_append, List.length_cons, List.length_append] at enough
    cases fuel with
    | zero => omega
    | succ fuel =>
      rw [form, List.cons_append, msBackLoop, (read units).2, codeUtf8_character,
        List.drop_succ_cons, List.drop_left, ih (by omega)]
      rfl
  | @lone unit units text surrogate alone rest ih =>
    intro fuel enough
    rw [List.length_cons] at enough
    cases fuel with
    | zero => omega
    | succ fuel =>
      rw [msBackLoop, msPair_lone surrogate alone, codeUtf8_replacement, List.drop_succ_cons,
        List.drop_zero, ih (by omega)]
      rfl

/-- There is one such text. -/
theorem Decodes.unique {units : List Nat} {first second : List Char} (one : Decodes units first)
    (other : Decodes units second) : first = second := by
  have same : utf8Bytes first = utf8Bytes second :=
    (msBackLoop_decodes one (Nat.le_refl _)).symm.trans (msBackLoop_decodes other (Nat.le_refl _))
  have codes := pxCodes_utf8Bytes (Nat.le_refl (utf8Bytes first).length)
  rw [same, pxCodes_utf8Bytes (Nat.le_refl _)] at codes
  exact (List.map_injective_iff.mpr fun _ _ => Char.toNat_inj.mp) codes.symm

/-- Units that are no pair, at the front of others. -/
theorem decodes_unit {unit : Nat} {units : List Nat} {text : List Char} (small : unit < 0x10000)
    (alone : ¬(highSurrogate unit = true ∧ units.head?.any lowSurrogate = true))
    (rest : Decodes units text) : ∃ c, Decodes (unit :: units) (c :: text) := by
  by_cases surrogate : 0xD800 ≤ unit ∧ unit ≤ 0xDFFF
  · exact ⟨_, .lone surrogate alone rest⟩
  · have valid : unit.isValidChar := by
      rw [Nat.isValidChar]
      omega
    have code : (Char.ofNat unit).toNat = unit := by
      rw [Char.ofNat, dif_pos valid]
      rfl
    have units_eq := wideUnits_small small
    have step := Decodes.character (Char.ofNat unit) rest
    rw [code, units_eq] at step
    exact ⟨_, step⟩

theorem decodes_pair {high low : Nat} {units : List Nat} {text : List Char}
    (first : highSurrogate high = true) (second : lowSurrogate low = true)
    (rest : Decodes units text) : ∃ c, Decodes (high :: low :: units) (c :: text) := by
  simp only [highSurrogate, lowSurrogate, Bool.and_eq_true, decide_eq_true_eq] at first second
  obtain ⟨a, rfl⟩ := Nat.exists_eq_add_of_le first.1
  obtain ⟨b, rfl⟩ := Nat.exists_eq_add_of_le second.1
  have valid : (0x10000 + a * 1024 + b).isValidChar := by
    rw [Nat.isValidChar]
    omega
  have code : (Char.ofNat (0x10000 + a * 1024 + b)).toNat = 0x10000 + a * 1024 + b := by
    rw [Char.ofNat, dif_pos valid]
    rfl
  have step := Decodes.character (Char.ofNat (0x10000 + a * 1024 + b)) rest
  have quotient : (0x10000 + a * 1024 + b - 0x10000) / 1024 = a := by omega
  have remainder : (0x10000 + a * 1024 + b - 0x10000) % 1024 = b := by omega
  rw [code, wideUnits_pair (by omega) (by omega), quotient, remainder] at step
  exact ⟨_, step⟩

/-- Every sequence of units has a text. -/
theorem exists_decodes {size : Nat} : ∀ {units : List Nat}, units.length ≤ size →
    (∀ unit ∈ units, unit < 0x10000) → ∃ text, Decodes units text := by
  induction size with
  | zero =>
    intro units bound _
    rw [List.eq_nil_of_length_eq_zero (Nat.le_zero.mp bound)]
    exact ⟨[], .nil⟩
  | succ size ih =>
    intro units bound small
    match units with
    | [] => exact ⟨[], .nil⟩
    | [unit] =>
      obtain ⟨c, decoded⟩ := decodes_unit (small unit List.mem_cons_self)
        (fun pair => Bool.noConfusion pair.2) Decodes.nil
      exact ⟨[c], decoded⟩
    | high :: low :: units =>
      simp only [List.length_cons] at bound
      have later := (List.forall_mem_cons.mp small).2
      by_cases pair : highSurrogate high = true ∧ lowSurrogate low = true
      · obtain ⟨text, rest⟩ := @ih units (by omega) (List.forall_mem_cons.mp later).2
        obtain ⟨c, decoded⟩ := decodes_pair pair.1 pair.2 rest
        exact ⟨c :: text, decoded⟩
      · have alone : ¬(highSurrogate high = true ∧ (low :: units).head?.any lowSurrogate = true) :=
          pair
        obtain ⟨text, rest⟩ := @ih (low :: units) (by rw [List.length_cons]; omega) later
        obtain ⟨c, decoded⟩ := decodes_unit (small high List.mem_cons_self) alone rest
        exact ⟨c :: text, decoded⟩

/-- The bytes that a text column's units become. -/
theorem msUtf16ToUtf8_units (units : List UInt16) : ∃ text,
    Decodes (units.map UInt16.toNat) text ∧ msUtf16ToUtf8 (unitBytes units) = utf8Bytes text := by
  have small : ∀ unit ∈ units.map UInt16.toNat, unit < 0x10000 := by
    intro unit member
    obtain ⟨word, -, rfl⟩ := List.mem_map.mp member
    exact word.toNat_lt
  obtain ⟨text, decoded⟩ := exists_decodes (Nat.le_refl _) small
  refine ⟨text, decoded, ?_⟩
  rw [msUtf16ToUtf8, unitBytes, littleUnits_littleBytes small]
  exact msBackLoop_decodes decoded (Nat.le_refl _)

end Text

section Pieces

variable {alloc : Allocator} {setting : Int}

theorem got_all {room n : Nat} (fits : n ≤ room) : got room n = n := by
  rw [got, if_neg]
  · rfl
  · rw [sqlNoTotal]
    omega

theorem got_full {room : Nat} {ind : Int} {left : List UInt8} (more : room ≤ left.length)
    (known : ind = sqlNoTotal ∨ ind = left.length) : got room ind = room := by
  rw [got]
  split
  · rfl
  next fits =>
    rcases known with rfl | rfl
    · exact absurd (Or.inl rfl) fits
    · rw [sqlNoTotal] at fits
      omega

theorem length_not_null (n : Nat) : (n : Int) ≠ sqlNullData := by
  rw [sqlNullData]
  omega

theorem taken (bytes terminator piece : List UInt8) {n : Nat} (size : n = bytes.length) :
    (bytes ++ terminator ++ piece).take n = bytes := by
  rw [List.append_assoc, size, List.take_left]

/-- The loop puts what is left of the value behind what it has. -/
theorem readPieces_settles {room : Nat} {terminator left : List UInt8} {calls : List GetData}
    (pieces : Pieces room terminator left calls) : ∀ {piece : List UInt8} {raw : MsBuf},
    Settles alloc (readPieces alloc room calls piece raw) fun found =>
      ∃ after, found = some after ∧ after.value = raw.value ++ left := by
  induction pieces with
  | @full left ind later more known rest ih =>
    intro piece raw
    have no_null : ind ≠ sqlNullData := by
      rcases known with rfl | rfl
      · decide
      · exact length_not_null _
    simp only [readPieces]
    rw [if_neg no_null, got_full more known,
      taken _ _ _ (by rw [List.length_take]; exact (Nat.min_eq_left more).symm)]
    refine (msBufAdd_settles raw (left.take room)).bind fun middle added => ?_
    refine ih.imp fun found behind => ?_
    rw [added.1, List.append_assoc, List.take_append_drop] at behind
    exact behind
  | @short left later fits rest ih =>
    intro piece raw
    simp only [readPieces]
    rw [if_neg (length_not_null _), got_all fits, taken _ _ _ rfl]
    refine (msBufAdd_settles raw left).bind fun middle added => ?_
    refine ih.imp fun found behind => ?_
    rw [added.1, List.append_nil] at behind
    exact behind
  | @last left fits =>
    intro piece raw
    simp only [readPieces]
    rw [if_neg (length_not_null _), got_all fits, taken _ _ _ rfl]
    exact (msBufAdd_settles raw left).map fun after added => ⟨after, rfl, added.1⟩
  | ended ind =>
    intro piece raw
    exact Or.inl ⟨_, rfl, raw, rfl, (List.append_nil _).symm⟩

/-- One long column, read into a buffer that an earlier row left. -/
theorem msReadLong_settles {kind : LobKind} {value : LongValue} {calls : List GetData}
    (given : Given setting kind value calls) (val : MsBuf) :
    Settles alloc (msReadLong alloc setting kind calls val.reset) fun found =>
      Delivered value (fieldValue found.1 found.2) := by
  rw [msReadLong]
  cases memory : alloc.gives (pieceCap setting kind) with
  | false => exact Or.inr ⟨rfl, _, memory⟩
  | true =>
    simp only [Bool.not_true, Bool.false_eq_true, if_false]
    cases given with
    | @null _ ret fine written =>
      refine Or.inl ⟨(val.reset, true), ?_, .null⟩
      rcases fine with rfl | rfl <;> rfl
    | @binary bytes _ pieces =>
      refine (readPieces_settles pieces).bind fun found read => ?_
      obtain ⟨raw, rfl, whole⟩ := read
      rw [MsBuf.value_empty, List.nil_append] at whole
      dsimp only
      split
      · refine (msBufAdd_settles raw []).map fun after added => ?_
        rw [List.append_nil, whole] at added
        rw [fieldValue, added.1]
        exact .binary bytes
      · refine Or.inl ⟨(raw, false), rfl, ?_⟩
        have field : fieldValue raw false = some bytes := congrArg some whole
        show Delivered (.binary bytes) (fieldValue raw false)
        rw [field]
        exact .binary bytes
    | @text units _ pieces =>
      refine (readPieces_settles pieces).bind fun found read => ?_
      obtain ⟨raw, rfl, whole⟩ := read
      rw [MsBuf.value_empty, List.nil_append] at whole
      dsimp only
      obtain ⟨text, decoded, bytes⟩ := msUtf16ToUtf8_units units
      refine (msUtf16Into_settles raw.value val.reset).map fun after converted => ?_
      rw [val.value_reset, List.nil_append, whole, bytes] at converted
      rw [fieldValue, converted]
      exact .text decoded

end Pieces

section Rows

variable {alloc : Allocator} {setting : Int}

theorem fetchLongs_settles {kinds : List LobKind} {values : List LongValue}
    {row : List (List GetData)} (given : RowGiven setting kinds values row) :
    ∀ {vals : List MsBuf}, vals.length = kinds.length →
      Settles alloc (fetchLongs alloc setting kinds row vals) fun found =>
        found.1.length = kinds.length ∧ List.Forall₂ Delivered values found.2 := by
  induction given with
  | nil =>
    intro vals _
    exact Or.inl ⟨_, rfl, rfl, .nil⟩
  | cons first rest ih =>
    intro vals size
    cases vals with
    | nil => cases size
    | cons val vals =>
      refine (msReadLong_settles first val).bind fun column delivered => ?_
      refine (ih (Nat.succ.inj size)).bind fun others behind => Or.inl ⟨_, rfl, ?_, ?_⟩
      · exact congrArg Nat.succ behind.1
      · exact .cons delivered behind.2

theorem fetchRows_settles {kinds : List LobKind} {table : List (List LongValue)}
    {rows : List (List (List GetData))} (given : List.Forall₂ (RowGiven setting kinds) table rows) :
    ∀ {batch : Nat} {vals : List MsBuf}, vals.length = kinds.length →
      Settles alloc (fetchRows alloc setting kinds batch rows vals) fun fetched =>
        List.Forall₂ (List.Forall₂ Delivered) (table.take batch) fetched := by
  induction given with
  | nil =>
    intro batch vals _
    cases batch <;> exact Or.inl ⟨[], rfl, .nil⟩
  | @cons values row table rows first rest ih =>
    intro batch vals size
    cases batch with
    | zero => exact Or.inl ⟨[], rfl, .nil⟩
    | succ batch =>
      refine (fetchLongs_settles first size).bind fun found delivered => ?_
      refine (ih delivered.1).bind fun later behind => Or.inl ⟨_, rfl, ?_⟩
      exact .cons delivered.2 behind

end Rows

/-- Each row of a batch delivers its own long values whole, whatever the pieces were; the batch
fails only when the allocator does. -/
theorem long_values_delivered (alloc : Allocator) (setting : Int) (kinds : List LobKind)
    (batch : Nat) (table : List (List LongValue)) (rows : List (List (List GetData)))
    (given : List.Forall₂ (RowGiven setting kinds) table rows) :
    (∃ fetched, fetchLobBatch alloc setting kinds batch rows = some fetched ∧
      List.Forall₂ (List.Forall₂ Delivered) (table.take batch) fetched) ∨
    fetchLobBatch alloc setting kinds batch rows = none ∧ ∃ size, alloc.gives size = false :=
  fetchRows_settles given (List.length_replicate ..)

/-- A pair cut by the end of a piece, a NULL behind a value, and an empty value behind a NULL. -/
theorem long_values_delivered_straddling :
    ∃ fetched, fetchLobBatch ⟨fun _ => true, fun _ => 0⟩ 1 [.text, .binary] 5
      [[[⟨.successWithInfo, -4,
          (unitBytes (List.replicate 31 0x41 ++ [0xD83D, 0xDE00])).take 64 ++ [0, 0]⟩,
          ⟨.success, 2, [0, 0xDE] ++ [0, 0]⟩], [⟨.success, 2, [7, 0] ++ []⟩]],
        [[⟨.success, -1, []⟩], [⟨.noData, 0, []⟩]]] = some fetched ∧
      List.Forall₂ (List.Forall₂ Delivered)
        [[.text (List.replicate 31 0x41 ++ [0xD83D, 0xDE00]), .binary [7, 0]], [.null, .binary []]]
        fetched := by
  have given : List.Forall₂ (RowGiven 1 [.text, .binary])
      [[.text (List.replicate 31 0x41 ++ [0xD83D, 0xDE00]), .binary [7, 0]], [.null, .binary []]]
      [[[⟨.successWithInfo, -4,
          (unitBytes (List.replicate 31 0x41 ++ [0xD83D, 0xDE00])).take 64 ++ [0, 0]⟩,
          ⟨.success, 2, [0, 0xDE] ++ [0, 0]⟩], [⟨.success, 2, [7, 0] ++ []⟩]],
        [[⟨.success, -1, []⟩], [⟨.noData, 0, []⟩]]] := by
    refine .cons (.cons (.text (.full (by decide) (Or.inl rfl) ?_)) (.cons (.binary ?_) .nil))
      (.cons (.cons (.null (Or.inl rfl) []) (.cons (.binary (.ended 0)) .nil)) .nil)
    · exact @Pieces.last 64 [0, 0] [0, 0xDE] (by decide)
    · exact @Pieces.last 64 [] [7, 0] (by decide)
  rcases long_values_delivered ⟨fun _ => true, fun _ => 0⟩ 1 [.text, .binary] 5 _ _ given with
    delivered | ⟨-, size, denied⟩
  · exact delivered
  · cases denied

end OciWrapper.Mssql

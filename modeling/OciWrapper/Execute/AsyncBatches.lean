import OciWrapper.Dml.SqlDialect
import OciWrapper.Execute.OracleClobs

namespace OciWrapper.Execute

open OciWrapper.Dml

variable {Row : Type}

/-- The rows that a cursor has not returned yet. -/
structure RowCursor (Row : Type) where
  left : List Row
  exhausted : Bool

/-- `select_fetch_batch`: Oracle reports the end with a short batch, SQL Server with an empty one. -/
def selectFetchBatch (vendor : Vendor) (batchSize : Nat) (cursor : RowCursor Row) :
    List Row × RowCursor Row :=
  if cursor.exhausted then ([], cursor)
  else
    let rows := cursor.left.take batchSize
    let ended := match vendor with
      | .oracle => decide (rows.length < batchSize)
      | .mssql => rows.isEmpty
    (rows, ⟨cursor.left.drop batchSize, ended⟩)

/-- What the database, the configuration and the allocator decide in an asynchronous SELECT: what
the count query brings, whether everything up to the cursor succeeds, which calls of
`select_fetch_batch` do, and for which batches there is memory for a document. -/
structure AsyncSelect (Row : Type) where
  counted : Option Int
  queryMaxRecordCount : Int
  opened : Bool
  vendor : Vendor
  batchSize : Nat
  positive : 0 < batchSize
  rows : List Row
  fetched : Nat → Bool
  rendered : Nat → Bool

/-- What `async_batch_callback` is given; the totals are those of the last batch. -/
structure Delivery (Row : Type) where
  batchNumber : Nat
  isFinal : Bool
  rows : List Row
  totals : Option (Nat × Bool)

def intMax : Int := 2 ^ 31 - 1

/-- The count as an `int`. -/
def clampedCount (counted : Int) : Int :=
  if intMax < counted then intMax else if counted < 0 then 0 else counted

def truncatedCount (recordCount queryMax : Int) : Bool :=
  decide (1 ≤ recordCount ∧ queryMax < recordCount)

/-- `(unsigned int)record_count` after the limit. -/
def countLimit (counted queryMax : Int) : Nat :=
  let recordCount := clampedCount counted
  ((if truncatedCount recordCount queryMax then queryMax else recordCount) % 2 ^ 32).toNat

/-- The fetch loop of `execute_query_batch` with a callback. -/
def asyncFetchLoop (run : AsyncSelect Row) (limit : Nat) (truncated : Bool) :
    Nat → Nat → Nat → RowCursor Row → Option (List (Delivery Row))
  | 0, _, _, _ => none
  | fuel + 1, batchNumber, absRownum, cursor =>
    if run.fetched batchNumber then
      match selectFetchBatch run.vendor run.batchSize cursor with
      | ([], _) => some []
      | (row :: rows, cursor) => do
        let absRownum := ub4 (absRownum + (row :: rows).length)
        let isFinal := decide (limit ≤ absRownum)
        let later ← asyncFetchLoop run limit truncated fuel (batchNumber + 1) absRownum cursor
        if run.rendered (batchNumber + 1) then
          let totals := if isFinal then some (absRownum, truncated) else none
          some (⟨batchNumber + 1, isFinal, row :: rows, totals⟩ :: later)
        else some later
    else none

/-- `execute_query_batch` with a callback, from the count on; each round of the loop takes a row. -/
def executeAsyncSelect (run : AsyncSelect Row) : Option (List (Delivery Row)) :=
  match run.counted with
  | none => none
  | some counted =>
    if run.opened then
      let truncated := truncatedCount (clampedCount counted) run.queryMaxRecordCount
      asyncFetchLoop run (countLimit counted run.queryMaxRecordCount) truncated
        (run.rows.length + 1) 0 0 ⟨run.rows, false⟩
    else none

/-- The batches are numbered from one, have the rows in order, and only the last is final. -/
def Delivered (rows : List Row) (deliveries : List (Delivery Row)) : Prop :=
  deliveries ≠ [] ∧
    deliveries.map Delivery.batchNumber = List.range' 1 deliveries.length ∧
    deliveries.flatMap Delivery.rows = rows ∧
    deliveries.map Delivery.isFinal = List.replicate (deliveries.length - 1) false ++ [true]

/-- The rows reach the count with the last batch and not before. -/
def CountReached (limit batchSize n : Nat) : Prop :=
  limit ≤ ub4 n ∧ ∀ i, 0 < i → i * batchSize < n → ub4 (i * batchSize) < limit

/-- Every batch of the rows can be rendered. -/
def AllRendered (run : AsyncSelect Row) : Prop :=
  ∀ i, i * run.batchSize < run.rows.length → run.rendered (i + 1) = true

section Loop

variable {run : AsyncSelect Row} {limit : Nat} {truncated : Bool}

theorem selectFetchBatch_rows (vendor : Vendor) {batchSize : Nat} (positive : 0 < batchSize)
    {left : List Row} (filled : left ≠ []) :
    ∃ ended, selectFetchBatch vendor batchSize ⟨left, false⟩ =
      (left.take batchSize, ⟨left.drop batchSize, ended⟩) ∧
      (ended = true → left.drop batchSize = []) := by
  cases vendor with
  | oracle =>
    refine ⟨decide ((left.take batchSize).length < batchSize), rfl, fun short => ?_⟩
    rw [decide_eq_true_eq, List.length_take] at short
    exact List.drop_eq_nil_of_le (by omega)
  | mssql =>
    refine ⟨(left.take batchSize).isEmpty, rfl, fun empty => ?_⟩
    rw [List.isEmpty_iff, List.take_eq_nil_iff] at empty
    rcases empty with none | none
    · omega
    · exact absurd none filled

theorem ub4_add (done n : Nat) : ub4 (ub4 done + n) = ub4 (done + n) := Nat.mod_add_mod done _ n

/-- The delivery of the batch after `done` rows. -/
def deliveryOf (limit : Nat) (truncated : Bool) (batchNumber done : Nat) (rows : List Row) :
    Delivery Row :=
  let absRownum := ub4 (done + rows.length)
  ⟨batchNumber + 1, decide (limit ≤ absRownum), rows,
    if decide (limit ≤ absRownum) then some (absRownum, truncated) else none⟩

theorem asyncFetchLoop_nil {fuel batchNumber absRownum : Nat} {exhausted : Bool}
    {deliveries : List (Delivery Row)}
    (made : asyncFetchLoop run limit truncated fuel batchNumber absRownum ⟨[], exhausted⟩ =
      some deliveries) : deliveries = [] := by
  cases fuel with
  | zero => cases made
  | succ fuel =>
    have batch : ∃ cursor, selectFetchBatch run.vendor run.batchSize
        (⟨[], exhausted⟩ : RowCursor Row) = ([], cursor) := by
      cases exhausted with
      | false => exact ⟨_, by rw [selectFetchBatch, if_neg Bool.false_ne_true, List.take_nil]⟩
      | true => exact ⟨_, rfl⟩
    obtain ⟨cursor, batch⟩ := batch
    rw [asyncFetchLoop] at made
    split at made
    · rw [batch] at made
      exact (Option.some.inj made).symm
    · cases made

/-- A round of the loop. -/
theorem asyncFetchLoop_cons {fuel batchNumber done : Nat} {left : List Row}
    {deliveries : List (Delivery Row)} (filled : left ≠ [])
    (made : asyncFetchLoop run limit truncated (fuel + 1) batchNumber (ub4 done) ⟨left, false⟩ =
      some deliveries) :
    ∃ later ended, (ended = true → left.drop run.batchSize = []) ∧
      asyncFetchLoop run limit truncated fuel (batchNumber + 1)
        (ub4 (done + (left.take run.batchSize).length)) ⟨left.drop run.batchSize, ended⟩ =
          some later ∧
      deliveries = (if run.rendered (batchNumber + 1) then
        [deliveryOf limit truncated batchNumber done (left.take run.batchSize)] else []) ++ later := by
  obtain ⟨ended, batch, last⟩ := selectFetchBatch_rows run.vendor run.positive filled
  have some_rows : left.take run.batchSize ≠ [] := by
    rw [ne_eq, List.take_eq_nil_iff, not_or]
    exact ⟨run.positive.ne', filled⟩
  obtain ⟨row, rows, split⟩ := List.exists_cons_of_ne_nil some_rows
  rw [asyncFetchLoop] at made
  split at made
  next =>
    rw [batch, split] at made
    dsimp only at made
    rw [ub4_add] at made
    obtain ⟨later, rest, made⟩ := Option.bind_eq_some_iff.mp made
    refine ⟨later, ended, last, by rw [split]; exact rest, ?_⟩
    rw [split]
    split at made
    next shown =>
      rw [if_pos shown]
      exact (Option.some.inj made).symm
    next hidden =>
      rw [if_neg hidden]
      exact (Option.some.inj made).symm
  next => cases made

/-- No row is delivered twice. -/
theorem asyncFetchLoop_length {fuel : Nat} : ∀ {batchNumber done : Nat} {left : List Row}
    {exhausted : Bool} {deliveries : List (Delivery Row)}, (exhausted = true → left = []) →
    asyncFetchLoop run limit truncated fuel batchNumber (ub4 done) ⟨left, exhausted⟩ =
      some deliveries → (deliveries.flatMap Delivery.rows).length ≤ left.length := by
  induction fuel with
  | zero =>
    intro batchNumber done left exhausted deliveries last made
    cases made
  | succ fuel ih =>
    intro batchNumber done left exhausted deliveries last made
    by_cases filled : left = []
    · subst filled
      rw [asyncFetchLoop_nil made]
      exact Nat.zero_le _
    · have more : exhausted = false := Bool.eq_false_iff.mpr fun ended => filled (last ended)
      subst more
      obtain ⟨later, ended, last', rest, rfl⟩ := asyncFetchLoop_cons filled made
      have bound := ih last' rest
      have whole : (left.take run.batchSize).length + (left.drop run.batchSize).length =
          left.length := by
        rw [← List.length_append, List.take_append_drop]
      split
      · rw [List.singleton_append, List.flatMap_cons, List.length_append]
        dsimp only [deliveryOf]
        omega
      · rw [List.nil_append]
        omega

/-- The batches that are delivered after `batchNumber` others. -/
def Batched (batchNumber : Nat) (rows : List Row) (deliveries : List (Delivery Row)) : Prop :=
  deliveries.map Delivery.batchNumber = List.range' (batchNumber + 1) deliveries.length ∧
    deliveries.flatMap Delivery.rows = rows ∧
    deliveries.map Delivery.isFinal = List.replicate (deliveries.length - 1) false ++ [true]

/-- What that takes, after `done` rows. -/
def Complete (run : AsyncSelect Row) (limit batchNumber done n : Nat) : Prop :=
  (∀ i, i * run.batchSize < n → run.rendered (batchNumber + i + 1) = true) ∧
    limit ≤ ub4 (done + n) ∧
    ∀ i, 0 < i → i * run.batchSize < n → ub4 (done + i * run.batchSize) < limit

theorem complete_last {batchNumber done n : Nat} (filled : 0 < n) (short : n ≤ run.batchSize) :
    Complete run limit batchNumber done n ↔
      run.rendered (batchNumber + 1) = true ∧ limit ≤ ub4 (done + n) := by
  have only : ∀ i, i * run.batchSize < n → i = 0 := by
    intro i inside
    by_contra more
    have one : 1 * run.batchSize ≤ i * run.batchSize :=
      Nat.mul_le_mul_right _ (Nat.pos_of_ne_zero more)
    omega
  constructor
  · rintro ⟨rendered, reached, -⟩
    exact ⟨rendered 0 (by omega), reached⟩
  · rintro ⟨rendered, reached⟩
    refine ⟨fun i inside => ?_, reached, fun i more inside => ?_⟩
    · rw [only i inside]
      exact rendered
    · rw [only i inside] at more
      exact absurd more (Nat.lt_irrefl 0)

theorem complete_more {batchNumber done n : Nat} (more : run.batchSize < n) :
    Complete run limit batchNumber done n ↔
      run.rendered (batchNumber + 1) = true ∧ ub4 (done + run.batchSize) < limit ∧
        Complete run limit (batchNumber + 1) (done + run.batchSize) (n - run.batchSize) := by
  have shift : ∀ i, (i + 1) * run.batchSize = i * run.batchSize + run.batchSize := fun i =>
    Nat.succ_mul i run.batchSize
  have total : done + run.batchSize + (n - run.batchSize) = done + n := by omega
  rw [Complete, Complete, total]
  constructor
  · rintro ⟨rendered, reached, before⟩
    refine ⟨rendered 0 (by omega), ?_, fun i inside => ?_, reached, fun i some inside => ?_⟩
    · have first := before 1 Nat.one_pos (by omega)
      rwa [Nat.one_mul] at first
    · have later := rendered (i + 1) (by rw [shift]; omega)
      rwa [← Nat.add_assoc, Nat.add_right_comm batchNumber i 1] at later
    · have later := before (i + 1) (Nat.succ_pos i) (by rw [shift]; omega)
      rwa [shift, Nat.add_comm (i * run.batchSize), ← Nat.add_assoc] at later
  · rintro ⟨first, below, rendered, reached, before⟩
    refine ⟨fun i inside => ?_, reached, fun i some inside => ?_⟩
    · cases i with
      | zero => exact first
      | succ i =>
        rw [shift] at inside
        have later := rendered i (by omega)
        rwa [Nat.add_right_comm batchNumber 1 i, Nat.add_assoc batchNumber i 1] at later
    · cases i with
      | zero => exact absurd some (Nat.lt_irrefl 0)
      | succ i =>
        rw [shift] at inside ⊢
        rcases Nat.eq_zero_or_pos i with rfl | more
        · rwa [Nat.zero_mul, Nat.zero_add]
        · have later := before i more (by omega)
          rwa [Nat.add_assoc, Nat.add_comm run.batchSize] at later

theorem finals_cons {later : List (Delivery Row)} (filled : later ≠ []) (isFinal : Bool) :
    isFinal :: later.map Delivery.isFinal = List.replicate later.length false ++ [true] ↔
      isFinal = false ∧
        later.map Delivery.isFinal = List.replicate (later.length - 1) false ++ [true] := by
  obtain ⟨delivery, later, rfl⟩ := List.exists_cons_of_ne_nil filled
  rw [List.length_cons, Nat.add_sub_cancel, List.replicate_succ, List.cons_append,
    List.cons.injEq]

theorem batched_iff {fuel : Nat} : ∀ {batchNumber done : Nat} {left : List Row}
    {deliveries : List (Delivery Row)}, left ≠ [] →
    asyncFetchLoop run limit truncated fuel batchNumber (ub4 done) ⟨left, false⟩ =
      some deliveries →
    (Batched batchNumber left deliveries ↔ Complete run limit batchNumber done left.length) := by
  induction fuel with
  | zero =>
    intro batchNumber done left deliveries filled made
    cases made
  | succ fuel ih =>
    intro batchNumber done left deliveries filled made
    obtain ⟨later, ended, last, rest, rfl⟩ := asyncFetchLoop_cons filled made
    have size := List.length_pos_of_ne_nil filled
    have bound := asyncFetchLoop_length last rest
    have positive := run.positive
    by_cases shown : run.rendered (batchNumber + 1) = true
    · rw [if_pos shown, List.singleton_append]
      by_cases short : left.length ≤ run.batchSize
      · rw [List.drop_eq_nil_of_le short] at rest
        obtain rfl := asyncFetchLoop_nil rest
        rw [complete_last size short, List.take_of_length_le short]
        simp [Batched, deliveryOf, shown]
      · have more : left.drop run.batchSize ≠ [] := by
          rw [ne_eq, List.drop_eq_nil_iff]
          exact short
        have going : ended = false := Bool.eq_false_iff.mpr fun stop => more (last stop)
        subst going
        have taken : (left.take run.batchSize).length = run.batchSize := by
          rw [List.length_take]
          omega
        rw [taken] at rest
        have batched := ih more rest
        rw [List.length_drop] at batched
        rw [complete_more (by omega), ← batched, and_iff_right shown]
        have kept : (left.take run.batchSize ++ later.flatMap Delivery.rows = left) ↔
            later.flatMap Delivery.rows = left.drop run.batchSize := by
          nth_rewrite 2 [← List.take_append_drop run.batchSize left]
          exact List.append_right_inj _
        have flag : decide (limit ≤ ub4 (done + run.batchSize)) = false ↔
            ub4 (done + run.batchSize) < limit := by
          rw [decide_eq_false_iff_not, Nat.not_le]
        rw [Batched, Batched, List.map_cons, List.map_cons, List.flatMap_cons, List.length_cons,
          List.range'_succ, Nat.add_sub_cancel]
        dsimp only [deliveryOf]
        rw [taken, kept, List.cons.injEq, and_iff_right rfl]
        constructor
        · rintro ⟨numbers, rows, finals⟩
          have some_later : later ≠ [] := by
            rintro rfl
            exact more rows.symm
          obtain ⟨first, finals⟩ := (finals_cons some_later _).mp finals
          exact ⟨flag.mp first, numbers, rows, finals⟩
        · rintro ⟨first, numbers, rows, finals⟩
          have some_later : later ≠ [] := by
            rintro rfl
            exact more rows.symm
          exact ⟨numbers, rows, (finals_cons some_later _).mpr ⟨flag.mpr first, finals⟩⟩
    · rw [if_neg shown, List.nil_append]
      refine iff_of_false ?_ fun complete => shown (complete.1 0 (by omega))
      rintro ⟨-, whole, -⟩
      rw [whole, List.length_drop] at bound
      omega

/-- The loop ends unless a fetch fails. -/
theorem asyncFetchLoop_isSome (fetched : ∀ n, run.fetched n = true) {fuel : Nat} :
    ∀ {batchNumber absRownum : Nat} {left : List Row} {exhausted : Bool}, left.length < fuel →
    (asyncFetchLoop run limit truncated fuel batchNumber absRownum ⟨left, exhausted⟩).isSome := by
  induction fuel with
  | zero =>
    intro batchNumber absRownum left exhausted room
    exact absurd room (Nat.not_lt_zero _)
  | succ fuel ih =>
    intro batchNumber absRownum left exhausted room
    have positive := run.positive
    rw [asyncFetchLoop, if_pos (fetched batchNumber)]
    split
    next => rfl
    next row rows cursor batch =>
      have shorter : cursor.left.length < fuel := by
        rw [selectFetchBatch] at batch
        split at batch
        · cases batch
        · have left_rows := (Prod.mk.inj batch).1
          have cursor_left := congrArg RowCursor.left (Prod.mk.inj batch).2
          have length := congrArg List.length left_rows
          rw [← cursor_left, List.length_drop]
          rw [List.length_take, List.length_cons] at length
          dsimp only at length ⊢
          omega
      obtain ⟨later, rest⟩ := Option.isSome_iff_exists.mp
        (@ih (batchNumber + 1) (ub4 (absRownum + (row :: rows).length)) cursor.left
          cursor.exhausted shorter)
      dsimp only
      rw [rest, Option.bind_eq_bind, Option.bind_some]
      split <;> rfl

end Loop

/-- An asynchronous SELECT delivers its rows, with one final batch, exactly when it has some, each
batch can be rendered, and the count is reached with the last batch and not before. -/
theorem async_batches_delivered_iff (run : AsyncSelect Row) {counted : Int}
    (answered : run.counted = some counted) (opened : run.opened = true)
    (fetched : ∀ n, run.fetched n = true) :
    ∃ deliveries, executeAsyncSelect run = some deliveries ∧
      (Delivered run.rows deliveries ↔ run.rows ≠ [] ∧ AllRendered run ∧
        CountReached (countLimit counted run.queryMaxRecordCount) run.batchSize run.rows.length) := by
  have start : executeAsyncSelect run = asyncFetchLoop run
      (countLimit counted run.queryMaxRecordCount)
      (truncatedCount (clampedCount counted) run.queryMaxRecordCount) (run.rows.length + 1) 0
      (ub4 0) ⟨run.rows, false⟩ := by
    rw [executeAsyncSelect, answered]
    dsimp only
    rw [if_pos opened]
    rfl
  obtain ⟨deliveries, made⟩ := Option.isSome_iff_exists.mp (asyncFetchLoop_isSome fetched
    (Nat.lt_succ_self run.rows.length))
  refine ⟨deliveries, start.trans made, ?_⟩
  by_cases filled : run.rows = []
  · refine iff_of_false ?_ fun all => all.1 filled
    rintro ⟨some_delivery, -⟩
    rw [filled] at made
    exact some_delivery (asyncFetchLoop_nil made)
  · have batched := batched_iff filled made
    have complete : Complete run (countLimit counted run.queryMaxRecordCount) 0 0 run.rows.length ↔
        AllRendered run ∧ CountReached (countLimit counted run.queryMaxRecordCount) run.batchSize
          run.rows.length := by
      simp only [Complete, AllRendered, CountReached, Nat.zero_add]
    rw [and_iff_right filled, ← complete, ← batched]
    constructor
    · rintro ⟨-, all⟩
      exact all
    · intro all
      refine ⟨?_, all⟩
      rintro rfl
      exact filled all.2.1.symm

/-- A count of the rows themselves is reached with the last batch. -/
theorem countReached_self {batchSize n : Nat} (small : n < 2 ^ 32) : CountReached n batchSize n := by
  refine ⟨(ub4_of_lt small).ge, fun i some inside => ?_⟩
  rw [ub4_of_lt (inside.trans small)]
  exact inside

/-- Five rows in batches of two. -/
def fiveRows (rows : List Nat) : AsyncSelect Nat where
  counted := some rows.length
  queryMaxRecordCount := 500
  opened := true
  vendor := .oracle
  batchSize := 2
  positive := by decide
  rows := rows
  fetched := fun _ => true
  rendered := fun _ => true

theorem async_batches_delivered_five : ∃ deliveries,
    executeAsyncSelect (fiveRows [1, 2, 3, 4, 5]) = some deliveries ∧
      Delivered [1, 2, 3, 4, 5] deliveries := by
  obtain ⟨deliveries, made, whole⟩ := async_batches_delivered_iff (fiveRows [1, 2, 3, 4, 5])
    rfl rfl fun _ => rfl
  refine ⟨deliveries, made, whole.mpr ⟨by decide, fun _ _ => rfl, ?_⟩⟩
  exact countReached_self (by decide)

theorem no_rows_no_final_batch :
    executeAsyncSelect (fiveRows []) = some [] ∧ ¬Delivered ([] : List Nat) [] :=
  ⟨rfl, fun delivered => delivered.1 rfl⟩

end OciWrapper.Execute

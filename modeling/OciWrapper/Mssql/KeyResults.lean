import OciWrapper.Text.Chars

namespace OciWrapper.Mssql

open OciWrapper.Text

/-- `MSSQL_ROWID_BUF_SIZE`. -/
def rowidBufSize : Nat := 24

/-- `keybuf_t`: its cells, and how many of them count. -/
structure KeyBuf where
  cells : List CString
  count : Nat
  fits : count ≤ cells.length

namespace KeyBuf

def empty : KeyBuf := ⟨[], 0, Nat.le_refl 0⟩

def entries (k : KeyBuf) : List CString := k.cells.take k.count

/-- A full buffer doubles, from 16 cells on. -/
def room (k : KeyBuf) : List CString :=
  if k.count = k.cells.length then
    k.cells ++ List.replicate (if k.cells = [] then 16 else k.cells.length) []
  else k.cells

theorem count_lt_room (k : KeyBuf) : k.count < k.room.length := by
  have fits := k.fits
  rw [room]
  split
  next full =>
    rw [List.length_append, List.length_replicate]
    split
    · omega
    next filled =>
      have positive := List.length_pos_iff.mpr filled
      omega
  next => omega

/-- `keybuf_add`. -/
def add (k : KeyBuf) (v : CString) : KeyBuf where
  cells := k.room.set k.count (v.take (rowidBufSize - 1))
  count := k.count + 1
  fits := by
    rw [List.length_set]
    exact k.count_lt_room

theorem take_room (k : KeyBuf) : k.room.take k.count = k.entries := by
  rw [room, entries]
  split
  · rw [List.take_append_of_le_length k.fits]
  · rfl

theorem entries_add (k : KeyBuf) (v : CString) :
    (k.add v).entries = k.entries ++ [v.take (rowidBufSize - 1)] := by
  have inside := k.count_lt_room
  have within : k.count < (k.room.set k.count (v.take (rowidBufSize - 1))).length := by
    rwa [List.length_set]
  rw [entries, add]
  dsimp only
  rw [List.take_succ_eq_append_getElem within, List.getElem_set_self, List.take_set_of_le
    (Nat.le_refl _), take_room]

theorem length_entries (k : KeyBuf) : k.entries.length = k.count := by
  rw [entries, List.length_take, Nat.min_eq_left k.fits]

end KeyBuf

/-- What `SQLFetch` and `SQLGetData` bring for a row: its key, perhaps SQL NULL, perhaps of a
length that the driver does not tell, or an error. -/
inductive KeyFetch
  | key (text : Option CString) (noTotal : Bool)
  | fails

/-- A result of a statement: a row count, if `SQLRowCount` gives one, or a result set; of either
`SQLNumResultCols` can fail. -/
inductive OdbcResult
  | columnsFail
  | rowCount (n : Option Int)
  | rows (fetches : List KeyFetch)

/-- The results of one execution; without a first one `SQLExecute` has returned `SQL_NO_DATA`.
Behind them `SQLMoreResults` says so or fails. -/
structure OdbcRun where
  first : Option OdbcResult
  more : List OdbcResult
  moreFails : Bool

def OdbcRun.results (run : OdbcRun) : List OdbcResult := run.first.toList ++ run.more

/-- `SQLNumResultCols`, `SQLRowCount` and the test of the count. -/
def OdbcResult.count : OdbcResult → Option Int
  | .rowCount n => n.filter fun n => decide (0 ≤ n)
  | .columnsFail | .rows _ => none

def countOf (last : Int) (result : OdbcResult) : Int := result.count.getD last

/-- The loop of `read_results`; `none` is an error. -/
def moreCounts (moreFails : Bool) : Nat → Int → List OdbcResult → Option Int
  | 0, last, _ => some last
  | _ + 1, last, [] => if moreFails then none else some last
  | guard + 1, last, result :: more => moreCounts moreFails guard (countOf last result) more

def readResults (run : OdbcRun) : Option Int :=
  moreCounts run.moreFails 1000 (run.first.toList.foldl countOf 0) run.more

/-- The variables of `collect_keys`. -/
structure Collecting where
  keys : KeyBuf
  start : Nat
  behind : start ≤ keys.count
  sawOutput : Bool
  lastCount : Int

namespace Collecting

def add (s : Collecting) (v : CString) : Collecting :=
  { s with
    keys := s.keys.add v
    behind := Nat.le_succ_of_le s.behind }

/-- Only the last result set counts. -/
def reset (s : Collecting) : Collecting :=
  { s with
    keys := ⟨s.keys.cells, s.start, Nat.le_trans s.behind s.keys.fits⟩
    behind := Nat.le_refl _
    sawOutput := true }

/-- The 63 characters that `SQLGetData` puts into `v`, once the length is checked. -/
def fetch (s : Collecting) : KeyFetch → Option Collecting
  | .fails => none
  | .key none _ => some (s.add [])
  | .key (some text) noTotal =>
    if noTotal ∨ rowidBufSize ≤ text.length then none else some (s.add (text.take 63))

def read (s : Collecting) : OdbcResult → Option Collecting
  | .columnsFail => none
  | .rows fetches => fetches.foldlM fetch s.reset
  | .rowCount n => some { s with lastCount := countOf s.lastCount (.rowCount n) }

end Collecting

/-- The loop of `collect_keys` over the current result, if there is one, and those that
`SQLMoreResults` still brings. -/
def collectLoop (moreFails : Bool) : Nat → Collecting → Option OdbcResult → List OdbcResult →
    Option Collecting
  | 0, s, _, _ => some s
  | guard + 1, s, current, more =>
    (current.toList.foldlM Collecting.read s).bind fun s =>
      match more with
      | [] => if moreFails then none else some s
      | next :: more => collectLoop moreFails guard s (some next) more

def collectKeys (keys : KeyBuf) (run : OdbcRun) : Option KeyBuf :=
  (collectLoop run.moreFails 1000 ⟨keys, keys.count, Nat.le_refl _, false, 0⟩ run.first
    run.more).map fun s =>
      if s.sawOutput then s.keys
      else (List.replicate s.lastCount.toNat []).foldl KeyBuf.add s.keys

/-- The executions of `mssql_dml_execute_returning_rowids`, one for each row. -/
def collectAll (keys : KeyBuf) (runs : List OdbcRun) : Option KeyBuf :=
  runs.foldlM collectKeys keys

section Reference

def KeyFetch.text : KeyFetch → Option CString
  | .key text _ => some (text.getD [])
  | .fails => none

/-- The key of a row fits the buffer that core reads. -/
def KeyFetch.Fits : KeyFetch → Prop
  | .key (some text) noTotal => noTotal = false ∧ text.length < rowidBufSize
  | .key none _ => True
  | .fails => False

instance : DecidablePred KeyFetch.Fits
  | .key (some text) noTotal => inferInstanceAs (Decidable (noTotal = false ∧ text.length < _))
  | .key none _ => inferInstanceAs (Decidable True)
  | .fails => inferInstanceAs (Decidable False)

def OdbcResult.keys : OdbcResult → Option (List CString)
  | .rows fetches => some (fetches.filterMap KeyFetch.text)
  | .columnsFail | .rowCount _ => none

def lastCount (results : List OdbcResult) : Int :=
  (results.filterMap OdbcResult.count).getLast?.getD 0

def lastKeys (results : List OdbcResult) : Option (List CString) :=
  (results.filterMap OdbcResult.keys).getLast?

/-- The keys of the last result set, or a blank entry for each of the last row count. -/
def OdbcRun.generated (run : OdbcRun) : List CString :=
  (lastKeys run.results).getD (List.replicate (lastCount run.results).toNat [])

def OdbcResult.Fits : OdbcResult → Prop
  | .columnsFail => False
  | .rowCount _ => True
  | .rows fetches => ∀ f ∈ fetches, f.Fits

instance : DecidablePred OdbcResult.Fits
  | .columnsFail => inferInstanceAs (Decidable False)
  | .rowCount _ => inferInstanceAs (Decidable True)
  | .rows fetches => inferInstanceAs (Decidable (∀ f ∈ fetches, f.Fits))

/-- No ODBC call fails, and every key fits. -/
def OdbcRun.Fits (run : OdbcRun) : Prop :=
  run.moreFails = false ∧ ∀ result ∈ run.results, result.Fits

instance (run : OdbcRun) : Decidable run.Fits := inferInstanceAs (Decidable (_ ∧ _))

end Reference

section Counts

theorem lastCount_concat (seen : List OdbcResult) (result : OdbcResult) :
    lastCount (seen ++ [result]) = countOf (lastCount seen) result := by
  rw [lastCount, List.filterMap_append, countOf]
  cases count : result.count with
  | none =>
    rw [List.filterMap_cons_none count, List.filterMap_nil, List.append_nil]
    rfl
  | some n => rw [List.filterMap_cons_some count, List.filterMap_nil, List.getLast?_concat]; rfl

theorem foldl_countOf (results : List OdbcResult) :
    results.foldl countOf 0 = lastCount results := by
  induction results using List.reverseRecOn with
  | nil => rfl
  | append_singleton results result ih =>
    rw [List.foldl_append, List.foldl_cons, List.foldl_nil, ih, lastCount_concat]

theorem moreCounts_eq {moreFails : Bool} {guard : Nat} {more : List OdbcResult}
    (few : more.length < guard) (last : Int) :
    moreCounts moreFails guard last more =
      if moreFails then none else some (more.foldl countOf last) := by
  induction more generalizing guard last with
  | nil =>
    cases guard with
    | zero => cases few
    | succ guard => rfl
  | cons result more ih =>
    cases guard with
    | zero => cases few
    | succ guard =>
      rw [moreCounts]
      exact ih (Nat.lt_of_succ_lt_succ few) _

/-- The last row count that the statement gives is reported, or the error behind the results. -/
theorem readResults_eq {run : OdbcRun} (few : run.results.length < 1000) :
    readResults run = if run.moreFails then none else some (lastCount run.results) := by
  have short : run.more.length < 1000 := by
    rw [OdbcRun.results, List.length_append] at few
    omega
  rw [readResults, moreCounts_eq short, ← List.foldl_append]
  exact congrArg (fun n => if run.moreFails then none else some n) (foldl_countOf run.results)

end Counts

section Keys

theorem lastKeys_concat (seen : List OdbcResult) (result : OdbcResult) :
    lastKeys (seen ++ [result]) = result.keys.or (lastKeys seen) := by
  rw [lastKeys, List.filterMap_append]
  cases keys : result.keys with
  | none =>
    rw [List.filterMap_cons_none keys, List.filterMap_nil, List.append_nil]
    rfl
  | some ks => rw [List.filterMap_cons_some keys, List.filterMap_nil, List.getLast?_concat]; rfl

/-- Where `collect_keys` stands after some results of an execution. -/
structure Seen (old : List CString) (seen : List OdbcResult) (s : Collecting) : Prop where
  entries : s.keys.entries = old ++ (lastKeys seen).getD []
  start : s.start = old.length
  sawOutput : s.sawOutput = (lastKeys seen).isSome
  lastCount : s.lastCount = Mssql.lastCount seen

theorem Collecting.entries_reset {old : List CString} {seen : List OdbcResult} {s : Collecting}
    (known : Seen old seen s) : s.reset.keys.entries = old := by
  have entries := known.entries
  have behind := s.behind
  rw [KeyBuf.entries] at entries
  have started := congrArg (List.take s.start) entries
  rw [List.take_take, Nat.min_eq_left behind, known.start, List.take_left] at started
  rw [Collecting.reset, KeyBuf.entries]
  dsimp only
  rw [known.start]
  exact started

theorem Collecting.fetch_fits {s : Collecting} {f : KeyFetch} (fits : f.Fits) :
    ∃ key, f.text = some key ∧ s.fetch f = some (s.add key) ∧ key.length < rowidBufSize := by
  match f with
  | .key none _ => exact ⟨[], rfl, rfl, by decide⟩
  | .key (some text) noTotal =>
    obtain ⟨rfl, short⟩ := fits
    have whole : text.take 63 = text := List.take_of_length_le (by
      rw [rowidBufSize] at short
      omega)
    refine ⟨text, rfl, ?_, short⟩
    rw [Collecting.fetch, if_neg (by simpa using short), whole]

theorem Collecting.fetch_refused {s : Collecting} {f : KeyFetch} (refused : ¬f.Fits) :
    s.fetch f = none := by
  match f with
  | .fails => rfl
  | .key none _ => exact absurd trivial refused
  | .key (some text) noTotal =>
    rw [Collecting.fetch, if_pos]
    by_contra fine
    rw [not_or, Bool.not_eq_true, Nat.not_le] at fine
    exact refused fine

theorem Collecting.fetches_fit {fetches : List KeyFetch} : ∀ {s : Collecting},
    (∀ f ∈ fetches, f.Fits) → ∃ after, fetches.foldlM Collecting.fetch s = some after ∧
      after.keys.entries = s.keys.entries ++ fetches.filterMap KeyFetch.text ∧
      after.start = s.start ∧ after.sawOutput = s.sawOutput ∧ after.lastCount = s.lastCount := by
  induction fetches with
  | nil =>
    intro s _
    exact ⟨s, rfl, (List.append_nil _).symm, rfl, rfl, rfl⟩
  | cons f fetches ih =>
    intro s fits
    obtain ⟨here, rest⟩ := List.forall_mem_cons.mp fits
    obtain ⟨key, text, fetched, short⟩ := @Collecting.fetch_fits s f here
    obtain ⟨after, all, entries, same⟩ := @ih (s.add key) rest
    refine ⟨after, ?_, ?_, same⟩
    · rw [List.foldlM_cons, fetched]
      exact all
    · have added : (s.add key).keys.entries = s.keys.entries ++ [key] := by
        rw [Collecting.add, KeyBuf.entries_add, List.take_of_length_le (by omega)]
      rw [entries, added, List.filterMap_cons_some text, List.append_assoc]
      rfl

theorem Collecting.fetches_refused {fetches : List KeyFetch} : ∀ {s : Collecting},
    ¬(∀ f ∈ fetches, f.Fits) → fetches.foldlM Collecting.fetch s = none := by
  induction fetches with
  | nil =>
    intro s refused
    exact absurd (fun f member => nomatch member) refused
  | cons f fetches ih =>
    intro s refused
    rw [List.foldlM_cons]
    by_cases here : f.Fits
    · obtain ⟨key, -, fetched, -⟩ := @Collecting.fetch_fits s f here
      rw [fetched]
      exact ih fun rest => refused (List.forall_mem_cons.mpr ⟨here, rest⟩)
    · rw [Collecting.fetch_refused here]
      rfl

/-- What a result does to the keys of an execution. -/
theorem Seen.read {old : List CString} {seen : List OdbcResult} {s : Collecting}
    (known : Seen old seen s) {result : OdbcResult} (fits : result.Fits) :
    ∃ after, s.read result = some after ∧ Seen old (seen ++ [result]) after := by
  cases result with
  | columnsFail => exact absurd fits id
  | rowCount n =>
    refine ⟨_, rfl, ?_, known.start, ?_, ?_⟩
    · rw [lastKeys_concat]
      exact known.entries
    · rw [lastKeys_concat]
      exact known.sawOutput
    · rw [lastCount_concat, ← known.lastCount]
  | rows fetches =>
    obtain ⟨after, all, entries, start, sawOutput, counted⟩ :=
      @Collecting.fetches_fit fetches s.reset fits
    refine ⟨after, all, ?_, ?_, ?_, ?_⟩
    · rw [entries, Collecting.entries_reset known, lastKeys_concat]
      rfl
    · exact start.trans known.start
    · rw [sawOutput, lastKeys_concat]
      rfl
    · rw [counted, lastCount_concat]
      exact known.lastCount

theorem Collecting.read_refused {s : Collecting} {result : OdbcResult} (refused : ¬result.Fits) :
    s.read result = none := by
  cases result with
  | columnsFail => rfl
  | rowCount n => exact absurd trivial refused
  | rows fetches => exact Collecting.fetches_refused refused

theorem Seen.current {old : List CString} {seen : List OdbcResult} {s : Collecting}
    (known : Seen old seen s) {current : Option OdbcResult}
    (fits : ∀ result ∈ current.toList, result.Fits) :
    ∃ after, current.toList.foldlM Collecting.read s = some after ∧
      Seen old (seen ++ current.toList) after := by
  cases current with
  | none =>
    refine ⟨s, rfl, ?_⟩
    rwa [Option.toList_none, List.append_nil]
  | some result =>
    obtain ⟨after, made, seenAll⟩ := known.read (fits result (Option.mem_toList.mpr rfl))
    refine ⟨after, ?_, seenAll⟩
    rw [Option.toList_some, List.foldlM_cons, made]
    rfl

/-- All results that fit are read, within the limit of the loop. -/
theorem Seen.loop {old : List CString} {more : List OdbcResult} : ∀ {guard : Nat}
    {seen : List OdbcResult} {s : Collecting} {current : Option OdbcResult},
    Seen old seen s → more.length < guard → (∀ result ∈ current.toList ++ more, result.Fits) →
    ∃ after, collectLoop false guard s current more = some after ∧
      Seen old (seen ++ (current.toList ++ more)) after := by
  induction more with
  | nil =>
    intro guard seen s current known few fits
    obtain ⟨guard, rfl⟩ := Nat.exists_eq_add_one_of_ne_zero (Nat.ne_of_gt few)
    rw [List.append_nil] at fits ⊢
    obtain ⟨after, made, seenAll⟩ := known.current fits
    refine ⟨after, ?_, seenAll⟩
    rw [collectLoop, made]
    rfl
  | cons next more ih =>
    intro guard seen s current known few fits
    obtain ⟨guard, rfl⟩ := Nat.exists_eq_add_one_of_ne_zero (Nat.ne_of_gt (Nat.zero_lt_of_lt few))
    obtain ⟨here, rest⟩ := List.forall_mem_append.mp fits
    obtain ⟨middle, made, seenHere⟩ := known.current here
    obtain ⟨after, all, seenAll⟩ := @ih guard _ middle (some next) seenHere
      (Nat.lt_of_succ_lt_succ few) rest
    refine ⟨after, ?_, ?_⟩
    · rw [collectLoop, made]
      exact all
    · rwa [List.append_assoc] at seenAll

/-- A result that does not fit, or an error behind the results, ends the loop. -/
theorem collectLoop_refused {moreFails : Bool} {more : List OdbcResult} : ∀ {guard : Nat}
    {s : Collecting} {current : Option OdbcResult}, more.length < guard →
    ¬(moreFails = false ∧ ∀ result ∈ current.toList ++ more, result.Fits) →
    collectLoop moreFails guard s current more = none := by
  induction more with
  | nil =>
    intro guard s current few refused
    obtain ⟨guard, rfl⟩ := Nat.exists_eq_add_one_of_ne_zero (Nat.ne_of_gt few)
    rw [collectLoop, Option.bind_eq_none_iff]
    intro after read
    cases moreFails with
    | true => rfl
    | false =>
      refine absurd ⟨rfl, fun result member => ?_⟩ refused
      rw [List.append_nil] at member
      obtain rfl := Option.mem_toList.mp member
      by_contra tooLong
      rw [Option.toList_some, List.foldlM_cons, Collecting.read_refused tooLong] at read
      cases read
  | cons next more ih =>
    intro guard s current few refused
    obtain ⟨guard, rfl⟩ := Nat.exists_eq_add_one_of_ne_zero (Nat.ne_of_gt (Nat.zero_lt_of_lt few))
    rw [collectLoop, Option.bind_eq_none_iff]
    intro after read
    refine @ih guard after (some next) (Nat.lt_of_succ_lt_succ few) ?_
    rintro ⟨fine, rest⟩
    refine refused ⟨fine, List.forall_mem_append.mpr ⟨fun result member => ?_, rest⟩⟩
    obtain rfl := Option.mem_toList.mp member
    by_contra tooLong
    rw [Option.toList_some, List.foldlM_cons, Collecting.read_refused tooLong] at read
    cases read

theorem entries_blanks (keys : KeyBuf) (n : Nat) :
    ((List.replicate n []).foldl KeyBuf.add keys).entries =
      keys.entries ++ List.replicate n [] := by
  induction n generalizing keys with
  | zero => exact (List.append_nil _).symm
  | succ n ih =>
    rw [List.replicate_succ, List.foldl_cons, ih, KeyBuf.entries_add, List.take_nil,
      List.append_assoc]
    rfl

/-- One execution adds the generated keys to those of earlier ones. -/
theorem collectKeys_fits (keys : KeyBuf) {run : OdbcRun} (few : run.results.length < 1000)
    (fits : run.Fits) : ∃ after, collectKeys keys run = some after ∧
      after.entries = keys.entries ++ run.generated := by
  obtain ⟨fine, readable⟩ := fits
  have short : run.more.length < 1000 := by
    rw [OdbcRun.results, List.length_append] at few
    omega
  have fresh : Seen keys.entries [] ⟨keys, keys.count, Nat.le_refl _, false, 0⟩ :=
    ⟨(List.append_nil _).symm, keys.length_entries.symm, rfl, rfl⟩
  obtain ⟨s, made, entries, -, sawOutput, counted⟩ := fresh.loop short readable
  rw [List.nil_append] at entries sawOutput counted
  rw [collectKeys, fine, made]
  refine ⟨_, rfl, ?_⟩
  rw [OdbcRun.generated, OdbcRun.results, ← counted]
  dsimp only
  rw [sawOutput]
  cases last : lastKeys (run.first.toList ++ run.more) with
  | some ks =>
    rw [Option.isSome_some, if_pos rfl, entries, last]
    rfl
  | none =>
    rw [Option.isSome_none, if_neg Bool.false_ne_true, entries_blanks, entries, last,
      Option.getD_none, List.append_nil, Option.getD_none]

theorem collectKeys_refused (keys : KeyBuf) {run : OdbcRun} (few : run.results.length < 1000)
    (refused : ¬run.Fits) : collectKeys keys run = none := by
  have short : run.more.length < 1000 := by
    rw [OdbcRun.results, List.length_append] at few
    omega
  rw [collectKeys, collectLoop_refused short refused]
  rfl

/-- Every execution adds its generated keys, in order, and nothing is lost between them. -/
theorem collectAll_fits {runs : List OdbcRun} : ∀ (keys : KeyBuf),
    (∀ run ∈ runs, run.results.length < 1000 ∧ run.Fits) →
    ∃ after, collectAll keys runs = some after ∧
      after.entries = keys.entries ++ runs.flatMap OdbcRun.generated := by
  induction runs with
  | nil =>
    intro keys _
    exact ⟨keys, rfl, (List.append_nil _).symm⟩
  | cons run runs ih =>
    intro keys fit
    obtain ⟨⟨few, fits⟩, rest⟩ := List.forall_mem_cons.mp fit
    obtain ⟨middle, made, entries⟩ := collectKeys_fits keys few fits
    obtain ⟨after, all, added⟩ := ih middle rest
    refine ⟨after, ?_, ?_⟩
    · rw [collectAll, List.foldlM_cons, made]
      exact all
    · rw [added, entries, List.append_assoc, List.flatMap_cons]

/-- The keys and the row counts of the executions of a statement, whatever their results. -/
theorem generated_keys_collected (keys : KeyBuf) (runs : List OdbcRun)
    (few : ∀ run ∈ runs, run.results.length < 1000) :
    (∀ run ∈ runs, readResults run =
      if run.moreFails then none else some (lastCount run.results)) ∧
    ((∀ run ∈ runs, run.Fits) → ∃ after, collectAll keys runs = some after ∧
      after.entries = keys.entries ++ runs.flatMap OdbcRun.generated) ∧
    ((∃ run ∈ runs, ¬run.Fits) → collectAll keys runs = none) := by
  refine ⟨fun run member => readResults_eq (few run member), ?_, ?_⟩
  · intro fits
    exact collectAll_fits keys fun run member => ⟨few run member, fits run member⟩
  · rintro ⟨run, member, refused⟩
    obtain ⟨before, after, rfl⟩ := List.append_of_mem member
    rw [collectAll, List.foldlM_append, Option.bind_eq_bind, Option.bind_eq_none_iff]
    intro middle _
    rw [List.foldlM_cons, collectKeys_refused middle (few run member) refused]
    rfl

theorem generated_keys_collected_behind_trigger :
    ∃ after, collectAll .empty
        [⟨some (.rowCount (some 3)), [.rows [.key (some "7".toList) false,
          .key (some "8".toList) false]], false⟩,
        ⟨none, [.rowCount (some 1)], false⟩] = some after ∧
      after.entries = ["7".toList, "8".toList, []] :=
  (generated_keys_collected .empty
    [⟨some (.rowCount (some 3)), [.rows [.key (some "7".toList) false,
      .key (some "8".toList) false]], false⟩, ⟨none, [.rowCount (some 1)], false⟩]
    (by decide)).2.1 (by decide)

/-- A key of 24 characters is refused. -/
theorem generated_keys_too_long :
    ¬∀ (keys : KeyBuf) (run : OdbcRun), run.results.length < 1000 → run.moreFails = false →
      (∀ result ∈ run.results, result ≠ .columnsFail ∧
        ∀ fetches, result = .rows fetches → ∀ f ∈ fetches, f ≠ .fails) →
      (collectKeys keys run).map KeyBuf.entries = some (keys.entries ++ run.generated) := by
  intro collects
  have collected := collects .empty
    ⟨some (.rows [.key (some "0123456789ABCDEF01234567".toList) false]), [], false⟩
    (by decide) rfl (by
      intro result member
      obtain rfl := List.mem_singleton.mp member
      refine ⟨by simp, ?_⟩
      rintro fetches ⟨⟩ f found
      obtain rfl := List.mem_singleton.mp found
      simp)
  exact absurd collected (by decide)

end Keys

end OciWrapper.Mssql

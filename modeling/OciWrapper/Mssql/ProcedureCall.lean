import OciWrapper.Text.Buffers

namespace OciWrapper.Mssql

open OciWrapper.Text

inductive ProcParamType
  | str | int | cursor
  deriving DecidableEq

structure ProcParam where
  name : Option CString
  type : ProcParamType
  deriving DecidableEq

/-- `MAX_PLSQL_BLOCK_LEN` and `MS_PROC_CALL_MAX`. -/
def procCallMax : Nat := 8192

def callHead : CString := "\x7bCALL ".toList

/-- `snprintf(out + used, out_max - used, "%s", piece)`, refused when it is cut. -/
def appendFmt (outMax : Nat) (out piece : CString) : Option CString :=
  if piece.length < outMax - out.length then some (out ++ piece) else none

/-- The loops that write the `?` list; `first` stands before the first one. -/
def appendMarkers (outMax : Nat) (first : CString) : Nat → Bool → CString → Option CString
  | 0, _, out => some out
  | n + 1, started, out => do
    let out ← appendFmt outMax out ((if started then ", ".toList else first) ++ ['?'])
    appendMarkers outMax first n true out

def msProcedureCallSql (procName : CString) (paramNames : List (Option CString)) (outMax : Nat) :
    Option CString :=
  if paramNames = [] then fmt outMax (callHead ++ procName ++ ['}'])
  else do
    let out ← fmt outMax (callHead ++ procName ++ ['('])
    if paramNames.any Option.isNone then none
    else
      let out ← appendMarkers outMax [] paramNames.length false out
      appendFmt outMax out ")\x7d".toList

/-- The loop of `px_call_text` over the parameter list of the block. -/
def readMarkers : Nat → Bool → CString → Option CString
  | 0, _, p => some p
  | n + 1, started, p =>
    if started && !", ".toList.isPrefixOf p then none
    else
      match if started then p.drop 2 else p with
      | '?' :: p => readMarkers n true p
      | _ => none

/-- The parameters that `mssql_proc_execute` binds. -/
def boundParams (params : List ProcParam) : List ProcParam :=
  params.filter fun param => param.type ≠ .cursor

def pxCallText (block : CString) (params : List ProcParam) (outMax : Nat) : Option CString :=
  if !callHead.isPrefixOf block || block.length < 7 || block.getLast? != some '}' then none
  else
    let name := block.drop 6
    let opened := name.contains '('
    let nameLen := if opened then (name.takeWhile (· != '(')).length else block.length - 1 - 6
    let listed :=
      if params = [] then !opened
      else opened &&
        readMarkers params.length false ((name.dropWhile (· != '(')).drop 1) = some ")\x7d".toList
    if nameLen = 0 || !listed then none
    else do
      let kept := (boundParams params).length
      let out ← fmt outMax (callHead ++ name.take nameLen)
      let out ← appendMarkers outMax ['('] kept false out
      appendFmt outMax out (if kept = 0 then ['}'] else ")\x7d".toList)

/-- The bind loop: the position and the parameter of each `SQLBindParameter`. -/
def bindLoop : List ProcParam → Nat → List (Nat × ProcParam)
  | [], _ => []
  | param :: params, pos =>
    if param.type = .cursor then bindLoop params pos
    else
      let pos := (pos + 1) % 2 ^ 16
      (pos, param) :: bindLoop params pos

/-- The ODBC call of a procedure with `n` markers. -/
def odbcCall (procName : CString) (n : Nat) : CString :=
  callHead ++ procName ++
    (if n = 0 then [] else '(' :: joined ", ".toList (List.replicate n ['?']) ++ [')']) ++ ['}']

section CallText

/-- What the marker loops write. -/
def markerText (first : CString) : Nat → Bool → CString
  | 0, _ => []
  | n + 1, started =>
    (if started then ", ".toList else first) ++ ['?'] ++ markerText first n true

theorem appendFmt_some {outMax : Nat} {out piece : CString}
    (fits : (out ++ piece).length < outMax) :
    appendFmt outMax out piece = some (out ++ piece) := by
  rw [List.length_append] at fits
  rw [appendFmt, if_pos (by omega)]

theorem appendFmt_eq_some {outMax : Nat} {out piece result : CString}
    (written : appendFmt outMax out piece = some result) :
    result = out ++ piece ∧ result.length < outMax := by
  rw [appendFmt] at written
  split at written
  next fits =>
    obtain rfl := Option.some.inj written
    refine ⟨rfl, ?_⟩
    rw [List.length_append]
    omega
  next => cases written

theorem appendMarkers_some {outMax : Nat} {first : CString} {n : Nat} :
    ∀ {started : Bool} {out : CString}, (out ++ markerText first n started).length < outMax →
    appendMarkers outMax first n started out = some (out ++ markerText first n started) := by
  induction n with
  | zero =>
    intro started out _
    rw [markerText, List.append_nil]
    rfl
  | succ n ih =>
    intro started out fits
    rw [markerText, ← List.append_assoc] at fits ⊢
    have room : (out ++ ((if started then ", ".toList else first) ++ ['?'])).length < outMax := by
      rw [List.length_append] at fits
      omega
    rw [appendMarkers, appendFmt_some room, Option.bind_eq_bind, Option.bind_some]
    exact ih fits

theorem appendMarkers_eq_some {outMax : Nat} {first : CString} {n : Nat} :
    ∀ {started : Bool} {out result : CString},
    appendMarkers outMax first n started out = some result →
    result = out ++ markerText first n started := by
  induction n with
  | zero =>
    intro started out result written
    rw [markerText, List.append_nil]
    exact (Option.some.inj written).symm
  | succ n ih =>
    intro started out result written
    obtain ⟨next, appended, rest⟩ := Option.bind_eq_some_iff.mp written
    rw [ih rest, (appendFmt_eq_some appended).1, markerText, List.append_assoc]

theorem markerText_first (first : CString) (n : Nat) :
    markerText first (n + 1) false = first ++ markerText [] (n + 1) false := by
  have tail : ∀ n, markerText first n true = markerText [] n true := by
    intro n
    induction n with
    | zero => rfl
    | succ n ih => rw [markerText, ih, markerText]; rfl
  rw [markerText, tail, markerText, if_neg Bool.false_ne_true, if_neg Bool.false_ne_true,
    List.nil_append, List.append_assoc]

theorem markerText_joined (n : Nat) (started : Bool) :
    markerText [] n started = joinFrom ", ".toList started (List.replicate n ['?']) := by
  induction n generalizing started with
  | zero => rfl
  | succ n ih => rw [markerText, ih, List.replicate_succ, joinFrom]

theorem readMarkers_markerText (n : Nat) (started : Bool) (rest : CString) :
    readMarkers n started (markerText [] n started ++ rest) = some rest := by
  induction n generalizing started with
  | zero => rfl
  | succ n ih =>
    cases started with
    | false => exact ih true
    | true => exact ih true

theorem odbcCall_succ (procName : CString) (n : Nat) :
    odbcCall procName (n + 1) =
      callHead ++ procName ++ markerText ['('] (n + 1) false ++ ")\x7d".toList := by
  rw [odbcCall, if_neg (Nat.succ_ne_zero n), markerText_first, markerText_joined, joined]
  simp

theorem length_odbcCall (procName : CString) (n : Nat) :
    (odbcCall procName n).length =
      if n = 0 then procName.length + 7 else procName.length + 7 + 3 * n := by
  have size : ∀ first n, (markerText first n true).length = 3 * n := by
    intro first n
    induction n with
    | zero => rfl
    | succ n ih =>
      rw [markerText, List.length_append, List.length_append, ih]
      change 2 + 1 + 3 * n = _
      omega
  cases n with
  | zero =>
    rw [odbcCall, if_pos rfl, List.append_nil, List.length_append, List.length_append]
    change 6 + procName.length + 1 = procName.length + 7
    omega
  | succ n =>
    rw [odbcCall_succ, markerText, if_neg (Nat.succ_ne_zero n)]
    simp only [List.length_append, size]
    change 6 + procName.length + (1 + 1 + 3 * n) + 2 = _
    omega

theorem odbcCall_mono (procName : CString) {kept n : Nat} (fewer : kept ≤ n) :
    (odbcCall procName kept).length ≤ (odbcCall procName n).length := by
  rw [length_odbcCall, length_odbcCall]
  split <;> split <;> omega

theorem length_le_odbcCall (procName : CString) (n : Nat) : n ≤ (odbcCall procName n).length := by
  rw [length_odbcCall]
  split <;> omega

theorem msProcedureCallSql_eq_some {procName : CString} {names : List (Option CString)}
    {outMax : Nat} {block : CString}
    (written : msProcedureCallSql procName names outMax = some block) :
    block = odbcCall procName names.length ∧ block.length < outMax := by
  rw [msProcedureCallSql] at written
  split at written
  next empty =>
    subst empty
    obtain ⟨rfl, fits⟩ := fmt_eq_some written
    rw [List.length_nil, odbcCall, if_pos rfl, List.append_nil]
    exact ⟨rfl, fits⟩
  next filled =>
    obtain ⟨n, length⟩ := Nat.exists_eq_succ_of_ne_zero (mt List.length_eq_zero_iff.mp filled)
    obtain ⟨head, formatted, written⟩ := Option.bind_eq_some_iff.mp written
    split at written
    · cases written
    obtain ⟨listed, markers, closed⟩ := Option.bind_eq_some_iff.mp written
    obtain ⟨rfl, fits⟩ := appendFmt_eq_some closed
    refine ⟨?_, fits⟩
    rw [appendMarkers_eq_some markers, (fmt_eq_some formatted).1, length, odbcCall_succ,
      markerText_first ['(']]
    simp

end CallText

section Accepted

variable {procName : CString}

theorem takeWhile_name (plain : '(' ∉ procName) (rest : CString) :
    (procName ++ '(' :: rest).takeWhile (· != '(') = procName := by
  rw [List.takeWhile_append_of_pos]
  · simp
  · intro c member
    exact bne_iff_ne.mpr fun same => plain (same ▸ member)

theorem dropWhile_name (plain : '(' ∉ procName) (rest : CString) :
    (procName ++ '(' :: rest).dropWhile (· != '(') = '(' :: rest := by
  rw [List.dropWhile_append_of_pos]
  · simp
  · intro c member
    exact bne_iff_ne.mpr fun same => plain (same ▸ member)

theorem bindLoop_eq {params : List ProcParam} : ∀ {pos : Nat}, pos + params.length < 2 ^ 16 →
    bindLoop params pos =
      (List.range' (pos + 1) (boundParams params).length).zip (boundParams params) := by
  induction params with
  | nil =>
    intro pos _
    rfl
  | cons param params ih =>
    intro pos few
    rw [List.length_cons] at few
    rw [bindLoop]
    split
    next cursor =>
      have skipped : boundParams (param :: params) = boundParams params := by
        rw [boundParams, List.filter_cons_of_neg]
        · rfl
        · simpa using cursor
      rw [skipped]
      exact ih (by omega)
    next bound =>
      have kept : boundParams (param :: params) = param :: boundParams params := by
        rw [boundParams, List.filter_cons_of_pos]
        · rfl
        · simpa using bound
      rw [kept, List.length_cons, List.range'_succ, List.zip_cons_cons]
      dsimp only
      rw [Nat.mod_eq_of_lt (by omega), ih (by omega)]

/-- The call that `px_call_text` writes. -/
theorem write_call {kept outMax : Nat} (fits : (odbcCall procName kept).length < outMax) :
    (do
      let out ← fmt outMax (callHead ++ procName)
      let out ← appendMarkers outMax ['('] kept false out
      appendFmt outMax out (if kept = 0 then ['}'] else ")\x7d".toList)) =
      some (odbcCall procName kept) := by
  cases kept with
  | zero =>
    have call : odbcCall procName 0 = callHead ++ procName ++ ['}'] := by
      rw [odbcCall, if_pos rfl, List.append_nil]
    rw [call] at fits ⊢
    have room : (callHead ++ procName).length < outMax := by
      rw [List.length_append] at fits
      omega
    rw [fmt, if_pos room, Option.bind_eq_bind, Option.bind_some]
    exact appendFmt_some fits
  | succ kept =>
    rw [odbcCall_succ] at fits ⊢
    have marked : (callHead ++ procName ++ markerText ['('] (kept + 1) false).length < outMax := by
      rw [List.length_append] at fits
      omega
    have room : (callHead ++ procName).length < outMax := by
      rw [List.length_append] at marked
      omega
    rw [fmt, if_pos room, Option.bind_eq_bind, Option.bind_some, appendMarkers_some marked,
      Option.bind_some]
    exact appendFmt_some fits

theorem block_guard (rest : CString) (filled : rest ≠ []) :
    (!callHead.isPrefixOf (callHead ++ (rest ++ ['}'])) ||
      decide ((callHead ++ (rest ++ ['}'])).length < 7) ||
      (callHead ++ (rest ++ ['}'])).getLast? != some '}') = false := by
  have size := List.length_pos_of_ne_nil filled
  have head : callHead.isPrefixOf (callHead ++ (rest ++ ['}'])) = true :=
    List.isPrefixOf_iff_prefix.mpr (List.prefix_append _ _)
  have last : (callHead ++ (rest ++ ['}'])).getLast? = some '}' := by
    rw [← List.append_assoc, List.getLast?_concat]
  have long : ¬(callHead ++ (rest ++ ['}'])).length < 7 := by
    rw [List.length_append, List.length_append]
    change ¬6 + (rest.length + 1) < 7
    omega
  rw [head, last, decide_eq_false long]
  rfl

/-- `px_call_text` on the dialect's call text. -/
theorem pxCallText_odbcCall (filled : procName ≠ []) (plain : '(' ∉ procName)
    {params : List ProcParam} {outMax : Nat}
    (fits : (odbcCall procName params.length).length < outMax) :
    pxCallText (odbcCall procName params.length) params outMax =
      some (odbcCall procName (boundParams params).length) := by
  have size := List.length_pos_of_ne_nil filled
  have fewer : (boundParams params).length ≤ params.length := List.length_filter_le _ params
  have shorter := Nat.lt_of_le_of_lt (odbcCall_mono procName fewer) fits
  have drop : ∀ rest, (callHead ++ rest).drop 6 = rest := fun _ => rfl
  cases params with
  | nil =>
    have block : odbcCall procName 0 = callHead ++ (procName ++ ['}']) := by
      rw [odbcCall, if_pos rfl, List.append_nil, List.append_assoc]
    have closed : (procName ++ ['}']).contains '(' = false := by
      rw [Bool.eq_false_iff]
      simpa using plain
    have nameLen : (callHead ++ (procName ++ ['}'])).length - 1 - 6 = procName.length := by
      rw [List.length_append, List.length_append]
      change 6 + (procName.length + 1) - 1 - 6 = _
      omega
    rw [List.length_nil, block, pxCallText, block_guard procName filled, if_neg Bool.false_ne_true]
    dsimp only
    rw [drop, closed, if_neg Bool.false_ne_true, nameLen, if_pos rfl, List.take_left,
      if_neg (by simpa using filled)]
    exact write_call shorter
  | cons param params =>
    have block : odbcCall procName (param :: params).length = callHead ++
        ((procName ++ '(' :: (markerText [] (params.length + 1) false ++ [')'])) ++ ['}']) := by
      rw [List.length_cons, odbcCall_succ, markerText_first]
      simp
    have name : (procName ++ '(' :: (markerText [] (params.length + 1) false ++ [')'])) ++ ['}'] =
        procName ++ '(' :: (markerText [] (params.length + 1) false ++ ")\x7d".toList) := by
      simp
    have opened : (procName ++ '(' :: (markerText [] (params.length + 1) false ++
        ")\x7d".toList)).contains '(' = true := by
      simp
    rw [block, pxCallText, block_guard _ (by simp), if_neg Bool.false_ne_true]
    dsimp only
    rw [drop, name, opened, if_pos rfl, takeWhile_name plain, dropWhile_name plain,
      if_neg (List.cons_ne_nil _ _), List.drop_one, List.tail_cons, List.length_cons,
      readMarkers_markerText, List.take_left, if_neg (by simpa using filled)]
    exact write_call shorter

end Accepted

/-- The dialect's text of a call is taken by the driver, which keeps the name and one marker for
each parameter that is no cursor, and binds these in order. -/
theorem procedure_call_binds (procName : CString) (filled : procName ≠ []) (plain : '(' ∉ procName)
    (params : List ProcParam) {block : CString}
    (written : msProcedureCallSql procName (params.map ProcParam.name) procCallMax = some block) :
    pxCallText block params procCallMax = some (odbcCall procName (boundParams params).length) ∧
      bindLoop params 0 =
        (List.range' 1 (boundParams params).length).zip (boundParams params) := by
  obtain ⟨rfl, fits⟩ := msProcedureCallSql_eq_some written
  rw [List.length_map] at fits ⊢
  refine ⟨pxCallText_odbcCall filled plain fits, ?_⟩
  have few := length_le_odbcCall procName params.length
  rw [procCallMax] at fits
  exact bindLoop_eq (by omega)

theorem procedure_call_binds_three :
    pxCallText "\x7bCALL dbo.P(?, ?, ?)\x7d".toList
      [⟨some ['A'], .str⟩, ⟨some ['C'], .cursor⟩, ⟨some ['N'], .int⟩] procCallMax =
        some (odbcCall "dbo.P".toList 2) :=
  (procedure_call_binds "dbo.P".toList (by decide) (by decide)
    [⟨some ['A'], .str⟩, ⟨some ['C'], .cursor⟩, ⟨some ['N'], .int⟩]
    (by decide +kernel : _ = some "\x7bCALL dbo.P(?, ?, ?)\x7d".toList)).1

end OciWrapper.Mssql

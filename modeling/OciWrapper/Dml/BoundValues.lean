import OciWrapper.Dml.StatementText

namespace OciWrapper.Dml

open OciWrapper.Text

def clobFilePrefix : CString := "file://".toList

/-- `lob_text_resolve`; `readFile` gives what a file holds, when it can be read. -/
def lobTextResolve (readFile : CString → Option CString) (raw : CString) : Option CString :=
  if clobFilePrefix.isPrefixOf raw then readFile (raw.drop clobFilePrefix.length) else some raw

/-- The value bound for a column, NULL when it is empty; `scalar` is the text of the value
    where it is no LOB text. -/
def boundValue (readFile : CString → Option CString) (dtype scalar : CString) (v : ColValue) :
    Option (Option CString) :=
  if v.isEmpty then some none
  else if dbTypeTextBound dtype then (lobTextResolve readFile v.get).map some
  else some (some scalar)

/-- The loop that binds the values of one row: a LOB column is passed over. -/
def bindRow (readFile : CString → Option CString) (cols : List ColMetadata)
    (scalar : ColValue → CString) : List CString → List ColValue → Option (List (Option CString))
  | colName :: colNames, v :: values =>
    let dtype := dataTypeOf cols colName
    if dbTypeLobKind dtype ≠ .none then bindRow readFile cols scalar colNames values
    else do
      let value ← boundValue readFile dtype (scalar v) v
      let rest ← bindRow readFile cols scalar colNames values
      some (value :: rest)
  | _, _ => some []

/-- `bind_values` of `execute_insert_batch`, row by row. -/
def insertBindValues (readFile : CString → Option CString) (cols : List ColMetadata)
    (ic : InsertCtx) : Option (List (List (Option CString))) :=
  ic.rows.mapM (bindRow readFile cols (·.value) ic.colNames)

/-- `bind_values` of `execute_update_batch`: the SET values, then the keys. -/
def updateBindValues (readFile : CString → Option CString) (cols : List ColMetadata)
    (uc : UpdateCtx) : Option (List (Option CString)) :=
  (bindRow readFile cols (·.get) uc.colNames uc.values).map
    (· ++ uc.keys.map fun key => some key.keyValue)

/-- A call of `lob_write_by_rowid` for a column of a returned row. -/
structure LobWrite where
  row : Nat
  column : Nat
  isBlob : Bool
  deriving DecidableEq

/-- Whether the value is written after the statement, and as what. -/
def lobWriteKind (cols : List ColMetadata) (colName : CString) (v : ColValue) : Option Bool :=
  if v.isEmpty then none
  else
    match dbTypeLobKind (dataTypeOf cols colName) with
    | .binary => some true
    | .text => some false
    | .none => none

/-- The LOB writes of `execute_insert_batch` for the `count` rows returned, while each succeeds. -/
def insertLobWrites (cols : List ColMetadata) (ic : InsertCtx) (count : Nat) : List LobWrite :=
  (ic.rows.take count).zipIdx.flatMap fun (values, r) =>
    (ic.colNames.zip values).zipIdx.filterMap fun ((colName, v), c) =>
      (lobWriteKind cols colName v).map (⟨r, c, ·⟩)

/-- The LOB writes of `execute_update_batch`. -/
def updateLobWrites (cols : List ColMetadata) (uc : UpdateCtx) (count : Nat) : List LobWrite :=
  (uc.colNames.zip uc.values).zipIdx.flatMap fun ((colName, v), c) =>
    match lobWriteKind cols colName v with
    | some isBlob => (List.range count).map (⟨·, c, isBlob⟩)
    | none => []

/-- The columns of the binds that the items mark, in reading order, counted from `c`. -/
def attachedFrom (vendor : Vendor) : Nat → List Item → List Nat
  | _, [] => []
  | c, item :: items =>
    List.replicate (markers vendor.bindMark false item.text) c ++ attachedFrom vendor (c + 1) items

def attached (vendor : Vendor) (items : List Item) : List Nat := attachedFrom vendor 0 items

/-- The value is the one to be bound for column `c`. -/
def BoundTo (readFile : CString → Option CString) (cols : List ColMetadata)
    (scalar : ColValue → CString) (colNames : List CString) (values : List ColValue) (c : Nat)
    (bound : Option CString) : Prop :=
  ∃ colName v, colNames[c]? = some colName ∧ values[c]? = some v ∧
    boundValue readFile (dataTypeOf cols colName) (scalar v) v = some bound

/-- Column `c` has the dialect's LOB placeholder in the statement. -/
def HasLobPlaceholder (vendor : Vendor) (cols : List ColMetadata) (items : List Item) (c : Nat) :
    Prop :=
  ∃ item, items[c]? = some item ∧
    vendor.lobPlaceholder (dataTypeOf cols item.column) = some item.text

/-- The value that row `r` gives to column `c` is not empty. -/
def GivesValue (rows : List (List ColValue)) (r c : Nat) : Prop :=
  ∃ values v, rows[r]? = some values ∧ values[c]? = some v ∧ v.isEmpty = false

/-- An INSERT statement with `n` binds agrees with what is bound for it and with its LOB writes. -/
structure InsertAgrees (vendor : Vendor) (readFile : CString → Option CString)
    (cols : List ColMetadata) (ic : InsertCtx) (sql : CString) (n : Nat) (items : List Item) :
    Prop where
  text : ∃ mid tail, sql = insertText (qualified ic.owner ic.tableName) (joined comma ic.colNames)
    mid (joined comma (items.map (·.text))) tail
  columns : items.map (·.column) = ic.colNames
  count : (attached vendor items).length = n
  binds : ∀ rows, insertBindValues readFile cols ic = some rows →
    List.Forall₂ (fun values bound => List.Forall₂
      (BoundTo readFile cols (·.value) ic.colNames values) (attached vendor items) bound)
      ic.rows rows
  lobs : ∀ count r c, (∃ w ∈ insertLobWrites cols ic count, w.row = r ∧ w.column = c) ↔
    r < count ∧ HasLobPlaceholder vendor cols items c ∧ GivesValue ic.rows r c

/-- The same for an UPDATE, whose keys come after its columns. -/
structure UpdateAgrees (vendor : Vendor) (readFile : CString → Option CString)
    (cols : List ColMetadata) (uc : UpdateCtx) (sql : CString) (pos : Nat)
    (sets wheres : List Item) : Prop where
  text : ∃ mid tail, sql = updateText (qualified uc.owner uc.tableName)
    (joined comma (sets.map (·.equation))) mid (joined conjunction (wheres.map (·.equation))) tail
  columns : sets.map (·.column) = uc.colNames
  keys : wheres.map (·.column) = uc.keys.map (·.fieldName)
  count : (attached vendor (sets ++ wheres)).length + 1 = pos
  binds : ∀ bound, updateBindValues readFile cols uc = some bound → List.Forall₂
    (fun c value => BoundTo readFile cols (·.get) uc.colNames uc.values c value ∨
      ∃ k key, c = uc.colNames.length + k ∧ uc.keys[k]? = some key ∧ value = some key.keyValue)
    (attached vendor (sets ++ wheres)) bound
  lobs : ∀ count r c, (∃ w ∈ updateLobWrites cols uc count, w.row = r ∧ w.column = c) ↔
    r < count ∧ HasLobPlaceholder vendor cols sets c ∧
      ∃ v, uc.values[c]? = some v ∧ v.isEmpty = false

section Placement

variable {vendor : Vendor} {cols : List ColMetadata}

/-- The driver reported the type of every column. -/
def ReportedColumns (vendor : Vendor) (cols : List ColMetadata) : Prop :=
  ∀ col ∈ cols, Reported vendor col.dataType

theorem ReportedColumns.agree (reported : ReportedColumns vendor cols) (colName : CString) :
    LobTestsAgree vendor (dataTypeOf cols colName) := by
  rcases dataTypeOf_cases cols colName with unknown | ⟨col, member, same⟩
  · rw [unknown]
    exact lobTestsAgree_unknown vendor
  · rw [same]
    exact (reported col member).lobTestsAgree

theorem ReportedColumns.lob_iff (reported : ReportedColumns vendor cols) (colName : CString) :
    (∃ literal, vendor.lobPlaceholder (dataTypeOf cols colName) = some literal) ↔
      dbTypeLobKind (dataTypeOf cols colName) ≠ .none := by
  have agree := reported.agree colName
  rw [LobTestsAgree] at agree
  rw [← Option.isSome_iff_exists, agree, decide_eq_true_eq]

/-- A column that binds takes the next number, with one mark; a LOB column takes none. -/
theorem columnText_marks {dtype text : CString} {n m : Nat}
    (placed : columnText vendor dtype n = some (text, m)) :
    vendor.lobPlaceholder dtype = some text ∧ m = n ∧
        markers vendor.bindMark false text = 0 ∨
      vendor.lobPlaceholder dtype = none ∧ m = n + 1 ∧
        markers vendor.bindMark false text = 1 := by
  rw [columnText] at placed
  cases lob : vendor.lobPlaceholder dtype with
  | some literal =>
    rw [lob] at placed
    cases placed
    exact .inl ⟨rfl, rfl, Vendor.markers_lobPlaceholder lob⟩
  | none =>
    rw [lob] at placed
    simp only [Option.bind_eq_bind, Option.bind_eq_some_iff] at placed
    obtain ⟨ph, made, expr, wrapped, same⟩ := placed
    cases same
    exact .inr ⟨rfl, rfl, Vendor.markers_valueExpr made wrapped⟩

theorem keyText_marks {dtype text : CString} {n : Nat}
    (placed : keyText vendor dtype n = some text) :
    markers vendor.bindMark false text = 1 := by
  simp only [keyText, Option.bind_eq_bind, Option.bind_eq_some_iff] at placed
  obtain ⟨ph, made, wrapped⟩ := placed
  exact Vendor.markers_valueExpr made wrapped

theorem attachedFrom_append (c : Nat) (items more : List Item) :
    attachedFrom vendor c (items ++ more) =
      attachedFrom vendor c items ++ attachedFrom vendor (c + items.length) more := by
  induction items generalizing c with
  | nil => rfl
  | cons item items ih =>
    rw [List.cons_append, attachedFrom, attachedFrom, ih, List.append_assoc, List.length_cons,
      Nat.add_assoc, Nat.add_comm 1]

theorem Placed.count {items : List Item} : ∀ {n m : Nat} (c : Nat),
    Placed vendor cols n items m → n + (attachedFrom vendor c items).length = m := by
  induction items with
  | nil =>
    intro n m c placed
    exact placed
  | cons item items ih =>
    intro n m c placed
    obtain ⟨next, text, rest⟩ := placed
    have tail := ih (c + 1) rest
    rw [attachedFrom, List.length_append, List.length_replicate]
    rcases columnText_marks text with ⟨-, same, marks⟩ | ⟨-, same, marks⟩ <;> omega

theorem KeysPlaced.count {items : List Item} : ∀ {n m : Nat} (c : Nat),
    KeysPlaced vendor cols n items m → n + (attachedFrom vendor c items).length = m := by
  induction items with
  | nil =>
    intro n m c placed
    exact placed
  | cons item items ih =>
    intro n m c placed
    have marks := keyText_marks placed.1
    have tail := ih (c + 1) placed.2
    rw [attachedFrom, List.length_append, List.length_replicate]
    omega

/-- The values bound for a row are those of the columns that the binds are attached to. -/
theorem Placed.bound {readFile : CString → Option CString} {scalar : ColValue → CString}
    (reported : ReportedColumns vendor cols) {items : List Item} :
    ∀ {n m : Nat} (c : Nat) {values : List ColValue} {bound : List (Option CString)},
    Placed vendor cols n items m → values.length = items.length →
    bindRow readFile cols scalar (items.map (·.column)) values = some bound →
    List.Forall₂ (fun place value => ∃ k, place = c + k ∧
      BoundTo readFile cols scalar (items.map (·.column)) values k value)
      (attachedFrom vendor c items) bound := by
  induction items with
  | nil =>
    intro n m c values bound placed width bindings
    cases bindings
    exact .nil
  | cons item items ih =>
    intro n m c values bound placed width bindings
    obtain ⟨next, text, rest⟩ := placed
    cases values with
    | nil => cases width
    | cons v values =>
      have lob := reported.lob_iff item.column
      have later : ∀ {tail : List (Option CString)},
          bindRow readFile cols scalar (items.map (·.column)) values = some tail →
          List.Forall₂ (fun place value => ∃ k, place = c + k ∧
            BoundTo readFile cols scalar ((item :: items).map (·.column)) (v :: values) k value)
            (attachedFrom vendor (c + 1) items) tail := by
        intro tail bindings
        refine (ih (c + 1) rest (by simpa using width) bindings).imp fun place value bound => ?_
        obtain ⟨k, same, colName, w, name, value, bound⟩ := bound
        exact ⟨k + 1, by omega, colName, w, by simpa using name, by simpa using value, bound⟩
      simp only [List.map_cons, bindRow] at bindings
      rw [attachedFrom]
      rcases columnText_marks text with ⟨some, -, marks⟩ | ⟨none, -, marks⟩
      · rw [if_pos (lob.mp ⟨_, some⟩)] at bindings
        rw [marks, List.replicate_zero, List.nil_append]
        exact later bindings
      · have scalarColumn : ¬ dbTypeLobKind (dataTypeOf cols item.column) ≠ .none := by
          intro written
          obtain ⟨literal, present⟩ := lob.mpr written
          rw [none] at present
          cases present
        rw [if_neg scalarColumn] at bindings
        simp only [Option.bind_eq_bind, Option.bind_eq_some_iff] at bindings
        obtain ⟨value, own, tail, others, same⟩ := bindings
        cases same
        rw [marks, List.replicate_one, List.singleton_append]
        exact .cons ⟨0, rfl, item.column, v, rfl, rfl, own⟩ (later others)

theorem KeysPlaced.attached {items : List Item} : ∀ {n m : Nat} (c : Nat),
    KeysPlaced vendor cols n items m →
    attachedFrom vendor c items = (List.range items.length).map (c + ·) := by
  induction items with
  | nil =>
    intro n m c _
    rfl
  | cons item items ih =>
    intro n m c placed
    rw [attachedFrom, keyText_marks placed.1, ih (c + 1) placed.2, List.length_cons,
      List.range_succ_eq_map, List.map_cons, List.map_map, List.replicate_one,
      List.singleton_append, Nat.add_zero]
    congr 1
    refine List.map_congr_left fun k _ => ?_
    simp only [Function.comp_apply]
    omega

theorem Placed.hasLobPlaceholder {items : List Item} : ∀ {n m : Nat},
    Placed vendor cols n items m → ∀ (c : Nat) (item : Item), items[c]? = some item →
    ((∃ literal, vendor.lobPlaceholder (dataTypeOf cols item.column) = some literal) ↔
      vendor.lobPlaceholder (dataTypeOf cols item.column) = some item.text) := by
  induction items with
  | nil =>
    intro n m _ c item inside
    cases inside
  | cons first items ih =>
    intro n m placed c item inside
    obtain ⟨next, text, rest⟩ := placed
    cases c with
    | zero =>
      cases inside
      rcases columnText_marks text with ⟨some, -⟩ | ⟨none, -⟩
      · exact ⟨fun _ => some, fun _ => ⟨_, some⟩⟩
      · exact ⟨fun ⟨_, found⟩ => by simp [none] at found, fun found => by simp [none] at found⟩
    | succ c => exact ih rest c item inside

/-- A column has the LOB placeholder exactly when its type is written after the statement. -/
theorem Placed.lob_iff (reported : ReportedColumns vendor cols) {items : List Item} {n m : Nat}
    (placed : Placed vendor cols n items m) {c : Nat} {colName : CString}
    (name : (items.map (·.column))[c]? = some colName) :
    HasLobPlaceholder vendor cols items c ↔
      dbTypeLobKind (dataTypeOf cols colName) ≠ .none := by
  rw [List.getElem?_map, Option.map_eq_some_iff] at name
  obtain ⟨item, inside, rfl⟩ := name
  rw [← reported.lob_iff, placed.hasLobPlaceholder c item inside]
  constructor
  · rintro ⟨other, same, lob⟩
    rw [inside] at same
    cases same
    exact lob
  · exact fun lob => ⟨item, inside, lob⟩

end Placement

theorem lobWriteKind_isSome (cols : List ColMetadata) (colName : CString) (v : ColValue) :
    (∃ isBlob, lobWriteKind cols colName v = some isBlob) ↔
      dbTypeLobKind (dataTypeOf cols colName) ≠ .none ∧ v.isEmpty = false := by
  rw [lobWriteKind]
  cases v.isEmpty <;> cases dbTypeLobKind (dataTypeOf cols colName) <;> simp

end OciWrapper.Dml

import OciWrapper.Dml.TypeClass
import OciWrapper.Text.Buffers

namespace OciWrapper.Dml

open OciWrapper.Text

inductive Vendor
  | oracle | mssql
  deriving DecidableEq

inductive DmlKind
  | insert | update
  deriving DecidableEq

def isoDateMask : CString := "YYYY-MM-DD HH24:MI:SS".toList
def isoTsMask : CString := "YYYY-MM-DD HH24:MI:SS.FF6".toList

/-- `oracle_bind_placeholder`. -/
def oracleBindPlaceholder (pos outMax : Nat) : Option CString :=
  if pos < 1 then none else fmt outMax (':' :: Nat.toDigits 10 pos)

/-- `ms_bind_placeholder`. -/
def msBindPlaceholder (pos outMax : Nat) : Option CString :=
  if pos < 1 then none else fmt outMax ['?']

/-- `strstr(s, part) != NULL`. -/
def hasPart (s : CString) (part : String) : Bool := (strstr part.toList s).isSome

/-- What `oracle_value_expr` puts around its operand. -/
def oracleValueWrap (dtype : CString) : CString × CString :=
  if dtype = "DATE".toList then ("TO_DATE(".toList, ",'".toList ++ isoDateMask ++ "')".toList)
  else if "TIMESTAMP".toList.isPrefixOf dtype then
    ("TO_TIMESTAMP(".toList, ",'".toList ++ isoTsMask ++ "')".toList)
  else if hasPart dtype "INTERVAL" && hasPart dtype "MONTH" then
    ("TO_YMINTERVAL(".toList, [')'])
  else if hasPart dtype "INTERVAL" && hasPart dtype "SECOND" then
    ("TO_DSINTERVAL(".toList, [')'])
  else ([], [])

/-- What `ms_value_expr` puts around its operand. -/
def msValueWrap (dtype : CString) : CString × CString :=
  let s := skipBlanks dtype
  if baseIs s "DATETIME2" || baseIs s "DATETIME" || baseIs s "SMALLDATETIME" then
    ("CAST(".toList, " AS datetime2(7))".toList)
  else if baseIs s "DATE" then ("CAST(".toList, " AS date)".toList)
  else if baseIs s "DATETIMEOFFSET" then ("CAST(".toList, " AS datetimeoffset(7))".toList)
  else if baseIs s "TIME" then ("CAST(".toList, " AS time(7))".toList)
  else if baseIs s "VARBINARY" || baseIs s "BINARY" then
    ("CONVERT(varbinary(max), ".toList, ", 2)".toList)
  else ([], [])

def oracleLobPlaceholder (dtype : CString) : Option CString :=
  if dtype = "BLOB".toList then some "EMPTY_BLOB()".toList
  else if dtype = "CLOB".toList ∨ dtype = "NCLOB".toList then some "EMPTY_CLOB()".toList
  else none

def msLobPlaceholder (dtype : CString) : Option CString :=
  let s := skipBlanks dtype
  if hasMaxSuffix (afterBase s) && baseIs s "VARBINARY" then some "0x".toList
  else if baseIs s "IMAGE" then some "0x".toList
  else none

/-- `oracle_row_locator_clauses`: nothing after the column list, and the tail. -/
def oracleRowLocatorClauses (pos midMax tailMax : Nat) : Option (CString × CString) :=
  if pos < 1 ∨ midMax = 0 then none
  else (fmt tailMax ("RETURNING ROWID INTO :".toList ++ Nat.toDigits 10 pos)).map fun tail =>
    ([], tail)

/-- The key in brackets, its closing brackets doubled, in a buffer of 300 bytes. -/
def bracketed (key : CString) : Option CString :=
  let rec copy (used : Nat) : CString → Option CString
    | [] => some []
    | c :: key =>
      if 300 ≤ used + 3 then none
      else if c = ']' then (copy (used + 2) key).map fun rest => c :: ']' :: rest
      else (copy (used + 1) key).map (c :: ·)
  (copy 1 key).map fun body => '[' :: body ++ [']']

/-- `ms_row_locator_clauses` for the one key column that `table_key` found, or none. -/
def msRowLocatorClauses (key : Option CString) (midMax tailMax : Nat) :
    Option (CString × CString) :=
  if midMax = 0 ∨ tailMax = 0 then none
  else
    match key with
    | none => some ([], [])
    | some key =>
      if key = [] then none
      else do
        let q ← bracketed key
        let mid ← fmt midMax ("OUTPUT inserted.".toList ++ q ++ " INTO @dm_k (k)".toList)
        some (mid, [])

namespace Vendor

def bindPlaceholder : Vendor → Nat → Nat → Option CString
  | oracle => oracleBindPlaceholder
  | mssql => msBindPlaceholder

def valueWrap : Vendor → CString → CString × CString
  | oracle => oracleValueWrap
  | mssql => msValueWrap

def valueExpr (vendor : Vendor) (dtype operand : CString) (outMax : Nat) : Option CString :=
  fmt outMax ((vendor.valueWrap dtype).1 ++ operand ++ (vendor.valueWrap dtype).2)

def lobPlaceholder : Vendor → CString → Option CString
  | oracle => oracleLobPlaceholder
  | mssql => msLobPlaceholder

def rowLocatorClauses (vendor : Vendor) (key : Option CString) (pos midMax tailMax : Nat) :
    Option (CString × CString) :=
  match vendor with
  | oracle => oracleRowLocatorClauses pos midMax tailMax
  | mssql => msRowLocatorClauses key midMax tailMax

/-- The character by which the vendor's statements mark a bind. -/
def bindMark : Vendor → Char
  | oracle => ':'
  | mssql => '?'

end Vendor

/-- The binds marked in a text, outside its quotes. -/
def markers (mark : Char) : Bool → CString → Nat
  | _, [] => 0
  | quoted, c :: s =>
    if c = '\'' then markers mark (!quoted) s
    else (if c = mark ∧ quoted = false then 1 else 0) + markers mark quoted s

/-- Whether the text ends inside quotes. -/
def endsQuoted (quoted : Bool) (s : CString) : Bool :=
  s.foldl (fun quoted c => if c = '\'' then !quoted else quoted) quoted

theorem markers_append (mark : Char) (quoted : Bool) (a b : CString) :
    markers mark quoted (a ++ b) = markers mark quoted a + markers mark (endsQuoted quoted a) b := by
  induction a generalizing quoted with
  | nil => simp [markers, endsQuoted]
  | cons c a ih =>
    rw [List.cons_append, markers, markers]
    split
    · rw [ih, endsQuoted, endsQuoted, List.foldl_cons]
      simp [*]
    · rw [ih, Nat.add_assoc, endsQuoted, endsQuoted, List.foldl_cons]
      simp [*]

theorem markers_plain {mark : Char} {s : CString} (plain : ∀ c ∈ s, c ≠ mark ∧ c ≠ '\'')
    (quoted : Bool) : markers mark quoted s = 0 ∧ endsQuoted quoted s = quoted := by
  induction s with
  | nil => simp [markers, endsQuoted]
  | cons c s ih =>
    obtain ⟨unmarked, unquoted⟩ := plain c List.mem_cons_self
    obtain ⟨rest, ends⟩ := ih fun d member => plain d (List.mem_cons_of_mem c member)
    simp only [markers, endsQuoted, List.foldl_cons, if_neg unquoted] at ends ⊢
    exact ⟨by simp [unmarked, rest], ends⟩

theorem digit_range {n : Nat} {c : Char} (member : c ∈ Nat.toDigits 10 n) :
    48 ≤ c.toNat ∧ c.toNat ≤ 57 := by
  have digit := Nat.isDigit_of_mem_toDigits (by decide) (by decide) member
  simp only [Char.isDigit, Bool.and_eq_true, decide_eq_true_eq] at digit
  exact digit

/-- A placeholder is one mark. -/
theorem Vendor.markers_bindPlaceholder {vendor : Vendor} {pos outMax : Nat} {ph : CString}
    (made : vendor.bindPlaceholder pos outMax = some ph) :
    markers vendor.bindMark false ph = 1 ∧ endsQuoted false ph = false := by
  cases vendor with
  | oracle =>
    simp only [bindPlaceholder, oracleBindPlaceholder] at made
    split at made
    · cases made
    · obtain ⟨rfl, -⟩ := fmt_eq_some made
      have plain : ∀ c ∈ Nat.toDigits 10 pos, c ≠ ':' ∧ c ≠ '\'' := by
        intro c member
        have range := digit_range member
        constructor
        · rintro rfl
          exact absurd range (by decide)
        · rintro rfl
          exact absurd range (by decide)
      obtain ⟨unmarked, ends⟩ := markers_plain plain false
      have colon : (':' : Char) ≠ '\'' := by decide
      constructor
      · rw [markers, if_neg colon, bindMark, unmarked]
        rfl
      · rw [endsQuoted, List.foldl_cons, if_neg colon]
        exact ends
  | mssql =>
    simp only [bindPlaceholder, msBindPlaceholder] at made
    split at made
    · cases made
    · obtain ⟨rfl, -⟩ := fmt_eq_some made
      decide

theorem Vendor.valueWrap_unmarked (vendor : Vendor) (dtype : CString) :
    markers vendor.bindMark false (vendor.valueWrap dtype).1 = 0 ∧
      endsQuoted false (vendor.valueWrap dtype).1 = false ∧
      markers vendor.bindMark false (vendor.valueWrap dtype).2 = 0 := by
  cases vendor with
  | oracle =>
    simp only [valueWrap, oracleValueWrap]
    repeat' split
    all_goals decide
  | mssql =>
    simp only [valueWrap, msValueWrap]
    repeat' split
    all_goals decide

/-- The wrapped operand has the one mark of its placeholder. -/
theorem Vendor.markers_valueExpr {vendor : Vendor} {pos phMax outMax : Nat}
    {dtype ph expr : CString} (made : vendor.bindPlaceholder pos phMax = some ph)
    (wrapped : vendor.valueExpr dtype ph outMax = some expr) :
    markers vendor.bindMark false expr = 1 := by
  obtain ⟨rfl, -⟩ := fmt_eq_some wrapped
  obtain ⟨one, ends⟩ := markers_bindPlaceholder made
  obtain ⟨before, closed, after⟩ := vendor.valueWrap_unmarked dtype
  rw [List.append_assoc, markers_append, markers_append, before, closed, one, ends, after]

theorem Vendor.markers_lobPlaceholder {vendor : Vendor} {dtype literal : CString}
    (lob : vendor.lobPlaceholder dtype = some literal) :
    markers vendor.bindMark false literal = 0 := by
  cases vendor with
  | oracle =>
    simp only [lobPlaceholder, oracleLobPlaceholder] at lob
    split at lob
    · cases lob
      decide
    · split at lob
      · cases lob
        decide
      · cases lob
  | mssql =>
    simp only [lobPlaceholder, msLobPlaceholder] at lob
    split at lob
    · cases lob
      decide
    · split at lob
      · cases lob
        decide
      · cases lob

/-- The wrapping of an operand adds at most 42 characters. -/
theorem Vendor.valueWrap_length (vendor : Vendor) (dtype : CString) :
    (vendor.valueWrap dtype).1.length + (vendor.valueWrap dtype).2.length ≤ 42 := by
  cases vendor with
  | oracle =>
    simp only [valueWrap, oracleValueWrap]
    repeat' split
    all_goals decide
  | mssql =>
    simp only [valueWrap, msValueWrap]
    repeat' split
    all_goals decide

end OciWrapper.Dml
